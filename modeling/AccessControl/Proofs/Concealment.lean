import AccessControl.Proofs.Masking
import AccessControl.Proofs.Projection

/-! What a mask conceals. Two records that differ in one field alone are masked alike, whatever the
field holds, if the decision names the field in its mask, and neither its filter nor any other path of
its mask leads into the field. -/
namespace AccessControl

namespace Path

def Behind (key text : String) : Prop := (key ++ ".").toList <+: text.toList

instance (key text : String) : Decidable (Behind key text) :=
  inferInstanceAs (Decidable (_ <+: _))

theorem eq_or_behind_of_head? {key text : String} (h : (ofText text).head? = some key) :
    text = key ∨ Behind key text := by
  cases cut : cut? text with
  | none =>
    rw [ofText_of_cut?_eq_none cut] at h
    exact .inl (Option.some.inj h)
  | some parts =>
    obtain ⟨head, rest⟩ := parts
    rw [ofText_of_cut?_eq_some cut] at h
    obtain rfl : head = key := Option.some.inj h
    refine .inr ⟨rest.toList, ?_⟩
    simp [cut?_eq_some cut]

end Path

namespace Record

/-- Records of one type with the same keys in the same order, and with the same field under each key
but one. -/
structure AgreeBut (key : String) (record other : Record) : Prop where
  type : other.type = record.type
  keys : Keyed.keys other.fields = Keyed.keys record.fields
  agree : ∀ name, name ≠ key → other.get? name = record.get? name

variable {record other : Record} {key operand : String} {path : Path}

namespace AgreeBut

theorem isSome_get? (same : record.AgreeBut key other) (name : String) :
    (other.get? name).isSome = (record.get? name).isSome := by
  rw [Bool.eq_iff_iff, get?, get?, Keyed.get?_isSome_iff, Keyed.get?_isSome_iff, same.keys]

theorem eq (distinct : record.Distinct) (same : record.AgreeBut key other)
    (last : other.get? key = record.get? key) : other = record := by
  have fields : other.fields = record.fields := by
    refine Keyed.eq_of_get? distinct same.keys fun name => ?_
    by_cases at_key : name = key
    · exact at_key ▸ last
    · exact same.agree name at_key
  obtain ⟨_, _⟩ := other
  obtain ⟨_, _⟩ := record
  obtain rfl := same.type
  rw [mk.injEq]
  exact ⟨rfl, fields⟩

theorem insert (same : record.AgreeBut key other) (name : String) (slot : Slot Record) :
    (record.insert name slot).AgreeBut key (other.insert name slot) where
  type := same.type
  keys := by rw [Record.insert, Record.insert, Keyed.keys_insert, Keyed.keys_insert, same.keys]
  agree other_name h := by
    by_cases written : other_name = name
    · subst written
      simp [Record.insert, get?]
    · simpa only [Record.insert, get?, Keyed.get?_insert_of_ne written] using same.agree _ h

theorem hasPath (same : record.AgreeBut key other) (off : path.head? = some key → path = [key]) :
    other.hasPath path = record.hasPath path := by
  match path with
  | [] => simp [Record.hasPath]
  | [name] => simpa only [Record.hasPath] using same.isSome_get? name
  | name :: next :: rest =>
    have elsewhere : name ≠ key := by
      rintro rfl
      cases off rfl
    simp only [Record.hasPath, same.agree name elsewhere]

theorem redactPath (same : record.AgreeBut key other) (off : path.head? ≠ some key) :
    (record.redactPath path).AgreeBut key (other.redactPath path) := by
  rw [Record.redactPath, Record.redactPath]
  cases path with
  | nil => simpa [setPath?] using same
  | cons name rest =>
    have elsewhere : name ≠ key := fun first => off (by simp [first])
    rw [setPath?_cons, setPath?_cons, same.agree name elsewhere]
    cases (record.get? name).bind (Slot.setPath? rest accessDenied) with
    | none => exact same
    | some slot => exact same.insert name slot

theorem redactPath_key (distinct : record.Distinct) (same : record.AgreeBut key other)
    (found : (record.get? key).isSome) : other.redactPath [key] = record.redactPath [key] := by
  have kept : (record.insert key (.scalar accessDenied)).Distinct := distinct.insert _
  have found' : (other.get? key).isSome := by rwa [same.isSome_get?]
  rw [Record.redactPath, Record.redactPath, setPath?, setPath?, if_pos found, if_pos found']
  exact (same.insert key _).eq kept (by simp [Record.insert, get?])

theorem foldl_redactPath (distinct : record.Distinct) (same : record.AgreeBut key other)
    (found : (record.get? key).isSome) {paths : List Path} (named : [key] ∈ paths)
    (off : ∀ path ∈ paths, path.head? = some key → path = [key]) :
    paths.foldl Record.redactPath other = paths.foldl Record.redactPath record := by
  -- the records differ at the key alone until the key comes up; from then on they are one record
  induction paths generalizing record other with
  | nil => cases named
  | cons path rest ih =>
    rw [List.forall_mem_cons] at off
    rw [List.foldl_cons, List.foldl_cons]
    by_cases now : path = [key]
    · rw [now, same.redactPath_key distinct found]
    · have elsewhere : path.head? ≠ some key := fun first => now (off.1 first)
      have later : [key] ∈ rest := (List.mem_cons.1 named).resolve_left (Ne.symm now)
      refine ih (distinct.redactPath path) (same.redactPath elsewhere) ?_ later off.2
      rwa [get?_redactPath_of_head? elsewhere]

/-- A mask that names a key, and leads nowhere behind it, leaves nothing of what was there. -/
theorem redact_eq {mask : List String} (distinct : record.Distinct)
    (same : record.AgreeBut key other) (plain : '.' ∉ key.toList) (named : key ∈ mask)
    (whole : ∀ text ∈ mask, ¬ Path.Behind key text) : other.redact mask = record.redact mask := by
  have single : Path.ofText key = [key] := Path.ofText_of_no_dot plain
  have off : ∀ path ∈ mask.map Path.ofText, path.head? = some key → path = [key] := by
    intro path hp first
    obtain ⟨text, ht, rfl⟩ := List.mem_map.1 hp
    rcases Path.eq_or_behind_of_head? first with rfl | behind
    · exact single
    · exact absurd behind (whole text ht)
  by_cases found : (record.get? key).isSome
  · have present : (mask.map Path.ofText).filter other.hasPath =
        (mask.map Path.ofText).filter record.hasPath :=
      List.filter_congr fun path hp => same.hasPath (off path hp)
    rw [redact, redact, present]
    refine same.foldl_redactPath distinct found (List.mem_filter.2 ⟨?_, ?_⟩) fun path hp =>
      off path (List.mem_filter.1 hp).1
    · exact single ▸ List.mem_map_of_mem named
    · simpa [Record.hasPath] using found
  · -- neither record has the field, so that they do not differ at all
    have absent := same.isSome_get? key
    rw [Bool.not_eq_true, Option.isSome_eq_false_iff, Option.isNone_iff_eq_none] at found
    rw [found, Option.isSome_none, Option.isSome_eq_false_iff, Option.isNone_iff_eq_none] at absent
    rw [same.eq distinct (by rw [absent, found])]

theorem attributeAt_eq (distinct : record.Distinct) (same : record.AgreeBut key other)
    (elsewhere : operand ≠ key) (off : ¬ Path.Behind key operand) :
    attributeAt other.toJson operand = attributeAt record.toJson operand := by
  have distinct' : other.Distinct := by rwa [Distinct, same.keys]
  have agree (name : String) (h : name ≠ key) : other.toJson.get? name = record.toJson.get? name := by
    rw [get?_toJson distinct', get?_toJson distinct, same.agree name h]
  obtain ⟨head, rest, split⟩ := List.exists_cons_of_ne_nil (Path.ofText_ne_nil operand)
  have aside : head ≠ key := by
    rintro rfl
    exact (Path.eq_or_behind_of_head? (by rw [split]; rfl)).elim elsewhere off
  rw [attributeAt, attributeAt, split, Json.getPath?_cons, Json.getPath?_cons, agree head aside,
    agree operand elsewhere]

end AgreeBut
end Record

/-- The outcome conceals a field: its mask names the key, no other path of the mask leads into the
field, and neither does any attribute that the filter reads. -/
structure Outcome.Conceals (key : String) (outcome : Outcome) : Prop where
  named : key ∈ outcome.mask
  whole : ∀ text ∈ outcome.mask, ¬ Path.Behind key text
  unread : ∀ decision ∈ outcome.decision, ∀ filter ∈ decision.filter,
    ∀ operand ∈ filter.attributes, operand ≠ key ∧ ¬ Path.Behind key operand

namespace Guard

variable {guard : Guard} {action key : String} {record other : Record}

/-- Masking does not depend on what it conceals, whatever stands there: the same failure, the same
refusal, or the same masked record. -/
theorem mask_eq_of_concealed (distinct : record.Distinct) (same : record.AgreeBut key other)
    (plain : '.' ∉ key.toList) (conceals : ∀ outcome,
      guard.check record.type.name action = .ok outcome → outcome.Conceals key) :
    guard.mask action other = guard.mask action record := by
  have judged : guard.checkRecord other action = guard.checkRecord record action :=
    checkRecord_congr same.type fun general checked decision hd filter hf operand ho =>
      have off := (conceals general checked).unread decision hd filter hf operand ho
      same.attributeAt_eq distinct off.1 off.2
  rw [mask, mask, judged]
  cases decided : guard.checkRecord record action with
  | error fault => rfl
  | ok outcome =>
    obtain ⟨general, checked, masks⟩ := check_mask_of_checkRecord decided
    have conceals := conceals general checked
    have redacted : other.redact outcome.mask = record.redact outcome.mask :=
      same.redact_eq distinct plain (masks ▸ conceals.named) (masks ▸ conceals.whole)
    simp only [bind, Except.bind, redacted]

def openCase : Decision :=
  ⟨["file"], some (.all [.compare .eq "state" (.string "open")]), .allow⟩

def caseGuard : Guard where
  attributes := ⟨.null, .null⟩
  rulebook := ⟨[("case",
    [("get", [⟨[.compare "obj.state" .eq (.string "open")], ["file"], .allow⟩])])]⟩
  fallback := .deny

def page : Record := ⟨⟨"page", []⟩, [("text", .scalar (.string "secret"))]⟩

def caseRecord (file : Slot Record) : Record :=
  ⟨⟨"case", [⟨"file", .array, some "page"⟩]⟩, [("state", .scalar (.string "open")), ("file", file)]⟩

/-- A linked page and a list of pages are concealed alike. -/
theorem mask_eq_of_concealed_case :
    caseGuard.check "case" "get" = .ok ⟨true, some openCase⟩ ∧
    caseGuard.mask "get" (caseRecord (.one page)) =
      .ok (some (caseRecord (.scalar accessDenied))) ∧
    caseGuard.mask "get" (caseRecord (.many [page, page])) =
      caseGuard.mask "get" (caseRecord (.one page)) := by
  have checked : caseGuard.check "case" "get" = .ok ⟨true, some openCase⟩ := by cbv
  have conceals : Outcome.Conceals "file" ⟨true, some openCase⟩ := by
    refine ⟨by decide, by decide, ?_⟩
    rintro _ ⟨⟩ _ ⟨⟩ operand ho
    obtain rfl : operand = "state" := by simpa [Filter.attributes, Filter.listAttributes] using ho
    decide
  have distinct : (caseRecord (.one page)).Distinct := by
    simp [Record.Distinct, caseRecord, Keyed.keys]
  have same : (caseRecord (.one page)).AgreeBut "file" (caseRecord (.many [page, page])) := by
    refine ⟨rfl, rfl, fun name off => ?_⟩
    simp [caseRecord, Record.get?, Keyed.get?, Ne.symm off]
  refine ⟨checked, by cbv, mask_eq_of_concealed distinct same (by decide) fun outcome h => ?_⟩
  exact Except.ok.inj (checked.symm.trans h) ▸ conceals

end Guard
end AccessControl
