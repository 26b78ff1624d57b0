import AccessControl.Proofs.Lift
import AccessControl.Proofs.Masking

/-! Linked records that survive masking. Each of them has been masked by itself: it stands where an
allowed record stood, and is what masking leaves of that. -/
namespace AccessControl

/-- A link of a record: the field that holds it, and its place where the field holds a list. -/
inductive Link where
  | one (key : String)
  | item (key : String) (index : Nat)

def Link.key : Link → String
  | .one key | .item key _ => key

namespace Record

def follow? (record : Record) : Link → Option Record
  | .one key =>
    match record.get? key with
    | some (.one inner) => some inner
    | _ => none
  | .item key index =>
    match record.get? key with
    | some (.many records) => records[index]?
    | _ => none

variable {record inner : Record} {key : String} {index : Nat}

theorem get?_of_follow?_one (h : record.follow? (.one key) = some inner) :
    record.get? key = some (.one inner) := by
  simp only [follow?] at h
  split at h
  · rename_i found
    rw [found, Option.some.inj h]
  · cases h

theorem get?_of_follow?_item (h : record.follow? (.item key index) = some inner) :
    ∃ records, record.get? key = some (.many records) ∧ records[index]? = some inner := by
  simp only [follow?] at h
  split at h
  · rename_i records found
    exact ⟨records, found, h⟩
  · cases h

end Record

namespace Guard

/-- A nested record, with the trail of links to it. No link is in a field that the decision on its
owner masks. -/
inductive Reached (guard : Guard) (action : String) : Record → List Link → Record → Prop where
  | here {record : Record} : Reached guard action record [] record
  | link {owner inner kept : Record} {link : Link} {trail : List Link}
    (unnamed : ∀ outcome, guard.check owner.type.name action = .ok outcome →
      link.key ∉ outcome.mask)
    (leads : owner.follow? link = some inner) (onward : Reached guard action inner trail kept) :
    Reached guard action owner (link :: trail) kept

/-- What stood behind a link of a masked record, once its owner was redacted. The items of a list are
those that were chosen from the list before, in the same order. -/
inductive Behind (guard : Guard) (action : String) (record masked : Record) :
    Link → Record → Record → Prop where
  | one {outcome : Outcome} {key : String} {source kept : Record}
    (decided : guard.checkRecord record action = .ok outcome)
    (before : (record.redact outcome.mask).get? key = some (.one source))
    (after : masked.get? key = some (.one kept)) :
    Behind guard action record masked (.one key) source kept
  | item {outcome : Outcome} {key : String} {index : Nat} {source kept : Record}
    {records chosen records' : List Record}
    (decided : guard.checkRecord record action = .ok outcome)
    (before : (record.redact outcome.mask).get? key = some (.many records))
    (after : masked.get? key = some (.many records'))
    (ordered : chosen.Sublist records)
    (paired : List.Forall₂ (fun source kept => guard.mask action source = .ok (some kept))
      chosen records')
    (stood : chosen[index]? = some source) (stands : records'[index]? = some kept) :
    Behind guard action record masked (.item key index) source kept

/-- What stood at a trail of a masked record, each owner on the way redacted. -/
inductive Source (guard : Guard) (action : String) :
    Record → Record → List Link → Record → Record → Prop where
  | here {record masked : Record} : Source guard action record masked [] record masked
  | link {record masked inner inner' source kept : Record} {link : Link} {trail : List Link}
    (first : Behind guard action record masked link inner inner')
    (onward : Source guard action inner inner' trail source kept) :
    Source guard action record masked (link :: trail) source kept

variable {guard : Guard} {action : String} {record masked kept : Record} {link : Link}

theorem exists_chosen {records : List Record} {results : List (Option Record)}
    (h : records.mapM (guard.mask action) = .ok results) :
    ∃ chosen, chosen.Sublist records ∧
      List.Forall₂ (fun source kept => guard.mask action source = .ok (some kept))
        chosen results.reduceOption := by
  rw [mapM_eq_ok_iff] at h
  induction h with
  | nil => exact ⟨[], .slnil, .nil⟩
  | @cons record result _ _ first _ ih =>
    obtain ⟨chosen, ordered, paired⟩ := ih
    cases result with
    | none => exact ⟨chosen, ordered.cons record, by simpa using paired⟩
    | some kept =>
      rw [List.reduceOption_cons_of_some]
      exact ⟨record :: chosen, ordered.cons_cons record, .cons first paired⟩

theorem exists_field_of_mask {outcome : Outcome} {fields : List (String × Slot Record)}
    {key : String} {slot' : Slot Record} (declared : record.Everywhere Record.Declared)
    (masks : guard.maskFields action outcome.mask record.type (record.redact outcome.mask).fields
      = .ok fields) (h : Keyed.get? key fields = some slot') :
    ∃ slot, (record.redact outcome.mask).get? key = some slot ∧
      (∀ inner ∈ slot.records, inner.Everywhere Record.Declared) ∧
      record.type.Walks key slot ∧
      guard.maskField action outcome.mask record.type key slot = .ok slot' := by
  have redacted := declared.redact Record.Declared.stable outcome.mask
  have rel := get?_maskFields masks key
  rw [h] at rel
  generalize before : Keyed.get? key (record.redact outcome.mask).fields = found at rel
  cases rel with
  | @some slot _ hs =>
    refine ⟨slot, before, redacted.get? before, ?_, hs⟩
    simpa using redacted.here key slot (Keyed.mem_of_get? before)

theorem getElem?_of_forall₂ {α β : Type} {r : α → β → Prop} {xs : List α} {ys : List β}
    (h : List.Forall₂ r xs ys) {index : Nat} {y : β} (hy : ys[index]? = some y) :
    ∃ x, xs[index]? = some x ∧ r x y := by
  induction h generalizing index with
  | nil => simp at hy
  | cons first _ ih =>
    cases index with
    | zero =>
      obtain rfl := Option.some.inj hy
      exact ⟨_, rfl, first⟩
    | succ index => exact ih hy

/-- One link: behind it stood a record of which masking left what stands there now. -/
theorem exists_behind (declared : record.Everywhere Record.Declared)
    (h : guard.mask action record = .ok (some masked))
    (unnamed : ∀ outcome, guard.check masked.type.name action = .ok outcome →
      link.key ∉ outcome.mask) (leads : masked.follow? link = some kept) :
    ∃ source, Behind guard action record masked link source kept ∧
      source.Everywhere Record.Declared ∧ guard.mask action source = .ok (some kept) := by
  obtain ⟨outcome, fields, decided, -, masks, rfl⟩ := mask_eq_some_iff.1 h
  obtain ⟨general, hg, same⟩ := check_mask_of_checkRecord decided
  have free : link.key ∉ outcome.mask := same ▸ unnamed general hg
  cases link with
  | one key =>
    have after := Record.get?_of_follow?_one leads
    obtain ⟨slot, before, nested, walks, hs⟩ := exists_field_of_mask declared masks after
    obtain ⟨source, rfl, hk⟩ := one_of_maskField free walks hs
    exact ⟨source, .one decided before after, nested source (by simp [Slot.records]), hk⟩
  | item key index =>
    obtain ⟨records', after, stands⟩ := Record.get?_of_follow?_item leads
    obtain ⟨slot, before, nested, walks, hs⟩ := exists_field_of_mask declared masks after
    obtain ⟨records, results, rfl, hr, rfl⟩ := many_of_maskField free walks hs
    obtain ⟨chosen, ordered, paired⟩ := exists_chosen hr
    obtain ⟨source, stood, hk⟩ := getElem?_of_forall₂ paired stands
    have hm : source ∈ records := ordered.subset (List.mem_of_getElem? stood)
    exact ⟨source, .item decided before after ordered paired stood stands, nested source hm, hk⟩

/-- No record survives masking but by itself. Every nested record that masking a record built by a
schema has kept, where no decision on the way names the field that it is in, is what masking leaves
of an allowed record: of the one that stood there once its owners were redacted. -/
theorem exists_source_of_reached {schema : Schema} {name : String} {value : Json}
    {trail : List Link} (built : schema.record name value = .ok record)
    (h : guard.mask action record = .ok (some masked))
    (reached : Reached guard action masked trail kept) :
    ∃ source, Source guard action record masked trail source kept ∧
      (∃ outcome, guard.checkRecord source action = .ok outcome ∧ outcome.allowed = true) ∧
      guard.mask action source = .ok (some kept) := by
  have declared := (Schema.record_regular built).mono fun _ regular => regular.declared
  clear built
  induction reached generalizing record with
  | here =>
    obtain ⟨outcome, _, decided, allowed, -, -⟩ := mask_eq_some_iff.1 h
    exact ⟨record, .here, ⟨outcome, decided, allowed⟩, h⟩
  | link unnamed leads _ ih =>
    obtain ⟨inner, behind, nested, hi⟩ := exists_behind declared h unnamed leads
    obtain ⟨source, onward, permitted, hs⟩ := ih hi nested
    exact ⟨source, .link behind onward, permitted, hs⟩

def personGuard : Guard where
  attributes := ⟨.null, .null⟩
  rulebook := ⟨[("team", [("get", [⟨[], [], .allow⟩])]),
    ("person", [("get", [⟨[.compare "obj.state" .eq (.string "listed")], ["pay"], .allow⟩])])]⟩
  fallback := .deny

def personType : ObjectType := ⟨"person", []⟩

def teamType : ObjectType :=
  ⟨"team", [⟨"lead", .object, some "person"⟩, ⟨"members", .array, some "person"⟩]⟩

def personData (state : String) : Json := .object [("state", .string state), ("pay", .string "low")]

def personRecord (state : String) (pay : Json) : Record :=
  ⟨personType, [("state", .scalar (.string state)), ("pay", .scalar pay)]⟩

def teamRecord : Record :=
  ⟨teamType, [("lead", .one (personRecord "hidden" (.string "low"))),
    ("members", .many [personRecord "hidden" (.string "low"),
      personRecord "listed" (.string "low")])]⟩

def maskedTeam : Record :=
  ⟨teamType, [("lead", .scalar accessDenied),
    ("members", .many [personRecord "listed" accessDenied])]⟩

def listedDecision : Decision :=
  ⟨["pay"], some (.all [.compare .eq "state" (.string "listed")]), .allow⟩

theorem mask_hidden : personGuard.mask "get" (personRecord "hidden" (.string "low")) = .ok none := by
  have checked : personGuard.check (personRecord "hidden" (.string "low")).type.name "get"
      = .ok ⟨true, some listedDecision⟩ := by cbv
  have uncovered : listedDecision.covers (personRecord "hidden" (.string "low")) = false := by cbv
  refine mask_eq_none_iff.2 ⟨⟨false, some listedDecision⟩, ?_, rfl⟩
  rw [checkRecord, checked]
  simp only [bind, Except.bind, uncovered, Bool.false_eq_true, if_false]
  rfl

theorem mask_teamRecord : personGuard.mask "get" teamRecord = .ok (some maskedTeam) := by
  have listed : personGuard.mask "get" (personRecord "listed" (.string "low"))
      = .ok (some (personRecord "listed" accessDenied)) := by cbv
  have checked : personGuard.checkRecord teamRecord "get"
      = .ok ⟨true, some ⟨[], none, .allow⟩⟩ := by cbv
  refine mask_eq_some_iff.2 ⟨_, maskedTeam.fields, checked, rfl, ?_, rfl⟩
  have unmasked :
      teamRecord.redact (Outcome.mask ⟨true, some ⟨[], none, .allow⟩⟩) = teamRecord := rfl
  rw [unmasked]
  simp [Outcome.mask, teamRecord, maskedTeam, teamType, ObjectType.field?, FieldType.walks,
    maskFields_cons, maskFields, maskField, maskSlot, maskList, mask_hidden, listed]

theorem exists_source_of_reached_member :
    Schema.record ⟨[teamType, personType]⟩ "team" (.object [("lead", personData "hidden"),
        ("members", .array [personData "hidden", personData "listed"])]) = .ok teamRecord ∧
      personGuard.mask "get" teamRecord = .ok (some maskedTeam) ∧
      Reached personGuard "get" maskedTeam [.item "members" 0]
        (personRecord "listed" accessDenied) ∧
      ∃ source, Source personGuard "get" teamRecord maskedTeam [.item "members" 0] source
          (personRecord "listed" accessDenied) ∧
        (∃ outcome, personGuard.checkRecord source "get" = .ok outcome ∧ outcome.allowed = true) ∧
        personGuard.mask "get" source = .ok (some (personRecord "listed" accessDenied)) := by
  have built : Schema.record ⟨[teamType, personType]⟩ "team"
      (.object [("lead", personData "hidden"),
        ("members", .array [personData "hidden", personData "listed"])]) = .ok teamRecord := by cbv
  have reached : Reached personGuard "get" maskedTeam [.item "members" 0]
      (personRecord "listed" accessDenied) := by
    refine .link (fun outcome h => ?_) (by cbv) .here
    have checked : personGuard.check maskedTeam.type.name "get"
        = .ok ⟨true, some ⟨[], none, .allow⟩⟩ := by cbv
    obtain rfl := Except.ok.inj (checked.symm.trans h)
    simp [Outcome.mask]
  exact ⟨built, mask_teamRecord, reached, exists_source_of_reached built mask_teamRecord reached⟩

end Guard
end AccessControl
