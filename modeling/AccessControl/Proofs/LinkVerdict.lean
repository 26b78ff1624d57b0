import AccessControl.Proofs.FieldRedaction
import AccessControl.Proofs.Lift
import AccessControl.Proofs.Masking
import AccessControl.Proofs.Projection

/-! What decides about a linked record. Masking redacts the owner before it walks the links, so a
linked record is judged as the mask of its owner has left it. That is the verdict on the record as it
was wherever the mask stays off the attributes that the verdict reads. -/
namespace AccessControl

/-- Neither path leads through the other. -/
def Path.Apart (path other : Path) : Prop := ¬ path <+: other ∧ ¬ other <+: path

/-- A path of a mask that is apart from an operand also misses the operand as one flat key. -/
theorem Path.Apart.flat {text operand : String} (apart : (ofText text).Apart (ofText operand)) :
    (ofText text).Apart [operand] := by
  cases cut : cut? operand with
  | none => rwa [ofText_of_cut?_eq_none cut] at apart
  | some parts =>
    have dot : '.' ∈ operand.toList := by simp [cut?_eq_some cut]
    have absent : operand ∉ ofText text := fun hm => dot_not_mem_of_mem_ofText hm dot
    constructor
    · intro on
      obtain ⟨segment, rest, split⟩ := List.exists_cons_of_ne_nil (ofText_ne_nil text)
      rw [split, List.cons_prefix_cons] at on
      exact absent (by simp [split, on.1])
    · exact fun on => absent (on.subset (by simp))

/-- The paths of a mask that lead through a key, from behind the key. -/
def maskBelow (key : String) (mask : List String) : List String :=
  mask.filterMap fun text =>
    match Path.cut? text with
    | some (head, rest) => if head = key then some rest else none
    | none => none

namespace Record

variable {record inner : Record} {key operand : String} {path rest : Path} {mask : List String}

theorem getPath?_redactPath {other : Path} (distinct : record.Everywhere Distinct)
    (apart : path.Apart other) :
    (record.redactPath path).toJson.getPath? other = record.toJson.getPath? other := by
  rw [redactPath]
  cases h : record.setPath? path accessDenied with
  | none => rfl
  | some updated =>
    exact Json.getPath?_setPath?_of_incomparable (setPath?_toJson distinct h) apart.1 apart.2

theorem attributeAt_redact (distinct : record.Everywhere Distinct)
    (apart : ∀ text ∈ mask, record.hasPath (.ofText text) = true →
      (Path.ofText text).Apart (.ofText operand)) :
    attributeAt (record.redact mask).toJson operand = attributeAt record.toJson operand := by
  have off : ∀ path ∈ (mask.map Path.ofText).filter record.hasPath,
      path.Apart (.ofText operand) ∧ path.Apart [operand] := by
    intro path hp
    obtain ⟨hm, found⟩ := List.mem_filter.1 hp
    obtain ⟨text, named, rfl⟩ := List.mem_map.1 hm
    exact ⟨apart text named found, (apart text named found).flat⟩
  rw [redact]
  generalize (mask.map Path.ofText).filter record.hasPath = paths at off
  clear apart
  induction paths generalizing record with
  | nil => rfl
  | cons path paths ih =>
    rw [List.forall_mem_cons] at off
    have flat (data : Json) : data.get? operand = data.getPath? [operand] := by
      rw [Json.getPath?_cons]
      cases data.get? operand <;> simp
    rw [List.foldl_cons, ih (distinct.redactPath Distinct.stable path) off.2, attributeAt, attributeAt,
      flat, flat, getPath?_redactPath distinct off.1.1, getPath?_redactPath distinct off.1.2]

theorem get?_redactPath_one (found : record.get? key = some (.one inner)) (deeper : rest ≠ []) :
    (record.redactPath (key :: rest)).get? key = some (.one (inner.redactPath rest)) := by
  rw [get?_redactPath_cons, if_pos rfl, found, Option.map_some, Slot.redactPath_one deeper]

/-- Redacting the owner redacts a linked record by what the mask says below the link. -/
theorem get?_redact_one (found : record.get? key = some (.one inner)) (unnamed : key ∉ mask) :
    (record.redact mask).get? key = some (.one (inner.redact (maskBelow key mask))) := by
  rw [redact, redact, maskBelow, List.foldl_filter, List.foldl_map, List.foldl_filter,
    List.foldl_map, List.foldl_filterMap]
  refine List.foldl_rel
    (r := fun current left : Record => current.get? key = some (.one left)) found
    fun text named current left standing => ?_
  cases cut : Path.cut? text with
  | none =>
    have off : (Path.ofText text).head? ≠ some key := by
      rw [Path.ofText_of_cut?_eq_none cut]
      rintro ⟨rfl⟩
      exact unnamed named
    split
    · rwa [get?_redactPath_of_head? off]
    · exact standing
  | some parts =>
    obtain ⟨head, rest⟩ := parts
    have split := Path.ofText_of_cut?_eq_some cut
    by_cases through : head = key
    · subst through
      have same : record.hasPath (head :: Path.ofText rest) = inner.hasPath (.ofText rest) :=
        hasPath_one found (Path.ofText_ne_nil rest)
      simp only [split, same, if_true]
      split
      · exact get?_redactPath_one standing (Path.ofText_ne_nil rest)
      · exact standing
    · have off : (Path.ofText text).head? ≠ some key := by simpa [split] using through
      simp only [through, if_false]
      split
      · rwa [get?_redactPath_of_head? off]
      · exact standing

end Record

namespace Guard

variable {guard : Guard} {action : String} {record inner masked : Record} {outcome : Outcome}
  {key : String}

theorem exists_result_of_link (declared : record.Everywhere Record.Declared)
    (h : guard.mask action record = .ok (some masked))
    (decided : guard.checkRecord record action = .ok outcome)
    (link : record.get? key = some (.one inner)) (unnamed : key ∉ outcome.mask) :
    ∃ result, guard.mask action (inner.redact (maskBelow key outcome.mask)) = .ok result ∧
      masked.get? key = some ((result.map .one).getD (.scalar accessDenied)) := by
  obtain ⟨other, fields, decided', -, masks, rfl⟩ := mask_eq_some_iff.1 h
  obtain rfl : other = outcome := Except.ok.inj (decided'.symm.trans decided)
  have before := Record.get?_redact_one link unnamed
  have walks := (declared.redact Record.Declared.stable other.mask).here key _
    (Keyed.mem_of_get? before)
  rw [Record.redact_type] at walks
  have rel := get?_maskFields masks key
  rw [show Keyed.get? key (record.redact other.mask).fields = _ from before] at rel
  generalize after : Keyed.get? key fields = found at rel
  cases rel with
  | some masks =>
    rw [maskField_one ⟨unnamed, ObjectType.walks_one_iff.1 walks⟩] at masks
    simp only [bind_eq_ok_iff, pure_eq_ok_iff] at masks
    obtain ⟨result, hr, rfl⟩ := masks
    exact ⟨result, hr, after⟩

/-- A linked record that a mask does not name is judged as the redaction of its owner has left it:
just if that is denied, the marker stands in its place. Where no path of the mask that leads into the
linked record meets an attribute that the filter on it reads, this is the verdict on the linked
record as it was. -/
theorem denied_link_iff {schema : Schema} {name : String} {value : Json}
    (built : schema.record name value = .ok record)
    (h : guard.mask action record = .ok (some masked))
    (decided : guard.checkRecord record action = .ok outcome)
    (link : record.get? key = some (.one inner)) (unnamed : key ∉ outcome.mask) :
    (masked.get? key = some (.scalar accessDenied) ↔
      ∃ verdict, guard.checkRecord (inner.redact (maskBelow key outcome.mask)) action = .ok verdict ∧
        verdict.allowed = false) ∧
    ((∀ general, guard.check inner.type.name action = .ok general →
        ∀ decision ∈ general.decision, ∀ filter ∈ decision.filter, ∀ operand ∈ filter.attributes,
          ∀ text ∈ maskBelow key outcome.mask, inner.hasPath (.ofText text) = true →
            (Path.ofText text).Apart (.ofText operand)) →
      (masked.get? key = some (.scalar accessDenied) ↔
        ∃ verdict, guard.checkRecord inner action = .ok verdict ∧ verdict.allowed = false)) := by
  have regular := Schema.record_regular built
  have distinct : inner.Everywhere Record.Distinct :=
    (regular.get? link inner (by simp [Slot.records])).mono fun _ here => here.distinct
  have judged : masked.get? key = some (.scalar accessDenied) ↔
      ∃ verdict, guard.checkRecord (inner.redact (maskBelow key outcome.mask)) action = .ok verdict ∧
        verdict.allowed = false := by
    obtain ⟨result, hr, after⟩ := exists_result_of_link
      (regular.mono fun _ here => here.declared) h decided link unnamed
    rw [← mask_eq_none_iff, hr, after]
    cases result <;> simp
  refine ⟨judged, fun apart => ?_⟩
  have same : guard.checkRecord (inner.redact (maskBelow key outcome.mask)) action =
      guard.checkRecord inner action :=
    checkRecord_congr (Record.redact_type _ _) fun general hg decision hd filter hf operand ho =>
      Record.attributeAt_redact distinct (apart general hg decision hd filter hf operand ho)
  rw [judged, same]

def ownerGuard (hidden : String) (result fallback : Resolution) : Guard where
  attributes := ⟨.null, .null⟩
  rulebook := ⟨[("task", [("get", [⟨[], [hidden], .allow⟩])]),
    ("user", [("get", [⟨[.compare "obj.role" .eq (.string "guest")], [], result⟩])])]⟩
  fallback := fallback

def userType : ObjectType := ⟨"user", []⟩

def taskType : ObjectType := ⟨"task", [⟨"owner", .object, some "user"⟩]⟩

def ownerRecord (role mail : Json) : Record :=
  ⟨userType, [("role", .scalar role), ("mail", .scalar mail)]⟩

def taskRecord (owner : Slot Record) : Record := ⟨taskType, [("owner", owner)]⟩

def guest : Record := ownerRecord (.string "guest") .null

def guestTask : Record := taskRecord (.one guest)

def guestDecision (result : Resolution) : Decision :=
  ⟨[], some (.all [.compare .eq "role" (.string "guest")]), result⟩

section

variable {hidden : String} {result fallback : Resolution} {mail : Json}

theorem guestTask_built : Schema.record ⟨[taskType, userType]⟩ "task"
    (.object [("owner", .object [("role", .string "guest"), ("mail", .null)])]) =
      .ok guestTask := by cbv

theorem checkRecord_guestTask : (ownerGuard hidden result fallback).checkRecord guestTask "get" =
    .ok ⟨true, some ⟨[hidden], none, .allow⟩⟩ := by cbv

theorem check_user : (ownerGuard hidden result fallback).check "user" "get" =
    .ok ⟨result.allows, some (guestDecision result)⟩ := by cbv

theorem checkRecord_owner (role : Json) :
    (ownerGuard hidden result fallback).checkRecord (ownerRecord role mail) "get" =
      .ok ⟨if (guestDecision result).covers (ownerRecord role mail) then result.allows
        else fallback.allows, some (guestDecision result)⟩ := by
  rw [checkRecord, show (ownerRecord role mail).type.name = "user" from rfl, check_user]
  simp only [bind, Except.bind]
  split <;> rfl

theorem checkRecord_guest :
    (ownerGuard hidden result fallback).checkRecord (ownerRecord (.string "guest") mail) "get" =
      .ok ⟨result.allows, some (guestDecision result)⟩ := by
  have covered : (guestDecision result).covers (ownerRecord (.string "guest") mail) = true := by cbv
  rw [checkRecord_owner, if_pos covered]

theorem checkRecord_hidden :
    (ownerGuard hidden result fallback).checkRecord (ownerRecord accessDenied mail) "get" =
      .ok ⟨fallback.allows, some (guestDecision result)⟩ := by
  have uncovered : (guestDecision result).covers (ownerRecord accessDenied mail) = false := by cbv
  rw [checkRecord_owner, uncovered]
  rfl

theorem mask_guestTask {owner : Record} {left : Option Record} (unnamed : "owner" ∉ [hidden])
    (redacted : guestTask.redact [hidden] = taskRecord (.one owner))
    (h : (ownerGuard hidden result fallback).mask "get" owner = .ok left) :
    (ownerGuard hidden result fallback).mask "get" guestTask =
      .ok (some (taskRecord ((left.map .one).getD (.scalar accessDenied)))) := by
  have walked : Walked [hidden] taskType "owner" (.one owner) :=
    ⟨unnamed, ⟨"owner", .object, some "user"⟩, rfl, rfl⟩
  refine mask_eq_some_iff.2 ⟨_, _, checkRecord_guestTask, rfl, ?_, rfl⟩
  rw [show Outcome.mask ⟨true, some ⟨[hidden], none, .allow⟩⟩ = [hidden] from rfl, redacted]
  simp [guestTask, taskRecord, maskFields_cons, maskFields, maskField_one walked, h]

end

theorem denied_link_iff_guest :
    Schema.record ⟨[taskType, userType]⟩ "task"
        (.object [("owner", .object [("role", .string "guest"), ("mail", .null)])]) =
      .ok guestTask ∧
    (ownerGuard "owner.mail" .deny .allow).mask "get" guestTask =
      .ok (some (taskRecord (.scalar accessDenied))) ∧
    guestTask.get? "owner" = some (.one guest) ∧
    ((taskRecord (.scalar accessDenied)).get? "owner" = some (.scalar accessDenied) ↔
      ∃ verdict, (ownerGuard "owner.mail" .deny .allow).checkRecord
          (guest.redact (maskBelow "owner" ["owner.mail"])) "get" = .ok verdict ∧
        verdict.allowed = false) ∧
    ((taskRecord (.scalar accessDenied)).get? "owner" = some (.scalar accessDenied) ↔
      ∃ verdict, (ownerGuard "owner.mail" .deny .allow).checkRecord guest "get" = .ok verdict ∧
        verdict.allowed = false) := by
  have denied : (ownerGuard "owner.mail" .deny .allow).mask "get"
      (ownerRecord (.string "guest") accessDenied) = .ok none :=
    mask_eq_none_iff.2 ⟨_, checkRecord_guest, rfl⟩
  have masks := mask_guestTask (by decide) (by cbv) denied
  have law := denied_link_iff guestTask_built masks checkRecord_guestTask
    (show guestTask.get? "owner" = some (.one guest) from rfl) (by decide)
  refine ⟨guestTask_built, masks, rfl, law.1, law.2 ?_⟩
  intro general checked decision decides filter filters operand reads text below _
  obtain rfl := Except.ok.inj (check_user.symm.trans checked)
  obtain rfl : guestDecision .deny = decision := by simpa using decides
  obtain rfl : .all [.compare .eq "role" (.string "guest")] = filter := by
    simpa [guestDecision] using filters
  obtain rfl : operand = "role" := by
    simpa [Filter.attributes, Filter.listAttributes] using reads
  have only : maskBelow "owner" ["owner.mail"] = ["mail"] := by cbv
  obtain rfl : text = "mail" := by simpa [only, Outcome.mask] using below
  have mail : Path.ofText "mail" = ["mail"] := by cbv
  have role : Path.ofText "role" = ["role"] := by cbv
  simp [Path.Apart, mail, role]

/-- Each linked record that a mask does not name is replaced by the marker just if it is denied
itself. -/
def OwnVerdict (guard : Guard) (action : String) : Prop :=
  ∀ schema name value record masked outcome key inner,
    Schema.record schema name value = .ok record → guard.mask action record = .ok (some masked) →
    guard.checkRecord record action = .ok outcome → record.get? key = some (.one inner) →
    key ∉ outcome.mask →
      (masked.get? key = some (.scalar accessDenied) ↔
        ∃ verdict, guard.checkRecord inner action = .ok verdict ∧ verdict.allowed = false)

/-- A mask that hides the attribute that a filter on the linked record reads turns the verdict: a
record that is allowed by itself is denied, and one that is denied by itself is shown. -/
theorem link_verdict_not_own :
    ¬ OwnVerdict (ownerGuard "owner.role" .allow .deny) "get" ∧
      ¬ OwnVerdict (ownerGuard "owner.role" .deny .allow) "get" := by
  have redacted : guestTask.redact ["owner.role"] = taskRecord (.one (ownerRecord accessDenied .null))
    := by cbv
  constructor
  · intro own
    have denied : (ownerGuard "owner.role" .allow .deny).mask "get"
        (ownerRecord accessDenied .null) = .ok none :=
      mask_eq_none_iff.2 ⟨_, checkRecord_hidden, rfl⟩
    have law := own _ _ _ _ _ _ "owner" guest guestTask_built
      (mask_guestTask (by decide) redacted denied) checkRecord_guestTask rfl (by decide)
    obtain ⟨verdict, judged, refused⟩ := law.1 rfl
    obtain rfl := Except.ok.inj (checkRecord_guest.symm.trans judged)
    cases refused
  · intro own
    have shown : (ownerGuard "owner.role" .deny .allow).mask "get"
        (ownerRecord accessDenied .null) = .ok (some (ownerRecord accessDenied .null)) :=
      mask_eq_some_iff.2 ⟨_, _, checkRecord_hidden, rfl, by
        simp [Outcome.mask, guestDecision, Record.redact, ownerRecord, maskFields_cons, maskFields,
          maskField_of_not_walked (not_walked_scalar _)], rfl⟩
    have law := own _ _ _ _ _ _ "owner" guest guestTask_built
      (mask_guestTask (by decide) redacted shown) checkRecord_guestTask rfl (by decide)
    cases law.2 ⟨_, checkRecord_guest, rfl⟩

end Guard
end AccessControl
