import AccessControl.Proofs.Masking

/-! What the fallback decides. A guard that denies by default fails where one fails that allows by
default, comes to the same decisions, and allows no more; what it leaves of a record tells no more,
at any depth. -/
namespace AccessControl

namespace Guard

def denying (guard : Guard) : Guard := { guard with fallback := .deny }

def allowing (guard : Guard) : Guard := { guard with fallback := .allow }

end Guard

structure Outcome.Below (outcome other : Outcome) : Prop where
  decision : outcome.decision = other.decision
  allowed : outcome.allowed = true → other.allowed = true

theorem Outcome.Below.mask {outcome other : Outcome} (below : outcome.Below other) :
    outcome.mask = other.mask := by
  rw [Outcome.mask, Outcome.mask, below.decision]

/-- A field that tells no more than another under the same key: it is the same, or the marker, or a
record that tells no more, or records that tell no more than some of the other's, in their order. -/
inductive FieldBelow (below : Record → Record → Prop) :
    String × Slot Record → String × Slot Record → Prop where
  | same (field : String × Slot Record) : FieldBelow below field field
  | marker (key : String) (slot : Slot Record) :
    FieldBelow below (key, .scalar accessDenied) (key, slot)
  | one (key : String) {record other : Record} (h : below record other) :
    FieldBelow below (key, .one record) (key, .one other)
  | many (key : String) {records others : List Record}
    (h : List.SublistForall₂ below records others) :
    FieldBelow below (key, .many records) (key, .many others)

/-- A record that tells no more than another of its type: it has the same keys in the same order,
and its fields tell no more. -/
inductive Record.Below : Record → Record → Prop where
  | intro {type : ObjectType} {fields others : List (String × Slot Record)}
    (h : List.Forall₂ (FieldBelow Below) fields others) : Below ⟨type, fields⟩ ⟨type, others⟩

def MaskedBelow (masked other : Option Record) : Prop :=
  ∀ left ∈ masked, ∃ more ∈ other, left.Below more

namespace Guard

variable {guard : Guard} {action : String} {mask : List String} {type : ObjectType} {key : String}
  {slot : Slot Record} {record : Record}

/-- The decision is found without the fallback, which only counts where there is none. -/
theorem check_below (guard : Guard) (resource action : String) :
    FailAlike Outcome.Below (guard.denying.check resource action)
      (guard.allowing.check resource action) := by
  have same : FailAlike Eq
      (firstDecision guard.denying.attributes (guard.denying.rulebook.candidates resource action))
      (firstDecision guard.allowing.attributes (guard.allowing.rulebook.candidates resource action))
    := by
    change FailAlike Eq (firstDecision guard.attributes (guard.rulebook.candidates resource action))
      (firstDecision guard.attributes (guard.rulebook.candidates resource action))
    cases firstDecision guard.attributes (guard.rulebook.candidates resource action) with
    | error fault => exact .error fault
    | ok found => exact .ok rfl
  refine same.bind ?_
  rintro found _ rfl
  cases found with
  | some decision => exact .ok ⟨rfl, id⟩
  | none => exact .ok ⟨rfl, fun _ => rfl⟩

theorem checkRecord_below (guard : Guard) (record : Record) (action : String) :
    FailAlike Outcome.Below (guard.denying.checkRecord record action)
      (guard.allowing.checkRecord record action) := by
  refine (check_below guard record.type.name action).bind fun outcome other below => ?_
  rw [below.decision]
  split
  · split
    · exact .ok below
    · exact .ok ⟨rfl, fun _ => rfl⟩
  · exact .ok below

def Narrows (guard : Guard) (action : String) (record : Record) : Prop :=
  ∀ masked other, guard.denying.mask action record = .ok masked →
    guard.allowing.mask action record = .ok other → MaskedBelow masked other

theorem maskList_below {records left more : List Record}
    (narrows : ∀ inner ∈ records, guard.Narrows action inner)
    (h : guard.denying.maskList action records = .ok left)
    (h' : guard.allowing.maskList action records = .ok more) :
    List.SublistForall₂ Record.Below left more := by
  induction records generalizing left more with
  | nil =>
    rw [maskList, Except.ok.injEq] at h
    subst h
    exact .nil
  | cons record rest ih =>
    rw [List.forall_mem_cons] at narrows
    simp only [maskList, bind_eq_ok_iff, pure_eq_ok_iff] at h h'
    obtain ⟨kept, hk, others, ho, rfl⟩ := h
    obtain ⟨kept', hk', others', ho', rfl⟩ := h'
    have first := narrows.1 kept kept' hk hk'
    have later := ih narrows.2 ho ho'
    cases kept with
    | some inner =>
      obtain ⟨inner', hi, below⟩ := first inner rfl
      obtain rfl : kept' = some inner' := hi
      exact .cons below later
    | none =>
      cases kept' with
      | none => exact later
      | some _ => exact .cons_right later

theorem maskField_below {left more : Slot Record}
    (narrows : ∀ inner ∈ slot.records, guard.Narrows action inner)
    (h : guard.denying.maskField action mask type key slot = .ok left)
    (h' : guard.allowing.maskField action mask type key slot = .ok more) :
    FieldBelow Record.Below (key, left) (key, more) := by
  by_cases walked : Walked mask type key slot
  · cases slot with
    | scalar value => exact absurd walked (not_walked_scalar value)
    | one inner =>
      simp only [maskField_one walked, bind_eq_ok_iff, pure_eq_ok_iff] at h h'
      obtain ⟨kept, hk, rfl⟩ := h
      obtain ⟨kept', hk', rfl⟩ := h'
      have first := narrows inner (by simp [Slot.records]) kept kept' hk hk'
      cases kept with
      | none => exact .marker key _
      | some record =>
        obtain ⟨record', hr, below⟩ := first record rfl
        obtain rfl : kept' = some record' := hr
        exact .one key below
    | many records =>
      simp only [maskField_many walked, bind_eq_ok_iff, pure_eq_ok_iff] at h h'
      obtain ⟨kept, hk, rfl⟩ := h
      obtain ⟨kept', hk', rfl⟩ := h'
      exact .many key (maskList_below narrows hk hk')
  · rw [maskField_of_not_walked walked, Except.ok.injEq] at h h'
    subst h h'
    exact .same _

theorem maskFields_below {fields left more : List (String × Slot Record)}
    (narrows : ∀ field ∈ fields, ∀ inner ∈ field.2.records, guard.Narrows action inner)
    (h : guard.denying.maskFields action mask type fields = .ok left)
    (h' : guard.allowing.maskFields action mask type fields = .ok more) :
    List.Forall₂ (FieldBelow Record.Below) left more := by
  induction fields generalizing left more with
  | nil =>
    rw [maskFields, Except.ok.injEq] at h h'
    subst h h'
    exact .nil
  | cons field rest ih =>
    obtain ⟨key, slot⟩ := field
    rw [List.forall_mem_cons] at narrows
    simp only [maskFields_cons, bind_eq_ok_iff, pure_eq_ok_iff] at h h'
    obtain ⟨slot, hs, others, ho, rfl⟩ := h
    obtain ⟨slot', hs', others', ho', rfl⟩ := h'
    exact .cons (maskField_below narrows.1 hs hs') (ih narrows.2 ho ho')

theorem narrows (guard : Guard) (action : String) (record : Record) :
    guard.Narrows action record := by
  induction record using Record.redact_induction with
  | step record ih =>
    intro masked other h h' left hl
    obtain rfl : masked = some left := hl
    obtain ⟨outcome, fields, decided, allowed, masks, rfl⟩ := mask_eq_some_iff.1 h
    have alike := checkRecord_below guard record action
    rw [decided] at alike
    cases decided' : guard.allowing.checkRecord record action with
    | error fault =>
      rw [decided'] at alike
      cases alike
    | ok outcome' =>
      rw [decided'] at alike
      cases alike with
      | ok below =>
        cases other with
        | none =>
          obtain ⟨denied, hd, refused⟩ := mask_eq_none_iff.1 h'
          obtain rfl := Except.ok.inj (decided'.symm.trans hd)
          rw [below.allowed allowed] at refused
          cases refused
        | some more =>
          obtain ⟨again, fields', ha, -, masks', rfl⟩ := mask_eq_some_iff.1 h'
          obtain rfl := Except.ok.inj (decided'.symm.trans ha)
          rw [← below.mask] at masks'
          exact ⟨_, rfl, .intro (maskFields_below (fun field hf inner hi =>
            ih outcome.mask field.1 field.2 hf inner hi) masks masks')⟩

/-- Denying by default is the stricter fallback: it fails where allowing fails, comes to the same
decisions, allows less, and leaves less of every record that both can mask. -/
theorem fallback_monotone (guard : Guard) (action : String) :
    (∀ resource, FailAlike Outcome.Below (guard.denying.check resource action)
      (guard.allowing.check resource action)) ∧
    ∀ record,
      FailAlike Outcome.Below (guard.denying.checkRecord record action)
        (guard.allowing.checkRecord record action) ∧
      ∀ masked other, guard.denying.mask action record = .ok masked →
        guard.allowing.mask action record = .ok other → MaskedBelow masked other :=
  ⟨fun resource => check_below guard resource action, fun record =>
    ⟨checkRecord_below guard record action, narrows guard action record⟩⟩

def filedGuard : Guard where
  attributes := ⟨.null, .null⟩
  rulebook := ⟨[("file", [("get", [⟨[], [], .allow⟩])])]⟩
  fallback := .deny

def note : Record := ⟨⟨"note", []⟩, [("text", .scalar .null)]⟩

def fileRecord (cover : Slot Record) (notes : List Record) : Record :=
  ⟨⟨"file", [⟨"cover", .object, some "note"⟩, ⟨"notes", .array, some "note"⟩]⟩,
    [("cover", cover), ("notes", .many notes)]⟩

/-- A file loses its cover and its notes where notes are denied by default. -/
theorem fallback_monotone_file :
    filedGuard.denying.mask "get" (fileRecord (.one note) [note]) =
      .ok (some (fileRecord (.scalar accessDenied) [])) ∧
    filedGuard.allowing.mask "get" (fileRecord (.one note) [note]) =
      .ok (some (fileRecord (.one note) [note])) ∧
    MaskedBelow (some (fileRecord (.scalar accessDenied) []))
      (some (fileRecord (.one note) [note])) := by
  have denied : filedGuard.denying.mask "get" (fileRecord (.one note) [note]) =
      .ok (some (fileRecord (.scalar accessDenied) [])) := by cbv
  have shown : filedGuard.allowing.mask "get" (fileRecord (.one note) [note]) =
      .ok (some (fileRecord (.one note) [note])) := by cbv
  exact ⟨denied, shown, ((fallback_monotone filedGuard "get").2 _).2 _ _ denied shown⟩

end Guard
end AccessControl
