import AccessControl.Guard.Masking
import AccessControl.Proofs.Fallible
import AccessControl.Proofs.Record
import Mathlib.Data.List.Permutation
import Mathlib.Data.List.ReduceOption

/-! What a successful masking has done, field by field and link by link. -/
namespace AccessControl
namespace Guard

variable {guard : Guard} {action : String} {record masked : Record} {mask : List String}
  {type : ObjectType} {key : String} {slot slot' : Slot Record}

/-- A record can change whether the decision on its object type allows, not what it masks. -/
theorem check_mask_of_checkRecord {outcome : Outcome}
    (h : guard.checkRecord record action = .ok outcome) :
    ∃ general, guard.check record.type.name action = .ok general ∧ general.mask = outcome.mask := by
  simp only [checkRecord, bind_eq_ok_iff] at h
  obtain ⟨general, hg, h⟩ := h
  refine ⟨general, hg, ?_⟩
  split at h
  · rename_i decision hd
    split at h
    · obtain rfl := pure_eq_ok_iff.1 h
      rfl
    · obtain rfl := pure_eq_ok_iff.1 h
      simp [Outcome.mask, hd]
  · obtain rfl := pure_eq_ok_iff.1 h
    rfl

def maskField (guard : Guard) (action : String) (mask : List String) (type : ObjectType)
    (key : String) (slot : Slot Record) : Except Fault (Slot Record) :=
  if key ∈ mask then .ok slot
  else match type.field? key with
    | some field => guard.maskSlot action field.type slot
    | none => .ok slot

/-- A record that is not denied is redacted, and then its fields are masked one by one. -/
theorem mask_eq_some_iff : guard.mask action record = .ok (some masked) ↔
    ∃ outcome fields, guard.checkRecord record action = .ok outcome ∧ outcome.allowed = true ∧
      guard.maskFields action outcome.mask record.type (record.redact outcome.mask).fields
        = .ok fields ∧ masked = ⟨record.type, fields⟩ := by
  rw [mask]
  simp only [bind_eq_ok_iff]
  constructor
  · rintro ⟨outcome, ho, h⟩
    split at h
    · rename_i allowed
      simp only [bind_eq_ok_iff, pure_eq_ok_iff, Record.redact_type, Option.some.injEq] at h
      obtain ⟨fields, hf, rfl⟩ := h
      exact ⟨outcome, fields, ho, allowed, hf, rfl⟩
    · simp at h
  · rintro ⟨outcome, fields, ho, allowed, hf, rfl⟩
    exact ⟨outcome, ho, by simp [allowed, hf]⟩

theorem mask_eq_none_iff : guard.mask action record = .ok none ↔
    ∃ outcome, guard.checkRecord record action = .ok outcome ∧ outcome.allowed = false := by
  rw [mask]
  simp only [bind_eq_ok_iff]
  constructor
  · rintro ⟨outcome, ho, h⟩
    split at h
    · simp only [bind_eq_ok_iff, pure_eq_ok_iff] at h
      obtain ⟨_, _, impossible⟩ := h
      cases impossible
    · rename_i denied
      exact ⟨outcome, ho, by simpa using denied⟩
  · rintro ⟨outcome, ho, denied⟩
    exact ⟨outcome, ho, by simp [denied]⟩

theorem maskFields_cons (rest : List (String × Slot Record)) :
    guard.maskFields action mask type ((key, slot) :: rest) = do
      let masked ← guard.maskField action mask type key slot
      return (key, masked) :: (← guard.maskFields action mask type rest) := by
  rw [maskFields, maskField]
  by_cases named : key ∈ mask
  · simp only [List.contains_eq_mem, named, decide_true, if_true]
    rfl
  · cases found : type.field? key <;>
      simp only [List.contains_eq_mem, named, decide_false, Bool.false_eq_true, if_false]
    rfl

theorem maskFields_eq_ok_iff {fields fields' : List (String × Slot Record)} :
    guard.maskFields action mask type fields = .ok fields' ↔
      List.Forall₂ (fun field field' => field'.1 = field.1 ∧
        guard.maskField action mask type field.1 field.2 = .ok field'.2) fields fields' := by
  induction fields generalizing fields' with
  | nil => rw [maskFields, List.forall₂_nil_left_iff, Except.ok.injEq, eq_comm]
  | cons field rest ih =>
    obtain ⟨key, slot⟩ := field
    simp only [maskFields_cons, bind_eq_ok_iff, pure_eq_ok_iff, ih]
    constructor
    · rintro ⟨masked, hm, others, ho, rfl⟩
      exact .cons ⟨rfl, hm⟩ ho
    · rintro (_ | ⟨⟨rfl, hm⟩, ho⟩)
      exact ⟨_, hm, _, ho, rfl⟩

theorem keys_maskFields {fields fields' : List (String × Slot Record)}
    (h : guard.maskFields action mask type fields = .ok fields') :
    Keyed.keys fields' = Keyed.keys fields := by
  rw [maskFields_eq_ok_iff] at h
  induction h with
  | nil => rfl
  | cons first _ ih => rw [Keyed.keys_cons, Keyed.keys_cons, first.1, ih]

theorem get?_maskFields {fields fields' : List (String × Slot Record)}
    (h : guard.maskFields action mask type fields = .ok fields') (key : String) :
    Option.Rel (fun slot slot' => guard.maskField action mask type key slot = .ok slot')
      (Keyed.get? key fields) (Keyed.get? key fields') := by
  rw [maskFields_eq_ok_iff] at h
  induction h with
  | nil => exact .none
  | @cons field field' _ _ first _ ih =>
    obtain ⟨k, slot⟩ := field
    obtain ⟨k', slot'⟩ := field'
    obtain ⟨rfl, hs⟩ := first
    by_cases same : k' = key
    · subst same
      simpa only [Keyed.get?, if_true] using .some hs
    · simpa only [Keyed.get?, if_neg same] using ih

theorem maskList_eq_ok_iff {records kept : List Record} :
    guard.maskList action records = .ok kept ↔
      ∃ results, records.mapM (guard.mask action) = .ok results ∧ kept = results.reduceOption := by
  induction records generalizing kept with
  | nil => simp [maskList, pure, Except.pure, eq_comm]
  | cons record rest ih =>
    simp only [maskList, List.mapM_cons, bind_eq_ok_iff, pure_eq_ok_iff, ih]
    constructor
    · rintro ⟨first, hf, _, ⟨results, hr, rfl⟩, rfl⟩
      refine ⟨first :: results, ⟨first, hf, results, hr, rfl⟩, ?_⟩
      cases first <;> simp
    · rintro ⟨_, ⟨first, hf, results, hr, rfl⟩, rfl⟩
      refine ⟨first, hf, _, ⟨results, hr, rfl⟩, ?_⟩
      cases first <;> simp

/-- Masking walks what is nested in the field: the mask does not name it, and its declared type asks
for what the slot holds. -/
def Walked (mask : List String) (type : ObjectType) (key : String) (slot : Slot Record) : Prop :=
  key ∉ mask ∧ ∃ field, type.field? key = some field ∧ field.type.walks slot = true

theorem not_walked_scalar (value : Json) : ¬ Walked mask type key (.scalar value) := by
  rintro ⟨-, field, -, walks⟩
  cases h : field.type <;> simp [FieldType.walks, h] at walks

theorem Walked.one (walked : Walked mask type key (.one record)) (other : Record) :
    Walked mask type key (.one other) := by
  obtain ⟨unnamed, field, found, walks⟩ := walked
  exact ⟨unnamed, field, found, by rw [← walks]; cases field.type <;> rfl⟩

theorem Walked.many {records : List Record} (walked : Walked mask type key (.many records))
    (others : List Record) : Walked mask type key (.many others) := by
  obtain ⟨unnamed, field, found, walks⟩ := walked
  exact ⟨unnamed, field, found, by rw [← walks]; cases field.type <;> rfl⟩

theorem maskField_of_not_walked (h : ¬ Walked mask type key slot) :
    guard.maskField action mask type key slot = .ok slot := by
  rw [maskField]
  split
  · rfl
  · rename_i unnamed
    cases found : type.field? key with
    | none => rfl
    | some field =>
      have still : ¬ field.type.walks slot = true := fun walks => h ⟨unnamed, field, found, walks⟩
      cases slot with
      | scalar value => simp only [maskSlot]
      | one record => simp only [maskSlot, if_neg still]
      | many records => simp only [maskSlot, if_neg still]

/-- A linked record gives way to what is left of it, or to the marker. -/
theorem maskField_one (h : Walked mask type key (.one record)) :
    guard.maskField action mask type key (.one record) = do
      return ((← guard.mask action record).map .one).getD (.scalar accessDenied) := by
  obtain ⟨unnamed, field, found, walks⟩ := h
  simp only [maskField, if_neg unnamed, found, maskSlot, if_pos walks]

theorem maskField_many {records : List Record} (h : Walked mask type key (.many records)) :
    guard.maskField action mask type key (.many records) = do
      return .many (← guard.maskList action records) := by
  obtain ⟨unnamed, field, found, walks⟩ := h
  simp only [maskField, if_neg unnamed, found, maskSlot, if_pos walks]

/-- A slot keeps one record only where one stood, and only what masking leaves of that. -/
theorem one_of_maskField {kept : Record} (unnamed : key ∉ mask) (walks : type.Walks key slot)
    (h : guard.maskField action mask type key slot = .ok (.one kept)) :
    ∃ source, slot = .one source ∧ guard.mask action source = .ok (some kept) := by
  by_cases walked : Walked mask type key slot
  · cases slot with
    | scalar value => exact absurd walked (not_walked_scalar value)
    | one source =>
      simp only [maskField_one walked, bind_eq_ok_iff, pure_eq_ok_iff] at h
      obtain ⟨result, hr, he⟩ := h
      cases result with
      | none => cases he
      | some left =>
        obtain rfl : left = kept := Slot.one.inj he
        exact ⟨source, rfl, hr⟩
    | many records =>
      simp only [maskField_many walked, bind_eq_ok_iff, pure_eq_ok_iff] at h
      obtain ⟨_, _, he⟩ := h
      cases he
  · rw [maskField_of_not_walked walked] at h
    obtain rfl : slot = .one kept := Except.ok.inj h
    exact absurd ⟨unnamed, ObjectType.walks_one_iff.1 walks⟩ walked

theorem many_of_maskField {kept : List Record} (unnamed : key ∉ mask) (walks : type.Walks key slot)
    (h : guard.maskField action mask type key slot = .ok (.many kept)) :
    ∃ records results, slot = .many records ∧
      records.mapM (guard.mask action) = .ok results ∧ kept = results.reduceOption := by
  by_cases walked : Walked mask type key slot
  · cases slot with
    | scalar value => exact absurd walked (not_walked_scalar value)
    | one source =>
      simp only [maskField_one walked, bind_eq_ok_iff, pure_eq_ok_iff] at h
      obtain ⟨result, -, he⟩ := h
      cases result <;> cases he
    | many records =>
      simp only [maskField_many walked, bind_eq_ok_iff, pure_eq_ok_iff] at h
      obtain ⟨left, hl, he⟩ := h
      obtain rfl : left = kept := Slot.many.inj he
      obtain ⟨results, hr, rfl⟩ := maskList_eq_ok_iff.1 hl
      exact ⟨records, results, rfl, hr, rfl⟩
  · rw [maskField_of_not_walked walked] at h
    obtain rfl : slot = .many kept := Except.ok.inj h
    cases kept with
    | nil => exact ⟨[], [], rfl, rfl, rfl⟩
    | cons first rest =>
      exact absurd ⟨unnamed, walks first (by simp [Slot.records])⟩ walked

section

variable {other : Guard}

theorem maskList_congr {records : List Record}
    (below : ∀ inner ∈ records, guard.mask action inner = other.mask action inner) :
    guard.maskList action records = other.maskList action records := by
  induction records with
  | nil => rw [maskList, maskList]
  | cons first rest ih =>
    rw [List.forall_mem_cons] at below
    rw [maskList, maskList, below.1, ih below.2]

theorem maskField_congr
    (below : ∀ inner ∈ slot.records, guard.mask action inner = other.mask action inner) :
    guard.maskField action mask type key slot = other.maskField action mask type key slot := by
  by_cases walked : Walked mask type key slot
  · cases slot with
    | scalar value => exact absurd walked (not_walked_scalar value)
    | one inner => rw [maskField_one walked, maskField_one walked, below inner (by simp [Slot.records])]
    | many records =>
      have left : guard.maskList action records = other.maskList action records :=
        maskList_congr below
      rw [maskField_many walked, maskField_many walked, left]
  · rw [maskField_of_not_walked walked, maskField_of_not_walked walked]

theorem maskFields_congr {fields : List (String × Slot Record)}
    (below : ∀ field ∈ fields, ∀ inner ∈ field.2.records,
      guard.mask action inner = other.mask action inner) :
    guard.maskFields action mask type fields = other.maskFields action mask type fields := by
  induction fields with
  | nil => rw [maskFields, maskFields]
  | cons field rest ih =>
    obtain ⟨key, slot⟩ := field
    rw [List.forall_mem_cons] at below
    rw [maskFields_cons, maskFields_cons, maskField_congr below.1, ih below.2]

/-- Guards that judge all records alike mask them alike. -/
theorem mask_congr (judged : ∀ record, guard.checkRecord record action =
    other.checkRecord record action) (record : Record) :
    guard.mask action record = other.mask action record := by
  induction record using Record.redact_induction with
  | step record ih =>
    have fields (names : List String) (type : ObjectType) :
        guard.maskFields action names type (record.redact names).fields =
          other.maskFields action names type (record.redact names).fields :=
      maskFields_congr fun field hf => ih names field.1 field.2 hf
    rw [mask, mask, judged]
    simp only [fields]

end

end Guard
end AccessControl
