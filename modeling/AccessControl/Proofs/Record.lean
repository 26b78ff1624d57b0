import AccessControl.Guard.Masking
import AccessControl.Proofs.Keyed

/-! What holds of a record and of all records nested in it. A lifted record has it from its schema,
and redaction keeps it. -/
namespace AccessControl

def Slot.records : Slot Record → List Record
  | .scalar _ => []
  | .one record => [record]
  | .many records => records

/-- Masking walks all nested records that the slot may hold under this key of the type. -/
def ObjectType.Walks (type : ObjectType) (key : String) (slot : Slot Record) : Prop :=
  ∀ inner ∈ slot.records, ∃ field, type.field? key = some field ∧ field.type.walks slot = true

theorem ObjectType.walks_scalar (type : ObjectType) (key : String) (value : Json) :
    type.Walks key (.scalar value) := by
  simp [Walks, Slot.records]

theorem ObjectType.walks_one_iff {type : ObjectType} {key : String} {record : Record} :
    type.Walks key (.one record) ↔
      ∃ field, type.field? key = some field ∧ field.type.walks (.one record) = true := by
  simp [Walks, Slot.records]

namespace Record

inductive Everywhere (p : Record → Prop) : Record → Prop where
  | intro {record : Record} (here : p record)
    (nested : ∀ key slot, (key, slot) ∈ record.fields → ∀ inner ∈ slot.records, Everywhere p inner) :
    Everywhere p record

variable {p q : Record → Prop} {record updated : Record} {key : String} {path : Path} {new : Json}

theorem Everywhere.here (all : record.Everywhere p) : p record := by
  cases all with
  | intro here _ => exact here

theorem Everywhere.nested {slot : Slot Record} (all : record.Everywhere p)
    (h : (key, slot) ∈ record.fields) : ∀ inner ∈ slot.records, inner.Everywhere p := by
  cases all with
  | intro _ nested => exact nested key slot h

theorem Everywhere.mono (all : record.Everywhere p) (h : ∀ record, p record → q record) :
    record.Everywhere q := by
  induction all with
  | intro here _ ih => exact .intro (h _ here) ih

theorem insert_of_get? {slot : Slot Record} (found : record.get? key = some slot) :
    record.insert key slot = record := by
  cases record
  rw [insert, Keyed.insert_of_get? found]

def Distinct (record : Record) : Prop := (Keyed.keys record.fields).Nodup

/-- Nested records are only where masking walks: in fields of the object type, and in the shape that
the declared type of the field asks for. -/
def Declared (record : Record) : Prop :=
  ∀ key slot, (key, slot) ∈ record.fields → record.type.Walks key slot

/-- A property that a record keeps where a field of it becomes plain, and where one nested record
takes the place of another. -/
structure Stable (p : Record → Prop) : Prop where
  scalar : ∀ {record : Record} {key : String} {value : Json}, p record →
    (record.get? key).isSome → p (record.insert key (.scalar value))
  one : ∀ {record old new : Record} {key : String}, p record →
    record.get? key = some (.one old) → p (record.insert key (.one new))

theorem Distinct.insert (distinct : record.Distinct) (slot : Slot Record) :
    (record.insert key slot).Distinct :=
  Keyed.nodup_keys_insert distinct key slot

theorem Distinct.stable : Stable Distinct :=
  ⟨fun distinct _ => distinct.insert _, fun distinct _ => distinct.insert _⟩

theorem Declared.stable : Stable Declared := by
  constructor
  · intro record key value declared _ other slot hm
    rcases Keyed.mem_insert hm with same | old
    · obtain ⟨rfl, rfl⟩ := Prod.mk.inj same
      exact ObjectType.walks_scalar record.type other value
    · exact declared other slot old
  · intro record old new key declared found other slot hm
    rcases Keyed.mem_insert hm with same | before
    · obtain ⟨rfl, rfl⟩ := Prod.mk.inj same
      obtain ⟨field, hf, walks⟩ := ObjectType.walks_one_iff.1
        (declared other (.one old) (Keyed.mem_of_get? found))
      exact ObjectType.walks_one_iff.2 ⟨field, hf, by rw [← walks]; cases field.type <;> rfl⟩
    · exact declared other slot before

theorem Everywhere.insert {slot : Slot Record} (all : record.Everywhere p)
    (here : p (record.insert key slot)) (nested : ∀ inner ∈ slot.records, inner.Everywhere p) :
    (record.insert key slot).Everywhere p := by
  refine .intro here fun other found hm inner hi => ?_
  rcases Keyed.mem_insert hm with same | old
  · obtain ⟨rfl, rfl⟩ := Prod.mk.inj same
    exact nested inner hi
  · exact all.nested old inner hi

theorem Everywhere.insert_scalar {value : Json} (stable : Stable p) (all : record.Everywhere p)
    (found : (record.get? key).isSome) : (record.insert key (.scalar value)).Everywhere p :=
  all.insert (stable.scalar all.here found) (by simp [Slot.records])

theorem Everywhere.get? {slot : Slot Record} (all : record.Everywhere p)
    (found : record.get? key = some slot) : ∀ inner ∈ slot.records, inner.Everywhere p :=
  all.nested (Keyed.mem_of_get? found)

theorem Everywhere.setPath? (stable : Stable p) (all : record.Everywhere p)
    (h : record.setPath? path new = some updated) : updated.Everywhere p := by
  fun_induction Record.setPath? record path new generalizing updated with
  | case1 => cases h
  | case2 record key new found =>
    cases h
    exact all.insert_scalar stable found
  | case3 => cases h
  | case4 record key rest new _ value found =>
    simp only [Option.bind_eq_bind, Option.bind_eq_some_iff, Option.pure_def,
      Option.some.injEq] at h
    obtain ⟨_, _, rfl⟩ := h
    exact all.insert_scalar stable (by simp [found])
  | case5 record key rest new _ inner found ih =>
    simp only [Option.bind_eq_bind, Option.bind_eq_some_iff, Option.pure_def,
      Option.some.injEq] at h
    obtain ⟨next, hn, rfl⟩ := h
    have nested : next.Everywhere p := ih (all.get? found inner (by simp [Slot.records])) hn
    exact all.insert (stable.one all.here found) (by simpa [Slot.records] using nested)
  | case6 => cases h
  | case7 => cases h

theorem Everywhere.redactPath (stable : Stable p) (all : record.Everywhere p) (path : Path) :
    (record.redactPath path).Everywhere p := by
  unfold Record.redactPath
  cases h : record.setPath? path accessDenied with
  | none => exact all
  | some updated => exact all.setPath? stable h

theorem Everywhere.redact (stable : Stable p) (all : record.Everywhere p) (mask : List String) :
    (record.redact mask).Everywhere p := by
  unfold Record.redact
  generalize (mask.map Path.ofText).filter record.hasPath = paths
  induction paths generalizing record with
  | nil => exact all
  | cons path paths ih => exact ih (all.redactPath stable path)

theorem setPath?_type (h : record.setPath? path new = some updated) :
    updated.type = record.type := by
  fun_induction setPath? record path new generalizing updated with
  | case1 | case3 | case6 | case7 => cases h
  | case2 => cases h; rfl
  | case4 | case5 =>
    simp only [Option.bind_eq_bind, Option.bind_eq_some_iff, Option.pure_def,
      Option.some.injEq] at h
    obtain ⟨_, _, rfl⟩ := h
    rfl

@[simp] theorem redactPath_type (record : Record) (path : Path) :
    (record.redactPath path).type = record.type := by
  unfold redactPath
  cases h : record.setPath? path accessDenied with
  | none => rfl
  | some updated => exact setPath?_type h

theorem foldl_redactPath_type (record : Record) (paths : List Path) :
    (paths.foldl redactPath record).type = record.type := by
  induction paths generalizing record with
  | nil => rfl
  | cons path rest ih => rw [List.foldl_cons, ih, redactPath_type]

@[simp] theorem redact_type (record : Record) (mask : List String) :
    (record.redact mask).type = record.type := foldl_redactPath_type record _

theorem weight_lt_slotWeight {slot : Slot Record} {inner : Record} (h : inner ∈ slot.records) :
    inner.weight < slotWeight slot := by
  cases slot with
  | scalar value => simp [Slot.records] at h
  | one record =>
    obtain rfl : inner = record := by simpa [Slot.records] using h
    rw [slotWeight]
    omega
  | many records =>
    simp only [Slot.records] at h
    rw [slotWeight]
    suffices inner.weight < listWeight records by omega
    induction records with
    | nil => cases h
    | cons record rest ih =>
      rw [listWeight]
      rcases List.mem_cons.1 h with rfl | later
      · omega
      · have := ih later
        omega

theorem slotWeight_lt_weight {slot : Slot Record} (h : (key, slot) ∈ record.fields) :
    slotWeight slot < record.weight := by
  rw [weight_eq]
  generalize record.fields = fields at h
  induction fields with
  | nil => cases h
  | cons field rest ih =>
    obtain ⟨k, first⟩ := field
    rw [fieldsWeight]
    rcases List.mem_cons.1 h with same | later
    · obtain ⟨-, rfl⟩ := Prod.mk.inj same
      omega
    · have := ih later
      omega

/-- Induction along the links that masking walks: to what is nested in any redaction of a record. -/
theorem redact_induction {motive : Record → Prop}
    (step : ∀ record, (∀ mask key slot, (key, slot) ∈ (record.redact mask).fields →
      ∀ inner ∈ slot.records, motive inner) → motive record) (record : Record) : motive record := by
  induction size : record.weight using Nat.strongRecOn generalizing record with
  | ind size ih =>
    subst size
    refine step record fun mask key slot hm inner hi => ih inner.weight ?_ inner rfl
    calc inner.weight < slotWeight slot := weight_lt_slotWeight hi
      _ < (record.redact mask).weight := slotWeight_lt_weight hm
      _ ≤ record.weight := weight_redact_le record mask

/-- What holds of all records holds of those in a record. -/
theorem Everywhere.of_forall (all : ∀ record, p record) (record : Record) :
    record.Everywhere p := by
  induction record using redact_induction with
  | step record ih => exact .intro (all record) (ih [])

end Record

end AccessControl
