import AccessControl.Guard

/-! Masking records. Masked paths are overwritten by a marker, then linked records are masked by the
rules for their own types: a denied one is replaced by the marker, or left out of a list. -/
namespace AccessControl

/-- What stands in place of a masked or denied value. -/
def accessDenied : Json := .object [("access", .string "denied")]

def maskedJson (masked : Option Record) : Json := (masked.map Record.toJson).getD accessDenied

mutual

/-- A measure that counts every record, field and item. -/
def Record.weight : Record → Nat
  | ⟨_, fields⟩ => 1 + Record.fieldsWeight fields

def Record.fieldsWeight : List (String × Slot Record) → Nat
  | [] => 0
  | (_, slot) :: rest => 1 + Record.slotWeight slot + Record.fieldsWeight rest

def Record.slotWeight : Slot Record → Nat
  | .scalar _ => 0
  | .one record => 1 + record.weight
  | .many records => 1 + Record.listWeight records

def Record.listWeight : List Record → Nat
  | [] => 0
  | record :: rest => 1 + record.weight + Record.listWeight rest

end

namespace Record

theorem weight_eq (record : Record) : record.weight = 1 + fieldsWeight record.fields := by
  cases record; rfl

theorem fieldsWeight_insert_le {fields : List (String × Slot Record)} {key : String}
    {old new : Slot Record} (found : Keyed.get? key fields = some old)
    (h : slotWeight new ≤ slotWeight old) :
    fieldsWeight (Keyed.insert key new fields) ≤ fieldsWeight fields := by
  induction fields with
  | nil => cases found
  | cons field rest ih =>
    obtain ⟨k, slot⟩ := field
    by_cases hk : k = key
    · simp only [Keyed.get?, if_pos hk, Option.some.injEq] at found
      simp only [Keyed.insert, if_pos hk, fieldsWeight, found]
      omega
    · simp only [Keyed.get?, if_neg hk] at found
      simp only [Keyed.insert, if_neg hk, fieldsWeight]
      have := ih found
      omega

theorem weight_insert_le {record : Record} {key : String} {old new : Slot Record}
    (found : record.get? key = some old) (h : slotWeight new ≤ slotWeight old) :
    (record.insert key new).weight ≤ record.weight := by
  have := fieldsWeight_insert_le found h
  simp only [weight_eq, insert]
  omega

theorem weight_setPath?_le {record updated : Record} {path : Path} {new : Json}
    (h : record.setPath? path new = some updated) : updated.weight ≤ record.weight := by
  fun_induction setPath? record path new generalizing updated with
  | case1 => cases h
  | case2 record key new found =>
    cases h
    obtain ⟨old, ho⟩ := Option.isSome_iff_exists.1 found
    exact weight_insert_le ho (Nat.zero_le _)
  | case3 => cases h
  | case4 record key rest new _ value found =>
    simp only [Option.bind_eq_bind, Option.bind_eq_some_iff, Option.pure_def,
      Option.some.injEq] at h
    obtain ⟨_, _, rfl⟩ := h
    exact weight_insert_le found (Nat.zero_le _)
  | case5 record key rest new _ inner found ih =>
    simp only [Option.bind_eq_bind, Option.bind_eq_some_iff, Option.pure_def,
      Option.some.injEq] at h
    obtain ⟨next, hn, rfl⟩ := h
    exact weight_insert_le found (Nat.add_le_add_left (ih hn) 1)
  | case6 => cases h
  | case7 => cases h

def redactPath (record : Record) (path : Path) : Record :=
  (record.setPath? path accessDenied).getD record

/-- Redacts those paths of a mask that lead somewhere before any of them is redacted. -/
def redact (record : Record) (mask : List String) : Record :=
  ((mask.map Path.ofText).filter record.hasPath).foldl redactPath record

theorem weight_redactPath_le (record : Record) (path : Path) :
    (record.redactPath path).weight ≤ record.weight := by
  unfold redactPath
  cases h : record.setPath? path accessDenied with
  | none => simp
  | some updated => simpa using weight_setPath?_le h

theorem weight_redact_le (record : Record) (mask : List String) :
    (record.redact mask).weight ≤ record.weight := by
  unfold redact
  generalize (mask.map Path.ofText).filter record.hasPath = paths
  induction paths generalizing record with
  | nil => exact Nat.le_refl _
  | cons path paths ih => exact Nat.le_trans (ih _) (weight_redactPath_le record path)

end Record

/-- The nested records of a slot that masking walks, under the declared type of its field. -/
def FieldType.walks : FieldType → Slot Record → Bool
  | .object, .one _ | .generic, .one _ | .array, .many _ => true
  | _, _ => false

namespace Guard

mutual

def mask (guard : Guard) (action : String) (record : Record) : Except Fault (Option Record) := do
  let outcome ← guard.checkRecord record action
  if outcome.allowed then
    let redacted := record.redact outcome.mask
    let fields ← guard.maskFields action outcome.mask redacted.type redacted.fields
    return some ⟨redacted.type, fields⟩
  else return none
termination_by record.weight
decreasing_by
  have := Record.weight_redact_le record outcome.mask
  rw [Record.weight_eq] at this
  omega

/-- Walks the links of a record. A field that the mask names itself is left as it is. -/
def maskFields (guard : Guard) (action : String) (mask : List String) (type : ObjectType) :
    List (String × Slot Record) → Except Fault (List (String × Slot Record))
  | [] => .ok []
  | (key, slot) :: rest => do
    let masked ←
      if mask.contains key then pure slot
      else match type.field? key with
        | some field => guard.maskSlot action field.type slot
        | none => pure slot
    return (key, masked) :: (← guard.maskFields action mask type rest)
termination_by fields => Record.fieldsWeight fields
decreasing_by all_goals simp only [Record.fieldsWeight]; omega

def maskSlot (guard : Guard) (action : String) (type : FieldType) :
    Slot Record → Except Fault (Slot Record)
  | .one record =>
    if type.walks (.one record) then do
      return ((← guard.mask action record).map .one).getD (.scalar accessDenied)
    else .ok (.one record)
  | .many records =>
    if type.walks (.many records) then do return .many (← guard.maskList action records)
    else .ok (.many records)
  | slot => .ok slot
termination_by slot => Record.slotWeight slot
decreasing_by all_goals simp only [Record.slotWeight]; omega

def maskList (guard : Guard) (action : String) : List Record → Except Fault (List Record)
  | [] => .ok []
  | record :: rest => do
    let kept ← guard.mask action record
    return kept.toList ++ (← guard.maskList action rest)
termination_by records => Record.listWeight records
decreasing_by all_goals simp only [Record.listWeight]; omega

end

end Guard
end AccessControl
