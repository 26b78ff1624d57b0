import AccessControl.Proofs.Path
import AccessControl.Proofs.Record

/-! Paths into records are paths into their plain data, where no record has a field twice. -/
namespace AccessControl

def Slot.toJson : Slot Record → Json
  | .scalar value => value
  | .one record => record.toJson
  | .many records => .array (records.map Record.toJson)

/-- Overwrites what a path leads to inside of a field; the empty path leads to the field itself. -/
def Slot.setPath? : Path → Json → Slot Record → Option (Slot Record)
  | [], new, _ => some (.scalar new)
  | path, new, .scalar value => (value.setPath? path new).map .scalar
  | path, new, .one record => (record.setPath? path new).map .one
  | _, _, .many _ => none

theorem Slot.setPath?_scalar {path : Path} (deeper : path ≠ []) (value new : Json) :
    Slot.setPath? path new (.scalar value) = (value.setPath? path new).map .scalar := by
  obtain ⟨segment, rest, rfl⟩ := List.exists_cons_of_ne_nil deeper
  rfl

theorem Slot.setPath?_one {path : Path} (deeper : path ≠ []) (inner : Record) (new : Json) :
    Slot.setPath? path new (.one inner) = (inner.setPath? path new).map .one := by
  obtain ⟨segment, rest, rfl⟩ := List.exists_cons_of_ne_nil deeper
  rfl

theorem Slot.setPath?_many {path : Path} (deeper : path ≠ []) (records : List Record) (new : Json) :
    Slot.setPath? path new (.many records) = none := by
  obtain ⟨segment, rest, rfl⟩ := List.exists_cons_of_ne_nil deeper
  rfl

namespace Record

variable {record updated : Record} {key : String} {path : Path} {new : Json}

theorem listToJson_eq_map (records : List Record) : listToJson records = records.map toJson := by
  induction records with
  | nil => rfl
  | cons record rest ih => rw [listToJson, ih, List.map_cons]

theorem fieldsToJson_eq (fields : List (String × Slot Record)) :
    fieldsToJson fields = Keyed.mapValues Slot.toJson fields := by
  induction fields with
  | nil => rfl
  | cons field rest ih =>
    obtain ⟨key, slot⟩ := field
    cases slot with
    | scalar value => rw [fieldsToJson, ih]; rfl
    | one inner => rw [fieldsToJson, ih]; rfl
    | many records => rw [fieldsToJson, ih, listToJson_eq_map]; rfl

theorem toJson_eq (distinct : record.Distinct) :
    record.toJson = .object (Keyed.mapValues Slot.toJson record.fields) := by
  obtain ⟨type, fields⟩ := record
  rw [toJson, fieldsToJson_eq, Keyed.ofList_of_distinct]
  rwa [Keyed.keys_mapValues]

theorem get?_toJson (distinct : record.Distinct) (key : String) :
    record.toJson.get? key = (record.get? key).map Slot.toJson := by
  rw [toJson_eq distinct, Json.get?, Keyed.get?_mapValues, get?]

theorem toJson_insert (distinct : record.Distinct) (key : String) (slot : Slot Record) :
    (record.insert key slot).toJson =
      .object (Keyed.insert key slot.toJson (Keyed.mapValues Slot.toJson record.fields)) := by
  rw [toJson_eq (distinct.insert slot), insert, Keyed.mapValues_insert]

/-- Overwriting a path of a record overwrites it in the plain data. -/
theorem setPath?_toJson (distinct : record.Everywhere Distinct)
    (h : record.setPath? path new = some updated) :
    record.toJson.setPath? path new = some updated.toJson := by
  fun_induction setPath? record path new generalizing updated with
  | case1 => cases h
  | case2 record key new found =>
    cases h
    refine Json.setPath?_singleton_eq_some_iff.2 ⟨_, toJson_eq distinct.here, ?_⟩
    rw [toJson_insert distinct.here, Slot.toJson]
  | case3 => cases h
  | case4 record key rest new deeper value found =>
    simp only [Option.bind_eq_bind, Option.bind_eq_some_iff, Option.pure_def,
      Option.some.injEq] at h
    obtain ⟨next, hn, rfl⟩ := h
    refine (Json.setPath?_cons_eq_some_iff deeper).2
      ⟨_, value, next, toJson_eq distinct.here, ?_, hn, ?_⟩
    · rw [Keyed.get?_mapValues, ← get?, found]; rfl
    · rw [toJson_insert distinct.here, Slot.toJson]
  | case5 record key rest new deeper inner found ih =>
    simp only [Option.bind_eq_bind, Option.bind_eq_some_iff, Option.pure_def,
      Option.some.injEq] at h
    obtain ⟨next, hn, rfl⟩ := h
    have nested : inner.Everywhere Distinct := distinct.get? found inner (by simp [Slot.records])
    refine (Json.setPath?_cons_eq_some_iff deeper).2
      ⟨_, inner.toJson, next.toJson, toJson_eq distinct.here, ?_, ih nested hn, ?_⟩
    · rw [Keyed.get?_mapValues, ← get?, found]; rfl
    · rw [toJson_insert distinct.here, Slot.toJson]
  | case6 => cases h
  | case7 => cases h

theorem hasPath_eq (distinct : record.Everywhere Distinct) (nonempty : path ≠ []) :
    record.hasPath path = (record.toJson.getPath? path).isSome := by
  fun_induction hasPath record path with
  | case1 => exact absurd rfl nonempty
  | case2 record key =>
    rw [Json.getPath?_cons, get?_toJson distinct.here]
    cases record.get? key <;> simp
  | case3 record key rest deeper value found =>
    rw [Json.getPath?_cons, get?_toJson distinct.here, found]
    simp [Slot.toJson]
  | case4 record key rest deeper inner found ih =>
    rw [Json.getPath?_cons, get?_toJson distinct.here, found,
      ih (distinct.get? found inner (by simp [Slot.records])) deeper]
    simp [Slot.toJson]
  | case5 record key rest deeper records found =>
    rw [Json.getPath?_cons, get?_toJson distinct.here, found]
    obtain ⟨segment, rest, rfl⟩ := List.exists_cons_of_ne_nil deeper
    simp [Slot.toJson, Json.getPath?_cons, Json.get?]
  | case6 record key rest deeper found =>
    rw [Json.getPath?_cons, get?_toJson distinct.here, found]
    simp

theorem exists_setPath?_of_hasPath (found : record.hasPath path = true) (new : Json) :
    ∃ updated, record.setPath? path new = some updated := by
  fun_induction hasPath record path with
  | case1 => cases found
  | case2 record key => exact ⟨_, if_pos found⟩
  | case3 record key rest deeper value hs =>
    obtain ⟨next, hn⟩ := Json.exists_setPath?_of_getPath? deeper found new
    obtain ⟨segment, rest, rfl⟩ := List.exists_cons_of_ne_nil deeper
    exact ⟨record.insert key (.scalar next), by simp [setPath?, hs, hn]⟩
  | case4 record key rest deeper inner hs ih =>
    obtain ⟨next, hn⟩ := ih found
    obtain ⟨segment, rest, rfl⟩ := List.exists_cons_of_ne_nil deeper
    exact ⟨record.insert key (.one next), by simp [setPath?, hs, hn]⟩
  | case5 => cases found
  | case6 => cases found

/-- An update is one of the field that the path starts with. -/
theorem setPath?_cons (record : Record) (key : String) (rest : Path) (new : Json) :
    record.setPath? (key :: rest) new =
      ((record.get? key).bind (Slot.setPath? rest new)).map (record.insert key) := by
  cases rest with
  | nil => cases found : record.get? key <;> simp [setPath?, Slot.setPath?, found]
  | cons next rest =>
    cases found : record.get? key with
    | none => simp [setPath?, found]
    | some slot =>
      cases slot with
      | scalar value =>
        simp only [setPath?, found, Option.bind_some, Slot.setPath?]
        cases value.setPath? (next :: rest) new <;> rfl
      | one inner =>
        simp only [setPath?, found, Option.bind_some, Slot.setPath?]
        cases inner.setPath? (next :: rest) new <;> rfl
      | many records => simp [setPath?, found, Slot.setPath?]

theorem keys_setPath? (h : record.setPath? path new = some updated) :
    Keyed.keys updated.fields = Keyed.keys record.fields := by
  cases path with
  | nil => simp [setPath?] at h
  | cons key rest =>
    rw [setPath?_cons, Option.map_eq_some_iff] at h
    obtain ⟨slot, written, rfl⟩ := h
    obtain ⟨old, found, -⟩ := Option.bind_eq_some_iff.1 written
    have there : key ∈ Keyed.keys record.fields :=
      Keyed.get?_isSome_iff.1 (Option.isSome_iff_exists.2 ⟨old, found⟩)
    rw [insert, Keyed.keys_insert, if_pos there]

theorem Distinct.redactPath (distinct : record.Distinct) (path : Path) :
    (record.redactPath path).Distinct := by
  rw [Record.redactPath]
  cases h : record.setPath? path accessDenied with
  | none => exact distinct
  | some updated => rwa [Distinct, Option.getD_some, keys_setPath? h]

theorem hasPath_cons {rest : Path} (deeper : rest ≠ []) (record : Record) (key : String) :
    record.hasPath (key :: rest) =
      match record.get? key with
      | some (.scalar value) => (value.getPath? rest).isSome
      | some (.one inner) => inner.hasPath rest
      | some (.many _) | none => false := by
  obtain ⟨segment, rest, rfl⟩ := List.exists_cons_of_ne_nil deeper
  rfl

theorem hasPath_one {inner : Record} {rest : Path} (found : record.get? key = some (.one inner))
    (deeper : rest ≠ []) : record.hasPath (key :: rest) = inner.hasPath rest := by
  rw [hasPath_cons deeper, found]

/-- An update shows in no field but the one that its path starts with. -/
theorem get?_setPath?_of_head? {other : String} (off : path.head? ≠ some other)
    (h : record.setPath? path new = some updated) : updated.get? other = record.get? other := by
  cases path with
  | nil => simp [setPath?] at h
  | cons key rest =>
    rw [setPath?_cons, Option.map_eq_some_iff] at h
    obtain ⟨slot, -, rfl⟩ := h
    exact Keyed.get?_insert_of_ne (fun same => off (by simp [same])) _ _

theorem get?_redactPath_of_head? {other : String} (off : path.head? ≠ some other) :
    (record.redactPath path).get? other = record.get? other := by
  rw [redactPath]
  cases h : record.setPath? path accessDenied with
  | none => rfl
  | some updated => exact get?_setPath?_of_head? off h

end Record
end AccessControl
