import AccessControl.Guard
import AccessControl.Proofs.RecordPath

/-! What of a record a filter reads. A projection keeps every field that an operand may lead to, as
the head of its path or as one flat key, so matching against the projection is matching against the
whole record. -/
namespace AccessControl
namespace Record

variable {record : Record} {paths : List String} {path key operand head : String} {rest : Path}

theorem reads_iff : reads path key = true ↔
    path = key ∨ ∃ rest, path.toList = key.toList ++ '.' :: rest := by
  have length : key.length = key.toList.length := String.length_toList.symm
  rw [reads, Bool.and_eq_true, List.isPrefixOf_iff_prefix, length]
  constructor
  · rintro ⟨⟨rest, whole⟩, next⟩
    rw [← whole, List.drop_left] at next
    cases rest with
    | nil => exact .inl (String.toList_inj.1 (by simpa using whole.symm))
    | cons c rest =>
      obtain rfl : c = '.' := by simpa using next
      exact .inr ⟨rest, whole.symm⟩
  · rintro (rfl | ⟨rest, whole⟩)
    · simp
    · rw [whole, List.drop_left]
      exact ⟨List.prefix_append _ _, by simp⟩

theorem reads_head (h : Path.ofText operand = head :: rest) : reads operand head = true := by
  rw [reads_iff]
  cases cut : Path.cut? operand with
  | none =>
    rw [Path.ofText_of_cut?_eq_none cut] at h
    exact .inl (List.cons.inj h).1
  | some parts =>
    obtain ⟨first, behind⟩ := parts
    rw [Path.ofText_of_cut?_eq_some cut] at h
    obtain ⟨rfl, -⟩ := List.cons.inj h
    exact .inr ⟨behind.toList, Path.cut?_eq_some cut⟩

theorem fieldsToJson_filter (keep : String → Bool) (fields : List (String × Slot Record)) :
    fieldsToJson (fields.filter fun field => keep field.1) =
      (fieldsToJson fields).filter fun member => keep member.1 := by
  simp only [fieldsToJson_eq, Keyed.mapValues, List.filter_map]
  rfl

theorem get?_project (named : path ∈ paths) (read : reads path key = true) :
    (record.project paths).get? key = record.toJson.get? key := by
  obtain ⟨type, fields⟩ := record
  have kept : (paths.any fun path => reads path key) = true := List.any_eq_true.2 ⟨path, named, read⟩
  rw [project, fieldsToJson_filter fun key => paths.any fun path => reads path key, toJson]
  exact Keyed.get?_ofList_filter (fun _ => kept) (fieldsToJson fields)

theorem attributeAt_project (named : operand ∈ paths) :
    attributeAt (record.project paths) operand = attributeAt record.toJson operand := by
  have flat : (record.project paths).get? operand = record.toJson.get? operand :=
    get?_project named (reads_iff.2 (.inl rfl))
  obtain ⟨head, rest, split⟩ := List.exists_cons_of_ne_nil (Path.ofText_ne_nil operand)
  have first : (record.project paths).get? head = record.toJson.get? head :=
    get?_project named (reads_head split)
  rw [attributeAt, attributeAt, flat, split, Json.getPath?_cons, Json.getPath?_cons, first]

end Record

namespace Filter

variable {data other : Json}

mutual

/-- A filter looks at nothing but its attributes. -/
theorem holds_congr : ∀ (filter : Filter),
    (∀ operand ∈ filter.attributes, attributeAt data operand = attributeAt other operand) →
      filter.holds data = filter.holds other
  | .compare operator operand value, agree => by
    rw [holds, holds, agree operand (by simp [attributes])]
  | .oneOf operand values, agree => by
    rw [holds, holds, agree operand (by simp [attributes])]
  | .negate inner, agree => by
    rw [holds, holds, holds_congr inner fun operand hm => agree operand (by rwa [attributes])]
  | .all children, agree => by
    rw [holds, holds, allHold_congr children fun operand hm => agree operand (by rwa [attributes])]
  | .any children, agree => by
    rw [holds, holds, anyHolds_congr children fun operand hm => agree operand (by rwa [attributes])]

theorem allHold_congr : ∀ (filters : List Filter),
    (∀ operand ∈ listAttributes filters, attributeAt data operand = attributeAt other operand) →
      allHold data filters = allHold other filters
  | [], _ => rfl
  | child :: rest, agree => by
    simp only [listAttributes, List.mem_append] at agree
    rw [allHold, allHold, holds_congr child fun operand hm => agree operand (.inl hm),
      allHold_congr rest fun operand hm => agree operand (.inr hm)]

theorem anyHolds_congr : ∀ (filters : List Filter),
    (∀ operand ∈ listAttributes filters, attributeAt data operand = attributeAt other operand) →
      anyHolds data filters = anyHolds other filters
  | [], _ => rfl
  | child :: rest, agree => by
    simp only [listAttributes, List.mem_append] at agree
    rw [anyHolds, anyHolds, holds_congr child fun operand hm => agree operand (.inl hm),
      anyHolds_congr rest fun operand hm => agree operand (.inr hm)]

end

theorem holds_project (filter : Filter) (record : Record) :
    filter.holds (record.project filter.attributes) = filter.holds record.toJson :=
  holds_congr filter fun _ named => Record.attributeAt_project named

end Filter

/-- Whether the filter of a decision holds of plain data. A filter that cannot be matched does not
hold. -/
def Decision.coversData (decision : Decision) (data : Json) : Bool :=
  match decision.filter with
  | some filter =>
    match filter.holds data with
    | .ok held => held
    | .error _ => false
  | none => true

theorem Decision.covers_eq_coversData (decision : Decision) (record : Record) :
    decision.covers record = decision.coversData record.toJson := by
  rw [covers, coversData]
  cases decision.filter with
  | none => rfl
  | some filter =>
    have projected := Filter.holds_project filter record
    cases held : filter.holds record.toJson <;> simp only [projected, held]

theorem Decision.covers_congr {decision : Decision} {record other : Record}
    (agree : ∀ filter ∈ decision.filter, ∀ operand ∈ filter.attributes,
      attributeAt other.toJson operand = attributeAt record.toJson operand) :
    decision.covers other = decision.covers record := by
  rw [covers_eq_coversData, covers_eq_coversData, coversData, coversData]
  cases h : decision.filter with
  | none => rfl
  | some filter => simp only [Filter.holds_congr filter (agree filter h)]

theorem Guard.checkRecord_congr {guard : Guard} {action : String} {record other : Record}
    (type : other.type = record.type)
    (agree : ∀ general, guard.check record.type.name action = .ok general →
      ∀ decision ∈ general.decision, ∀ filter ∈ decision.filter, ∀ operand ∈ filter.attributes,
        attributeAt other.toJson operand = attributeAt record.toJson operand) :
    guard.checkRecord other action = guard.checkRecord record action := by
  rw [checkRecord, checkRecord, type]
  cases general : guard.check record.type.name action with
  | error fault => rfl
  | ok outcome =>
    simp only [bind, Except.bind]
    cases decided : outcome.decision with
    | none => rfl
    | some decision =>
      simp only [Decision.covers_congr (agree outcome general decision decided)]

/-- The decision on an object with the given plain data, all of which is at hand. -/
def Guard.checkData (guard : Guard) (object : String) (data : Json) (action : String) :
    Except Fault Outcome := do
  let outcome ← guard.check object action
  match outcome.decision with
  | some decision =>
    if decision.coversData data then return outcome
    else return ⟨guard.fallback.allows, some decision⟩
  | none => return outcome

/-- Projection loses nothing that matters. Whatever a filter reads and whatever keys a record has,
matching against the projection and matching against the whole record give the same outcome or the
same fault, so a record is decided as if all of its data were matched. -/
theorem projection_lossless :
    (∀ (filter : Filter) (record : Record),
      filter.holds (record.project filter.attributes) = filter.holds record.toJson) ∧
    ∀ (guard : Guard) (record : Record) (action : String),
      guard.checkRecord record action =
        guard.checkData record.type.name record.toJson action := by
  refine ⟨Filter.holds_project, fun guard record action => ?_⟩
  rw [Guard.checkRecord, Guard.checkData]
  refine bind_congr fun outcome => ?_
  cases outcome.decision with
  | none => rfl
  | some decision => simp only [Decision.covers_eq_coversData]

-- the empty key and a key with a dot in it are fields like any other
example : (⟨⟨"t", []⟩, [("", .scalar .null), ("a.b", .scalar .null), ("a", .scalar .null),
    ("ab", .scalar .null)]⟩ : Record).project [".x", "a.b"] =
      .object [("", .null), ("a.b", .null), ("a", .null)] := by cbv

end AccessControl
