import AccessControl.Proofs.Construction
import AccessControl.Proofs.Projection

/-! Records as plain data. Rendering collects the fields in a table in which the last value of a key
wins, while fields are looked for from the front. No record that can be made has a field twice, and so
both find the same: no field is lost, neither in the whole data nor in a projection. -/
namespace AccessControl
namespace Keyed

variable {α : Type} (keep : String → Bool) (table : List (String × α))

theorem keys_filter : keys (table.filter fun entry => keep entry.1) = (keys table).filter keep := by
  rw [keys, keys, List.filter_map]
  rfl

theorem get?_filter (key : String) :
    get? key (table.filter fun entry => keep entry.1) = if keep key then get? key table else none := by
  induction table with
  | nil => simp
  | cons entry rest ih =>
    by_cases kept : keep entry.1 = true <;> by_cases here : entry.1 = key <;> simp_all [get?]

end Keyed

namespace Record

variable {record : Record}

/-- A value is an object with these keys in this order, and under each of them it has the plain data of
the field that is found in the record. -/
def Tells (record : Record) (keys : List String) (value : Json) : Prop :=
  ∃ members, value = .object members ∧ Keyed.keys members = keys ∧
    ∀ key ∈ keys, ∃ slot, record.get? key = some slot ∧ Keyed.get? key members = some slot.toJson

theorem tells_fields (keep : String → Bool) (record : Record) :
    record.Tells ((Keyed.keys record.fields).filter keep)
      (.object (Keyed.mapValues Slot.toJson (record.fields.filter fun field => keep field.1))) := by
  refine ⟨_, rfl, by rw [Keyed.keys_mapValues, Keyed.keys_filter], fun key named => ?_⟩
  obtain ⟨there, kept⟩ := List.mem_filter.1 named
  obtain ⟨slot, found⟩ := Keyed.mem_keys_iff.1 there
  refine ⟨slot, found, ?_⟩
  rw [Keyed.get?_mapValues, Keyed.get?_filter, if_pos kept, found, Option.map_some]

theorem distinct_iff_tells_toJson :
    record.Distinct ↔ record.Tells (Keyed.keys record.fields) record.toJson := by
  constructor
  · intro distinct
    have all := tells_fields (fun _ => true) record
    rwa [List.filter_true, List.filter_true, ← toJson_eq distinct] at all
  · -- a table that is collected never has a key twice
    rintro ⟨members, whole, keys, -⟩
    obtain ⟨type, fields⟩ := record
    rw [toJson, Json.object.injEq] at whole
    rw [Distinct, ← keys, ← whole]
    exact Keyed.nodup_keys_ofList _

theorem Distinct.project_eq (distinct : record.Distinct) (paths : List String) :
    record.project paths = .object (Keyed.mapValues Slot.toJson
      (record.fields.filter fun field => paths.any fun path => reads path field.1)) := by
  have filtered : (Keyed.keys (record.fields.filter fun field =>
      paths.any fun path => reads path field.1)).Nodup := by
    rw [Keyed.keys_filter fun key => paths.any fun path => reads path key]
    exact distinct.filter _
  rw [project, fieldsToJson_eq, Keyed.ofList_of_distinct]
  rwa [Keyed.keys_mapValues]

/-- No field is there twice in a record that can be made, nor in any record nested in it, and so each of
them is told whole. Its plain data has the keys of its fields in their order; a key is found in the one
just if it is in the other, and then with the plain data of the field; and a projection has in the same
way the fields that its paths read. -/
theorem rendered_whole (made : record.Made) : record.Everywhere fun inner =>
    inner.Distinct ∧
    inner.Tells (Keyed.keys inner.fields) inner.toJson ∧
    (∀ key, ((inner.get? key).isSome = true ↔ (inner.toJson.get? key).isSome = true) ∧
      inner.toJson.get? key = (inner.get? key).map Slot.toJson) ∧
    ∀ paths, inner.Tells
      ((Keyed.keys inner.fields).filter fun key => paths.any fun path => reads path key)
      (inner.project paths) := by
  refine made.distinct.mono fun inner distinct => ?_
  refine ⟨distinct, distinct_iff_tells_toJson.1 distinct, fun key => ?_, fun paths => ?_⟩
  · have found := get?_toJson distinct key
    exact ⟨by rw [found, Option.isSome_map], found⟩
  · rw [distinct.project_eq]
    exact tells_fields _ inner

def trunkGuard : Guard where
  attributes := ⟨.null, .null⟩
  rulebook := ⟨[("trunk", [("get", [⟨[], ["lid.color"], .allow⟩])]),
    ("lid", [("get", [⟨[], [], .allow⟩])])]⟩
  fallback := .deny

def trunkSchema : Schema :=
  ⟨[⟨"trunk", [⟨"lid", .object, some "lid"⟩]⟩, ⟨"lid", []⟩]⟩

def trunkData : Json :=
  .object [("", .null), ("lid", .object [("color", .string "red"), ("a.b", .null)])]

def trunk (color : Json) (rest : List (String × Slot Record)) : Record :=
  ⟨⟨"trunk", [⟨"lid", .object, some "lid"⟩]⟩, ("", .scalar .null) ::
    ("lid", .one ⟨⟨"lid", []⟩, [("color", .scalar color), ("a.b", .scalar .null)]⟩) :: rest⟩

def maskedTrunk : Record := trunk accessDenied [("lid.color", .scalar .null)]

/-- A trunk is lifted, gets a field with a dot in its key, has the color of its lid painted over and is
masked. -/
theorem rendered_whole_trunk :
    maskedTrunk.Made ∧
    maskedTrunk.Tells ["", "lid", "lid.color"] maskedTrunk.toJson ∧
    maskedTrunk.Tells ["lid", "lid.color"] (maskedTrunk.project ["lid.color", "li"]) := by
  have lifted : trunkSchema.record "trunk" trunkData = .ok (trunk (.string "red") []) := by cbv
  have inserted : (trunk (.string "red") []).insert "lid.color" (.scalar .null) =
      trunk (.string "red") [("lid.color", .scalar .null)] := by cbv
  have painted : (trunk (.string "red") [("lid.color", .scalar .null)]).setPath? ["lid", "color"]
      (.string "blue") = some (trunk (.string "blue") [("lid.color", .scalar .null)]) := by cbv
  have masks : trunkGuard.mask "get" (trunk (.string "blue") [("lid.color", .scalar .null)]) =
      .ok (some maskedTrunk) := by cbv
  have made : maskedTrunk.Made :=
    .masked (.overwritten (inserted ▸ .insert "lid.color" (.lifted lifted) (by simp [Slot.records]))
      painted) masks
  obtain ⟨-, whole, -, projected⟩ := (rendered_whole made).here
  have read : (Keyed.keys maskedTrunk.fields).filter
      (fun key => ["lid.color", "li"].any fun path => reads path key) = ["lid", "lid.color"] := by cbv
  exact ⟨made, whole, read ▸ projected ["lid.color", "li"]⟩

end Record
end AccessControl
