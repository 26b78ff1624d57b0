import AccessControl.Proofs.Lifting
import AccessControl.Proofs.Record

/-! What a schema gives to the records that it builds: in each of them, at every depth, no field is
there twice, and nested records are only where masking walks. -/
namespace AccessControl

/-- Both properties that a schema gives to the records it builds. -/
structure Record.Regular (record : Record) : Prop where
  distinct : record.Distinct
  declared : record.Declared

namespace Schema

variable {schema : Schema} {type : ObjectType} {name key : String} {value : Json}
  {members : List (String × Json)} {slot : Slot Record} {record : Record} {p : Record → Prop}

theorem LiftsTo.walks (lifts : schema.LiftsTo type key value slot) : type.Walks key slot := by
  cases lifts with
  | one link _ =>
    cases link with
    | declared found kind _ | generic found kind _ =>
      exact fun _ _ => ⟨_, found, by rw [kind]; rfl⟩
  | many link _ =>
    cases link with
    | declared found kind _ _ => exact fun _ _ => ⟨_, found, by rw [kind]; rfl⟩
  | plain _ _ => exact type.walks_scalar key value

theorem LiftsTo.exists_link (lifts : schema.LiftsTo type key value slot)
    (known : schema.object? name = some type) (member : (key, value) ∈ members) {inner : Record}
    (hi : inner ∈ slot.records) :
    ∃ target part, schema.Links (name, .object members) (target, part) ∧
      schema.record target part = .ok inner := by
  cases lifts with
  | one link lifted =>
    obtain rfl := List.mem_singleton.1 hi
    exact ⟨_, value, .one known member link, lifted⟩
  | many link lifted =>
    obtain ⟨item, held, lifted⟩ := exists_of_mem_right lifted hi
    exact ⟨_, item, .item known member link held, lifted⟩
  | plain _ _ => cases hi

theorem record_distinct (h : schema.record name value = .ok record) : record.Distinct := by
  obtain ⟨_, fields, -, -, built, -⟩ := exists_lifted h
  rw [Record.Distinct, built]
  exact Keyed.nodup_keys_ofList fields

theorem exists_member_of_field (h : schema.record name value = .ok record)
    (hm : (key, slot) ∈ record.fields) :
    ∃ members part, value = .object members ∧ schema.object? name = some record.type ∧
      (key, part) ∈ members ∧ schema.LiftsTo record.type key part slot := by
  obtain ⟨members, fields, rfl, known, built, lifted⟩ := exists_lifted h
  rw [built] at hm
  obtain ⟨⟨_, part⟩, member, rfl, lifts⟩ := exists_of_mem_right lifted (Keyed.mem_of_mem_ofList hm)
  exact ⟨members, part, rfl, known, member, lifts⟩

/-- What holds of each lifted record on its own holds at every depth: nested records are lifted too,
from what links lead to. -/
theorem record_everywhere (q : Json → Prop)
    (each : ∀ name value record, q value → schema.record name value = .ok record → p record)
    (onward : ∀ lifted part, schema.Links lifted part → q lifted.2 → q part.2) (start : q value)
    (h : schema.record name value = .ok record) : record.Everywhere p := by
  induction name, value using schema.link_induction generalizing record with
  | step name value ih =>
    refine .intro (each name value record start h) fun key slot hm inner hi => ?_
    obtain ⟨members, part, rfl, known, member, lifts⟩ := exists_member_of_field h hm
    obtain ⟨target, part, link, lifted⟩ := lifts.exists_link known member hi
    exact ih target part link (onward _ _ link start) lifted

theorem record_regular (h : schema.record name value = .ok record) :
    record.Everywhere Record.Regular := by
  refine record_everywhere (fun _ => True) (fun name value record _ h => ?_)
    (fun _ _ _ _ => trivial) trivial h
  refine ⟨record_distinct h, fun key slot hm => ?_⟩
  obtain ⟨_, _, -, -, -, lifts⟩ := exists_member_of_field h hm
  exact lifts.walks

end Schema
end AccessControl
