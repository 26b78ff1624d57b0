import AccessControl.Proofs.Lift
import AccessControl.Proofs.RecordPath
import Mathlib.Logic.Relation

/-! Lifting loses nothing and gives each part the type that is declared for it. A lifted record has the
plain data that it was lifted from, and at every depth a slot holds records just where the declaration
of its key and the shape of its value make it a link. Lifting fails only where an object has to become a
record of a type that the schema does not know. -/
namespace AccessControl

/-- A slot holds what the declaration of its key and its value ask for: one record if the value links to
one, a list of them if it links to many, each of the type that the link names, and otherwise the value. -/
structure Slot.Typed (type : ObjectType) (key : String) (value : Json) (slot : Slot Record) : Prop where
  one : ∀ target, (∃ inner, slot = .one inner ∧ inner.type.name = target) ↔
    type.LinksOne key value target
  many : (∃ records, slot = .many records) ↔ ∃ target, type.LinksMany key value target
  items : ∀ target records, type.LinksMany key value target → slot = .many records →
    ∀ record ∈ records, record.type.name = target
  plain : ∀ content, slot = .scalar content → content = value

namespace Schema

structure WellTyped (schema : Schema) (record : Record) : Prop where
  declared : schema.object? record.type.name = some record.type
  slots : ∀ key slot value, record.get? key = some slot → record.toJson.get? key = some value →
    slot.Typed record.type key value

variable {schema : Schema} {type : ObjectType} {name key : String} {value : Json}
  {members : List (String × Json)} {slot : Slot Record} {record : Record}

theorem name_of_object? (known : schema.object? name = some type) : type.name = name := by
  simpa using List.find?_some known

theorem name_of_record (h : schema.record name value = .ok record) : record.type.name = name := by
  obtain ⟨_, _, -, known, -, -⟩ := exists_lifted h
  exact name_of_object? known

theorem map_eq_of_forall₂ {α β : Type} {f : β → α} {xs : List α} {ys : List β}
    (h : List.Forall₂ (fun x y => f y = x) xs ys) : ys.map f = xs := by
  induction h with
  | nil => rfl
  | cons first _ ih => rw [List.map_cons, first, ih]

theorem LiftsTo.typed (lifts : schema.LiftsTo type key value slot) : slot.Typed type key value := by
  cases lifts with
  | one link lifted =>
    have named := name_of_record lifted
    refine ⟨fun target => ?_, ?_, by simp, by simp⟩
    · constructor
      · rintro ⟨_, same, rfl⟩
        cases same
        exact named ▸ link
      · exact fun also => ⟨_, rfl, named.trans (link.unique also)⟩
    · exact iff_of_false (by simp) fun ⟨_, also⟩ => link.not_many also
  | many link lifted =>
    refine ⟨fun target => ?_, ?_, ?_, by simp⟩
    · exact iff_of_false (by simp) fun one => one.not_many link
    · exact iff_of_true ⟨_, rfl⟩ ⟨_, link⟩
    · rintro target _ also same record hm
      cases same
      obtain ⟨item, -, lifted⟩ := exists_of_mem_right lifted hm
      exact (name_of_record lifted).trans (link.unique also)
  | plain one many =>
    refine ⟨fun target => ?_, ?_, by simp, ?_⟩
    · exact iff_of_false (by simp) (one target)
    · exact iff_of_false (by simp) fun ⟨target, link⟩ => many target link
    · rintro _ ⟨⟩
      rfl

theorem Links.wellFormed {whole part : String × Json} (link : schema.Links whole part)
    (wf : whole.2.WellFormed) : part.2.WellFormed := by
  cases link with
  | one _ member _ =>
    have inner := Json.wellFormedMembers_iff.1 wf.2 _ member
    exact inner
  | item _ member _ held =>
    have list := Json.wellFormedMembers_iff.1 wf.2 _ member
    exact Json.wellFormedItems_iff.1 list _ held

theorem LiftsTo.toJson_eq (lifts : schema.LiftsTo type key value slot)
    (known : schema.object? name = some type) (member : (key, value) ∈ members)
    (below : ∀ target part, schema.Links (name, .object members) (target, part) →
      ∀ inner, schema.record target part = .ok inner → inner.toJson = part) : slot.toJson = value := by
  cases lifts with
  | one link lifted => exact below _ _ (.one known member link) _ lifted
  | many link lifted =>
    rw [Slot.toJson]
    congr 1
    have each := (List.forall₂_and_left _ _).2
      ⟨fun item held => below _ item (.item known member link held), lifted⟩
    exact map_eq_of_forall₂ (each.imp fun item record both => both.1 record both.2)
  | plain _ _ => rfl

theorem record_toJson (wf : value.WellFormed) (h : schema.record name value = .ok record) :
    record.toJson = value := by
  induction name, value using schema.link_induction generalizing record with
  | step name value ih =>
    obtain ⟨members, fields, rfl, known, built, lifted⟩ := exists_lifted h
    have each := (List.forall₂_and_left members fields).2 ⟨fun _ hm => hm, lifted⟩
    have same : Keyed.mapValues Slot.toJson fields = members :=
      map_eq_of_forall₂ <| each.imp fun member field ⟨hm, key, lifts⟩ => by
        rw [key, lifts.toJson_eq known hm fun target part link inner lifted =>
          ih target part link (link.wellFormed wf) lifted]
    have distinct : (Keyed.keys fields).Nodup := by
      rw [← Keyed.keys_mapValues Slot.toJson fields, same]
      exact wf.1
    rw [Record.toJson_eq (record_distinct h), built, Keyed.ofList_of_distinct distinct, same]

/-- Every record that is lifted from well-formed data is well typed at every depth. -/
theorem record_wellTyped (wf : value.WellFormed) (h : schema.record name value = .ok record) :
    record.Everywhere schema.WellTyped := by
  refine record_everywhere Json.WellFormed
    (fun name value record wf h => ⟨?_, fun key slot part hs hp => ?_⟩)
    (fun _ _ link wf => link.wellFormed wf) wf h
  · obtain ⟨_, _, -, known, -, -⟩ := exists_lifted h
    rwa [name_of_object? known]
  · obtain ⟨members, content, rfl, known, member, lifts⟩ :=
      exists_member_of_field h (Keyed.mem_of_get? hs)
    rw [Record.get?_toJson (record_distinct h), hs, Option.map_some, Option.some.injEq] at hp
    rw [← hp, lifts.toJson_eq known member fun target part link inner lifted =>
      record_toJson (link.wellFormed wf) lifted]
    exact lifts.typed

theorem exists_record_of_reached {lifted part : String × Json}
    (reached : Relation.ReflTransGen schema.Links lifted part)
    (h : ∃ record, schema.record lifted.1 lifted.2 = .ok record) :
    ∃ record, schema.record part.1 part.2 = .ok record := by
  induction reached with
  | refl => exact h
  | tail _ link ih =>
    obtain ⟨record, lifted⟩ := ih
    exact link.exists_record lifted

/-- A record of an unknown object type, or of a value that is no object, is needed on the way. -/
def Stuck (schema : Schema) (name : String) (value : Json) : Prop :=
  schema.object? name = none ∨ value.isObject = false ∨
    ∃ target part, Relation.TransGen schema.Links (name, value) (target, part) ∧
      schema.object? target = none

theorem Links.isObject {whole part : String × Json} (link : schema.Links whole part) :
    part.2.isObject = true := by
  cases link with
  | one _ _ link => cases link <;> rfl
  | item _ _ link held => exact link.objects _ held

theorem Stuck.of_link {target : String} {part : Json} (stuck : schema.Stuck target part)
    (link : schema.Links (name, value) (target, part)) : schema.Stuck name value := by
  refine .inr (.inr ?_)
  rcases stuck with unknown | shape | ⟨deeper, inner, reached, unknown⟩
  · exact ⟨target, part, .single link, unknown⟩
  · simp [link.isObject] at shape
  · exact ⟨deeper, inner, .head link reached, unknown⟩

theorem stuck_of_fails (schema : Schema) (name : String) (value : Json) :
    FaultsIn (fun _ => schema.Stuck name value) (schema.record name value) := by
  induction name, value using schema.link_induction with
  | step name value ih =>
    refine faultsIn_record .inl (fun shape => .inr (.inl shape)) fun target part link => ?_
    exact (ih target part link).mono fun _ stuck => stuck.of_link link

theorem Stuck.not_record (stuck : schema.Stuck name value) (record : Record) :
    schema.record name value ≠ .ok record := by
  intro h
  rcases stuck with unknown | shape | ⟨target, part, reached, unknown⟩
  · obtain ⟨_, _, -, known, -, -⟩ := exists_lifted h
    simp [unknown] at known
  · obtain ⟨_, _, rfl, -, -, -⟩ := exists_lifted h
    cases shape
  · obtain ⟨inner, lifted⟩ := exists_record_of_reached reached.to_reflTransGen ⟨record, h⟩
    obtain ⟨_, _, -, known, -, -⟩ := exists_lifted lifted
    simp [unknown] at known

theorem faultsIn_record_invalid (schema : Schema) (name : String) (value : Json) :
    FaultsIn (fun fault => ∃ cause, fault = .invalidRecord cause) (schema.record name value) := by
  induction name, value using schema.link_induction with
  | step name value ih => exact faultsIn_record (fun _ => ⟨_, rfl⟩) (fun _ => ⟨_, rfl⟩) ih

/-- Lifting is lossless and well typed. A record that is lifted from well-formed data has that data, its
keys in the same order at every depth, and holds records just where it links to some; each has the type
that the link names. Lifting fails with an invalid record only, and just where an object that it comes
to has to become a record of an unknown type, or the value itself is no object. A list without items
becomes a list without records, whatever type its link names. -/
theorem record_lossless (wf : value.WellFormed) :
    (∀ record, schema.record name value = .ok record →
      record.toJson = value ∧ record.type.name = name ∧ record.Everywhere schema.WellTyped) ∧
    (∀ fault, schema.record name value = .error fault → ∃ cause, fault = .invalidRecord cause) ∧
    ((∃ fault, schema.record name value = .error fault) ↔
      schema.object? name = none ∨ value.isObject = false ∨
        ∃ target part, Relation.TransGen schema.Links (name, value) (target, part) ∧
          schema.object? target = none) := by
  refine ⟨fun record h => ⟨record_toJson wf h, name_of_record h, record_wellTyped wf h⟩,
    faultsIn_record_invalid schema name value, ?_⟩
  constructor
  · rintro ⟨fault, failed⟩
    exact stuck_of_fails schema name value fault failed
  · intro stuck
    cases run : schema.record name value with
    | error fault => exact ⟨fault, rfl⟩
    | ok record => exact absurd run (Stuck.not_record stuck record)

def shelfSchema : Schema :=
  ⟨[⟨"shelf", [⟨"owner", .object, some "person"⟩, ⟨"top", .generic, none⟩,
      ⟨"books", .array, some "book"⟩]⟩,
    ⟨"person", [⟨"friends", .array, some "person"⟩]⟩]⟩

def shelfData : Json :=
  .object [("top", .object [("_object", .string "person"), ("friends", .array [.object []])]),
    ("owner", .string "ann"), ("books", .array [])]

theorem wellFormed_shelfData : shelfData.WellFormed := by
  simp [shelfData, Json.WellFormed, Json.WellFormedMembers, Json.WellFormedItems]

theorem exists_shelf : ∃ record, shelfSchema.record "shelf" shelfData = .ok record := ⟨_, rfl⟩

theorem record_lossless_shelf :
    shelfData.WellFormed ∧
      ∃ record, shelfSchema.record "shelf" shelfData = .ok record ∧ record.toJson = shelfData ∧
        record.type.name = "shelf" ∧ record.Everywhere shelfSchema.WellTyped := by
  obtain ⟨record, built⟩ := exists_shelf
  obtain ⟨lossless, -, -⟩ :=
    @record_lossless shelfSchema "shelf" shelfData wellFormed_shelfData
  exact ⟨wellFormed_shelfData, record, built, lossless record built⟩

/-- A member somewhere in the data is lifted as a link to the target. -/
def LinkedTo (schema : Schema) (name : String) (value : Json) (target : String) : Prop :=
  ∃ owner members type key part,
    Relation.ReflTransGen schema.Links (name, value) (owner, .object members) ∧
      schema.object? owner = some type ∧ (key, part) ∈ members ∧
      (type.LinksOne key part target ∨ type.LinksMany key part target)

/-- A link to an unknown type does not make lifting fail where it links to nothing. -/
theorem unknown_link_not_stuck :
    ¬ ∀ (schema : Schema) (name : String) (value : Json), value.WellFormed →
      ((∃ fault, schema.record name value = .error fault) ↔
        schema.object? name = none ∨ value.isObject = false ∨
          ∃ target, schema.LinkedTo name value target ∧ schema.object? target = none) := by
  intro iff
  have linked : shelfSchema.LinkedTo "shelf" shelfData "book" :=
    ⟨"shelf", _, _, "books", .array [], .refl, rfl, by simp, .inr (.declared rfl rfl rfl (by simp))⟩
  obtain ⟨fault, failed⟩ :=
    (iff shelfSchema "shelf" shelfData wellFormed_shelfData).2 (.inr (.inr ⟨"book", linked, rfl⟩))
  obtain ⟨record, built⟩ := exists_shelf
  cases built.symm.trans failed

end Schema
end AccessControl
