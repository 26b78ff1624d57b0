import AccessControl.Proofs.Fallible
import AccessControl.Schema.Lift

/-! Lifting follows links. A member of an object stays plain unless its key is declared as a link and
its value has the shape of one; then it is lifted as an object of the type that the link names. Links
lead from a value to parts of it, so there is an induction along them, whatever cycles the object types
form. -/
namespace AccessControl
namespace ObjectType

/-- The value is an object that becomes a record of the target: the key is declared as a link to the
target, or as a generic link, and then the value names the target itself. -/
inductive LinksOne (type : ObjectType) (key : String) : Json → String → Prop where
  | declared {field : Field} {members : List (String × Json)} {target : String}
      (found : type.field? key = some field) (kind : field.type = .object)
      (link : field.link = some target) : LinksOne type key (.object members) target
  | generic {field : Field} {members : List (String × Json)} {target : String}
      (found : type.field? key = some field) (kind : field.type = .generic)
      (named : Keyed.get? genericObjectKey members = some (.string target)) :
      LinksOne type key (.object members) target

/-- The value is a list of objects that become records of the target, to which the key is declared as a
link to many. -/
inductive LinksMany (type : ObjectType) (key : String) : Json → String → Prop where
  | declared {field : Field} {items : List Json} {target : String}
      (found : type.field? key = some field) (kind : field.type = .array)
      (link : field.link = some target) (objects : ∀ item ∈ items, item.isObject = true) :
      LinksMany type key (.array items) target

variable {type : ObjectType} {key target other : String} {field : Field} {value : Json}

theorem linksOne_object_iff {members : List (String × Json)} (found : type.field? key = some field) :
    type.LinksOne key (.object members) target ↔ field.target? members = some target := by
  constructor
  · rintro (⟨found', kind, link⟩ | ⟨found', kind, named⟩) <;>
      obtain rfl := Option.some.inj (found.symm.trans found')
    · simp [Field.target?, kind, link]
    · simp [Field.target?, kind, named, Json.string?]
  · intro h
    unfold Field.target? at h
    split at h
    · rename_i kind
      exact .declared found kind h
    · rename_i kind
      obtain ⟨named, hn, text⟩ := Option.bind_eq_some_iff.1 h
      obtain rfl : named = .string target := by
        cases named <;> simp_all [Json.string?]
      exact .generic found kind hn
    · cases h

theorem linksMany_array_iff {items : List Json} (found : type.field? key = some field) :
    type.LinksMany key (.array items) target ↔ field.itemTarget? items = some target := by
  constructor
  · rintro ⟨found', kind, link, objects⟩
    obtain rfl := Option.some.inj (found.symm.trans found')
    simpa [Field.itemTarget?, kind, link] using objects
  · intro h
    unfold Field.itemTarget? at h
    split at h
    · rename_i kind
      split at h
      · rename_i objects
        exact .declared found kind h (by simpa using objects)
      · cases h
    · cases h

theorem LinksOne.unique (one : type.LinksOne key value target) (also : type.LinksOne key value other) :
    target = other := by
  cases one <;> cases also <;> simp_all

theorem LinksMany.unique (many : type.LinksMany key value target)
    (also : type.LinksMany key value other) : target = other := by
  cases many
  cases also
  simp_all

theorem LinksMany.objects {items : List Json} (many : type.LinksMany key (.array items) target) :
    ∀ item ∈ items, item.isObject = true := by
  cases many
  assumption

theorem LinksOne.not_many (one : type.LinksOne key value target) : ¬ type.LinksMany key value other := by
  cases one <;> rintro ⟨⟩

end ObjectType

namespace Schema

open ObjectType

def liftMember (schema : Schema) (type : ObjectType) (key : String) (value : Json) :
    Except Fault (Slot Record) :=
  match type.field? key with
  | some field => schema.lift field value
  | none => .ok (.scalar value)

inductive LiftedBy (schema : Schema) (type : ObjectType) (key : String) :
    Json → Except Fault (Slot Record) → Prop where
  | one {value : Json} {target : String} (link : type.LinksOne key value target) :
      LiftedBy schema type key value (do return .one (← schema.record target value))
  | many {items : List Json} {target : String} (link : type.LinksMany key (.array items) target) :
      LiftedBy schema type key (.array items)
        (do return .many (← items.mapM (schema.record target)))
  | plain {value : Json} (one : ∀ target, ¬ type.LinksOne key value target)
      (many : ∀ target, ¬ type.LinksMany key value target) :
      LiftedBy schema type key value (.ok (.scalar value))

variable (schema : Schema)

theorem liftMembers_eq_mapM (type : ObjectType) (members : List (String × Json)) :
    schema.liftMembers type members =
      members.mapM fun member => do return (member.1, ← schema.liftMember type member.1 member.2) := by
  induction members with
  | nil => rfl
  | cons member rest ih =>
    obtain ⟨key, value⟩ := member
    cases found : type.field? key with
    | none => simp only [liftMembers, List.mapM_cons, ih, liftMember, found]; rfl
    | some field =>
      simp only [liftMembers, List.mapM_cons, ih, liftMember, found]
      cases schema.lift field value <;> rfl

theorem liftItems_eq_mapM (target : String) {items : List Json}
    (objects : ∀ item ∈ items, item.isObject = true) :
    schema.liftItems target items = items.mapM (schema.record target) := by
  induction items with
  | nil => rfl
  | cons item rest ih =>
    rw [List.forall_mem_cons] at objects
    cases item with
    | object members => rw [liftItems, List.mapM_cons, ih objects.2]; rfl
    | null | bool _ | number _ | string _ | array _ => cases objects.1

theorem liftedBy (type : ObjectType) (key : String) (value : Json) :
    LiftedBy schema type key value (schema.liftMember type key value) := by
  unfold liftMember
  cases found : type.field? key with
  | none =>
    refine .plain (fun target => ?_) fun target => ?_
    · rintro (⟨found', _⟩ | ⟨found', _⟩) <;> simp [found] at found'
    · rintro ⟨found', _⟩
      simp [found] at found'
  | some field =>
    cases value with
    | object members =>
      simp only [lift]
      cases named : field.target? members with
      | some target => exact .one ((linksOne_object_iff found).2 named)
      | none =>
        refine .plain (fun target link => ?_) nofun
        simpa [named] using (linksOne_object_iff found).1 link
    | array items =>
      simp only [lift]
      cases named : field.itemTarget? items with
      | some target =>
        have link := (linksMany_array_iff found).2 named
        simp only [liftItems_eq_mapM schema target link.objects]
        exact .many link
      | none =>
        refine .plain nofun fun target link => ?_
        simpa [named] using (linksMany_array_iff found).1 link
    | null | bool _ | number _ | string _ => exact .plain nofun nofun

/-- The slot that a member is lifted to. -/
inductive LiftsTo (type : ObjectType) (key : String) : Json → Slot Record → Prop where
  | one {value : Json} {target : String} {inner : Record} (link : type.LinksOne key value target)
      (lifted : schema.record target value = .ok inner) : LiftsTo type key value (.one inner)
  | many {items : List Json} {target : String} {records : List Record}
      (link : type.LinksMany key (.array items) target)
      (lifted : List.Forall₂ (fun item record => schema.record target item = .ok record) items records) :
      LiftsTo type key (.array items) (.many records)
  | plain {value : Json} (one : ∀ target, ¬ type.LinksOne key value target)
      (many : ∀ target, ¬ type.LinksMany key value target) : LiftsTo type key value (.scalar value)

/-- Lifting a value as an object of one name comes to lift another value as an object of another. -/
inductive Links : String × Json → String × Json → Prop where
  | one {name key target : String} {type : ObjectType} {members : List (String × Json)} {value : Json}
      (known : schema.object? name = some type) (member : (key, value) ∈ members)
      (link : type.LinksOne key value target) : Links (name, .object members) (target, value)
  | item {name key target : String} {type : ObjectType} {members : List (String × Json)}
      {items : List Json} {item : Json} (known : schema.object? name = some type)
      (member : (key, .array items) ∈ members) (link : type.LinksMany key (.array items) target)
      (held : item ∈ items) : Links (name, .object members) (target, item)

variable {schema} {type : ObjectType} {name key : String} {value : Json} {record : Record}

theorem liftsTo_of_liftMember {slot : Slot Record} (h : schema.liftMember type key value = .ok slot) :
    schema.LiftsTo type key value slot := by
  have view := schema.liftedBy type key value
  generalize schema.liftMember type key value = run at h view
  cases view with
  | one link =>
    simp only [bind_eq_ok_iff, pure_eq_ok_iff] at h
    obtain ⟨inner, lifted, rfl⟩ := h
    exact .one link lifted
  | many link =>
    simp only [bind_eq_ok_iff, pure_eq_ok_iff] at h
    obtain ⟨records, lifted, rfl⟩ := h
    exact .many link (mapM_eq_ok_iff.1 lifted)
  | plain one many =>
    obtain rfl := Except.ok.inj h
    exact .plain one many

theorem Links.sizeOf_lt {whole part : String × Json} (link : schema.Links whole part) :
    sizeOf part.2 < sizeOf whole.2 := by
  cases link with
  | one _ member _ =>
    have inner := List.sizeOf_lt_of_mem member
    simp at inner ⊢
    omega
  | item _ member _ held =>
    have inner := List.sizeOf_lt_of_mem member
    have innermost := List.sizeOf_lt_of_mem held
    simp at inner ⊢
    omega

/-- Induction along the links that lifting follows. -/
theorem link_induction {motive : String → Json → Prop}
    (step : ∀ name value, (∀ target part, schema.Links (name, value) (target, part) →
      motive target part) → motive name value) (name : String) (value : Json) : motive name value :=
  step name value fun target part link =>
    have := link.sizeOf_lt
    link_induction step target part
termination_by sizeOf value

theorem exists_lifted (h : schema.record name value = .ok record) :
    ∃ members fields, value = .object members ∧ schema.object? name = some record.type ∧
      record.fields = Keyed.ofList fields ∧
      List.Forall₂ (fun member field => field.1 = member.1 ∧
        schema.LiftsTo record.type member.1 member.2 field.2) members fields := by
  unfold Schema.record instantiate at h
  split at h
  · rename_i type known
    simp only [bind_eq_ok_iff, pure_eq_ok_iff] at h
    obtain ⟨fields, lifted, rfl⟩ := h
    cases value with
    | object members =>
      replace lifted : schema.liftMembers type members = .ok fields := lifted
      rw [liftMembers_eq_mapM, mapM_eq_ok_iff] at lifted
      refine ⟨members, fields, rfl, known, rfl, lifted.imp fun member field hf => ?_⟩
      simp only [bind_eq_ok_iff, pure_eq_ok_iff] at hf
      obtain ⟨slot, hs, rfl⟩ := hf
      exact ⟨rfl, liftsTo_of_liftMember hs⟩
    | null | bool _ | number _ | string _ | array _ => cases lifted
  · cases h

theorem Links.exists_record {target : String} {part : Json}
    (link : schema.Links (name, value) (target, part)) (h : schema.record name value = .ok record) :
    ∃ inner, schema.record target part = .ok inner := by
  obtain ⟨members, fields, rfl, known, -, lifted⟩ := exists_lifted h
  cases link with
  | one known' member link =>
    obtain rfl := Option.some.inj (known.symm.trans known')
    obtain ⟨⟨_, slot⟩, -, -, lifts⟩ := exists_of_mem_left lifted member
    replace lifts : schema.LiftsTo record.type _ part slot := lifts
    cases lifts with
    | one also lifted => exact link.unique also ▸ ⟨_, lifted⟩
    | many also _ => exact absurd also link.not_many
    | plain none _ => exact absurd link (none _)
  | item known' member link held =>
    obtain rfl := Option.some.inj (known.symm.trans known')
    obtain ⟨⟨_, slot⟩, -, -, lifts⟩ := exists_of_mem_left lifted member
    replace lifts : schema.LiftsTo record.type _ (.array _) slot := lifts
    cases lifts with
    | one also _ => exact absurd link also.not_many
    | many also lifted =>
      obtain ⟨inner, -, lifted⟩ := exists_of_mem_left lifted held
      exact link.unique also ▸ ⟨inner, lifted⟩
    | plain _ none => exact absurd link (none _)

/-- Lifting fails where a name is unknown, where a value is no object, or behind a link. -/
theorem faultsIn_record {p : Fault → Prop}
    (unknown : schema.object? name = none → p (.invalidRecord (.unknownObject name)))
    (shape : value.isObject = false → p (.invalidRecord (.notAnObject name value)))
    (below : ∀ target part, schema.Links (name, value) (target, part) →
      FaultsIn p (schema.record target part)) : FaultsIn p (schema.record name value) := by
  unfold Schema.record instantiate
  split
  · rename_i type known
    refine faultsIn_bind_pure_iff.2 ?_
    cases value with
    | object members =>
      simp only [liftMembers_eq_mapM]
      refine faultsIn_mapM fun member hm => faultsIn_bind_pure_iff.2 ?_
      obtain ⟨key, value⟩ := member
      have view := schema.liftedBy type key value
      generalize schema.liftMember type key value = run at view
      cases view with
      | one link => exact faultsIn_bind_pure_iff.2 (below _ _ (.one known hm link))
      | many link =>
        exact faultsIn_bind_pure_iff.2
          (faultsIn_mapM fun item held => below _ _ (.item known hm link held))
      | plain _ _ => exact faultsIn_ok _
    | null | bool _ | number _ | string _ | array _ => exact faultsIn_error_iff.2 (shape rfl)
  · rename_i none
    exact faultsIn_error_iff.2 (unknown none)

end Schema
end AccessControl
