import AccessControl.Proofs.Rulebook

/-! Operators outside of the vocabulary under the permissive policy. Reading keeps them as entries that
pass, at every depth of the groups. Under `not` it does not: there the name is looked up without regard
to the policy, and the document is refused for it if reading comes that far. -/
namespace AccessControl

variable {α β γ : Type}

/-- What comes after a reading, which is nothing if the reading fails. -/
def ifAccepted (read : Except Fault α) (later : List γ) : List γ :=
  match read with
  | .ok _ => later
  | .error _ => []

mutual

/-- The members, groups aside, that reading a condition comes to: all up to the first it refuses. -/
def Condition.met : Json → List (String × Json)
  | .object members => Condition.metMembers members
  | _ => []

def Condition.metMembers : List (String × Json) → List (String × Json)
  | [] => []
  | (key, value) :: rest =>
    Entry.met key value ++
      ifAccepted (Entry.ofMember .permissive "" key value) (Condition.metMembers rest)

def Entry.met (key : String) : Json → List (String × Json)
  | .array items =>
    match Aggregator.ofName? key with
    | some .all | some .any => Condition.metItems items
    | _ => [(key, .array items)]
  | value => [(key, value)]

def Condition.metItems : List Json → List (String × Json)
  | [] => []
  | item :: rest =>
    Condition.met item ++
      ifAccepted (Condition.ofJson .permissive "" item) (Condition.metItems rest)

end

def metIn (read : α → Except Fault β) (met : α → List γ) : List α → List γ
  | [] => []
  | item :: rest => met item ++ ifAccepted (read item) (metIn read met rest)

def Rule.met (document : Json) : List (String × Json) :=
  ((document.get? "rule").map Condition.met).getD []

def Rule.metList (document : Json) : List (String × Json) :=
  metIn (ofJson .permissive "") met document.items

namespace Rulebook

def metActions (document : Json) : List (String × Json) :=
  metIn (fun action => Rule.listOfJson .permissive "" action.2) (fun action => Rule.metList action.2)
    (document.object?.getD [])

def met (document : Json) : List (String × Json) :=
  metIn (fun resource => resourcesOfMembers .permissive [resource])
    (fun resource => metActions resource.2) (document.object?.getD [])

end Rulebook

variable {name : String}

/-- The name outside of the vocabulary that a chain of negations comes to. -/
def Json.strangeName? : Json → Option String
  | .object [(name, inner)] =>
    match Operator.ofName? name, Aggregator.ofName? name with
    | some .not, _ => inner.strangeName?
    | none, none => some name
    | _, _ => none
  | _ => none

def Json.negatedName? : Json → Option String
  | .object [(operator, inner)] => if operator = Operator.not.name then inner.strangeName? else none
  | _ => none

/-- The computation does not fail for an unknown operator of this name. -/
def Tolerates (name : String) (x : Except Fault α) : Prop :=
  FaultsIn (fun fault => ∀ place, fault ≠ .unknownOperator name place) x

@[simp] theorem tolerates_ok (a : α) : Tolerates name (.ok a) := faultsIn_ok a

@[simp] theorem tolerates_error_iff {fault : Fault} :
    Tolerates name (.error fault : Except Fault α) ↔ ∀ place, fault ≠ .unknownOperator name place :=
  faultsIn_error_iff

theorem tolerates_bind_iff {x : Except Fault α} {f : α → Except Fault β} :
    Tolerates name (x >>= f) ↔ Tolerates name x ∧ ∀ a, x = .ok a → Tolerates name (f a) :=
  faultsIn_bind_iff

@[simp] theorem tolerates_bind_pure_iff {x : Except Fault α} {f : α → β} :
    Tolerates name (x >>= fun a => pure (f a)) ↔ Tolerates name x := faultsIn_bind_pure_iff

theorem not_tolerates_iff {x : Except Fault α} :
    ¬ Tolerates name x ↔ ∃ place, x = .error (.unknownOperator name place) := by
  cases x <;> simp

/-- Along a chain of negations, only the name at its end can be outside of the vocabulary. -/
theorem tolerates_checkComparable_iff {place : String} : (value : Json) → (nested : Bool) →
    (operator : Operator) → (Tolerates name (checkComparable place nested operator value) ↔
      (operator = .not → value.strangeName? ≠ some name))
  | value, nested, .eq => by simp [checkComparable]
  | .object [(wrapped, inner)], nested, .not => by
    rw [checkComparable, negatedOperator, Json.strangeName?]
    cases Operator.ofName? wrapped with
    | some operator =>
      refine (tolerates_checkComparable_iff inner true operator).trans ?_
      cases operator <;> simp
    | none =>
      cases Aggregator.ofName? wrapped <;>
        simp [Fault.locate, bind, Except.bind, Except.mapError]
  | .object [], nested, .not | .object (_ :: _ :: _), nested, .not => by
    simp [checkComparable, Json.strangeName?]
  | .null, nested, .not | .bool _, nested, .not | .number _, nested, .not | .string _, nested, .not
  | .array _, nested, .not => by
    simp [checkComparable, Json.strangeName?]
  | value, nested, .lt | value, nested, .gt => by
    simp only [checkComparable]
    split <;> simp

theorem Entry.tolerates_ofPair_iff {place operand operator : String} {value : Json} :
    Tolerates name (Entry.ofPair .permissive place operand operator value) ↔
      (Json.object [(operator, value)]).negatedName? ≠ some name := by
  rw [Json.negatedName?]
  unfold ofPair
  cases named : Operator.ofName? operator with
  | some known =>
    obtain rfl := Operator.ofName?_eq_some_iff.1 named
    rw [tolerates_bind_pure_iff]
    refine (tolerates_checkComparable_iff value false known).trans ?_
    cases known <;> simp [Operator.name]
  | none =>
    have other : operator ≠ Operator.not.name := fun negated => by
      rw [Operator.ofName?_eq_some_iff.2 negated] at named
      cases named
    rw [if_neg other]
    refine iff_of_true ?_ (by simp)
    cases Aggregator.ofName? operator with
    | none => exact tolerates_ok _
    | some aggregator =>
      cases aggregator with
      | all | any => simp
      | oneOf =>
        cases value with
        | array items => exact tolerates_ok _
        | null | bool _ | number _ | string _ | object _ =>
          dsimp only
          split <;> simp

/-- Reading comes to the rest of a list just if the first of it is accepted. -/
theorem tolerates_read_cons_iff {δ ζ : Type} {p : γ → Prop} {x : Except Fault α} {x' : Except Fault ζ}
    {y : Except Fault β} {f : α → β → δ} {here later : List γ}
    (accepted : (∃ a, x = .ok a) ↔ ∃ a, x' = .ok a) (hx : Tolerates name x ↔ ∀ m ∈ here, p m)
    (hy : Tolerates name y ↔ ∀ m ∈ later, p m) :
    Tolerates name (do return f (← x) (← y)) ↔ ∀ m ∈ here ++ ifAccepted x' later, p m := by
  rw [tolerates_bind_iff, List.forall_mem_append, hx]
  refine and_congr Iff.rfl ?_
  simp only [tolerates_bind_pure_iff]
  rw [← forall_exists_index (p := fun a => x = .ok a) (q := fun _ => Tolerates name y), accepted]
  cases x' with
  | ok a => simpa [ifAccepted] using hy
  | error fault => simp [ifAccepted]

mutual

/-- A condition is refused for an unknown operator just if reading comes to it under `not`. -/
theorem Condition.tolerates_ofJson_iff (place : String) : (document : Json) →
    (Tolerates name (Condition.ofJson .permissive place document) ↔
      ∀ member ∈ Condition.met document, member.2.negatedName? ≠ some name)
  | .object members => by
    rw [Condition.ofJson, Condition.met]
    exact Condition.tolerates_ofMembers_iff place members
  | .null | .bool _ | .number _ | .string _ | .array _ => by
    simp [Condition.ofJson, Condition.met]

theorem Condition.tolerates_ofMembers_iff (place : String) : (members : List (String × Json)) →
    (Tolerates name (Condition.ofMembers .permissive place members) ↔
      ∀ member ∈ Condition.metMembers members, member.2.negatedName? ≠ some name)
  | [] => by simp [Condition.ofMembers, Condition.metMembers]
  | (key, value) :: rest => by
    rw [Condition.ofMembers, Condition.metMembers]
    exact tolerates_read_cons_iff
      (exists_congr fun _ => (Entry.placed_ofMember .permissive key value).eq_ok_iff)
      (Entry.tolerates_ofMember_iff _ key value) (Condition.tolerates_ofMembers_iff place rest)

theorem Entry.tolerates_ofMember_iff (place key : String) : (value : Json) →
    (Tolerates name (Entry.ofMember .permissive place key value) ↔
      ∀ member ∈ Entry.met key value, member.2.negatedName? ≠ some name)
  | .array items => by
    rw [Entry.ofMember, Entry.met]
    cases Aggregator.ofName? key with
    | none => simp [Entry.unknownUnder, Tolerates, Json.negatedName?]
    | some aggregator =>
      cases aggregator with
      | oneOf => simp [Json.negatedName?]
      | all | any => exact tolerates_bind_pure_iff.trans (Condition.tolerates_ofItems_iff place 0 items)
  | .object [(operator, value)] => by
    simpa [Entry.ofMember, operatorPair?, Entry.met] using Entry.tolerates_ofPair_iff
  | .object [] | .object (_ :: _ :: _) => by
    simp [Entry.ofMember, operatorPair?, Entry.met, Tolerates, Json.negatedName?]
  | .null | .bool _ | .number _ | .string _ => by
    simp only [Entry.ofMember, Entry.met]
    split <;> simp [Json.negatedName?]

theorem Condition.tolerates_ofItems_iff (place : String) (index : Nat) : (items : List Json) →
    (Tolerates name (Condition.ofItems .permissive place index items) ↔
      ∀ member ∈ Condition.metItems items, member.2.negatedName? ≠ some name)
  | [] => by simp [Condition.ofItems, Condition.metItems]
  | item :: rest => by
    rw [Condition.ofItems, Condition.metItems]
    exact tolerates_read_cons_iff
      (exists_congr fun _ => (Condition.placed_ofJson .permissive item).eq_ok_iff)
      (Condition.tolerates_ofJson_iff _ item) (Condition.tolerates_ofItems_iff place (index + 1) rest)

end

namespace Rule

theorem tolerates_resultOfJson (place : String) (result : Option Json) :
    Tolerates name (resultOfJson place result) := by
  match result with
  | some (.string text) =>
    rw [resultOfJson]
    cases Resolution.ofName? text <;> simp
  | none | some .null | some (.bool _) | some (.number _) | some (.array _) | some (.object _) =>
    simp [resultOfJson]

theorem tolerates_maskOfItems (place : String) (items : List Json) :
    Tolerates name (maskOfItems place items) := by
  induction items with
  | nil => exact tolerates_ok _
  | cons item rest ih =>
    cases item with
    | string path => exact tolerates_bind_pure_iff.2 ih
    | null | bool _ | number _ | array _ | object _ => simp [maskOfItems]

theorem tolerates_maskOfJson (place : String) (mask : Option Json) :
    Tolerates name (maskOfJson place mask) := by
  match mask with
  | none | some .null => exact tolerates_ok _
  | some (.array items) => exact tolerates_maskOfItems place items
  | some (.bool _) | some (.number _) | some (.string _) | some (.object _) =>
    simp [maskOfJson]

theorem tolerates_ofJson_iff (place : String) (document : Json) :
    Tolerates name (ofJson .permissive place document) ↔
      ∀ member ∈ met document, member.2.negatedName? ≠ some name := by
  cases document with
  | object members =>
    simp only [ofJson, met, Json.get?]
    cases Keyed.get? "rule" members with
    | none => simp [bind, Except.bind]
    | some value =>
      rw [tolerates_bind_iff, Condition.tolerates_ofJson_iff]
      refine and_iff_left fun condition _ => ?_
      refine tolerates_bind_iff.2 ⟨tolerates_resultOfJson place _, fun result _ => ?_⟩
      exact tolerates_bind_pure_iff.2 (tolerates_maskOfJson place _)
  | null | bool _ | number _ | string _ | array _ => simp [ofJson, met, Json.get?]

theorem tolerates_listOfJson_iff (place : String) (document : Json) :
    Tolerates name (listOfJson .permissive place document) ↔
      ∀ member ∈ metList document, member.2.negatedName? ≠ some name := by
  cases document with
  | array items =>
    rw [listOfJson, metList, Json.items]
    generalize 0 = index
    induction items generalizing index with
    | nil => simp [listOfItems, metIn]
    | cons item rest ih =>
      rw [listOfItems, metIn]
      exact tolerates_read_cons_iff (exists_congr fun _ => (placed_ofJson .permissive item).eq_ok_iff)
        (tolerates_ofJson_iff _ item) (ih (index + 1))
  | null | bool _ | number _ | string _ | object _ =>
    simp [listOfJson, metList, Json.items, metIn]

end Rule

namespace Rulebook

theorem tolerates_actionsOfMembers_iff (resource : String) (members : List (String × Json)) :
    Tolerates name (actionsOfMembers .permissive resource members) ↔
      ∀ member ∈ metActions (.object members), member.2.negatedName? ≠ some name := by
  rw [metActions, Json.object?, Option.getD_some]
  induction members with
  | nil => simp [actionsOfMembers, metIn]
  | cons action rest ih =>
    rw [actionsOfMembers, metIn]
    refine tolerates_read_cons_iff (exists_congr fun _ => ?_)
      (Rule.tolerates_listOfJson_iff _ action.2) ih
    rw [Rule.listOfJson_eq_ok_iff, Rule.listOfJson_eq_ok_iff]

theorem tolerates_resourcesOfMembers_iff (members : List (String × Json)) :
    Tolerates name (resourcesOfMembers .permissive members) ↔
      ∀ member ∈ met (.object members), member.2.negatedName? ≠ some name := by
  rw [met, Json.object?, Option.getD_some]
  induction members with
  | nil => simp [resourcesOfMembers, metIn]
  | cons member rest ih =>
    obtain ⟨resource, value⟩ := member
    rw [metIn]
    cases value with
    | object inner =>
      rw [resourcesOfMembers]
      refine tolerates_read_cons_iff ?_ (tolerates_actionsOfMembers_iff resource inner) ih
      simp [resourcesOfMembers]
    | null | bool _ | number _ | string _ | array _ =>
      rw [resourcesOfMembers]
      · refine tolerates_read_cons_iff
          (f := fun actions others => (resource, actions) :: others) ?_ ?_ ih
        · simp [resourcesOfMembers]
        · simp [metActions, Json.object?, metIn]
      · simp

theorem tolerates_ofJson_iff (document : Json) :
    Tolerates name (ofJson .permissive document) ↔
      ∀ member ∈ met document, member.2.negatedName? ≠ some name := by
  cases document with
  | object members =>
    rw [ofJson, tolerates_bind_pure_iff]
    exact tolerates_resourcesOfMembers_iff members
  | null | bool _ | number _ | string _ | array _ =>
    simp [ofJson, met, Json.object?, metIn]

/-- The permissive policy refuses a document for an operator outside of the vocabulary in one case:
reading comes to a member that has the name under `not`, or at the end of a chain of `not`. Anywhere
else such a name is let pass, whatever the groups it stands in. -/
theorem permissive_refuses_iff (name : String) (document : Json) :
    (∃ place, ofJson .permissive document = .error (.unknownOperator name place)) ↔
      ∃ member ∈ met document, member.2.negatedName? = some name := by
  rw [← not_tolerates_iff, tolerates_ofJson_iff]
  simp

def nearRules : Json :=
  .object [("task", .object [("get", .array [.object [("result", .string "allow"),
    ("rule", .object [("sbj.role", .object [("not", .object [("near", .string "lead")])])])]])])]

/-- The permissive policy does not tolerate every operator outside of the vocabulary. -/
theorem permissive_not_tolerant :
    ¬ ∀ document name place, ofJson .permissive document ≠ .error (.unknownOperator name place) := by
  intro tolerant
  refine tolerant nearRules "near" "task.get[0].rule.sbj.role" ?_
  cbv

end Rulebook
end AccessControl
