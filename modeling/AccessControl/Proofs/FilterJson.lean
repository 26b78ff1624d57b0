import AccessControl.Guard
import AccessControl.Proofs.Emission
import AccessControl.Proofs.Sameness

/-! Filters as data. A node is an object with an operator, an operand and a value; combinations have no
operand, and negations share their operator with one of the comparisons. The data tells the filters apart
all the same, as long as no comparison by `not` holds an object. -/
namespace AccessControl

theorem Json.isObject_eq_of_alike {value other : Json} (same : value.alike other = true) :
    value.isObject = other.isObject := by
  cases value <;> cases other <;> first | rfl | cases same

namespace Filter

/-- Filters that are equal but for how their values are written down. -/
inductive Alike : Filter → Filter → Prop where
  | compare (operator : Operator) (operand : String) {value other : Json}
      (same : value.alike other = true) :
      Alike (compare operator operand value) (compare operator operand other)
  | oneOf (operand : String) {values others : Json} (same : values.alike others = true) :
      Alike (oneOf operand values) (oneOf operand others)
  | negate {inner other : Filter} (alike : Alike inner other) : Alike (negate inner) (negate other)
  | all {children others : List Filter} (each : List.Forall₂ Alike children others) :
      Alike (all children) (all others)
  | any {children others : List Filter} (each : List.Forall₂ Alike children others) :
      Alike (any children) (any others)

section

variable {operator operator' : Operator} {operand operand' : String} {value other : Json}
  {inner inner' : Filter} {children others : List Filter}

@[simp] theorem alike_compare_iff :
    Alike (compare operator operand value) (compare operator' operand' other) ↔
      operator = operator' ∧ operand = operand' ∧ value.alike other = true := by
  constructor
  · rintro ⟨⟩
    exact ⟨rfl, rfl, ‹_›⟩
  · rintro ⟨rfl, rfl, same⟩
    exact .compare operator operand same

@[simp] theorem alike_oneOf_iff :
    Alike (oneOf operand value) (oneOf operand' other) ↔
      operand = operand' ∧ value.alike other = true := by
  constructor
  · rintro ⟨⟩
    exact ⟨rfl, ‹_›⟩
  · rintro ⟨rfl, same⟩
    exact .oneOf operand same

@[simp] theorem alike_negate_iff : Alike (negate inner) (negate inner') ↔ Alike inner inner' :=
  ⟨fun | .negate alike => alike, .negate⟩

@[simp] theorem alike_all_iff : Alike (all children) (all others) ↔ List.Forall₂ Alike children others :=
  ⟨fun | .all each => each, .all⟩

@[simp] theorem alike_any_iff : Alike (any children) (any others) ↔ List.Forall₂ Alike children others :=
  ⟨fun | .any each => each, .any⟩

end

/-- A comparison is one that some operator with its value makes. -/
def Buildable : Filter → Prop
  | compare operator operand value =>
    ∃ given about whole, leaf given about whole = .ok (compare operator operand value)
  | _ => True

/-- What the parts of a node make up. Only an object under `not` stands for a negation. -/
def ofParts? (operator operand : String) (value : Json) (inner : Option Filter)
    (children : Option (List Filter)) : Option Filter :=
  match Operator.ofName? operator, Aggregator.ofName? operator with
  | some .not, _ =>
    if value.isObject then if operand = "" then inner.map negate else none
    else some (compare .not operand value)
  | some operator, _ => some (compare operator operand value)
  | none, some .oneOf => some (oneOf operand value)
  | none, some .all => if operand = "" then children.map all else none
  | none, some .any => if operand = "" then children.map any else none
  | none, none => none

mutual

def ofJson? : Json → Option Filter
  | .object [(first, .string operator), (second, .string operand), (third, value)] =>
    if (first, second, third) = ("operator", "operand", "value") then
      ofParts? operator operand value (ofJson? value) (childrenOfJson? value)
    else none
  | _ => none

def childrenOfJson? : Json → Option (List Filter)
  | .array items => ofItems? items
  | _ => none

def ofItems? : List Json → Option (List Filter)
  | [] => some []
  | item :: rest => do return (← ofJson? item) :: (← ofItems? rest)

end

variable {f g : Filter} {operator : Operator} {operand : String} {value : Json} {children : List Filter}

theorem ofJson?_node {name : String} :
    ofJson? (toJson.node name operand value) =
      ofParts? name operand value (ofJson? value) (childrenOfJson? value) := rfl

theorem buildable_compare_iff :
    (compare operator operand value).Buildable ↔ (operator = .not → value.isObject = false) := by
  constructor
  · rintro ⟨_, _, _, built⟩
    exact (wellFormed_of_leaf built).here
  · intro plain
    refine ⟨operator, operand, value, ?_⟩
    cases operator with
    | not =>
      cases value with
      | object members => cases plain rfl
      | null | bool _ | number _ | string _ | array _ => rfl
    | eq | lt | gt => simp [leaf]

theorem WellFormed.buildable (formed : f.WellFormed) : f.Buildable := by
  cases f with
  | compare => exact buildable_compare_iff.2 formed
  | oneOf | negate | all | any => trivial

theorem isObject_toJson (f : Filter) : f.toJson.isObject = true := by
  cases f <;> rfl

theorem ofItems?_listToJson (each : ∀ child ∈ children, ofJson? child.toJson = some child) :
    ofItems? (listToJson children) = some children := by
  induction children with
  | nil => rfl
  | cons child rest ih =>
    rw [List.forall_mem_cons] at each
    rw [listToJson, ofItems?, each.1, ih each.2]
    rfl

theorem ofJson?_toJson (every : f.Everywhere Buildable) : ofJson? f.toJson = some f := by
  induction every with
  | @intro f here _ ih =>
    cases f with
    | compare operator operand value =>
      rw [toJson, ofJson?_node]
      cases operator with
      | not =>
        have plain := buildable_compare_iff.1 here rfl
        simp [ofParts?, Operator.ofName?, Operator.name, plain]
      | eq | lt | gt => rfl
    | oneOf operand values => rfl
    | negate inner =>
      have read : ofJson? inner.toJson = some inner := ih inner (List.mem_singleton_self inner)
      rw [toJson, ofJson?_node, read]
      simp [ofParts?, Operator.ofName?, Operator.name, isObject_toJson]
    | all children | any children =>
      have read : ofItems? (listToJson children) = some children := ofItems?_listToJson ih
      rw [toJson, ofJson?_node, childrenOfJson?, read]
      rfl

theorem toJson_eq_node (f : Filter) : f.toJson = toJson.node f.operatorName f.operand f.payload := by
  cases f <;> rfl

theorem alike_toJson_iff_parts :
    f.toJson.alike g.toJson = true ↔
      f.operatorName = g.operatorName ∧ f.operand = g.operand ∧ f.payload.alike g.payload = true := by
  rw [toJson_eq_node f, toJson_eq_node g]
  simp [toJson.node, Json.alike, Json.membersAlike, Keyed.get?]

/-- A comparison by `not` that can be built is told from a negation by its value. -/
theorem Buildable.isObject_ne (built : (compare operator operand value).Buildable)
    (named : operator.name = Operator.not.name) (inner : Filter) :
    value.isObject ≠ inner.toJson.isObject := by
  rw [buildable_compare_iff.1 built (Operator.name_inj.1 named), isObject_toJson]
  simp

theorem Alike.aggregator?_eq (alike : f.Alike g) : f.aggregator? = g.aggregator? := by
  cases alike <;> rfl

theorem alike_iff_of_apart (apart : f.aggregator? ≠ g.aggregator?) :
    (f.operatorName = g.operatorName ∧ f.operand = g.operand ∧ f.payload.alike g.payload = true) ↔
      f.Alike g :=
  iff_of_false (fun parts => operatorName_ne apart parts.1) fun alike => apart alike.aggregator?_eq

theorem itemsAlike_listToJson_iff {others : List Filter}
    (each : ∀ child ∈ children, ∀ other ∈ others,
      child.toJson.alike other.toJson = true ↔ child.Alike other) :
    Json.itemsAlike (listToJson children) (listToJson others) = true ↔
      List.Forall₂ Alike children others := by
  rw [Json.itemsAlike_iff, listToJson_eq_map, listToJson_eq_map, List.forall₂_map_left_iff,
    List.forall₂_map_right_iff]
  exact forall₂_congr_of_mem each

theorem alike_toJson_iff (hf : f.Everywhere Buildable) (hg : g.Everywhere Buildable) :
    f.toJson.alike g.toJson = true ↔ f.Alike g := by
  induction hf generalizing g with
  | @intro f here below ih =>
    rw [alike_toJson_iff_parts]
    cases f with
    | compare operator operand value =>
      cases g with
      | compare =>
        rw [alike_compare_iff, ← Operator.name_inj]
        rfl
      | negate inner =>
        refine iff_of_false (fun parts => ?_) fun alike => by cases alike
        exact here.isObject_ne parts.1 inner (Json.isObject_eq_of_alike parts.2.2)
      | oneOf | all | any =>
        exact alike_iff_of_apart (by simp [aggregator?])
    | oneOf operand values =>
      cases g with
      | oneOf => simp [operatorName, Filter.operand, payload]
      | compare | negate | all | any =>
        exact alike_iff_of_apart (by simp [aggregator?])
    | negate inner =>
      cases g with
      | negate other =>
        have built : other.Everywhere Buildable := (everywhere_negate_iff.1 hg).2
        have deeper := ih inner (List.mem_singleton_self inner) built
        simp [operatorName, operand, payload, deeper]
      | compare =>
        refine iff_of_false (fun parts => ?_) fun alike => by cases alike
        exact hg.here.isObject_ne parts.1.symm inner (Json.isObject_eq_of_alike parts.2.2).symm
      | oneOf | all | any =>
        exact alike_iff_of_apart (by simp [aggregator?])
    | all children =>
      cases g with
      | all others =>
        have listed : Json.itemsAlike (listToJson children) (listToJson others) = true ↔
            List.Forall₂ Alike children others :=
          itemsAlike_listToJson_iff fun child hc other ho => ih child hc (hg.of_parts other ho)
        simpa [operatorName, operand, payload, Json.alike] using listed
      | compare | oneOf | negate | any =>
        exact alike_iff_of_apart (by simp [aggregator?])
    | any children =>
      cases g with
      | any others =>
        have listed : Json.itemsAlike (listToJson children) (listToJson others) = true ↔
            List.Forall₂ Alike children others :=
          itemsAlike_listToJson_iff fun child hc other ho => ih child hc (hg.of_parts other ho)
        simpa [operatorName, operand, payload, Json.alike] using listed
      | compare | oneOf | negate | all =>
        exact alike_iff_of_apart (by simp [aggregator?])

theorem Emitted.buildable (emitted : f.Emitted) : f.Everywhere Buildable := by
  obtain ⟨attributes, condition, residue, evaluated, hm⟩ := emitted
  exact (Condition.wellFormed_filters evaluated f hm).mono fun _ => WellFormed.buildable

theorem buildable_of_decision {attributes : Attributes} {rule : Rule} {passed : Bool} {decision : Decision}
    (evaluated : rule.evaluate attributes = .ok (passed, decision)) (kept : decision.filter = some f) :
    f.Everywhere Buildable := by
  simp only [Rule.evaluate, bind_eq_ok_iff, pure_eq_ok_iff, Prod.mk.injEq] at evaluated
  obtain ⟨residue, left, -, rfl⟩ := evaluated
  cases filters : residue.filters with
  | nil => simp [filters, bundle] at kept
  | cons first rest =>
    obtain rfl : all (first :: rest) = f := by simpa [filters, bundle] using kept
    refine .intro trivial fun child hc => ?_
    exact Emitted.buildable ⟨attributes, rule.condition, residue, left, by rwa [filters]⟩

/-- The data of a filter tells what the filter is, for all filters whose comparisons can be built, and so
for all that conditions leave and rules decide on. Filters with alike data are alike, filters with the
same data are the same, and each can be read back. -/
theorem toJson_determines (hf : f.Everywhere Buildable) (hg : g.Everywhere Buildable) :
    (f.toJson.alike g.toJson = true ↔ f.Alike g) ∧ (f.toJson = g.toJson ↔ f = g) ∧
    ofJson? f.toJson = some f ∧ (∀ filter : Filter, filter.Emitted → filter.Everywhere Buildable) ∧
    ∀ attributes rule passed decision, Rule.evaluate attributes rule = .ok (passed, decision) →
      ∀ filter, decision.filter = some filter → filter.Everywhere Buildable := by
  refine ⟨alike_toJson_iff hf hg, ⟨fun same => ?_, congrArg toJson⟩, ofJson?_toJson hf,
    fun _ => Emitted.buildable, fun _ _ _ _ evaluated _ => buildable_of_decision evaluated⟩
  have read := ofJson?_toJson hf
  rw [same, ofJson?_toJson hg] at read
  exact (Option.some.inj read).symm

/-- A value may look like the data of a filter. -/
theorem toJson_determines_quoted :
    (Condition.notClosed.toJson.alike (compare .eq "" Condition.notClosed.toJson).toJson = true ↔
      Condition.notClosed.Alike (compare .eq "" Condition.notClosed.toJson)) ∧
    (Condition.notClosed.toJson = (compare .eq "" Condition.notClosed.toJson).toJson ↔
      Condition.notClosed = compare .eq "" Condition.notClosed.toJson) ∧
    ofJson? Condition.notClosed.toJson = some Condition.notClosed := by
  have negation : leaf .not "state" (.object [("eq", .string "closed")]) = .ok Condition.notClosed := by
    cbv
  have quotation : leaf .eq "" Condition.notClosed.toJson =
      .ok (compare .eq "" Condition.notClosed.toJson) := by cbv
  obtain ⟨alike, same, read, -⟩ :=
    toJson_determines ((wellFormed_of_leaf negation).mono fun _ => WellFormed.buildable)
      ((wellFormed_of_leaf quotation).mono fun _ => WellFormed.buildable)
  exact ⟨alike, same, read⟩

/-- A comparison by `not` that cannot be built has the data of a negation. -/
example (inner : Filter) : (compare .not "" inner.toJson).toJson = (negate inner).toJson := rfl

end Filter
end AccessControl
