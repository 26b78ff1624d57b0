import AccessControl.Proofs.Residue

/-! Filters as trees: what holds of each of their nodes. Where every leaf can be matched, so can the whole
filter. -/
namespace AccessControl

theorem Operator.name_inj {operator other : Operator} :
    operator.name = other.name ↔ operator = other := by
  rw [← ofName?_eq_some_iff, ofName?_eq_some_iff.2 rfl, Option.some.injEq]

namespace Filter

def parts : Filter → List Filter
  | negate inner => [inner]
  | all children | any children => children
  | _ => []

def isLeaf : Filter → Bool
  | compare .. | oneOf .. => true
  | _ => false

/-- What a node holds besides its operator and its operand. -/
def payload : Filter → Json
  | compare _ _ value => value
  | oneOf _ values => values
  | negate inner => inner.toJson
  | all children | any children => .array (listToJson children)

/-- The group or membership that a node stands for, if it stands for one. -/
def aggregator? : Filter → Option Aggregator
  | compare .. | negate _ => none
  | oneOf .. => some .oneOf
  | all _ => some .all
  | any _ => some .any

theorem ofName?_operatorName (f : Filter) : Aggregator.ofName? f.operatorName = f.aggregator? := by
  cases f with
  | compare operator => cases operator <;> rfl
  | oneOf | negate | all | any => rfl

theorem operatorName_ne {f g : Filter} (apart : f.aggregator? ≠ g.aggregator?) :
    f.operatorName ≠ g.operatorName := by
  intro named
  rw [← ofName?_operatorName, ← ofName?_operatorName, named] at apart
  exact apart rfl

inductive Everywhere (p : Filter → Prop) : Filter → Prop where
  | intro {filter : Filter} (here : p filter) (below : ∀ part ∈ filter.parts, Everywhere p part) :
      Everywhere p filter

variable {p : Filter → Prop} {filter : Filter} {children : List Filter} {data : Json}

theorem Everywhere.here (every : filter.Everywhere p) : p filter := by
  cases every with
  | intro here _ => exact here

theorem Everywhere.of_parts (every : filter.Everywhere p) : ∀ part ∈ filter.parts, part.Everywhere p := by
  cases every with
  | intro _ below => exact below

theorem Everywhere.of_leaf (leaf : filter.isLeaf = true) (here : p filter) : filter.Everywhere p := by
  cases filter with
  | compare | oneOf => exact .intro here (by simp [parts])
  | negate | all | any => cases leaf

theorem everywhere_negate_iff {inner : Filter} :
    (negate inner).Everywhere p ↔ p (negate inner) ∧ inner.Everywhere p := by
  constructor
  · exact fun every => ⟨every.here, every.of_parts inner (List.mem_singleton_self inner)⟩
  · rintro ⟨here, below⟩
    exact .intro here (by simpa [parts] using below)

theorem Everywhere.mono {q : Filter → Prop} (every : filter.Everywhere p) (h : ∀ node, p node → q node) :
    filter.Everywhere q := by
  induction every with
  | intro here _ ih => exact .intro (h _ here) ih

/-- No comparison in the filter fails. -/
def LeavesDecided (data : Json) (filter : Filter) : Prop :=
  filter.Everywhere fun node => node.isLeaf = true → node.Decided data

theorem leavesDecided_leaf_iff (leaf : filter.isLeaf = true) :
    filter.LeavesDecided data ↔ filter.Decided data :=
  ⟨fun every => every.here leaf, fun decided => .of_leaf leaf fun _ => decided⟩

theorem leavesDecided_all_iff :
    (all children).LeavesDecided data ↔ ∀ child ∈ children, child.LeavesDecided data :=
  ⟨fun every => every.of_parts, fun below => .intro (by simp [isLeaf]) below⟩

theorem leavesDecided_any_iff :
    (any children).LeavesDecided data ↔ ∀ child ∈ children, child.LeavesDecided data :=
  ⟨fun every => every.of_parts, fun below => .intro (by simp [isLeaf]) below⟩

theorem LeavesDecided.decided (leaves : filter.LeavesDecided data) : filter.Decided data := by
  induction leaves with
  | @intro filter here _ ih =>
    cases filter with
    | compare | oneOf => exact here rfl
    | negate inner =>
      obtain ⟨held, h⟩ := ih inner (List.mem_singleton_self inner)
      exact ⟨!held, by simp [holds, h]⟩
    | all children => exact allHold_decided ih
    | any children =>
      obtain ⟨held, h, -⟩ := anyHolds_decided ih
      exact ⟨held, h⟩

/-- A disjunction whose children can all be matched holds with any one of them. -/
theorem holds_any_iff (decided : ∀ child ∈ children, child.Decided data) :
    (any children).holds data = .ok true ↔ ∃ child ∈ children, child.holds data = .ok true := by
  obtain ⟨held, h, iff⟩ := anyHolds_decided decided
  rw [holds, h, Except.ok.injEq, iff]

theorem holds_all_iff :
    (all children).holds data = .ok true ↔ ∀ child ∈ children, child.holds data = .ok true :=
  allHold_eq_true_iff

end Filter
end AccessControl
