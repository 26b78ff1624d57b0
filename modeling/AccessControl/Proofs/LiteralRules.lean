import AccessControl.Proofs.Comparison
import AccessControl.Proofs.RuleShape

/-! Rules without references. Once a condition of literal values has been read, one thing is left that
can fail: an ordering over an operand that is no number. That goes for evaluating the condition, where
the operand is an attribute of the subject or the context, and for matching the filters it leaves,
where the operand is an attribute of the record. -/
namespace AccessControl

/-- The ordering that a comparison comes to, be it behind a chain of `not`. -/
def Operator.ordering? : Operator → Json → Option Operator
  | .lt, _ => some .lt
  | .gt, _ => some .gt
  | .not, .object [(name, inner)] => do (← Operator.ofName? name).ordering? inner
  | _, _ => none
termination_by structural _ value => value

def Fault.OfOrdering (operand : Json) (fault : Fault) : Prop :=
  operand.number? = none ∧ ∃ operator, (operator = .lt ∨ operator = .gt) ∧
    fault = .typeMismatch (.operandNotANumber operator operand)

namespace Operator

variable {operator inner : Operator} {operand value : Json} {q : Fault → Prop}

theorem lt_or_gt_of_ordering? (h : operator.ordering? value = some inner) :
    inner = .lt ∨ inner = .gt := by
  fun_induction ordering? operator value with
  | case1 => exact .inl (Option.some.inj h).symm
  | case2 => exact .inr (Option.some.inj h).symm
  | case3 name nested ih =>
    obtain ⟨operator, -, h⟩ := Option.bind_eq_some_iff.1 h
    exact ih operator h
  | case4 => cases h

theorem faultsIn_compareNumbers_iff {test : Int → Int → Bool} (number : value.number?.isSome) :
    FaultsIn q (compareNumbers operator test operand value) ↔
      (operand.number? = none → q (.typeMismatch (.operandNotANumber operator operand))) := by
  obtain ⟨y, hy⟩ := Option.isSome_iff_exists.1 number
  rw [compareNumbers, hy]
  cases operand.number? <;> simp

/-- A comparison with a literal value that has been read fails just if it comes to an ordering and the
operand is no number. Below `not` every value is literal. -/
theorem faultsIn_apply_iff {place : String} {nested : Bool}
    (checked : checkComparable place nested operator value = .ok ())
    (literal : nested = true ∨ value.reference? = none) :
    FaultsIn q (operator.apply operand value) ↔
      ∀ inner, operator.ordering? value = some inner → operand.number? = none →
        q (.typeMismatch (.operandNotANumber inner operand)) := by
  fun_induction checkComparable place nested operator value with
  | case1 => simp [Operator.apply, ordering?]
  | case2 nested name inner ih =>
    simp only [bind_eq_ok_iff, mapError_eq_ok_iff] at checked
    obtain ⟨operator, named, checked⟩ := checked
    have found := negatedOperator_eq_ok_iff.1 named
    rw [apply_not_of_negatedOperator named, faultsIn_bind_pure_iff, ih operator checked (.inl rfl)]
    simp [ordering?, found]
  | case3 => cases checked
  | case4 value nested plain other =>
    have unordered : Operator.not.ordering? value = none := by
      rw [ordering?]
      · simp
      · simp
      · exact fun name inner _ => plain name inner
    simp [Operator.apply, unordered]
  | case5 nested operator value equal pair members other comparable =>
    have number : value.number?.isSome := by
      rcases literal with rfl | literal
      · simpa using comparable
      · simpa [literal] using comparable
    cases operator with
    | eq => exact absurd rfl equal
    | not => exact absurd rfl other
    | lt | gt => simp [Operator.apply, ordering?, faultsIn_compareNumbers_iff number]
  | case6 => cases checked

end Operator

def Entry.Literal : Entry → Prop
  | .compare _ _ value | .oneOf _ value => value.reference? = none
  | _ => True

/-- The entry orders an operand that is known, be it behind a chain of `not`. -/
def Entry.Orders (attributes : Attributes) (entry : Entry) (operator : Operator) (operand : Json) :
    Prop :=
  ∃ name outer value, entry = .compare name outer value ∧
    attributes.operand name = .known operand ∧ outer.ordering? value = some operator

/-- Matching the filter fails only by ordering an attribute of the record that is no number. -/
def Filter.FailsByOrdering (filter : Filter) : Prop :=
  ∀ data, FaultsIn (fun fault => ∃ operand ∈ filter.attributes,
    fault.OfOrdering (attributeAt data operand)) (filter.holds data)

variable {attributes : Attributes} {q : Fault → Prop}

theorem Attributes.substitute_of_literal {value : Json} (literal : value.reference? = none) :
    attributes.substitute value = value := by
  rw [substitute, literal]

namespace Entry

variable {entry : Entry} {residue : Residue}

theorem Checked.exists_items {operand : String} {values : Json}
    (checked : (Entry.oneOf operand values).Checked) (literal : (Entry.oneOf operand values).Literal) :
    ∃ items, values = .array items := by
  refine checked.resolve_right fun refers => ?_
  have literal : values.reference? = none := literal
  simp [literal] at refers

theorem faultsIn_evaluate_of_literal (checked : entry.Checked) (literal : entry.Literal)
    (leaf : entry.isGroup = false)
    (orders : ∀ operator operand, entry.Orders attributes operator operand →
      operand.number? = none → q (.typeMismatch (.operandNotANumber operator operand))) :
    FaultsIn q (Entry.evaluate attributes entry) := by
  cases entry with
  | compare name operator value =>
    obtain ⟨place, checked⟩ := checked
    rw [Entry.evaluate, Attributes.substitute_of_literal literal]
    cases stands : attributes.operand name with
    | known operand =>
      rw [faultsIn_bind_pure_iff, Operator.faultsIn_apply_iff checked (.inr literal)]
      exact fun inner ordered => orders inner operand ⟨name, operator, value, rfl, stands, ordered⟩
    | deferred path =>
      have negatable := negatable_of_checkComparable checked
      obtain ⟨filter, built⟩ : ∃ filter, Filter.leaf operator path value = .ok filter :=
        Filter.exists_leaf_iff.2 negatable
      simp [built]
  | oneOf name values =>
    obtain ⟨items, rfl⟩ := checked.exists_items literal
    rw [Entry.evaluate, Attributes.substitute_of_literal literal]
    cases attributes.operand name with
    | known operand => simp [contains]
    | deferred path => simp
  | all => cases leaf
  | any => cases leaf
  | unknown => simp [Entry.evaluate]

theorem failsByOrdering_of_literal (checked : entry.Checked) (literal : entry.Literal)
    (leaf : entry.isGroup = false) (evaluated : Entry.evaluate attributes entry = .ok residue) :
    ∀ filter ∈ residue.filters, filter.FailsByOrdering := by
  cases entry with
  | compare name operator value =>
    obtain ⟨place, checked⟩ := checked
    rw [Entry.evaluate, Attributes.substitute_of_literal literal] at evaluated
    cases stands : attributes.operand name with
    | known operand =>
      simp only [stands, bind_eq_ok_iff, pure_eq_ok_iff] at evaluated
      obtain ⟨held, -, rfl⟩ := evaluated
      simp
    | deferred path =>
      simp only [stands, bind_eq_ok_iff, pure_eq_ok_iff] at evaluated
      obtain ⟨filter, built, rfl⟩ := evaluated
      refine List.forall_mem_singleton.2 fun data => ?_
      rw [Filter.holds_of_leaf built, Filter.attributes_of_leaf built,
        Operator.faultsIn_apply_iff checked (.inr literal)]
      exact fun inner ordered absent => ⟨path, List.mem_singleton_self path, absent, inner,
        Operator.lt_or_gt_of_ordering? ordered, rfl⟩
  | oneOf name values =>
    obtain ⟨items, rfl⟩ := checked.exists_items literal
    rw [Entry.evaluate, Attributes.substitute_of_literal literal] at evaluated
    cases stands : attributes.operand name with
    | known operand =>
      simp only [stands, bind_eq_ok_iff, pure_eq_ok_iff] at evaluated
      obtain ⟨held, -, rfl⟩ := evaluated
      simp
    | deferred path =>
      rw [stands] at evaluated
      obtain rfl := Except.ok.inj evaluated
      refine List.forall_mem_singleton.2 fun data => ?_
      simp [Filter.holds, contains]
  | all => cases leaf
  | any => cases leaf
  | unknown =>
    obtain rfl := Except.ok.inj evaluated
    simp [Residue.pass]

end Entry

namespace Filter

variable {filters : List Filter} {data : Json}

theorem mem_listAttributes_iff {operand : String} :
    operand ∈ listAttributes filters ↔ ∃ filter ∈ filters, operand ∈ filter.attributes := by
  induction filters with
  | nil => simp [listAttributes]
  | cons filter rest ih => simp [listAttributes, ih]

theorem FailsByOrdering.among {filter : Filter} (fails : filter.FailsByOrdering)
    (hm : filter ∈ filters) (data : Json) :
    FaultsIn (fun fault => ∃ operand ∈ listAttributes filters,
      fault.OfOrdering (attributeAt data operand)) (filter.holds data) :=
  (fails data).mono fun _ ⟨operand, read, ordering⟩ =>
    ⟨operand, mem_listAttributes_iff.2 ⟨filter, hm, read⟩, ordering⟩

theorem FailsByOrdering.all (below : ∀ filter ∈ filters, filter.FailsByOrdering) :
    (Filter.all filters).FailsByOrdering :=
  fun data => faultsIn_allHold fun filter hm => (below filter hm).among hm data

theorem FailsByOrdering.any (below : ∀ filter ∈ filters, filter.FailsByOrdering) :
    (Filter.any filters).FailsByOrdering :=
  fun data => faultsIn_anyHolds fun filter hm => (below filter hm).among hm data

end Filter

namespace Condition

variable {condition : Condition}

theorem faultsIn_evaluate_of_literal (checked : condition.Everywhere Entry.Checked)
    (literal : condition.Everywhere Entry.Literal)
    (orders : condition.Everywhere fun entry => ∀ operator operand,
      entry.Orders attributes operator operand → operand.number? = none →
        q (.typeMismatch (.operandNotANumber operator operand))) :
    FaultsIn q (Condition.evaluate attributes condition) := by
  rw [Condition.faultsIn_evaluate_iff]
  intro entry hm
  obtain ⟨⟨checked, literal, orders⟩, leaf⟩ :=
    Condition.forall_visited condition (checked.and (literal.and orders)) entry hm
  exact Entry.faultsIn_evaluate_of_literal checked literal leaf orders

/-- A condition without references, once it has been read, has one way to fail. Evaluating it fails
only by ordering an operand that is no number, so it does not fail where all known operands that it
orders are numbers; and what it leaves is matched without failing, or fails by ordering an attribute of
the record that is no number. -/
theorem literal_fails_by_ordering {policy : OperatorPolicy} {place : String} {document : Json}
    (read : Condition.ofJson policy place document = .ok condition)
    (literal : condition.Everywhere Entry.Literal) (attributes : Attributes) :
    (∀ fault, Condition.evaluate attributes condition = .error fault →
      ∃ operand, fault.OfOrdering operand) ∧
    ((condition.Everywhere fun entry => ∀ operator operand,
        entry.Orders attributes operator operand → operand.number?.isSome) →
      ∃ residue, Condition.evaluate attributes condition = .ok residue) ∧
    ∀ residue, Condition.evaluate attributes condition = .ok residue →
      ∀ filter ∈ residue.filters, ∀ data fault, filter.holds data = .error fault →
        ∃ operand ∈ filter.attributes, fault.OfOrdering (attributeAt data operand) := by
  have checked := Condition.checked_ofJson policy document read
  refine ⟨?_, fun numbers => ?_, fun residue evaluated => ?_⟩
  · refine faultsIn_evaluate_of_literal checked literal (literal.mono ?_)
    rintro entry - operator operand ⟨_, _, _, -, -, ordered⟩ absent
    exact ⟨operand, absent, operator, Operator.lt_or_gt_of_ordering? ordered, rfl⟩
  · refine faultsIn_false_iff.1 (faultsIn_evaluate_of_literal checked literal (numbers.mono ?_))
    intro entry number operator operand orders absent
    simpa [absent] using number operator operand orders
  · exact forall_filters (p := Filter.FailsByOrdering) (fun _ _ => .all) (fun _ _ => .any)
      ((checked.and literal).mono fun entry both leaf residue =>
        Entry.failsByOrdering_of_literal both.1 both.2 leaf) evaluated

def shiftRules : Json :=
  .object [("or", .array [
    .object [("sbj.age", .object [("not", .object [("lt", .number (.integer 18))])])],
    .object [("obj.team", .object [("in", .array [.string "red"])]),
      ("obj.hours", .object [("gt", .number (.integer 40))])]])]

def shiftCondition : Condition :=
  [.any [[.compare "sbj.age" .not (.object [("lt", .number (.integer 18))])],
    [.oneOf "obj.team" (.array [.string "red"]),
      .compare "obj.hours" .gt (.number (.integer 40))]]]

def aged (age : Json) : Attributes := ⟨.object [("age", age)], .null⟩

def shiftFilter : Filter :=
  .any [.oneOf "team" (.array [.string "red"]), .compare .gt "hours" (.number (.integer 40))]

theorem literal_fails_by_ordering_shift :
    Condition.ofJson .strict rootPlace shiftRules = .ok shiftCondition ∧
      shiftCondition.Everywhere Entry.Literal ∧
      (Condition.evaluate (aged (.string "old")) shiftCondition =
          .error (.typeMismatch (.operandNotANumber .lt (.string "old"))) ∧
        ∃ operand, Fault.OfOrdering operand
          (.typeMismatch (.operandNotANumber .lt (.string "old")))) ∧
      ((shiftCondition.Everywhere fun entry => ∀ operator operand,
          entry.Orders (aged (.number (.integer 30))) operator operand → operand.number?.isSome) ∧
        ∃ residue,
          Condition.evaluate (aged (.number (.integer 30))) shiftCondition = .ok residue) ∧
      Condition.evaluate (aged (.number (.integer 30))) shiftCondition =
        .ok ⟨true, [shiftFilter]⟩ ∧
      shiftFilter.holds (.object [("hours", .string "long")]) =
        .error (.typeMismatch (.operandNotANumber .gt (.string "long"))) ∧
      ∃ operand ∈ shiftFilter.attributes,
        Fault.OfOrdering (attributeAt (.object [("hours", .string "long")]) operand)
          (.typeMismatch (.operandNotANumber .gt (.string "long"))) := by
  have read : Condition.ofJson .strict rootPlace shiftRules = .ok shiftCondition := rfl
  have literal : shiftCondition.Everywhere Entry.Literal := by
    simp [shiftCondition, everywhere_cons, Entry.branches, Entry.Literal, Json.reference?,
      Json.string?]
  have fails : Condition.evaluate (aged (.string "old")) shiftCondition =
      .error (.typeMismatch (.operandNotANumber .lt (.string "old"))) := rfl
  have age : (aged (.number (.integer 30))).operand "sbj.age" = .known (.number (.integer 30)) := by
    cbv
  have numbers : shiftCondition.Everywhere fun entry => ∀ operator operand,
      entry.Orders (aged (.number (.integer 30))) operator operand → operand.number?.isSome := by
    have hours : (aged (.number (.integer 30))).operand "obj.hours" = .deferred "hours" := by cbv
    simp [shiftCondition, everywhere_cons, Entry.branches, Entry.Orders, age, hours, Json.number?]
  have older : decide ((Number.integer 30).view.key < (Number.integer 18).view.key) = false := by
    decide +kernel
  have left : Condition.evaluate (aged (.number (.integer 30))) shiftCondition =
      .ok ⟨true, [shiftFilter]⟩ := by
    have adults : Condition.evaluate (aged (.number (.integer 30)))
        [.compare "sbj.age" .not (.object [("lt", .number (.integer 18))])] = .ok ⟨true, []⟩ := by
      rw [Condition.evaluate, Entry.evaluate, age, Attributes.substitute_of_literal rfl]
      simp [Operator.apply, negatedOperator, Operator.ofName?, compareNumbers, Json.number?, older,
        Condition.evaluate, Residue.both, Residue.pass]
    rw [shiftCondition, Condition.evaluate, Entry.evaluate, Condition.evaluateAny, adults]
    rfl
  have unmatched : shiftFilter.holds (.object [("hours", .string "long")]) =
      .error (.typeMismatch (.operandNotANumber .gt (.string "long"))) := rfl
  have old := literal_fails_by_ordering read literal (aged (.string "old"))
  have adult := literal_fails_by_ordering read literal (aged (.number (.integer 30)))
  exact ⟨read, literal, ⟨fails, old.1 _ fails⟩, ⟨numbers, adult.2.1 numbers⟩, left, unmatched,
    adult.2.2 _ left shiftFilter (by simp) _ _ unmatched⟩

end Condition
end AccessControl
