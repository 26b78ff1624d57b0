import AccessControl.Proofs.Condition
import AccessControl.Proofs.Masking

/-! Requests that fail at most because they meet values that cannot be compared. The one thing that
can go wrong otherwise is `not` with an object that is no chain of operators, so this comes down to
the values that stand under `not` once references are resolved. -/
namespace AccessControl

variable {α β : Type}

/-- The computation succeeds, or it fails with a type mismatch. -/
def Tame (x : Except Fault α) : Prop := ∀ fault, x = .error fault → ∃ cause, fault = .typeMismatch cause

@[simp] theorem tame_ok (a : α) : Tame (.ok a) := by
  simp [Tame]

@[simp] theorem tame_error_iff {fault : Fault} :
    Tame (.error fault : Except Fault α) ↔ ∃ cause, fault = .typeMismatch cause := by
  simp [Tame]

@[simp] theorem tame_bind_pure_iff {x : Except Fault α} {f : α → β} :
    Tame (x >>= fun a => pure (f a)) ↔ Tame x := faultsIn_bind_pure_iff

/-- A value that `not` can be applied to: no object, or a chain of operators with one value each. -/
def Json.negatable : Json → Bool
  | .object [(name, inner)] =>
    match Operator.ofName? name with
    | some .not => inner.negatable
    | some _ => true
    | none => false
  | .object _ => false
  | _ => true

theorem Json.negatable_pair_iff {name : String} {inner : Json} :
    (Json.object [(name, inner)]).negatable = true ↔
      ∃ operator, Operator.ofName? name = some operator ∧
        (operator = .not → inner.negatable = true) := by
  rw [negatable]
  cases Operator.ofName? name with
  | none => simp
  | some operator => cases operator <;> simp

/-- What comes behind a negated operator is tame just if the whole can be negated. -/
theorem tame_negatedOperator_iff {name : String} {inner : Json} {run : Operator → Except Fault α}
    (h : ∀ operator, Tame (run operator) ↔ (operator = .not → inner.negatable = true)) :
    Tame (negatedOperator name >>= run) ↔ (Json.object [(name, inner)]).negatable = true := by
  rw [Json.negatable_pair_iff, negatedOperator]
  cases Operator.ofName? name with
  | some operator =>
    have opened : (Except.ok operator >>= run) = run operator := rfl
    simp [opened, h operator]
  | none => cases Aggregator.ofName? name <;> simp [bind, Except.bind]

theorem tame_compareNumbers (operator : Operator) (test : Int → Int → Bool) (operand value : Json) :
    Tame (compareNumbers operator test operand value) := by
  unfold compareNumbers
  split <;> simp

theorem tame_contains (list operand : Json) : Tame (contains list operand) := by
  unfold contains
  split <;> simp

theorem Json.negatable_of_ne_object {value : Json} (h : ∀ members, value ≠ .object members) :
    value.negatable = true := by
  cases value with
  | object members => exact absurd rfl (h members)
  | _ => rfl

theorem Operator.tame_apply_iff {operator : Operator} {operand value : Json} :
    Tame (operator.apply operand value) ↔ (operator = .not → value.negatable = true) := by
  fun_induction Operator.apply operator operand value with
  | case1 => simp
  | case2 operand value => simp [tame_compareNumbers]
  | case3 operand value => simp [tame_compareNumbers]
  | case4 operand name inner ih =>
    simp only [forall_const]
    exact tame_negatedOperator_iff fun operator => tame_bind_pure_iff.trans (ih operator)
  | case5 operand members other => simp [Json.negatable]
  | case6 operand value single other => simp [Json.negatable_of_ne_object other]

theorem Filter.tame_leaf_iff {operator : Operator} {operand : String} {value : Json} :
    Tame (Filter.leaf operator operand value) ↔ (operator = .not → value.negatable = true) := by
  fun_induction Filter.leaf operator operand value with
  | case1 operand name inner ih =>
    simp only [forall_const]
    exact tame_negatedOperator_iff fun operator => tame_bind_pure_iff.trans (ih operator)
  | case2 operand members other => simp [Json.negatable]
  | case3 operator operand value single other =>
    refine iff_of_true (tame_ok _) fun negated => ?_
    exact Json.negatable_of_ne_object fun members => other members negated

variable {attributes : Attributes}

theorem Entry.tame_compare_iff {operand : String} {operator : Operator} {value : Json} :
    Tame (Entry.evaluate attributes (.compare operand operator value)) ↔
      (operator = .not → (attributes.substitute value).negatable = true) := by
  rw [Entry.evaluate]
  cases attributes.operand operand with
  | deferred path => exact tame_bind_pure_iff.trans Filter.tame_leaf_iff
  | known known => exact tame_bind_pure_iff.trans Operator.tame_apply_iff

theorem Entry.tame_oneOf (operand : String) (values : Json) :
    Tame (Entry.evaluate attributes (.oneOf operand values)) := by
  rw [Entry.evaluate]
  cases attributes.operand operand with
  | deferred path => exact tame_ok _
  | known known => exact tame_bind_pure_iff.2 (tame_contains _ _)

end AccessControl
