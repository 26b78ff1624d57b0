import AccessControl.Evaluation
import AccessControl.Proofs.Fallible

/-! When a filter or a residue holds of the data of a record. Comparisons that were put off say the
same as comparisons that are made at once. -/
namespace AccessControl
namespace Filter

def Decided (data : Json) (filter : Filter) : Prop := ∃ held, filter.holds data = .ok held

/-- A comparison that is put off agrees with the one made at once, also in how it fails: a leaf
fails while it is built where the operator fails while it is applied. -/
theorem leaf_bind_holds (data : Json) (operator : Operator) (operand : String) (value : Json) :
    (do (← leaf operator operand value).holds data)
      = operator.apply (attributeAt data operand) value := by
  fun_induction leaf operator operand value with
  | case1 operand name inner ih =>
    simp only [Operator.apply]
    cases negatedOperator name with
    | error fault => rfl
    | ok nested =>
      have h := ih nested
      simp only [bind, Except.bind] at h ⊢
      rw [← h]
      cases leaf nested operand inner <;> rfl
  | case2 operand members single =>
    rcases members with _ | ⟨⟨name, inner⟩, _ | ⟨second, rest⟩⟩
    · rfl
    · exact absurd rfl (single name inner)
    · rfl
  | case3 operator operand value => rfl

theorem holds_of_leaf {operator : Operator} {operand : String} {value : Json} {filter : Filter}
    (built : leaf operator operand value = .ok filter) (data : Json) :
    filter.holds data = operator.apply (attributeAt data operand) value := by
  have whole := leaf_bind_holds data operator operand value
  rw [built] at whole
  exact whole

theorem attributes_of_leaf {operator : Operator} {operand : String} {value : Json} {filter : Filter}
    (built : leaf operator operand value = .ok filter) : filter.attributes = [operand] := by
  fun_induction leaf operator operand value generalizing filter with
  | case1 operand name inner ih =>
    simp only [bind_eq_ok_iff, pure_eq_ok_iff] at built
    obtain ⟨nested, -, filter, built, rfl⟩ := built
    rw [attributes]
    exact ih nested built
  | case2 => cases built
  | case3 =>
    obtain rfl := Except.ok.inj built
    rfl

theorem leaf_eq_ok_of_apply {data value : Json} {operator : Operator} {operand : String} {held : Bool}
    (h : operator.apply (attributeAt data operand) value = .ok held) :
    ∃ filter, leaf operator operand value = .ok filter ∧ filter.holds data = .ok held := by
  rw [← leaf_bind_holds, bind_eq_ok_iff] at h
  exact h

theorem allHold_eq_true_iff {data : Json} {filters : List Filter} :
    allHold data filters = .ok true ↔ ∀ filter ∈ filters, filter.holds data = .ok true := by
  induction filters with
  | nil => simp [allHold]
  | cons filter rest ih =>
    simp only [allHold, bind_eq_ok_iff, List.forall_mem_cons, ← ih]
    constructor
    · rintro ⟨held, hf, hr⟩
      cases held with
      | false => simp at hr
      | true => exact ⟨hf, hr⟩
    · rintro ⟨hf, hr⟩
      exact ⟨true, hf, hr⟩

theorem faultsIn_allHold {p : Fault → Prop} {data : Json} {filters : List Filter}
    (below : ∀ filter ∈ filters, FaultsIn p (filter.holds data)) :
    FaultsIn p (allHold data filters) := by
  induction filters with
  | nil => exact faultsIn_ok _
  | cons filter rest ih =>
    rw [List.forall_mem_cons] at below
    rw [allHold, faultsIn_bind_iff]
    refine ⟨below.1, fun held _ => ?_⟩
    cases held with
    | false => exact faultsIn_pure _
    | true => exact ih below.2

theorem faultsIn_anyHolds {p : Fault → Prop} {data : Json} {filters : List Filter}
    (below : ∀ filter ∈ filters, FaultsIn p (filter.holds data)) :
    FaultsIn p (anyHolds data filters) := by
  induction filters with
  | nil => exact faultsIn_ok _
  | cons filter rest ih =>
    rw [List.forall_mem_cons] at below
    rw [anyHolds, faultsIn_bind_iff]
    exact ⟨below.1, fun _ _ => faultsIn_bind_pure_iff.2 (ih below.2)⟩

theorem allHold_decided {data : Json} {filters : List Filter}
    (h : ∀ filter ∈ filters, filter.Decided data) : ∃ held, allHold data filters = .ok held :=
  faultsIn_false_iff.1 (faultsIn_allHold fun filter hm => faultsIn_false_iff.2 (h filter hm))

/-- A disjunction looks at every child, so none of them may fail. -/
theorem anyHolds_decided {data : Json} {filters : List Filter}
    (h : ∀ filter ∈ filters, filter.Decided data) :
    ∃ held, anyHolds data filters = .ok held ∧
      (held = true ↔ ∃ filter ∈ filters, filter.holds data = .ok true) := by
  induction filters with
  | nil => exact ⟨false, rfl, by simp⟩
  | cons filter rest ih =>
    obtain ⟨held, hf⟩ := h filter (by simp)
    obtain ⟨others, hr, iff⟩ := ih fun f hm => h f (by simp [hm])
    refine ⟨held || others, by simp [anyHolds, hf, hr], ?_⟩
    simp [hf, iff]

end Filter

namespace Residue

def Holds (data : Json) (residue : Residue) : Prop :=
  residue.passed = true ∧ ∀ filter ∈ residue.filters, filter.holds data = .ok true

def Decided (data : Json) (residue : Residue) : Prop :=
  ∀ filter ∈ residue.filters, filter.Decided data

variable {data : Json}

theorem not_holds_of_failed {residue : Residue} (h : residue.passed = false) :
    ¬ residue.Holds data := by
  simp [Holds, h]

theorem holds_both {r s : Residue} : (r.both s).Holds data ↔ r.Holds data ∧ s.Holds data := by
  simp only [Holds, both, Bool.and_eq_true, List.forall_mem_append]
  tauto

theorem Decided.both {r s : Residue} (hr : r.Decided data) (hs : s.Decided data) :
    (r.both s).Decided data := by
  simp only [Decided, Residue.both, List.forall_mem_append]
  exact ⟨hr, hs⟩

/-- A group leaves one filter around those of its conditions, or none where they left none. -/
theorem forall_filters_group {node : List Filter → Filter} {r : Residue} {p : Filter → Prop} :
    (∀ filter ∈ (r.group node).filters, p filter) ↔ (r.filters ≠ [] → p (node r.filters)) := by
  cases h : r.filters <;> simp [group, Filter.bundle, h]

theorem holds_group_all {r : Residue} : (r.group .all).Holds data ↔ r.Holds data := by
  simp only [Holds, forall_filters_group, Filter.holds, Filter.allHold_eq_true_iff]
  exact and_congr Iff.rfl
    ⟨fun h filter hm => h (List.ne_nil_of_mem hm) filter hm, fun h _ => h⟩

theorem Decided.group_all {r : Residue} (h : r.Decided data) : (r.group .all).Decided data :=
  forall_filters_group.2 fun _ => Filter.allHold_decided h

/-- The filter of a disjunction holds with any one of the filters in it, whichever branch left it. -/
theorem holds_group_any {r : Residue} (h : r.Decided data) :
    (r.group .any).Holds data ↔ r.passed = true ∧
      (r.filters = [] ∨ ∃ filter ∈ r.filters, filter.holds data = .ok true) := by
  obtain ⟨held, hh, iff⟩ := Filter.anyHolds_decided h
  simp only [Holds, forall_filters_group, Filter.holds, hh, ← iff, Except.ok.injEq]
  exact and_congr Iff.rfl or_iff_not_imp_left.symm

theorem Decided.group_any {r : Residue} (h : r.Decided data) : (r.group .any).Decided data :=
  forall_filters_group.2 fun _ =>
    let ⟨held, hh, _⟩ := Filter.anyHolds_decided h
    ⟨held, hh⟩

end Residue
end AccessControl
