import AccessControl.Proofs.Mismatch
import AccessControl.Proofs.RequestFaults

/-! What a request evaluates. Evaluation stops inside of a conjunction at the first branch that
fails, in a list of rules at the first that passes, and anywhere at a fault. A request fails as what
it comes to fails, so that it is tame just if all of that is. -/
namespace AccessControl

mutual

/-- The entries that evaluating a condition comes to, groups aside, in order. -/
def Condition.visited (attributes : Attributes) : Condition → List Entry
  | [] => []
  | entry :: rest =>
    Entry.visited attributes entry ++
      match Entry.evaluate attributes entry with
      | .ok _ => Condition.visited attributes rest
      | .error _ => []

def Entry.visited (attributes : Attributes) : Entry → List Entry
  | .all conditions => Condition.visitedAll attributes conditions
  | .any conditions => Condition.visitedAny attributes conditions
  | entry => [entry]

def Condition.visitedAll (attributes : Attributes) : List Condition → List Entry
  | [] => []
  | condition :: rest =>
    Condition.visited attributes condition ++
      match Condition.evaluate attributes condition with
      | .ok first => if first.passed then Condition.visitedAll attributes rest else []
      | .error _ => []

def Condition.visitedAny (attributes : Attributes) : List Condition → List Entry
  | [] => []
  | condition :: rest =>
    Condition.visited attributes condition ++
      match Condition.evaluate attributes condition with
      | .ok _ => Condition.visitedAny attributes rest
      | .error _ => []

end

/-- The entries that looking for a decision comes to. -/
def visitedEntries (attributes : Attributes) : List Rule → List Entry
  | [] => []
  | rule :: rest =>
    Condition.visited attributes rule.condition ++
      match rule.evaluate attributes with
      | .ok (false, _) => visitedEntries attributes rest
      | _ => []

variable {attributes : Attributes} {q : Fault → Prop}

mutual

/-- Evaluating a condition fails with faults of some kind just if every entry does that it comes to. -/
theorem Condition.faultsIn_evaluate_iff : (condition : Condition) →
    (FaultsIn q (Condition.evaluate attributes condition) ↔
      ∀ entry ∈ Condition.visited attributes condition, FaultsIn q (Entry.evaluate attributes entry))
  | [] => by simp [Condition.evaluate, Condition.visited]
  | entry :: rest => by
    rw [Condition.evaluate, Condition.visited, List.forall_mem_append, faultsIn_bind_iff,
      Entry.faultsIn_evaluate_iff entry]
    refine and_congr Iff.rfl ?_
    cases Entry.evaluate attributes entry with
    | error fault => simp
    | ok first =>
      simp only [Except.ok.injEq, forall_eq', faultsIn_bind_pure_iff]
      exact Condition.faultsIn_evaluate_iff rest

theorem Entry.faultsIn_evaluate_iff : (entry : Entry) →
    (FaultsIn q (Entry.evaluate attributes entry) ↔
      ∀ inner ∈ Entry.visited attributes entry, FaultsIn q (Entry.evaluate attributes inner))
  | .all conditions => by
    rw [Entry.evaluate, Entry.visited, faultsIn_bind_pure_iff]
    exact Condition.faultsIn_evaluateAll_iff conditions
  | .any conditions => by
    rw [Entry.evaluate, Entry.visited, faultsIn_bind_pure_iff]
    exact Condition.faultsIn_evaluateAny_iff conditions
  | .compare .. | .oneOf .. | .unknown .. => by simp [Entry.visited]

theorem Condition.faultsIn_evaluateAll_iff : (conditions : List Condition) →
    (FaultsIn q (Condition.evaluateAll attributes conditions) ↔
      ∀ entry ∈ Condition.visitedAll attributes conditions, FaultsIn q (Entry.evaluate attributes entry))
  | [] => by simp [Condition.evaluateAll, Condition.visitedAll]
  | condition :: rest => by
    rw [Condition.evaluateAll, Condition.visitedAll, List.forall_mem_append, faultsIn_bind_iff,
      Condition.faultsIn_evaluate_iff condition]
    refine and_congr Iff.rfl ?_
    cases Condition.evaluate attributes condition with
    | error fault => simp
    | ok first =>
      simp only [Except.ok.injEq, forall_eq']
      cases first.passed with
      | false => simp
      | true =>
        simp only [if_true, faultsIn_bind_pure_iff]
        exact Condition.faultsIn_evaluateAll_iff rest

theorem Condition.faultsIn_evaluateAny_iff : (conditions : List Condition) →
    (FaultsIn q (Condition.evaluateAny attributes conditions) ↔
      ∀ entry ∈ Condition.visitedAny attributes conditions, FaultsIn q (Entry.evaluate attributes entry))
  | [] => by simp [Condition.evaluateAny, Condition.visitedAny]
  | condition :: rest => by
    rw [Condition.evaluateAny, Condition.visitedAny, List.forall_mem_append, faultsIn_bind_iff,
      Condition.faultsIn_evaluate_iff condition]
    refine and_congr Iff.rfl ?_
    cases Condition.evaluate attributes condition with
    | error fault => simp
    | ok first =>
      simp only [Except.ok.injEq, forall_eq', faultsIn_bind_pure_iff]
      exact Condition.faultsIn_evaluateAny_iff rest

end

variable {p : Entry → Prop}

mutual

theorem Condition.forall_visited : (condition : Condition) → Condition.Everywhere p condition →
    ∀ entry ∈ Condition.visited attributes condition, p entry ∧ entry.isGroup = false
  | [], _ => by simp [Condition.visited]
  | entry :: rest, all => by
    obtain ⟨here, below, others⟩ := Condition.everywhere_cons.1 all
    rw [Condition.visited, List.forall_mem_append]
    refine ⟨Entry.forall_visited entry here below, ?_⟩
    cases Entry.evaluate attributes entry with
    | error fault => simp
    | ok first => exact Condition.forall_visited rest others

theorem Entry.forall_visited : (entry : Entry) → p entry →
    (∀ branch ∈ entry.branches, Condition.Everywhere p branch) →
    ∀ inner ∈ Entry.visited attributes entry, p inner ∧ inner.isGroup = false
  | .all conditions, _, below => by
    rw [Entry.visited]
    exact Condition.forall_visitedAll conditions below
  | .any conditions, _, below => by
    rw [Entry.visited]
    exact Condition.forall_visitedAny conditions below
  | .compare .., here, _ | .oneOf .., here, _ | .unknown .., here, _ =>
    List.forall_mem_singleton.2 ⟨here, rfl⟩

theorem Condition.forall_visitedAll : (conditions : List Condition) →
    (∀ condition ∈ conditions, Condition.Everywhere p condition) →
    ∀ entry ∈ Condition.visitedAll attributes conditions, p entry ∧ entry.isGroup = false
  | [], _ => by simp [Condition.visitedAll]
  | condition :: rest, all => by
    rw [List.forall_mem_cons] at all
    rw [Condition.visitedAll, List.forall_mem_append]
    refine ⟨Condition.forall_visited condition all.1, ?_⟩
    cases Condition.evaluate attributes condition with
    | error fault => simp
    | ok first =>
      cases passed : first.passed with
      | false => simp [passed]
      | true => simpa [passed] using Condition.forall_visitedAll rest all.2

theorem Condition.forall_visitedAny : (conditions : List Condition) →
    (∀ condition ∈ conditions, Condition.Everywhere p condition) →
    ∀ entry ∈ Condition.visitedAny attributes conditions, p entry ∧ entry.isGroup = false
  | [], _ => by simp [Condition.visitedAny]
  | condition :: rest, all => by
    rw [List.forall_mem_cons] at all
    rw [Condition.visitedAny, List.forall_mem_append]
    refine ⟨Condition.forall_visited condition all.1, ?_⟩
    cases Condition.evaluate attributes condition with
    | error fault => simp
    | ok first => exact Condition.forall_visitedAny rest all.2

end

theorem forall_visitedEntries {rules : List Rule}
    (all : ∀ rule ∈ rules, Condition.Everywhere p rule.condition) :
    ∀ entry ∈ visitedEntries attributes rules, p entry ∧ entry.isGroup = false := by
  induction rules with
  | nil => simp [visitedEntries]
  | cons rule rest ih =>
    rw [List.forall_mem_cons] at all
    rw [visitedEntries, List.forall_mem_append]
    refine ⟨Condition.forall_visited rule.condition all.1, ?_⟩
    split
    · exact ih all.2
    · simp

theorem faultsIn_firstDecision_iff (rules : List Rule) :
    FaultsIn q (firstDecision attributes rules) ↔
      ∀ entry ∈ visitedEntries attributes rules, FaultsIn q (Entry.evaluate attributes entry) := by
  induction rules with
  | nil => simp [firstDecision, visitedEntries]
  | cons rule rest ih =>
    have own : FaultsIn q (rule.evaluate attributes) ↔ _ :=
      faultsIn_bind_pure_iff.trans (Condition.faultsIn_evaluate_iff rule.condition)
    rw [firstDecision, visitedEntries, List.forall_mem_append, faultsIn_bind_iff, own]
    refine and_congr Iff.rfl ?_
    cases rule.evaluate attributes with
    | error fault => simp
    | ok evaluated =>
      obtain ⟨passed, decision⟩ := evaluated
      simp only [Except.ok.injEq, forall_eq']
      cases passed with
      | true => simp
      | false => exact ih

namespace Guard

variable {guard : Guard} {action : String} {record : Record}

def visited (guard : Guard) (resource action : String) : List Entry :=
  visitedEntries guard.attributes (guard.rulebook.candidates resource action)

/-- A request fails with faults of some kind just if every entry does that it comes to. -/
theorem faultsIn_check_iff (guard : Guard) (resource action : String) :
    FaultsIn q (guard.check resource action) ↔
      ∀ entry ∈ guard.visited resource action,
        FaultsIn q (Entry.evaluate guard.attributes entry) := by
  rw [check, faultsIn_bind_iff, visited, ← faultsIn_firstDecision_iff]
  refine and_iff_left fun found _ => ?_
  cases found <;> exact faultsIn_ok _

theorem tame_check_iff (guard : Guard) (resource action : String) :
    Tame (guard.check resource action) ↔
      ∀ entry ∈ guard.visited resource action, Tame (Entry.evaluate guard.attributes entry) :=
  faultsIn_check_iff guard resource action

theorem tame_checkRecord_iff (guard : Guard) (record : Record) (action : String) :
    Tame (guard.checkRecord record action) ↔ Tame (guard.check record.type.name action) :=
  faultsIn_checkRecord_iff guard record action

/-- Masking asks nothing but whether the records in a record are allowed. -/
theorem tame_mask (tame : record.Everywhere fun inner => Tame (guard.check inner.type.name action)) :
    Tame (guard.mask action record) :=
  faultsIn_mask tame

end Guard
end AccessControl
