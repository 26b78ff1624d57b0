import AccessControl.Guard
import AccessControl.Proofs.Condition

/-! Evaluation in two stages against evaluation in one. The first stage knows subject and context and
leaves filters, the second matches them; the direct truth of a condition knows the record as well.
Both agree as long as every disjunction is uniform in the filters of its branches. -/
namespace AccessControl

/-- What an operand stands for once the record is known. -/
def Operand.on (data : Json) : Operand → Json
  | .deferred path => attributeAt data path
  | .known value => value

mutual

/-- The truth of a condition with the record at hand. Every comparison is made, and the first that
fails is the outcome. -/
def Condition.truth (attributes : Attributes) (data : Json) : Condition → Except Fault Bool
  | [] => .ok true
  | entry :: rest => do
    let first ← Entry.truth attributes data entry
    let others ← Condition.truth attributes data rest
    return first && others

def Entry.truth (attributes : Attributes) (data : Json) : Entry → Except Fault Bool
  | .compare operand operator value =>
    operator.apply ((attributes.operand operand).on data) (attributes.substitute value)
  | .oneOf operand values =>
    contains (attributes.substitute values) ((attributes.operand operand).on data)
  | .all conditions => Condition.truthOfAll attributes data conditions
  | .any conditions => Condition.truthOfAny attributes data conditions
  | .unknown .. => .ok true

def Condition.truthOfAll (attributes : Attributes) (data : Json) :
    List Condition → Except Fault Bool
  | [] => .ok true
  | condition :: rest => do
    let first ← Condition.truth attributes data condition
    let others ← Condition.truthOfAll attributes data rest
    return first && others

def Condition.truthOfAny (attributes : Attributes) (data : Json) :
    List Condition → Except Fault Bool
  | [] => .ok false
  | condition :: rest => do
    let first ← Condition.truth attributes data condition
    let others ← Condition.truthOfAny attributes data rest
    return first || others

end

/-- A disjunction of which either no branch leaves a filter, or every branch passes and leaves
exactly one. Other entries are under no restriction. -/
def Entry.Uniform (attributes : Attributes) : Entry → Prop
  | .any branches =>
    (∀ branch ∈ branches, ∀ residue,
      Condition.evaluate attributes branch = .ok residue → residue.filters = []) ∨
    ∀ branch ∈ branches, ∃ filter, Condition.evaluate attributes branch = .ok ⟨true, [filter]⟩
  | _ => True

/-- A residue that holds of a record just if `holds`, where none of its filters fails. -/
structure Residue.Settles (residue : Residue) (data : Json) (holds : Bool) : Prop where
  decided : residue.Decided data
  iff : holds = true ↔ residue.Holds data

namespace Residue.Settles

variable {data : Json} {r s : Residue} {a b : Bool}

theorem pass : Residue.pass.Settles data true :=
  ⟨by simp [Decided, Residue.pass], by simp [Holds, Residue.pass]⟩

theorem fail : Residue.fail.Settles data false :=
  ⟨by simp [Decided, Residue.fail], by simp [Holds, Residue.fail]⟩

theorem known (held : Bool) : Residue.Settles ⟨held, []⟩ data held :=
  ⟨by simp [Decided], by simp [Holds]⟩

theorem deferred {filter : Filter} (h : filter.holds data = .ok a) :
    Residue.Settles ⟨true, [filter]⟩ data a :=
  ⟨by simp [Decided, Filter.Decided, h], by simp [Holds, h]⟩

theorem both (hr : r.Settles data a) (hs : s.Settles data b) :
    (r.both s).Settles data (a && b) :=
  ⟨hr.decided.both hs.decided, by rw [Bool.and_eq_true, hr.iff, hs.iff, holds_both]⟩

theorem group_all (h : r.Settles data a) : (r.group .all).Settles data a :=
  ⟨h.decided.group_all, h.iff.trans holds_group_all.symm⟩

theorem eq_false (h : r.Settles data a) (failed : r.passed = false) : a = false := by
  rw [← Bool.not_eq_true, h.iff]
  exact not_holds_of_failed failed

end Residue.Settles

section

variable {attributes : Attributes} {data : Json}

/-- Both ways of evaluating a condition agree on a record, wherever every comparison can be made. -/
def Condition.Agrees (attributes : Attributes) (data : Json) (condition : Condition) : Prop :=
  ∀ holds, Condition.truth attributes data condition = .ok holds →
    ∃ residue, Condition.evaluate attributes condition = .ok residue ∧ residue.Settles data holds

theorem Condition.evaluateAll_agrees {conditions : List Condition}
    (agree : ∀ condition ∈ conditions, Condition.Agrees attributes data condition) {holds : Bool}
    (h : Condition.truthOfAll attributes data conditions = .ok holds) :
    ∃ residue, Condition.evaluateAll attributes conditions = .ok residue ∧
      residue.Settles data holds := by
  induction conditions generalizing holds with
  | nil =>
    obtain rfl : true = holds := by simpa [Condition.truthOfAll] using h
    exact ⟨.pass, rfl, .pass⟩
  | cons condition rest ih =>
    simp only [Condition.truthOfAll, bind_eq_ok_iff, pure_eq_ok_iff] at h
    obtain ⟨a, ha, b, hb, rfl⟩ := h
    obtain ⟨first, hf, settled⟩ := agree condition (by simp) a ha
    obtain ⟨others, ho, settledRest⟩ := ih (fun c hm => agree c (by simp [hm])) hb
    -- a group that fails drops its filters, which is right because a part of it is false already
    cases passed : first.passed with
    | false =>
      refine ⟨.fail, by simp [Condition.evaluateAll, hf, passed], ?_⟩
      rw [settled.eq_false passed, Bool.false_and]
      exact .fail
    | true =>
      cases passedRest : others.passed with
      | false =>
        refine ⟨.fail, by simp [Condition.evaluateAll, hf, ho, passedRest], ?_⟩
        rw [settledRest.eq_false passedRest, Bool.and_false]
        exact .fail
      | true =>
        exact ⟨first.both others, by simp [Condition.evaluateAll, hf, ho, passed, passedRest],
          settled.both settledRest⟩

theorem Condition.truthOfAny_eq_ok {conditions : List Condition} {holds : Bool}
    (h : Condition.truthOfAny attributes data conditions = .ok holds) :
    ∃ truths, conditions.mapM (Condition.truth attributes data) = .ok truths ∧
      holds = truths.any id := by
  induction conditions generalizing holds with
  | nil => exact ⟨[], rfl, by simpa [Condition.truthOfAny, eq_comm] using h⟩
  | cons condition rest ih =>
    simp only [Condition.truthOfAny, bind_eq_ok_iff, pure_eq_ok_iff] at h
    obtain ⟨a, ha, b, hb, rfl⟩ := h
    obtain ⟨truths, ht, rfl⟩ := ih hb
    exact ⟨a :: truths, by simp [List.mapM_cons, ha, ht], by simp⟩

theorem Condition.mapM_evaluate_agrees {conditions : List Condition} {truths : List Bool}
    (agree : ∀ condition ∈ conditions, Condition.Agrees attributes data condition)
    (h : conditions.mapM (Condition.truth attributes data) = .ok truths) :
    ∃ residues, conditions.mapM (Condition.evaluate attributes) = .ok residues ∧
      List.Forall₂ (fun residue holds => residue.Settles data holds) residues truths := by
  rw [mapM_eq_ok_iff] at h
  induction h with
  | nil => exact ⟨[], rfl, .nil⟩
  | @cons condition a rest truths ha _ ih =>
    obtain ⟨first, hf, settled⟩ := agree condition (by simp) a ha
    obtain ⟨residues, hr, settledRest⟩ := ih fun c hm => agree c (by simp [hm])
    exact ⟨first :: residues, by simp [List.mapM_cons, hf, hr], .cons settled settledRest⟩

/-- The branches of a uniform disjunction leave filters that belong to them one by one. -/
theorem Entry.Uniform.paired {branches : List Condition} {residues : List Residue}
    (uniform : Entry.Uniform attributes (.any branches))
    (h : branches.mapM (Condition.evaluate attributes) = .ok residues) :
    Residue.Paired residues := by
  rcases uniform with none | one
  · refine .inl fun residue hr => ?_
    obtain ⟨branch, hb, he⟩ := exists_of_mem_mapM h hr
    exact none branch hb residue he
  · refine .inr fun residue hr => ?_
    obtain ⟨branch, hb, he⟩ := exists_of_mem_mapM h hr
    obtain ⟨filter, hf⟩ := one branch hb
    obtain rfl : ⟨true, [filter]⟩ = residue := Except.ok.inj (hf.symm.trans he)
    exact ⟨filter, rfl⟩

theorem Residue.Settles.any {residues : List Residue} {truths : List Bool}
    (settled : List.Forall₂ (fun residue holds => Residue.Settles residue data holds)
      residues truths) :
    (∀ residue ∈ residues, residue.Decided data) ∧
      (truths.any id = true ↔ ∃ residue ∈ residues, residue.Holds data) := by
  induction settled with
  | nil => simp
  | cons first _ ih =>
    refine ⟨List.forall_mem_cons.2 ⟨first.decided, ih.1⟩, ?_⟩
    simp [first.iff, ← ih.2]

theorem Entry.evaluate_any_agrees {branches : List Condition}
    (uniform : Entry.Uniform attributes (.any branches))
    (agree : ∀ branch ∈ branches, Condition.Agrees attributes data branch) {holds : Bool}
    (h : Condition.truthOfAny attributes data branches = .ok holds) :
    ∃ residue, Entry.evaluate attributes (.any branches) = .ok residue ∧
      residue.Settles data holds := by
  obtain ⟨truths, ht, rfl⟩ := Condition.truthOfAny_eq_ok h
  obtain ⟨residues, hr, settled⟩ := Condition.mapM_evaluate_agrees agree ht
  obtain ⟨decided, iff⟩ := Residue.Settles.any settled
  refine ⟨_, Entry.evaluate_any hr, (Residue.Decided.join decided).group_any, ?_⟩
  rw [iff, Residue.holds_disjunction_iff_exists decided (uniform.paired hr)]

theorem Entry.evaluate_agrees {entry : Entry} (uniform : entry.Uniform attributes)
    (agree : ∀ branch ∈ entry.branches, Condition.Agrees attributes data branch) {holds : Bool}
    (h : Entry.truth attributes data entry = .ok holds) :
    ∃ residue, Entry.evaluate attributes entry = .ok residue ∧ residue.Settles data holds := by
  cases entry with
  | compare operand operator value =>
    rw [Entry.truth] at h
    cases stands : attributes.operand operand with
    | deferred path =>
      rw [stands] at h
      obtain ⟨filter, built, hh⟩ := Filter.leaf_eq_ok_of_apply h
      exact ⟨_, by simp [Entry.evaluate, stands, built], .deferred hh⟩
    | known value =>
      rw [stands] at h
      exact ⟨_, by simp [Entry.evaluate, stands, show operator.apply value _ = _ from h],
        .known holds⟩
  | oneOf operand values =>
    rw [Entry.truth] at h
    cases stands : attributes.operand operand with
    | deferred path =>
      rw [stands] at h
      exact ⟨⟨true, [.oneOf path (attributes.substitute values)]⟩, by simp [Entry.evaluate, stands],
        .deferred h⟩
    | known value =>
      rw [stands] at h
      exact ⟨_, by simp [Entry.evaluate, stands, show contains _ value = _ from h],
        .known holds⟩
  | all conditions =>
    have below : ∀ condition ∈ conditions, Condition.Agrees attributes data condition := agree
    obtain ⟨residue, hr, settled⟩ := Condition.evaluateAll_agrees below h
    exact ⟨_, by simp [Entry.evaluate, hr], settled.group_all⟩
  | any conditions => exact Entry.evaluate_any_agrees uniform agree h
  | unknown operand operator value =>
    obtain rfl : true = holds := by simpa [Entry.truth] using h
    exact ⟨.pass, rfl, .pass⟩

theorem Condition.agrees_of_entries {condition : Condition}
    (entries : ∀ entry ∈ condition, ∀ holds, Entry.truth attributes data entry = .ok holds →
      ∃ residue, Entry.evaluate attributes entry = .ok residue ∧ residue.Settles data holds) :
    Condition.Agrees attributes data condition := by
  intro holds h
  induction condition generalizing holds with
  | nil =>
    obtain rfl : true = holds := by simpa [Condition.truth] using h
    exact ⟨.pass, rfl, .pass⟩
  | cons entry rest ih =>
    simp only [Condition.truth, bind_eq_ok_iff, pure_eq_ok_iff] at h
    obtain ⟨a, ha, b, hb, rfl⟩ := h
    obtain ⟨first, hf, settled⟩ := entries entry (by simp) a ha
    obtain ⟨others, ho, settledRest⟩ := ih (fun e hm => entries e (by simp [hm])) b hb
    exact ⟨first.both others, by simp [Condition.evaluate, hf, ho], settled.both settledRest⟩

theorem Condition.agrees_of_uniform {condition : Condition}
    (uniform : condition.Everywhere (Entry.Uniform attributes)) :
    Condition.Agrees attributes data condition := by
  induction uniform with
  | intro here _ ih =>
    exact agrees_of_entries fun entry hm holds h =>
      Entry.evaluate_agrees (here entry hm) (ih entry hm) h

theorem Residue.holds_iff_decision (residue : Residue) :
    residue.Holds data ↔ residue.passed = true ∧
      ∀ filter ∈ Filter.bundle .all residue.filters, filter.holds data = .ok true := by
  rw [← holds_group_all]
  simp [Residue.Holds, Residue.group]

/-- Two-stage evaluation agrees with one-stage evaluation. Where every comparison of a condition can
be made on a record and all of its disjunctions are uniform, the condition is evaluated without
fault; it is true of the record just if it has passed and all filters that it leaves hold, and just
if a rule with this condition passes with a decision whose filter, if any, holds. -/
theorem truth_iff_evaluate_holds {condition : Condition} {holds : Bool}
    (uniform : condition.Everywhere (Entry.Uniform attributes))
    (comparable : Condition.truth attributes data condition = .ok holds) :
    ∃ passed filters, Condition.evaluate attributes condition = .ok ⟨passed, filters⟩ ∧
      (holds = true ↔ passed = true ∧ ∀ filter ∈ filters, filter.holds data = .ok true) ∧
      ∀ mask result, ∃ decision,
        Rule.evaluate attributes ⟨condition, mask, result⟩ = .ok (passed, decision) ∧
        (holds = true ↔
          passed = true ∧ ∀ filter ∈ decision.filter, filter.holds data = .ok true) := by
  obtain ⟨residue, hr, settled⟩ := Condition.agrees_of_uniform uniform holds comparable
  refine ⟨residue.passed, residue.filters, hr, settled.iff, fun mask result => ?_⟩
  refine ⟨⟨mask, Filter.bundle .all residue.filters, result⟩, by simp [Rule.evaluate, hr], ?_⟩
  exact settled.iff.trans residue.holds_iff_decision

def sharedTask : Json :=
  .object [("executor", .object [("account", .string "bob")]),
    ("responsible", .object [("account", .string "ann")])]

def adminAttributes : Attributes :=
  ⟨.object [("role", .string "admin"), ("id", .string "ann")], .null⟩

def ownTaskOfAdmin : Condition :=
  [.any [[.compare "obj.executor.account" .eq (.string "sbj.id")],
      [.compare "obj.responsible.account" .eq (.string "sbj.id")]],
    .all [[.compare "sbj.role" .eq (.string "admin")]]]

theorem truth_iff_evaluate_holds_own :
    ownTaskOfAdmin.Everywhere (Entry.Uniform adminAttributes) ∧
      Condition.truth adminAttributes sharedTask ownTaskOfAdmin = .ok true ∧
      ∃ passed filters, Condition.evaluate adminAttributes ownTaskOfAdmin = .ok ⟨passed, filters⟩ ∧
        (true = true ↔
          passed = true ∧ ∀ filter ∈ filters, filter.holds sharedTask = .ok true) ∧
        ∀ mask result, ∃ decision,
          Rule.evaluate adminAttributes ⟨ownTaskOfAdmin, mask, result⟩ = .ok (passed, decision) ∧
          (true = true ↔
            passed = true ∧ ∀ filter ∈ decision.filter, filter.holds sharedTask = .ok true) := by
  have uniform : ownTaskOfAdmin.Everywhere (Entry.Uniform adminAttributes) := by
    simp only [ownTaskOfAdmin, Condition.everywhere_cons, Condition.everywhere_nil,
      Entry.branches, List.forall_mem_cons, List.not_mem_nil, false_imp_iff, implies_true,
      Entry.Uniform, and_true]
    exact .inr ⟨⟨.compare .eq "executor.account" (.string "ann"), by cbv⟩,
      .compare .eq "responsible.account" (.string "ann"), by cbv⟩
  have comparable : Condition.truth adminAttributes sharedTask ownTaskOfAdmin = .ok true := by cbv
  exact ⟨uniform, comparable, truth_iff_evaluate_holds uniform comparable⟩

end

end AccessControl
