import AccessControl.Proofs.Mismatch
import AccessControl.Proofs.TwoStage

/-! What a comparison says. One that is put off says of the record's attribute what its operator says
at once, faults included: a value that `not` cannot be applied to is told while the filter is built,
values that cannot be compared while it is matched. One with a referenced attribute takes the
attribute as data, but for the wildcard and for objects under `not`. -/
namespace AccessControl

theorem mismatch_ne_of_negatedOperator {name : String} {fault : Fault}
    (h : negatedOperator name = .error fault) (cause : Mismatch) : fault ≠ .typeMismatch cause := by
  unfold negatedOperator at h
  split at h <;> cases h <;> simp

namespace Filter

theorem mismatch_ne_of_leaf {operator : Operator} {operand : String} {value : Json} {fault : Fault}
    (h : leaf operator operand value = .error fault) (cause : Mismatch) :
    fault ≠ .typeMismatch cause := by
  fun_induction leaf operator operand value with
  | case1 operand name inner ih =>
    rcases bind_eq_error_iff.1 h with failed | ⟨nested, -, failed⟩
    · exact mismatch_ne_of_negatedOperator failed cause
    · rcases bind_eq_error_iff.1 failed with failed | ⟨filter, -, built⟩
      · exact ih nested failed
      · cases built
  | case2 operand members other =>
    obtain rfl := Except.error.inj h
    simp
  | case3 => cases h

theorem tame_holds_of_leaf {operator : Operator} {operand : String} {value data : Json}
    {filter : Filter} (built : leaf operator operand value = .ok filter) :
    Tame (filter.holds data) := by
  have tame : Tame (leaf operator operand value) := built ▸ tame_ok filter
  rw [holds_of_leaf built, Operator.tame_apply_iff]
  exact tame_leaf_iff.1 tame

theorem exists_leaf_iff {operator : Operator} {operand : String} {value : Json} :
    (∃ filter, leaf operator operand value = .ok filter) ↔
      (operator = .not → value.negatable = true) := by
  rw [← tame_leaf_iff]
  constructor
  · rintro ⟨filter, built⟩
    exact built ▸ tame_ok filter
  · intro tame
    cases built : leaf operator operand value with
    | ok filter => exact ⟨filter, rfl⟩
    | error fault =>
      obtain ⟨cause, rfl⟩ := tame fault built
      exact absurd rfl (mismatch_ne_of_leaf built cause)

end Filter

/-- A comparison that is put off decides as one that is not: with the same result, and with the same
failure. Of its failures those over types come up in matching, and all others in building. -/
theorem operator_apply_deferred (operator : Operator) (operand : String) (value data : Json) :
    (do (← Filter.leaf operator operand value).holds data) =
      operator.apply (attributeAt data operand) value ∧
    (∀ fault, Filter.leaf operator operand value = .error fault ↔
      (∀ cause, fault ≠ .typeMismatch cause) ∧
        operator.apply (attributeAt data operand) value = .error fault) ∧
    ∀ cause, operator.apply (attributeAt data operand) value = .error (.typeMismatch cause) ↔
      ∃ filter, Filter.leaf operator operand value = .ok filter ∧
        filter.holds data = .error (.typeMismatch cause) := by
  have whole := Filter.leaf_bind_holds data operator operand value
  have fails (fault : Fault) : operator.apply (attributeAt data operand) value = .error fault ↔
      Filter.leaf operator operand value = .error fault ∨
        ∃ filter, Filter.leaf operator operand value = .ok filter ∧
          filter.holds data = .error fault := by
    rw [← whole, bind_eq_error_iff]
  refine ⟨whole, fun fault => ⟨fun failed => ?_, ?_⟩, fun cause => ?_⟩
  · exact ⟨Filter.mismatch_ne_of_leaf failed, (fails fault).2 (.inl failed)⟩
  · rintro ⟨shape, failed⟩
    refine ((fails fault).1 failed).resolve_right ?_
    rintro ⟨filter, built, mismatch⟩
    obtain ⟨cause, rfl⟩ := Filter.tame_holds_of_leaf built fault mismatch
    exact shape cause rfl
  · rw [fails]
    exact or_iff_right fun failed => Filter.mismatch_ne_of_leaf failed cause rfl

/-- The entry can be evaluated, and on any record its filters can be matched; it then holds of the
record as stated. -/
def Entry.Means (attributes : Attributes) (entry : Entry) (truth : Json → Prop) : Prop :=
  ∃ residue, Entry.evaluate attributes entry = .ok residue ∧
    ∀ data, residue.Decided data ∧ (residue.Holds data ↔ truth data)

variable {attributes : Attributes} {operand path : String} {operator : Operator} {value a : Json}
  {bag : Bag}

theorem Entry.means_compare {test : Json → Bool}
    (total : ∀ x, operator.apply x (attributes.substitute value) = .ok (test x)) :
    Entry.Means attributes (.compare operand operator value)
      fun data => test ((attributes.operand operand).on data) = true := by
  cases stands : attributes.operand operand with
  | known x =>
    refine ⟨⟨test x, []⟩, by simp [Entry.evaluate, stands, total], fun data => ?_⟩
    have settled : Residue.Settles ⟨test x, []⟩ data (test x) := .known _
    exact ⟨settled.decided, settled.iff.symm⟩
  | deferred path =>
    obtain ⟨filter, built, -⟩ := Filter.leaf_eq_ok_of_apply (total (attributeAt .null path))
    refine ⟨⟨true, [filter]⟩, by simp [Entry.evaluate, stands, built], fun data => ?_⟩
    have matched : filter.holds data = .ok (test (attributeAt data path)) :=
      (Filter.holds_of_leaf built data).trans (total _)
    have settled := Residue.Settles.deferred matched
    exact ⟨settled.decided, settled.iff.symm⟩

theorem agrees_eq_true_iff {x : Json} :
    agrees x a = true ↔ a = .string wildcard ∨ x.sameValue a = true := by
  cases a <;> simp [agrees, Json.string?]

/-- A referenced attribute is compared as it is, whatever is in it, but the wildcard equals everything
and objects under `not` are comparisons themselves. -/
theorem compare_attribute (operand : String) (refers : value.reference? = some (bag, path))
    (carries : (attributes.resolve? bag path).getD .null = a) :
    Entry.Means attributes (.compare operand .eq value) (fun data =>
      a = .string wildcard ∨ ((attributes.operand operand).on data).sameValue a = true) ∧
    ((∀ members, a ≠ .object members) →
      Entry.Means attributes (.compare operand .not value) fun data =>
        ((attributes.operand operand).on data).sameValue a = false) := by
  have stands : attributes.substitute value = a := by simp only [Attributes.substitute, refers, carries]
  constructor
  · simp only [← agrees_eq_true_iff]
    exact Entry.means_compare fun x => by rw [stands, Operator.apply]
  · intro plain
    have negated : Entry.Means attributes (.compare operand .not value) fun data =>
        (!((attributes.operand operand).on data).sameValue a) = true :=
      Entry.means_compare fun x => by
        rw [stands, Operator.apply_not_of_not_isObject (Json.isObject_eq_false_iff.2 plain)]
    simpa only [Bool.not_eq_true'] using negated

def clerkOf (team : Json) : Attributes := ⟨.object [("role", .string "clerk"), ("team", team)], .null⟩

theorem compare_attribute_listed :
    (Json.string "sbj.team").reference? = some (.subject, "team") ∧
    ((clerkOf (.array [.string wildcard])).resolve? .subject "team").getD .null =
      .array [.string wildcard] ∧
    Entry.Means (clerkOf (.array [.string wildcard]))
      (.compare "obj.team" .eq (.string "sbj.team")) (fun data =>
        Json.array [.string wildcard] = .string wildcard ∨
          (attributeAt data "team").sameValue (.array [.string wildcard]) = true) ∧
    Entry.Means (clerkOf (.array [.string wildcard]))
      (.compare "obj.team" .not (.string "sbj.team")) fun data =>
        (attributeAt data "team").sameValue (.array [.string wildcard]) = false := by
  have refers : (Json.string "sbj.team").reference? = some (.subject, "team") := by cbv
  have carries : ((clerkOf (.array [.string wildcard])).resolve? .subject "team").getD .null =
      .array [.string wildcard] := by cbv
  have stands : (clerkOf (.array [.string wildcard])).operand "obj.team" = .deferred "team" := by cbv
  have means := compare_attribute "obj.team" refers carries
  rw [stands] at means
  exact ⟨refers, carries, means.1, means.2 (by simp)⟩

def AttributesAreData (attributes : Attributes) : Prop :=
  ∀ operand value bag path, Json.reference? value = some (bag, path) →
    Entry.Means attributes (.compare operand .eq value) (fun data =>
      ((attributes.operand operand).on data).sameValue
        ((attributes.resolve? bag path).getD .null) = true) ∧
    Entry.Means attributes (.compare operand .not value) fun data =>
      ((attributes.operand operand).on data).sameValue
        ((attributes.resolve? bag path).getD .null) = false

/-- A clerk of the team `*` is told to be the same as any team, and one whose team is a comparison
has it made. -/
theorem attributes_not_data :
    ¬ AttributesAreData (clerkOf (.string wildcard)) ∧
    ¬ AttributesAreData (clerkOf (.object [("eq", .string "clerk")])) := by
  have refers : (Json.string "sbj.team").reference? = some (.subject, "team") := by cbv
  constructor
  · intro data
    obtain ⟨residue, evaluated, means⟩ := (data "sbj.role" _ _ _ refers).1
    have passes : Entry.evaluate (clerkOf (.string wildcard))
        (.compare "sbj.role" .eq (.string "sbj.team")) = .ok ⟨true, []⟩ := by cbv
    obtain rfl := Except.ok.inj (passes.symm.trans evaluated)
    have same := (means .null).2.1 (by simp [Residue.Holds])
    have differ : (((clerkOf (.string wildcard)).operand "sbj.role").on .null).sameValue
        (((clerkOf (.string wildcard)).resolve? .subject "team").getD .null) = false := by cbv
    cases differ.symm.trans same
  · intro data
    obtain ⟨residue, evaluated, means⟩ := (data "sbj.role" _ _ _ refers).2
    have fails : Entry.evaluate (clerkOf (.object [("eq", .string "clerk")]))
        (.compare "sbj.role" .not (.string "sbj.team")) = .ok ⟨false, []⟩ := by cbv
    obtain rfl := Except.ok.inj (fails.symm.trans evaluated)
    have differ : (((clerkOf (.object [("eq", .string "clerk")])).operand "sbj.role").on .null).sameValue
        (((clerkOf (.object [("eq", .string "clerk")])).resolve? .subject "team").getD .null) =
          false := by cbv
    exact Residue.not_holds_of_failed rfl ((means .null).2.2 differ)

end AccessControl
