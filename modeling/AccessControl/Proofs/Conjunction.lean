import AccessControl.Guard
import AccessControl.Proofs.Disjunction

/-! Conjunctions in rules. A rule whose condition puts some of its entries into a conjunction decides as
the rule that lists them side by side. The conjunction stops at its first branch that fails, drops what
it has collected and wraps the rest into one filter; none of that shows once the rule has passed, since
matching stops at the same comparison either way. -/
namespace AccessControl

namespace Filter

variable {data : Json} {filters others : List Filter}

theorem allHold_append : allHold data (filters ++ others) =
    (do if ← allHold data filters then allHold data others else return false) := by
  induction filters with
  | nil => rfl
  | cons filter rest ih =>
    rw [List.cons_append, allHold, allHold, ih]
    cases filter.holds data with
    | error fault => rfl
    | ok held => cases held <;> rfl

theorem allHold_singleton (filter : Filter) : allHold data [filter] = filter.holds data := by
  rw [allHold]
  cases filter.holds data with
  | error fault => rfl
  | ok held => cases held <;> rfl

theorem allHold_bundle : allHold data (bundle .all filters).toList = allHold data filters := by
  cases filters with
  | nil => rfl
  | cons filter rest => exact allHold_singleton (.all (filter :: rest))

theorem bundle_eq_none_iff {node : List Filter → Filter} :
    bundle node filters = none ↔ filters = [] := by
  cases filters <;> simp [bundle]

/-- Filters that are matched alike in conjunction are bundled alike: there is none to match on either
side, or the bundles are matched alike. -/
theorem rel_bundle (none : filters = [] ↔ others = [])
    (alike : ∀ data, allHold data filters = allHold data others) :
    Option.Rel (fun filter other => ∀ data, filter.holds data = other.holds data)
      (bundle .all filters) (bundle .all others) := by
  cases filters with
  | nil =>
    obtain rfl := none.1 rfl
    exact .none
  | cons filter rest =>
    cases others with
    | nil => cases none.2 rfl
    | cons other more => exact .some alike

end Filter

variable {attributes : Attributes} {conditions : List Condition} {residue : Residue}

def Residue.settled (residue : Residue) : Residue := if residue.passed then residue else .fail

/-- Where all entries of the branches can be evaluated side by side, so can the conjunction of the
branches, and with the same result if they pass. -/
theorem Condition.evaluateAll_of_flatten
    (evaluated : Condition.evaluate attributes conditions.flatten = .ok residue) :
    Condition.evaluateAll attributes conditions = .ok residue.settled := by
  induction conditions generalizing residue with
  | nil =>
    obtain rfl := Except.ok.inj evaluated
    rfl
  | cons condition rest ih =>
    simp only [List.flatten_cons, Condition.evaluate_append, bind_eq_ok_iff, pure_eq_ok_iff] at evaluated
    obtain ⟨first, hf, others, ho, rfl⟩ := evaluated
    simp only [Condition.evaluateAll, bind_eq_ok_iff]
    refine ⟨first, hf, ?_⟩
    cases passed : first.passed with
    | false => simp [Residue.settled, Residue.both, passed]
    | true =>
      rw [if_pos rfl, ih ho]
      cases also : others.passed with
      | false => simp [Residue.settled, Residue.both, Residue.fail, also]
      | true => simp [Residue.settled, Residue.both, passed, also]

theorem Condition.evaluate_flatten_of_all (passed : residue.passed = true)
    (evaluated : Condition.evaluateAll attributes conditions = .ok residue) :
    Condition.evaluate attributes conditions.flatten = .ok residue := by
  induction conditions generalizing residue with
  | nil => exact evaluated
  | cons condition rest ih =>
    simp only [Condition.evaluateAll, bind_eq_ok_iff] at evaluated
    obtain ⟨first, hf, evaluated⟩ := evaluated
    split at evaluated
    · simp only [bind_eq_ok_iff, pure_eq_ok_iff] at evaluated
      obtain ⟨others, ho, rfl⟩ := evaluated
      split at passed
      · rename_i also
        simp [List.flatten_cons, Condition.evaluate_append, hf, ih also ho, also]
      · cases passed
    · obtain rfl := pure_eq_ok_iff.1 evaluated
      cases passed

/-- Decisions that differ at most in how their filters are written. -/
structure Decision.Alike (decision other : Decision) : Prop where
  mask : decision.mask = other.mask
  result : decision.result = other.result
  filter : Option.Rel (fun filter other => ∀ data, filter.holds data = other.holds data)
    decision.filter other.filter

def Residue.decision (residue : Residue) (mask : List String) (result : Resolution) : Decision :=
  ⟨mask, Filter.bundle .all residue.filters, result⟩

/-- Filters in a group of their own decide as they do in the midst of the others. -/
theorem Residue.decision_group_all (front inner back : Residue) (mask : List String)
    (result : Resolution) :
    (((front.both (inner.group .all)).both back).decision mask result).Alike
      (((front.both inner).both back).decision mask result) := by
  refine ⟨rfl, rfl, Filter.rel_bundle ?_ fun data => ?_⟩
  · simp [both, group, Filter.bundle_eq_none_iff]
  · simp only [both, group, Filter.allHold_append, Filter.allHold_bundle]

theorem Residue.settled_passed (residue : Residue) : residue.settled.passed = residue.passed := by
  cases passed : residue.passed <;> simp [settled, passed, fail]

section

variable {front middle back : Condition} {mask : List String} {result : Resolution} {passed : Bool}
  {decision : Decision}

theorem Condition.evaluate_middle_eq_ok_iff :
    Condition.evaluate attributes (front ++ middle ++ back) = .ok residue ↔
      ∃ before inner after, Condition.evaluate attributes front = .ok before ∧
        Condition.evaluate attributes middle = .ok inner ∧
        Condition.evaluate attributes back = .ok after ∧ (before.both inner).both after = residue := by
  simp only [Condition.evaluate_append, bind_eq_ok_iff, pure_eq_ok_iff]
  constructor
  · rintro ⟨_, ⟨before, hb, inner, hi, rfl⟩, after, ha, rfl⟩
    exact ⟨before, inner, after, hb, hi, ha, rfl⟩
  · rintro ⟨before, inner, after, hb, hi, ha, rfl⟩
    exact ⟨_, ⟨before, hb, inner, hi, rfl⟩, after, ha, rfl⟩

theorem Condition.evaluate_all_eq_ok_iff :
    Condition.evaluate attributes [.all conditions] = .ok residue ↔
      ∃ inner, Condition.evaluateAll attributes conditions = .ok inner ∧
        inner.group .all = residue := by
  rw [Condition.evaluate_singleton, Entry.evaluate]
  simp only [bind_eq_ok_iff, pure_eq_ok_iff]

namespace Rule

theorem evaluate_eq_ok_iff :
    evaluate attributes ⟨middle, mask, result⟩ = .ok (passed, decision) ↔
      ∃ residue, Condition.evaluate attributes middle = .ok residue ∧ residue.passed = passed ∧
        residue.decision mask result = decision := by
  simp only [evaluate, bind_eq_ok_iff, pure_eq_ok_iff, Prod.mk.injEq]
  rfl

/-- Putting entries of a rule into a conjunction does not show. Where the rule that lists them can be
evaluated, so can the rule that groups them; both pass or none does, and if they pass they decide
alike: neither has a filter, or their filters are matched with the same outcome on all data. A rule that
passes with its entries in a conjunction also passes without. -/
theorem grouping_transparent (attributes : Attributes) (front back : Condition)
    (conditions : List Condition) (mask : List String) (result : Resolution) :
    (∀ passed listed,
      evaluate attributes ⟨front ++ conditions.flatten ++ back, mask, result⟩ = .ok (passed, listed) →
        ∃ grouped,
          evaluate attributes ⟨front ++ [.all conditions] ++ back, mask, result⟩
            = .ok (passed, grouped) ∧
          (passed = true → grouped.Alike listed)) ∧
    ∀ grouped,
      evaluate attributes ⟨front ++ [.all conditions] ++ back, mask, result⟩ = .ok (true, grouped) →
        ∃ listed,
          evaluate attributes ⟨front ++ conditions.flatten ++ back, mask, result⟩
            = .ok (true, listed) ∧
          grouped.Alike listed := by
  simp only [evaluate_eq_ok_iff, Condition.evaluate_middle_eq_ok_iff, Condition.evaluate_all_eq_ok_iff]
  constructor
  · rintro passed listed ⟨_, ⟨before, inner, after, hb, hi, ha, rfl⟩, hp, rfl⟩
    have settled := Condition.evaluateAll_of_flatten hi
    refine ⟨_, ⟨_, ⟨before, _, after, hb, ⟨_, settled, rfl⟩, ha, rfl⟩, ?_, rfl⟩, fun passes => ?_⟩
    · simpa [Residue.both, Residue.group, Residue.settled_passed] using hp
    · have held : inner.passed = true := by
        subst passes
        simp only [Residue.both, Bool.and_eq_true] at hp
        exact hp.1.2
      rw [Residue.settled, if_pos held]
      exact Residue.decision_group_all before inner after mask result
  · rintro grouped ⟨_, ⟨before, _, after, hb, ⟨inner, hi, rfl⟩, ha, rfl⟩, hp, rfl⟩
    have held : inner.passed = true := by
      simp only [Residue.both, Residue.group, Bool.and_eq_true] at hp
      exact hp.1.2
    have listed := Condition.evaluate_flatten_of_all held hi
    exact ⟨_, ⟨_, ⟨before, inner, after, hb, listed, ha, rfl⟩, hp, rfl⟩,
      Residue.decision_group_all before inner after mask result⟩

def openOfTeam : List Condition :=
  [[.compare "obj.state" .eq (.string "open")],
    [.compare "obj.team" .eq (.string "sbj.team"), .compare "sbj.role" .eq (.string "lead")]]

def longHours : Entry := .compare "obj.hours" .gt (.number (.integer 35))

def hasLongHours : Filter := .compare .gt "hours" (.number (.integer 35))

theorem grouping_transparent_lead :
    evaluate leadOfRed ⟨[longHours] ++ openOfTeam.flatten ++ [], ["total"], .allow⟩ =
        .ok (true, ⟨["total"], some (.all [hasLongHours, isOpen, ofTeam]), .allow⟩) ∧
      (∃ grouped,
        evaluate leadOfRed ⟨[longHours] ++ [.all openOfTeam] ++ [], ["total"], .allow⟩
          = .ok (true, grouped) ∧
        grouped.Alike ⟨["total"], some (.all [hasLongHours, isOpen, ofTeam]), .allow⟩) ∧
      evaluate leadOfRed ⟨[longHours] ++ [.all openOfTeam] ++ [], ["total"], .allow⟩ =
        .ok (true, ⟨["total"], some (.all [hasLongHours, .all [isOpen, ofTeam]]), .allow⟩) ∧
      ∃ listed,
        evaluate leadOfRed ⟨[longHours] ++ openOfTeam.flatten ++ [], ["total"], .allow⟩
          = .ok (true, listed) ∧
        Decision.Alike ⟨["total"], some (.all [hasLongHours, .all [isOpen, ofTeam]]), .allow⟩ listed := by
  have listed : evaluate leadOfRed ⟨[longHours] ++ openOfTeam.flatten ++ [], ["total"], .allow⟩ =
      .ok (true, ⟨["total"], some (.all [hasLongHours, isOpen, ofTeam]), .allow⟩) := by cbv
  have grouped : evaluate leadOfRed ⟨[longHours] ++ [.all openOfTeam] ++ [], ["total"], .allow⟩ =
      .ok (true, ⟨["total"], some (.all [hasLongHours, .all [isOpen, ofTeam]]), .allow⟩) := by cbv
  obtain ⟨onward, back⟩ :=
    grouping_transparent leadOfRed [longHours] [] openOfTeam ["total"] .allow
  obtain ⟨other, evaluated, alike⟩ := onward _ _ listed
  exact ⟨listed, ⟨other, evaluated, alike rfl⟩, grouped, back _ grouped⟩

end Rule

end

end AccessControl
