import AccessControl.Guard
import AccessControl.Proofs.Fallible
import AccessControl.Proofs.Keyed

/-! Which rule decides a request. Of all rules under the keys of the request, in the order of the
keys, the first decides that passes or that cannot be evaluated. Keys coincide where the request
itself names wildcards; rules that are found twice change nothing, as they have failed before. -/
namespace AccessControl

/-- The keys of a request, the most specific first. A key that comes again counts at its first
place. -/
def cascade (resource action : String) : List (String × String) :=
  let family := String.ofList (action.toList.takeWhile (· ≠ '_')) ++ "_*"
  [(resource, action), (resource, family), (resource, "*"),
    ("*", action), ("*", family), ("*", "*")].eraseDups

def Rulebook.rulesUnder (book : Rulebook) (keys : List (String × String)) : List Rule :=
  keys.flatMap fun key => (book.get? key.1 key.2).getD []

theorem Rulebook.mem_rules_of_mem_candidates {book : Rulebook} {resource action : String} {rule : Rule}
    (h : rule ∈ book.candidates resource action) : rule ∈ book.rules := by
  obtain ⟨key, -, hm⟩ := List.mem_flatMap.1 h
  cases found : book.get? key.1 key.2 with
  | none => simp [found] at hm
  | some rules =>
    obtain ⟨actions, ha, hr⟩ := Option.bind_eq_some_iff.1 found
    refine List.mem_flatMap.2 ⟨_, Keyed.mem_of_get? ha, ?_⟩
    refine List.mem_flatMap.2 ⟨_, Keyed.mem_of_get? hr, ?_⟩
    simpa [found] using hm

def Rule.Fails (attributes : Attributes) (rule : Rule) : Prop :=
  ∃ decision, rule.evaluate attributes = .ok (false, decision)

section

variable {attributes : Attributes} {rule : Rule} {before rest : List Rule} {κ : Type}

theorem Rule.evaluate_result {passed : Bool} {decision : Decision}
    (h : rule.evaluate attributes = .ok (passed, decision)) : decision.result = rule.result := by
  simp only [evaluate, bind_eq_ok_iff, pure_eq_ok_iff, Prod.mk.injEq] at h
  obtain ⟨_, -, -, rfl⟩ := h
  rfl

theorem firstDecision_of_forall₂ {other : Attributes} {rules others : List Rule}
    (alike : List.Forall₂ (fun rule rule' => rule.evaluate attributes = rule'.evaluate other)
      rules others) : firstDecision attributes rules = firstDecision other others := by
  induction alike with
  | nil => rfl
  | cons first _ ih => rw [firstDecision, firstDecision, first, ih]

theorem firstDecision_append (before rest : List Rule) :
    firstDecision attributes (before ++ rest) = (do
      match ← firstDecision attributes before with
      | some decision => return some decision
      | none => firstDecision attributes rest) := by
  induction before with
  | nil => rfl
  | cons rule before ih =>
    rw [List.cons_append, firstDecision, firstDecision]
    cases rule.evaluate attributes with
    | error fault => rfl
    | ok evaluated =>
      obtain ⟨passed, decision⟩ := evaluated
      cases passed with
      | true => rfl
      | false => exact ih

theorem firstDecision_eq_none_iff :
    firstDecision attributes before = .ok none ↔ ∀ rule ∈ before, rule.Fails attributes := by
  induction before with
  | nil => simp [firstDecision]
  | cons rule before ih =>
    rw [firstDecision, List.forall_mem_cons, ← ih, Rule.Fails]
    simp only [bind_eq_ok_iff]
    constructor
    · rintro ⟨⟨passed, decision⟩, evaluated, later⟩
      cases passed with
      | true => cases later
      | false => exact ⟨⟨decision, evaluated⟩, later⟩
    · rintro ⟨⟨decision, evaluated⟩, later⟩
      exact ⟨(false, decision), evaluated, later⟩

theorem firstDecision_of_failed (failed : ∀ rule ∈ before, rule.Fails attributes)
    (rest : List Rule) :
    firstDecision attributes (before ++ rest) = firstDecision attributes rest := by
  rw [firstDecision_append, firstDecision_eq_none_iff.2 failed]
  rfl

theorem firstDecision_of_not_failed (settles : ¬ rule.Fails attributes) (before rest : List Rule) :
    firstDecision attributes (before ++ rule :: rest) =
      firstDecision attributes (before ++ [rule]) := by
  have undecided : firstDecision attributes (before ++ [rule]) ≠ .ok none := fun none =>
    settles (firstDecision_eq_none_iff.1 none rule (by simp))
  rw [← List.singleton_append, ← List.append_assoc, firstDecision_append]
  cases h : firstDecision attributes (before ++ [rule]) with
  | error fault => rfl
  | ok found =>
    cases found with
    | some decision => rfl
    | none => exact absurd h undecided

/-- Keys can be left out whose rules all fail. -/
theorem firstDecision_filter {keep : κ → Bool} {rulesAt : κ → List Rule} {keys : List κ}
    (failed : ∀ key ∈ keys, keep key = false → ∀ rule ∈ rulesAt key, rule.Fails attributes) :
    firstDecision attributes ((keys.filter keep).flatMap rulesAt) =
      firstDecision attributes (keys.flatMap rulesAt) := by
  induction keys with
  | nil => rfl
  | cons key keys ih =>
    rw [List.forall_mem_cons] at failed
    cases stays : keep key with
    | true =>
      rw [List.filter_cons_of_pos stays, List.flatMap_cons, List.flatMap_cons,
        firstDecision_append, firstDecision_append, ih failed.2]
    | false =>
      rw [List.filter_cons_of_neg (by simp [stays]), List.flatMap_cons,
        firstDecision_of_failed (failed.1 stays), ih failed.2]

/-- A key that comes again brings no new decision: its rules have decided before, or failed. -/
theorem firstDecision_eraseDups [BEq κ] [LawfulBEq κ] (keys : List κ) (rulesAt : κ → List Rule) :
    firstDecision attributes (keys.eraseDups.flatMap rulesAt) =
      firstDecision attributes (keys.flatMap rulesAt) := by
  induction size : keys.length using Nat.strongRecOn generalizing keys with
  | ind length ih =>
    cases keys with
    | nil => rfl
    | cons key keys =>
      have shorter : (keys.filter fun other => !other == key).length < length := by
        rw [← size, List.length_cons]
        exact Nat.lt_succ_of_le (List.length_filter_le _ _)
      rw [List.eraseDups_cons, List.flatMap_cons, List.flatMap_cons, firstDecision_append,
        ih _ shorter _ rfl, firstDecision_append]
      cases first : firstDecision attributes (rulesAt key) with
      | error fault => rfl
      | ok found =>
        cases found with
        | some decision => rfl
        | none =>
          refine firstDecision_filter fun other _ dropped => ?_
          obtain rfl : other = key := by simpa using dropped
          exact firstDecision_eq_none_iff.1 first

end

namespace Guard

variable {guard : Guard} {resource action : String}

theorem check_eq (guard : Guard) (resource action : String) :
    guard.check resource action = (do
      match ← firstDecision guard.attributes
        (guard.rulebook.rulesUnder (cascade resource action)) with
      | some decision => return ⟨decision.result.allows, some decision⟩
      | none => return ⟨guard.fallback.allows, none⟩) := by
  have once : firstDecision guard.attributes
      (guard.rulebook.rulesUnder (cascade resource action)) =
        firstDecision guard.attributes (guard.rulebook.candidates resource action) :=
    firstDecision_eraseDups (searchOrder resource action) _
  rw [once]
  rfl

/-- The first rule under the keys of a request that does not fail decides it: if it passes, by its
result, and if it cannot be evaluated, by its fault. If all rules fail the fallback applies, without
a decision. Neither rules under other keys nor rules behind the deciding one have any influence. -/
theorem check_first_match (guard : Guard) (resource action : String) :
    (∀ before rule rest,
      guard.rulebook.rulesUnder (cascade resource action) = before ++ rule :: rest →
      (∀ earlier ∈ before, earlier.Fails guard.attributes) →
        (∀ decision, rule.evaluate guard.attributes = .ok (true, decision) →
          guard.check resource action = .ok ⟨rule.result.allows, some decision⟩) ∧
        ∀ fault, rule.evaluate guard.attributes = .error fault →
          guard.check resource action = .error fault) ∧
    ((∀ rule ∈ guard.rulebook.rulesUnder (cascade resource action), rule.Fails guard.attributes) →
      guard.check resource action = .ok ⟨guard.fallback.allows, none⟩) ∧
    (∀ book : Rulebook,
      (∀ key ∈ cascade resource action,
        book.get? key.1 key.2 = guard.rulebook.get? key.1 key.2) →
      Guard.check ⟨guard.attributes, book, guard.fallback⟩ resource action =
        guard.check resource action) ∧
    ∀ (book : Rulebook) before rule rest rest', ¬ rule.Fails guard.attributes →
      guard.rulebook.rulesUnder (cascade resource action) = before ++ rule :: rest →
      book.rulesUnder (cascade resource action) = before ++ rule :: rest' →
      Guard.check ⟨guard.attributes, book, guard.fallback⟩ resource action =
        guard.check resource action := by
  refine ⟨fun before rule rest found failed => ⟨fun decision passes => ?_, fun fault fails => ?_⟩,
    fun failed => ?_, fun book same => ?_, fun book before rule rest rest' settles found found' => ?_⟩
  · rw [check_eq, found, firstDecision_of_failed failed, firstDecision, passes,
      ← Rule.evaluate_result passes]
    rfl
  · rw [check_eq, found, firstDecision_of_failed failed, firstDecision, fails]
    rfl
  · rw [check_eq, firstDecision_eq_none_iff.2 failed]
    rfl
  · have rules : book.rulesUnder (cascade resource action) =
        guard.rulebook.rulesUnder (cascade resource action) :=
      List.flatMap_congr fun key hk => by rw [same key hk]
    rw [check_eq, check_eq, rules]
  · rw [check_eq, check_eq, found, found', firstDecision_of_not_failed settles before rest,
      firstDecision_of_not_failed settles before rest']

def leadsDenied : Rule := ⟨[.compare "sbj.role" .eq (.string "lead")], [], .deny⟩

def allAllowed : Rule := ⟨[], ["pay"], .allow⟩

def rolesBelow : Rule := ⟨[.compare "sbj.role" .lt (.string "lead")], [], .deny⟩

def clerk : Attributes := ⟨.object [("role", .string "clerk")], .null⟩

/-- Whatever the rules under both wildcards are, those for tasks are not looked at. -/
def clerkGuard (rules taskRules : List Rule) : Guard where
  attributes := clerk
  rulebook := ⟨[("task", [("x_y", taskRules)]), ("*", [("x_*", [leadsDenied]), ("*", rules)])]⟩
  fallback := .deny

theorem check_first_match_clerk :
    (clerkGuard [allAllowed, rolesBelow] [rolesBelow]).check "*" "x_*" =
        .ok ⟨true, some ⟨["pay"], none, .allow⟩⟩ ∧
      (clerkGuard [rolesBelow, allAllowed] []).check "*" "x_*" =
        .error (.typeMismatch (.operandNotANumber .lt (.string "clerk"))) ∧
      (clerkGuard [] [allAllowed]).check "*" "x_*" = .ok ⟨false, none⟩ ∧
      (clerkGuard [allAllowed] [rolesBelow]).check "*" "x_*" =
        (clerkGuard [allAllowed] []).check "*" "x_*" ∧
      (clerkGuard [allAllowed, rolesBelow] []).check "*" "x_*" =
        (clerkGuard [allAllowed] []).check "*" "x_*" := by
  have fails : leadsDenied.Fails clerk :=
    ⟨⟨[], none, .deny⟩, by cbv⟩
  have passes : allAllowed.evaluate clerk =
      .ok (true, ⟨["pay"], none, .allow⟩) := by cbv
  have settles : ¬ allAllowed.Fails clerk := by
    rintro ⟨decision, evaluated⟩
    cases passes.symm.trans evaluated
  refine ⟨?_, ?_, ?_, ?_, ?_⟩
  · exact ((check_first_match (clerkGuard [allAllowed, rolesBelow] [rolesBelow]) "*" "x_*").1
      [leadsDenied] allAllowed [rolesBelow] rfl (List.forall_mem_singleton.2 fails)).1 _ passes
  · exact ((check_first_match (clerkGuard [rolesBelow, allAllowed] []) "*" "x_*").1
      [leadsDenied] rolesBelow [allAllowed] rfl (List.forall_mem_singleton.2 fails)).2 _ rfl
  · have under : (clerkGuard [] [allAllowed]).rulebook.rulesUnder (cascade "*" "x_*") =
        [leadsDenied] := rfl
    exact (check_first_match (clerkGuard [] [allAllowed]) "*" "x_*").2.1
      (under ▸ List.forall_mem_singleton.2 fails)
  · refine (check_first_match (clerkGuard [allAllowed] []) "*" "x_*").2.2.1
      (clerkGuard [allAllowed] [rolesBelow]).rulebook fun key hk => ?_
    have keys : cascade "*" "x_*" = [("*", "x_*"), ("*", "*")] := by cbv
    rw [keys, List.mem_pair] at hk
    rcases hk with rfl | rfl <;> rfl
  · exact (check_first_match (clerkGuard [allAllowed] []) "*" "x_*").2.2.2
      (clerkGuard [allAllowed, rolesBelow] []).rulebook [leadsDenied] allAllowed [] [rolesBelow]
      settles rfl rfl

end Guard
end AccessControl
