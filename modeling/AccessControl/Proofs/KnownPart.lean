import AccessControl.Proofs.Cascade
import AccessControl.Proofs.Masking
import AccessControl.Proofs.Policy

/-! What unknown operators do to a decision. The permissive policy keeps entries of such operators; they
pass and leave no filter wherever they stand, be it beside entries that fail, alone in a branch, or in a
conjunction that stops. So whatever a rulebook decides is decided by its known part, the rulebook
without these entries. -/
namespace AccessControl

mutual

/-- The condition without its unknown entries, at every depth. Groups stay, and so do their branches,
also those that nothing is left of. -/
def Condition.knownPart : Condition → Condition
  | [] => []
  | entry :: rest => Entry.knownPart entry ++ Condition.knownPart rest

def Entry.knownPart : Entry → Condition
  | .unknown .. => []
  | .all conditions => [.all (Condition.knownParts conditions)]
  | .any conditions => [.any (Condition.knownParts conditions)]
  | entry => [entry]

def Condition.knownParts : List Condition → List Condition
  | [] => []
  | condition :: rest => Condition.knownPart condition :: Condition.knownParts rest

end

def Rule.knownPart (rule : Rule) : Rule := { rule with condition := rule.condition.knownPart }

def Rulebook.knownPart (book : Rulebook) : Rulebook :=
  ⟨Keyed.mapValues (Keyed.mapValues (List.map Rule.knownPart)) book.resources⟩

def Guard.knownPart (guard : Guard) : Guard := { guard with rulebook := guard.rulebook.knownPart }

mutual

theorem Condition.everywhere_knownPart : (condition : Condition) →
    condition.knownPart.Everywhere Entry.Known
  | [] => Condition.everywhere_nil
  | entry :: rest => by
    rw [Condition.knownPart, Condition.everywhere_append]
    exact ⟨Entry.everywhere_knownPart entry, Condition.everywhere_knownPart rest⟩

theorem Entry.everywhere_knownPart : (entry : Entry) →
    Condition.Everywhere Entry.Known entry.knownPart
  | .unknown .. => Condition.everywhere_nil
  | .all conditions | .any conditions =>
    Condition.everywhere_cons.2
      ⟨trivial, Condition.everywhere_knownParts conditions, Condition.everywhere_nil⟩
  | .compare .. | .oneOf .. =>
    Condition.everywhere_cons.2 ⟨trivial, by simp [Entry.branches], Condition.everywhere_nil⟩

theorem Condition.everywhere_knownParts : (conditions : List Condition) →
    ∀ condition ∈ Condition.knownParts conditions, Condition.Everywhere Entry.Known condition
  | [] => by simp [Condition.knownParts]
  | condition :: rest =>
    List.forall_mem_cons.2
      ⟨Condition.everywhere_knownPart condition, Condition.everywhere_knownParts rest⟩

end

mutual

theorem Condition.knownPart_of_known : (condition : Condition) →
    condition.Everywhere Entry.Known → condition.knownPart = condition
  | [], _ => rfl
  | entry :: rest, known => by
    obtain ⟨first, below, others⟩ := Condition.everywhere_cons.1 known
    rw [Condition.knownPart, Entry.knownPart_of_known entry first below,
      Condition.knownPart_of_known rest others, List.singleton_append]

theorem Entry.knownPart_of_known : (entry : Entry) → entry.Known →
    (∀ branch ∈ entry.branches, Condition.Everywhere Entry.Known branch) → entry.knownPart = [entry]
  | .all conditions, _, below | .any conditions, _, below => by
    rw [Entry.knownPart, Condition.knownParts_of_known conditions below]
  | .compare .., _, _ | .oneOf .., _, _ => rfl

theorem Condition.knownParts_of_known : (conditions : List Condition) →
    (∀ condition ∈ conditions, Condition.Everywhere Entry.Known condition) →
      Condition.knownParts conditions = conditions
  | [], _ => rfl
  | condition :: rest, known => by
    rw [List.forall_mem_cons] at known
    rw [Condition.knownParts, Condition.knownPart_of_known condition known.1,
      Condition.knownParts_of_known rest known.2]

end

variable {attributes : Attributes}

mutual

/-- A condition is evaluated as its known part: to the same residue, or to the same fault. -/
theorem Condition.evaluate_knownPart : (condition : Condition) →
    Condition.evaluate attributes condition.knownPart = Condition.evaluate attributes condition
  | [] => rfl
  | entry :: rest => by
    rw [Condition.knownPart, Condition.evaluate_append, Entry.evaluate_knownPart entry,
      Condition.evaluate_knownPart rest, Condition.evaluate]

theorem Entry.evaluate_knownPart : (entry : Entry) →
    Condition.evaluate attributes entry.knownPart = Entry.evaluate attributes entry
  | .all conditions => by
    rw [Entry.knownPart, Condition.evaluate_singleton, Entry.evaluate, Entry.evaluate,
      Condition.evaluateAll_knownParts conditions]
  | .any conditions => by
    rw [Entry.knownPart, Condition.evaluate_singleton, Entry.evaluate, Entry.evaluate,
      Condition.evaluateAny_knownParts conditions]
  | .compare .. | .oneOf .. => Condition.evaluate_singleton _
  | .unknown .. => rfl

theorem Condition.evaluateAll_knownParts : (conditions : List Condition) →
    Condition.evaluateAll attributes (Condition.knownParts conditions) =
      Condition.evaluateAll attributes conditions
  | [] => rfl
  | condition :: rest => by
    rw [Condition.knownParts, Condition.evaluateAll, Condition.evaluateAll,
      Condition.evaluate_knownPart condition, Condition.evaluateAll_knownParts rest]

theorem Condition.evaluateAny_knownParts : (conditions : List Condition) →
    Condition.evaluateAny attributes (Condition.knownParts conditions) =
      Condition.evaluateAny attributes conditions
  | [] => rfl
  | condition :: rest => by
    rw [Condition.knownParts, Condition.evaluateAny, Condition.evaluateAny,
      Condition.evaluate_knownPart condition, Condition.evaluateAny_knownParts rest]

end

theorem Rule.evaluate_knownPart (rule : Rule) :
    rule.knownPart.evaluate attributes = rule.evaluate attributes := by
  rw [evaluate, evaluate, knownPart, Condition.evaluate_knownPart]

namespace Rulebook

theorem get?_knownPart (book : Rulebook) (resource action : String) :
    book.knownPart.get? resource action =
      (book.get? resource action).map (List.map Rule.knownPart) := by
  simp only [get?, knownPart, Keyed.get?_mapValues, Option.bind_eq_bind]
  cases Keyed.get? resource book.resources with
  | none => rfl
  | some actions => exact Keyed.get?_mapValues _ action actions

theorem candidates_knownPart (book : Rulebook) (resource action : String) :
    book.knownPart.candidates resource action = (book.candidates resource action).map Rule.knownPart := by
  rw [candidates, candidates, List.map_flatMap]
  congr
  funext key
  rw [get?_knownPart]
  cases book.get? key.1 key.2 <;> rfl

end Rulebook

namespace Guard

theorem check_knownPart (guard : Guard) (resource action : String) :
    guard.knownPart.check resource action = guard.check resource action := by
  have found : firstDecision guard.attributes ((guard.rulebook.candidates resource action).map
      Rule.knownPart) = firstDecision guard.attributes (guard.rulebook.candidates resource action) :=
    firstDecision_of_forall₂ (List.forall₂_map_left_iff.2
      (List.forall₂_same.2 fun rule _ => rule.evaluate_knownPart))
  rw [check, check, knownPart, Rulebook.candidates_knownPart, found]

theorem checkRecord_knownPart (guard : Guard) (record : Record) (action : String) :
    guard.knownPart.checkRecord record action = guard.checkRecord record action := by
  rw [checkRecord, checkRecord, check_knownPart, knownPart]

/-- Unknown entries are neutral. The known part of a condition has none of them, at any depth, and is the
condition itself where there were none. Evaluating it gives the same result and the same filters in the
same order, or fails with the same fault; and so a guard with the known part of its rulebook decides
every request, decides on every record and masks every record as the guard itself does. -/
theorem unknown_neutral :
    (∀ condition : Condition, condition.knownPart.Everywhere Entry.Known ∧
      (condition.Everywhere Entry.Known → condition.knownPart = condition) ∧
      ∀ attributes, Condition.evaluate attributes condition.knownPart =
        Condition.evaluate attributes condition) ∧
    ∀ (guard : Guard) (action : String),
      (∀ resource, guard.knownPart.check resource action = guard.check resource action) ∧
      (∀ record, guard.knownPart.checkRecord record action = guard.checkRecord record action) ∧
      ∀ record, guard.knownPart.mask action record = guard.mask action record := by
  refine ⟨fun condition => ⟨condition.everywhere_knownPart, condition.knownPart_of_known,
    fun _ => condition.evaluate_knownPart⟩, fun guard action => ⟨?_, ?_, ?_⟩⟩
  · exact fun resource => check_knownPart guard resource action
  · exact fun record => checkRecord_knownPart guard record action
  · exact mask_congr fun record => checkRecord_knownPart guard record action

end Guard

end AccessControl
