import AccessControl.Proofs.Disjunction
import AccessControl.Proofs.FilterTree

/-! The order of entries. Conditions that differ in the order of their entries and of the branches of
their disjunctions, at any depth, fail together, pass together and leave the same filters up to order;
these hold of the same records. The branches of a conjunction stay in their order, since it stops at the
first that fails. -/
namespace AccessControl

/-- Lists of filters that are equal up to their order and that of the children of their nodes, at any
depth. -/
inductive Filter.Shuffled : List Filter → List Filter → Prop where
  | perm {filters others : List Filter} (h : filters.Perm others) : Shuffled filters others
  | all {children others : List Filter} (h : Shuffled children others) :
      Shuffled [.all children] [.all others]
  | any {children others : List Filter} (h : Shuffled children others) :
      Shuffled [.any children] [.any others]
  | append {filters others filters' others' : List Filter} (h : Shuffled filters others)
      (h' : Shuffled filters' others') : Shuffled (filters ++ filters') (others ++ others')
  | trans {filters middle others : List Filter} (h : Shuffled filters middle)
      (h' : Shuffled middle others) : Shuffled filters others

/-- Filters of which the same hold of a record: all of them, or any of them. -/
structure Filter.SameVerdict (data : Json) (filters others : List Filter) : Prop where
  leaves : ∀ other ∈ others, other.LeavesDecided data
  all : (∀ filter ∈ filters, filter.holds data = .ok true) ↔
    ∀ other ∈ others, other.holds data = .ok true
  any : (∃ filter ∈ filters, filter.holds data = .ok true) ↔
    ∃ other ∈ others, other.holds data = .ok true

namespace Filter.Shuffled

variable {filters others : List Filter} {data : Json}

theorem refl (filters : List Filter) : Shuffled filters filters := .perm (.refl filters)

theorem symm (h : Shuffled filters others) : Shuffled others filters := by
  induction h with
  | perm h => exact .perm h.symm
  | all _ ih => exact .all ih
  | any _ ih => exact .any ih
  | append _ _ ih ih' => exact .append ih ih'
  | trans _ _ ih ih' => exact .trans ih' ih

theorem length_eq (h : Shuffled filters others) : filters.length = others.length := by
  induction h with
  | perm h => exact h.length_eq
  | all _ _ | any _ _ => rfl
  | append _ _ ih ih' => rw [List.length_append, List.length_append, ih, ih']
  | trans _ _ ih ih' => exact ih.trans ih'

theorem bundle {node : List Filter → Filter} (h : Shuffled filters others)
    (grouped : Shuffled [node filters] [node others]) :
    Shuffled (Filter.bundle node filters).toList (Filter.bundle node others).toList := by
  cases filters with
  | nil =>
    obtain rfl := List.length_eq_zero_iff.1 h.length_eq.symm
    exact .refl []
  | cons =>
    cases others with
    | nil => cases h.length_eq
    | cons => exact grouped

/-- Shuffled filters hold of the same records, as long as no comparison in them fails. -/
theorem sameVerdict (h : Shuffled filters others)
    (leaves : ∀ filter ∈ filters, filter.LeavesDecided data) : SameVerdict data filters others := by
  induction h with
  | perm h =>
    exact ⟨fun other hm => leaves other (h.mem_iff.2 hm), by simp [h.mem_iff], by simp [h.mem_iff]⟩
  | all _ ih =>
    have below := ih (leavesDecided_all_iff.1 (leaves _ (List.mem_singleton_self _)))
    refine ⟨?_, ?_, ?_⟩
    · simpa [leavesDecided_all_iff] using below.leaves
    · simpa [holds_all_iff] using below.all
    · simpa [holds_all_iff] using below.all
  | any _ ih =>
    have leaves := leavesDecided_any_iff.1 (leaves _ (List.mem_singleton_self _))
    have below := ih leaves
    have here := holds_any_iff fun child hm => (leaves child hm).decided
    have there := holds_any_iff fun child hm => (below.leaves child hm).decided
    refine ⟨?_, ?_, ?_⟩
    · simpa [leavesDecided_any_iff] using below.leaves
    · simpa [here, there] using below.any
    · simpa [here, there] using below.any
  | append _ _ ih ih' =>
    rw [List.forall_mem_append] at leaves
    obtain ⟨first, firstAll, firstAny⟩ := ih leaves.1
    obtain ⟨second, secondAll, secondAny⟩ := ih' leaves.2
    refine ⟨List.forall_mem_append.2 ⟨first, second⟩, ?_, ?_⟩
    · rw [List.forall_mem_append, List.forall_mem_append, firstAll, secondAll]
    · simp only [List.mem_append, or_and_right, exists_or, firstAny, secondAny]
  | trans _ _ ih ih' =>
    have first := ih leaves
    have second := ih' first.leaves
    exact ⟨second.leaves, first.all.trans second.all, first.any.trans second.any⟩

end Filter.Shuffled

structure Residue.Shuffled (residue other : Residue) : Prop where
  passed : residue.passed = other.passed
  filters : Filter.Shuffled residue.filters other.filters

namespace Residue.Shuffled

variable {residue middle other residue' other' : Residue} {residues others : List Residue}

theorem refl (residue : Residue) : Shuffled residue residue := ⟨rfl, .refl _⟩

theorem symm (h : Shuffled residue other) : Shuffled other residue := ⟨h.passed.symm, h.filters.symm⟩

theorem trans (h : Shuffled residue middle) (h' : Shuffled middle other) : Shuffled residue other :=
  ⟨h.passed.trans h'.passed, h.filters.trans h'.filters⟩

theorem both (h : Shuffled residue other) (h' : Shuffled residue' other') :
    Shuffled (residue.both residue') (other.both other') :=
  ⟨congrArg₂ and h.passed h'.passed, h.filters.append h'.filters⟩

theorem either (h : Shuffled residue other) (h' : Shuffled residue' other') :
    Shuffled (residue.either residue') (other.either other') :=
  ⟨congrArg₂ or h.passed h'.passed, h.filters.append h'.filters⟩

theorem group_all (h : Shuffled residue other) : Shuffled (residue.group .all) (other.group .all) :=
  ⟨h.passed, h.filters.bundle h.filters.all⟩

theorem group_any (h : Shuffled residue other) : Shuffled (residue.group .any) (other.group .any) :=
  ⟨h.passed, h.filters.bundle h.filters.any⟩

theorem meet (h : residues.Perm others) : Shuffled (meet residues) (meet others) :=
  ⟨h.all_eq, .perm (h.flatMap_right _)⟩

theorem join (h : residues.Perm others) : Shuffled (join residues) (join others) :=
  ⟨h.any_eq, .perm (h.flatMap_right _)⟩

end Residue.Shuffled

namespace Condition

/-- Conditions that differ in the order of their entries and of the branches of their disjunctions, at
any depth: the least congruence that identifies these. -/
inductive Reordered : Condition → Condition → Prop where
  | entries {condition other : Condition} (h : condition.Perm other) : Reordered condition other
  | branches {conditions others : List Condition} (h : conditions.Perm others) :
      Reordered [.any conditions] [.any others]
  | all (front back : List Condition) {condition other : Condition} (h : Reordered condition other) :
      Reordered [.all (front ++ condition :: back)] [.all (front ++ other :: back)]
  | any (front back : List Condition) {condition other : Condition} (h : Reordered condition other) :
      Reordered [.any (front ++ condition :: back)] [.any (front ++ other :: back)]
  | append {condition other condition' other' : Condition} (h : Reordered condition other)
      (h' : Reordered condition' other') : Reordered (condition ++ condition') (other ++ other')
  | symm {condition other : Condition} (h : Reordered condition other) : Reordered other condition
  | trans {condition middle other : Condition} (h : Reordered condition middle)
      (h' : Reordered middle other) : Reordered condition other

variable {attributes : Attributes} {condition other : Condition} {conditions others : List Condition}

/-- Evaluating the conditions fails for both or leaves the same, up to order. -/
def Matching (attributes : Attributes) (condition other : Condition) : Prop :=
  FailTogether Residue.Shuffled (evaluate attributes condition) (evaluate attributes other)

namespace Matching

theorem refl (condition : Condition) : Matching attributes condition condition :=
  FailTogether.refl .refl _

theorem singleton {entry entry' : Entry}
    (h : FailTogether Residue.Shuffled (Entry.evaluate attributes entry)
      (Entry.evaluate attributes entry')) : Matching attributes [entry] [entry'] :=
  h.bind fun _ _ first => .ok (first.both (.refl _))

theorem evaluateAll (h : List.Forall₂ (Matching attributes) conditions others) :
    FailTogether Residue.Shuffled (evaluateAll attributes conditions)
      (evaluateAll attributes others) := by
  induction h with
  | nil => exact .ok (.refl _)
  | cons first _ ih =>
    refine first.bind fun residue residue' h => ?_
    rw [h.passed]
    split
    · refine ih.bind fun others others' h' => ?_
      rw [h'.passed]
      split
      · exact .ok (h.both h')
      · exact .ok (.refl _)
    · exact .ok (.refl _)

theorem evaluateAny (h : List.Forall₂ (Matching attributes) conditions others) :
    FailTogether Residue.Shuffled (evaluateAny attributes conditions)
      (evaluateAny attributes others) := by
  induction h with
  | nil => exact .ok (.refl _)
  | cons first _ ih =>
    exact first.bind fun _ _ h => ih.bind fun _ _ h' => .ok (h.either h')

theorem among (h : Matching attributes condition other) (front back : List Condition) :
    List.Forall₂ (Matching attributes) (front ++ condition :: back) (front ++ other :: back) :=
  List.rel_append (List.forall₂_same.2 fun branch _ => refl branch)
    (.cons h (List.forall₂_same.2 fun branch _ => refl branch))

end Matching

theorem Reordered.matching (h : Reordered condition other) : Matching attributes condition other := by
  induction h with
  | entries h =>
    rw [Matching, evaluate_eq_mapM, evaluate_eq_mapM]
    exact (FailTogether.mapM_perm h _).bind fun _ _ h => .ok (.meet h)
  | branches h =>
    refine .singleton ?_
    rw [Entry.evaluate, Entry.evaluate, evaluateAny_eq_mapM, evaluateAny_eq_mapM]
    refine FailTogether.bind (r := Residue.Shuffled) ?_ fun _ _ inner => .ok inner.group_any
    exact (FailTogether.mapM_perm h _).bind fun _ _ h => .ok (.join h)
  | all front back _ ih =>
    exact .singleton ((Matching.evaluateAll (ih.among front back)).bind
      fun _ _ inner => .ok inner.group_all)
  | any front back _ ih =>
    exact .singleton ((Matching.evaluateAny (ih.among front back)).bind
      fun _ _ inner => .ok inner.group_any)
  | append _ _ ih ih' =>
    rw [Matching, evaluate_append, evaluate_append]
    exact FailTogether.bind ih fun _ _ first => ih'.bind fun _ _ rest => .ok (first.both rest)
  | symm _ ih => exact FailTogether.symm (fun _ _ => .symm) ih
  | trans _ _ ih ih' => exact FailTogether.trans (fun _ _ _ => .trans) ih ih'

/-- The order of entries does not matter, nor that of the branches of disjunctions, at any depth. Of two
conditions that differ only there, both fail or none does; they pass alike, and their filters are the
same up to order. On a record on which no comparison in the filters of one fails, all of them hold just
if all those of the other hold. -/
theorem evaluate_reordered (attributes : Attributes) (reordered : Reordered condition other) :
    ((∃ fault, evaluate attributes condition = .error fault) ↔
      ∃ fault, evaluate attributes other = .error fault) ∧
    ∀ left right, evaluate attributes condition = .ok left → evaluate attributes other = .ok right →
      left.passed = right.passed ∧ Filter.Shuffled left.filters right.filters ∧
      ∀ data, (∀ filter ∈ left.filters, filter.LeavesDecided data) →
        ((∀ filter ∈ left.filters, filter.holds data = .ok true) ↔
          ∀ filter ∈ right.filters, filter.holds data = .ok true) := by
  have together : Matching attributes condition other := reordered.matching
  refine ⟨FailTogether.error_iff together, fun left right hl hr => ?_⟩
  rw [Matching, hl, hr] at together
  cases together with
  | ok shuffled =>
    exact ⟨shuffled.passed, shuffled.filters,
      fun data leaves => (shuffled.filters.sameVerdict leaves).all⟩

end Condition

def openOrOfTeam : List Condition :=
  [[.compare "obj.state" .eq (.string "open")], [.compare "obj.team" .eq (.string "sbj.team")]]

def isLead : Entry := .compare "sbj.role" .eq (.string "lead")

theorem reordered_openOrOfTeam : Condition.Reordered
    [isLead, .all [[.any openOrOfTeam]]] [.all [[.any openOrOfTeam.reverse]], isLead] :=
  .trans (.entries (.swap ..))
    (.append (.all [] [] (.branches openOrOfTeam.reverse_perm.symm)) (.entries (.refl [isLead])))

theorem Condition.evaluate_reordered_lead :
    Filter.Shuffled [.all [.any [isOpen, ofTeam]]] [.all [.any [ofTeam, isOpen]]] ∧
      ((∀ filter ∈ [Filter.all [.any [isOpen, ofTeam]]], filter.holds blueTask = .ok true) ↔
        ∀ filter ∈ [Filter.all [.any [ofTeam, isOpen]]], filter.holds blueTask = .ok true) := by
  have evaluated : Condition.evaluate leadOfRed [isLead, .all [[.any openOrOfTeam]]]
      = .ok ⟨true, [.all [.any [isOpen, ofTeam]]]⟩ := by cbv
  have evaluated' : Condition.evaluate leadOfRed [.all [[.any openOrOfTeam.reverse]], isLead]
      = .ok ⟨true, [.all [.any [ofTeam, isOpen]]]⟩ := by cbv
  have foreign : ofTeam.holds blueTask = .ok false := by cbv
  have openNow : isOpen.holds blueTask = .ok true := by cbv
  have stateDecided : isOpen.LeavesDecided blueTask :=
    (Filter.leavesDecided_leaf_iff rfl).2 ⟨true, openNow⟩
  have teamDecided : ofTeam.LeavesDecided blueTask :=
    (Filter.leavesDecided_leaf_iff rfl).2 ⟨false, foreign⟩
  have leaves : ∀ filter ∈ [Filter.all [.any [isOpen, ofTeam]]], filter.LeavesDecided blueTask := by
    simp [Filter.leavesDecided_all_iff, Filter.leavesDecided_any_iff, stateDecided, teamDecided]
  obtain ⟨-, shuffled, same⟩ :=
    (Condition.evaluate_reordered leadOfRed reordered_openOrOfTeam).2 _ _ evaluated evaluated'
  exact ⟨shuffled, same blueTask leaves⟩

end AccessControl
