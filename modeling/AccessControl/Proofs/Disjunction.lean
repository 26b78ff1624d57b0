import AccessControl.Proofs.Condition

/-! What a disjunction holds of. All branches are evaluated, and the filters of all of them, failed
ones included, are pooled in one filter. So a disjunction holds of a record if some branch has passed
and some filter of the pool holds; it is the disjunction of its branches only where the filters
belong to them one by one. -/
namespace AccessControl

/-- A condition holds of a record after both stages. -/
def Condition.HoldsOn (attributes : Attributes) (data : Json) (condition : Condition) : Prop :=
  ∃ residue, Condition.evaluate attributes condition = .ok residue ∧ residue.Holds data

def Entry.HoldsOn (attributes : Attributes) (data : Json) (entry : Entry) : Prop :=
  ∃ residue, Entry.evaluate attributes entry = .ok residue ∧ residue.Holds data

section

variable {attributes : Attributes} {data : Json} {conditions : List Condition}
  {residues : List Residue}

theorem Entry.holdsOn_any_iff (h : conditions.mapM (Condition.evaluate attributes) = .ok residues) :
    Entry.HoldsOn attributes data (.any conditions) ↔
      ((Residue.join residues).group .any).Holds data := by
  simp [Entry.HoldsOn, Entry.evaluate_any h]

theorem exists_holdsOn_iff (h : conditions.mapM (Condition.evaluate attributes) = .ok residues) :
    (∃ condition ∈ conditions, Condition.HoldsOn attributes data condition) ↔
      ∃ residue ∈ residues, residue.Holds data := by
  rw [mapM_eq_ok_iff] at h
  induction h with
  | nil => simp
  | @cons condition residue rest residues hc _ ih =>
    have first : Condition.HoldsOn attributes data condition ↔ residue.Holds data := by
      simp [Condition.HoldsOn, hc]
    simp only [List.exists_mem_cons_iff, ih, first]

/-- A disjunction whose branches can all be evaluated leaves at most one filter. On a record on which
none of their filters fails, it holds just if some branch has passed and, where any branch left a
filter, some filter of some branch holds. That is to hold of some branch if no branch left a filter,
or if each branch that has passed left one filter and no other left any. -/
theorem any_holds_iff_pooled
    (evaluated : conditions.mapM (Condition.evaluate attributes) = .ok residues)
    (decided : ∀ residue ∈ residues, ∀ filter ∈ residue.filters,
      ∃ held, filter.holds data = .ok held) :
    (∃ passed left,
        Entry.evaluate attributes (.any conditions) = .ok ⟨passed, Option.toList left⟩) ∧
      (Entry.HoldsOn attributes data (.any conditions) ↔
        (∃ residue ∈ residues, residue.passed = true) ∧
          ((∀ residue ∈ residues, residue.filters = []) ∨
            ∃ residue ∈ residues, ∃ filter ∈ residue.filters, filter.holds data = .ok true)) ∧
      (Residue.Paired residues →
        (Entry.HoldsOn attributes data (.any conditions) ↔
          ∃ condition ∈ conditions, Condition.HoldsOn attributes data condition)) := by
  refine ⟨⟨_, _, Entry.evaluate_any evaluated⟩, ?_, fun paired => ?_⟩
  · rw [Entry.holdsOn_any_iff evaluated]
    exact Residue.holds_disjunction decided
  · rw [Entry.holdsOn_any_iff evaluated, exists_holdsOn_iff evaluated]
    exact Residue.holds_disjunction_iff_exists decided paired

end

/-- Every condition can be evaluated, and none of the filters left fails on the record. -/
def BranchesDecided (attributes : Attributes) (data : Json) (conditions : List Condition) : Prop :=
  ∃ residues, conditions.mapM (Condition.evaluate attributes) = .ok residues ∧
    ∀ residue ∈ residues, residue.Decided data

def leadOfRed : Attributes := ⟨.object [("role", .string "lead"), ("team", .string "red")], .null⟩

def blueTask : Json := .object [("team", .string "blue"), ("state", .string "open")]

def leadOrMember : List Condition :=
  [[.compare "sbj.role" .eq (.string "lead")], [.compare "obj.team" .eq (.string "sbj.team")]]

def memberOfOpen : List Condition :=
  [[.compare "obj.team" .eq (.string "sbj.team"), .compare "obj.state" .eq (.string "open")]]

def ofTeam : Filter := .compare .eq "team" (.string "red")

def isOpen : Filter := .compare .eq "state" (.string "open")

theorem evaluate_leadOrMember : leadOrMember.mapM (Condition.evaluate leadOfRed)
    = .ok [⟨true, []⟩, ⟨true, [ofTeam]⟩] := by cbv

theorem decided_leadOrMember : ∀ residue ∈ [⟨true, []⟩, ⟨true, [ofTeam]⟩],
    Residue.Decided blueTask residue := by
  have foreign : ofTeam.holds blueTask = .ok false := by cbv
  simp [Residue.Decided, Filter.Decided, foreign]

theorem any_holds_iff_pooled_lead :
    (∃ passed left,
        Entry.evaluate leadOfRed (.any leadOrMember) = .ok ⟨passed, Option.toList left⟩) ∧
      (Entry.HoldsOn leadOfRed blueTask (.any leadOrMember) ↔
        (∃ residue ∈ [⟨true, []⟩, ⟨true, [ofTeam]⟩], Residue.passed residue = true) ∧
          ((∀ residue ∈ [⟨true, []⟩, ⟨true, [ofTeam]⟩], Residue.filters residue = []) ∨
            ∃ residue ∈ [⟨true, []⟩, ⟨true, [ofTeam]⟩], ∃ filter ∈ Residue.filters residue,
              filter.holds blueTask = .ok true)) ∧
      (Residue.Paired [⟨true, []⟩, ⟨true, [ofTeam]⟩] →
        (Entry.HoldsOn leadOfRed blueTask (.any leadOrMember) ↔
          ∃ condition ∈ leadOrMember, Condition.HoldsOn leadOfRed blueTask condition)) :=
  any_holds_iff_pooled evaluate_leadOrMember decided_leadOrMember

/-- A branch that holds by the subject alone is held up by the filter of another branch, and a
branch that needs two filters is let pass by one of them. -/
theorem any_not_its_branches :
    (¬ ∀ attributes data conditions, BranchesDecided attributes data conditions →
        (∃ condition ∈ conditions, Condition.HoldsOn attributes data condition) →
          Entry.HoldsOn attributes data (.any conditions)) ∧
      ¬ ∀ attributes data conditions, BranchesDecided attributes data conditions →
        Entry.HoldsOn attributes data (.any conditions) →
          ∃ condition ∈ conditions, Condition.HoldsOn attributes data condition := by
  have foreign : ofTeam.holds blueTask = .ok false := by cbv
  constructor
  · intro law
    have h := law leadOfRed blueTask leadOrMember
      ⟨_, evaluate_leadOrMember, decided_leadOrMember⟩
    rw [exists_holdsOn_iff evaluate_leadOrMember, Entry.holdsOn_any_iff evaluate_leadOrMember,
      Residue.holds_disjunction decided_leadOrMember] at h
    simp [Residue.Holds, foreign] at h
  · intro law
    have openNow : isOpen.holds blueTask = .ok true := by cbv
    have evaluated : memberOfOpen.mapM (Condition.evaluate leadOfRed)
        = .ok [⟨true, [ofTeam, isOpen]⟩] := by cbv
    have decided : ∀ residue ∈ [⟨true, [ofTeam, isOpen]⟩],
        Residue.Decided blueTask residue := by
      simp [Residue.Decided, Filter.Decided, foreign, openNow]
    have h := law leadOfRed blueTask memberOfOpen ⟨_, evaluated, decided⟩
    rw [exists_holdsOn_iff evaluated, Entry.holdsOn_any_iff evaluated,
      Residue.holds_disjunction decided] at h
    simp [Residue.Holds, foreign, openNow] at h

end AccessControl
