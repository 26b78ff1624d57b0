import AccessControl.Proofs.Residue

/-! Conditions as trees: what holds at every depth, what a disjunction leaves of its branches, and
where the filters come from that a condition leaves. -/
namespace AccessControl

def Entry.branches : Entry → List Condition
  | .all conditions | .any conditions => conditions
  | _ => []

def Entry.isGroup : Entry → Bool
  | .all _ | .any _ => true
  | _ => false

/-- Every entry of a condition has a property, at every depth of its groups. -/
inductive Condition.Everywhere (p : Entry → Prop) : Condition → Prop where
  | intro {condition : Condition} (here : ∀ entry ∈ condition, p entry)
      (below : ∀ entry ∈ condition, ∀ branch ∈ entry.branches, Everywhere p branch) :
      Everywhere p condition

namespace Condition

variable {p q : Entry → Prop} {condition : Condition}

@[simp] theorem everywhere_nil : Everywhere p [] := .intro (by simp) (by simp)

theorem everywhere_cons {entry : Entry} {rest : Condition} :
    Everywhere p (entry :: rest) ↔
      p entry ∧ (∀ branch ∈ entry.branches, Everywhere p branch) ∧ Everywhere p rest := by
  constructor
  · rintro ⟨here, below⟩
    rw [List.forall_mem_cons] at here below
    exact ⟨here.1, below.1, .intro here.2 below.2⟩
  · rintro ⟨first, branches, ⟨here, below⟩⟩
    exact .intro (List.forall_mem_cons.2 ⟨first, here⟩) (List.forall_mem_cons.2 ⟨branches, below⟩)

theorem everywhere_append {others : Condition} :
    Everywhere p (condition ++ others) ↔ Everywhere p condition ∧ Everywhere p others := by
  induction condition with
  | nil => simp
  | cons entry rest ih => rw [List.cons_append, everywhere_cons, everywhere_cons, ih, and_assoc,
      and_assoc]

mutual

theorem everywhere_of_forall (h : ∀ entry, p entry) : (condition : Condition) → Everywhere p condition
  | [] => everywhere_nil
  | entry :: rest =>
    everywhere_cons.2 ⟨h entry, branches_everywhere h entry, everywhere_of_forall h rest⟩

theorem branches_everywhere (h : ∀ entry, p entry) : (entry : Entry) →
    ∀ branch ∈ entry.branches, Everywhere p branch
  | .all conditions | .any conditions => forall_everywhere h conditions
  | .compare .. | .oneOf .. | .unknown .. => by simp [Entry.branches]

theorem forall_everywhere (h : ∀ entry, p entry) : (conditions : List Condition) →
    ∀ condition ∈ conditions, Everywhere p condition
  | [] => by simp
  | condition :: rest =>
    List.forall_mem_cons.2 ⟨everywhere_of_forall h condition, forall_everywhere h rest⟩

end

theorem Everywhere.mono (all : Everywhere p condition) (h : ∀ entry, p entry → q entry) :
    Everywhere q condition := by
  induction all with
  | intro here _ ih => exact .intro (fun entry hm => h entry (here entry hm)) ih

theorem Everywhere.and (all : Everywhere p condition) (others : Everywhere q condition) :
    Everywhere (fun entry => p entry ∧ q entry) condition := by
  induction all with
  | intro here _ ih =>
    obtain ⟨also, deeper⟩ := others
    exact .intro (fun entry hm => ⟨here entry hm, also entry hm⟩)
      fun entry hm branch hb => ih entry hm branch hb (deeper entry hm branch hb)

end Condition

namespace Residue

/-- What a condition leaves of what its entries leave. -/
def meet (residues : List Residue) : Residue :=
  ⟨residues.all passed, residues.flatMap filters⟩

theorem meet_append (residues others : List Residue) :
    meet (residues ++ others) = (meet residues).both (meet others) := by
  simp [meet, both]

def join (residues : List Residue) : Residue :=
  ⟨residues.any passed, residues.flatMap filters⟩

variable {data : Json} {residues : List Residue}

theorem Decided.join (h : ∀ residue ∈ residues, residue.Decided data) :
    (join residues).Decided data := by
  intro filter hm
  obtain ⟨residue, hr, hf⟩ := List.mem_flatMap.1 hm
  exact h residue hr filter hf

/-- A disjunction asks for some branch that has passed and, where any filter is left, for some
filter that holds; the two need not belong together. -/
theorem holds_disjunction (h : ∀ residue ∈ residues, residue.Decided data) :
    ((join residues).group .any).Holds data ↔
      (∃ residue ∈ residues, residue.passed = true) ∧
        ((∀ residue ∈ residues, residue.filters = []) ∨
          ∃ residue ∈ residues, ∃ filter ∈ residue.filters, filter.holds data = .ok true) := by
  rw [holds_group_any (Decided.join h)]
  simp only [join, List.any_eq_true, List.flatMap_eq_nil_iff, List.mem_flatMap]
  refine and_congr Iff.rfl (or_congr Iff.rfl ⟨?_, ?_⟩)
  · rintro ⟨filter, ⟨residue, hr, hf⟩, hh⟩
    exact ⟨residue, hr, filter, hf, hh⟩
  · rintro ⟨residue, hr, filter, hf, hh⟩
    exact ⟨filter, ⟨residue, hr, hf⟩, hh⟩

/-- No branch leaves a filter, or each branch that has passed leaves one and no other leaves any. -/
def Paired (residues : List Residue) : Prop :=
  (∀ residue ∈ residues, residue.filters = []) ∨
    ∀ residue ∈ residues,
      if residue.passed then ∃ filter, residue.filters = [filter] else residue.filters = []

/-- Filters that belong to their branches one by one make the group the disjunction of them. -/
theorem holds_disjunction_iff_exists (h : ∀ residue ∈ residues, residue.Decided data)
    (paired : Paired residues) :
    ((join residues).group .any).Holds data ↔ ∃ residue ∈ residues, residue.Holds data := by
  rw [holds_disjunction h]
  rcases paired with none | one
  · constructor
    · rintro ⟨⟨residue, hr, hp⟩, -⟩
      exact ⟨residue, hr, hp, by simp [none residue hr]⟩
    · rintro ⟨residue, hr, hp, -⟩
      exact ⟨⟨residue, hr, hp⟩, .inl none⟩
  · constructor
    · rintro ⟨⟨residue, hr, hp⟩, left⟩
      have hone := one residue hr
      rw [if_pos hp] at hone
      obtain ⟨own, ho⟩ := hone
      rcases left with none | ⟨other, hm, filter, hf, hh⟩
      · simp [none residue hr] at ho
      · have hother := one other hm
        split at hother
        · rename_i passed
          obtain ⟨only, hl⟩ := hother
          refine ⟨other, hm, passed, ?_⟩
          rw [hl, List.mem_singleton] at hf
          simpa [hl, ← hf] using hh
        · simp [hother] at hf
    · rintro ⟨residue, hr, hp, hh⟩
      have hone := one residue hr
      rw [if_pos hp] at hone
      obtain ⟨own, ho⟩ := hone
      have hm : own ∈ residue.filters := by simp [ho]
      exact ⟨⟨residue, hr, hp⟩, .inr ⟨residue, hr, own, hm, hh own hm⟩⟩

end Residue

variable {attributes : Attributes}

theorem Condition.evaluate_eq_mapM (condition : Condition) :
    Condition.evaluate attributes condition =
      (do return Residue.meet (← condition.mapM (Entry.evaluate attributes))) := by
  induction condition with
  | nil => rfl
  | cons entry rest ih =>
    rw [Condition.evaluate, ih, List.mapM_cons]
    cases Entry.evaluate attributes entry with
    | error fault => rfl
    | ok first => cases rest.mapM (Entry.evaluate attributes) <;> rfl

theorem Condition.evaluate_append (condition others : Condition) :
    Condition.evaluate attributes (condition ++ others) = (do
      return (← Condition.evaluate attributes condition).both
        (← Condition.evaluate attributes others)) := by
  simp only [Condition.evaluate_eq_mapM, List.mapM_append]
  cases condition.mapM (Entry.evaluate attributes) with
  | error fault => rfl
  | ok residues =>
    cases others.mapM (Entry.evaluate attributes) with
    | error fault => rfl
    | ok more => exact congrArg Except.ok (Residue.meet_append residues more)

theorem Condition.evaluate_singleton (entry : Entry) :
    Condition.evaluate attributes [entry] = Entry.evaluate attributes entry := by
  rw [Condition.evaluate, Condition.evaluate]
  cases Entry.evaluate attributes entry with
  | error fault => rfl
  | ok residue =>
    have alone : residue.both .pass = residue := by simp [Residue.both, Residue.pass]
    exact congrArg Except.ok alone

theorem Condition.evaluateAny_eq_mapM (conditions : List Condition) :
    Condition.evaluateAny attributes conditions =
      (do return Residue.join (← conditions.mapM (Condition.evaluate attributes))) := by
  induction conditions with
  | nil => rfl
  | cons condition rest ih =>
    rw [Condition.evaluateAny, ih, List.mapM_cons]
    cases Condition.evaluate attributes condition with
    | error fault => rfl
    | ok first => cases rest.mapM (Condition.evaluate attributes) <;> rfl

theorem Entry.evaluate_any {conditions : List Condition} {residues : List Residue}
    (h : conditions.mapM (Condition.evaluate attributes) = .ok residues) :
    Entry.evaluate attributes (.any conditions) = .ok ((Residue.join residues).group .any) := by
  simp [Entry.evaluate, Condition.evaluateAny_eq_mapM, h]

section

variable {p : Filter → Prop} {condition : Condition} {conditions : List Condition} {residue : Residue}

theorem Condition.forall_filters_of_entries
    (left : ∀ entry ∈ condition, ∀ residue, Entry.evaluate attributes entry = .ok residue →
      ∀ filter ∈ residue.filters, p filter)
    (evaluated : Condition.evaluate attributes condition = .ok residue) :
    ∀ filter ∈ residue.filters, p filter := by
  simp only [Condition.evaluate_eq_mapM, bind_eq_ok_iff, pure_eq_ok_iff] at evaluated
  obtain ⟨residues, hr, rfl⟩ := evaluated
  intro filter hm
  obtain ⟨first, hf, hm⟩ := List.mem_flatMap.1 hm
  obtain ⟨entry, he, made⟩ := exists_of_mem_mapM hr hf
  exact left entry he first made filter hm

theorem Condition.forall_filters_evaluateAll
    (left : ∀ condition ∈ conditions, ∀ residue,
      Condition.evaluate attributes condition = .ok residue → ∀ filter ∈ residue.filters, p filter)
    (evaluated : Condition.evaluateAll attributes conditions = .ok residue) :
    ∀ filter ∈ residue.filters, p filter := by
  induction conditions generalizing residue with
  | nil =>
    obtain rfl : Residue.pass = residue := Except.ok.inj evaluated
    simp [Residue.pass]
  | cons condition rest ih =>
    rw [List.forall_mem_cons] at left
    simp only [Condition.evaluateAll, bind_eq_ok_iff] at evaluated
    obtain ⟨first, hf, evaluated⟩ := evaluated
    split at evaluated
    · simp only [bind_eq_ok_iff, pure_eq_ok_iff] at evaluated
      obtain ⟨others, ho, rfl⟩ := evaluated
      split
      · rw [Residue.both, List.forall_mem_append]
        exact ⟨left.1 first hf, ih left.2 ho⟩
      · simp [Residue.fail]
    · obtain rfl := pure_eq_ok_iff.1 evaluated
      simp [Residue.fail]

theorem Condition.forall_filters_evaluateAny
    (left : ∀ condition ∈ conditions, ∀ residue,
      Condition.evaluate attributes condition = .ok residue → ∀ filter ∈ residue.filters, p filter)
    (evaluated : Condition.evaluateAny attributes conditions = .ok residue) :
    ∀ filter ∈ residue.filters, p filter := by
  simp only [Condition.evaluateAny_eq_mapM, bind_eq_ok_iff, pure_eq_ok_iff] at evaluated
  obtain ⟨residues, hr, rfl⟩ := evaluated
  intro filter hm
  obtain ⟨branch, hb, hf⟩ := List.mem_flatMap.1 hm
  obtain ⟨condition, hc, made⟩ := exists_of_mem_mapM hr hb
  exact left condition hc branch made filter hf

/-- A property of what comparisons and memberships leave, that groups of filters keep, is one of all
filters that a condition leaves. No group is left empty. -/
theorem Condition.forall_filters
    (all : ∀ children, children ≠ [] → (∀ child ∈ children, p child) → p (.all children))
    (any : ∀ children, children ≠ [] → (∀ child ∈ children, p child) → p (.any children))
    (left : condition.Everywhere fun entry => entry.isGroup = false → ∀ residue,
      Entry.evaluate attributes entry = .ok residue → ∀ filter ∈ residue.filters, p filter)
    (evaluated : Condition.evaluate attributes condition = .ok residue) :
    ∀ filter ∈ residue.filters, p filter := by
  induction left generalizing residue with
  | intro here _ ih =>
    refine forall_filters_of_entries (fun entry hm residue evaluated => ?_) evaluated
    have below := ih entry hm
    cases entry with
    | all conditions =>
      simp only [Entry.evaluate, bind_eq_ok_iff, pure_eq_ok_iff] at evaluated
      obtain ⟨inner, hi, rfl⟩ := evaluated
      exact Residue.forall_filters_group.2 fun some => all _ some
        (forall_filters_evaluateAll (fun condition hc _ made => below condition hc made) hi)
    | any conditions =>
      simp only [Entry.evaluate, bind_eq_ok_iff, pure_eq_ok_iff] at evaluated
      obtain ⟨inner, hi, rfl⟩ := evaluated
      exact Residue.forall_filters_group.2 fun some => any _ some
        (forall_filters_evaluateAny (fun condition hc _ made => below condition hc made) hi)
    | compare | oneOf | unknown => exact here _ hm rfl residue evaluated

end

end AccessControl
