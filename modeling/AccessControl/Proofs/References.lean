import AccessControl.Proofs.Cascade
import AccessControl.Proofs.Condition
import AccessControl.Proofs.Masking

/-! Which attributes a decision depends on. An entry refers to an attribute by its operand, or by its
value if that is a reference as a whole. Two guards with one rulebook and one fallback decide alike,
and mask alike, if their attributes agree on all that the rules refer to; nothing else is looked up,
be it written like a reference or not. -/
namespace AccessControl

/-- The attributes that an entry refers to itself. A text inside of a list or under an operator is
none of them, whatever it looks like. -/
def Entry.references : Entry → List (Bag × String)
  | .compare operand _ value | .oneOf operand value =>
    (Json.string operand).reference?.toList ++ value.reference?.toList
  | _ => []

/-- Both have the same attribute there. A missing one counts as `null`. -/
def Attributes.AgreeOn (attributes other : Attributes) (reference : Bag × String) : Prop :=
  (attributes.resolve? reference.1 reference.2).getD .null =
    (other.resolve? reference.1 reference.2).getD .null

variable {attributes other : Attributes}

theorem Attributes.substitute_congr {value : Json}
    (agree : ∀ reference ∈ value.reference?.toList, attributes.AgreeOn other reference) :
    attributes.substitute value = other.substitute value := by
  rw [substitute, substitute]
  cases refers : value.reference? with
  | none => rfl
  | some reference => exact agree reference (by simp [refers])

theorem Attributes.operand_congr {operand : String}
    (agree : ∀ reference ∈ (Json.string operand).reference?.toList,
      attributes.AgreeOn other reference) :
    attributes.operand operand = other.operand operand := by
  rw [Attributes.operand, Attributes.operand]
  cases cut : Path.cut? operand with
  | none => rfl
  | some parts =>
    obtain ⟨head, path⟩ := parts
    by_cases deferred : head = recordHead
    · simp only [if_pos deferred]
    · simp only [if_neg deferred]
      cases named : Bag.ofName? head with
      | none => rfl
      | some bag =>
        have refers : (Json.string operand).reference? = some (bag, path) := by
          simp [Json.reference?, Json.string?, cut, named]
        exact congrArg Operand.known (agree (bag, path) (by simp [refers]))

theorem Condition.evaluateAll_congr {conditions : List Condition}
    (same : ∀ condition ∈ conditions,
      Condition.evaluate attributes condition = Condition.evaluate other condition) :
    Condition.evaluateAll attributes conditions = Condition.evaluateAll other conditions := by
  induction conditions with
  | nil => rfl
  | cons condition rest ih =>
    rw [List.forall_mem_cons] at same
    rw [Condition.evaluateAll, Condition.evaluateAll, same.1, ih same.2]

theorem Condition.evaluateAny_congr {conditions : List Condition}
    (same : ∀ condition ∈ conditions,
      Condition.evaluate attributes condition = Condition.evaluate other condition) :
    Condition.evaluateAny attributes conditions = Condition.evaluateAny other conditions := by
  induction conditions with
  | nil => rfl
  | cons condition rest ih =>
    rw [List.forall_mem_cons] at same
    rw [Condition.evaluateAny, Condition.evaluateAny, same.1, ih same.2]

theorem Entry.evaluate_congr {entry : Entry}
    (agree : ∀ reference ∈ entry.references, attributes.AgreeOn other reference)
    (below : ∀ branch ∈ entry.branches,
      Condition.evaluate attributes branch = Condition.evaluate other branch) :
    Entry.evaluate attributes entry = Entry.evaluate other entry := by
  cases entry with
  | compare operand operator value =>
    rw [references, List.forall_mem_append] at agree
    rw [Entry.evaluate, Entry.evaluate, Attributes.operand_congr agree.1,
      Attributes.substitute_congr agree.2]
  | oneOf operand values =>
    rw [references, List.forall_mem_append] at agree
    rw [Entry.evaluate, Entry.evaluate, Attributes.operand_congr agree.1,
      Attributes.substitute_congr agree.2]
  | all conditions =>
    have branches : Condition.evaluateAll attributes conditions =
        Condition.evaluateAll other conditions := Condition.evaluateAll_congr below
    rw [Entry.evaluate, Entry.evaluate, branches]
  | any conditions =>
    have branches : Condition.evaluateAny attributes conditions =
        Condition.evaluateAny other conditions := Condition.evaluateAny_congr below
    rw [Entry.evaluate, Entry.evaluate, branches]
  | unknown operand operator value => rfl

theorem Condition.evaluate_congr_of_entries {condition : Condition}
    (same : ∀ entry ∈ condition, Entry.evaluate attributes entry = Entry.evaluate other entry) :
    Condition.evaluate attributes condition = Condition.evaluate other condition := by
  induction condition with
  | nil => rfl
  | cons entry rest ih =>
    rw [List.forall_mem_cons] at same
    rw [Condition.evaluate, Condition.evaluate, same.1, ih same.2]

theorem Condition.evaluate_congr {condition : Condition}
    (agree : condition.Everywhere fun entry =>
      ∀ reference ∈ entry.references, attributes.AgreeOn other reference) :
    Condition.evaluate attributes condition = Condition.evaluate other condition := by
  induction agree with
  | intro here _ ih =>
    exact evaluate_congr_of_entries fun entry hm => Entry.evaluate_congr (here entry hm) (ih entry hm)

theorem firstDecision_congr {rules : List Rule}
    (same : ∀ rule ∈ rules, rule.evaluate attributes = rule.evaluate other) :
    firstDecision attributes rules = firstDecision other rules :=
  firstDecision_of_forall₂ (List.forall₂_same.2 same)

namespace Guard

/-- Decisions depend on the attributes through the references of the rules alone. Where two sets of
attributes agree on all references that occur in a rulebook, at any depth, requests are decided alike,
records are decided alike, and records are masked alike, faults included. What an attribute holds is
data: where it looks like a reference, what it seems to refer to has no influence. -/
theorem decisions_congr {book : Rulebook} (fallback : Resolution)
    (agree : ∀ rule ∈ book.rules, rule.condition.Everywhere fun entry =>
      ∀ reference ∈ entry.references, attributes.AgreeOn other reference) :
    (∀ resource action, check ⟨attributes, book, fallback⟩ resource action =
      check ⟨other, book, fallback⟩ resource action) ∧
    (∀ record action, checkRecord ⟨attributes, book, fallback⟩ record action =
      checkRecord ⟨other, book, fallback⟩ record action) ∧
    ∀ action record, mask ⟨attributes, book, fallback⟩ action record =
      mask ⟨other, book, fallback⟩ action record := by
  have evaluated : ∀ rule ∈ book.rules, rule.evaluate attributes = rule.evaluate other := by
    intro rule hm
    rw [Rule.evaluate, Rule.evaluate, Condition.evaluate_congr (agree rule hm)]
  have checks (resource action : String) : check ⟨attributes, book, fallback⟩ resource action =
      check ⟨other, book, fallback⟩ resource action := by
    have found : firstDecision attributes (book.candidates resource action) =
        firstDecision other (book.candidates resource action) :=
      firstDecision_congr fun rule hm => evaluated rule (Rulebook.mem_rules_of_mem_candidates hm)
    simp only [check, found]
  have judges (record : Record) (action : String) :
      checkRecord ⟨attributes, book, fallback⟩ record action =
        checkRecord ⟨other, book, fallback⟩ record action := by
    simp only [checkRecord, checks]
  exact ⟨checks, judges, fun action => mask_congr fun record => judges record action⟩

def gradeAttributes (grade : Json) : Attributes :=
  ⟨.object [("boss", .string "sbj.grade"), ("grade", grade)], .null⟩

/-- The text `sbj.grade` stands for itself wherever it is in these rules. -/
def gradeBook : Rulebook :=
  ⟨[("paper", [("get",
    [⟨[.compare "sbj.boss" .not (.object [("eq", .string "sbj.grade")])], [], .deny⟩,
      ⟨[.any [[.oneOf "sbj.boss" (.array [.string "sbj.grade"])],
        [.compare "obj.author" .eq (.string "sbj.boss")]]], [], .allow⟩])])]⟩

def paperRecord : Record := ⟨⟨"paper", []⟩, [("author", .scalar (.string "sbj.grade"))]⟩

theorem decisions_congr_grade :
    (∀ rule ∈ gradeBook.rules, rule.condition.Everywhere fun entry => ∀ reference ∈ entry.references,
      (gradeAttributes .null).AgreeOn (gradeAttributes (.string "lead")) reference) ∧
    checkRecord ⟨gradeAttributes .null, gradeBook, .deny⟩ paperRecord "get" =
      .ok ⟨true, some ⟨[], some (.all [.any [.compare .eq "author" (.string "sbj.grade")]]), .allow⟩⟩ ∧
    checkRecord ⟨gradeAttributes .null, gradeBook, .deny⟩ paperRecord "get" =
      checkRecord ⟨gradeAttributes (.string "lead"), gradeBook, .deny⟩ paperRecord "get" := by
  have agree : ∀ rule ∈ gradeBook.rules, rule.condition.Everywhere fun entry =>
      ∀ reference ∈ entry.references,
        (gradeAttributes .null).AgreeOn (gradeAttributes (.string "lead")) reference := by
    have boss : (Json.string "sbj.boss").reference? = some (.subject, "boss") := by cbv
    have author : (Json.string "obj.author").reference? = none := by cbv
    have list : (Json.array [.string "sbj.grade"]).reference? = none := rfl
    have nested : (Json.object [("eq", .string "sbj.grade")]).reference? = none := rfl
    have same : (gradeAttributes .null).AgreeOn (gradeAttributes (.string "lead"))
        (.subject, "boss") := by cbv
    simp [gradeBook, Rulebook.rules, Condition.everywhere_cons, Entry.branches, Entry.references,
      boss, author, list, nested, same]
  exact ⟨agree, by cbv, (decisions_congr .deny agree).2.1 paperRecord "get"⟩

end Guard

end AccessControl
