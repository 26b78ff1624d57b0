import AccessControl.Proofs.Disjunction
import AccessControl.Proofs.FilterTree
import AccessControl.Proofs.Path

/-! What a condition emits. Each comparison of an attribute of the record leaves one filter, in the order
of the document, but for those inside of a conjunction that evaluates to false: that one drops all it has
collected. Groups are left out where nothing is in them, and negations are around single comparisons. -/
namespace AccessControl

def recordPath? (operand : String) : Option String :=
  match Path.cut? operand with
  | some (head, path) => if head = recordHead then some path else none
  | none => none

theorem recordPath?_eq_some_iff {operand path : String} :
    recordPath? operand = some path ↔ operand = "obj." ++ path := by
  constructor
  · intro h
    unfold recordPath? at h
    split at h
    · rename_i head rest cut
      obtain ⟨rfl, same⟩ := Option.ite_none_right_eq_some.1 h
      obtain rfl := Option.some.inj same
      exact String.toList_inj.1 (by simpa [recordHead] using Path.cut?_eq_some cut)
    · cases h
  · rintro rfl
    have cut : Path.cut? ("obj." ++ path) = some (recordHead, path) :=
      Path.cut?_of_toList (by decide) (by simp [recordHead])
    simp [recordPath?, cut]

def Operand.path? : Operand → Option String
  | .deferred path => some path
  | .known _ => none

/-- Just the operands with a path into the record are put off. -/
theorem Attributes.path?_operand (attributes : Attributes) (operand : String) :
    (attributes.operand operand).path? = recordPath? operand := by
  unfold Attributes.operand recordPath?
  cases Path.cut? operand with
  | none => rfl
  | some parts =>
    by_cases deferred : parts.1 = recordHead
    · simp only [if_pos deferred, Operand.path?]
    · simp only [if_neg deferred]
      cases Bag.ofName? parts.1 <;> rfl

def Entry.compared? : Entry → Option String
  | .compare operand .. | .oneOf operand _ => some operand
  | _ => none

def Entry.recordPath? (entry : Entry) : Option String :=
  entry.compared?.bind AccessControl.recordPath?

theorem Entry.recordPath?_eq_some_iff {entry : Entry} {path : String} :
    entry.recordPath? = some path ↔ entry.compared? = some ("obj." ++ path) := by
  simp [Entry.recordPath?, Option.bind_eq_some_iff, AccessControl.recordPath?_eq_some_iff]

mutual

/-- The attributes of the record that a condition compares, in the order of its entries. What stands
inside of a conjunction that is dropped does not count. -/
def Condition.recordPaths (dropped : Entry → Bool) : Condition → List String
  | [] => []
  | entry :: rest => Entry.recordPaths dropped entry ++ Condition.recordPaths dropped rest

def Entry.recordPaths (dropped : Entry → Bool) : Entry → List String
  | .all conditions =>
    if dropped (.all conditions) then [] else Condition.listRecordPaths dropped conditions
  | .any conditions => Condition.listRecordPaths dropped conditions
  | entry => entry.recordPath?.toList

def Condition.listRecordPaths (dropped : Entry → Bool) : List Condition → List String
  | [] => []
  | condition :: rest =>
    Condition.recordPaths dropped condition ++ Condition.listRecordPaths dropped rest

end

def Entry.fails (attributes : Attributes) (entry : Entry) : Bool :=
  match Entry.evaluate attributes entry with
  | .ok residue => !residue.passed
  | .error _ => false

namespace Filter

/-- Groups have children, a negation is around a comparison or another negation, and none stands for an
operator under `not`. -/
def WellFormed : Filter → Prop
  | compare operator _ value => operator = .not → value.isObject = false
  | oneOf .. => True
  | negate (compare ..) | negate (negate _) => True
  | negate _ => False
  | all children | any children => children ≠ []

variable {operator : Operator} {operand : String} {value : Json} {filter : Filter}

theorem wellFormed_negate_of_leaf (built : leaf operator operand value = .ok filter) :
    (negate filter).WellFormed := by
  unfold leaf at built
  split at built
  · simp only [bind_eq_ok_iff, pure_eq_ok_iff] at built
    obtain ⟨_, -, _, -, rfl⟩ := built
    trivial
  · cases built
  · obtain rfl := Except.ok.inj built
    trivial

theorem wellFormed_of_leaf (built : leaf operator operand value = .ok filter) :
    filter.Everywhere WellFormed := by
  fun_induction leaf operator operand value generalizing filter with
  | case1 operand name inner ih =>
    simp only [bind_eq_ok_iff, pure_eq_ok_iff] at built
    obtain ⟨nested, -, below, built, rfl⟩ := built
    exact .intro (wellFormed_negate_of_leaf built) (by simpa [parts] using ih nested built)
  | case2 => cases built
  | case3 operator operand value single other =>
    obtain rfl := Except.ok.inj built
    refine .intro (fun negated => ?_) (by simp [parts])
    cases value with
    | object members => exact absurd rfl (other members negated)
    | null | bool _ | number _ | string _ | array _ => rfl

theorem listAttributes_bundle {node : List Filter → Filter}
    (below : ∀ children, (node children).attributes = listAttributes children)
    (filters : List Filter) : listAttributes (bundle node filters).toList = listAttributes filters := by
  cases filters with
  | nil => rfl
  | cons filter rest => simp [bundle, listAttributes, below]

end Filter

variable {attributes : Attributes} {entry : Entry} {condition : Condition}
  {conditions : List Condition} {residue : Residue}

/-- What an entry leaves that is no group: nothing if it reads no attribute of the record, and else one
filter that reads this attribute. -/
theorem Entry.filters_cases (leaf : entry.isGroup = false)
    (evaluated : Entry.evaluate attributes entry = .ok residue) :
    (entry.recordPath? = none ∧ residue.filters = []) ∨
      ∃ path filter, entry.recordPath? = some path ∧ residue.filters = [filter] ∧
        filter.attributes = [path] ∧ filter.Everywhere Filter.WellFormed := by
  cases entry with
  | compare operand operator value =>
    have path := attributes.path?_operand operand
    rw [Entry.evaluate] at evaluated
    cases found : attributes.operand operand with
    | deferred text =>
      simp only [found, bind_eq_ok_iff, pure_eq_ok_iff] at path evaluated
      obtain ⟨filter, built, rfl⟩ := evaluated
      exact .inr ⟨text, filter, path.symm, rfl, Filter.attributes_of_leaf built,
        Filter.wellFormed_of_leaf built⟩
    | known value =>
      simp only [found, bind_eq_ok_iff, pure_eq_ok_iff] at path evaluated
      obtain ⟨_, -, rfl⟩ := evaluated
      exact .inl ⟨path.symm, rfl⟩
  | oneOf operand values =>
    have path := attributes.path?_operand operand
    rw [Entry.evaluate] at evaluated
    cases found : attributes.operand operand with
    | deferred text =>
      simp only [found, Except.ok.injEq] at path evaluated
      subst evaluated
      exact .inr ⟨text, _, path.symm, rfl, rfl, .intro trivial (by simp [Filter.parts])⟩
    | known value =>
      simp only [found, bind_eq_ok_iff, pure_eq_ok_iff] at path evaluated
      obtain ⟨_, -, rfl⟩ := evaluated
      exact .inl ⟨path.symm, rfl⟩
  | all | any => cases leaf
  | unknown =>
    obtain rfl := Except.ok.inj evaluated
    exact .inl ⟨rfl, rfl⟩

theorem Entry.listAttributes_of_leaf (leaf : entry.isGroup = false)
    (evaluated : Entry.evaluate attributes entry = .ok residue) :
    Filter.listAttributes residue.filters = entry.recordPath?.toList := by
  obtain ⟨none, left⟩ | ⟨path, filter, some, left, reads, -⟩ := filters_cases leaf evaluated
  · rw [none, left]
    rfl
  · simp [some, left, Filter.listAttributes, reads]

theorem Condition.filters_of_evaluateAll_failed (failed : residue.passed = false)
    (evaluated : Condition.evaluateAll attributes conditions = .ok residue) : residue.filters = [] := by
  cases conditions with
  | nil =>
    obtain rfl : Residue.pass = residue := Except.ok.inj evaluated
    rfl
  | cons condition rest =>
    simp only [Condition.evaluateAll, bind_eq_ok_iff] at evaluated
    obtain ⟨first, -, evaluated⟩ := evaluated
    split at evaluated
    · rename_i passed
      simp only [bind_eq_ok_iff, pure_eq_ok_iff] at evaluated
      obtain ⟨others, -, rfl⟩ := evaluated
      cases also : others.passed with
      | true => simp [also, Residue.both, passed] at failed
      | false => simp [Residue.fail]
    · obtain rfl := pure_eq_ok_iff.1 evaluated
      rfl

theorem Entry.fails_all {inner : Residue}
    (evaluated : Condition.evaluateAll attributes conditions = .ok inner) :
    Entry.fails attributes (.all conditions) = !inner.passed := by
  simp [Entry.fails, Entry.evaluate, evaluated, Residue.group]

mutual

/-- The filters that a condition leaves read its attributes of the record, one by one and in order. -/
theorem Condition.listAttributes_filters : (condition : Condition) → {residue : Residue} →
    Condition.evaluate attributes condition = .ok residue →
      Filter.listAttributes residue.filters = condition.recordPaths (Entry.fails attributes)
  | [], _, evaluated => by
    obtain rfl := Except.ok.inj evaluated
    rfl
  | entry :: rest, _, evaluated => by
    simp only [Condition.evaluate, bind_eq_ok_iff, pure_eq_ok_iff] at evaluated
    obtain ⟨first, hf, others, ho, rfl⟩ := evaluated
    rw [Residue.both, Filter.listAttributes_append, Condition.recordPaths,
      Entry.listAttributes_filters entry hf, Condition.listAttributes_filters rest ho]

theorem Entry.listAttributes_filters : (entry : Entry) → {residue : Residue} →
    Entry.evaluate attributes entry = .ok residue →
      Filter.listAttributes residue.filters = entry.recordPaths (Entry.fails attributes)
  | .all conditions, _, evaluated => by
    simp only [Entry.evaluate, bind_eq_ok_iff, pure_eq_ok_iff] at evaluated
    obtain ⟨inner, hi, rfl⟩ := evaluated
    rw [Residue.group, Filter.listAttributes_bundle fun _ => rfl, Entry.recordPaths, Entry.fails_all hi]
    cases passed : inner.passed with
    | false =>
      rw [Condition.filters_of_evaluateAll_failed passed hi]
      rfl
    | true => exact Condition.listAttributes_evaluateAll conditions passed hi
  | .any conditions, _, evaluated => by
    simp only [Entry.evaluate, bind_eq_ok_iff, pure_eq_ok_iff] at evaluated
    obtain ⟨inner, hi, rfl⟩ := evaluated
    rw [Residue.group, Filter.listAttributes_bundle fun _ => rfl, Entry.recordPaths]
    exact Condition.listAttributes_evaluateAny conditions hi
  | .compare .., _, evaluated => Entry.listAttributes_of_leaf rfl evaluated
  | .oneOf .., _, evaluated => Entry.listAttributes_of_leaf rfl evaluated
  | .unknown .., _, evaluated => Entry.listAttributes_of_leaf rfl evaluated

theorem Condition.listAttributes_evaluateAll : (conditions : List Condition) → {residue : Residue} →
    residue.passed = true → Condition.evaluateAll attributes conditions = .ok residue →
      Filter.listAttributes residue.filters =
        Condition.listRecordPaths (Entry.fails attributes) conditions
  | [], _, _, evaluated => by
    obtain rfl := Except.ok.inj evaluated
    rfl
  | condition :: rest, _, passed, evaluated => by
    simp only [Condition.evaluateAll, bind_eq_ok_iff] at evaluated
    obtain ⟨first, hf, evaluated⟩ := evaluated
    split at evaluated
    · simp only [bind_eq_ok_iff, pure_eq_ok_iff] at evaluated
      obtain ⟨others, ho, rfl⟩ := evaluated
      split at passed
      · rename_i also
        rw [if_pos also, Residue.both, Filter.listAttributes_append, Condition.listRecordPaths,
          Condition.listAttributes_filters condition hf,
          Condition.listAttributes_evaluateAll rest also ho]
      · cases passed
    · obtain rfl := pure_eq_ok_iff.1 evaluated
      cases passed

theorem Condition.listAttributes_evaluateAny : (conditions : List Condition) → {residue : Residue} →
    Condition.evaluateAny attributes conditions = .ok residue →
      Filter.listAttributes residue.filters =
        Condition.listRecordPaths (Entry.fails attributes) conditions
  | [], _, evaluated => by
    obtain rfl := Except.ok.inj evaluated
    rfl
  | condition :: rest, _, evaluated => by
    simp only [Condition.evaluateAny, bind_eq_ok_iff, pure_eq_ok_iff] at evaluated
    obtain ⟨first, hf, others, ho, rfl⟩ := evaluated
    rw [Residue.either, Filter.listAttributes_append, Condition.listRecordPaths,
      Condition.listAttributes_filters condition hf, Condition.listAttributes_evaluateAny rest ho]

end

namespace Condition

theorem filters_eq_nil
    (unread : condition.Everywhere fun entry => ∀ path, entry.compared? ≠ some ("obj." ++ path))
    (evaluated : evaluate attributes condition = .ok residue) : residue.filters = [] := by
  rw [List.eq_nil_iff_forall_not_mem]
  refine forall_filters (p := fun _ => False) ?_ ?_ (unread.mono fun entry none leaf residue made => ?_)
    evaluated
  · exact fun children some none => none _ (List.head_mem some)
  · exact fun children some none => none _ (List.head_mem some)
  · obtain ⟨-, left⟩ | ⟨path, _, some, -⟩ := Entry.filters_cases leaf made
    · simp [left]
    · exact absurd (Entry.recordPath?_eq_some_iff.1 some) (none path)

theorem wellFormed_filters (evaluated : evaluate attributes condition = .ok residue) :
    ∀ filter ∈ residue.filters, filter.Everywhere Filter.WellFormed := by
  refine forall_filters (fun _ some below => .intro some below) (fun _ some below => .intro some below)
    (everywhere_of_forall (fun entry leaf residue made => ?_) condition) evaluated
  obtain ⟨-, left⟩ | ⟨_, filter, -, left, -, formed⟩ := Entry.filters_cases leaf made
  · simp [left]
  · simpa [left] using formed

/-- A condition emits each comparison of an attribute of the record once. The attributes that its filters
read are those that it compares, in order and as often, but for those inside of conjunctions that have
failed; no filter is left where no such attribute is compared. Every node of every filter is well formed:
no group is empty, and a negation is resolved down to the comparison that it negates. -/
theorem emitted_once (evaluated : evaluate attributes condition = .ok residue) :
    Filter.listAttributes residue.filters = condition.recordPaths (Entry.fails attributes) ∧
    ((condition.Everywhere fun entry => ∀ path, entry.compared? ≠ some ("obj." ++ path)) →
      residue.filters = []) ∧
    ∀ filter ∈ residue.filters, filter.Everywhere Filter.WellFormed :=
  ⟨listAttributes_filters condition evaluated, fun unread => filters_eq_nil unread evaluated,
    wellFormed_filters evaluated⟩

def memberOrClerk : Condition :=
  [.any [
    [.all [[.compare "obj.state" .eq (.string "open")], [.compare "sbj.role" .eq (.string "clerk")]]],
    [.compare "obj.team" .eq (.string "sbj.team")]],
    .compare "obj.state" .not (.object [("eq", .string "closed")])]

def notClosed : Filter := .negate (.compare .eq "state" (.string "closed"))

theorem emitted_once_clerk :
    ["team", "state"] = memberOrClerk.recordPaths (Entry.fails leadOfRed) ∧
    (∀ residue, evaluate leadOfRed [.compare "sbj.role" .eq (.string "lead")] = .ok residue →
      residue.filters = []) ∧
    ∀ filter ∈ [Filter.any [ofTeam], notClosed], filter.Everywhere Filter.WellFormed := by
  have evaluated : evaluate leadOfRed memberOrClerk = .ok ⟨true, [.any [ofTeam], notClosed]⟩ := by cbv
  obtain ⟨reads, -, formed⟩ := emitted_once evaluated
  refine ⟨reads, fun residue evaluated => (emitted_once evaluated).2.1 ?_, formed⟩
  have other (path : String) : "sbj.role" ≠ "obj." ++ path := by
    intro same
    have chars := congrArg String.toList same
    simp at chars
  simpa [everywhere_cons, Entry.branches, Entry.compared?] using other

end Condition

/-- A filter that some condition leaves, for some attributes. -/
def Filter.Emitted (filter : Filter) : Prop :=
  ∃ attributes condition residue, Condition.evaluate attributes condition = .ok residue ∧
    filter ∈ residue.filters

end AccessControl
