import AccessControl.Proofs.Path
import AccessControl.Proofs.Reading

/-! How conditions are spelled. Each member of a document spells one entry, and each item of a group one
condition, in order. What reading adds to that is a check of values: an ordering needs a number or a
reference, a membership a list or a reference, and `not` a chain of operators that ends. A document is
read as a condition just if it spells the condition and all of its values pass. -/
namespace AccessControl

def Json.IsReference (value : Json) : Prop :=
  ∃ path, value = .string ("sbj." ++ path) ∨ value = .string ("ctx." ++ path)

/-- What `not` can stand over: anything but an object, or one operator with its value, where an ordering
has a number and another `not` again something that it can stand over. -/
inductive Json.Negated : Json → Prop where
  | plain {value : Json} (h : value.isObject = false) : Negated value
  | eq (value : Json) : Negated (.object [("eq", value)])
  | lt (bound : Number) : Negated (.object [("lt", .number bound)])
  | gt (bound : Number) : Negated (.object [("gt", .number bound)])
  | not {value : Json} (h : Negated value) : Negated (.object [("not", value)])

/-- What an operator can be given. Below `not` a reference would never be resolved. -/
def Operator.Takes (nested : Bool) : Operator → Json → Prop
  | .eq, _ => True
  | .not, value => value.Negated
  | .lt, value | .gt, value =>
    (∃ bound, value = .number bound) ∨ nested = false ∧ value.IsReference

/-- What the values of an entry are once it has been read. -/
def Entry.Established (policy : OperatorPolicy) : Entry → Prop
  | .compare _ operator value => operator.Takes false value
  | .oneOf _ values => (∃ items, values = .array items) ∨ values.IsReference
  | .all _ | .any _ => True
  | .unknown .. => policy = .permissive

/-- The entry that a member spells. Under a key that names a group stands a list, of which each item
spells a condition; any other key is an operand. -/
inductive Entry.Spells (spells : Json → Condition → Prop) : String × Json → Entry → Prop where
  | all {items : List Json} {conditions : List Condition}
      (each : List.Forall₂ spells items conditions) :
      Spells spells ("and", .array items) (.all conditions)
  | any {items : List Json} {conditions : List Condition}
      (each : List.Forall₂ spells items conditions) :
      Spells spells ("or", .array items) (.any conditions)
  | compare (operand : String) (operator : Operator) (value : Json) :
      Spells spells (operand, .object [(operator.name, value)]) (.compare operand operator value)
  | oneOf (operand : String) (values : Json) :
      Spells spells (operand, .object [("in", values)]) (.oneOf operand values)
  | literal {operand : String} {value : Json} (free : operand ≠ "and" ∧ operand ≠ "or")
      (scalar : value.isObject = false ∧ ∀ items, value ≠ .array items) :
      Spells spells (operand, value) (.compare operand .eq value)
  | list (items : List Json) : Spells spells ("in", .array items) (.oneOf "in" (.array items))
  | unknown (operand : String) {operator : String} (value : Json)
      (strange : Operator.ofName? operator = none ∧ Aggregator.ofName? operator = none) :
      Spells spells (operand, .object [(operator, value)]) (.unknown operand operator value)
  | unknownList {operator : String} (items : List Json) (strange : Aggregator.ofName? operator = none) :
      Spells spells (operator, .array items) (.unknown operator operator (.array items))

/-- The condition that a document spells: its entries are those of the members of the document, and so
at every depth. -/
inductive Condition.Spells : Json → Condition → Prop where
  | intro {members : List (String × Json)} {condition : Condition}
      (each : List.Forall₂ (Entry.Spells Condition.Spells) members condition) :
      Condition.Spells (.object members) condition

variable {policy : OperatorPolicy}

theorem Bag.ofName?_eq_some_iff {name : String} {bag : Bag} :
    ofName? name = some bag ↔ name = bag.name := by
  constructor
  · intro h
    unfold ofName? at h
    split_ifs at h with first second <;> cases h
    · exact first
    · exact second
  · rintro rfl
    cases bag <;> rfl

theorem Json.reference?_eq_some_iff {value : Json} {bag : Bag} {path : String} :
    value.reference? = some (bag, path) ↔ value = .string (bag.name ++ "." ++ path) := by
  cases value with
  | string text =>
    simp only [reference?, string?, Option.bind_eq_bind, Option.bind_some, Option.bind_eq_some_iff,
      Option.pure_def, Option.some.injEq, Prod.exists, Prod.mk.injEq, Bag.ofName?_eq_some_iff,
      string.injEq]
    constructor
    · rintro ⟨_, _, cut, _, rfl, rfl, rfl⟩
      exact String.toList_inj.1 (by simpa using Path.cut?_eq_some cut)
    · rintro rfl
      have plain : '.' ∉ bag.name.toList := by cases bag <;> decide
      exact ⟨bag.name, path, Path.cut?_of_toList plain (by simp), bag, rfl, rfl, rfl⟩
  | null | bool _ | number _ | array _ | object _ => simp [reference?, string?]

theorem Json.reference?_isSome_iff {value : Json} : value.reference?.isSome ↔ value.IsReference := by
  simp only [Option.isSome_iff_exists, Prod.exists, reference?_eq_some_iff, IsReference]
  constructor
  · rintro ⟨_ | _, path, h⟩
    · exact ⟨path, .inl h⟩
    · exact ⟨path, .inr h⟩
  · rintro ⟨path, h | h⟩
    · exact ⟨.subject, path, h⟩
    · exact ⟨.context, path, h⟩

theorem Json.number?_isSome_iff {value : Json} :
    value.number?.isSome ↔ ∃ bound, value = .number bound := by
  cases value <;> simp [number?]

theorem Json.negated_pair_iff {name : String} {inner : Json} :
    Negated (.object [(name, inner)]) ↔
      ∃ operator, Operator.ofName? name = some operator ∧ operator.Takes true inner := by
  simp only [Operator.ofName?_eq_some_iff]
  constructor
  · rintro (plain | _ | bound | bound | h)
    · cases plain
    · exact ⟨.eq, rfl, trivial⟩
    · exact ⟨.lt, rfl, .inl ⟨bound, rfl⟩⟩
    · exact ⟨.gt, rfl, .inl ⟨bound, rfl⟩⟩
    · exact ⟨.not, rfl, h⟩
  · rintro ⟨operator, rfl, takes⟩
    cases operator with
    | eq => exact .eq inner
    | not => exact .not takes
    | lt =>
      obtain ⟨bound, rfl⟩ := takes.resolve_right (by simp)
      exact .lt bound
    | gt =>
      obtain ⟨bound, rfl⟩ := takes.resolve_right (by simp)
      exact .gt bound

theorem Json.Negated.exists_pair {members : List (String × Json)} (h : Negated (.object members)) :
    ∃ pair, members = [pair] := by
  cases h with
  | plain free => cases free
  | eq | lt | gt | not => exact ⟨_, rfl⟩

theorem Operator.takes_iff_of_ordering {operator : Operator} (compares : operator ≠ .eq)
    (plain : operator ≠ .not) {nested : Bool} {value : Json} :
    operator.Takes nested value ↔
      (value.number?.isSome || (!nested && value.reference?.isSome)) = true := by
  rw [Bool.or_eq_true, Bool.and_eq_true, Bool.not_eq_true', Json.number?_isSome_iff,
    Json.reference?_isSome_iff]
  cases operator with
  | eq => exact absurd rfl compares
  | not => exact absurd rfl plain
  | lt | gt => rfl

theorem checkComparable_eq_ok_iff {place : String} {nested : Bool} {operator : Operator} {value : Json} :
    checkComparable place nested operator value = .ok () ↔ operator.Takes nested value := by
  fun_induction checkComparable place nested operator value with
  | case1 => exact iff_of_true rfl trivial
  | case2 nested name inner ih =>
    simp only [bind_eq_ok_iff, mapError_eq_ok_iff, negatedOperator_eq_ok_iff, ih]
    exact Json.negated_pair_iff.symm
  | case3 _ members several =>
    refine iff_of_false (by simp) fun takes => ?_
    obtain ⟨⟨name, inner⟩, rfl⟩ := takes.exists_pair
    exact several name inner rfl
  | case4 value _ _ scalar =>
    refine iff_of_true rfl (.plain ?_)
    cases value with
    | object members => exact (scalar members rfl).elim
    | null | bool _ | number _ | string _ | array _ => rfl
  | case5 _ operator _ compares _ _ plain fits =>
    exact iff_of_true rfl ((Operator.takes_iff_of_ordering compares plain).2 fits)
  | case6 _ operator _ compares _ _ plain fits =>
    exact iff_of_false (by simp) fun takes =>
      fits ((Operator.takes_iff_of_ordering compares plain).1 takes)

namespace Entry

variable {place operand operator : String} {value : Json} {entry : Entry} {member : String × Json}

theorem ofPair_name_eq_ok_iff {op : Operator} :
    ofPair policy place operand op.name value = .ok entry ↔
      op.Takes false value ∧ entry = .compare operand op value := by
  have known : Operator.ofName? op.name = some op := Operator.ofName?_eq_some_iff.2 rfl
  simp only [ofPair, known, bind_eq_ok_iff, pure_eq_ok_iff]
  constructor
  · rintro ⟨_, checked, rfl⟩
    exact ⟨checkComparable_eq_ok_iff.1 checked, rfl⟩
  · rintro ⟨takes, rfl⟩
    exact ⟨(), checkComparable_eq_ok_iff.2 takes, rfl⟩

theorem ofPair_in_eq_ok_iff :
    ofPair policy place operand "in" value = .ok entry ↔
      ((∃ items, value = .array items) ∨ value.IsReference) ∧ entry = .oneOf operand value := by
  by_cases list : ∃ items, value = .array items
  · obtain ⟨items, rfl⟩ := list
    have opened : ofPair policy place operand "in" (.array items) =
      .ok (.oneOf operand (.array items)) := rfl
    simp [opened, eq_comm]
  · have opened : ofPair policy place operand "in" value =
        if value.reference?.isSome then .ok (.oneOf operand value)
        else .error (.malformed (.notAMembershipList place value)) := by
      cases value with
      | array items => exact absurd ⟨items, rfl⟩ list
      | null | bool _ | number _ | string _ | object _ => rfl
    rw [opened, ← Json.reference?_isSome_iff]
    by_cases refers : value.reference?.isSome <;> simp [list, refers, eq_comm]

theorem ofPair_eq_ok_iff_of_strange
    (strange : Operator.ofName? operator = none ∧ Aggregator.ofName? operator = none) :
    ofPair policy place operand operator value = .ok entry ↔
      policy = .permissive ∧ entry = .unknown operand operator value := by
  simp only [ofPair, strange]
  cases policy <;> simp [unknownUnder, eq_comm]

theorem ofMember_eq_ok_iff_of_scalar (scalar : value.isObject = false ∧ ∀ items, value ≠ .array items) :
    ofMember policy place operand value = .ok entry ↔
      (operand ≠ "and" ∧ operand ≠ "or") ∧ entry = .compare operand .eq value := by
  have conjunction : Aggregator.ofName? operand = some .all ↔ operand = "and" :=
    Aggregator.ofName?_eq_some_iff
  have disjunction : Aggregator.ofName? operand = some .any ↔ operand = "or" :=
    Aggregator.ofName?_eq_some_iff
  cases value with
  | array items => exact absurd rfl (scalar.2 items)
  | object _ => cases scalar.1
  | null | bool _ | number _ | string _ =>
    rw [Ne, Ne, ← conjunction, ← disjunction]
    simp only [ofMember]
    cases Aggregator.ofName? operand with
    | none => simp [eq_comm]
    | some aggregator => cases aggregator <;> simp [eq_comm]

theorem spells_of_ofPair {spells : Json → Condition → Prop}
    (h : ofPair policy place operand operator value = .ok entry) :
    Spells spells (operand, .object [(operator, value)]) entry ∧ entry.Established policy := by
  cases known : Operator.ofName? operator with
  | some op =>
    obtain rfl := Operator.ofName?_eq_some_iff.1 known
    obtain ⟨takes, rfl⟩ := ofPair_name_eq_ok_iff.1 h
    exact ⟨.compare operand op value, takes⟩
  | none =>
    cases named : Aggregator.ofName? operator with
    | none =>
      obtain ⟨permissive, rfl⟩ := (ofPair_eq_ok_iff_of_strange ⟨known, named⟩).1 h
      exact ⟨.unknown operand value ⟨known, named⟩, permissive⟩
    | some aggregator =>
      obtain rfl := Aggregator.ofName?_eq_some_iff.1 named
      cases aggregator with
      | oneOf =>
        obtain ⟨holds, rfl⟩ := ofPair_in_eq_ok_iff.1 h
        exact ⟨.oneOf operand value, holds⟩
      | all | any => cases h

theorem spells_of_reads (h : Reads policy member entry) :
    Spells (Condition.Reads policy) member entry ∧ entry.Established policy := by
  obtain ⟨key, value⟩ := member
  cases value with
  | array items =>
    rw [Reads, ofMember] at h
    cases named : Aggregator.ofName? key with
    | none =>
      simp only [named] at h
      cases policy with
      | strict => cases h
      | permissive =>
        obtain rfl := Except.ok.inj h
        exact ⟨.unknownList items named, rfl⟩
    | some aggregator =>
      simp only [named] at h
      obtain rfl := Aggregator.ofName?_eq_some_iff.1 named
      cases aggregator with
      | oneOf =>
        obtain rfl := Except.ok.inj h
        exact ⟨.list items, .inl ⟨items, rfl⟩⟩
      | all =>
        simp only [bind_eq_ok_iff, pure_eq_ok_iff, Condition.ofItems_eq_ok_iff] at h
        obtain ⟨conditions, each, rfl⟩ := h
        exact ⟨.all each, trivial⟩
      | any =>
        simp only [bind_eq_ok_iff, pure_eq_ok_iff, Condition.ofItems_eq_ok_iff] at h
        obtain ⟨conditions, each, rfl⟩ := h
        exact ⟨.any each, trivial⟩
  | object members =>
    cases members with
    | nil => cases h
    | cons member rest =>
      cases rest with
      | nil => exact spells_of_ofPair h
      | cons => cases h
  | null | bool _ | number _ | string _ =>
    obtain ⟨free, rfl⟩ := (ofMember_eq_ok_iff_of_scalar ⟨rfl, by simp⟩).1 h
    exact ⟨.literal free ⟨rfl, by simp⟩, trivial⟩

theorem reads_of_spells (spelled : Spells (Condition.Reads policy) member entry)
    (established : entry.Established policy) : Reads policy member entry := by
  cases spelled with
  | all each =>
    exact bind_eq_ok_iff.2 ⟨_, Condition.ofItems_eq_ok_iff.2 each, rfl⟩
  | any each =>
    exact bind_eq_ok_iff.2 ⟨_, Condition.ofItems_eq_ok_iff.2 each, rfl⟩
  | compare operand operator value => exact ofPair_name_eq_ok_iff.2 ⟨established, rfl⟩
  | oneOf operand values => exact ofPair_in_eq_ok_iff.2 ⟨established, rfl⟩
  | literal free scalar => exact (ofMember_eq_ok_iff_of_scalar scalar).2 ⟨free, rfl⟩
  | list items => rfl
  | unknown operand value strange =>
    exact (ofPair_eq_ok_iff_of_strange strange).2 ⟨established, rfl⟩
  | unknownList items strange =>
    obtain rfl := established
    rw [Reads, ofMember, strange, unknownUnder]

/-- A member is read as the entry that it spells if the values of the entry pass. -/
theorem reads_iff : Reads policy member entry ↔
    Spells (Condition.Reads policy) member entry ∧ entry.Established policy :=
  ⟨spells_of_reads, fun ⟨spelled, established⟩ => reads_of_spells spelled established⟩

theorem Spells.imp {r s : Json → Condition → Prop} (spelled : Spells r member entry)
    (h : ∀ items, member.2 = .array items → List.Forall₂ r items entry.branches →
      List.Forall₂ s items entry.branches) : Spells s member entry := by
  cases spelled with
  | all each => exact .all (h _ rfl each)
  | any each => exact .any (h _ rfl each)
  | compare operand operator value => exact .compare operand operator value
  | oneOf operand values => exact .oneOf operand values
  | literal free scalar => exact .literal free scalar
  | list items => exact .list items
  | unknown operand value strange => exact .unknown operand value strange
  | unknownList items strange => exact .unknownList items strange

theorem spells_iff_of_items {r s : Json → Condition → Prop} {p : Condition → Prop}
    (h : ∀ items, member.2 = .array items → ∀ item ∈ items, ∀ condition,
      r item condition ↔ s item condition ∧ p condition) :
    Spells r member entry ↔ Spells s member entry ∧ ∀ branch ∈ entry.branches, p branch := by
  have listed (items : List Json) (list : member.2 = .array items) :
      List.Forall₂ r items entry.branches ↔
        List.Forall₂ s items entry.branches ∧ ∀ branch ∈ entry.branches, p branch :=
    forall₂_iff_of_mem fun item hi branch _ => h items list item hi branch
  constructor
  · intro spelled
    refine ⟨spelled.imp fun items list each => ((listed items list).1 each).1, ?_⟩
    cases spelled with
    | all each | any each => exact ((listed _ rfl).1 each).2
    | compare | oneOf | literal | list | unknown | unknownList => simp [branches]
  · rintro ⟨spelled, below⟩
    exact spelled.imp fun items list each => (listed items list).2 ⟨each, below⟩

end Entry

namespace Condition

theorem everywhere_iff {p : Entry → Prop} {condition : Condition} :
    Everywhere p condition ↔
      ∀ entry ∈ condition, p entry ∧ ∀ branch ∈ entry.branches, Everywhere p branch :=
  ⟨fun ⟨here, below⟩ entry hm => ⟨here entry hm, below entry hm⟩,
    fun h => .intro (fun entry hm => (h entry hm).1) fun entry hm => (h entry hm).2⟩

theorem spells_object_iff {members : List (String × Json)} {condition : Condition} :
    Spells (.object members) condition ↔ List.Forall₂ (Entry.Spells Spells) members condition :=
  ⟨fun ⟨each⟩ => each, .intro⟩

theorem reads_iff_spells {document : Json} {condition : Condition} :
    Reads policy document condition ↔
      Spells document condition ∧ condition.Everywhere (Entry.Established policy) := by
  induction document using document_induction generalizing condition with
  | step document ih =>
    cases document with
    | object members =>
      rw [reads_object_iff, spells_object_iff, everywhere_iff]
      refine forall₂_iff_of_mem fun ⟨key, value⟩ hm entry _ => ?_
      rw [Entry.reads_iff, Entry.spells_iff_of_items, and_assoc,
        and_comm (b := entry.Established policy)]
      rintro items rfl item hi branch
      exact ih members key items item rfl hm hi
    | null | bool _ | number _ | string _ | array _ =>
      exact iff_of_false (fun read => by cases read) fun ⟨spelled, _⟩ => by cases spelled

/-- Reading checks values and nothing else. What has been read is what the document spells, and the
value of each of its entries is one that the entry can hold, however deep in groups and negations; and
whatever has such values is read, at any place. -/
theorem read_iff_spelled (policy : OperatorPolicy) (place : String) (document : Json)
    (condition : Condition) :
    ofJson policy place document = .ok condition ↔
      Spells document condition ∧ condition.Everywhere (Entry.Established policy) :=
  ofJson_eq_ok_iff.trans reads_iff_spells

end Condition
end AccessControl
