import AccessControl.Proofs.Condition
import AccessControl.Proofs.Placement

/-! Conditions as they are read. A document is read part by part: each member of an object gives one
entry, and the lists under `and` and `or` hold the conditions that a document consists of. What holds of
each entry that a member is read as therefore holds at every depth; so it is with the values that
operators got. -/
namespace AccessControl

theorem negatedOperator_eq_ok_iff {name : String} {operator : Operator} :
    negatedOperator name = .ok operator ↔ Operator.ofName? name = some operator := by
  rw [negatedOperator]
  cases Operator.ofName? name with
  | some found => simp
  | none => cases Aggregator.ofName? name <;> simp

def Entry.groupUnder? (key : String) : Option (List Condition → Entry) :=
  match Aggregator.ofName? key with
  | some .all => some .all
  | some .any => some .any
  | _ => none

def Entry.operand? : Entry → Option String
  | .compare operand _ _ | .oneOf operand _ | .unknown operand _ _ => some operand
  | .all _ | .any _ => none

def Entry.Checked : Entry → Prop
  | .compare _ operator value => ∃ place, checkComparable place false operator value = .ok ()
  | .oneOf _ values => (∃ items, values = .array items) ∨ values.reference?.isSome
  | _ => True

variable {policy : OperatorPolicy}

namespace Condition

def Reads (policy : OperatorPolicy) (document : Json) (condition : Condition) : Prop :=
  ofJson policy rootPlace document = .ok condition

theorem ofJson_eq_ok_iff {place : String} {document : Json} {condition : Condition} :
    ofJson policy place document = .ok condition ↔ Reads policy document condition :=
  (placed_ofJson policy document).eq_ok_iff

theorem ofItems_eq_ok_iff {place : String} {index : Nat} {items : List Json}
    {conditions : List Condition} :
    ofItems policy place index items = .ok conditions ↔
      List.Forall₂ (Reads policy) items conditions := by
  induction items generalizing index conditions with
  | nil => simp [ofItems, eq_comm]
  | cons item rest ih =>
    rw [ofItems]
    exact read_cons_eq_ok_iff (f := id) (fun condition => by simp [ofJson_eq_ok_iff]) fun _ => ih

end Condition

def Entry.Reads (policy : OperatorPolicy) (member : String × Json) (entry : Entry) : Prop :=
  ofMember policy "" member.1 member.2 = .ok entry

theorem Condition.reads_object_iff {members : List (String × Json)} {condition : Condition} :
    Reads policy (.object members) condition ↔
      List.Forall₂ (Entry.Reads policy) members condition := by
  rw [Reads, ofJson]
  induction members generalizing condition with
  | nil => simp [ofMembers, eq_comm]
  | cons member rest ih =>
    obtain ⟨key, value⟩ := member
    rw [ofMembers]
    refine read_cons_eq_ok_iff (f := id) (fun entry => ?_) fun _ => ih
    simpa [Entry.Reads] using (Entry.placed_ofMember policy key value).eq_ok_iff

namespace Entry

variable {place operand operator key : String} {value : Json} {entry : Entry}

theorem checked_unknownUnder (h : unknownUnder policy place operand operator value = .ok entry) :
    entry.Checked ∧ entry.operand? = some operand := by
  cases policy with
  | strict => cases h
  | permissive =>
    obtain rfl := Except.ok.inj h
    exact ⟨trivial, rfl⟩

theorem checked_ofPair (h : ofPair policy place operand operator value = .ok entry) :
    entry.Checked ∧ entry.operand? = some operand := by
  unfold ofPair at h
  split at h
  · simp only [bind_eq_ok_iff, pure_eq_ok_iff] at h
    obtain ⟨_, checked, rfl⟩ := h
    exact ⟨⟨place, checked⟩, rfl⟩
  · obtain rfl := Except.ok.inj h
    exact ⟨.inl ⟨_, rfl⟩, rfl⟩
  · split at h
    · rename_i refers
      obtain rfl := Except.ok.inj h
      exact ⟨.inr refers, rfl⟩
    · cases h
  · cases h
  · exact checked_unknownUnder h

theorem branches_of_operand? (about : entry.operand? = some operand) : entry.branches = [] := by
  cases entry with
  | all | any => cases about
  | compare | oneOf | unknown => rfl

/-- The ways to read a member. A list under a key that names a group is read item by item, and any
other list is kept as it is. An object is a pair under any key, and all else is compared. -/
inductive ReadAs (policy : OperatorPolicy) (key : String) : Json → Entry → Prop where
  | group {group : List Condition → Entry} {items : List Json} {conditions : List Condition}
      (named : groupUnder? key = some group)
      (read : List.Forall₂ (Condition.Reads policy) items conditions) :
      ReadAs policy key (.array items) (group conditions)
  | list {items : List Json} {entry : Entry} (free : groupUnder? key = none)
      (kept : entry = .oneOf key (.array items) ∨ entry = .unknown key key (.array items)) :
      ReadAs policy key (.array items) entry
  | pair {operator : String} {inner : Json} {entry : Entry}
      (read : ofPair policy "" key operator inner = .ok entry) :
      ReadAs policy key (.object [(operator, inner)]) entry
  | literal {value : Json} (free : groupUnder? key = none) :
      ReadAs policy key value (.compare key .eq value)

theorem readAs_array {items : List Json} (h : Reads policy (key, .array items) entry) :
    ReadAs policy key (.array items) entry := by
  rw [Reads, ofMember] at h
  cases named : Aggregator.ofName? key with
  | none =>
    simp only [named] at h
    refine .list (by simp [groupUnder?, named]) (.inr ?_)
    cases policy with
    | strict => cases h
    | permissive => exact (Except.ok.inj h).symm
  | some aggregator =>
    simp only [named] at h
    cases aggregator with
    | oneOf => exact .list (by simp [groupUnder?, named]) (.inl (Except.ok.inj h).symm)
    | all | any =>
      simp only [bind_eq_ok_iff, pure_eq_ok_iff, Condition.ofItems_eq_ok_iff] at h
      obtain ⟨conditions, read, rfl⟩ := h
      exact .group (by simp [groupUnder?, named]) read

theorem readAs_of_reads (h : Reads policy (key, value) entry) : ReadAs policy key value entry := by
  cases value with
  | array items => exact readAs_array h
  | object members =>
    cases members with
    | nil => cases h
    | cons member rest =>
      cases rest with
      | nil => exact .pair h
      | cons => cases h
  | null | bool _ | number _ | string _ =>
    simp only [Reads, ofMember] at h
    split at h
    · cases h
    · cases h
    · obtain rfl := Except.ok.inj h
      exact .literal (by simp [groupUnder?])

theorem branches_groupUnder? {group : List Condition → Entry} (named : groupUnder? key = some group)
    (conditions : List Condition) : (group conditions).branches = conditions := by
  unfold groupUnder? at named
  split at named <;> cases named <;> rfl

theorem ReadAs.exists_group {branch : Condition} (h : ReadAs policy key value entry)
    (hb : branch ∈ entry.branches) :
    ∃ group items conditions, groupUnder? key = some group ∧ value = .array items ∧
      List.Forall₂ (Condition.Reads policy) items conditions ∧ branch ∈ conditions := by
  cases h with
  | group named read =>
    rw [branches_groupUnder? named] at hb
    exact ⟨_, _, _, named, rfl, read, hb⟩
  | list _ kept => rcases kept with rfl | rfl <;> cases hb
  | pair read =>
    obtain ⟨-, about⟩ := checked_ofPair read
    simp [branches_of_operand? about] at hb
  | literal _ => cases hb

end Entry

namespace Condition

/-- The conditions that a document consists of: itself, and those that it lists under keys that name
groups. -/
inductive Within (part : Json) : Json → Prop where
  | whole : Within part part
  | listed {members : List (String × Json)} {key : String} {items : List Json} {item : Json}
      {group : List Condition → Entry} (named : Entry.groupUnder? key = some group)
      (member : (key, .array items) ∈ members) (held : item ∈ items) (inside : Within part item) :
      Within part (.object members)

variable {document : Json} {members : List (String × Json)} {condition : Condition} {key : String}
  {items : List Json} {group : List Condition → Entry} {p : Entry → Prop}

/-- A list under a key that names a group is read item by item. -/
theorem exists_group_of_reads (read : Reads policy (.object members) condition)
    (named : Entry.groupUnder? key = some group) (member : (key, .array items) ∈ members) :
    ∃ conditions, List.Forall₂ (Reads policy) items conditions ∧ group conditions ∈ condition := by
  obtain ⟨entry, hm, he⟩ := exists_of_mem_left (reads_object_iff.1 read) member
  cases Entry.readAs_of_reads he with
  | group named' read =>
    obtain rfl := Option.some.inj (named.symm.trans named')
    exact ⟨_, read, hm⟩
  | list free _ | literal free => simp [named] at free

theorem exists_item_of_branch (read : Reads policy (.object members) condition) {entry : Entry}
    (he : entry ∈ condition) {branch : Condition} (hb : branch ∈ entry.branches) :
    ∃ key items item group, Entry.groupUnder? key = some group ∧ (key, .array items) ∈ members ∧
      item ∈ items ∧ Reads policy item branch := by
  obtain ⟨⟨key, value⟩, hm, hr⟩ := exists_of_mem_right (reads_object_iff.1 read) he
  obtain ⟨group, items, conditions, named, rfl, listed, hb⟩ :=
    (Entry.readAs_of_reads hr).exists_group hb
  obtain ⟨item, held, hr⟩ := exists_of_mem_right listed hb
  exact ⟨key, items, item, group, named, hm, held, hr⟩

theorem Within.reads {part : Json} (within : Within part document)
    (read : Reads policy document condition) :
    ∃ entries, Reads policy part entries ∧ ∀ p, Everywhere p condition → Everywhere p entries := by
  induction within generalizing condition with
  | whole => exact ⟨condition, read, fun _ => id⟩
  | listed named member held _ ih =>
    obtain ⟨conditions, hr, hg⟩ := exists_group_of_reads read named member
    obtain ⟨branch, hb, hi⟩ := exists_of_mem_left hr held
    obtain ⟨entries, he, below⟩ := ih hi
    refine ⟨entries, he, fun p ⟨_, deeper⟩ => below p (deeper _ hg branch ?_)⟩
    rwa [Entry.branches_groupUnder? named]

/-- What holds of a document if it holds of the conditions that the document lists holds of all. -/
theorem document_induction {motive : Json → Prop}
    (step : ∀ document, (∀ members key items item, document = .object members →
      (key, .array items) ∈ members → item ∈ items → motive item) → motive document)
    (document : Json) : motive document := by
  refine step document fun members key items item same member held => ?_
  exact document_induction step item
termination_by sizeOf document
decreasing_by
  rw [same]
  have inner := List.sizeOf_lt_of_mem member
  have innermost := List.sizeOf_lt_of_mem held
  simp at inner ⊢
  omega

theorem exists_object_of_reads (read : Reads policy document condition) :
    ∃ members, document = .object members := by
  cases document with
  | object members => exact ⟨members, rfl⟩
  | null | bool _ | number _ | string _ | array _ => cases read

/-- The entries at every depth of a condition are those of the conditions that the document consists
of. -/
theorem everywhere_iff_of_reads (read : Reads policy document condition) :
    condition.Everywhere p ↔ ∀ members entries, Within (.object members) document →
      Reads policy (.object members) entries → ∀ entry ∈ entries, p entry := by
  constructor
  · intro all members entries within here
    obtain ⟨entries', he, below⟩ := within.reads read
    obtain rfl := Except.ok.inj (he.symm.trans here)
    obtain ⟨every, -⟩ := below p all
    exact every
  -- on the document and not on the result, whose branches are read from the items of its lists
  · induction document using document_induction generalizing condition with
    | step document ih =>
      intro all
      obtain ⟨members, rfl⟩ := exists_object_of_reads read
      refine .intro (all members condition .whole read) fun entry he branch hb => ?_
      obtain ⟨key, items, item, group, named, member, held, hr⟩ := exists_item_of_branch read he hb
      exact ih members key items item rfl member held hr fun members entries within =>
        all members entries (.listed named member held within)

end Condition

theorem Entry.checked_of_readAs {key : String} {value : Json} {entry : Entry}
    (h : ReadAs policy key value entry) : entry.Checked := by
  cases h with
  | group named _ =>
    unfold groupUnder? at named
    split at named <;> cases named <;> trivial
  | list _ kept =>
    rcases kept with rfl | rfl
    · exact .inl ⟨_, rfl⟩
    · trivial
  | pair read => exact (checked_ofPair read).1
  | literal _ => exact ⟨"", by rw [checkComparable]⟩

/-- Every entry that is read has been checked, at every depth. -/
theorem Condition.checked_ofJson (policy : OperatorPolicy) (document : Json) {place : String}
    {condition : Condition} (h : ofJson policy place document = .ok condition) :
    condition.Everywhere Entry.Checked := by
  refine (everywhere_iff_of_reads (ofJson_eq_ok_iff.1 h)).2 fun members entries _ read entry he => ?_
  obtain ⟨member, -, hr⟩ := exists_of_mem_right (reads_object_iff.1 read) he
  exact Entry.checked_of_readAs (Entry.readAs_of_reads hr)

end AccessControl
