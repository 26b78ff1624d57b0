import AccessControl.Proofs.Reading

/-! The keys `and` and `or`. A condition reads them as groups of the conditions that they hold, at every
depth, as long as they hold lists. An object under such a key is read as under any other: the key
becomes the operand of a comparison, of a membership or of an entry that passes. -/
namespace AccessControl

variable {policy : OperatorPolicy}

namespace Entry

variable {entry : Entry}

theorem operand?_groupUnder? {key : String} {group : List Condition → Entry}
    (named : groupUnder? key = some group) (conditions : List Condition) :
    (group conditions).operand? = none := by
  unfold groupUnder? at named
  split at named <;> cases named <;> rfl

def AboutNoGroup (entry : Entry) : Prop :=
  ∀ operand, entry.operand? = some operand → groupUnder? operand = none

/-- A member under a key that names a group is read as the group of the conditions that it lists. -/
def GroupsWhatItLists (policy : OperatorPolicy) (member : String × Json) (entry : Entry) : Prop :=
  ∀ group, groupUnder? member.1 = some group → ∃ items conditions, member.2 = .array items ∧
    List.Forall₂ (Condition.Reads policy) items conditions ∧ entry = group conditions

theorem GroupsWhatItLists.groupUnder?_eq_none {member : String × Json}
    (meant : GroupsWhatItLists policy member entry) (isObject : member.2.isObject) :
    groupUnder? member.1 = none := by
  by_contra named
  obtain ⟨group, named⟩ := Option.ne_none_iff_exists'.1 named
  obtain ⟨items, _, list, -⟩ := meant group named
  simp [list, Json.isObject] at isObject

theorem groupsWhatItLists_of_reads {member : String × Json} (h : Reads policy member entry)
    (lists : member.2.isObject → groupUnder? member.1 = none) :
    GroupsWhatItLists policy member entry := by
  obtain ⟨key, value⟩ := member
  intro group named
  cases readAs_of_reads h with
  | group named' read =>
    obtain rfl := Option.some.inj (named.symm.trans named')
    exact ⟨_, _, rfl, read, rfl⟩
  | list free _ | literal free => simp [named] at free
  | pair _ => simp [named, Json.isObject] at lists

theorem aboutNoGroup_iff {member : String × Json} (h : Reads policy member entry) :
    entry.AboutNoGroup ↔ (member.2.isObject → groupUnder? member.1 = none) := by
  obtain ⟨key, value⟩ := member
  cases readAs_of_reads h with
  | group named _ =>
    refine iff_of_true ?_ (by simp [Json.isObject])
    simp [AboutNoGroup, operand?_groupUnder? named]
  | list free kept =>
    refine iff_of_true ?_ fun _ => free
    rcases kept with rfl | rfl <;> simpa [AboutNoGroup, operand?] using free
  | pair read =>
    obtain ⟨-, about⟩ := checked_ofPair read
    simp [AboutNoGroup, about, Json.isObject]
  | literal free =>
    refine iff_of_true ?_ fun _ => free
    simpa [AboutNoGroup, operand?] using free

end Entry

namespace Condition

variable {document : Json} {condition : Condition}

/-- Every key that names a group is read as the group of what the list under it holds, throughout the
conditions that a document consists of. -/
def KeysMeanGroups (policy : OperatorPolicy) (document : Json) : Prop :=
  ∀ part, Within part document → ∃ members entries, part = .object members ∧
    Reads policy part entries ∧ List.Forall₂ (Entry.GroupsWhatItLists policy) members entries

def ListsItsGroups (document : Json) : Prop :=
  ∀ members, Within (.object members) document → ∀ member ∈ members, member.2.isObject →
    Entry.groupUnder? member.1 = none

theorem keysMeanGroups_iff (read : Reads policy document condition) :
    KeysMeanGroups policy document ↔ ListsItsGroups document := by
  constructor
  · intro meant members within member hm isObject
    obtain ⟨members', entries, same, -, groups⟩ := meant _ within
    obtain rfl := Json.object.inj same
    obtain ⟨entry, -, group⟩ := exists_of_mem_left groups hm
    exact group.groupUnder?_eq_none isObject
  · intro lists part within
    obtain ⟨entries, here, -⟩ := within.reads read
    obtain ⟨members, rfl⟩ := exists_object_of_reads here
    have known := (List.forall₂_and_left _ _).2 ⟨lists members within, reads_object_iff.1 here⟩
    exact ⟨members, entries, rfl, here,
      known.imp fun _ _ ⟨lists, reads⟩ => Entry.groupsWhatItLists_of_reads reads lists⟩

theorem everywhere_aboutNoGroup_iff (read : Reads policy document condition) :
    condition.Everywhere Entry.AboutNoGroup ↔ ListsItsGroups document := by
  rw [everywhere_iff_of_reads read]
  constructor
  · intro every members within member hm
    obtain ⟨entries, here, -⟩ := within.reads read
    obtain ⟨entry, he, reads⟩ := exists_of_mem_left (reads_object_iff.1 here) hm
    exact (Entry.aboutNoGroup_iff reads).1 (every members entries within here entry he)
  · intro lists members entries within here entry he
    obtain ⟨member, hm, reads⟩ := exists_of_mem_right (reads_object_iff.1 here) he
    exact (Entry.aboutNoGroup_iff reads).2 (lists members within member hm)

/-- In a condition that is read, the keys that name groups mean groups, and nothing but groups, just as
long as none of them holds an object at any depth. An object under such a key gives an entry that
compares the key. -/
theorem groups_meant_iff {place : String} (read : ofJson policy place document = .ok condition) :
    (KeysMeanGroups policy document ↔ ListsItsGroups document) ∧
      (condition.Everywhere Entry.AboutNoGroup ↔ ListsItsGroups document) :=
  ⟨keysMeanGroups_iff (ofJson_eq_ok_iff.1 read), everywhere_aboutNoGroup_iff (ofJson_eq_ok_iff.1 read)⟩

def crewDocument : Json :=
  .object [("or", .array [
    .object [("and", .array [.object [("sbj.role", .string "lead")],
      .object [("sbj.crew", .object [("in", .array [.string "a"])])]])],
    .object [("sbj.crew", .null)]])]

def hastyDocument : Json :=
  .object [("or", .array [.object [("and", .object [("sbj.role", .string "lead")])]])]

theorem groups_meant_crew :
    KeysMeanGroups .strict crewDocument ∧
      ofJson .permissive rootPlace hastyDocument =
        .ok [.any [[.unknown "and" "sbj.role" (.string "lead")]]] ∧
      ¬ KeysMeanGroups .permissive hastyDocument := by
  have read : ofJson .strict rootPlace crewDocument =
      .ok [.any [[.all [[.compare "sbj.role" .eq (.string "lead")],
        [.oneOf "sbj.crew" (.array [.string "a"])]]], [.compare "sbj.crew" .eq .null]]] := by cbv
  have hasty : ofJson .permissive rootPlace hastyDocument =
      .ok [.any [[.unknown "and" "sbj.role" (.string "lead")]]] := by cbv
  have crew := groups_meant_iff read
  have haste := groups_meant_iff hasty
  refine ⟨crew.1.2 (crew.2.1 ?_), hasty, fun meant => ?_⟩
  · have attributes : Entry.groupUnder? "sbj.role" = none ∧ Entry.groupUnder? "sbj.crew" = none :=
      ⟨rfl, rfl⟩
    simpa [everywhere_cons, Entry.branches, Entry.AboutNoGroup, Entry.operand?] using attributes
  · have every := haste.2.2 (haste.1.1 meant)
    have none : Entry.groupUnder? "and" = none := by
      simpa [everywhere_cons, Entry.branches, Entry.AboutNoGroup, Entry.operand?] using every
    cases none

/-- The keys of groups are also read as operands. -/
theorem groups_not_meant :
    ¬ ∀ policy document condition, ofJson policy rootPlace document = .ok condition →
      KeysMeanGroups policy document ∧ condition.Everywhere Entry.AboutNoGroup := by
  intro meant
  have read : ofJson .strict rootPlace (.object [("and", .object [("eq", .bool true)])]) =
      .ok [.compare "and" .eq (.bool true)] := by cbv
  obtain ⟨-, every, -⟩ := meant _ _ _ read
  have about := every (.compare "and" .eq (.bool true)) (by simp) "and" rfl
  cases about

end Condition
end AccessControl
