import AccessControl.Proofs.Keyed
import AccessControl.Proofs.Placement

/-! Reading rulebooks. A document is read rule by rule, all or nothing: the rulebook holds what each
rule is read as on its own, and a document that is refused is refused for the first thing in it that
is wrong. -/
namespace AccessControl

variable {α β : Type}

def Json.items : Json → List Json
  | .array items => items
  | _ => []

/-- Tables with the same keys in the same order, whose values are related. -/
def Keyed.Related (r : α → β → Prop) : List (String × α) → List (String × β) → Prop :=
  List.Forall₂ fun entry other => entry.1 = other.1 ∧ r entry.2 other.2

theorem Keyed.Related.get? {r : α → β → Prop} {table : List (String × α)} {other : List (String × β)}
    (h : Related r table other) (key : String) :
    Option.Rel r (get? key table) (get? key other) := by
  induction h with
  | nil => exact .none
  | @cons entry entry' rest rest' related _ ih =>
    obtain ⟨same, values⟩ := related
    by_cases here : entry.1 = key
    · simpa only [Keyed.get?, here, same ▸ here, if_true] using Option.Rel.some values
    · simpa only [Keyed.get?, if_neg here, if_neg (same ▸ here)] using ih

theorem rel_bind {γ δ : Type} {r : α → β → Prop} {s : γ → δ → Prop} {x : Option α} {y : Option β}
    {f : α → Option γ} {g : β → Option δ} (h : Option.Rel r x y)
    (onward : ∀ a b, r a b → Option.Rel s (f a) (g b)) : Option.Rel s (x.bind f) (y.bind g) := by
  cases h with
  | none => exact .none
  | some related => exact onward _ _ related

/-- What is wrong with a document that is read on its own, with the place it has. -/
def offence (place : String) : Except Fault α → List (String × Fault)
  | .ok _ => []
  | .error fault => [(place, fault)]

theorem offence_eq_nil_iff {place : String} {own : Except Fault α} :
    offence place own = [] ↔ ∃ a, own = .ok a := by
  cases own <;> simp [offence]

/-- A reading that succeeds if nothing is wrong, and else fails with what is wrong first. -/
inductive Judged : List (String × Fault) → Except Fault α → Prop where
  | accepted (a : α) : Judged [] (.ok a)
  | refused (place : String) (own : Fault) (rest : List (String × Fault)) :
    Judged ((place, own) :: rest) (.error (own.moved place))

namespace Judged

variable {offences others : List (String × Fault)} {x : Except Fault α}

theorem bind {f : α → Except Fault β} (h : Judged offences x) (onward : ∀ a, Judged others (f a)) :
    Judged (offences ++ others) (x >>= f) := by
  cases h with
  | accepted a => exact onward a
  | refused place own rest => exact .refused place own (rest ++ others)

theorem map (h : Judged offences x) (f : α → β) : Judged offences (x >>= fun a => pure (f a)) := by
  have all := h.bind fun a => accepted (f a)
  rwa [List.append_nil] at all

theorem exists_ok_iff (h : Judged offences x) : (∃ a, x = .ok a) ↔ offences = [] := by
  cases h <;> simp

theorem head?_of_error (h : Judged offences x) {fault : Fault} (failed : x = .error fault) :
    ∃ place own, offences.head? = some (place, own) ∧ fault = own.moved place := by
  cases h with
  | accepted a => cases failed
  | refused place own rest => exact ⟨place, own, rfl, (Except.error.inj failed).symm⟩

end Judged

theorem Placed.judged {read : String → Except Fault α} (h : Placed read) (place : String) :
    Judged (offence place (read "")) (read place) := by
  rw [h.eq_moved place]
  cases read "" with
  | ok a => exact .accepted a
  | error fault => exact .refused place fault []

namespace Rule

variable {policy : OperatorPolicy} {place : String}

/-- The rule that a document is read as on its own. -/
def Reads (policy : OperatorPolicy) (document : Json) (rule : Rule) : Prop :=
  ofJson policy Condition.rootPlace document = .ok rule

def ListReads (policy : OperatorPolicy) (document : Json) (rules : List Rule) : Prop :=
  ∃ items, document = .array items ∧ List.Forall₂ (Reads policy) items rules

theorem ofJson_eq_ok_iff {document : Json} {rule : Rule} :
    ofJson policy place document = .ok rule ↔ Reads policy document rule :=
  (placed_ofJson policy document).eq_ok_iff

theorem listOfItems_eq_ok_iff {index : Nat} {items : List Json} {rules : List Rule} :
    listOfItems policy place index items = .ok rules ↔ List.Forall₂ (Reads policy) items rules := by
  induction items generalizing index rules with
  | nil => simp [listOfItems, eq_comm]
  | cons item rest ih =>
    rw [listOfItems]
    exact read_cons_eq_ok_iff (f := id) (fun rule => by simp [ofJson_eq_ok_iff]) fun _ => ih

theorem listOfJson_eq_ok_iff {document : Json} {rules : List Rule} :
    listOfJson policy place document = .ok rules ↔ ListReads policy document rules := by
  cases document with
  | array items => simp [listOfJson, ListReads, listOfItems_eq_ok_iff]
  | null | bool _ | number _ | string _ | object _ => simp [listOfJson, ListReads]

def offences (policy : OperatorPolicy) (place : String) : Json → List (String × Fault)
  | .array items => items.zipIdx.flatMap fun item =>
    offence (itemPlace place item.2) (ofJson policy "" item.1)
  | _ => [(place, .malformed (.notAList ""))]

theorem offences_eq_nil_iff {document : Json} :
    offences policy place document = [] ↔
      ∃ items, document = .array items ∧ ∀ item ∈ items, ∃ rule, Reads policy item rule := by
  cases document with
  | array items =>
    have all : (∀ item ∈ items.zipIdx, ∃ rule, Reads policy item.1 rule) ↔
        ∀ item ∈ items, ∃ rule, Reads policy item rule := by
      rw [← List.forall_mem_map (P := fun item => ∃ rule, Reads policy item rule),
        List.zipIdx_map_fst]
    simpa only [offences, List.flatMap_eq_nil_iff, offence_eq_nil_iff, ofJson_eq_ok_iff,
      Json.array.injEq, exists_eq_left'] using all
  | null | bool _ | number _ | string _ | object _ => simp [offences]

theorem judged_listOfItems (items : List Json) (index : Nat) :
    Judged ((items.zipIdx index).flatMap fun item =>
      offence (itemPlace place item.2) (ofJson policy "" item.1))
      (listOfItems policy place index items) := by
  induction items generalizing index with
  | nil => exact .accepted []
  | cons item rest ih =>
    rw [List.zipIdx_cons, List.flatMap_cons, listOfItems]
    exact ((placed_ofJson policy item).judged _).bind fun rule => (ih (index + 1)).map _

theorem judged_listOfJson (document : Json) :
    Judged (offences policy place document) (listOfJson policy place document) := by
  have misshapen : Judged [(place, .malformed (.notAList ""))]
      (.error (.malformed (.notAList place)) : Except Fault (List Rule)) := by
    simpa [Fault.moved, Malformation.moved] using
      Judged.refused (α := List Rule) place (.malformed (.notAList "")) []
  cases document with
  | array items => exact judged_listOfItems items 0
  | null | bool _ | number _ | string _ | object _ => exact misshapen

end Rule

namespace Rulebook

variable {policy : OperatorPolicy}

def ActionsRead (policy : OperatorPolicy) (document : Json) (actions : List (String × List Rule)) :
    Prop :=
  ∃ members, document = .object members ∧ Keyed.Related (Rule.ListReads policy) members actions

theorem actionsOfMembers_eq_ok_iff {resource : String} {members : List (String × Json)}
    {actions : List (String × List Rule)} :
    actionsOfMembers policy resource members = .ok actions ↔
      Keyed.Related (Rule.ListReads policy) members actions := by
  induction members generalizing actions with
  | nil => simp [actionsOfMembers, Keyed.Related, eq_comm]
  | cons member rest ih =>
    obtain ⟨action, value⟩ := member
    rw [actionsOfMembers]
    refine read_cons_eq_ok_iff (fun read => ?_) fun _ => ih
    simp [Rule.listOfJson_eq_ok_iff, Prod.ext_iff, and_comm]

theorem resourcesOfMembers_eq_ok_iff {members : List (String × Json)}
    {resources : List (String × List (String × List Rule))} :
    resourcesOfMembers policy members = .ok resources ↔
      Keyed.Related (ActionsRead policy) members resources := by
  induction members generalizing resources with
  | nil => simp [resourcesOfMembers, Keyed.Related, eq_comm]
  | cons member rest ih =>
    obtain ⟨resource, value⟩ := member
    cases value with
    | object inner =>
      rw [resourcesOfMembers]
      refine read_cons_eq_ok_iff (fun read => ?_) fun _ => ih
      simp [actionsOfMembers_eq_ok_iff, ActionsRead, Prod.ext_iff, and_comm]
    | null | bool _ | number _ | string _ | array _ =>
      simp [resourcesOfMembers, ActionsRead, Keyed.Related, List.forall₂_cons_left_iff]

theorem ofJson_eq_ok_iff {document : Json} {book : Rulebook} :
    ofJson policy document = .ok book ↔
      ∃ members, document = .object members ∧
        Keyed.Related (ActionsRead policy) members book.resources := by
  cases document with
  | object members =>
    simp only [ofJson, bind_eq_ok_iff, pure_eq_ok_iff, resourcesOfMembers_eq_ok_iff, Json.object.injEq,
      exists_eq_left']
    constructor
    · rintro ⟨resources, hr, rfl⟩
      exact hr
    · exact fun hr => ⟨_, hr, rfl⟩
  | null | bool _ | number _ | string _ | array _ => simp [ofJson]

/-- The rules that a document lists, in its order. -/
def listed (document : Json) : List Json :=
  (document.object?.getD []).flatMap fun resource =>
    (resource.2.object?.getD []).flatMap fun action => action.2.items

theorem get?_ofJson {document : Json} {book : Rulebook} (h : ofJson policy document = .ok book)
    (resource action : String) :
    Option.Rel (Rule.ListReads policy) ((document.get? resource).bind (Json.get? action))
      (book.get? resource action) := by
  obtain ⟨members, rfl, resources⟩ := ofJson_eq_ok_iff.1 h
  refine rel_bind (resources.get? resource) fun value actions read => ?_
  obtain ⟨inner, rfl, related⟩ := read
  exact related.get? action

theorem rules_ofJson {document : Json} {book : Rulebook} (h : ofJson policy document = .ok book) :
    List.Forall₂ (Rule.Reads policy) (listed document) book.rules := by
  obtain ⟨members, rfl, resources⟩ := ofJson_eq_ok_iff.1 h
  refine List.rel_flatMap resources ?_
  rintro ⟨_, _⟩ ⟨_, _⟩ ⟨rfl, inner, rfl, actions⟩
  refine List.rel_flatMap actions ?_
  rintro ⟨_, _⟩ ⟨_, _⟩ ⟨rfl, items, rfl, rules⟩
  exact rules

def actionOffences (policy : OperatorPolicy) (resource : String) : Json → List (String × Fault)
  | .object members => members.flatMap fun action =>
    Rule.offences policy (memberPlace resource action.1) action.2
  | got => [(resource, .malformed (.notAnObject "" got))]

/-- Everything that is wrong with a document, in its order: what is no object or no list, and each
rule that is refused when it is read on its own. -/
def offences (policy : OperatorPolicy) : Json → List (String × Fault)
  | .object members => members.flatMap fun resource =>
    actionOffences policy resource.1 resource.2
  | got => [("rule document", .malformed (.notAnObject "" got))]

theorem judged_notAnObject (place : String) (got : Json) :
    Judged [(place, .malformed (.notAnObject "" got))]
      (.error (.malformed (.notAnObject place got)) : Except Fault α) := by
  simpa [Fault.moved, Malformation.moved] using
    Judged.refused (α := α) place (.malformed (.notAnObject "" got)) []

theorem judged_actionsOfMembers (resource : String) (members : List (String × Json)) :
    Judged (actionOffences policy resource (.object members))
      (actionsOfMembers policy resource members) := by
  rw [actionOffences]
  induction members with
  | nil => exact .accepted []
  | cons member rest ih =>
    rw [List.flatMap_cons, actionsOfMembers]
    exact (Rule.judged_listOfJson member.2).bind fun rules => ih.map _

theorem judged_resourcesOfMembers (members : List (String × Json)) :
    Judged (offences policy (.object members)) (resourcesOfMembers policy members) := by
  rw [offences]
  induction members with
  | nil => exact .accepted []
  | cons member rest ih =>
    obtain ⟨resource, value⟩ := member
    rw [List.flatMap_cons]
    cases value with
    | object inner =>
      rw [resourcesOfMembers]
      exact (judged_actionsOfMembers resource inner).bind fun actions => ih.map _
    | null | bool _ | number _ | string _ | array _ =>
      have misshapen := judged_notAnObject (α := List (String × List Rule)) resource
      exact (misshapen _).bind fun actions => ih.map _

/-- A document is read as a rulebook if nothing is wrong with it, and refused for what is first. -/
theorem judged_ofJson (document : Json) :
    Judged (offences policy document) (ofJson policy document) := by
  cases document with
  | object members => exact (judged_resourcesOfMembers members).map _
  | null | bool _ | number _ | string _ | array _ => exact judged_notAnObject _ _

theorem actionOffences_eq_nil_iff {resource : String} {document : Json} :
    actionOffences policy resource document = [] ↔
      ∃ actions, document = .object actions ∧ ∀ action ∈ actions,
        ∃ items, action.2 = .array items ∧ ∀ item ∈ items, ∃ rule, Rule.Reads policy item rule := by
  cases document with
  | object members => simp [actionOffences, Rule.offences_eq_nil_iff]
  | null | bool _ | number _ | string _ | array _ => simp [actionOffences]

theorem offences_eq_nil_iff {document : Json} :
    offences policy document = [] ↔
      ∃ resources, document = .object resources ∧ ∀ resource ∈ resources,
        ∃ actions, resource.2 = .object actions ∧ ∀ action ∈ actions,
          ∃ items, action.2 = .array items ∧ ∀ item ∈ items, ∃ rule, Rule.Reads policy item rule := by
  cases document with
  | object members => simp [offences, actionOffences_eq_nil_iff]
  | null | bool _ | number _ | string _ | array _ => simp [offences]

/-- Reading a rulebook is reading its rules, all or nothing. A document is read just if it is an object
of objects of lists and each listed rule is read on its own. The rulebook then has under a resource and
an action what the rules listed there are read as, in their order, and nothing where the document has
nothing; and it counts the rules that are listed. Any other document is refused for what is wrong with
it first, in its order. Where a rule or a condition stands does not show but in the places of faults. -/
theorem ofJson_pointwise (policy : OperatorPolicy) (document : Json) :
    ((∃ book, ofJson policy document = .ok book) ↔
      ∃ resources, document = .object resources ∧ ∀ resource ∈ resources,
        ∃ actions, resource.2 = .object actions ∧ ∀ action ∈ actions,
          ∃ items, action.2 = .array items ∧ ∀ item ∈ items, ∃ rule, Rule.Reads policy item rule) ∧
    (∀ book, ofJson policy document = .ok book →
      (∀ resource action, Option.Rel (Rule.ListReads policy)
        ((document.get? resource).bind (Json.get? action)) (book.get? resource action)) ∧
      List.Forall₂ (Rule.Reads policy) (listed document) book.rules ∧
      book.ruleCount = (listed document).length) ∧
    (∀ fault, ofJson policy document = .error fault →
      ∃ place own, (offences policy document).head? = some (place, own) ∧
        fault = own.moved place ∧ fault.code = own.code) ∧
    (∀ place inner,
      Rule.ofJson policy place inner = (Rule.ofJson policy "" inner).mapError (Fault.moved place) ∧
      Condition.ofJson policy place inner =
        (Condition.ofJson policy "" inner).mapError (Fault.moved place)) := by
  refine ⟨?_, fun book read => ?_, fun fault failed => ?_, fun place inner => ?_⟩
  · rw [(judged_ofJson document).exists_ok_iff, offences_eq_nil_iff]
  · have rules := rules_ofJson read
    exact ⟨get?_ofJson read, rules, rules.length_eq.symm⟩
  · obtain ⟨place, own, first, rfl⟩ := (judged_ofJson document).head?_of_error failed
    exact ⟨place, own, first, rfl, Fault.code_moved place own⟩
  · exact ⟨(Rule.placed_ofJson policy inner).eq_moved place,
      (Condition.placed_ofJson policy inner).eq_moved place⟩

def deskDocument : Json :=
  .object [
    ("task", .object [
      ("get", .array [
        .object [("result", .string "allow"), ("rule", .object [("sbj.role", .string "lead")])],
        .object [("result", .string "deny"), ("rule", .object [])]]),
      ("put", .array [])]),
    ("*", .object [
      ("*", .array [.object [("result", .string "allow"), ("rule", .object []),
        ("mask", .array [.string "total"])]])])]

def deskBook : Rulebook :=
  ⟨[("task", [("get", [⟨[.compare "sbj.role" .eq (.string "lead")], [], .allow⟩, ⟨[], [], .deny⟩]),
      ("put", [])]),
    ("*", [("*", [⟨[], ["total"], .allow⟩])])]⟩

def brokenDocument : Json :=
  .object [("task", .object [
    ("get", .array [.object [("result", .string "deny"), ("rule", .object [])],
      .object [("result", .string "allow"),
        ("rule", .object [("sbj.role", .object [("near", .string "lead")])])]]),
    ("put", .null)])]

theorem ofJson_pointwise_desk :
    ofJson .strict deskDocument = .ok deskBook ∧
      Option.Rel (Rule.ListReads .strict) ((deskDocument.get? "task").bind (Json.get? "get"))
        (deskBook.get? "task" "get") ∧
      deskBook.ruleCount = (listed deskDocument).length ∧ (listed deskDocument).length = 3 ∧
      ofJson .strict brokenDocument = .error (.unknownOperator "near" "task.get[1].rule.sbj.role") ∧
      ∃ place own, (offences .strict brokenDocument).head? = some (place, own) ∧
        .unknownOperator "near" "task.get[1].rule.sbj.role" = own.moved place ∧
        "gatekeeper::abac::unknown_operator" = own.code := by
  have read : ofJson .strict deskDocument = .ok deskBook := by cbv
  have failed : ofJson .strict brokenDocument =
      .error (.unknownOperator "near" "task.get[1].rule.sbj.role") := by cbv
  have books := (ofJson_pointwise .strict deskDocument).2.1 deskBook read
  have faults := (ofJson_pointwise .strict brokenDocument).2.2.1 _ failed
  exact ⟨read, books.1 "task" "get", books.2.2, rfl, failed, faults⟩

end Rulebook
end AccessControl
