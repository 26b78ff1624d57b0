import AccessControl.Proofs.Condition
import AccessControl.Rule

/-! The two policies on operators outside of the vocabulary. Reading a document under either goes the
same way up to the first such operator; there the strict reading ends, and the permissive one goes on
with an entry that tells it from what the strict one reads. -/
namespace AccessControl

variable {α β γ : Type}

def Entry.Known : Entry → Prop
  | .unknown .. => False
  | _ => True

/-- A permissive reading adds to a strict one: they have the same results among what is known
throughout, and what the strict one refuses for anything but its operators, the other refuses alike. -/
structure Conservative (known : α → Prop) (strict permissive : Except Fault α) : Prop where
  ok_iff : ∀ a, strict = .ok a ↔ permissive = .ok a ∧ known a
  error : ∀ fault, strict = .error fault → (∀ name place, fault ≠ .unknownOperator name place) →
    permissive = .error fault

namespace Conservative

variable {p : α → Prop} {q : β → Prop} {r : γ → Prop} {x y : Except Fault α}

theorem same (h : ∀ a, x = .ok a → p a) : Conservative p x x where
  ok_iff a := (and_iff_left_of_imp (h a)).symm
  error _ failed _ := failed

theorem refused (fault : Fault) : Conservative p (.error fault) (.error fault) :=
  same fun _ made => by cases made

theorem bind {f g : α → Except Fault β} (h : Conservative p x y)
    (onward : ∀ a, p a → Conservative q (f a) (g a)) (back : ∀ a b, g a = .ok b → q b → p a) :
    Conservative q (x >>= f) (y >>= g) where
  ok_iff b := by
    simp only [bind_eq_ok_iff]
    constructor
    · rintro ⟨a, ha, hb⟩
      obtain ⟨ha, pa⟩ := (h.ok_iff a).1 ha
      obtain ⟨hb, qb⟩ := ((onward a pa).ok_iff b).1 hb
      exact ⟨⟨a, ha, hb⟩, qb⟩
    · rintro ⟨⟨a, ha, hb⟩, qb⟩
      -- the permissive run may have come through what is not known, but not to a known result
      have pa := back a b hb qb
      exact ⟨a, (h.ok_iff a).2 ⟨ha, pa⟩, ((onward a pa).ok_iff b).2 ⟨hb, qb⟩⟩
  error fault failed other := by
    rw [bind_eq_error_iff] at failed ⊢
    rcases failed with failed | ⟨a, ha, failed⟩
    · exact .inl (h.error fault failed other)
    · obtain ⟨ha, pa⟩ := (h.ok_iff a).1 ha
      exact .inr ⟨a, ha, (onward a pa).error fault failed other⟩

theorem map {f : α → β} (h : Conservative p x y) (known : ∀ a, q (f a) ↔ p a) :
    Conservative q (do return f (← x)) (do return f (← y)) := by
  refine h.bind (fun a pa => same ?_) ?_
  · rintro _ ⟨⟩
    exact (known a).2 pa
  · rintro a _ ⟨⟩ qb
    exact (known a).1 qb

theorem both {f : α → β → γ} {xs ys : Except Fault β} (h : Conservative p x y)
    (hs : Conservative q xs ys) (known : ∀ a b, r (f a b) ↔ p a ∧ q b) :
    Conservative r (do return f (← x) (← xs)) (do return f (← y) (← ys)) := by
  refine h.bind (fun a pa => hs.map fun b => ?_) fun a c made rc => ?_
  · rw [known]
    exact and_iff_right pa
  · simp only [bind_eq_ok_iff, pure_eq_ok_iff] at made
    obtain ⟨b, -, rfl⟩ := made
    exact ((known a b).1 rc).1

end Conservative

namespace Entry

theorem everywhere_known_compare {operand : String} {operator : Operator} {value : Json} :
    Condition.Everywhere Known [.compare operand operator value] := by
  simp [Condition.everywhere_cons, Known, branches]

theorem everywhere_known_oneOf {operand : String} {values : Json} :
    Condition.Everywhere Known [.oneOf operand values] := by
  simp [Condition.everywhere_cons, Known, branches]

variable (place operand operator : String) (value : Json)

/-- Where the policies part, no entry is known that comes of it. -/
theorem conservative_unknownUnder :
    Conservative (fun entry => Condition.Everywhere Known [entry])
      (unknownUnder .strict place operand operator value)
      (unknownUnder .permissive place operand operator value) where
  ok_iff entry := by
    simp only [unknownUnder, reduceCtorEq, Except.ok.injEq, false_iff, not_and]
    rintro rfl
    simp [Condition.everywhere_cons, Known]
  error fault failed other := absurd (Except.error.inj failed).symm (other operator place)

theorem conservative_ofPair :
    Conservative (fun entry => Condition.Everywhere Known [entry])
      (ofPair .strict place operand operator value)
      (ofPair .permissive place operand operator value) := by
  unfold ofPair
  cases Operator.ofName? operator with
  | some named =>
    refine .same fun entry made => ?_
    simp only [bind_eq_ok_iff, pure_eq_ok_iff] at made
    obtain ⟨_, -, rfl⟩ := made
    exact everywhere_known_compare
  | none =>
    cases Aggregator.ofName? operator with
    | none => exact conservative_unknownUnder place operand operator value
    | some aggregator =>
      cases aggregator with
      | all | any => exact .refused _
      | oneOf =>
        cases value with
        | array items => exact .same fun entry made => Except.ok.inj made ▸ everywhere_known_oneOf
        | null | bool _ | number _ | string _ | object _ =>
          refine .same fun entry made => ?_
          dsimp only at made
          split at made
          · exact Except.ok.inj made ▸ everywhere_known_oneOf
          · cases made

end Entry

mutual

theorem Condition.conservative_ofJson (place : String) : (document : Json) →
    Conservative (Condition.Everywhere Entry.Known) (Condition.ofJson .strict place document)
      (Condition.ofJson .permissive place document)
  | .object members => by
    simp only [Condition.ofJson]
    exact Condition.conservative_ofMembers place members
  | .null | .bool _ | .number _ | .string _ | .array _ => .refused _

theorem Condition.conservative_ofMembers (place : String) : (members : List (String × Json)) →
    Conservative (Condition.Everywhere Entry.Known) (Condition.ofMembers .strict place members)
      (Condition.ofMembers .permissive place members)
  | [] => .same fun _ made => by
    obtain rfl := Except.ok.inj made
    exact Condition.everywhere_nil
  | (key, value) :: rest => by
    simp only [Condition.ofMembers]
    refine (Entry.conservative_ofMember _ key value).both
      (Condition.conservative_ofMembers place rest) fun entry others => ?_
    simp [Condition.everywhere_cons, and_assoc]

theorem Entry.conservative_ofMember (place key : String) : (value : Json) →
    Conservative (fun entry => Condition.Everywhere Entry.Known [entry])
      (Entry.ofMember .strict place key value) (Entry.ofMember .permissive place key value)
  | .array items => by
    simp only [Entry.ofMember]
    cases Aggregator.ofName? key with
    | none => exact Entry.conservative_unknownUnder place key key (.array items)
    | some aggregator =>
      have conditions := Condition.conservative_ofItems place 0 items
      cases aggregator with
      | oneOf => exact .same fun entry made => Except.ok.inj made ▸ Entry.everywhere_known_oneOf
      | all | any =>
        exact conditions.map fun _ => by simp [Condition.everywhere_cons, Entry.Known, Entry.branches]
  | .object [(operator, value)] => by
    simp only [Entry.ofMember]
    exact Entry.conservative_ofPair place key operator value
  | .object [] | .object (_ :: _ :: _) => .refused _
  | .null | .bool _ | .number _ | .string _ => by
    simp only [Entry.ofMember]
    refine .same fun entry made => ?_
    split at made
    · cases made
    · cases made
    · exact Except.ok.inj made ▸ Entry.everywhere_known_compare

theorem Condition.conservative_ofItems (place : String) (index : Nat) : (items : List Json) →
    Conservative (fun conditions : List Condition =>
        ∀ condition ∈ conditions, condition.Everywhere Entry.Known)
      (Condition.ofItems .strict place index items) (Condition.ofItems .permissive place index items)
  | [] => .same fun _ made => by
    obtain rfl := Except.ok.inj made
    simp
  | item :: rest => by
    simp only [Condition.ofItems]
    exact (Condition.conservative_ofJson _ item).both
      (Condition.conservative_ofItems place (index + 1) rest) fun _ _ => List.forall_mem_cons

end

namespace Rule

def Known (rule : Rule) : Prop := rule.condition.Everywhere Entry.Known

theorem conservative_ofJson (place : String) (document : Json) :
    Conservative Known (ofJson .strict place document) (ofJson .permissive place document) := by
  cases document with
  | object members =>
    simp only [ofJson]
    cases Keyed.get? "rule" members with
    | none => exact .refused _
    | some value =>
      refine (Condition.conservative_ofJson _ value).bind (fun condition known => .same ?_) ?_
      · intro rule made
        simp only [bind_eq_ok_iff, pure_eq_ok_iff] at made
        obtain ⟨_, -, _, -, rfl⟩ := made
        exact known
      · intro condition rule made known
        simp only [bind_eq_ok_iff, pure_eq_ok_iff] at made
        obtain ⟨_, -, _, -, rfl⟩ := made
        exact known
  | null | bool _ | number _ | string _ | array _ => exact .refused _

theorem conservative_listOfItems (place : String) (index : Nat) (items : List Json) :
    Conservative (fun rules => ∀ rule ∈ rules, Known rule) (listOfItems .strict place index items)
      (listOfItems .permissive place index items) := by
  induction items generalizing index with
  | nil => exact .same fun rules made => by simp [← Except.ok.inj made]
  | cons item rest ih =>
    exact (conservative_ofJson _ item).both (ih (index + 1)) fun _ _ => List.forall_mem_cons

theorem conservative_listOfJson (place : String) (document : Json) :
    Conservative (fun rules => ∀ rule ∈ rules, Known rule) (listOfJson .strict place document)
      (listOfJson .permissive place document) := by
  cases document with
  | array items => exact conservative_listOfItems place 0 items
  | null | bool _ | number _ | string _ | object _ => exact .refused _

end Rule

namespace Rulebook

theorem conservative_actionsOfMembers (resource : String) (members : List (String × Json)) :
    Conservative (fun actions => ∀ action ∈ actions, ∀ rule ∈ action.2, Rule.Known rule)
      (actionsOfMembers .strict resource members) (actionsOfMembers .permissive resource members) := by
  induction members with
  | nil => exact .same fun actions made => by simp [← Except.ok.inj made]
  | cons member rest ih =>
    exact (Rule.conservative_listOfJson _ member.2).both ih fun _ _ => List.forall_mem_cons

theorem conservative_resourcesOfMembers (members : List (String × Json)) :
    Conservative (fun resources => ∀ resource ∈ resources, ∀ action ∈ resource.2,
        ∀ rule ∈ action.2, Rule.Known rule)
      (resourcesOfMembers .strict members) (resourcesOfMembers .permissive members) := by
  induction members with
  | nil => exact .same fun resources made => by simp [← Except.ok.inj made]
  | cons member rest ih =>
    obtain ⟨resource, value⟩ := member
    cases value with
    | object inner =>
      exact (conservative_actionsOfMembers resource inner).both ih fun _ _ => List.forall_mem_cons
    | null | bool _ | number _ | string _ | array _ =>
      exact (Conservative.refused _).both ih fun _ _ => List.forall_mem_cons

theorem conservative_ofJson (document : Json) :
    Conservative (fun book => ∀ rule ∈ book.rules, Rule.Known rule) (ofJson .strict document)
      (ofJson .permissive document) := by
  cases document with
  | object members =>
    refine (conservative_resourcesOfMembers members).map fun resources => ?_
    simp only [rules, List.forall_mem_flatMap]
  | null | bool _ | number _ | string _ | array _ => exact .refused _

end Rulebook

/-- The permissive policy adds to the strict one, for conditions, rules and rulebooks alike: a document
is read as something under the strict policy just if it is read as the same under the permissive one and
no entry of that is unknown, at any depth; and what the strict policy refuses for another fault than an
unknown operator, the permissive one refuses for that very fault. -/
theorem permissive_conservative (place : String) (document : Json) :
    Conservative (Condition.Everywhere Entry.Known) (Condition.ofJson .strict place document)
      (Condition.ofJson .permissive place document) ∧
    Conservative Rule.Known (Rule.ofJson .strict place document)
      (Rule.ofJson .permissive place document) ∧
    Conservative (fun book => ∀ rule ∈ book.rules, Rule.Known rule) (Rulebook.ofJson .strict document)
      (Rulebook.ofJson .permissive document) :=
  ⟨Condition.conservative_ofJson place document, Rule.conservative_ofJson place document,
    Rulebook.conservative_ofJson document⟩

end AccessControl
