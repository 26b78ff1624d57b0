import AccessControl.Proofs.Fallible
import AccessControl.Rule

/-! Places in documents. A reader is told where the document stands that it reads, and tells the
readers of its parts. The place shows in faults alone: reading further inside of a document is reading
as before, with the places in faults extended. -/
namespace AccessControl

variable {α β : Type}

/-- The cause, told from further outside. -/
def Malformation.moved (outer : String) : Malformation → Malformation
  | notAnObject place got => notAnObject (outer ++ place) got
  | notAList place => notAList (outer ++ place)
  | missingCondition place => missingCondition (outer ++ place)
  | missingResult place => missingResult (outer ++ place)
  | unknownResult place text => unknownResult (outer ++ place) text
  | maskEntry place got => maskEntry (outer ++ place) got
  | maskNotAList place got => maskNotAList (outer ++ place) got
  | notASinglePair place got => notASinglePair (outer ++ place) got
  | negationNotASinglePair place got => negationNotASinglePair (place.map (outer ++ ·)) got
  | notComparable place operator nested got => notComparable (outer ++ place) operator nested got
  | notAMembershipList place got => notAMembershipList (outer ++ place) got
  | groupAsOperator place aggregator => groupAsOperator (outer ++ place) aggregator
  | groupNotAList place got => groupNotAList (outer ++ place) got

namespace Fault

def moved (outer : String) : Fault → Fault
  | malformed cause => malformed (cause.moved outer)
  | unknownOperator name place => unknownOperator name (outer ++ place)
  | unsupportedNesting place aggregator => unsupportedNesting (place.map (outer ++ ·)) aggregator
  | fault => fault

@[simp] theorem code_moved (outer : String) (fault : Fault) :
    (fault.moved outer).code = fault.code := by
  cases fault <;> rfl

end Fault

/-- A reader to which the place is nothing but the place of its faults. -/
def Placed (read : String → Except Fault α) : Prop :=
  ∀ outer place, read (outer ++ place) = (read place).mapError (Fault.moved outer)

namespace Placed

variable {read : String → Except Fault α} {next : String → α → Except Fault β}

theorem const (a : α) : Placed fun _ => .ok a := fun _ _ => rfl

theorem bind (h : Placed read) (hn : ∀ a, Placed fun place => next place a) :
    Placed fun place => read place >>= next place := by
  intro outer place
  simp only [h outer place]
  cases read place with
  | error fault => rfl
  | ok a => exact hn a outer place

theorem map (h : Placed read) (f : α → β) : Placed fun place => read place >>= fun a => pure (f a) :=
  h.bind fun a => const (f a)

theorem member (h : Placed read) (key : String) : Placed fun place => read (memberPlace place key) := by
  intro outer place
  have inner : memberPlace (outer ++ place) key = outer ++ memberPlace place key := by
    simp [memberPlace, String.append_assoc]
  simp only [inner]
  exact h outer _

theorem item (h : Placed read) (index : Nat) : Placed fun place => read (itemPlace place index) := by
  intro outer place
  have inner : itemPlace (outer ++ place) index = outer ++ itemPlace place index := by
    simp [itemPlace, String.append_assoc]
  simp only [inner]
  exact h outer _

theorem eq_moved (h : Placed read) (place : String) :
    read place = (read "").mapError (Fault.moved place) := by
  simpa using h place ""

/-- Whether a document is accepted, and what it is read as, has nothing to do with its place. -/
theorem eq_ok_iff (h : Placed read) {place other : String} {a : α} :
    read place = .ok a ↔ read other = .ok a := by
  rw [h.eq_moved place, h.eq_moved other, mapError_eq_ok_iff, mapError_eq_ok_iff]

end Placed

theorem placed_negatedOperator (name : String) :
    Placed fun place => (negatedOperator name).mapError (Fault.locate place) := by
  intro outer place
  rw [negatedOperator]
  cases Operator.ofName? name with
  | some operator => rfl
  | none => cases Aggregator.ofName? name <;> rfl

theorem placed_checkComparable : (value : Json) → (nested : Bool) → (operator : Operator) →
    Placed fun place => checkComparable place nested operator value
  | value, nested, .eq => by
    simpa only [checkComparable] using Placed.const ()
  | .object [(name, inner)], nested, .not => by
    simp only [checkComparable]
    exact (placed_negatedOperator name).bind fun operator => placed_checkComparable inner true operator
  | .object [], nested, .not | .object (_ :: _ :: _), nested, .not => by
    simp only [checkComparable]
    exact fun _ _ => rfl
  | .null, nested, .not | .bool _, nested, .not | .number _, nested, .not | .string _, nested, .not
  | .array _, nested, .not => by
    simpa only [checkComparable] using Placed.const ()
  | value, nested, .lt | value, nested, .gt => by
    intro outer place
    simp only [checkComparable]
    split <;> rfl

theorem Entry.placed_unknownUnder (policy : OperatorPolicy) (operand operator : String) (value : Json) :
    Placed fun place => unknownUnder policy place operand operator value := by
  cases policy with
  | strict => exact fun _ _ => rfl
  | permissive => exact .const _

theorem Entry.placed_ofPair (policy : OperatorPolicy) (operand operator : String) (value : Json) :
    Placed fun place => ofPair policy place operand operator value := by
  unfold ofPair
  cases Operator.ofName? operator with
  | some known => exact (placed_checkComparable value false known).map _
  | none =>
    cases Aggregator.ofName? operator with
    | none => exact placed_unknownUnder policy operand operator value
    | some aggregator =>
      cases aggregator with
      | all | any => exact fun _ _ => rfl
      | oneOf =>
        cases value with
        | array items => exact .const _
        | null | bool _ | number _ | string _ | object _ =>
          intro outer place
          dsimp only
          split <;> rfl

section

variable (policy : OperatorPolicy)

mutual

theorem Condition.placed_ofJson : (document : Json) →
    Placed fun place => Condition.ofJson policy place document
  | .object members => by
    simp only [Condition.ofJson]
    exact Condition.placed_ofMembers members
  | .null | .bool _ | .number _ | .string _ | .array _ => fun _ _ => rfl

theorem Condition.placed_ofMembers : (members : List (String × Json)) →
    Placed fun place => Condition.ofMembers policy place members
  | [] => .const []
  | (key, value) :: rest => by
    simp only [Condition.ofMembers]
    exact ((Entry.placed_ofMember key value).member key).bind fun entry =>
      (Condition.placed_ofMembers rest).map _

theorem Entry.placed_ofMember (key : String) : (value : Json) →
    Placed fun place => Entry.ofMember policy place key value
  | .array items => by
    simp only [Entry.ofMember]
    cases Aggregator.ofName? key with
    | none => exact Entry.placed_unknownUnder policy key key (.array items)
    | some aggregator =>
      cases aggregator with
      | oneOf => exact .const _
      | all | any => exact (Condition.placed_ofItems items 0).map _
  | .object [(operator, value)] => by
    simp only [Entry.ofMember]
    exact Entry.placed_ofPair policy key operator value
  | .object [] | .object (_ :: _ :: _) => fun _ _ => rfl
  | .null | .bool _ | .number _ | .string _ => by
    intro outer place
    simp only [Entry.ofMember]
    split <;> rfl

theorem Condition.placed_ofItems : (items : List Json) → (index : Nat) →
    Placed fun place => Condition.ofItems policy place index items
  | [], index => .const []
  | item :: rest, index => by
    simp only [Condition.ofItems]
    exact ((Condition.placed_ofJson item).item index).bind fun condition =>
      (Condition.placed_ofItems rest (index + 1)).map _

end

end

namespace Rule

theorem placed_maskOfItems (items : List Json) : Placed fun place => maskOfItems place items := by
  induction items with
  | nil => exact .const []
  | cons item rest ih =>
    cases item with
    | string path =>
      simp only [maskOfItems]
      exact ih.map _
    | null | bool _ | number _ | array _ | object _ => exact fun _ _ => rfl

theorem placed_maskOfJson (mask : Option Json) : Placed fun place => maskOfJson place mask := by
  match mask with
  | none | some .null => exact .const []
  | some (.array items) => exact placed_maskOfItems items
  | some (.bool _) | some (.number _) | some (.string _) | some (.object _) => exact fun _ _ => rfl

theorem placed_resultOfJson (result : Option Json) :
    Placed fun place => resultOfJson place result := by
  match result with
  | some (.string text) =>
    intro outer place
    simp only [resultOfJson]
    cases Resolution.ofName? text <;> rfl
  | none | some .null | some (.bool _) | some (.number _) | some (.array _) | some (.object _) =>
    exact fun _ _ => rfl

theorem placed_ofJson (policy : OperatorPolicy) (document : Json) :
    Placed fun place => ofJson policy place document := by
  cases document with
  | object members =>
    simp only [ofJson]
    cases Keyed.get? "rule" members with
    | none => exact fun _ _ => rfl
    | some value =>
      exact ((Condition.placed_ofJson policy value).member "rule").bind fun condition =>
        (placed_resultOfJson _).bind fun result => (placed_maskOfJson _).map _
  | null | bool _ | number _ | string _ | array _ => exact fun _ _ => rfl

end Rule
end AccessControl
