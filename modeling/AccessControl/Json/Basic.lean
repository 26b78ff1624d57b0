import AccessControl.Keyed
import AccessControl.Number.Binary64

/-! Attribute values. A number keeps the kind it was written in; its `view` forgets it. Objects
are ordered, and in a well-formed value no object has a key twice. -/
namespace AccessControl

/-- An integer lies within the signed or the unsigned range of 64 bits. -/
inductive Number where
  | integer (value : Int)
    (inRange : -0x8000000000000000 ≤ value ∧ value < 0x10000000000000000 := by decide)
  | float (value : Binary64)
deriving DecidableEq

namespace Number

def ofInt? (n : Int) : Option Number :=
  if h : -0x8000000000000000 ≤ n ∧ n < 0x10000000000000000 then some (.integer n h) else none

def view : Number → Binary64
  | .integer n _ => .ofInt n
  | .float x => x

/-- Kind and value agree. Both zeros of the floating kind have one value. -/
def alike : Number → Number → Bool
  | .integer m _, .integer n _ => m == n
  | .float x, .float y => x.key == y.key
  | _, _ => false

end Number

inductive Json where
  | null
  | bool (value : Bool)
  | number (value : Number)
  | string (value : String)
  | array (items : List Json)
  | object (members : List (String × Json))

namespace Json

/-- An integer that fits a number. -/
def ofNat (n : Nat) : Json := (Number.ofInt? n).elim .null .number

def number? : Json → Option Binary64
  | .number n => some n.view
  | _ => none

def string? : Json → Option String
  | .string s => some s
  | _ => none

def object? : Json → Option (List (String × Json))
  | .object members => some members
  | _ => none

def isObject : Json → Bool
  | .object _ => true
  | _ => false

def get? (key : String) : Json → Option Json
  | .object members => Keyed.get? key members
  | _ => none

theorem isObject_eq_false_iff {value : Json} :
    value.isObject = false ↔ ∀ members, value ≠ .object members := by
  cases value <;> simp [isObject]

mutual

def WellFormed : Json → Prop
  | .array items => WellFormedItems items
  | .object members => (Keyed.keys members).Nodup ∧ WellFormedMembers members
  | _ => True

def WellFormedItems : List Json → Prop
  | [] => True
  | item :: rest => item.WellFormed ∧ WellFormedItems rest

def WellFormedMembers : List (String × Json) → Prop
  | [] => True
  | (_, value) :: rest => value.WellFormed ∧ WellFormedMembers rest

end

theorem wellFormedItems_iff {items : List Json} :
    WellFormedItems items ↔ ∀ item ∈ items, item.WellFormed := by
  induction items with
  | nil => simp [WellFormedItems]
  | cons item rest ih => simp [WellFormedItems, ih]

theorem wellFormedMembers_iff {members : List (String × Json)} :
    WellFormedMembers members ↔ ∀ entry ∈ members, entry.2.WellFormed := by
  induction members with
  | nil => simp [WellFormedMembers]
  | cons entry rest ih => simp [WellFormedMembers, ih]

end Json
end AccessControl
