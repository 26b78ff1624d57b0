import AccessControl.Datum
import AccessControl.Json.Numeral
import AccessControl.Keyed

/-! The nodes of indented documents. A plain scalar without a tag is what it looks like: a number, a
truth value, nothing at all, or a text. -/
namespace AccessControl.Yaml

inductive Node where
  | text (s : String)
  | integer (n : Int)
  | real (written : String)
  | boolean (b : Bool)
  | null
  /-- What its tag does not allow, or a reference to a node that is not complete. -/
  | invalid
  | list (items : List Node)
  | table (members : List (Node × Node))

structure Tag where
  handle : String
  suffix : String

namespace Tag

def core : String := "tag:yaml.org,2002:"

end Tag

def signed? (base : Nat) (cs : List Char) : Option Int := do
  let (negative, digits) := match cs with
    | '-' :: rest => (true, rest)
    | '+' :: rest => (false, rest)
    | _ => (false, cs)
  let magnitude ← if digits.isEmpty then none else digitsValue? base digits
  let value : Int := if negative then -magnitude else magnitude
  if -0x8000000000000000 ≤ value ∧ value < 0x8000000000000000 then return value else none

def notFiniteWords : List String := ["inf", "infinity", "nan"]

/-- Further words for them, which no number can be read from. -/
def unreadable : List String :=
  [".inf", ".Inf", ".INF", "+.inf", "+.Inf", "+.INF", "-.inf", "-.Inf", "-.INF", ".nan", ".NAN"]

def isReal (text : String) : Bool :=
  let unsigned := match text.toList with
    | '+' :: rest | '-' :: rest => rest
    | cs => cs
  unreadable.contains text || (Numeral.unsigned? false unsigned).isSome
    || notFiniteWords.contains (String.ofList (unsigned.map Char.toLower))

def marked? : List Char → Option Int
  | '0' :: 'x' :: digits => signed? 16 digits
  | '0' :: 'o' :: digits => signed? 8 digits
  | '+' :: digits => signed? 10 digits
  | _ => none

namespace Node

def ofPlain (text : String) : Node :=
  match marked? text.toList <|> signed? 10 text.toList with
  | some n => integer n
  | none =>
    match text with
    | "~" | "null" => null
    | "true" => boolean true
    | "false" => boolean false
    | _ => if isReal text then real text else .text text

/-- A plain scalar under a tag, which is invalid where the tag does not allow it. -/
def ofTagged (tag : Tag) (text : String) : Node :=
  if tag.handle ≠ Tag.core then .text text
  else match tag.suffix, text with
    | "bool", "true" => boolean true
    | "bool", "false" => boolean false
    | "null", "~" | "null", "null" => null
    | "bool", _ | "null", _ => invalid
    | "int", _ => ((signed? 10 text.toList).map integer).getD invalid
    | "float", _ => if isReal text then real text else invalid
    | _, _ => .text text

/-- A scalar that is not plain is a text under every tag. -/
def ofScalar (tag : Option Tag) (plain : Bool) (text : String) : Node :=
  if !plain then .text text
  else match tag with
    | some tag => ofTagged tag text
    | none => ofPlain text

mutual

/-- Whether two nodes are the same; numbers that are no integers are compared as written. -/
def alike : Node → Node → Bool
  | text a, text b => a = b
  | integer a, integer b => a = b
  | real a, real b => a = b
  | boolean a, boolean b => a = b
  | null, null => true
  | invalid, invalid => true
  | list a, list b => itemsAlike a b
  | table a, table b => membersAlike a b
  | _, _ => false

def itemsAlike : List Node → List Node → Bool
  | [], [] => true
  | a :: as, b :: bs => alike a b && itemsAlike as bs
  | _, _ => false

def membersAlike : List (Node × Node) → List (Node × Node) → Bool
  | [], [] => true
  | (k, a) :: as, (l, b) :: bs => alike k l && alike a b && membersAlike as bs
  | _, _ => false

end

/-- The members that keys and values in turn make. What is invalid is no key, so that the next node
becomes one. A key must not be repeated, and one without a value is dropped. -/
def members? (done : List (Node × Node)) (key : Option Node) :
    List Node → Option (List (Node × Node))
  | [] => some done
  | node :: rest =>
    match key, node with
    | none, invalid => members? done none rest
    | none, node => members? done (some node) rest
    | some key, node =>
      if done.any fun member => alike key member.1 then none
      else members? (done ++ [(key, node)]) none rest

def table? (children : List Node) : Option Node := (members? [] none children).map table

def keyText? : Node → Option String
  | text s => some s
  | integer n => some (toString n)
  | real written => some written
  | boolean b => some (toString b)
  | _ => none

mutual

def toDatum? : Node → Option Datum
  | text s => some (.text s)
  | real written => if unreadable.contains written then none else some .other
  | list items => (toItems? items).map .list
  | table members => (toMembers? members).map fun members => .table (Keyed.ofList members)
  | integer _ | boolean _ | null | invalid => some .other

def toItems? : List Node → Option (List Datum)
  | [] => some []
  | item :: rest => do return (← toDatum? item) :: (← toItems? rest)

def toMembers? : List (Node × Node) → Option (List (String × Datum))
  | [] => some []
  | (key, value) :: rest => do
    return (← keyText? key, ← toDatum? value) :: (← toMembers? rest)

end

end Node

end AccessControl.Yaml
