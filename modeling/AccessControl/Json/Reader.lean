import AccessControl.Json.Numeral
import AccessControl.Json.Token

/-! Reading a written value. The reader takes one token at a time and keeps the containers that
are still open. A repeated key keeps its first position and its last value. -/
namespace AccessControl.Json

def literal? (word : List Char) : Option Json :=
  if word = ['n', 'u', 'l', 'l'] then some .null
  else if word = ['t', 'r', 'u', 'e'] then some (.bool true)
  else if word = ['f', 'a', 'l', 's', 'e'] then some (.bool false)
  else none

def ofWord? (rule : DecimalRule) (word : List Char) : Option Json :=
  literal? word <|> do return .number (← (← Numeral.ofChars? word).number? rule)

structure Grammar where
  maxDepth : Nat
  value? : List Char → Option Json
  /-- The keys that may be written without quotes. -/
  key? : List Char → Option String
  lastComma : Bool

def Grammar.strict (maxDepth : Nat) (rule : DecimalRule) : Grammar :=
  ⟨maxDepth, ofWord? rule, fun _ => none, false⟩

def Grammar.file : Grammar := .strict 127 .scaled

/-- An open container without its last value: items last one first, or members and the key that
the value belongs to. -/
inductive Open where
  | items (done : List Json)
  | members (done : List (String × Json)) (key : String)

inductive Reader where
  | atValue (outer : List Open)
  | atItemOrEnd (done : List Json) (outer : List Open)
  | atKeyOrEnd (done : List (String × Json)) (outer : List Open)
  | atKey (done : List (String × Json)) (outer : List Open)
  | atColon (done : List (String × Json)) (key : String) (outer : List Open)
  | behind (value : Json) (outer : List Open)

namespace Reader

/-- Reading on where a value must begin, inside `outer`. -/
def begin (g : Grammar) (outer : List Open) : Token → Option Reader
  | .word chars => (g.value? chars).map fun value => .behind value outer
  | .text s => some (.behind (.string s) outer)
  | .openBracket => if outer.length < g.maxDepth then some (.atItemOrEnd [] outer) else none
  | .openBrace => if outer.length < g.maxDepth then some (.atKeyOrEnd [] outer) else none
  | _ => none

def beginKey (g : Grammar) (done : List (String × Json)) (outer : List Open) :
    Token → Option Reader
  | .text key => some (.atColon done key outer)
  | .word chars => (g.key? chars).map fun key => .atColon done key outer
  | _ => none

def step (g : Grammar) : Reader → Token → Option Reader
  | .atValue outer, token => begin g outer token
  | .atItemOrEnd done outer, .closeBracket => some (.behind (.array done.reverse) outer)
  | .atItemOrEnd done outer, token => begin g (.items done :: outer) token
  | .atKeyOrEnd done outer, .closeBrace => some (.behind (.object done) outer)
  | .atKeyOrEnd done outer, token => beginKey g done outer token
  | .atKey done outer, token => beginKey g done outer token
  | .atColon done key outer, .colon => some (.atValue (.members done key :: outer))
  | .behind value (.items done :: outer), .comma =>
    if g.lastComma then some (.atItemOrEnd (value :: done) outer)
    else some (.atValue (.items (value :: done) :: outer))
  | .behind value (.items done :: outer), .closeBracket =>
    some (.behind (.array (value :: done).reverse) outer)
  | .behind value (.members done key :: outer), .comma =>
    let done := Keyed.insert key value done
    if g.lastComma then some (.atKeyOrEnd done outer) else some (.atKey done outer)
  | .behind value (.members done key :: outer), .closeBrace =>
    some (.behind (.object (Keyed.insert key value done)) outer)
  | _, _ => none

def result? : Reader → Option Json
  | .behind value [] => some value
  | _ => none

end Reader

def ofTokens? (g : Grammar) (tokens : List Token) : Option Json := do
  (← tokens.foldlM (Reader.step g) (.atValue [])).result?

def ofText? (g : Grammar) (text : String) : Option Json := do
  ofTokens? g (← Token.scan text)

end AccessControl.Json
