import AccessControl.Digit
import AccessControl.Json.Numeral

/-! The words of object notation with named structures: blanks and comments, which may be nested,
names, texts, characters, and numbers. Every reader returns what is behind it. -/
namespace AccessControl.Ron

def isBlank (c : Char) : Bool := c = ' ' || c = '\t' || c = '\n' || c = '\r'

def isNameStart (c : Char) : Bool := ('a' ≤ c && c ≤ 'z') || ('A' ≤ c && c ≤ 'Z') || c = '_'

def isNameChar (c : Char) : Bool := isNameStart c || isDigit c

def isRawNameChar (c : Char) : Bool := isNameChar c || c = '.' || c = '+' || c = '-'

def skipComment? : Nat → List Char → Option (List Char)
  | 0, cs => some cs
  | depth + 1, '/' :: '*' :: rest => skipComment? (depth + 2) rest
  | depth + 1, '*' :: '/' :: rest => skipComment? depth rest
  | depth + 1, _ :: rest => skipComment? (depth + 1) rest
  | _ + 1, [] => none

/-- The rest behind blanks and comments. -/
def skipSpace? : Nat → List Char → Option (List Char)
  | 0, _ => none
  | fuel + 1, cs =>
    match cs.dropWhile isBlank with
    | '/' :: '/' :: rest => skipSpace? fuel (rest.dropWhile (· ≠ '\n'))
    | '/' :: '*' :: rest => do skipSpace? fuel (← skipComment? 1 rest)
    | '/' :: _ => none
    | rest => some rest

def space? (cs : List Char) : Option (List Char) := skipSpace? (cs.length + 1) cs

def behind? : List Char → List Char → Option (List Char)
  | [], rest => some rest
  | _ :: _, [] => none
  | a :: as, b :: rest => if a = b then behind? as rest else none

def comma? (cs : List Char) : Option (Bool × List Char) := do
  match ← space? cs with
  | ',' :: rest => return (true, ← space? rest)
  | rest => return (false, rest)

/-- The rest behind a word that does not go on there. -/
def behindWord? (word : String) (cs : List Char) : Option (List Char) :=
  (behind? word.toList cs).filter fun rest => !(rest.head?.any isNameChar)

/-- A name. Marked as raw, it may begin with a digit and have signs and dots. -/
def name? (cs : List Char) : Option (String × List Char) :=
  let plain : Option (String × List Char) :=
    let name := cs.takeWhile isNameChar
    if (cs.takeWhile isRawNameChar).length > name.length then none
    else some (String.ofList name, cs.drop name.length)
  match cs with
  | 'r' :: '#' :: rest =>
    let name := rest.takeWhile isRawNameChar
    if name.isEmpty then none else some (String.ofList name, rest.drop name.length)
  | 'r' :: '"' :: _ | ['r'] => none
  | c :: _ => if isNameStart c then plain else none
  | [] => none

def escapedChar? : Char → Option Char
  | '"' => some '"'
  | '\'' => some '\''
  | '\\' => some '\\'
  | 'n' => some '\n'
  | 'r' => some '\r'
  | 't' => some '\t'
  | '0' => some '\x00'
  | _ => none

def escape? : List Char → Option (Char × List Char)
  | 'x' :: a :: b :: rest => (digitsValue? 16 [a, b]).map fun value => (.ofNat value, rest)
  | 'u' :: '\x7b' :: rest => do
    let digits := rest.takeWhile (· ≠ '\x7d')
    let value ← digitsValue? 16 digits
    if !digits.isEmpty && digits.length ≤ 6 && value.isValidChar then
      return (.ofNat value, rest.drop (digits.length + 1))
    else none
  | c :: rest => (escapedChar? c).map fun e => (e, rest)
  | [] => none

def quoted? : Nat → List Char → Option (List Char × List Char)
  | 0, _ => none
  | _ + 1, [] => none
  | _ + 1, '"' :: rest => some ([], rest)
  | fuel + 1, '\\' :: rest => do
    let (c, rest) ← escape? rest
    let (chars, rest) ← quoted? fuel rest
    return (c :: chars, rest)
  | fuel + 1, c :: rest => do
    let (chars, rest) ← quoted? fuel rest
    return (c :: chars, rest)

/-- A raw text up to its closing quote, which as many number signs follow as stood before it. -/
def raw? (signs : Nat) : List Char → Option (List Char × List Char)
  | [] => none
  | c :: rest =>
    if c = '"' && (rest.take signs) == List.replicate signs '#' then some ([], rest.drop signs)
    else (raw? signs rest).map fun (chars, rest) => (c :: chars, rest)

def text? : List Char → Option (String × List Char)
  | '"' :: rest => (quoted? (rest.length + 1) rest).map fun (chars, rest) => (.ofList chars, rest)
  | 'r' :: rest =>
    let signs := (rest.takeWhile (· = '#')).length
    match rest.drop signs with
    | '"' :: rest => (raw? signs rest).map fun (chars, rest) => (.ofList chars, rest)
    | _ => none
  | _ => none

def character? : List Char → Option (Char × List Char)
  | '\'' :: '\\' :: rest => do
    match ← escape? rest with
    | (c, '\'' :: rest) => return (c, rest)
    | _ => none
  | '\'' :: c :: '\'' :: rest => if c = '\'' then none else some (c, rest)
  | _ => none

def isIntegerChar (c : Char) : Bool := (hexValue? c).isSome || c = '_'

def isRealChar (c : Char) : Bool :=
  isDigit c || c = 'e' || c = 'E' || c = '.' || c = '+' || c = '-' || c = '_'

def notFiniteWords : List String := ["inf", "+inf", "-inf", "NaN", "+NaN", "-NaN"]

def behindSign : List Char → List Char
  | '+' :: rest | '-' :: rest => rest
  | cs => cs

/-- The rest behind a number that is not finite, or that has decimal digits and no underscores. -/
def behindReal? (cs : List Char) : Option (List Char) :=
  let word := cs.takeWhile isRealChar
  (notFiniteWords.findSome? (behindWord? · cs)) <|>
    (Numeral.unsigned? false (behindSign word)).map fun _ => cs.drop word.length

def base : List Char → Nat × List Char
  | '0' :: 'x' :: rest => (16, rest)
  | '0' :: 'b' :: rest => (2, rest)
  | '0' :: 'o' :: rest => (8, rest)
  | cs => (10, cs)

/-- The rest behind an integer of 64 bits. It may have underscores behind its first digit. -/
def behindInteger? (cs : List Char) : Option (List Char) := do
  let signed := cs.head? = some '-' || cs.head? = some '+'
  let (base, cs') := base (behindSign cs)
  let digits := cs'.takeWhile isIntegerChar
  let value ← digitsValue? base (digits.filter (· ≠ '_'))
  let limit := if !signed then 0x10000000000000000
    else if cs.head? = some '-' then 0x8000000000000001
    else 0x8000000000000000
  if digits.isEmpty || digits.head? = some '_' || limit ≤ value then none
  else return cs'.drop digits.length

/-- The rest behind a number. What is no integer is read as a decimal number. -/
def behindNumber? (cs : List Char) : Option (List Char) :=
  let unsigned := behindSign cs
  if (unsigned.takeWhile isIntegerChar).length < (unsigned.takeWhile isRealChar).length then
    behindReal? cs
  else behindInteger? cs <|> behindReal? cs

end AccessControl.Ron
