import AccessControl.Digit

/-! Texts of TOML documents, with escapes or as they are, on one line or on several. Every reader
returns what is behind the text. -/
namespace AccessControl.Toml

def isBlank (c : Char) : Bool := c = ' ' || c = '\t'

def isPlain (c : Char) : Bool := c = '\t' || (0x20 ≤ c.toNat && c.toNat ≠ 0x7f)

def withLineFeeds : List Char → List Char
  | '\r' :: '\n' :: rest => '\n' :: withLineFeeds rest
  | c :: rest => c :: withLineFeeds rest
  | [] => []

def escapedChar? : Char → Option Char
  | '"' => some '"'
  | '\\' => some '\\'
  | 'b' => some '\x08'
  | 'f' => some '\x0c'
  | 'n' => some '\n'
  | 'r' => some '\r'
  | 't' => some '\t'
  | _ => none

def escapeDigits : Char → Nat
  | 'u' => 4
  | 'U' => 8
  | _ => 0

def escape? : List Char → Option (Char × List Char)
  | [] => none
  | c :: rest =>
    match escapeDigits c with
    | 0 => (escapedChar? c).map fun e => (e, rest)
    | count => do
      let digits := rest.take count
      let value ← digitsValue? 16 digits
      if digits.length = count && value.isValidChar then return (.ofNat value, rest.drop count)
      else none

/-- The rest behind an escaped end of a line and all blank lines and blanks there. -/
def behindEscapedEnd? (cs : List Char) : Option (List Char) :=
  match cs.dropWhile isBlank with
  | '\n' :: rest => some (rest.dropWhile fun c => isBlank c || c = '\n')
  | _ => none

def line? (quote : Char) : Nat → List Char → Option (List Char × List Char)
  | 0, _ => none
  | _ + 1, [] => none
  | fuel + 1, c :: rest =>
    if c = quote then some ([], rest)
    else if c = '\\' ∧ quote = '"' then do
      let (c, rest) ← escape? rest
      let (chars, rest) ← line? quote fuel rest
      return (c :: chars, rest)
    else if isPlain c then (line? quote fuel rest).map fun (chars, rest) => (c :: chars, rest)
    else none

/-- A text on several lines up to its three closing quotes. One or two quotes may stand before
them. -/
def lines? (quote : Char) : Nat → List Char → Option (List Char × List Char)
  | 0, _ => none
  | _ + 1, [] => none
  | fuel + 1, c :: rest =>
    let add (c : Char) (rest : List Char) : Option (List Char × List Char) :=
      (lines? quote fuel rest).map fun (chars, rest) => (c :: chars, rest)
    if c = quote then
      let quotes := ((c :: rest).takeWhile (· = quote)).length
      if quotes < 3 then add c rest
      else
        let kept := min (quotes - 3) 2
        some (List.replicate kept quote, rest.drop (kept + 2))
    else if c = '\\' ∧ quote = '"' then
      match behindEscapedEnd? rest with
      | some rest => lines? quote fuel rest
      | none => do
        let (c, rest) ← escape? rest
        add c rest
    else if c = '\n' || isPlain c then add c rest
    else none

/-- The end of a line directly behind three opening quotes does not count. -/
def dropLineEnd : List Char → List Char
  | '\n' :: rest => rest
  | cs => cs

def quoted? (cs : List Char) : Option (String × List Char) :=
  match cs with
  | c :: rest =>
    if c = '"' ∨ c = '\'' then
      (line? c (rest.length + 1) rest).map fun (chars, rest) => (.ofList chars, rest)
    else none
  | [] => none

def text? (cs : List Char) : Option (String × List Char) :=
  match cs with
  | a :: b :: c :: rest =>
    if (a = '"' ∨ a = '\'') ∧ a = b ∧ b = c then
      let content := dropLineEnd rest
      (lines? a (content.length + 1) content).map fun (chars, rest) => (.ofList chars, rest)
    else quoted? cs
  | _ => quoted? cs

end AccessControl.Toml
