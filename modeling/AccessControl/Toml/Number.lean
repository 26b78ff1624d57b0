import AccessControl.Json.Numeral

/-! Numbers of TOML documents. Digits may be grouped by underscores. Every reader returns what is
behind the number. -/
namespace AccessControl.Toml

/-- Digits with single underscores between them, without these. -/
def ungrouped? (base : Nat) (digits : List Char) : Option (List Char) :=
  let isDigitOf (c : Char) : Bool := (hexValue? c).any (· < base)
  let bounded := digits.head?.any isDigitOf && digits.getLast?.any isDigitOf
  let single := (digits.zip (digits.drop 1)).all fun pair => pair ≠ ('_', '_')
  if bounded && single then some (digits.filter (· ≠ '_')) else none

def digits? (base : Nat) (cs : List Char) : Option (List Char × List Char) :=
  let isGrouped (c : Char) : Bool := c = '_' || (hexValue? c).any (· < base)
  (ungrouped? base (cs.takeWhile isGrouped)).map (·, cs.dropWhile isGrouped)

def whole? : List Char → Option (List Char × List Char)
  | '0' :: rest => some (['0'], rest)
  | cs => digits? 10 cs

def fraction? : List Char → Option (Option (List Char) × List Char)
  | '.' :: rest => (digits? 10 rest).map fun (digits, rest) => (some digits, rest)
  | cs => some (none, cs)

def exponent? : List Char → Option (Option Int × List Char)
  | mark :: cs =>
    if mark = 'e' ∨ mark = 'E' then do
      let negative := cs.head? = some '-'
      let (digits, rest) ← digits? 10 (if negative || cs.head? = some '+' then cs.drop 1 else cs)
      return (some (if negative then -(digitsValue digits : Int) else digitsValue digits), rest)
    else some (none, mark :: cs)
  | [] => some (none, [])

def based? (base : Nat) (cs : List Char) : Option (List Char) := do
  let (digits, rest) ← digits? base cs
  if (← digitsValue? base digits) < 0x8000000000000000 then return rest else none

/-- The rest behind a decimal number without its sign. An integer must fit 64 bits; other numbers must
not be past all finite ones, unless they are negative. -/
def decimal? (negative : Bool) (cs : List Char) : Option (List Char) := do
  let (whole, rest) ← whole? cs
  let (fraction, rest) ← fraction? rest
  let (exponent, rest) ← exponent? rest
  let numeral : Numeral := ⟨negative, whole, fraction, exponent⟩
  let fits := if fraction.isNone && exponent.isNone then numeral.fitsSigned
    else negative || (numeral.binary64? .nearest).isSome
  if fits then return rest else none

def behindNumber? : List Char → Option (List Char)
  | '0' :: 'x' :: rest => based? 16 rest
  | '0' :: 'o' :: rest => based? 8 rest
  | '0' :: 'b' :: rest => based? 2 rest
  | '-' :: rest => unsigned? true rest
  | '+' :: rest => unsigned? false rest
  | cs => unsigned? false cs
where
  unsigned? (negative : Bool) : List Char → Option (List Char)
    | 'i' :: 'n' :: 'f' :: rest | 'n' :: 'a' :: 'n' :: rest => some rest
    | cs => decimal? negative cs

end AccessControl.Toml
