import AccessControl.Digit

/-! Dates and times of day as TOML writes them. Every reader returns what is behind them. -/
namespace AccessControl.Toml

def fixed? (count : Nat) (cs : List Char) : Option (Nat × List Char) :=
  let digits := cs.take count
  if digits.length = count && digits.all isDigit then some (digitsValue digits, cs.drop count)
  else none

def marked? (mark : Char) (first last : Nat) : List Char → Option (Nat × List Char)
  | c :: rest =>
    if c = mark then (fixed? 2 rest).filter fun (n, _) => first ≤ n && n ≤ last else none
  | [] => none

def isLeapYear (year : Nat) : Bool := year % 4 = 0 && (year % 100 ≠ 0 || year % 400 = 0)

def daysOfMonth (year month : Nat) : Nat :=
  if month = 2 then (if isLeapYear year then 29 else 28)
  else if [4, 6, 9, 11].contains month then 30
  else 31

def behindDay? (cs : List Char) : Option (List Char) := do
  let (year, rest) ← fixed? 4 cs
  let (month, rest) ← marked? '-' 1 12 rest
  let (_, rest) ← marked? '-' 1 (daysOfMonth year month) rest
  return rest

def behindTime? (lastHour : Nat) (cs : List Char) : Option (List Char) := do
  let (_, rest) ← (fixed? 2 cs).filter (·.1 ≤ lastHour)
  let (_, rest) ← marked? ':' 0 59 rest
  let (_, rest) ← marked? ':' 0 60 rest
  match rest with
  | '.' :: fraction =>
    if fraction.head?.any isDigit then return fraction.dropWhile isDigit else none
  | rest => return rest

/-- Whether a day and a time of day may meet at a character. -/
def joinsTime (c : Char) : Bool := c = 'T' || c = 't' || c = ' '

def behindZone? : List Char → Option (List Char)
  | c :: rest =>
    if c = 'Z' ∨ c = 'z' then some rest
    else if c = '+' ∨ c = '-' then do
      let (_, rest) ← (fixed? 2 rest).filter (·.1 ≤ 23)
      let (_, rest) ← marked? ':' 0 59 rest
      return rest
    else none
  | [] => none

/-- The rest behind a date: a day, a time of day, or both, and then perhaps with a time zone. -/
def behindDate? (cs : List Char) : Option (List Char) :=
  match behindDay? cs with
  | none => behindTime? 23 cs
  | some rest =>
    match rest with
    | c :: more =>
      match (if joinsTime c then behindTime? 23 more else none) with
      | some rest => some ((behindZone? rest).getD rest)
      | none => some rest
    | [] => some []

def isZone : List Char → Bool
  | ['Z'] | ['z'] => true
  | sign :: rest =>
    (sign = '+' || sign = '-') && match fixed? 2 rest with
      | some (hours, ':' :: rest) =>
        match fixed? 2 rest with
        | some (minutes, []) => 60 * hours + minutes ≤ 1440
        | _ => false
      | _ => false
  | [] => false

/-- Whether a text is a date. Here the last hour may be written in full. -/
def isDate (cs : List Char) : Bool :=
  match behindDay? cs with
  | none => behindTime? 24 cs = some []
  | some [] => true
  | some (c :: more) =>
    joinsTime c && match behindTime? 24 more with
      | some rest => rest.isEmpty || isZone rest
      | none => false

end AccessControl.Toml
