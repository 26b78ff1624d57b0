import AccessControl.Digit

/-! Keys of settings. A key such as `engine.default_resolution` is a way down through tables; a
subscript such as `rows[0]` leads to an item of a list. Names are compared without case. -/
namespace AccessControl

/-- Folds the case of all characters that a name of a setting may be spelled with. The sign for
kelvin is the one capital outside of ASCII whose small letter is inside. -/
def foldCase (s : String) : String := s.map fun c => if c = '\u212a' then 'k' else c.toLower

inductive KeyStep where
  | name (name : String)
  | item (position : Int)

namespace KeyStep

def isNameChar (c : Char) : Bool :=
  isDigit c || ('a' ≤ c && c ≤ 'z') || ('A' ≤ c && c ≤ 'Z') || c = ' ' || c = '_' || c = '-'

def isBlank (c : Char) : Bool := c = ' ' || c = '\t'

inductive Place where
  | nameStart
  | inName (done : List Char)
  | behindItem
  | subscriptStart
  | position (negative : Bool) (done : List Char)
  | subscriptEnd (negative : Bool) (done : List Char)

structure Reading where
  place : Place
  steps : List KeyStep

def Reading.endStep? (r : Reading) : Option Reading :=
  match r.place with
  | .inName done => some ⟨.behindItem, .name (foldCase (String.ofList done.reverse)) :: r.steps⟩
  | .behindItem => some r
  | _ => none

/-- The reading behind a subscript, whose position must fit 64 bits. -/
def Reading.endSubscript? (r : Reading) (negative : Bool) (done : List Char) : Option Reading :=
  let magnitude := digitsValue done.reverse
  let position : Int := if negative then -magnitude else magnitude
  if done.isEmpty || position < -0x8000000000000000 || 0x7fffffffffffffff < position then none
  else some ⟨.behindItem, .item position :: r.steps⟩

def Reading.step (r : Reading) (c : Char) : Option Reading :=
  match r.place with
  | .nameStart => if isNameChar c then some ⟨.inName [c], r.steps⟩ else none
  | .inName _ | .behindItem =>
    match r.place, isNameChar c with
    | .inName done, true => some ⟨.inName (c :: done), r.steps⟩
    | _, _ =>
      if c = '.' then r.endStep?.map fun r => ⟨.nameStart, r.steps⟩
      else if c = '[' then r.endStep?.map fun r => ⟨.subscriptStart, r.steps⟩
      else none
  | .subscriptStart =>
    if isBlank c then some r
    else if isDigit c then some ⟨.position false [c], r.steps⟩
    else if c = '-' then some ⟨.position true [], r.steps⟩
    else none
  | .position negative done =>
    if isDigit c then some ⟨.position negative (c :: done), r.steps⟩
    else if isBlank c && !done.isEmpty then some ⟨.subscriptEnd negative done, r.steps⟩
    else if c = ']' then r.endSubscript? negative done
    else none
  | .subscriptEnd negative done =>
    if isBlank c then some r
    else if c = ']' then r.endSubscript? negative done
    else none

end KeyStep

/-- The steps of a key. A text that is no key is a name as it stands. -/
def keySteps (key : String) : List KeyStep :=
  let read := (key.toList.foldlM KeyStep.Reading.step ⟨.nameStart, []⟩).bind (·.endStep?)
  match read with
  | some reading => reading.steps.reverse
  | none => [.name (foldCase key)]

end AccessControl
