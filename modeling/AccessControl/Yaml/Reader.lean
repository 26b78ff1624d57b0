import AccessControl.Yaml.Layout
import AccessControl.Yaml.Node

/-! Reading the nodes of a document from its tokens. A node may be named by an anchor and used again
by references behind it. Every function spends fuel, of which a document has as much as tokens. -/
namespace AccessControl.Yaml

structure State where
  tokens : List Token
  handles : List (String × String)
  /-- Anchors with their nodes as far as these are complete, last one first. -/
  anchors : List (String × Option Node)

abbrev Reading := StateT State Option

namespace Reading

def peek : Reading (Option Token) := return (← get).tokens.head?

def advance : Reading Unit := modify fun s => { s with tokens := s.tokens.drop 1 }

def consume (token : Token) : Reading Bool := do
  if (← peek) = some token then
    advance
    return true
  else return false

/-- Notes an anchor, and returns how many there are. -/
def register (name : String) : Reading Nat := do
  modify fun s => { s with anchors := (name, none) :: s.anchors }
  return (← get).anchors.length

def complete (count : Nat) (node : Node) : Reading Unit :=
  modify fun s => { s with
    anchors := s.anchors.modify (s.anchors.length - count) fun entry => (entry.1, some node) }

def resolve (name : String) : Reading Node := do
  let node ← Keyed.get? name (← get).anchors
  return node.getD .invalid

end Reading

open Reading

/-- The meaning of a tag. A handle with a name of its own must have been declared. -/
def tagOf? (handles : List (String × String)) (handle suffix : String) : Option Tag :=
  match Keyed.get? handle handles with
  | some meaning => some ⟨meaning, suffix⟩
  | none =>
    if handle = "!!" then some ⟨Tag.core, suffix⟩
    else if handle = "" ∨ handle = "!" then some ⟨handle, suffix⟩
    else none

def properties : Reading (Option Tag × Option Nat) := do
  let tag? : Reading (Option Tag) := do
    match ← peek with
    | some (.tag handle suffix) =>
      advance
      return some (← tagOf? (← get).handles handle suffix)
    | _ => return none
  let anchor? : Reading (Option Nat) := do
    match ← peek with
    | some (.anchor name) =>
      advance
      return some (← register name)
    | _ => return none
  match ← anchor? with
  | some count => return (← tag?, some count)
  | none =>
    match ← tag? with
    | some tag => return (some tag, ← anchor?)
    | none => return (none, none)

def separate (first : Bool) : Reading Unit := do
  if first then return ()
  else if ← consume .comma then return ()
  else failure

def blockGap (token : Option Token) : Bool :=
  token = some .key || token = some .value || token = some .blockEnd

mutual

/-- A node. In a block table the items of a list may stand at the column of their key. -/
def node : Nat → Bool → Bool → Reading Node
  | 0, _, _ => failure
  | fuel + 1, inBlock, mayItem => do
    match ← peek with
    | some (.reference name) =>
      advance
      resolve name
    | _ =>
      let (tag, anchor) ← properties
      let empty : Reading Node :=
        if tag.isSome || anchor.isSome then return .ofScalar tag true "" else failure
      let node ← match ← peek with
        | some (.scalar plain text) =>
          advance
          pure (.ofScalar tag plain text)
        | some .flowListStart =>
          advance
          .list <$> flowItems fuel true
        | some .flowTableStart =>
          advance
          Node.table? (← flowMembers fuel true)
        | some .blockListStart =>
          if inBlock then
            advance
            .list <$> blockItems fuel
          else empty
        | some .blockTableStart =>
          if inBlock then
            advance
            Node.table? (← blockMembers fuel)
          else empty
        | some .item => if mayItem then .list <$> bareItems fuel else empty
        | _ => empty
      if let some count := anchor then complete count node
      return node

def blockItems : Nat → Reading (List Node)
  | 0 => failure
  | fuel + 1 => do
    if ← consume .blockEnd then return []
    else if ← consume .item then
      let next ← peek
      let item ← if next = some .item || next = some .blockEnd then pure .null
        else node fuel true false
      return item :: (← blockItems fuel)
    else failure

/-- The items of a list that stands at the column of its key. -/
def bareItems : Nat → Reading (List Node)
  | 0 => failure
  | fuel + 1 => do
    if ← consume .item then
      let next ← peek
      let item ← if next = some .item || blockGap next then pure .null else node fuel true false
      return item :: (← bareItems fuel)
    else return []

def blockMembers : Nat → Reading (List Node)
  | 0 => failure
  | fuel + 1 => do
    let entry : Reading Node := do
      if blockGap (← peek) then return .null else node fuel true true
    if ← consume .blockEnd then return []
    else
      let key ← if ← consume .key then entry
        else if (← peek) = some .value then pure .null
        else failure
      let value ← if ← consume .value then entry else pure .null
      return key :: value :: (← blockMembers fuel)

def flowItems : Nat → Bool → Reading (List Node)
  | 0, _ => failure
  | fuel + 1, first => do
    if ← consume .flowListEnd then return []
    else
      separate first
      if ← consume .flowListEnd then return []
      else
        let item ← if ← consume .key then pair fuel else node fuel false false
        return item :: (← flowItems fuel false)

def pair : Nat → Reading Node
  | 0 => failure
  | fuel + 1 => do
    let isGap (token : Option Token) : Bool :=
      token = some .comma || token = some .flowListEnd
    let next ← peek
    let key ← if next = some .value || isGap next then do
        advance
        pure .null
      else node fuel false false
    let value ← if ← consume .value then do
        if isGap (← peek) then pure .null else node fuel false false
      else pure .null
    Node.table? [key, value]

def flowMembers : Nat → Bool → Reading (List Node)
  | 0, _ => failure
  | fuel + 1, first => do
    let isGap (token : Option Token) : Bool :=
      token = some .comma || token = some .flowTableEnd
    if ← consume .flowTableEnd then return []
    else
      separate first
      if ← consume .flowTableEnd then return []
      else
        let marked ← consume .key
        let next ← peek
        let bare := next = some .value
        let key ← if bare || (marked && isGap next) then pure .null else node fuel false false
        let value ← if !marked && !bare then pure .null
          else if ← consume .value then do
            if isGap (← peek) then pure .null else node fuel false false
          else pure .null
        return key :: value :: (← flowMembers fuel false)

end

/-- Reads directives, of which the last one before the document settles the handles of tags. -/
def directives : Nat → Bool → Reading Unit
  | 0, _ => failure
  | fuel + 1, versioned => do
    match ← peek with
    | some .versionDirective =>
      if versioned then failure
      modify fun s => { s with handles := [] }
      advance
      directives fuel true
    | some (.tagDirective handle meaning) =>
      modify fun s => { s with handles := [(handle, meaning)] }
      advance
      directives fuel versioned
    | _ => return ()

def documentEnds : Nat → Reading Unit
  | 0 => failure
  | fuel + 1 => do
    if ← consume .documentEnd then documentEnds fuel else return ()

def endsDocument : Option Token → Bool
  | none => true
  | some .versionDirective | some (.tagDirective ..) => true
  | some .documentStart | some .documentEnd => true
  | _ => false

/-- The only document, if there is any; nothing else may be left. Where it does not begin with a mark
it has no directives. -/
def document? (fuel : Nat) : Reading (Option Node) := do
  documentEnds fuel
  match ← peek with
  | none => return none
  | some _ =>
    let content ← if endsDocument (← peek) then do
        directives fuel false
        if !(← consume .documentStart) then failure
        if endsDocument (← peek) then pure .null else node fuel true false
      else node fuel true false
    documentEnds fuel
    if (← peek).isSome then failure
    return some content

def ofText? (text : String) : Option Datum := do
  let tokens ← tokens? text
  let (content, _) ← (document? (4 * tokens.length + 8)).run ⟨tokens, [], []⟩
  match content with
  | some node => node.toDatum?
  | none => return .table []

end AccessControl.Yaml
