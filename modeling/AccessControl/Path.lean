import AccessControl.Json.Basic

/-! Dotted paths into nested objects. A text always has at least one segment; only objects are
traversed. Updates keep the order of all keys that stay. -/
namespace AccessControl

def splitDots : List Char → List (List Char)
  | [] => [[]]
  | c :: cs =>
    if c = '.' then [] :: splitDots cs
    else match splitDots cs with
      | [] => [[c]]
      | piece :: pieces => (c :: piece) :: pieces

abbrev Path := List String

namespace Path

def ofText (text : String) : Path := (splitDots text.toList).map String.ofList

def cut? (text : String) : Option (String × String) :=
  match text.toList.dropWhile (· ≠ '.') with
  | [] => none
  | _ :: rest => some (String.ofList (text.toList.takeWhile (· ≠ '.')), String.ofList rest)

def cutLast? (text : String) : Option (String × String) :=
  (cut? (String.ofList text.toList.reverse)).map fun parts =>
    (String.ofList parts.2.toList.reverse, String.ofList parts.1.toList.reverse)

end Path

theorem splitDots_ne_nil (cs : List Char) : splitDots cs ≠ [] := by
  induction cs with
  | nil => simp [splitDots]
  | cons c cs ih =>
    unfold splitDots
    split
    · simp
    · split <;> simp

theorem Path.ofText_ne_nil (text : String) : Path.ofText text ≠ [] := by
  simp [Path.ofText, splitDots_ne_nil]

theorem Path.cut?_eq_some {text head rest : String} (h : cut? text = some (head, rest)) :
    text.toList = head.toList ++ '.' :: rest.toList := by
  unfold cut? at h
  split at h
  · cases h
  · rename_i dot behind found
    have stop := List.head?_dropWhile_not (· ≠ '.') text.toList
    rw [found] at stop
    obtain rfl : dot = '.' := by simpa using stop
    obtain ⟨rfl, rfl⟩ := Prod.mk.inj (Option.some.inj h)
    rw [String.toList_ofList, String.toList_ofList, ← found, List.takeWhile_append_dropWhile]

theorem splitDots_eq (cs : List Char) :
    splitDots cs = match cs.dropWhile (· ≠ '.') with
      | [] => [cs]
      | _ :: rest => cs.takeWhile (· ≠ '.') :: splitDots rest := by
  induction cs with
  | nil => rfl
  | cons c cs ih =>
    by_cases h : c = '.'
    · simp [splitDots, h]
    · rw [splitDots, if_neg h, ih, List.dropWhile_cons_of_pos (by simp [h]),
        List.takeWhile_cons_of_pos (by simp [h])]
      cases cs.dropWhile (· ≠ '.') <;> rfl

namespace Json

/-- A key that holds `null` is found. -/
def getPath? : Json → Path → Option Json
  | value, [] => some value
  | value, key :: rest =>
    match value.get? key with
    | some inner => inner.getPath? rest
    | none => none

/-- The last segment is created or overwritten; all before it must lead to an object. -/
def setPath? : Json → Path → Json → Option Json
  | .object members, [leaf], new => some (.object (Keyed.insert leaf new members))
  | .object members, key :: rest, new => do
    let inner ← Keyed.get? key members
    let updated ← inner.setPath? rest new
    return .object (Keyed.insert key updated members)
  | _, _, _ => none

def withoutKey (keepKey : Bool) (key : String) (members : List (String × Json)) :
    List (String × Json) :=
  if keepKey then Keyed.insert key .null members else Keyed.erase key members

/-- What was found at a path, and the value without it. A kept key holds `null` afterwards. -/
def removePath? (keepKey : Bool) : Json → Path → Option (Json × Json)
  | .object members, [leaf] => do
    let old ← Keyed.get? leaf members
    return (old, .object (withoutKey keepKey leaf members))
  | .object members, key :: rest => do
    let inner ← Keyed.get? key members
    let (old, updated) ← inner.removePath? keepKey rest
    return (old, .object (Keyed.insert key updated members))
  | _, _ => none

/-- Changes the part that a path leads to, where it stands. -/
def changeAt (change : Json → Bool × Json) : Json → Path → Bool × Json
  | value, [] => change value
  | .object members, key :: rest =>
    match Keyed.get? key members with
    | some inner =>
      let changed := inner.changeAt change rest
      (changed.1, .object (Keyed.insert key changed.2 members))
    | none => (false, .object members)
  | value, _ :: _ => (false, value)

def setKey (key : String) (new : Json) : Json → Bool × Json
  | .object members => (true, .object (Keyed.insert key new members))
  | value => (false, value)

/-- Overwrites a path in place: what stands before its last dot leads to the object to change. -/
def overwrite (value : Json) (text : String) (new : Json) : Bool × Json :=
  match Path.cutLast? text with
  | some (front, leaf) => value.changeAt (setKey leaf new) (.ofText front)
  | none => setKey text new value

def removeKey (keepKey : Bool) (key : String) : Json → Option Json × Json
  | .object members =>
    match Keyed.get? key members with
    | some old => (some old, .object (withoutKey keepKey key members))
    | none => (none, .object members)
  | value => (none, value)

def removeKeyAt (keepKey : Bool) (leaf : String) : Json → Path → Option Json × Json
  | value, [] => removeKey keepKey leaf value
  | .object members, key :: rest =>
    match Keyed.get? key members with
    | some inner =>
      let changed := inner.removeKeyAt keepKey leaf rest
      (changed.1, .object (Keyed.insert key changed.2 members))
    | none => (none, .object members)
  | value, _ :: _ => (none, value)

/-- Removes a path in place: what stands before its last dot leads to the object to change. -/
def remove (keepKey : Bool) (value : Json) (text : String) : Option Json × Json :=
  match Path.cutLast? text with
  | some (front, leaf) => value.removeKeyAt keepKey leaf (.ofText front)
  | none => removeKey keepKey text value

def present (value : Json) (mask : List String) : List String :=
  mask.filter fun path => (value.getPath? (.ofText path)).isSome

@[simp] theorem getPath?_nil (value : Json) : value.getPath? [] = some value := by
  cases value <;> rfl

theorem getPath?_cons (value : Json) (key : String) (rest : Path) :
    value.getPath? (key :: rest) = (value.get? key).bind (·.getPath? rest) := by
  simp only [getPath?]
  cases value.get? key <;> rfl

theorem getPath?_append (value : Json) (path rest : Path) :
    value.getPath? (path ++ rest) = (value.getPath? path).bind (·.getPath? rest) := by
  induction path generalizing value with
  | nil => simp
  | cons key path ih =>
    simp only [List.cons_append, getPath?_cons]
    cases value.get? key <;> simp [ih]

theorem getPath?_setPath? {value new updated : Json} {path : Path}
    (h : value.setPath? path new = some updated) : updated.getPath? path = some new := by
  fun_induction setPath? value path new generalizing updated with
  | case1 members leaf new =>
    cases h
    simp [getPath?_cons, get?]
  | case2 members key rest new _ ih =>
    simp only [Option.bind_eq_bind, Option.bind_eq_some_iff, Option.pure_def,
      Option.some.injEq] at h
    obtain ⟨inner, hi, next, hn, rfl⟩ := h
    simp [getPath?_cons, get?, ih inner hn]
  | case3 => cases h

end Json
end AccessControl
