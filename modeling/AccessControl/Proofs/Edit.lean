import AccessControl.Path

/-! Edits of nested objects. One object inside of a value gets other members, and each object around it
the new state of the part that was edited. Off the keys that were touched nothing shows of an edit. -/
namespace AccessControl
namespace Json

/-- The keys of the object that a path leads to, in their order. -/
def keysAt? (value : Json) (path : Path) : Option (List String) :=
  ((value.getPath? path).bind object?).map Keyed.keys

/-- A change at a path shows in what the path leads to and in the object right above. A path that does
not lead through it, nor it through that path, has the same value as before, and the objects further
above have the same keys in the same order. -/
structure ChangedAt (path : Path) (value changed : Json) : Prop where
  aside : ∀ other, ¬ path <+: other → ¬ other <+: path →
    changed.getPath? other = value.getPath? other
  above : ∀ front key rest, path = front ++ key :: rest → rest ≠ [] →
    changed.keysAt? front = value.keysAt? front

/-- The path leads to an object of certain members, and it has others afterwards. -/
inductive Edited (members members' : List (String × Json)) : Path → Json → Json → Prop where
  | here : Edited members members' [] (.object members) (.object members')
  | inside {key : String} {rest : Path} {outer : List (String × Json)} {inner inner' : Json}
    (found : Keyed.get? key outer = some inner) (edited : Edited members members' rest inner inner') :
    Edited members members' (key :: rest) (.object outer) (.object (Keyed.insert key inner' outer))

variable {members members' : List (String × Json)} {front : Path} {leaf : String}
  {value value' : Json}

theorem keysAt?_nil (members : List (String × Json)) :
    (object members).keysAt? [] = some (Keyed.keys members) := rfl

theorem keysAt?_cons (members : List (String × Json)) (key : String) (rest : Path) :
    (object members).keysAt? (key :: rest) =
      (Keyed.get? key members).bind fun inner => inner.keysAt? rest := by
  rw [keysAt?, getPath?_cons, get?]
  cases Keyed.get? key members <;> rfl

theorem getPath?_concat_eq_some_iff {old : Json} : value.getPath? (front ++ [leaf]) = some old ↔
    ∃ members, value.getPath? front = some (.object members) ∧ Keyed.get? leaf members = some old := by
  rw [getPath?_append, Option.bind_eq_some_iff]
  constructor
  · rintro ⟨parent, there, found⟩
    cases parent with
    | object members => exact ⟨members, there, by simpa [getPath?_cons, get?] using found⟩
    | null | bool _ | number _ | string _ | array _ => cases found
  · rintro ⟨members, there, found⟩
    exact ⟨_, there, by simp [getPath?_cons, get?, found]⟩

namespace Edited

theorem getPath?_before (edited : Edited members members' front value value') :
    value.getPath? front = some (.object members) := by
  induction edited with
  | here => rw [getPath?_nil]
  | inside found _ ih => rw [getPath?_cons, get?, found, Option.bind_some, ih]

theorem getPath?_after (edited : Edited members members' front value value') :
    value'.getPath? front = some (.object members') := by
  induction edited with
  | here => rw [getPath?_nil]
  | inside _ _ ih => rw [getPath?_cons, get?, Keyed.get?_insert_self, Option.bind_some, ih]

theorem keysAt?_before (edited : Edited members members' front value value') :
    value.keysAt? front = some (Keyed.keys members) := by
  rw [keysAt?, edited.getPath?_before]
  rfl

theorem keysAt?_after (edited : Edited members members' front value value') :
    value'.keysAt? front = some (Keyed.keys members') := by
  rw [keysAt?, edited.getPath?_after]
  rfl

theorem aside (edited : Edited members members' front value value')
    (same : ∀ key, key ≠ leaf → Keyed.get? key members' = Keyed.get? key members) {other : Path}
    (above : ¬ front ++ [leaf] <+: other) (below : ¬ other <+: front ++ [leaf]) :
    value'.getPath? other = value.getPath? other := by
  induction edited generalizing other with
  | here =>
    cases other with
    | nil => simp at below
    | cons key other =>
      have apart : key ≠ leaf := by
        rintro rfl
        simp at above
      rw [getPath?_cons, getPath?_cons, get?, get?, same key apart]
  | @inside step rest outer inner inner' found _ ih =>
    cases other with
    | nil => simp at below
    | cons key other =>
      rw [getPath?_cons, getPath?_cons, get?, get?]
      by_cases onward : key = step
      · subst onward
        simp only [List.cons_append, List.cons_prefix_cons, true_and] at above below
        rw [Keyed.get?_insert_self, found, Option.bind_some, Option.bind_some, ih above below]
      · rw [Keyed.get?_insert_of_ne onward]

theorem above (edited : Edited members members' front value value') {before rest : Path}
    {key : String} (split : front ++ [leaf] = before ++ key :: rest) (deeper : rest ≠ []) :
    value'.keysAt? before = value.keysAt? before := by
  induction edited generalizing before with
  | here =>
    cases before with
    | nil => exact absurd (List.cons.inj split).2.symm deeper
    | cons first before => simp at split
  | @inside step steps outer inner inner' found _ ih =>
    cases before with
    | nil =>
      have there : step ∈ Keyed.keys outer := Keyed.get?_isSome_iff.1 (by simp [found])
      rw [keysAt?_nil, keysAt?_nil, Keyed.keys_insert, if_pos there]
    | cons first before =>
      rw [List.cons_append, List.cons_append, List.cons.injEq] at split
      obtain ⟨rfl, split⟩ := split
      rw [keysAt?_cons, keysAt?_cons, Keyed.get?_insert_self, found, Option.bind_some,
        Option.bind_some, ih split]

/-- An edit that touches one key of an object is a change at that key. -/
theorem changedAt (edited : Edited members members' front value value')
    (same : ∀ key, key ≠ leaf → Keyed.get? key members' = Keyed.get? key members) :
    value.ChangedAt (front ++ [leaf]) value' where
  aside _ := edited.aside same
  above _ _ _ := edited.above

end Edited

theorem exists_edited (found : value.getPath? front = some (.object members))
    (members' : List (String × Json)) : ∃ value', Edited members members' front value value' := by
  induction front generalizing value with
  | nil =>
    obtain rfl := Option.some.inj ((getPath?_nil value).symm.trans found)
    exact ⟨_, .here⟩
  | cons key rest ih =>
    rw [getPath?_cons, Option.bind_eq_some_iff] at found
    obtain ⟨inner, hi, found⟩ := found
    obtain ⟨inner', edited⟩ := ih found
    cases value with
    | object outer => exact ⟨_, .inside hi edited⟩
    | null | bool _ | number _ | string _ | array _ => cases hi

end Json
end AccessControl
