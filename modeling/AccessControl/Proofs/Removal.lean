import AccessControl.Proofs.Update

/-! Removing a path is a lawful removal. It tells what the path has led to; the last key goes out of its
object, or stays there with `null`, and all else is as before. Where the path leads nowhere, so is the
whole. -/
namespace AccessControl

theorem Keyed.keys_erase {α : Type} (key : String) (table : List (String × α)) :
    keys (erase key table) = (keys table).filter (· ≠ key) := by
  induction table with
  | nil => rfl
  | cons entry rest ih =>
    by_cases h : entry.1 = key <;> simp_all [erase, keys]

def removed (old : Json) (result : Option (Json × Json)) : Option Json × Json :=
  (result.map Prod.fst, (result.map Prod.snd).getD old)

theorem removed_eq_none_iff {old left : Json} {result : Option (Json × Json)} :
    removed old result = (none, left) ↔ result = none ∧ left = old := by
  cases result <;> simp [removed, eq_comm]

theorem removed_eq_some_iff {old found left : Json} {result : Option (Json × Json)} :
    removed old result = (some found, left) ↔ result = some (found, left) := by
  cases result <;> simp [removed, Prod.ext_iff]

namespace Json

variable {keepKey : Bool} {value old left : Json} {front rest : Path} {key leaf : String}
  {members : List (String × Json)}

theorem removePath?_object_singleton (members : List (String × Json)) (leaf : String) :
    (object members).removePath? keepKey [leaf] =
      (Keyed.get? leaf members).map fun old => (old, .object (withoutKey keepKey leaf members)) := by
  rw [removePath?]
  cases Keyed.get? leaf members <;> rfl

theorem removePath?_object_cons (members : List (String × Json)) (key : String)
    (deeper : rest ≠ []) :
    (object members).removePath? keepKey (key :: rest) =
      (Keyed.get? key members).bind fun inner =>
        (inner.removePath? keepKey rest).map fun found =>
          (found.1, .object (Keyed.insert key found.2 members)) := by
  obtain ⟨segment, rest, rfl⟩ := List.exists_cons_of_ne_nil deeper
  simp only [removePath?]
  cases Keyed.get? key members with
  | none => rfl
  | some inner =>
    rw [Option.bind_some, Option.map_eq_bind]
    rfl

/-- Removing a path in place comes to the removal along all segments. -/
theorem removeKeyAt_eq (value : Json) (path : Path) :
    value.removeKeyAt keepKey leaf path =
      removed value (value.removePath? keepKey (path ++ [leaf])) := by
  induction path generalizing value with
  | nil =>
    rw [removeKeyAt, List.nil_append]
    cases value with
    | object members =>
      rw [removeKey, removePath?_object_singleton]
      cases Keyed.get? leaf members <;> rfl
    | null | bool _ | number _ | string _ | array _ => rfl
  | cons key rest ih =>
    cases value with
    | object members =>
      rw [removeKeyAt, List.cons_append, removePath?_object_cons members key (by simp)]
      cases found : Keyed.get? key members with
      | none => rfl
      | some inner =>
        simp only [ih, Option.bind_some]
        cases inner.removePath? keepKey (rest ++ [leaf]) with
        | none => simp [removed, Keyed.insert_of_get? found]
        | some found => rfl
    | null | bool _ | number _ | string _ | array _ => rfl

theorem remove_eq (value : Json) (text : String) :
    value.remove keepKey text = removed value (value.removePath? keepKey (.ofText text)) := by
  unfold remove
  cases cut : Path.cutLast? text with
  | none => rw [Path.ofText_of_cutLast?_eq_none cut]; exact removeKeyAt_eq value []
  | some parts => rw [Path.ofText_of_cutLast?_eq_some cut]; exact removeKeyAt_eq value _

/-- A removal edits the object that all segments but the last lead to: it takes the last key out. -/
theorem removePath?_concat_eq_some_iff :
    value.removePath? keepKey (front ++ [leaf]) = some (old, left) ↔
      ∃ members, Keyed.get? leaf members = some old ∧
        Edited members (withoutKey keepKey leaf members) front value left := by
  induction front generalizing value left with
  | nil =>
    constructor
    · intro removes
      cases value with
      | object members =>
        rw [List.nil_append, removePath?_object_singleton, Option.map_eq_some_iff] at removes
        obtain ⟨_, found, same⟩ := removes
        obtain ⟨rfl, rfl⟩ := Prod.mk.inj same
        exact ⟨members, found, .here⟩
      | null | bool _ | number _ | string _ | array _ => cases removes
    · rintro ⟨members, found, ⟨⟩⟩
      rw [List.nil_append, removePath?_object_singleton, found, Option.map_some]
  | cons key front ih =>
    constructor
    · intro removes
      cases value with
      | object outer =>
        rw [List.cons_append, removePath?_object_cons outer key (by simp),
          Option.bind_eq_some_iff] at removes
        obtain ⟨inner, there, removes⟩ := removes
        obtain ⟨⟨_, next⟩, below, same⟩ := Option.map_eq_some_iff.1 removes
        obtain ⟨rfl, rfl⟩ := Prod.mk.inj same
        obtain ⟨members, found, edited⟩ := ih.1 below
        exact ⟨members, found, .inside there edited⟩
      | null | bool _ | number _ | string _ | array _ => cases removes
    · rintro ⟨members, found, _ | ⟨there, edited⟩⟩
      rw [List.cons_append, removePath?_object_cons _ key (by simp), there, Option.bind_some,
        ih.2 ⟨members, found, edited⟩, Option.map_some]

theorem get?_withoutKey_self (key : String) (members : List (String × Json)) :
    Keyed.get? key (withoutKey keepKey key members) = if keepKey then some .null else none := by
  cases keepKey <;> simp [withoutKey]

theorem get?_withoutKey_of_ne {other : String} (apart : other ≠ key)
    (members : List (String × Json)) :
    Keyed.get? other (withoutKey keepKey key members) = Keyed.get? other members := by
  cases keepKey with
  | true => exact Keyed.get?_insert_of_ne apart .null members
  | false => exact Keyed.get?_erase_of_ne apart members

theorem keys_withoutKey (found : Keyed.get? key members = some old) :
    Keyed.keys (withoutKey keepKey key members) =
      if keepKey then Keyed.keys members else (Keyed.keys members).filter (· ≠ key) := by
  cases keepKey with
  | true =>
    have there : key ∈ Keyed.keys members := Keyed.get?_isSome_iff.1 (by simp [found])
    simp [withoutKey, Keyed.keys_insert, there]
  | false => simp [withoutKey, Keyed.keys_erase]

theorem map_fst_removePath? (value : Json) (front : Path) (leaf : String) :
    (value.removePath? keepKey (front ++ [leaf])).map Prod.fst = value.getPath? (front ++ [leaf]) := by
  refine Option.ext fun old => ?_
  rw [Option.map_eq_some_iff, getPath?_concat_eq_some_iff]
  constructor
  · rintro ⟨⟨_, left⟩, removes, rfl⟩
    obtain ⟨members, found, edited⟩ := removePath?_concat_eq_some_iff.1 removes
    exact ⟨members, edited.getPath?_before, found⟩
  · rintro ⟨members, there, found⟩
    obtain ⟨left, edited⟩ := exists_edited there (withoutKey keepKey leaf members)
    exact ⟨(old, left), removePath?_concat_eq_some_iff.2 ⟨members, found, edited⟩, rfl⟩

section

variable (removes : value.removePath? keepKey (front ++ [leaf]) = some (old, left))

include removes

/-- Of what was removed there is nothing left, or `null`. -/
theorem getPath?_removePath? (rest : Path) :
    left.getPath? (front ++ [leaf] ++ rest) =
      (if keepKey then some null else none).bind (·.getPath? rest) := by
  obtain ⟨members, -, edited⟩ := removePath?_concat_eq_some_iff.1 removes
  rw [List.append_assoc, List.singleton_append, getPath?_append, edited.getPath?_after,
    Option.bind_some, getPath?_cons, get?, get?_withoutKey_self]

theorem changedAt_removePath? : value.ChangedAt (front ++ [leaf]) left := by
  obtain ⟨members, -, edited⟩ := removePath?_concat_eq_some_iff.1 removes
  exact edited.changedAt fun key apart => get?_withoutKey_of_ne apart members

theorem keysAt?_removePath? :
    left.keysAt? front = (value.keysAt? front).map fun keys =>
      if keepKey then keys else keys.filter (· ≠ leaf) := by
  obtain ⟨members, found, edited⟩ := removePath?_concat_eq_some_iff.1 removes
  rw [edited.keysAt?_after, edited.keysAt?_before, Option.map_some, keys_withoutKey found]

end

/-- Removing a path is a lawful removal from plain data, for every value and every text of a path, the key
being kept or not. It comes to the removal along all segments. It tells what the path has led to, and
where that is nothing the value stays as it is. Otherwise the path leads to `null` afterwards if the key
is kept, and nowhere if not, and what extends it leads nowhere; the change shows nowhere else, and the
object that had the key has its other keys in their order, and a kept one in its place. -/
theorem remove_lawful (keepKey : Bool) (value : Json) (text : String) :
    value.remove keepKey text = removed value (value.removePath? keepKey (.ofText text)) ∧
    (value.remove keepKey text).1 = value.getPath? (.ofText text) ∧
    (∀ left, value.remove keepKey text = (none, left) → left = value) ∧
    ∀ old left, value.remove keepKey text = (some old, left) →
      left.getPath? (.ofText text) = (if keepKey then some .null else none) ∧
      (∀ rest, rest ≠ [] → left.getPath? (Path.ofText text ++ rest) = none) ∧
      value.ChangedAt (.ofText text) left ∧
      ∀ front leaf, Path.ofText text = front ++ [leaf] →
        left.keysAt? front = (value.keysAt? front).map fun keys =>
          if keepKey then keys else keys.filter (· ≠ leaf) := by
  obtain ⟨front, leaf, split⟩ := Path.exists_eq_concat (Path.ofText_ne_nil text)
  rw [remove_eq, split]
  refine ⟨rfl, map_fst_removePath? value front leaf,
    fun left missed => (removed_eq_none_iff.1 missed).2, fun old left worked => ?_⟩
  have removes := removed_eq_some_iff.1 worked
  have now := getPath?_removePath? removes
  refine ⟨?_, fun rest deeper => ?_, changedAt_removePath? removes, fun above last same => ?_⟩
  · rw [← List.append_nil (front ++ [leaf]), now]
    cases keepKey <;> simp
  · obtain ⟨key, rest, rfl⟩ := List.exists_cons_of_ne_nil deeper
    rw [now]
    cases keepKey <;> rfl
  · exact keysAt?_removePath? (same ▸ removes)

theorem remove_lawful_contact :
    (∃ left, contactData.remove false "address.city" = (some (.string "Ulm"), left) ∧
      left.getPath? (.ofText "address.city") = none ∧
      left.getPath? (.ofText "address.") = contactData.getPath? (.ofText "address.") ∧
      left.keysAt? ["address"] = some [""]) ∧
    (∃ left, contactData.remove true "address." = (some .null, left) ∧
      left.getPath? (.ofText "address.") = some .null ∧
      left.keysAt? ["address"] = some ["city", ""]) ∧
    ∀ left, contactData.remove true "address.zip" = (none, left) → left = contactData := by
  refine ⟨?_, ?_, (remove_lawful true contactData "address.zip").2.2.1⟩
  · obtain ⟨-, found, -, lawful⟩ := remove_lawful false contactData "address.city"
    have split : Path.ofText "address.city" = ["address"] ++ ["city"] := by cbv
    have there : contactData.getPath? (.ofText "address.city") = some (.string "Ulm") := by
      rw [split]
      cbv
    have whole : contactData.remove false "address.city" = (some (.string "Ulm"), _) :=
      Prod.ext (found.trans there) rfl
    obtain ⟨gone, -, changed, keys⟩ := lawful _ _ whole
    refine ⟨_, whole, gone, changed.aside _ (by decide) (by decide), ?_⟩
    rw [keys _ _ split]
    cbv
  · obtain ⟨-, found, -, lawful⟩ := remove_lawful true contactData "address."
    have split : Path.ofText "address." = ["address"] ++ [""] := by cbv
    have there : contactData.getPath? (.ofText "address.") = some .null := by
      rw [split]
      cbv
    have whole : contactData.remove true "address." = (some .null, _) :=
      Prod.ext (found.trans there) rfl
    obtain ⟨kept, -, -, keys⟩ := lawful _ _ whole
    refine ⟨_, whole, kept, ?_⟩
    rw [keys _ _ split]
    cbv

end Json
end AccessControl
