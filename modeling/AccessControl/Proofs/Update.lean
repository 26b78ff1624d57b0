import AccessControl.Proofs.Overwriting

/-! Setting a path is a lawful update. It works just where all segments but the last lead to an object;
then the path has the new value, and what is neither above the path nor behind it is as before. Objects
on the way keep their keys in place, and a key that is new goes to the end of the last one. -/
namespace AccessControl
namespace Json

variable {value new updated : Json} {front : Path} {leaf : String}

theorem keysAt?_setPath? (set : value.setPath? (front ++ [leaf]) new = some updated) :
    updated.keysAt? front =
      (value.keysAt? front).map fun keys => if leaf ∈ keys then keys else keys ++ [leaf] := by
  obtain ⟨members, edited⟩ := setPath?_concat_eq_some_iff.1 set
  rw [edited.keysAt?_after, edited.keysAt?_before, Option.map_some, Keyed.keys_insert]

/-- Setting a path is a lawful update of plain data, for every value and every text of a path. It comes to
the update along all segments. It works just where all of them but the last lead to an object, and where
it does not work the value stays as it is. Once it has worked the path leads to the new value, and what
extends it leads on from there; the change shows nowhere else, and the object that the last key was set
in has its keys in place, the last one behind the others if it is new. -/
theorem overwrite_lawful (value : Json) (text : String) (new : Json) :
    value.overwrite text new = attempt value (value.setPath? (.ofText text) new) ∧
    ((value.overwrite text new).1 = true ↔
      ∃ members, value.getPath? (Path.ofText text).dropLast = some (.object members)) ∧
    (∀ left, value.overwrite text new = (false, left) → left = value) ∧
    ∀ updated, value.overwrite text new = (true, updated) →
      updated.getPath? (.ofText text) = some new ∧
      (∀ rest, updated.getPath? (.ofText text ++ rest) = new.getPath? rest) ∧
      value.ChangedAt (.ofText text) updated ∧
      ∀ front leaf, Path.ofText text = front ++ [leaf] →
        updated.keysAt? front =
          (value.keysAt? front).map fun keys => if leaf ∈ keys then keys else keys ++ [leaf] := by
  rw [overwrite_eq]
  refine ⟨rfl, ?_, fun left failed => (attempt_eq_false_iff.1 failed).2, fun updated worked => ?_⟩
  · obtain ⟨front, leaf, split⟩ := Path.exists_eq_concat (Path.ofText_ne_nil text)
    rw [split, List.dropLast_concat]
    exact isSome_setPath?_concat value front leaf new
  · have set := attempt_eq_true_iff.1 worked
    have now := getPath?_setPath? set
    refine ⟨now, fun rest => ?_, changedAt_setPath? set, fun front leaf split => ?_⟩
    · rw [getPath?_append, now, Option.bind_some]
    · exact keysAt?_setPath? (split ▸ set)

def contactData : Json :=
  .object [("address", .object [("city", .string "Ulm"), ("", .null)]), ("phone", .string "1")]

theorem overwrite_lawful_contact :
    ∃ updated, contactData.overwrite "address.zip" (.bool true) = (true, updated) ∧
      updated.getPath? (.ofText "address.zip") = some (.bool true) ∧
      updated.getPath? (.ofText "address.") = contactData.getPath? (.ofText "address.") ∧
      updated.keysAt? ["address"] = some ["city", "", "zip"] ∧
      ∀ left, contactData.overwrite "phone.zip" .null = (false, left) → left = contactData := by
  obtain ⟨-, works, -, lawful⟩ := overwrite_lawful contactData "address.zip" (.bool true)
  obtain ⟨-, -, unchanged, -⟩ := overwrite_lawful contactData "phone.zip" .null
  have split : Path.ofText "address.zip" = ["address"] ++ ["zip"] := by cbv
  have worked : (contactData.overwrite "address.zip" (.bool true)).1 = true :=
    works.2 ⟨[("city", .string "Ulm"), ("", .null)], by rw [split]; cbv⟩
  have whole : contactData.overwrite "address.zip" (.bool true) = (true, _) := Prod.ext worked rfl
  obtain ⟨now, -, changed, keys⟩ := lawful _ whole
  refine ⟨_, whole, now, changed.aside _ (by decide) (by decide), ?_, unchanged⟩
  rw [keys _ _ split]
  cbv

end Json
end AccessControl
