import AccessControl.Proofs.Edit
import AccessControl.Proofs.Keyed

/-! Where an update of a nested object shows: at its own path, above it, and nowhere else. -/
namespace AccessControl

theorem dot_not_mem_of_mem_splitDots {cs piece : List Char} (h : piece ∈ splitDots cs) :
    '.' ∉ piece := by
  induction cs generalizing piece with
  | nil => simp_all [splitDots]
  | cons c cs ih =>
    by_cases dot : c = '.'
    · rw [splitDots, if_pos dot, List.mem_cons] at h
      rcases h with rfl | later
      · simp
      · exact ih later
    · rw [splitDots, if_neg dot] at h
      split at h
      · rw [List.mem_singleton] at h
        simp [h, Ne.symm dot]
      · rename_i first rest split
        rw [List.mem_cons] at h
        rcases h with rfl | later
        · have head : first ∈ splitDots cs := by simp [split]
          simp [ih head, Ne.symm dot]
        · exact ih (by simp [split, later])

theorem Path.dot_not_mem_of_mem_ofText {text segment : String} (h : segment ∈ ofText text) :
    '.' ∉ segment.toList := by
  rw [ofText, List.mem_map] at h
  obtain ⟨piece, hp, rfl⟩ := h
  simpa using dot_not_mem_of_mem_splitDots hp

theorem Path.cut?_of_toList {text head rest : String} (plain : '.' ∉ head.toList)
    (whole : text.toList = head.toList ++ '.' :: rest.toList) : cut? text = some (head, rest) := by
  have before : ∀ c ∈ head.toList, decide (c ≠ '.') = true :=
    fun c hc => decide_eq_true (ne_of_mem_of_not_mem hc plain)
  simp only [cut?, whole, List.dropWhile_append_of_pos before, List.takeWhile_append_of_pos before]
  simp

theorem Path.ofText_of_cut?_eq_none {text : String} (h : cut? text = none) :
    ofText text = [text] := by
  unfold cut? at h
  split at h
  · rename_i whole
    rw [ofText, splitDots_eq, whole, List.map_singleton, String.ofList_toList]
  · cases h

theorem Path.ofText_of_cut?_eq_some {text head rest : String} (h : cut? text = some (head, rest)) :
    ofText text = head :: ofText rest := by
  unfold cut? at h
  split at h
  · cases h
  · rename_i found
    obtain ⟨rfl, rfl⟩ := Prod.mk.inj (Option.some.inj h)
    rw [ofText, splitDots_eq, found, List.map_cons, ofText, String.toList_ofList]

theorem Path.ofText_of_no_dot {text : String} (plain : '.' ∉ text.toList) :
    ofText text = [text] := by
  cases cut : cut? text with
  | none => exact ofText_of_cut?_eq_none cut
  | some parts => exact absurd (by simp [cut?_eq_some cut]) plain

theorem Path.exists_eq_concat {path : Path} (nonempty : path ≠ []) :
    ∃ front leaf, path = front ++ [leaf] :=
  ⟨path.dropLast, path.getLast nonempty, (List.dropLast_concat_getLast nonempty).symm⟩

namespace Json

variable {value new updated : Json} {members : List (String × Json)} {key : String}
  {path other front rest : Path}

theorem setPath?_nil (value new : Json) : value.setPath? [] new = none := by
  cases value <;> rfl

theorem setPath?_singleton_eq_some_iff : value.setPath? [key] new = some updated ↔
    ∃ members, value = .object members ∧ updated = .object (Keyed.insert key new members) := by
  cases value <;> simp [setPath?, eq_comm]

theorem setPath?_cons_eq_some_iff (deeper : rest ≠ []) :
    value.setPath? (key :: rest) new = some updated ↔
      ∃ members inner next, value = .object members ∧ Keyed.get? key members = some inner ∧
        inner.setPath? rest new = some next ∧
        updated = .object (Keyed.insert key next members) := by
  obtain ⟨segment, rest, rfl⟩ := List.exists_cons_of_ne_nil deeper
  cases value with
  | object members =>
    simp only [setPath?, Option.bind_eq_bind, Option.bind_eq_some_iff, Option.pure_def,
      Option.some.injEq]
    constructor
    · rintro ⟨inner, hi, next, hn, rfl⟩
      exact ⟨members, inner, next, rfl, hi, hn, rfl⟩
    · rintro ⟨_, inner, next, same, hi, hn, rfl⟩
      cases same
      exact ⟨inner, hi, next, hn, rfl⟩
  | null | bool _ | number _ | string _ | array _ => simp [setPath?]

theorem isObject_of_setPath? (h : value.setPath? path new = some updated) :
    updated.isObject = true := by
  cases path with
  | nil => simp [setPath?_nil] at h
  | cons key rest =>
    by_cases deeper : rest = []
    · subst deeper
      obtain ⟨members, -, rfl⟩ := setPath?_singleton_eq_some_iff.1 h
      rfl
    · obtain ⟨members, _, _, -, -, -, rfl⟩ := (setPath?_cons_eq_some_iff deeper).1 h
      rfl

/-- An update overwrites one member of an object, by the new value or by an object. -/
theorem exists_insert_of_setPath? (h : value.setPath? (key :: rest) new = some updated) :
    ∃ members next, value = .object members ∧ updated = .object (Keyed.insert key next members) ∧
      (next = new ∨ next.isObject = true) := by
  by_cases deeper : rest = []
  · subst deeper
    obtain ⟨members, rfl, rfl⟩ := setPath?_singleton_eq_some_iff.1 h
    exact ⟨members, new, rfl, rfl, .inl rfl⟩
  · obtain ⟨members, _, next, rfl, -, hn, rfl⟩ := (setPath?_cons_eq_some_iff deeper).1 h
    exact ⟨members, next, rfl, rfl, .inr (isObject_of_setPath? hn)⟩

theorem setPath?_under {before : List (String × Json)} (absent : key ∉ Keyed.keys before)
    (after : List (String × Json)) (h : value.setPath? path new = some updated) :
    (object (before ++ (key, value) :: after)).setPath? (key :: path) new =
      some (.object (before ++ (key, updated) :: after)) := by
  have deeper : path ≠ [] := by
    rintro rfl
    simp [setPath?_nil] at h
  refine (setPath?_cons_eq_some_iff deeper).2 ⟨_, value, updated, rfl, ?_, h, ?_⟩
  · exact Keyed.get?_append_cons absent value after
  · rw [Keyed.insert_append_cons absent]

theorem exists_setPath?_of_append (deeper : rest ≠ [])
    (h : value.setPath? (front ++ rest) new = some updated) :
    ∃ inner next, value.getPath? front = some inner ∧ inner.setPath? rest new = some next ∧
      updated.getPath? front = some next := by
  induction front generalizing value updated with
  | nil => exact ⟨value, updated, by simp, h, by simp⟩
  | cons key front ih =>
    have below : front ++ rest ≠ [] := by simp [deeper]
    obtain ⟨members, child, child', rfl, hc, hu, rfl⟩ := (setPath?_cons_eq_some_iff below).1 h
    obtain ⟨inner, next, hi, hn, hg⟩ := ih hu
    exact ⟨inner, next, by simp [getPath?_cons, get?, hc, hi], hn, by simp [getPath?_cons, get?, hg]⟩

/-- An update edits the object that all segments but the last lead to: it sets the last key there. -/
theorem setPath?_concat_eq_some_iff {leaf : String} :
    value.setPath? (front ++ [leaf]) new = some updated ↔
      ∃ members, Edited members (Keyed.insert leaf new members) front value updated := by
  induction front generalizing value updated with
  | nil =>
    rw [List.nil_append, setPath?_singleton_eq_some_iff]
    constructor
    · rintro ⟨members, rfl, rfl⟩
      exact ⟨members, .here⟩
    · rintro ⟨members, ⟨⟩⟩
      exact ⟨members, rfl, rfl⟩
  | cons key front ih =>
    rw [List.cons_append, setPath?_cons_eq_some_iff (by simp)]
    constructor
    · rintro ⟨outer, inner, next, rfl, found, set, rfl⟩
      obtain ⟨members, edited⟩ := ih.1 set
      exact ⟨members, .inside found edited⟩
    · rintro ⟨members, _ | ⟨found, edited⟩⟩
      exact ⟨_, _, _, rfl, found, ih.2 ⟨members, edited⟩, rfl⟩

/-- An update works just where it finds an object to set the last key in. -/
theorem isSome_setPath?_concat (value : Json) (front : Path) (leaf : String) (new : Json) :
    (value.setPath? (front ++ [leaf]) new).isSome = true ↔
      ∃ members, value.getPath? front = some (.object members) := by
  rw [Option.isSome_iff_exists]
  constructor
  · rintro ⟨updated, set⟩
    obtain ⟨members, edited⟩ := setPath?_concat_eq_some_iff.1 set
    exact ⟨members, edited.getPath?_before⟩
  · rintro ⟨members, found⟩
    obtain ⟨updated, edited⟩ := exists_edited found (Keyed.insert leaf new members)
    exact ⟨updated, setPath?_concat_eq_some_iff.2 ⟨members, edited⟩⟩

theorem changedAt_setPath? (h : value.setPath? path new = some updated) :
    value.ChangedAt path updated := by
  have nonempty : path ≠ [] := by
    rintro rfl
    simp [setPath?_nil] at h
  obtain ⟨front, leaf, rfl⟩ := Path.exists_eq_concat nonempty
  obtain ⟨members, edited⟩ := setPath?_concat_eq_some_iff.1 h
  exact edited.changedAt fun key apart => Keyed.get?_insert_of_ne apart new members

/-- Off its path an update does not show. -/
theorem getPath?_setPath?_of_incomparable (h : value.setPath? path new = some updated)
    (above : ¬ path <+: other) (below : ¬ other <+: path) :
    updated.getPath? other = value.getPath? other :=
  (changedAt_setPath? h).aside other above below

theorem isSome_getPath?_setPath? (h : value.setPath? path new = some updated)
    (above : ¬ path <+: other) (found : (value.getPath? other).isSome) :
    (updated.getPath? other).isSome := by
  by_cases below : other <+: path
  · obtain ⟨rest, rfl⟩ := below
    have deeper : rest ≠ [] := by
      rintro rfl
      simp at above
    obtain ⟨_, next, -, -, hg⟩ := exists_setPath?_of_append deeper h
    simp [hg]
  · rwa [getPath?_setPath?_of_incomparable h above below]

theorem exists_setPath?_of_getPath? (nonempty : path ≠ []) (found : (value.getPath? path).isSome)
    (new : Json) : ∃ updated, value.setPath? path new = some updated := by
  obtain ⟨front, leaf, rfl⟩ := Path.exists_eq_concat nonempty
  obtain ⟨old, held⟩ := Option.isSome_iff_exists.1 found
  obtain ⟨members, there, -⟩ := getPath?_concat_eq_some_iff.1 held
  exact Option.isSome_iff_exists.1 ((isSome_setPath?_concat value front leaf new).2 ⟨members, there⟩)

end Json
end AccessControl
