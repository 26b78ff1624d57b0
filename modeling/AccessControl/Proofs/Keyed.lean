import AccessControl.Keyed

/-! Tables without repeated keys: looking up is being in the table, and building up from entries
changes nothing. -/
namespace AccessControl
namespace Keyed

variable {α β : Type} {key : String} {value : α} {table : List (String × α)}

@[simp] theorem keys_nil : keys ([] : List (String × α)) = [] := rfl

@[simp] theorem keys_cons (entry : String × α) : keys (entry :: table) = entry.1 :: keys table := rfl

@[simp] theorem keys_append (other : List (String × α)) :
    keys (table ++ other) = keys table ++ keys other := List.map_append

theorem mem_of_get? (h : get? key table = some value) : (key, value) ∈ table := by
  induction table with
  | nil => cases h
  | cons entry rest ih =>
    obtain ⟨k, v⟩ := entry
    by_cases hk : k = key
    · simp only [get?, if_pos hk, Option.some.injEq] at h
      simp [hk, h]
    · simp only [get?, if_neg hk] at h
      exact List.mem_cons_of_mem _ (ih h)

theorem mem_keys_iff : key ∈ keys table ↔ ∃ value, get? key table = some value := by
  rw [← get?_isSome_iff, Option.isSome_iff_exists]

theorem mem_insert {entry : String × α} (h : entry ∈ insert key value table) :
    entry = (key, value) ∨ entry ∈ table := by
  induction table with
  | nil => simpa [insert] using h
  | cons first rest ih =>
    obtain ⟨k, v⟩ := first
    by_cases hk : k = key
    · simp only [insert, if_pos hk, List.mem_cons] at h
      rcases h with rfl | later
      · exact .inl (by rw [hk])
      · exact .inr (List.mem_cons_of_mem _ later)
    · simp only [insert, if_neg hk, List.mem_cons] at h
      rcases h with rfl | later
      · simp
      · exact (ih later).imp_right (List.mem_cons_of_mem _)

theorem insert_of_not_mem (h : key ∉ keys table) (value : α) :
    insert key value table = table ++ [(key, value)] := by
  induction table with
  | nil => rfl
  | cons entry rest ih =>
    rw [keys_cons, List.mem_cons, not_or] at h
    rw [insert, if_neg (Ne.symm h.1), ih h.2, List.cons_append]

/-- The first entry of a key is the one that is overwritten. -/
theorem insert_append_cons (h : key ∉ keys table) (old value : α) (rest : List (String × α)) :
    insert key value (table ++ (key, old) :: rest) = table ++ (key, value) :: rest := by
  induction table with
  | nil => simp [insert]
  | cons entry table ih =>
    rw [keys_cons, List.mem_cons, not_or] at h
    rw [List.cons_append, insert, if_neg (Ne.symm h.1), ih h.2, List.cons_append]

theorem get?_append_cons (h : key ∉ keys table) (value : α) (rest : List (String × α)) :
    get? key (table ++ (key, value) :: rest) = some value := by
  induction table with
  | nil => simp [get?]
  | cons entry table ih =>
    rw [keys_cons, List.mem_cons, not_or] at h
    rw [List.cons_append, get?, if_neg (Ne.symm h.1), ih h.2]

theorem get?_of_mem (distinct : (keys table).Nodup) (h : (key, value) ∈ table) :
    get? key table = some value := by
  obtain ⟨front, back, rfl⟩ := List.append_of_mem h
  rw [keys_append, keys_cons, List.nodup_append] at distinct
  exact get?_append_cons (fun hm => distinct.2.2 _ hm _ (by simp) rfl) value back

/-- Setting a key to what is found under it changes nothing. -/
theorem insert_of_get? (h : get? key table = some value) : insert key value table = table := by
  induction table with
  | nil => cases h
  | cons entry rest ih =>
    obtain ⟨k, v⟩ := entry
    by_cases hk : k = key
    · simp only [get?, if_pos hk, Option.some.injEq] at h
      rw [insert, if_pos hk, h]
    · simp only [get?, if_neg hk] at h
      rw [insert, if_neg hk, ih h]

theorem mapValues_insert (f : α → β) (key : String) (value : α) (table : List (String × α)) :
    mapValues f (insert key value table) = insert key (f value) (mapValues f table) := by
  induction table with
  | nil => rfl
  | cons entry rest ih =>
    by_cases h : entry.1 = key
    · simp [insert, mapValues, h]
    · simp only [insert, if_neg h, mapValues, List.map_cons] at ih ⊢
      rw [ih]

theorem foldl_insert_of_distinct (entries : List (String × α))
    (distinct : (keys (table ++ entries)).Nodup) :
    entries.foldl (fun table entry => insert entry.1 entry.2 table) table = table ++ entries := by
  induction entries generalizing table with
  | nil => simp
  | cons entry rest ih =>
    have absent : entry.1 ∉ keys table := by
      rw [keys_append, List.nodup_append] at distinct
      exact fun hm => distinct.2.2 _ hm _ (by simp) rfl
    rw [List.foldl_cons, insert_of_not_mem absent, ih (by simpa using distinct)]
    simp

theorem ofList_of_distinct (distinct : (keys table).Nodup) : ofList table = table :=
  foldl_insert_of_distinct table distinct

theorem nodup_keys_ofList (entries : List (String × α)) : (keys (ofList entries)).Nodup := by
  suffices h : ∀ table : List (String × α), (keys table).Nodup →
      (keys (entries.foldl (fun table entry => insert entry.1 entry.2 table) table)).Nodup from
    h [] (by simp)
  induction entries with
  | nil => exact fun _ h => h
  | cons entry rest ih => exact fun table h => ih _ (nodup_keys_insert h entry.1 entry.2)

theorem get?_ofList_filter {keep : String × α → Bool} (kept : ∀ value, keep (key, value) = true)
    (entries : List (String × α)) :
    get? key (ofList (entries.filter keep)) = get? key (ofList entries) := by
  suffices h : ∀ table other : List (String × α), get? key table = get? key other →
      get? key ((entries.filter keep).foldl (fun table entry => insert entry.1 entry.2 table) table)
        = get? key (entries.foldl (fun table entry => insert entry.1 entry.2 table) other) from
    h [] [] rfl
  induction entries with
  | nil => exact fun _ _ same => same
  | cons entry rest ih =>
    intro table other same
    obtain ⟨k, value⟩ := entry
    by_cases hk : key = k
    · subst hk
      rw [List.filter_cons_of_pos (kept value)]
      exact ih _ _ (by simp)
    · have off : get? key (insert k value other) = get? key other := get?_insert_of_ne hk value other
      by_cases stays : keep (k, value) = true
      · rw [List.filter_cons_of_pos stays]
        refine ih _ _ ?_
        rw [off, get?_insert_of_ne hk, same]
      · rw [List.filter_cons_of_neg stays]
        exact ih _ _ (same.trans off.symm)

theorem mem_of_mem_ofList {entries : List (String × α)} {entry : String × α}
    (h : entry ∈ ofList entries) : entry ∈ entries := by
  suffices all : ∀ table : List (String × α),
      entry ∈ entries.foldl (fun table entry => insert entry.1 entry.2 table) table →
        entry ∈ table ∨ entry ∈ entries by
    rcases all [] h with hm | hm
    · cases hm
    · exact hm
  clear h
  induction entries with
  | nil => exact fun table h => .inl h
  | cons first rest ih =>
    intro table h
    rcases ih _ h with hm | hm
    · rcases mem_insert hm with rfl | hm
      · simp
      · exact .inl hm
    · exact .inr (List.mem_cons_of_mem _ hm)

/-- Without repeated keys, a table is its keys in order and what is found under each. -/
theorem eq_of_get? {other : List (String × α)} (distinct : (keys table).Nodup)
    (same : keys other = keys table) (agree : ∀ key, get? key other = get? key table) :
    other = table := by
  induction table generalizing other with
  | nil => simpa [keys] using same
  | cons entry rest ih =>
    obtain ⟨k, value⟩ := entry
    cases other with
    | nil => cases same
    | cons entry' rest' =>
      obtain ⟨k', value'⟩ := entry'
      simp only [keys_cons, List.cons.injEq] at same
      obtain ⟨rfl, tail⟩ := same
      rw [keys_cons, List.nodup_cons] at distinct
      obtain rfl : value' = value := by simpa [get?] using agree k'
      congr
      refine ih distinct.2 tail fun key => ?_
      by_cases first : k' = key
      · subst first
        have absent (entries : List (String × α)) (h : k' ∉ keys entries) :
            get? k' entries = none := by
          rwa [← Option.not_isSome_iff_eq_none, get?_isSome_iff]
        rw [absent rest distinct.1, absent rest' (tail ▸ distinct.1)]
      · simpa only [get?, if_neg first] using agree key

end Keyed
end AccessControl
