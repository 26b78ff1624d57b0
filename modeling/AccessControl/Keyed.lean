/-! Ordered tables: lists of keyed values, searched from the front. Objects, records and rule
documents are tables; their order is the order in which keys first appeared. -/
namespace AccessControl
namespace Keyed

variable {α β : Type}

def keys (table : List (String × α)) : List String := table.map Prod.fst

def get? (key : String) : List (String × α) → Option α
  | [] => none
  | (k, v) :: rest => if k = key then some v else get? key rest

/-- An existing key keeps its position; a new one goes to the end. -/
def insert (key : String) (value : α) : List (String × α) → List (String × α)
  | [] => [(key, value)]
  | (k, v) :: rest => if k = key then (k, value) :: rest else (k, v) :: insert key value rest

def erase (key : String) (table : List (String × α)) : List (String × α) :=
  table.filter fun entry => entry.1 ≠ key

/-- A repeated key keeps its first position and its last value. -/
def ofList (entries : List (String × α)) : List (String × α) :=
  entries.foldl (fun table entry => insert entry.1 entry.2 table) []

def mapValues (f : α → β) (table : List (String × α)) : List (String × β) :=
  table.map fun entry => (entry.1, f entry.2)

@[simp] theorem get?_nil (key : String) : get? key ([] : List (String × α)) = none := rfl

@[simp] theorem keys_mapValues (f : α → β) (table : List (String × α)) :
    keys (mapValues f table) = keys table := by
  simp [keys, mapValues]

theorem get?_mapValues (f : α → β) (key : String) (table : List (String × α)) :
    get? key (mapValues f table) = (get? key table).map f := by
  induction table with
  | nil => rfl
  | cons entry rest ih =>
    obtain ⟨k, v⟩ := entry
    by_cases h : k = key <;> simp_all [mapValues, get?]

theorem get?_isSome_iff {key : String} {table : List (String × α)} :
    (get? key table).isSome ↔ key ∈ keys table := by
  induction table with
  | nil => simp [keys]
  | cons entry rest ih =>
    obtain ⟨k, v⟩ := entry
    by_cases h : k = key
    · simp [get?, keys, h]
    · have : key ≠ k := fun e => h e.symm
      simp_all [get?, keys]

@[simp] theorem get?_insert_self (key : String) (value : α) (table : List (String × α)) :
    get? key (insert key value table) = some value := by
  induction table with
  | nil => simp [insert, get?]
  | cons entry rest ih => by_cases h : entry.1 = key <;> simp_all [insert, get?]

theorem get?_insert_of_ne {key other : String} (h : other ≠ key) (value : α)
    (table : List (String × α)) : get? other (insert key value table) = get? other table := by
  induction table with
  | nil => simp [insert, get?, h.symm]
  | cons entry rest ih =>
    by_cases hk : entry.1 = key
    · have : entry.1 ≠ other := fun e => h (e.symm.trans hk)
      simp_all [insert, get?]
    · simp_all [insert, get?]

theorem keys_insert (key : String) (value : α) (table : List (String × α)) :
    keys (insert key value table)
      = if key ∈ keys table then keys table else keys table ++ [key] := by
  induction table with
  | nil => simp [insert, keys]
  | cons entry rest ih =>
    by_cases hk : entry.1 = key
    · simp [insert, keys, hk]
    · have : key ≠ entry.1 := fun e => hk e.symm
      simp only [insert, if_neg hk, keys, List.map_cons, List.mem_cons] at ih ⊢
      simp only [ih, this, false_or]
      split <;> simp_all

theorem nodup_keys_insert {table : List (String × α)} (h : (keys table).Nodup) (key : String)
    (value : α) : (keys (insert key value table)).Nodup := by
  rw [keys_insert]
  split
  · exact h
  · rename_i absent
    exact List.nodup_append.2 ⟨h, by simp, fun a ha b hb e => by simp_all⟩

@[simp] theorem get?_erase_self (key : String) (table : List (String × α)) :
    get? key (erase key table) = none := by
  induction table with
  | nil => rfl
  | cons entry rest ih => by_cases h : entry.1 = key <;> simp_all [erase, get?]

theorem get?_erase_of_ne {key other : String} (h : other ≠ key) (table : List (String × α)) :
    get? other (erase key table) = get? other table := by
  induction table with
  | nil => rfl
  | cons entry rest ih =>
    obtain ⟨k, v⟩ := entry
    by_cases hk : k = key
    · have : k ≠ other := fun e => h (e.symm.trans hk)
      simp_all [erase, get?]
    · by_cases ho : k = other <;> simp_all [erase, get?]

end Keyed
end AccessControl
