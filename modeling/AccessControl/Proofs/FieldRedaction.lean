import AccessControl.Proofs.RecordPath

/-! Redaction as one field sees it. Of the paths that are redacted only those count for a field that
start with its key: they are redacted inside of it, from behind the key, in their order. -/
namespace AccessControl

/-- Overwrites a path inside of a field by the marker, where it can be reached. -/
def Slot.redactPath (slot : Slot Record) (path : Path) : Slot Record :=
  (slot.setPath? path accessDenied).getD slot

def pathsBehind (key : String) (paths : List Path) : List Path :=
  paths.filterMap fun
    | head :: rest => if head = key then some rest else none
    | [] => none

theorem mem_pathsBehind_iff {key : String} {paths : List Path} {rest : Path} :
    rest ∈ pathsBehind key paths ↔ key :: rest ∈ paths := by
  rw [pathsBehind, List.mem_filterMap]
  constructor
  · rintro ⟨path, hp, h⟩
    cases path with
    | nil => cases h
    | cons head behind =>
      obtain ⟨rfl, rfl⟩ : head = key ∧ behind = rest := by simpa using h
      exact hp
  · exact fun hp => ⟨_, hp, by simp⟩

namespace Slot

variable {inner left : Record} {records : List Record} {path : Path} {paths : List Path}

theorem redactPath_scalar (value : Json) (path : Path) :
    ∃ left, (Slot.scalar value : Slot Record).redactPath path = .scalar left := by
  cases path with
  | nil => exact ⟨accessDenied, rfl⟩
  | cons key rest =>
    simp only [redactPath, setPath?]
    cases value.setPath? (key :: rest) accessDenied with
    | none => exact ⟨value, rfl⟩
    | some next => exact ⟨next, rfl⟩

theorem redactPath_one (deeper : path ≠ []) :
    (Slot.one inner).redactPath path = .one (inner.redactPath path) := by
  obtain ⟨key, rest, rfl⟩ := List.exists_cons_of_ne_nil deeper
  simp only [redactPath, Record.redactPath, setPath?]
  cases inner.setPath? (key :: rest) accessDenied <;> rfl

theorem redactPath_many (deeper : path ≠ []) :
    (Slot.many records).redactPath path = .many records := by
  obtain ⟨key, rest, rfl⟩ := List.exists_cons_of_ne_nil deeper
  rfl

theorem foldl_redactPath_scalar (value : Json) (paths : List Path) :
    ∃ left, paths.foldl redactPath (Slot.scalar value : Slot Record) = .scalar left := by
  induction paths generalizing value with
  | nil => exact ⟨value, rfl⟩
  | cons path rest ih =>
    obtain ⟨next, hn⟩ := redactPath_scalar value path
    rw [List.foldl_cons, hn]
    exact ih next

theorem foldl_redactPath_one (deeper : [] ∉ paths) :
    paths.foldl redactPath (.one inner) = .one (paths.foldl Record.redactPath inner) := by
  induction paths generalizing inner with
  | nil => rfl
  | cons path rest ih =>
    rw [List.mem_cons, not_or] at deeper
    rw [List.foldl_cons, List.foldl_cons, redactPath_one (Ne.symm deeper.1), ih deeper.2]

theorem foldl_redactPath_many (deeper : [] ∉ paths) :
    paths.foldl redactPath (.many records) = .many records := by
  induction paths with
  | nil => rfl
  | cons path rest ih =>
    rw [List.mem_cons, not_or] at deeper
    rw [List.foldl_cons, redactPath_many (Ne.symm deeper.1), ih deeper.2]

/-- A field that is overwritten itself is plain data from then on. -/
theorem foldl_redactPath_of_mem (slot : Slot Record) (h : [] ∈ paths) :
    ∃ value, paths.foldl redactPath slot = .scalar value := by
  induction paths generalizing slot with
  | nil => cases h
  | cons path rest ih =>
    rw [List.foldl_cons]
    rcases List.mem_cons.1 h with rfl | h
    · exact foldl_redactPath_scalar accessDenied rest
    · exact ih (slot.redactPath path) h

end Slot

namespace Record

variable {record : Record}

theorem get?_redactPath_cons (record : Record) (head : String) (rest : Path) (key : String) :
    (record.redactPath (head :: rest)).get? key =
      if head = key then (record.get? key).map (·.redactPath rest) else record.get? key := by
  by_cases same : head = key
  · subst same
    rw [if_pos rfl, redactPath, setPath?_cons]
    cases found : record.get? head with
    | none => simp [found]
    | some slot =>
      rw [Option.bind_some, Option.map_some, Slot.redactPath]
      cases slot.setPath? rest accessDenied with
      | none => simpa using found
      | some next => simp [insert, get?]
  · rw [if_neg same]
    exact get?_redactPath_of_head? (by simpa using same)

/-- Redacting a record redacts each of its fields by what the paths say behind its key. -/
theorem get?_foldl_redactPath (record : Record) (paths : List Path) (key : String) :
    (paths.foldl redactPath record).get? key =
      (record.get? key).map ((pathsBehind key paths).foldl Slot.redactPath) := by
  induction paths generalizing record with
  | nil => simp [pathsBehind]
  | cons path rest ih =>
    rw [List.foldl_cons, ih]
    cases path with
    | nil => rfl
    | cons head behind =>
      rw [get?_redactPath_cons, pathsBehind, pathsBehind]
      by_cases same : head = key
      · rw [if_pos same, List.filterMap_cons_some (b := behind) (by simp [same]), Option.map_map]
        rfl
      · rw [if_neg same, List.filterMap_cons_none (by simp [same])]

theorem keys_foldl_redactPath (record : Record) (paths : List Path) :
    Keyed.keys (paths.foldl redactPath record).fields = Keyed.keys record.fields := by
  induction paths generalizing record with
  | nil => rfl
  | cons path rest ih =>
    rw [List.foldl_cons, ih, redactPath]
    cases h : record.setPath? path accessDenied with
    | none => rfl
    | some updated => exact keys_setPath? h

end Record

end AccessControl
