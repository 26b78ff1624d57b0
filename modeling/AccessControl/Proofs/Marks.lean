import AccessControl.Guard.Masking
import AccessControl.Proofs.Path

/-! Runs of marks. Each mark overwrites a path of plain data by the marker; a later mark may well
write into the marker that an earlier one has left. What counts for a path is the last mark on the
way to it, and whether any mark after that goes further down. -/
namespace AccessControl
namespace Json

/-- A run of marks over a value. In between, lists may give way to other lists. -/
inductive Marked : Json → List Path → Json → Prop where
  | done {value : Json} : Marked value [] value
  | mark {value next final : Json} {path : Path} {marks : List Path}
    (write : value.setPath? path accessDenied = some next) (onward : Marked next marks final) :
    Marked value (path :: marks) final
  | list {value next final : Json} {path : Path} {marks : List Path} {items items' : List Json}
    (found : value.getPath? path = some (.array items))
    (write : value.setPath? path (.array items') = some next) (onward : Marked next marks final) :
    Marked value marks final

/-- The marker alone stands at the path or above it. -/
def Sealed (value : Json) (path : Path) : Prop :=
  ∃ front, front ≠ [] ∧ front <+: path ∧ value.getPath? front = some accessDenied

/-- An object at `front` that leads no further on the way to `path`: there is at most a text. -/
def Shut (value : Json) (front path : Path) : Prop :=
  ∃ members, value.getPath? front = some (.object members) ∧
    ∀ key, front ++ [key] <+: path →
      ∀ inner, Keyed.get? key members = some inner → ∃ text, inner = .string text

variable {value next final new inner : Json} {front path mark : Path} {marks : List Path}

theorem getPath?_of_not_isObject (flat : value.isObject = false) (deeper : path ≠ []) :
    value.getPath? path = none := by
  obtain ⟨key, rest, rfl⟩ := List.exists_cons_of_ne_nil deeper
  cases value with
  | object members => cases flat
  | null | bool _ | number _ | string _ | array _ => rfl

theorem getPath?_accessDenied (deeper : path ≠ []) (h : accessDenied.getPath? path = some inner) :
    inner = .string "denied" := by
  obtain ⟨key, rest, rfl⟩ := List.exists_cons_of_ne_nil deeper
  rw [getPath?_cons] at h
  by_cases access : "access" = key
  · have held : accessDenied.get? key = some (.string "denied") := by
      simp [accessDenied, get?, Keyed.get?, access]
    rw [held, Option.bind_some] at h
    by_cases last : rest = []
    · simpa [last, eq_comm] using h
    · rw [getPath?_of_not_isObject rfl last] at h
      cases h
  · have absent : accessDenied.get? key = none := by
      simp [accessDenied, get?, Keyed.get?, access]
    rw [absent] at h
    cases h

theorem shut_of_marker (h : value.getPath? front = some accessDenied) (path : Path) :
    value.Shut front path := by
  refine ⟨_, h, fun key _ inner held => ⟨"denied", ?_⟩⟩
  have reached : accessDenied.getPath? [key] = some inner := by
    rw [getPath?_cons, accessDenied, get?, held, Option.bind_some, getPath?_nil]
  exact getPath?_accessDenied (List.cons_ne_nil key []) reached

theorem Shut.text_beyond {rest : Path} (shut : value.Shut front path) (deeper : rest ≠ [])
    (on : front ++ rest <+: path) (h : value.getPath? (front ++ rest) = some inner) :
    ∃ text, inner = .string text := by
  obtain ⟨members, hm, only⟩ := shut
  obtain ⟨key, rest, rfl⟩ := List.exists_cons_of_ne_nil deeper
  rw [getPath?_append, hm, Option.bind_some, getPath?_cons, get?] at h
  cases held : Keyed.get? key members with
  | none => simp [held] at h
  | some child =>
    have step : front ++ [key] <+: path :=
      List.IsPrefix.trans (by simp) on
    obtain ⟨text, rfl⟩ := only key step child held
    rw [held, Option.bind_some] at h
    by_cases last : rest = []
    · exact ⟨text, by simpa [last, eq_comm] using h⟩
    · rw [getPath?_of_not_isObject rfl last] at h
      cases h

theorem Shut.eq_of_prefix {upper : Path} (shut : value.Shut front path) (above : upper <+: front)
    (h : value.getPath? upper = some inner)
    (closed : inner = accessDenied ∨ inner.isObject = false) : upper = front := by
  obtain ⟨members, hm, -⟩ := shut
  obtain ⟨rest, rfl⟩ := above
  by_cases last : rest = []
  · rw [last, List.append_nil]
  · rw [getPath?_append, h, Option.bind_some] at hm
    rcases closed with rfl | flat
    · cases getPath?_accessDenied last hm
    · rw [getPath?_of_not_isObject flat last] at hm
      cases hm

theorem Shut.sealed_iff (shut : value.Shut front path) (nonempty : front ≠ [])
    (covers : front <+: path) :
    value.Sealed path ↔ value.getPath? front = some accessDenied := by
  refine ⟨?_, fun h => ⟨front, nonempty, covers, h⟩⟩
  rintro ⟨other, -, on, h⟩
  rcases List.prefix_or_prefix_of_prefix on covers with above | ⟨rest, rfl⟩
  · rwa [← shut.eq_of_prefix above h (.inl rfl)]
  · by_cases last : rest = []
    · simpa [last] using h
    · obtain ⟨text, impossible⟩ := shut.text_beyond last on h
      cases impossible

theorem Shut.off_list {items : List Json} {other : Path} (shut : value.Shut front path)
    (covers : front <+: path) (found : value.getPath? other = some (.array items)) :
    ¬ other <+: path := by
  intro on
  rcases List.prefix_or_prefix_of_prefix on covers with above | ⟨rest, rfl⟩
  · obtain rfl := shut.eq_of_prefix above found (.inr rfl)
    obtain ⟨members, hm, -⟩ := shut
    cases found.symm.trans hm
  · by_cases last : rest = []
    · obtain ⟨members, hm, -⟩ := shut
      rw [last, List.append_nil] at found
      cases found.symm.trans hm
    · obtain ⟨text, impossible⟩ := shut.text_beyond last on found
      cases impossible

theorem Shut.key_off {members : List (String × Json)} {key : String} {rest : Path}
    (only : ∀ key, front ++ [key] <+: path →
      ∀ inner, Keyed.get? key members = some inner → ∃ text, inner = .string text)
    (off : ¬ front ++ key :: rest <+: path)
    (h : (object members).setPath? (key :: rest) new = some next) : ¬ front ++ [key] <+: path := by
  intro on
  by_cases last : rest = []
  · exact off (last ▸ on)
  · obtain ⟨members', child, child', same, hc, hs, -⟩ := (setPath?_cons_eq_some_iff last).1 h
    cases same
    obtain ⟨text, rfl⟩ := only key on child hc
    obtain ⟨segment, rest, rfl⟩ := List.exists_cons_of_ne_nil last
    cases hs

theorem insert_ne_accessDenied {members : List (String × Json)} {key : String}
    (solid : ∀ text, new ≠ .string text) :
    object (Keyed.insert key new members) ≠ accessDenied := by
  intro same
  have held : accessDenied.getPath? [key] = some new := by
    rw [← same, getPath?_cons, get?, Keyed.get?_insert_self, Option.bind_some, getPath?_nil]
  exact solid _ (getPath?_accessDenied (List.cons_ne_nil key []) held)

theorem Shut.write (shut : value.Shut front path) (covers : front <+: path)
    (off : ¬ mark <+: path) (solid : ∀ text, new ≠ .string text)
    (h : value.setPath? mark new = some next) :
    next.Shut front path ∧
      (next.getPath? front = some accessDenied ↔
        value.getPath? front = some accessDenied ∧ ¬ front <+: mark) := by
  by_cases below : front <+: mark
  · obtain ⟨rest, rfl⟩ := below
    have deeper : rest ≠ [] := by
      rintro rfl
      exact off (by simpa using covers)
    obtain ⟨inner, inner', hi, hs, hn⟩ := exists_setPath?_of_append deeper h
    obtain ⟨members, hm, only⟩ := shut
    obtain rfl : .object members = inner := Option.some.inj (hm.symm.trans hi)
    obtain ⟨key, rest, rfl⟩ := List.exists_cons_of_ne_nil deeper
    have keyOff := Shut.key_off only off hs
    obtain ⟨members', child, same, rfl, hc⟩ := exists_insert_of_setPath? hs
    cases same
    have childSolid : ∀ text, child ≠ .string text := by
      rintro text rfl
      rcases hc with rfl | impossible
      · exact solid text rfl
      · cases impossible
    refine ⟨⟨_, hn, fun other on inner hi => ?_⟩, ?_⟩
    · have ne : other ≠ key := by
        rintro rfl
        exact keyOff on
      rw [Keyed.get?_insert_of_ne ne] at hi
      exact only other on inner hi
    · simp [hn, insert_ne_accessDenied childSolid]
  · have same : next.getPath? front = value.getPath? front :=
      getPath?_setPath?_of_incomparable h (fun above => off (above.trans covers)) below
    rw [same]
    exact ⟨by simpa only [Shut, same] using shut, by simp [below]⟩

/-- A run of marks off the path. It keeps the object shut, and leaves the marker there just if none of
the marks is below. -/
theorem Marked.shut (run : Marked value marks final) (shut : value.Shut front path)
    (covers : front <+: path) (off : ∀ mark ∈ marks, ¬ mark <+: path) :
    final.Shut front path ∧
      (final.getPath? front = some accessDenied ↔
        value.getPath? front = some accessDenied ∧ ∀ mark ∈ marks, ¬ front <+: mark) := by
  induction run with
  | done => simp [shut]
  | mark write _ ih =>
    rw [List.forall_mem_cons] at off
    obtain ⟨kept, iff⟩ := shut.write covers off.1 (by simp [accessDenied]) write
    obtain ⟨keptLast, iffLast⟩ := ih kept off.2
    exact ⟨keptLast, by rw [iffLast, iff, List.forall_mem_cons, and_assoc]⟩
  | @list value next final path' marks items items' found write _ ih =>
    obtain ⟨kept, iff⟩ := shut.write covers (shut.off_list covers found) (by simp) write
    obtain ⟨keptLast, iffLast⟩ := ih kept off
    refine ⟨keptLast, ?_⟩
    -- no list is in the marker, so this step cannot have been the one that spoils it
    have outside : value.getPath? front = some accessDenied → ¬ front <+: path' := by
      rintro sealed ⟨rest, rfl⟩
      rw [getPath?_append, sealed, Option.bind_some] at found
      by_cases last : rest = []
      · rw [last, getPath?_nil] at found
        cases found
      · cases getPath?_accessDenied last found
    rw [iffLast, iff, and_assoc]
    exact and_congr_right fun sealed => by simp [outside sealed]

theorem Marked.exists_at {before after : List Path}
    (run : Marked value (before ++ mark :: after) final) :
    ∃ middle, middle.getPath? mark = some accessDenied ∧ Marked middle after final := by
  generalize all : before ++ mark :: after = marks at run
  induction run generalizing before with
  | done => simp at all
  | @mark value next final path marks write onward ih =>
    cases before with
    | nil =>
      obtain ⟨rfl, rfl⟩ := List.cons.inj all
      exact ⟨next, getPath?_setPath? write, onward⟩
    | cons first before => exact ih (List.cons.inj all).2
  | list _ _ _ ih => exact ih all

theorem Marked.ne_nil (run : Marked value marks final) : ∀ mark ∈ marks, mark ≠ [] := by
  induction run with
  | done => simp
  | mark write _ ih =>
    refine List.forall_mem_cons.2 ⟨?_, ih⟩
    rintro rfl
    simp [setPath?_nil] at write
  | list _ _ _ ih => exact ih

/-- After the last mark on the way to a path, the path is sealed just if no mark goes below that. -/
theorem Marked.sealed_iff {before after : List Path}
    (run : Marked value (before ++ mark :: after) final) (covers : mark <+: path)
    (last : ∀ later ∈ after, ¬ later <+: path) :
    final.Sealed path ↔ ∀ later ∈ after, ¬ mark <+: later := by
  obtain ⟨middle, sealed, onward⟩ := run.exists_at
  obtain ⟨shut, iff⟩ := onward.shut (shut_of_marker sealed path) covers last
  rw [shut.sealed_iff (run.ne_nil mark (by simp)) covers, iff]
  simp [sealed]

theorem Marked.trans {middle : Json} {marks' : List Path} (first : Marked value marks middle)
    (second : Marked middle marks' final) : Marked value (marks ++ marks') final := by
  induction first with
  | done => exact second
  | mark write _ ih => exact .mark write (ih second)
  | list found write _ ih => exact .list found write (ih second)

theorem Marked.under {before : List (String × Json)} {key : String}
    (absent : key ∉ Keyed.keys before) (after : List (String × Json))
    (run : Marked value marks final) :
    Marked (.object (before ++ (key, value) :: after)) (marks.map (key :: ·))
      (.object (before ++ (key, final) :: after)) := by
  induction run with
  | done => exact .done
  | mark write _ ih => exact .mark (setPath?_under absent after write) ih
  | @list value _ _ path _ items _ found write _ ih =>
    have held : (object (before ++ (key, value) :: after)).getPath? (key :: path) =
        some (.array items) := by
      rw [getPath?_cons, get?, Keyed.get?_append_cons absent, Option.bind_some, found]
    exact .list held (setPath?_under absent after write) ih

end Json

/-- Among the marks is one on the way to the path, after which there is none on the way and none
below it. -/
def Path.SealedBy (path : Path) (marks : List Path) : Prop :=
  ∃ before mark after, marks = before ++ mark :: after ∧ mark <+: path ∧
    ∀ later ∈ after, ¬ later <+: path ∧ ¬ mark <+: later

theorem exists_last {α : Type} {p : α → Prop} {xs : List α} (h : ∃ x ∈ xs, p x) :
    ∃ before x after, xs = before ++ x :: after ∧ p x ∧ ∀ y ∈ after, ¬ p y := by
  induction xs with
  | nil => simp at h
  | cons first rest ih =>
    by_cases later : ∃ x ∈ rest, p x
    · obtain ⟨before, x, after, rfl, hx, none⟩ := ih later
      exact ⟨first :: before, x, after, rfl, hx, none⟩
    · have hf : p first := by
        obtain ⟨x, hx, hp⟩ := h
        rcases List.mem_cons.1 hx with rfl | hx
        · exact hp
        · exact absurd ⟨x, hx, hp⟩ later
      exact ⟨[], first, rest, rfl, hf, by simpa using later⟩

theorem Json.Marked.sealed_iff_sealedBy {value final : Json} {path : Path} {marks : List Path}
    (run : Marked value marks final) (covered : ∃ mark ∈ marks, mark <+: path) :
    final.Sealed path ↔ path.SealedBy marks := by
  constructor
  · intro sealed
    obtain ⟨before, mark, after, rfl, covers, last⟩ := exists_last covered
    exact ⟨before, mark, after, rfl, covers,
      fun later hl => ⟨last later hl, (run.sealed_iff covers last).1 sealed later hl⟩⟩
  · rintro ⟨before, mark, after, rfl, covers, last⟩
    have offWay : ∀ later ∈ after, ¬ later <+: path := fun later hl => (last later hl).1
    exact (run.sealed_iff covers offWay).2 fun later hl => (last later hl).2

end AccessControl
