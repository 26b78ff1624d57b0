import AccessControl.Proofs.Construction
import AccessControl.Proofs.RecordPath

/-! Overwriting in place. A path into a record is taken apart at its first dots, one link after the
other, and a path into plain data at its last dot, into the object to change and the key to set in it.
Both change a part where it stands and tell whether that has worked; both come to the update along the
whole path, and so a record and its plain data stay in step. -/
namespace AccessControl
namespace Path

theorem splitDots_append_dot (front rest : List Char) :
    splitDots (front ++ '.' :: rest) = splitDots front ++ splitDots rest := by
  induction front with
  | nil => simp [splitDots]
  | cons c front ih =>
    by_cases dot : c = '.'
    · simp [splitDots, dot, ih]
    · rw [List.cons_append, splitDots, if_neg dot, ih, splitDots, if_neg dot]
      cases pieces : splitDots front with
      | nil => exact absurd pieces (splitDots_ne_nil front)
      | cons piece pieces => rfl

theorem dot_not_mem_head_of_cut? {text head rest : String} (h : cut? text = some (head, rest)) :
    '.' ∉ head.toList := by
  have first : head ∈ ofText text := by simp [ofText_of_cut?_eq_some h]
  exact dot_not_mem_of_mem_ofText first

theorem dot_not_mem_of_cut?_eq_none {text : String} (h : cut? text = none) : '.' ∉ text.toList := by
  have only : text ∈ ofText text := by simp [ofText_of_cut?_eq_none h]
  exact dot_not_mem_of_mem_ofText only

theorem ofText_of_cutLast?_eq_none {text : String} (h : cutLast? text = none) :
    ofText text = [text] := by
  have plain := dot_not_mem_of_cut?_eq_none (Option.map_eq_none_iff.1 h)
  exact ofText_of_no_dot (by simpa using plain)

theorem ofText_of_cutLast?_eq_some {text front leaf : String}
    (h : cutLast? text = some (front, leaf)) : ofText text = ofText front ++ [leaf] := by
  obtain ⟨⟨head, rest⟩, cut, parts⟩ := Option.map_eq_some_iff.1 h
  obtain ⟨rfl, rfl⟩ := Prod.mk.inj parts
  have whole : text.toList = rest.toList.reverse ++ '.' :: head.toList.reverse := by
    have reversed := congrArg List.reverse (cut?_eq_some cut)
    simpa using reversed
  have plain : '.' ∉ (String.ofList head.toList.reverse).toList := by
    simpa using dot_not_mem_head_of_cut? cut
  rw [← ofText_of_no_dot plain, ofText, whole, splitDots_append_dot, List.map_append]
  simp [ofText]

end Path

/-- Whether something was changed, and what stands there now. -/
def attempt {α : Type} (old : α) (result : Option α) : Bool × α := (result.isSome, result.getD old)

theorem attempt_eq_true_iff {α : Type} {old new : α} {result : Option α} :
    attempt old result = (true, new) ↔ result = some new := by
  cases result <;> simp [attempt]

theorem attempt_eq_false_iff {α : Type} {old left : α} {result : Option α} :
    attempt old result = (false, left) ↔ result = none ∧ left = old := by
  cases result <;> simp [attempt, eq_comm]

namespace Json

theorem setKey_eq (value : Json) (key : String) (new : Json) :
    setKey key new value = attempt value (value.setPath? [key] new) := by
  cases value <;> rfl

theorem setPath?_object_cons (members : List (String × Json)) (key : String) {rest : Path}
    (deeper : rest ≠ []) (new : Json) :
    (Json.object members).setPath? (key :: rest) new = (Keyed.get? key members).bind fun inner =>
      (inner.setPath? rest new).map fun updated => .object (Keyed.insert key updated members) := by
  obtain ⟨segment, rest, rfl⟩ := List.exists_cons_of_ne_nil deeper
  simp only [setPath?]
  cases Keyed.get? key members with
  | none => rfl
  | some inner =>
    rw [Option.bind_some, Option.map_eq_bind]
    rfl

theorem changeAt_setKey_eq (value : Json) (path : Path) (leaf : String) (new : Json) :
    value.changeAt (setKey leaf new) path = attempt value (value.setPath? (path ++ [leaf]) new) := by
  induction path generalizing value with
  | nil =>
    rw [changeAt]
    exact setKey_eq value leaf new
  | cons key rest ih =>
    cases value with
    | object members =>
      rw [changeAt, List.cons_append, setPath?_object_cons members key (by simp)]
      cases found : Keyed.get? key members with
      | none => rfl
      | some inner =>
        simp only [ih, Option.bind_some]
        cases inner.setPath? (rest ++ [leaf]) new with
        | none => simp [attempt, Keyed.insert_of_get? found]
        | some updated => rfl
    | null | bool _ | number _ | string _ | array _ =>
      obtain ⟨segment, rest, path⟩ := List.exists_cons_of_ne_nil
        (List.append_ne_nil_of_right_ne_nil rest (List.cons_ne_nil leaf []))
      simp only [changeAt, List.cons_append, path, setPath?]
      rfl

theorem overwrite_eq (value : Json) (text : String) (new : Json) :
    value.overwrite text new = attempt value (value.setPath? (.ofText text) new) := by
  unfold overwrite
  cases cut : Path.cutLast? text with
  | none => rw [Path.ofText_of_cutLast?_eq_none cut]; exact setKey_eq value text new
  | some parts => rw [Path.ofText_of_cutLast?_eq_some cut]; exact changeAt_setKey_eq value _ _ new

end Json

namespace Record

variable {record : Record}

theorem contains_eq (record : Record) (text : String) :
    record.contains text = record.hasPath (.ofText text) := by
  fun_induction contains record text with
  | case1 record text cut => rw [Path.ofText_of_cut?_eq_none cut, hasPath]
  | case2 record text head rest cut value found =>
    rw [Path.ofText_of_cut?_eq_some cut, hasPath_cons (Path.ofText_ne_nil rest), found]
  | case3 record text head rest cut inner found ih =>
    rw [Path.ofText_of_cut?_eq_some cut, hasPath_cons (Path.ofText_ne_nil rest), found, ih]
  | case4 record text head rest cut records found =>
    rw [Path.ofText_of_cut?_eq_some cut, hasPath_cons (Path.ofText_ne_nil rest), found]
  | case5 record text head rest cut found =>
    rw [Path.ofText_of_cut?_eq_some cut, hasPath_cons (Path.ofText_ne_nil rest), found]

theorem attempt_insert {α : Type} {key : String} {old : α} (wrap : α → Slot Record)
    (found : record.get? key = some (wrap old)) (result : Option α) :
    ((attempt old result).1, record.insert key (wrap (attempt old result).2)) =
      attempt record ((result.map wrap).map (record.insert key)) := by
  cases result with
  | none => simp [attempt, insert_of_get? found]
  | some new => rfl

/-- Overwriting a record in place comes to the update along the whole path. -/
theorem overwrite_eq (record : Record) (text : String) (new : Json) :
    record.overwrite text new = attempt record (record.setPath? (.ofText text) new) := by
  fun_induction overwrite record text new with
  | case1 record text cut slot found =>
    rw [Path.ofText_of_cut?_eq_none cut, setPath?_cons, found]
    rfl
  | case2 record text cut found =>
    rw [Path.ofText_of_cut?_eq_none cut, setPath?_cons, found]
    rfl
  | case3 record text head rest cut value found changed =>
    have written : changed = attempt value (value.setPath? (.ofText rest) new) :=
      Json.overwrite_eq value rest new
    rw [written, Path.ofText_of_cut?_eq_some cut, setPath?_cons, found, Option.bind_some,
      Slot.setPath?_scalar (Path.ofText_ne_nil rest)]
    exact attempt_insert .scalar found _
  | case4 record text head rest cut inner found changed ih =>
    have written : changed = attempt inner (inner.setPath? (.ofText rest) new) := ih
    rw [written, Path.ofText_of_cut?_eq_some cut, setPath?_cons, found, Option.bind_some,
      Slot.setPath?_one (Path.ofText_ne_nil rest)]
    exact attempt_insert .one found _
  | case5 record text head rest cut records found =>
    rw [Path.ofText_of_cut?_eq_some cut, setPath?_cons, found, Option.bind_some,
      Slot.setPath?_many (Path.ofText_ne_nil rest)]
    rfl
  | case6 record text head rest cut found =>
    rw [Path.ofText_of_cut?_eq_some cut, setPath?_cons, found]
    rfl

/-- Paths into a record agree with paths into its plain data, for every record that can be made. In the
record a path is taken apart at its first dots, in plain data at its last; both ways come to the walk
along all segments. A record has the paths that lead somewhere in its data, each of them can be
overwritten, an overwritten record has the data that overwriting its data gives, and where a path cannot
be overwritten the record stays as it is. -/
theorem paths_agree (made : record.Made) (text : String) (new : Json) :
    (record.contains text = record.hasPath (.ofText text) ∧
      record.overwrite text new = attempt record (record.setPath? (.ofText text) new) ∧
      ∀ value : Json, value.overwrite text new = attempt value (value.setPath? (.ofText text) new)) ∧
    (record.contains text = true ↔ ∃ found, record.toJson.getPath? (.ofText text) = some found) ∧
    (record.contains text = true → (record.overwrite text new).1 = true) ∧
    ((record.overwrite text new).1 = true →
      record.toJson.overwrite text new = (true, (record.overwrite text new).2.toJson)) ∧
    ((record.overwrite text new).1 = false → (record.overwrite text new).2 = record) := by
  refine ⟨⟨contains_eq record text, overwrite_eq record text new,
    fun value => Json.overwrite_eq value text new⟩, ?_, fun found => ?_, fun written => ?_,
    fun failed => ?_⟩
  · rw [contains_eq, hasPath_eq made.distinct (Path.ofText_ne_nil text), Option.isSome_iff_exists]
  · rw [contains_eq] at found
    obtain ⟨updated, h⟩ := exists_setPath?_of_hasPath found new
    rw [overwrite_eq, h]
    rfl
  · rw [overwrite_eq] at written ⊢
    obtain ⟨updated, h⟩ := Option.isSome_iff_exists.1 written
    rw [Json.overwrite_eq, setPath?_toJson made.distinct h, h]
    rfl
  · rw [overwrite_eq] at failed ⊢
    have none := Option.not_isSome_iff_eq_none.1 (Bool.eq_false_iff.1 failed)
    rw [none]
    rfl

def noteRecord : Record :=
  ((Record.empty ⟨"note", []⟩).insert "text" (.scalar (.object [("body", .null)]))).insert "author"
    (.one ((Record.empty ⟨"person", []⟩).insert "" (.scalar (.object [("a", .null)]))))

theorem paths_agree_note :
    noteRecord.Made ∧ noteRecord.contains "author..a" = true ∧
      noteRecord.toJson.overwrite "author..b" .null =
        (true, (noteRecord.overwrite "author..b" .null).2.toJson) ∧
      (noteRecord.overwrite "author.b" .null).2 = noteRecord := by
  have made : noteRecord.Made := by
    refine .insert _ (.insert _ (.empty _) nofun) fun inner hi => ?_
    obtain rfl := List.mem_singleton.1 hi
    exact .insert _ (.empty _) nofun
  obtain ⟨⟨-, written, -⟩, -, -, agree, -⟩ := paths_agree made "author..b" .null
  obtain ⟨⟨-, missed, -⟩, -, -, -, kept⟩ := paths_agree made "author.b" .null
  have contains : noteRecord.contains "author..a" = true := by
    rw [contains_eq]
    cbv
  refine ⟨made, contains, agree ?_, kept ?_⟩
  · rw [written]
    cbv
  · rw [missed]
    cbv

end Record
end AccessControl
