import AccessControl.Proofs.FieldRedaction
import AccessControl.Proofs.Marks
import AccessControl.Proofs.Masking

/-! What masking overwrites. On plain data masking a record is a run of marks: those of its own mask
first, then those of the records behind its links. A path of the mask is sealed by the marker just if
nothing is written below the last mark on the way to it; a field whose key has a dot in it is never
overwritten at all. -/
namespace AccessControl
namespace Record

/-- The paths that are overwritten if these paths are redacted in turn. -/
def marks (record : Record) : List Path → List Path
  | [] => []
  | path :: rest =>
    match record.setPath? path accessDenied with
    | some updated => path :: updated.marks rest
    | none => record.marks rest

def present (record : Record) (mask : List String) : List Path :=
  (mask.map Path.ofText).filter record.hasPath

variable {record : Record} {path : Path} {key : String}

theorem marked_foldl_redactPath (distinct : record.Everywhere Distinct) (paths : List Path) :
    Json.Marked record.toJson (record.marks paths) (paths.foldl redactPath record).toJson := by
  induction paths generalizing record with
  | nil => exact .done
  | cons path rest ih =>
    rw [marks, List.foldl_cons, redactPath]
    cases h : record.setPath? path accessDenied with
    | none => exact ih distinct
    | some updated =>
      exact .mark (setPath?_toJson distinct h) (ih (distinct.setPath? Distinct.stable h))

/-- A path that leads somewhere is covered once it is redacted, by its own mark or one above it. -/
theorem exists_mark (distinct : record.Everywhere Distinct) {paths : List Path}
    (hm : path ∈ paths) (nonempty : path ≠ []) (found : record.hasPath path = true) :
    ∃ mark ∈ record.marks paths, mark <+: path := by
  induction paths generalizing record with
  | nil => cases hm
  | cons first rest ih =>
    rw [marks]
    cases h : record.setPath? first accessDenied with
    | none =>
      rcases List.mem_cons.1 hm with rfl | hm
      · obtain ⟨updated, impossible⟩ := exists_setPath?_of_hasPath found accessDenied
        cases impossible.symm.trans h
      · exact ih distinct hm found
    | some updated =>
      by_cases covers : first <+: path
      · exact ⟨first, by simp, covers⟩
      · have later : path ∈ rest := by
          rcases List.mem_cons.1 hm with rfl | hm
          · exact absurd (List.prefix_refl path) covers
          · exact hm
        have kept := distinct.setPath? Distinct.stable h
        rw [hasPath_eq distinct nonempty] at found
        have stillFound := Json.isSome_getPath?_setPath? (setPath?_toJson distinct h) covers found
        rw [← hasPath_eq kept nonempty] at stillFound
        obtain ⟨mark, hmark, hc⟩ := ih kept later stillFound
        exact ⟨mark, List.mem_cons_of_mem _ hmark, hc⟩

theorem get?_redact_of_dot (dot : '.' ∈ key.toList) (mask : List String) :
    (record.redact mask).get? key = record.get? key := by
  have none : pathsBehind key (record.present mask) = [] := by
    refine List.eq_nil_iff_forall_not_mem.2 fun rest hr => ?_
    obtain ⟨text, -, split⟩ := List.mem_map.1 (List.mem_filter.1 (mem_pathsBehind_iff.1 hr)).1
    have head : key ∈ Path.ofText text := by simp [split]
    exact Path.dot_not_mem_of_mem_ofText head dot
  change ((record.present mask).foldl redactPath record).get? key = record.get? key
  rw [get?_foldl_redactPath, none]
  exact Option.map_id'

end Record

namespace Guard

mutual

/-- The paths that masking a record overwrites by the marker, in order. A denied record is itself
overwritten. -/
def marks (guard : Guard) (action : String) (record : Record) : List Path :=
  match guard.checkRecord record action with
  | .ok outcome =>
    if outcome.allowed then
      record.marks (record.present outcome.mask) ++
        guard.fieldMarks action outcome.mask record.type (record.redact outcome.mask).fields
    else [[]]
  | .error _ => []
termination_by record.weight
decreasing_by
  have := Record.weight_redact_le record outcome.mask
  rw [Record.weight_eq] at this
  omega

def fieldMarks (guard : Guard) (action : String) (mask : List String) (type : ObjectType) :
    List (String × Slot Record) → List Path
  | [] => []
  | (key, slot) :: rest =>
    guard.fieldMark action mask type key slot ++ guard.fieldMarks action mask type rest
termination_by fields => Record.fieldsWeight fields
decreasing_by all_goals simp only [Record.fieldsWeight]; omega

def fieldMark (guard : Guard) (action : String) (mask : List String) (type : ObjectType)
    (key : String) : Slot Record → List Path
  | .one record =>
    if key ∉ mask ∧ (type.field? key).any fun field => field.type.walks (.one record) then
      (guard.marks action record).map (key :: ·)
    else []
  | _ => []
termination_by slot => Record.slotWeight slot
decreasing_by all_goals simp only [Record.slotWeight]; omega

end

variable {guard : Guard} {action : String} {record masked : Record} {mask : List String}
  {type : ObjectType} {key : String} {slot slot' : Slot Record}

theorem marks_of_denied (h : guard.mask action record = .ok none) :
    guard.marks action record = [[]] := by
  obtain ⟨outcome, decided, denied⟩ := mask_eq_none_iff.1 h
  rw [marks, decided]
  simp [denied]

theorem fieldMark_of_walked (h : Walked mask type key (.one record)) :
    guard.fieldMark action mask type key (.one record) =
      (guard.marks action record).map (key :: ·) := by
  obtain ⟨unnamed, field, found, walks⟩ := h
  rw [fieldMark, if_pos ⟨unnamed, by simp [found, walks]⟩]

theorem fieldMark_of_not_walked (h : ¬ Walked mask type key slot) :
    guard.fieldMark action mask type key slot = [] := by
  cases slot with
  | one record =>
    rw [fieldMark, if_neg]
    rintro ⟨unnamed, walks⟩
    obtain ⟨field, found, walks⟩ := (Option.any_eq_true _ _).1 walks
    exact h ⟨unnamed, field, found, walks⟩
  | scalar value => simp only [fieldMark]
  | many records => simp only [fieldMark]

theorem marked_field (below : ∀ inner ∈ slot.records, ∀ left,
      guard.mask action inner = .ok (some left) →
        Json.Marked inner.toJson (guard.marks action inner) left.toJson)
    (h : guard.maskField action mask type key slot = .ok slot') {before : List (String × Json)}
    (absent : key ∉ Keyed.keys before) (after : List (String × Json)) :
    Json.Marked (.object (before ++ (key, slot.toJson) :: after))
      (guard.fieldMark action mask type key slot)
      (.object (before ++ (key, slot'.toJson) :: after)) := by
  by_cases walked : Walked mask type key slot
  · have overwrite (new : Json) :
        (Json.object (before ++ (key, slot.toJson) :: after)).setPath? [key] new =
          some (.object (before ++ (key, new) :: after)) :=
      Json.setPath?_singleton_eq_some_iff.2
        ⟨_, rfl, by rw [Keyed.insert_append_cons absent]⟩
    cases slot with
    | scalar value => exact absurd walked (not_walked_scalar value)
    | one inner =>
      simp only [maskField_one walked, bind_eq_ok_iff, pure_eq_ok_iff] at h
      obtain ⟨result, hr, rfl⟩ := h
      rw [fieldMark_of_walked walked]
      cases result with
      | none =>
        rw [marks_of_denied hr]
        exact .mark (overwrite accessDenied) .done
      | some left => exact (below inner (by simp [Slot.records]) left hr).under absent after
    | many records =>
      simp only [maskField_many walked, bind_eq_ok_iff, pure_eq_ok_iff] at h
      obtain ⟨left, -, rfl⟩ := h
      have held : (Json.object (before ++ (key, (Slot.many records).toJson) :: after)).getPath? [key]
          = some (.array (records.map Record.toJson)) := by
        rw [Json.getPath?_cons, Json.get?, Keyed.get?_append_cons absent]
        rfl
      simp only [fieldMark]
      exact .list held (overwrite _) .done
  · rw [maskField_of_not_walked walked] at h
    obtain rfl := Except.ok.inj h
    rw [fieldMark_of_not_walked walked]
    exact .done

/-- Masking the fields of a record one by one runs their marks over the object. -/
theorem marked_fields {fields fields' : List (String × Slot Record)}
    (below : ∀ field ∈ fields, ∀ inner ∈ field.2.records, ∀ left,
      guard.mask action inner = .ok (some left) →
        Json.Marked inner.toJson (guard.marks action inner) left.toJson)
    (h : guard.maskFields action mask type fields = .ok fields') {before : List (String × Json)}
    (distinct : (Keyed.keys before ++ Keyed.keys fields).Nodup) :
    Json.Marked (.object (before ++ Keyed.mapValues Slot.toJson fields))
      (guard.fieldMarks action mask type fields)
      (.object (before ++ Keyed.mapValues Slot.toJson fields')) := by
  induction fields generalizing fields' before with
  | nil =>
    rw [maskFields] at h
    obtain rfl := Except.ok.inj h
    rw [fieldMarks]
    exact .done
  | cons field rest ih =>
    obtain ⟨key, slot⟩ := field
    simp only [maskFields_cons, bind_eq_ok_iff, pure_eq_ok_iff] at h
    obtain ⟨slot', hs, rest', hr, rfl⟩ := h
    rw [List.forall_mem_cons] at below
    rw [fieldMarks]
    have absent : key ∉ Keyed.keys before := by
      intro hk
      exact (List.nodup_append.1 distinct).2.2 key hk key (by simp) rfl
    refine (marked_field below.1 hs absent _).trans ?_
    have shift (slots : List (String × Slot Record)) :
        before ++ (key, slot'.toJson) :: Keyed.mapValues Slot.toJson slots =
          (before ++ [(key, slot'.toJson)]) ++ Keyed.mapValues Slot.toJson slots := by simp
    change Json.Marked
      (.object (before ++ (key, slot'.toJson) :: Keyed.mapValues Slot.toJson rest)) _
      (.object (before ++ (key, slot'.toJson) :: Keyed.mapValues Slot.toJson rest'))
    rw [shift, shift]
    exact ih below.2 hr (by simpa using distinct)

theorem marked_mask (distinct : record.Everywhere Record.Distinct)
    (h : guard.mask action record = .ok (some masked)) :
    Json.Marked record.toJson (guard.marks action record) masked.toJson := by
  induction record using Record.redact_induction generalizing masked with
  | step record ih =>
    obtain ⟨outcome, fields, decided, allowed, masks, rfl⟩ := mask_eq_some_iff.1 h
    have redacted := distinct.redact Record.Distinct.stable outcome.mask
    have kept : Record.Distinct ⟨record.type, fields⟩ := by
      rw [Record.Distinct, keys_maskFields masks]
      exact redacted.here
    rw [marks, decided]
    simp only [allowed, if_true]
    refine (Record.marked_foldl_redactPath distinct (record.present outcome.mask)).trans ?_
    change Json.Marked (record.redact outcome.mask).toJson _ _
    rw [Record.toJson_eq redacted.here, Record.toJson_eq kept]
    have below : ∀ field ∈ (record.redact outcome.mask).fields, ∀ inner ∈ field.2.records, ∀ left,
        guard.mask action inner = .ok (some left) →
          Json.Marked inner.toJson (guard.marks action inner) left.toJson :=
      fun field hf inner hi left hl =>
        ih outcome.mask field.1 field.2 hf inner hi (redacted.nested hf inner hi) hl
    have keys : (Keyed.keys ([] : List (String × Json)) ++
        Keyed.keys (record.redact outcome.mask).fields).Nodup := redacted.here
    exact marked_fields below masks keys

theorem get?_of_named {outcome : Outcome} (h : guard.mask action record = .ok (some masked))
    (decided : guard.checkRecord record action = .ok outcome) (named : key ∈ outcome.mask) :
    masked.get? key = (record.redact outcome.mask).get? key := by
  obtain ⟨other, fields, decided', -, masks, rfl⟩ := mask_eq_some_iff.1 h
  obtain rfl : other = outcome := Except.ok.inj (decided'.symm.trans decided)
  change Keyed.get? key fields = Keyed.get? key (record.redact other.mask).fields
  have rel := get?_maskFields masks key
  generalize Keyed.get? key fields = kept, Keyed.get? key (record.redact other.mask).fields = found
    at rel ⊢
  cases rel with
  | some hs =>
    rw [maskField_of_not_walked fun walked => walked.1 named] at hs
    rw [Except.ok.inj hs]
  | none => rfl

/-- When redaction is exact. A path of the mask that leads somewhere in the record is sealed by the
marker afterwards just if, of all marks that masking makes, none comes after the last one on the way
to the path and below it. A field that has a dot in its key, and so is no path, stays as it is. -/
theorem masked_sealed_iff {outcome : Outcome} (distinct : record.Everywhere Record.Distinct)
    (h : guard.mask action record = .ok (some masked))
    (decided : guard.checkRecord record action = .ok outcome) :
    ∀ text ∈ outcome.mask,
      (record.hasPath (.ofText text) = true →
        (masked.toJson.Sealed (.ofText text) ↔
          (Path.ofText text).SealedBy (guard.marks action record))) ∧
      ('.' ∈ text.toList → masked.get? text = record.get? text) := by
  intro text named
  constructor
  · intro found
    have present : Path.ofText text ∈ record.present outcome.mask :=
      List.mem_filter.2 ⟨List.mem_map_of_mem named, found⟩
    obtain ⟨mark, hm, covers⟩ :=
      Record.exists_mark distinct present (Path.ofText_ne_nil text) found
    refine (marked_mask distinct h).sealed_iff_sealedBy ⟨mark, ?_, covers⟩
    obtain ⟨other, _, decided', allowed, -, -⟩ := mask_eq_some_iff.1 h
    obtain rfl : other = outcome := Except.ok.inj (decided'.symm.trans decided)
    rw [marks, decided]
    simp only [allowed, if_true]
    exact List.mem_append_left _ hm
  · intro dot
    rw [get?_of_named h decided named, Record.get?_redact_of_dot dot]

def docGuard (mask : List String) : Guard :=
  ⟨⟨.null, .null⟩, ⟨[("doc", [("get", [⟨[], mask, .allow⟩])])]⟩, .deny⟩

def docRecord (key : String) (value : Json) : Record := ⟨⟨"doc", []⟩, [(key, .scalar value)]⟩

theorem distinct_docRecord (key : String) (value : Json) :
    (docRecord key value).Everywhere Record.Distinct := by
  refine .intro (by simp [Record.Distinct, docRecord]) fun other slot hm inner hi => ?_
  obtain ⟨rfl, rfl⟩ : other = key ∧ slot = .scalar value := by simpa [docRecord] using hm
  simp [Slot.records] at hi

theorem checkRecord_docGuard (mask : List String) (key : String) (value : Json) :
    (docGuard mask).checkRecord (docRecord key value) "get"
      = .ok ⟨true, some ⟨mask, none, .allow⟩⟩ := by
  cbv

theorem masked_sealed_iff_below_first :
    (docRecord "a" (.object [("b", .null)])).Everywhere Record.Distinct ∧
      (docGuard ["a.b", "a"]).mask "get" (docRecord "a" (.object [("b", .null)]))
        = .ok (some (docRecord "a" accessDenied)) ∧
      ∀ text ∈ ["a.b", "a"],
        ((docRecord "a" (.object [("b", .null)])).hasPath (.ofText text) = true →
          ((docRecord "a" accessDenied).toJson.Sealed (.ofText text) ↔ (Path.ofText text).SealedBy
            ((docGuard ["a.b", "a"]).marks "get" (docRecord "a" (.object [("b", .null)]))))) ∧
        ('.' ∈ text.toList → (docRecord "a" accessDenied).get? text =
          (docRecord "a" (.object [("b", .null)])).get? text) := by
  have masks : (docGuard ["a.b", "a"]).mask "get" (docRecord "a" (.object [("b", .null)]))
      = .ok (some (docRecord "a" accessDenied)) := by cbv
  exact ⟨distinct_docRecord _ _, masks,
    masked_sealed_iff (distinct_docRecord _ _) masks (checkRecord_docGuard _ _ _)⟩

/-- A mask that names a field and then a member of it spoils the marker of the field, and a mask that
names a field with a dot in its key leaves it readable. -/
theorem redaction_not_exact :
    (∃ masked, (docGuard ["a", "a.b"]).mask "get" (docRecord "a" (.object [("b", .null)]))
        = .ok (some masked) ∧
      (docGuard ["a", "a.b"]).checkRecord (docRecord "a" (.object [("b", .null)])) "get"
        = .ok ⟨true, some ⟨["a", "a.b"], none, .allow⟩⟩ ∧
      (docRecord "a" (.object [("b", .null)])).hasPath (.ofText "a") = true ∧
      ¬ masked.toJson.Sealed (.ofText "a")) ∧
    ∃ masked, (docGuard ["a.b"]).mask "get" (docRecord "a.b" .null) = .ok (some masked) ∧
      (docGuard ["a.b"]).checkRecord (docRecord "a.b" .null) "get"
        = .ok ⟨true, some ⟨["a.b"], none, .allow⟩⟩ ∧
      (docRecord "a.b" .null).get? "a.b" = some (.scalar .null) ∧
      masked.get? "a.b" = some (.scalar .null) ∧ ¬ masked.toJson.Sealed (.ofText "a.b") := by
  have outer : Path.ofText "a" = ["a"] := by cbv
  have inner : Path.ofText "a.b" = ["a", "b"] := by cbv
  constructor
  · refine ⟨docRecord "a" (.object [("access", .string "denied"), ("b", accessDenied)]),
      by cbv, checkRecord_docGuard _ _ _, by cbv, ?_⟩
    rintro ⟨front, nonempty, on, h⟩
    obtain ⟨segment, rest, rfl⟩ := List.exists_cons_of_ne_nil nonempty
    rw [outer, List.cons_prefix_cons, List.prefix_nil] at on
    obtain ⟨rfl, rfl⟩ := on
    have left : (docRecord "a" (.object [("access", .string "denied"),
        ("b", accessDenied)])).toJson.getPath? ["a"] =
          some (.object [("access", .string "denied"), ("b", accessDenied)]) := by cbv
    rw [left] at h
    simp [accessDenied] at h
  · refine ⟨docRecord "a.b" .null, by cbv, checkRecord_docGuard _ _ _, by cbv, by cbv, ?_⟩
    rintro ⟨front, nonempty, on, h⟩
    obtain ⟨segment, rest, rfl⟩ := List.exists_cons_of_ne_nil nonempty
    rw [inner, List.cons_prefix_cons] at on
    have absent : (docRecord "a.b" .null).toJson.get? "a" = none := by cbv
    rw [on.1, Json.getPath?_cons, absent] at h
    cases h

end Guard
end AccessControl
