import AccessControl.Proofs.LinkVerdict
import AccessControl.Proofs.LinkedRecords
import AccessControl.Proofs.Redaction

/-! What masking leaves alone. A mask changes plain fields only where one of its paths starts, and it
takes no record out of a list and puts none anywhere: a link that it does not name keeps a record or
gets the marker, a list keeps records of its own in their order. The same holds of every record that
is masked behind a link, for the paths of its own mask and those that its owners have for it. -/
namespace AccessControl

theorem Path.eq_of_ofText_singleton {text key : String} (h : ofText text = [key]) : text = key := by
  cases cut : cut? text with
  | none =>
    rw [ofText_of_cut?_eq_none cut] at h
    exact (List.cons.inj h).1
  | some parts =>
    obtain ⟨head, rest⟩ := parts
    rw [ofText_of_cut?_eq_some cut] at h
    exact absurd (List.cons.inj h).2 (ofText_ne_nil rest)

def Within (mask : List String) (paths : List Path) : Prop :=
  ∀ path ∈ paths, ∃ text ∈ mask, Path.ofText text = path

namespace Within

variable {mask other : List String} {paths rest : List Path} {key : String}

theorem nil (mask : List String) : Within mask [] := by
  simp [Within]

theorem append (within : Within mask paths) (also : Within other rest) :
    Within (mask ++ other) (paths ++ rest) := by
  intro path hp
  rcases List.mem_append.1 hp with hp | hp
  · obtain ⟨text, ht, split⟩ := within path hp
    exact ⟨text, List.mem_append_left _ ht, split⟩
  · obtain ⟨text, ht, split⟩ := also path hp
    exact ⟨text, List.mem_append_right _ ht, split⟩

theorem present (record : Record) (mask : List String) : Within mask (record.present mask) :=
  fun _ hp => List.mem_map.1 (List.mem_filter.1 hp).1

theorem behind_eq_nil (within : Within mask paths)
    (off : ∀ text ∈ mask, (Path.ofText text).head? ≠ some key) : pathsBehind key paths = [] := by
  refine List.eq_nil_iff_forall_not_mem.2 fun rest hr => ?_
  obtain ⟨text, ht, split⟩ := within _ (mem_pathsBehind_iff.1 hr)
  exact off text ht (by rw [split]; rfl)

theorem nil_not_mem_behind (within : Within mask paths) (unnamed : key ∉ mask) :
    [] ∉ pathsBehind key paths := by
  intro hr
  obtain ⟨text, ht, split⟩ := within _ (mem_pathsBehind_iff.1 hr)
  exact unnamed (Path.eq_of_ofText_singleton split ▸ ht)

theorem behind (within : Within mask paths) (deeper : [] ∉ pathsBehind key paths) :
    Within (maskBelow key mask) (pathsBehind key paths) := by
  intro rest hr
  have nonempty : rest ≠ [] := ne_of_mem_of_not_mem hr deeper
  obtain ⟨text, ht, split⟩ := within _ (mem_pathsBehind_iff.1 hr)
  cases cut : Path.cut? text with
  | none =>
    rw [Path.ofText_of_cut?_eq_none cut] at split
    exact absurd (List.cons.inj split).2.symm nonempty
  | some parts =>
    obtain ⟨head, below⟩ := parts
    rw [Path.ofText_of_cut?_eq_some cut] at split
    obtain ⟨rfl, rfl⟩ := List.cons.inj split
    exact ⟨below, List.mem_filterMap.2 ⟨text, ht, by simp [cut]⟩, rfl⟩

end Within

namespace Guard

/-- What masking keeps of a record. `outer` is what the masks of its owners say behind the links that
lead to the record; together with the mask of the decision on the record these are the paths that may
show in it. Where a linked record is masked itself it is kept in the same way, for the paths that lead
through the link, and so are the items of a list, for no paths but their own. A path has no dots in its
keys, so none leads through a link with a dot in its name. -/
inductive Kept (guard : Guard) (action : String) : List String → Record → Record → Prop where
  | intro {outer : List String} {record masked : Record} {outcome : Outcome}
    (decided : guard.check record.type.name action = .ok outcome)
    (type : masked.type = record.type)
    (keys : Keyed.keys masked.fields = Keyed.keys record.fields)
    (plain : ∀ key value, record.get? key = some (.scalar value) →
      (∀ text ∈ outer ++ outcome.mask, (Path.ofText text).head? ≠ some key) →
        masked.get? key = some (.scalar value))
    (link : ∀ key inner, record.get? key = some (.one inner) → key ∉ outer ++ outcome.mask →
      masked.get? key = some (.scalar accessDenied) ∨ ∃ left, masked.get? key = some (.one left))
    (list : ∀ key records, record.get? key = some (.many records) → key ∉ outer ++ outcome.mask →
      ∃ left, masked.get? key = some (.many left))
    (linked : ∀ key inner left, record.get? key = some (.one inner) →
      masked.get? key = some (.one left) → Walked outcome.mask record.type key (.one inner) →
        Kept guard action (maskBelow key (outer ++ outcome.mask)) inner left)
    (listed : ∀ key records left, record.get? key = some (.many records) →
      masked.get? key = some (.many left) → Walked outcome.mask record.type key (.many records) →
        List.SublistForall₂ (fun left inner => Kept guard action [] inner left) left records)
    (still : ∀ key records left, record.get? key = some (.many records) →
      masked.get? key = some (.many left) → ¬ Walked outcome.mask record.type key (.many records) →
        left = records) :
    Kept guard action outer record masked

variable {guard : Guard} {action : String} {record masked : Record} {outer mask : List String}
  {paths : List Path} {type : ObjectType} {key : String}

theorem marker_or_one_of_maskField {inner : Record} {left : Slot Record}
    (h : guard.maskField action mask type key (.one inner) = .ok left) :
    left = .scalar accessDenied ∨ ∃ kept, left = .one kept := by
  by_cases walked : Walked mask type key (.one inner)
  · simp only [maskField_one walked, bind_eq_ok_iff, pure_eq_ok_iff] at h
    obtain ⟨result, -, rfl⟩ := h
    cases result with
    | none => exact .inl rfl
    | some kept => exact .inr ⟨kept, rfl⟩
  · rw [maskField_of_not_walked walked] at h
    exact .inr ⟨inner, (Except.ok.inj h).symm⟩

theorem mask_of_maskField {inner kept : Record} (walked : Walked mask type key (.one inner))
    (h : guard.maskField action mask type key (.one inner) = .ok (.one kept)) :
    guard.mask action inner = .ok (some kept) := by
  simp only [maskField_one walked, bind_eq_ok_iff, pure_eq_ok_iff] at h
  obtain ⟨result, hr, he⟩ := h
  cases result with
  | none => cases he
  | some left =>
    obtain rfl : left = kept := Slot.one.inj he
    exact hr

/-- Where a list of records stood, masking leaves such a list: all of it, or what is left of its
records if they are walked. -/
theorem many_of_maskField_many {records : List Record} {left : Slot Record}
    (h : guard.maskField action mask type key (.many records) = .ok left) :
    ∃ kept, left = .many kept ∧
      (Walked mask type key (.many records) → guard.maskList action records = .ok kept) ∧
      (¬ Walked mask type key (.many records) → kept = records) := by
  by_cases walked : Walked mask type key (.many records)
  · simp only [maskField_many walked, bind_eq_ok_iff, pure_eq_ok_iff] at h
    obtain ⟨kept, hk, rfl⟩ := h
    exact ⟨kept, rfl, fun _ => hk, fun still => absurd walked still⟩
  · rw [maskField_of_not_walked walked] at h
    exact ⟨records, (Except.ok.inj h).symm, fun again => absurd again walked, fun _ => rfl⟩

theorem sublistForall₂_of_maskList {r : Record → Record → Prop} {records left : List Record}
    (below : ∀ inner ∈ records, ∀ kept, guard.mask action inner = .ok (some kept) → r kept inner)
    (h : guard.maskList action records = .ok left) : List.SublistForall₂ r left records := by
  induction records generalizing left with
  | nil =>
    rw [maskList, Except.ok.injEq] at h
    subst h
    exact .nil
  | cons first rest ih =>
    rw [List.forall_mem_cons] at below
    simp only [maskList, bind_eq_ok_iff, pure_eq_ok_iff] at h
    obtain ⟨result, hr, others, ho, rfl⟩ := h
    cases result with
    | none => exact .cons_right (ih below.2 ho)
    | some kept => exact .cons (below.1 kept hr) (ih below.2 ho)

section

variable {fields : List (String × Slot Record)}
  (masks : guard.maskFields action mask record.type (paths.foldl Record.redactPath record).fields
    = .ok fields)

include masks

/-- A field of a masked record is what masking makes of it once the paths behind its key are
redacted. -/
theorem exists_masked_slot {slot : Slot Record} (found : record.get? key = some slot) :
    ∃ left, Keyed.get? key fields = some left ∧
      guard.maskField action mask record.type key
        ((pathsBehind key paths).foldl Slot.redactPath slot) = .ok left := by
  have rel := get?_maskFields masks key
  have before := Record.get?_foldl_redactPath record paths key
  rw [found, Option.map_some] at before
  rw [show Keyed.get? key (paths.foldl Record.redactPath record).fields = _ from before] at rel
  generalize Keyed.get? key fields = after at rel
  cases rel with
  | some masks => exact ⟨_, rfl, masks⟩

theorem masked_slot_of_linked {slot left : Slot Record} (found : record.get? key = some slot)
    (after : Keyed.get? key fields = some left) (linked : ∀ value, left ≠ .scalar value) :
    [] ∉ pathsBehind key paths ∧ guard.maskField action mask record.type key
      ((pathsBehind key paths).foldl Slot.redactPath slot) = .ok left := by
  obtain ⟨other, again, masks⟩ := exists_masked_slot masks found
  obtain rfl := Option.some.inj (again.symm.trans after)
  refine ⟨fun overwritten => ?_, masks⟩
  obtain ⟨value, plain⟩ := slot.foldl_redactPath_of_mem overwritten
  rw [plain, maskField_of_not_walked (not_walked_scalar value)] at masks
  exact linked value (Except.ok.inj masks).symm

variable {whole : List String} (within : Within whole paths)

include within

theorem masked_plain {value : Json} (found : record.get? key = some (.scalar value))
    (off : ∀ text ∈ whole, (Path.ofText text).head? ≠ some key) :
    Keyed.get? key fields = some (.scalar value) := by
  obtain ⟨left, after, masks⟩ := exists_masked_slot masks found
  rw [within.behind_eq_nil off, List.foldl_nil,
    maskField_of_not_walked (not_walked_scalar value)] at masks
  exact Except.ok.inj masks ▸ after

theorem masked_link {inner : Record} (found : record.get? key = some (.one inner))
    (unnamed : key ∉ whole) : Keyed.get? key fields = some (.scalar accessDenied) ∨
      ∃ left, Keyed.get? key fields = some (.one left) := by
  obtain ⟨left, after, masks⟩ := exists_masked_slot masks found
  rw [Slot.foldl_redactPath_one (within.nil_not_mem_behind unnamed)] at masks
  rcases marker_or_one_of_maskField masks with rfl | ⟨kept, rfl⟩
  · exact .inl after
  · exact .inr ⟨kept, after⟩

theorem masked_list {records : List Record} (found : record.get? key = some (.many records))
    (unnamed : key ∉ whole) : ∃ left, Keyed.get? key fields = some (.many left) := by
  obtain ⟨left, after, masks⟩ := exists_masked_slot masks found
  rw [Slot.foldl_redactPath_many (within.nil_not_mem_behind unnamed)] at masks
  obtain ⟨kept, rfl, -, -⟩ := many_of_maskField_many masks
  exact ⟨kept, after⟩

end

theorem kept_of_mask (within : Within outer paths)
    (h : guard.mask action (paths.foldl Record.redactPath record) = .ok (some masked)) :
    Kept guard action outer record masked := by
  generalize before : paths.foldl Record.redactPath record = redacted at h
  induction redacted using Record.redact_induction generalizing record masked outer paths with
  | step redacted ih =>
    obtain ⟨outcome, fields, decided, -, masks, rfl⟩ := mask_eq_some_iff.1 h
    obtain ⟨general, checked, same⟩ := check_mask_of_checkRecord decided
    have type : redacted.type = record.type := by rw [← before, Record.foldl_redactPath_type]
    rw [type] at checked masks ⊢
    -- the redaction for the record's own mask goes on where that for its owners' masks has stopped
    obtain ⟨all, hall⟩ : ∃ all, all = paths ++ redacted.present general.mask := ⟨_, rfl⟩
    have whole : redacted.redact general.mask = all.foldl Record.redactPath record := by
      rw [hall, List.foldl_append, before]
      rfl
    have within : Within (outer ++ general.mask) all := hall ▸ within.append (.present _ _)
    have stands {key : String} {slot : Slot Record} (found : record.get? key = some slot) :
        (key, (pathsBehind key all).foldl Slot.redactPath slot) ∈
          (redacted.redact general.mask).fields := by
      refine Keyed.mem_of_get? ?_
      rw [whole]
      exact (Record.get?_foldl_redactPath record all key).trans (by rw [found]; rfl)
    rw [← same, whole] at masks
    refine .intro checked rfl ?keys ?plain ?link ?list ?linked ?listed ?still
    case keys => rw [keys_maskFields masks, Record.keys_foldl_redactPath]
    case plain => exact fun key value => masked_plain masks within
    case link => exact fun key inner => masked_link masks within
    case list => exact fun key records => masked_list masks within
    case linked =>
      intro key inner left found after walked
      obtain ⟨deeper, masks⟩ := masked_slot_of_linked masks found after (by simp)
      have field := stands found
      rw [Slot.foldl_redactPath_one deeper] at masks field
      exact ih general.mask key _ field _ (by simp [Slot.records]) (within.behind deeper) rfl
        (mask_of_maskField (walked.one _) masks)
    case listed =>
      intro key records left found after walked
      obtain ⟨deeper, masks⟩ := masked_slot_of_linked masks found after (by simp)
      have field := stands found
      rw [Slot.foldl_redactPath_many deeper] at masks field
      obtain ⟨kept, same, list, -⟩ := many_of_maskField_many masks
      obtain rfl := Slot.many.inj same
      exact sublistForall₂_of_maskList (fun inner hi kept hk =>
        ih general.mask key _ field inner hi (.nil []) rfl hk) (list walked)
    case still =>
      intro key records left found after still
      obtain ⟨deeper, masks⟩ := masked_slot_of_linked masks found after (by simp)
      rw [Slot.foldl_redactPath_many deeper] at masks
      obtain ⟨kept, same, -, unwalked⟩ := many_of_maskField_many masks
      obtain rfl := Slot.many.inj same
      exact unwalked still

/-- Masking changes only what it may: what is left of a record is kept from it in the sense of the
mask of the decision on it, and so on through the links. -/
theorem masked_kept (h : guard.mask action record = .ok (some masked)) :
    Kept guard action [] record masked :=
  kept_of_mask (.nil []) h

/-- The mail of an owner is hidden with the task; one member of the team is left out, and the pay of
the other is hidden by the rule on members. -/
theorem masked_kept_guest :
    (ownerGuard "owner.mail" .allow .deny).mask "get" guestTask =
      .ok (some (taskRecord (.one (ownerRecord (.string "guest") accessDenied)))) ∧
    Kept (ownerGuard "owner.mail" .allow .deny) "get" [] guestTask
      (taskRecord (.one (ownerRecord (.string "guest") accessDenied))) ∧
    personGuard.mask "get" teamRecord = .ok (some maskedTeam) ∧
    Kept personGuard "get" [] teamRecord maskedTeam := by
  have owner : (ownerGuard "owner.mail" .allow .deny).mask "get"
      (ownerRecord (.string "guest") accessDenied) =
        .ok (some (ownerRecord (.string "guest") accessDenied)) := by cbv
  have masks := mask_guestTask (by decide) (by cbv) owner
  exact ⟨masks, masked_kept masks, mask_teamRecord, masked_kept mask_teamRecord⟩

end Guard
end AccessControl
