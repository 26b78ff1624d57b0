import AccessControl.Proofs.Redaction
import AccessControl.Proofs.Projection

/-! Masking twice. Where no filter and no path into a field counts, the masked record is decided as
before, and everything that masking would overwrite already is the marker: a second masking changes
nothing. -/
namespace AccessControl

/-- An outcome that says the same of all records of a type: no filter, and whole fields in the
mask. -/
structure Outcome.Steady (outcome : Outcome) : Prop where
  unfiltered : ∀ decision ∈ outcome.decision, decision.filter = none
  whole : ∀ text ∈ outcome.mask, '.' ∉ text.toList

theorem Slot.foldl_redactPath_of_whole {paths : List Path} (whole : ∀ path ∈ paths, path = [])
    (named : [] ∈ paths) (slot : Slot Record) :
    paths.foldl Slot.redactPath slot = .scalar accessDenied := by
  induction paths generalizing slot with
  | nil => cases named
  | cons path rest ih =>
    rw [List.forall_mem_cons] at whole
    obtain ⟨rfl, later⟩ := whole
    rw [List.foldl_cons]
    cases rest with
    | nil => rfl
    | cons next rest =>
      have again : [] = next := (later next (by simp)).symm
      exact ih later (by simp [again]) _

namespace Record

variable {record : Record} {mask : List String} {key : String}

theorem get?_redact_of_whole (whole : ∀ text ∈ mask, '.' ∉ text.toList) (named : key ∈ mask) :
    (record.redact mask).get? key = (record.get? key).map fun _ => .scalar accessDenied := by
  change ((record.present mask).foldl redactPath record).get? key = _
  rw [get?_foldl_redactPath]
  cases found : record.get? key with
  | none => rfl
  | some slot =>
    have behind : ∀ rest ∈ pathsBehind key (record.present mask), rest = [] := by
      intro rest hr
      obtain ⟨text, ht, split⟩ := List.mem_map.1 (List.mem_filter.1 (mem_pathsBehind_iff.1 hr)).1
      rw [Path.ofText_of_no_dot (whole text ht)] at split
      exact (List.cons.inj split).2.symm
    have present : [key] ∈ record.present mask := by
      refine List.mem_filter.2 ⟨?_, by simp [hasPath, found]⟩
      exact List.mem_map.2 ⟨key, named, Path.ofText_of_no_dot (whole key named)⟩
    rw [Option.map_some, Option.map_some,
      Slot.foldl_redactPath_of_whole behind (mem_pathsBehind_iff.2 present)]

/-- Redaction changes nothing where each field that the mask names is the marker already. -/
theorem redact_eq_self (whole : ∀ text ∈ mask, '.' ∉ text.toList)
    (marked : ∀ key ∈ mask, ∀ slot, record.get? key = some slot → slot = .scalar accessDenied) :
    record.redact mask = record := by
  have still : ∀ path ∈ record.present mask, record.redactPath path = record := by
    intro path hp
    obtain ⟨hm, found⟩ := List.mem_filter.1 hp
    obtain ⟨key, named, rfl⟩ := List.mem_map.1 hm
    rw [Path.ofText_of_no_dot (whole key named)] at found ⊢
    obtain ⟨slot, hs⟩ := Option.isSome_iff_exists.1 found
    obtain rfl := marked key named slot hs
    rw [redactPath, setPath?, if_pos (by simp [hs]), Option.getD_some, insert_of_get? hs]
  change (record.present mask).foldl redactPath record = record
  generalize record.present mask = paths at still
  induction paths with
  | nil => rfl
  | cons path rest ih =>
    rw [List.forall_mem_cons] at still
    rw [List.foldl_cons, still.1, ih still.2]

end Record

namespace Guard

variable {guard : Guard} {action : String} {record masked : Record} {mask : List String}
  {type : ObjectType} {key : String} {slot left : Slot Record}

def Settles (guard : Guard) (action : String) (record : Record) : Prop :=
  ∀ masked, guard.mask action record = .ok (some masked) →
    guard.mask action masked = .ok (some masked)

theorem maskList_settled {records kept : List Record}
    (below : ∀ inner ∈ records, guard.Settles action inner)
    (h : guard.maskList action records = .ok kept) : guard.maskList action kept = .ok kept := by
  induction records generalizing kept with
  | nil =>
    rw [maskList, Except.ok.injEq] at h
    rw [← h, maskList]
  | cons first rest ih =>
    rw [List.forall_mem_cons] at below
    simp only [maskList, bind_eq_ok_iff, pure_eq_ok_iff] at h
    obtain ⟨result, hr, others, ho, rfl⟩ := h
    cases result with
    | none => exact ih below.2 ho
    | some inner =>
      change guard.maskList action (inner :: others) = .ok (inner :: others)
      rw [maskList, below.1 inner hr, ih below.2 ho]
      rfl

/-- The marker is not walked; a record or a list is walked just if the one in its place was. -/
theorem maskField_settled (below : ∀ inner ∈ slot.records, guard.Settles action inner)
    (h : guard.maskField action mask type key slot = .ok left) :
    guard.maskField action mask type key left = .ok left := by
  by_cases walked : Walked mask type key slot
  · cases slot with
    | scalar value => exact absurd walked (not_walked_scalar value)
    | one inner =>
      simp only [maskField_one walked, bind_eq_ok_iff, pure_eq_ok_iff] at h
      obtain ⟨result, hr, rfl⟩ := h
      cases result with
      | none => exact maskField_of_not_walked (not_walked_scalar accessDenied)
      | some kept =>
        have again : guard.mask action kept = .ok (some kept) :=
          below inner (by simp [Slot.records]) kept hr
        change guard.maskField action mask type key (.one kept) = .ok (.one kept)
        rw [maskField_one (walked.one kept), again]
        rfl
    | many records =>
      simp only [maskField_many walked, bind_eq_ok_iff, pure_eq_ok_iff] at h
      obtain ⟨kept, hk, rfl⟩ := h
      rw [maskField_many (walked.many kept), maskList_settled below hk]
      rfl
  · rw [maskField_of_not_walked walked] at h
    obtain rfl := Except.ok.inj h
    exact maskField_of_not_walked walked

theorem maskFields_settled {fields rest : List (String × Slot Record)}
    (below : ∀ field ∈ fields, ∀ inner ∈ field.2.records, guard.Settles action inner)
    (h : guard.maskFields action mask type fields = .ok rest) :
    guard.maskFields action mask type rest = .ok rest := by
  rw [maskFields_eq_ok_iff] at h ⊢
  refine List.forall₂_same.2 fun field hm => ⟨rfl, ?_⟩
  obtain ⟨source, hs, same, masks⟩ := exists_of_mem_right h hm
  rw [← same] at masks
  exact maskField_settled (below source hs) masks

/-- Without filters and paths into fields, masking is idempotent: a masked record masks to itself,
whatever was left out of it, replaced in it or never walked. -/
theorem mask_idempotent (steady : record.Everywhere fun inner =>
      ∀ outcome, guard.check inner.type.name action = .ok outcome → outcome.Steady)
    (h : guard.mask action record = .ok (some masked)) :
    guard.mask action masked = .ok (some masked) := by
  induction record using Record.redact_induction generalizing masked with
  | step record ih =>
    obtain ⟨outcome, fields, decided, allowed, masks, rfl⟩ := mask_eq_some_iff.1 h
    obtain ⟨general, checked, same⟩ := check_mask_of_checkRecord decided
    have whole : ∀ text ∈ outcome.mask, '.' ∉ text.toList :=
      same ▸ (steady.here general checked).whole
    have type : Record.type ⟨record.type, fields⟩ = record.type := rfl
    have again : guard.checkRecord ⟨record.type, fields⟩ action = .ok outcome := by
      refine (checkRecord_congr type fun general checked decision hd filter hf => ?_).trans decided
      rw [(steady.here general checked).unfiltered decision hd] at hf
      cases hf
    have redacted : Record.redact ⟨record.type, fields⟩ outcome.mask = ⟨record.type, fields⟩ := by
      refine Record.redact_eq_self whole fun key named slot found => ?_
      rw [get?_of_named h decided named, Record.get?_redact_of_whole whole named] at found
      obtain ⟨_, -, rfl⟩ := Option.map_eq_some_iff.1 found
      rfl
    -- what is nested in the redacted record settles, since what is steady depends on types alone
    have below := steady.redact ⟨fun here _ => here, fun here _ => here⟩ outcome.mask
    have settled : guard.maskFields action outcome.mask record.type fields = .ok fields :=
      maskFields_settled (fun field hf inner hi _ =>
        ih outcome.mask field.1 field.2 hf inner hi (below.nested hf inner hi)) masks
    exact mask_eq_some_iff.2 ⟨outcome, fields, again, allowed, by rw [redacted]; exact settled, rfl⟩

def deskGuard : Guard where
  attributes := ⟨.null, .null⟩
  rulebook := ⟨[("desk", [("get", [⟨[], ["lock"], .allow⟩])]),
    ("letter", [("get", [⟨[], ["text"], .allow⟩])])]⟩
  fallback := .deny

def letter (text : Json) : Record := ⟨⟨"letter", []⟩, [("text", .scalar text)]⟩

def diary : Record := ⟨⟨"diary", []⟩, []⟩

def deskRecord (lock top : Slot Record) (drawer : List Record) : Record :=
  ⟨⟨"desk", [⟨"top", .object, some "diary"⟩, ⟨"drawer", .array, some "letter"⟩,
      ⟨"back", .object, some "letter"⟩]⟩,
    [("lock", lock), ("top", top), ("drawer", .many drawer), ("back", .many [letter .null])]⟩

theorem steady_deskGuard {resource : String} {outcome : Outcome}
    (checked : deskGuard.check resource "get" = .ok outcome) : outcome.Steady := by
  by_cases desk : resource = "desk"
  · subst desk
    have told : deskGuard.check "desk" "get" = .ok ⟨true, some ⟨["lock"], none, .allow⟩⟩ := by cbv
    obtain rfl := Except.ok.inj (told.symm.trans checked)
    exact ⟨by simp, by decide⟩
  · by_cases letter : resource = "letter"
    · subst letter
      have told : deskGuard.check "letter" "get" = .ok ⟨true, some ⟨["text"], none, .allow⟩⟩ := by
        cbv
      obtain rfl := Except.ok.inj (told.symm.trans checked)
      exact ⟨by simp, by decide⟩
    · have none : deskGuard.rulebook.candidates resource "get" = [] := by
        simp [deskGuard, Rulebook.candidates, searchOrder, Rulebook.get?, Keyed.get?, anyKey,
          Ne.symm desk, Ne.symm letter]
      rw [check, none] at checked
      obtain rfl := Except.ok.inj checked
      exact ⟨by simp, by simp [Outcome.mask]⟩

def fullDesk : Record := deskRecord (.one diary) (.one diary) [diary, letter .null]

def maskedDesk : Record :=
  deskRecord (.scalar accessDenied) (.scalar accessDenied) [letter accessDenied]

/-- The lock and the top give way to the marker, the drawer loses a diary and the text of a letter,
and the letter at the back can still be read: now, and if the desk is masked again. -/
theorem mask_idempotent_desk :
    (fullDesk.Everywhere fun inner =>
      ∀ outcome, deskGuard.check inner.type.name "get" = .ok outcome → outcome.Steady) ∧
    deskGuard.mask "get" fullDesk = .ok (some maskedDesk) ∧
    deskGuard.mask "get" maskedDesk = .ok (some maskedDesk) := by
  have steady : fullDesk.Everywhere fun inner =>
      ∀ outcome, deskGuard.check inner.type.name "get" = .ok outcome → outcome.Steady :=
    .of_forall (fun _ _ => steady_deskGuard) _
  have masks : deskGuard.mask "get" fullDesk = .ok (some maskedDesk) := by cbv
  exact ⟨steady, masks, mask_idempotent steady masks⟩

end Guard
end AccessControl
