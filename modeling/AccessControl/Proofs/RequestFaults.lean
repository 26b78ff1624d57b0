import AccessControl.Proofs.Masking

/-! Where the faults of a request come from. Checking a record fails just where checking its object
does: a filter that cannot be matched does not hold, and that is all. Masking asks nothing but whether
the records in a record are allowed, so it has no fault that none of these checks has. -/
namespace AccessControl
namespace Guard

variable {guard : Guard} {action : String} {record : Record} {mask : List String}
  {type : ObjectType} {key : String} {slot : Slot Record} {fault : Fault} {p : Fault → Prop}

theorem checkRecord_eq_error_iff : guard.checkRecord record action = .error fault ↔
    guard.check record.type.name action = .error fault := by
  rw [checkRecord, bind_eq_error_iff]
  refine or_iff_left ?_
  rintro ⟨outcome, -, failed⟩
  split at failed
  · split at failed <;> cases failed
  · cases failed

theorem faultsIn_checkRecord_iff (guard : Guard) (record : Record) (action : String) :
    FaultsIn p (guard.checkRecord record action) ↔
      FaultsIn p (guard.check record.type.name action) :=
  forall_congr' fun _ => imp_congr_left checkRecord_eq_error_iff

theorem faultsIn_maskList {records : List Record}
    (below : ∀ inner ∈ records, FaultsIn p (guard.mask action inner)) :
    FaultsIn p (guard.maskList action records) := by
  induction records with
  | nil =>
    rw [maskList]
    exact faultsIn_ok _
  | cons first rest ih =>
    rw [List.forall_mem_cons] at below
    rw [maskList, faultsIn_bind_iff]
    exact ⟨below.1, fun _ _ => faultsIn_bind_pure_iff.2 (ih below.2)⟩

theorem faultsIn_maskField (below : ∀ inner ∈ slot.records, FaultsIn p (guard.mask action inner)) :
    FaultsIn p (guard.maskField action mask type key slot) := by
  by_cases walked : Walked mask type key slot
  · cases slot with
    | scalar value => exact absurd walked (not_walked_scalar value)
    | one inner =>
      rw [maskField_one walked, faultsIn_bind_pure_iff]
      exact below inner (by simp [Slot.records])
    | many records =>
      rw [maskField_many walked, faultsIn_bind_pure_iff]
      exact faultsIn_maskList below
  · rw [maskField_of_not_walked walked]
    exact faultsIn_ok _

theorem faultsIn_maskFields {fields : List (String × Slot Record)}
    (below : ∀ field ∈ fields, ∀ inner ∈ field.2.records, FaultsIn p (guard.mask action inner)) :
    FaultsIn p (guard.maskFields action mask type fields) := by
  induction fields with
  | nil =>
    rw [maskFields]
    exact faultsIn_ok _
  | cons field rest ih =>
    rw [List.forall_mem_cons] at below
    rw [maskFields_cons, faultsIn_bind_iff]
    exact ⟨faultsIn_maskField below.1, fun _ _ => faultsIn_bind_pure_iff.2 (ih below.2)⟩

/-- What a record and the records in it are checked by depends on their types, which redaction
leaves. -/
theorem faultsIn_mask
    (faults : record.Everywhere fun inner => FaultsIn p (guard.check inner.type.name action)) :
    FaultsIn p (guard.mask action record) := by
  induction record using Record.redact_induction with
  | step record ih =>
    rw [mask, faultsIn_bind_iff]
    refine ⟨(faultsIn_checkRecord_iff guard record action).2 faults.here, fun outcome _ => ?_⟩
    have redacted := faults.redact ⟨fun here _ => here, fun here _ => here⟩ outcome.mask
    split
    · rw [faultsIn_bind_pure_iff]
      exact faultsIn_maskFields fun field hf inner hi =>
        ih outcome.mask field.1 field.2 hf inner hi (redacted.nested hf inner hi)
    · exact faultsIn_pure _

/-- The data of a record adds no fault. A record is checked with the faults of its object and no
others; it is masked without fault wherever its object and those of all records in it can be checked;
and any fault of masking it is that of one of these checks. -/
theorem record_adds_no_fault (guard : Guard) (action : String) :
    (∀ record fault, guard.checkRecord record action = .error fault ↔
      guard.check record.type.name action = .error fault) ∧
    ∀ record : Record,
      ((record.Everywhere fun inner => ∃ outcome,
          guard.check inner.type.name action = .ok outcome) →
        ∃ masked, guard.mask action record = .ok masked) ∧
      ∀ fault, guard.mask action record = .error fault →
        ¬ record.Everywhere fun inner => guard.check inner.type.name action ≠ .error fault := by
  refine ⟨fun record fault => checkRecord_eq_error_iff, fun record => ⟨fun checks => ?_, ?_⟩⟩
  · exact faultsIn_false_iff.1
      (faultsIn_mask (checks.mono fun inner checked => faultsIn_false_iff.2 checked))
  · intro fault failed others
    have elsewhere : FaultsIn (· ≠ fault) (guard.mask action record) :=
      faultsIn_mask (others.mono fun inner other found failed same => other (same ▸ failed))
    exact elsewhere fault failed rfl

def ageGuard : Guard where
  attributes := ⟨.null, .null⟩
  rulebook := ⟨[("club", [("get", [⟨[], [], .allow⟩])]),
    ("member", [("get", [⟨[.compare "obj.age" .lt (.number (.integer 30))], [], .allow⟩])])]⟩
  fallback := .deny

def memberRecord (age : Json) : Record := ⟨⟨"member", []⟩, [("age", .scalar age)]⟩

def clubRecord (members : List Record) : Record :=
  ⟨⟨"club", [⟨"members", .array, some "member"⟩]⟩, [("members", .many members)]⟩

theorem record_adds_no_fault_club :
    (ageGuard.checkRecord (memberRecord (.string "old")) "get" =
        .error (.typeMismatch (.operandNotANumber .lt (.string "old"))) ↔
      ageGuard.check "member" "get" =
        .error (.typeMismatch (.operandNotANumber .lt (.string "old")))) ∧
    ((clubRecord [memberRecord (.string "old")]).Everywhere fun inner => ∃ outcome,
      ageGuard.check inner.type.name "get" = .ok outcome) ∧
    ∃ masked, ageGuard.mask "get" (clubRecord [memberRecord (.string "old")]) = .ok masked := by
  have member : (memberRecord (.string "old")).Everywhere fun inner => ∃ outcome,
      ageGuard.check inner.type.name "get" = .ok outcome := by
    refine .intro ⟨_, rfl⟩ fun key slot hm => ?_
    obtain ⟨rfl, rfl⟩ : key = "age" ∧ slot = .scalar (.string "old") := by
      simpa [memberRecord] using hm
    simp [Slot.records]
  have club : (clubRecord [memberRecord (.string "old")]).Everywhere fun inner => ∃ outcome,
      ageGuard.check inner.type.name "get" = .ok outcome := by
    refine .intro ⟨_, rfl⟩ fun key slot hm => ?_
    obtain ⟨rfl, rfl⟩ : key = "members" ∧ slot = .many [memberRecord (.string "old")] := by
      simpa [clubRecord] using hm
    simpa [Slot.records] using member
  have faults := record_adds_no_fault ageGuard "get"
  exact ⟨faults.1 _ _, club, (faults.2 _).1 club⟩

end Guard
end AccessControl
