import AccessControl.Proofs.Lift
import AccessControl.Proofs.Masking

/-! Records as they can be made: from nothing or by lifting plain data, and from there by setting fields,
overwriting paths and masking. None of this puts a field into a record twice, at any depth. -/
namespace AccessControl

namespace Guard

variable {guard : Guard} {action : String} {record masked : Record} {mask : List String}
  {type : ObjectType} {key : String} {slot slot' : Slot Record}

theorem source_of_maskField (h : guard.maskField action mask type key slot = .ok slot')
    {kept : Record} (hk : kept ∈ slot'.records) :
    kept ∈ slot.records ∨ ∃ inner ∈ slot.records, guard.mask action inner = .ok (some kept) := by
  by_cases walked : Walked mask type key slot
  · cases slot with
    | scalar value => exact absurd walked (not_walked_scalar value)
    | one inner =>
      simp only [maskField_one walked, bind_eq_ok_iff, pure_eq_ok_iff] at h
      obtain ⟨result, masks, rfl⟩ := h
      cases result with
      | none => cases hk
      | some left =>
        obtain rfl : kept = left := List.mem_singleton.1 hk
        exact .inr ⟨inner, List.mem_singleton_self inner, masks⟩
    | many records =>
      simp only [maskField_many walked, bind_eq_ok_iff, pure_eq_ok_iff] at h
      obtain ⟨left, masks, rfl⟩ := h
      obtain ⟨results, each, rfl⟩ := maskList_eq_ok_iff.1 masks
      exact .inr (exists_of_mem_mapM each (List.reduceOption_mem_iff.1 hk))
  · rw [maskField_of_not_walked walked] at h
    exact .inl (Except.ok.inj h ▸ hk)

theorem distinct_of_mask (distinct : record.Everywhere Record.Distinct)
    (h : guard.mask action record = .ok (some masked)) : masked.Everywhere Record.Distinct := by
  induction record using Record.redact_induction generalizing masked with
  | step record ih =>
    obtain ⟨outcome, fields, -, -, masks, rfl⟩ := mask_eq_some_iff.1 h
    have redacted := distinct.redact Record.Distinct.stable outcome.mask
    refine .intro ?_ fun key slot' hm kept hk => ?_
    · rw [Record.Distinct, keys_maskFields masks]
      exact redacted.here
    · obtain ⟨⟨key, slot⟩, hs, rfl, masks⟩ := exists_of_mem_right (maskFields_eq_ok_iff.1 masks) hm
      rcases source_of_maskField masks hk with same | ⟨inner, hi, masks⟩
      · exact redacted.nested hs kept same
      · exact ih outcome.mask key slot hs inner hi (redacted.nested hs inner hi) masks

end Guard

namespace Record

/-- Records that can be made. A field that is changed in place is set anew, and nested records can be
taken out. -/
inductive Made : Record → Prop where
  | empty (type : ObjectType) : Made (.empty type)
  | lifted {schema : Schema} {name : String} {value : Json} {record : Record}
      (h : schema.record name value = .ok record) : Made record
  | insert {record : Record} {slot : Slot Record} (key : String) (made : Made record)
      (nested : ∀ inner ∈ slot.records, Made inner) : Made (record.insert key slot)
  | overwritten {record updated : Record} {path : Path} {new : Json} (made : Made record)
      (h : record.setPath? path new = some updated) : Made updated
  | masked {guard : Guard} {action : String} {record left : Record} (made : Made record)
      (h : guard.mask action record = .ok (some left)) : Made left
  | nested {record inner : Record} {key : String} {slot : Slot Record} (made : Made record)
      (hs : record.get? key = some slot) (hi : inner ∈ slot.records) : Made inner

theorem Made.distinct {record : Record} (made : record.Made) : record.Everywhere Distinct := by
  induction made with
  | empty type => exact .intro List.nodup_nil nofun
  | lifted h => exact (Schema.record_regular h).mono fun _ regular => regular.distinct
  | insert key _ _ ih nested => exact ih.insert (ih.here.insert _) nested
  | overwritten _ h ih => exact ih.setPath? Distinct.stable h
  | masked _ h ih => exact Guard.distinct_of_mask ih h
  | nested _ hs hi ih => exact ih.get? hs _ hi

end Record
end AccessControl
