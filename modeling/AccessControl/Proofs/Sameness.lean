import AccessControl.Comparison
import AccessControl.Proofs.Fallible
import AccessControl.Proofs.Keyed
import AccessControl.Proofs.Rounding
import Mathlib.Data.List.Perm.Subperm

/-! When values are the same, and how numbers are ordered. At the top numbers are compared by their
view, and inside of lists and objects by their kind too. One relation is behind both, and it is an
equivalence as long as no object has a key twice. Views are ordered as the numbers they stand for. -/
namespace AccessControl

namespace Json

def parts : Json → List Json
  | .array items => items
  | .object members => members.map Prod.snd
  | _ => []

theorem sizeOf_lt_of_mem_parts {value part : Json} (h : part ∈ value.parts) :
    sizeOf part < sizeOf value := by
  cases value with
  | array items =>
    have inner : sizeOf part < sizeOf items := List.sizeOf_lt_of_mem h
    simp only [array.sizeOf_spec]
    omega
  | object members =>
    obtain ⟨⟨key, part⟩, held, rfl⟩ := List.mem_map.1 h
    have inner := List.sizeOf_lt_of_mem held
    simp only [object.sizeOf_spec, Prod.mk.sizeOf_spec] at inner ⊢
    omega
  | null | bool _ | number _ | string _ => cases h

theorem parts_induction {motive : Json → Prop}
    (step : ∀ value, (∀ part ∈ value.parts, motive part) → motive value) (value : Json) :
    motive value :=
  step value fun part _ => parts_induction step part
termination_by sizeOf value
decreasing_by exact sizeOf_lt_of_mem_parts ‹_›

/-- Structural equality: numbers of one kind and one value, lists with equal items, and objects with the
same keys, in whatever order, and equal values under each of them. -/
inductive Equal : Json → Json → Prop where
  | null : Equal null null
  | bool (value : Bool) : Equal (bool value) (bool value)
  | integer (value : Int) (inRange : -0x8000000000000000 ≤ value ∧ value < 0x10000000000000000) :
      Equal (number (.integer value inRange)) (number (.integer value inRange))
  | float {x y : Binary64} (same : x.value = y.value) :
      Equal (number (.float x)) (number (.float y))
  | string (text : String) : Equal (string text) (string text)
  | array {items others : List Json} (each : List.Forall₂ Equal items others) :
      Equal (array items) (array others)
  | object {members others : List (String × Json)}
      (keys : ∀ key, key ∈ Keyed.keys members ↔ key ∈ Keyed.keys others)
      (values : ∀ key value other, Keyed.get? key members = some value →
        Keyed.get? key others = some other → Equal value other) :
      Equal (object members) (object others)

variable {a b c : Json}

theorem mem_parts_of_get? {key : String} {value : Json} {members : List (String × Json)}
    (found : Keyed.get? key members = some value) : value ∈ (object members).parts :=
  List.mem_map.2 ⟨(key, value), Keyed.mem_of_get? found, rfl⟩

theorem Equal.refl (a : Json) : Equal a a := by
  induction a using parts_induction with
  | step a ih =>
    cases a with
    | null => exact .null
    | bool value => exact .bool value
    | number n =>
      cases n with
      | integer value inRange => exact .integer value inRange
      | float x => exact .float rfl
    | string text => exact .string text
    | array items => exact .array (List.forall₂_same.2 ih)
    | object members =>
      refine .object (fun _ => Iff.rfl) fun key value other found found' => ?_
      obtain rfl := Option.some.inj (found.symm.trans found')
      exact ih value (mem_parts_of_get? found)

theorem Equal.symm (h : Equal a b) : Equal b a := by
  induction a using parts_induction generalizing b with
  | step a ih =>
    cases h with
    | null => exact .null
    | bool value => exact .bool value
    | integer value inRange => exact .integer value inRange
    | float same => exact .float same.symm
    | string text => exact .string text
    | array each =>
      exact .array ((forall₂_imp_of_mem (fun item hi other _ => ih item hi) each).flip)
    | object keys values =>
      refine .object (fun key => (keys key).symm) fun key value other found found' => ?_
      exact ih other (mem_parts_of_get? found') (values key other value found' found)

theorem Equal.trans (h : Equal a b) (h' : Equal b c) : Equal a c := by
  induction a using parts_induction generalizing b c with
  | step a ih =>
    cases h with
    | null | bool _ | integer _ _ | string _ => exact h'
    | float same =>
      cases h' with
      | float same' => exact .float (same.trans same')
    | array each =>
      cases h' with
      | array each' =>
        exact .array (forall₂_trans each each' fun item hi _ _ first second => ih item hi first second)
    | object keys values =>
      cases h' with
      | object keys' values' =>
        refine .object (fun key => (keys key).trans (keys' key)) fun key value last found found' => ?_
        obtain ⟨middle, between⟩ :=
          Keyed.mem_keys_iff.1 ((keys key).1 (Keyed.mem_keys_iff.2 ⟨value, found⟩))
        exact ih value (mem_parts_of_get? found) (values key value middle found between)
          (values' key middle last between found')

theorem itemsAlike_iff {items others : List Json} :
    itemsAlike items others = true ↔
      List.Forall₂ (fun item other => item.alike other = true) items others := by
  induction items generalizing others with
  | nil => cases others <;> simp [itemsAlike]
  | cons item rest ih => cases others <;> simp [itemsAlike, ih]

theorem membersAlike_iff {members others : List (String × Json)} :
    membersAlike members others = true ↔ ∀ member ∈ members,
      ∃ other, Keyed.get? member.1 others = some other ∧ member.2.alike other = true := by
  induction members with
  | nil => simp [membersAlike]
  | cons member rest ih =>
    rw [membersAlike, Bool.and_eq_true, ih, List.forall_mem_cons]
    refine and_congr_left fun _ => ?_
    cases Keyed.get? member.1 others <;> simp

theorem WellFormed.of_mem_parts {value part : Json} (wf : value.WellFormed) (h : part ∈ value.parts) :
    part.WellFormed := by
  cases value with
  | array items => exact wellFormedItems_iff.1 wf part h
  | object members =>
    obtain ⟨member, hm, rfl⟩ := List.mem_map.1 h
    exact wellFormedMembers_iff.1 wf.2 member hm
  | null | bool _ | number _ | string _ => cases h

theorem WellFormed.distinct {members : List (String × Json)} (wf : (object members).WellFormed) :
    (Keyed.keys members).Nodup := wf.1

/-- Comparing values part by part decides structural equality, where no object has a key twice. -/
theorem equal_of_alike (ha : a.WellFormed) (hb : b.WellFormed) (same : a.alike b = true) : a.Equal b := by
  induction a using parts_induction generalizing b with
  | step a ih =>
    cases a with
    | null =>
      cases b with
      | null => exact .null
      | _ => cases same
    | bool value =>
      cases b with
      | bool other =>
        obtain rfl : value = other := by simpa [alike] using same
        exact .bool value
      | _ => cases same
    | number n =>
      cases b with
      | number m =>
        rw [alike] at same
        cases n with
        | integer value inRange =>
          cases m with
          | integer other _ =>
            obtain rfl : value = other := by simpa [Number.alike] using same
            exact .integer value inRange
          | float y => cases same
        | float x =>
          cases m with
          | integer other _ => cases same
          | float y =>
            have keys : x.key = y.key := by simpa [Number.alike] using same
            exact .float (Binary64.key_eq_key_iff_value.1 keys)
      | _ => cases same
    | string text =>
      cases b with
      | string other =>
        obtain rfl : text = other := by simpa [alike] using same
        exact .string text
      | _ => cases same
    | array items =>
      cases b with
      | array others =>
        rw [alike, itemsAlike_iff] at same
        exact .array (forall₂_imp_of_mem (fun item hi other ho =>
          ih item hi (ha.of_mem_parts hi) (hb.of_mem_parts ho)) same)
      | _ => cases same
    | object members =>
      cases b with
      | object others =>
        rw [alike, Bool.and_eq_true, beq_iff_eq, membersAlike_iff] at same
        obtain ⟨length, each⟩ := same
        have included : Keyed.keys members ⊆ Keyed.keys others := by
          intro key hk
          obtain ⟨member, hm, rfl⟩ := List.mem_map.1 hk
          obtain ⟨other, found, -⟩ := each member hm
          exact Keyed.mem_keys_iff.2 ⟨other, found⟩
        have keys : (Keyed.keys members).Perm (Keyed.keys others) :=
          (List.subperm_of_subset ha.distinct included).perm_of_length_le (by simp [Keyed.keys, length])
        refine .object (fun key => keys.mem_iff) fun key value other found found' => ?_
        obtain ⟨also, there, same⟩ := each (key, value) (Keyed.mem_of_get? found)
        obtain rfl := Option.some.inj (found'.symm.trans there)
        have hv := mem_parts_of_get? found
        exact ih value hv (ha.of_mem_parts hv) (hb.of_mem_parts (mem_parts_of_get? found')) same
      | _ => cases same

theorem alike_of_equal (ha : a.WellFormed) (hb : b.WellFormed) (same : a.Equal b) : a.alike b = true := by
  induction a using parts_induction generalizing b with
  | step a ih =>
    cases same with
    | null => rfl
    | bool value | integer value _ | string value => simp [alike, Number.alike]
    | float same => simpa [alike, Number.alike] using Binary64.key_eq_key_iff_value.2 same
    | array each =>
      rw [alike, itemsAlike_iff]
      exact forall₂_imp_of_mem (fun item hi other ho =>
        ih item hi (ha.of_mem_parts hi) (hb.of_mem_parts ho)) each
    | @object members others keys values =>
      have perm : (Keyed.keys members).Perm (Keyed.keys others) :=
        (List.perm_ext_iff_of_nodup ha.distinct hb.distinct).2 keys
      rw [alike, Bool.and_eq_true, beq_iff_eq, membersAlike_iff]
      refine ⟨by simpa [Keyed.keys] using perm.length_eq, fun ⟨key, value⟩ hm => ?_⟩
      have found := Keyed.get?_of_mem ha.distinct hm
      obtain ⟨other, there⟩ := Keyed.mem_keys_iff.1 ((keys key).1 (Keyed.mem_keys_iff.2 ⟨value, found⟩))
      have hv := mem_parts_of_get? found
      exact ⟨other, there, ih value hv (ha.of_mem_parts hv) (hb.of_mem_parts (mem_parts_of_get? there))
        (values key value other found there)⟩

theorem alike_iff_equal (ha : a.WellFormed) (hb : b.WellFormed) : a.alike b = true ↔ a.Equal b :=
  ⟨equal_of_alike ha hb, alike_of_equal ha hb⟩

/-- What counts as the same: values of one structure, and at the top also numbers of one value, whatever
their kinds. -/
inductive Same : Json → Json → Prop where
  | equal {a b : Json} (h : Equal a b) : Same a b
  | numbers {m n : Number} (h : m.view.value = n.view.value) : Same (number m) (number n)

theorem Equal.exists_number {n : Number} (h : Equal a (number n)) :
    ∃ m, a = number m ∧ m.view.value = n.view.value := by
  cases h with
  | integer => exact ⟨_, rfl, rfl⟩
  | float same => exact ⟨_, rfl, same⟩

theorem same_number_iff {m n : Number} : Same (number m) (number n) ↔ m.view.value = n.view.value := by
  refine ⟨fun h => ?_, .numbers⟩
  cases h with
  | equal h =>
    obtain ⟨_, found, same⟩ := h.exists_number
    exact number.inj found ▸ same
  | numbers h => exact h

theorem Same.refl (a : Json) : Same a a := .equal (.refl a)

theorem Same.symm (h : Same a b) : Same b a := by
  cases h with
  | equal h => exact .equal h.symm
  | numbers h => exact .numbers h.symm

theorem Same.trans (h : Same a b) (h' : Same b c) : Same a c := by
  cases h with
  | equal h =>
    cases h' with
    | equal h' => exact .equal (h.trans h')
    | numbers h' =>
      obtain ⟨m, rfl, value⟩ := h.exists_number
      exact .numbers (value.trans h')
  | numbers h =>
    cases h' with
    | equal h' =>
      obtain ⟨m, rfl, value⟩ := h'.symm.exists_number
      exact .numbers (h.trans value.symm)
    | numbers h' => exact .numbers (h.trans h')

theorem sameValue_iff_same (ha : a.WellFormed) (hb : b.WellFormed) :
    a.sameValue b = true ↔ a.Same b := by
  have plain (h : a.number? = none ∨ b.number? = none) : a.sameValue b = true ↔ a.Same b := by
    rw [sameValue_eq_alike h, alike_iff_equal ha hb]
    refine ⟨.equal, fun same => ?_⟩
    cases same with
    | equal same => exact same
    | numbers _ => simp [number?] at h
  cases a with
  | number m =>
    cases b with
    | number n =>
      rw [sameValue_number, beq_iff_eq, Binary64.key_eq_key_iff_value, same_number_iff]
    | _ => exact plain (.inr rfl)
  | _ => exact plain (.inl rfl)

theorem sameValue_equivalence :
    Equivalence fun a b : { value : Json // value.WellFormed } => a.1.sameValue b.1 = true where
  refl a := (sameValue_iff_same a.2 a.2).2 (.refl a.1)
  symm {a b} h := (sameValue_iff_same b.2 a.2).2 ((sameValue_iff_same a.2 b.2).1 h).symm
  trans {a b c} h h' := (sameValue_iff_same a.2 c.2).2
    (((sameValue_iff_same a.2 b.2).1 h).trans ((sameValue_iff_same b.2 c.2).1 h'))

theorem contains_eq_true_iff {list x : Json} (hl : list.WellFormed) (hx : x.WellFormed) :
    contains list x = .ok true ↔ ∃ items, list = .array items ∧ ∃ item ∈ items, item.Same x := by
  cases list with
  | array items =>
    have each (item : Json) (hi : item ∈ items) : item.sameValue x = true ↔ item.Same x :=
      sameValue_iff_same (hl.of_mem_parts hi) hx
    simp only [contains, Except.ok.injEq, List.any_eq_true, array.injEq, exists_eq_left']
    exact exists_congr fun item => and_congr_right (each item)
  | null | bool _ | number _ | string _ | object _ => simp [contains]

/-- Values that are the same are in the same lists, and what is no list is refused for both. -/
theorem contains_congr {list x y : Json} (hl : list.WellFormed) (hx : x.WellFormed) (hy : y.WellFormed)
    (same : x.sameValue y = true) : contains list x = contains list y := by
  cases list with
  | array items =>
    have agree : contains (.array items) x = .ok true ↔ contains (.array items) y = .ok true := by
      rw [sameValue_iff_same hx hy] at same
      rw [contains_eq_true_iff hl hx, contains_eq_true_iff hl hy]
      exact exists_congr fun _ => and_congr_right fun _ => exists_congr fun _ => and_congr_right fun _ =>
        ⟨fun h => h.trans same, fun h => h.trans same.symm⟩
    rw [contains, contains, Except.ok.injEq, Except.ok.injEq, ← Bool.eq_iff_iff] at agree
    rw [contains, contains, agree]
  | _ => rfl

theorem apply_lt_number (m n : Number) : Operator.lt.apply (number m) (number n) =
    .ok (decide (m.view.value < n.view.value)) := by
  simp only [Operator.apply, compareNumbers, number?, Binary64.key_lt_key_iff]

theorem apply_gt_number (m n : Number) : Operator.gt.apply (number m) (number n) =
    .ok (decide (n.view.value < m.view.value)) := by
  simp only [Operator.apply, compareNumbers, number?, Binary64.key_lt_key_iff]

theorem apply_lt_iff {m n : Number} : Operator.lt.apply (number m) (number n) = .ok true ↔
    m.view.value < n.view.value := by
  rw [apply_lt_number, Except.ok.injEq, decide_eq_true_iff]

theorem sameValue_number_eq (m n : Number) : sameValue (number m) (number n) =
    decide (m.view.value = n.view.value) := by
  rw [sameValue_number, Bool.eq_iff_iff, beq_iff_eq, Binary64.key_eq_key_iff_value, decide_eq_true_iff]

/-- Being the same is an equivalence of values: it is structural equality, but that at the top numbers
are compared by their views. A list contains a value just if some item is the same. Of two numbers one is
the lesser or they are the same, as their views are, which for integers are the nearest binary64
numbers. -/
theorem comparison_coherent :
    (Equivalence fun a b : { value : Json // value.WellFormed } => a.1.sameValue b.1 = true) ∧
    (∀ a b : Json, a.WellFormed → b.WellFormed → (a.sameValue b = true ↔ a.Same b)) ∧
    (∀ list x : Json, list.WellFormed → x.WellFormed → (contains list x = .ok true ↔
      ∃ items, list = .array items ∧ ∃ item ∈ items, item.Same x)) ∧
    (∀ list x y : Json, list.WellFormed → x.WellFormed → y.WellFormed →
      x.sameValue y = true → contains list x = contains list y) ∧
    (∀ m n : Number, ∃ less more,
      Operator.lt.apply (number m) (number n) = .ok less ∧
      Operator.gt.apply (number m) (number n) = .ok more ∧
      [less, more, sameValue (number m) (number n)].count true = 1 ∧
      (less = true ↔ m.view.value < n.view.value)) ∧
    (∀ m n : Number,
      Operator.lt.apply (number m) (number n) = Operator.gt.apply (number n) (number m)) ∧
    (∀ m n p : Number, Operator.lt.apply (number m) (number n) = .ok true →
      Operator.lt.apply (number n) (number p) = .ok true →
      Operator.lt.apply (number m) (number p) = .ok true) ∧
    ∀ value inRange, (Number.integer value inRange).view.Nearest value := by
  refine ⟨sameValue_equivalence, fun _ _ => sameValue_iff_same, fun _ _ => contains_eq_true_iff,
    fun _ _ _ => contains_congr,
    fun m n => ⟨_, _, apply_lt_number m n, apply_gt_number m n, ?_, decide_eq_true_iff⟩,
    fun m n => ?_, fun m n p => ?_, fun value inRange => ?_⟩
  · rw [sameValue_number_eq]
    rcases Int.lt_trichotomy m.view.value n.view.value with less | same | more
    · simp [less, less.ne, less.le]
    · simp [same]
    · simp [more, more.ne', more.le]
  · rw [apply_lt_number, apply_gt_number]
  · simp only [apply_lt_iff]
    exact Int.lt_trans
  · exact Binary64.nearest_ofInt (by omega)

def ledger (negative : Bool) : Json :=
  let members := [("closed", bool true), ("balance", array [number (.float (.zero negative))])]
  object (if negative then members.reverse else members)

theorem wellFormed_ledger (negative : Bool) : (ledger negative).WellFormed := by
  cases negative <;> simp [ledger, WellFormed, WellFormedItems, WellFormedMembers, Keyed.keys]

/-- The last integer before the first that has no view of its own. -/
def lastExact : Number := .integer 0x20000000000000

def firstInexact : Number := .integer 0x20000000000001

def aboveBoth : Number := .integer 0x20000000000004

def largest : Number := .integer 0xffffffffffffffff

theorem comparison_coherent_rounded :
    (ledger false).WellFormed ∧ (ledger true).WellFormed ∧
    (ledger false).sameValue (ledger true) = true ∧ (ledger false).Same (ledger true) ∧
    (array [number lastExact]).WellFormed ∧ (number firstInexact).WellFormed ∧
    (number lastExact).WellFormed ∧ (number firstInexact).sameValue (number lastExact) = true ∧
    contains (array [number lastExact]) (number firstInexact) =
      contains (array [number lastExact]) (number lastExact) ∧
    Operator.lt.apply (number lastExact) (number aboveBoth) = .ok true ∧
    Operator.lt.apply (number aboveBoth) (number largest) = .ok true ∧
    Operator.lt.apply (number lastExact) (number largest) = .ok true := by
  obtain ⟨-, decides, -, members, -, -, chain, -⟩ := comparison_coherent
  have ledgers : (ledger false).sameValue (ledger true) = true := by decide
  have list : (array [number lastExact]).WellFormed := ⟨trivial, trivial⟩
  have rounded : (number firstInexact).sameValue (number lastExact) = true := by decide +kernel
  have first : Operator.lt.apply (number lastExact) (number aboveBoth) = .ok true :=
    apply_lt_iff.2 (by decide +kernel)
  have second : Operator.lt.apply (number aboveBoth) (number largest) = .ok true :=
    apply_lt_iff.2 (by decide +kernel)
  exact ⟨wellFormed_ledger _, wellFormed_ledger _, ledgers,
    (decides _ _ (wellFormed_ledger false) (wellFormed_ledger true)).1 ledgers, list, trivial, trivial,
    rounded, members _ _ _ list trivial trivial rounded, first, second, chain _ _ _ first second⟩

end Json
end AccessControl
