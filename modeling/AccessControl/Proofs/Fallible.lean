import Mathlib.Data.List.Forall2

/-! Computations that may fail: what a run that succeeded went through, with which faults a run can
fail, and two runs side by side. -/
namespace AccessControl

variable {ε α β γ δ : Type}

@[simp] theorem bind_eq_ok_iff {x : Except ε α} {f : α → Except ε β} {b : β} :
    x >>= f = .ok b ↔ ∃ a, x = .ok a ∧ f a = .ok b := by
  cases x <;> simp [bind, Except.bind]

theorem bind_eq_error_iff {x : Except ε α} {f : α → Except ε β} {fault : ε} :
    x >>= f = .error fault ↔ x = .error fault ∨ ∃ a, x = .ok a ∧ f a = .error fault := by
  cases x <;> simp [bind, Except.bind]

@[simp] theorem pure_eq_ok_iff {a b : α} : (pure a : Except ε α) = .ok b ↔ a = b := by
  simp [pure, Except.pure]

@[simp] theorem mapError_eq_ok_iff {x : Except ε α} {f : ε → δ} {a : α} :
    x.mapError f = .ok a ↔ x = .ok a := by
  cases x <;> simp [Except.mapError]

theorem mapM_eq_ok_iff {f : α → Except ε β} {xs : List α} {ys : List β} :
    xs.mapM f = .ok ys ↔ List.Forall₂ (fun x y => f x = .ok y) xs ys := by
  induction xs generalizing ys with
  | nil => rw [List.mapM_nil, pure_eq_ok_iff, List.forall₂_nil_left_iff, eq_comm]
  | cons x xs ih =>
    simp only [List.mapM_cons, bind_eq_ok_iff, pure_eq_ok_iff, ih]
    constructor
    · rintro ⟨y, hy, rest, hr, rfl⟩
      exact .cons hy hr
    · rintro (_ | ⟨hy, hr⟩)
      exact ⟨_, hy, _, hr, rfl⟩

theorem read_cons_eq_ok_iff {r : α → β → Prop} {item : α} {items : List α} {first : Except ε γ}
    {f : γ → β} {others : Except ε (List β)} {results : List β}
    (hf : ∀ b, (∃ c, first = .ok c ∧ f c = b) ↔ r item b)
    (ho : ∀ bs, others = .ok bs ↔ List.Forall₂ r items bs) :
    (do return f (← first) :: (← others)) = .ok results ↔ List.Forall₂ r (item :: items) results := by
  simp only [bind_eq_ok_iff, pure_eq_ok_iff, List.forall₂_cons_left_iff, ← hf, ← ho]
  constructor
  · rintro ⟨c, hc, bs, hb, rfl⟩
    exact ⟨f c, bs, ⟨c, hc, rfl⟩, hb, rfl⟩
  · rintro ⟨_, bs, ⟨c, hc, rfl⟩, hb, rfl⟩
    exact ⟨c, hc, bs, hb, rfl⟩

theorem exists_of_mem_right {r : α → β → Prop} {xs : List α} {ys : List β} (h : List.Forall₂ r xs ys)
    {y : β} (hy : y ∈ ys) : ∃ x ∈ xs, r x y := by
  induction h with
  | nil => simp at hy
  | @cons x first xs ys hx _ ih =>
    rcases List.mem_cons.1 hy with rfl | hy
    · exact ⟨x, by simp, hx⟩
    · obtain ⟨other, hm, ho⟩ := ih hy
      exact ⟨other, by simp [hm], ho⟩

theorem exists_of_mem_left {r : α → β → Prop} {xs : List α} {ys : List β} (h : List.Forall₂ r xs ys)
    {x : α} (hx : x ∈ xs) : ∃ y ∈ ys, r x y :=
  exists_of_mem_right h.flip hx

/-- Lists that are related pair by pair, where the relation adds something about each second. -/
theorem forall₂_iff_of_mem {r s : α → β → Prop} {p : β → Prop} {xs : List α} {ys : List β}
    (h : ∀ x ∈ xs, ∀ y ∈ ys, r x y ↔ s x y ∧ p y) :
    List.Forall₂ r xs ys ↔ List.Forall₂ s xs ys ∧ ∀ y ∈ ys, p y := by
  induction xs generalizing ys with
  | nil => cases ys <;> simp
  | cons x xs ih =>
    cases ys with
    | nil => simp
    | cons y ys =>
      have first := h x List.mem_cons_self y List.mem_cons_self
      have others := ih fun x hx y hy => h x (List.mem_cons_of_mem _ hx) y (List.mem_cons_of_mem _ hy)
      rw [List.forall₂_cons, List.forall₂_cons, List.forall_mem_cons, first, others]
      exact and_and_and_comm

theorem forall₂_congr_of_mem {r s : α → β → Prop} {xs : List α} {ys : List β}
    (h : ∀ x ∈ xs, ∀ y ∈ ys, r x y ↔ s x y) : List.Forall₂ r xs ys ↔ List.Forall₂ s xs ys := by
  have added := forall₂_iff_of_mem (p := fun _ => True) fun x hx y hy => by simpa using h x hx y hy
  simpa using added

theorem forall₂_imp_of_mem {r s : α → β → Prop} {xs : List α} {ys : List β}
    (h : ∀ x ∈ xs, ∀ y ∈ ys, r x y → s x y) (each : List.Forall₂ r xs ys) : List.Forall₂ s xs ys := by
  have both : List.Forall₂ (fun x y => r x y ∧ s x y) xs ys :=
    (forall₂_congr_of_mem fun x hx y hy => ⟨fun hr => ⟨hr, h x hx y hy hr⟩, And.left⟩).1 each
  exact both.imp fun _ _ => And.right

theorem forall₂_trans {r : α → β → Prop} {s : β → γ → Prop} {t : α → γ → Prop} {xs : List α}
    {ys : List β} {zs : List γ} (first : List.Forall₂ r xs ys) (second : List.Forall₂ s ys zs)
    (h : ∀ x ∈ xs, ∀ y z, r x y → s y z → t x z) : List.Forall₂ t xs zs := by
  induction first generalizing zs with
  | nil =>
    cases second
    exact .nil
  | cons step _ ih =>
    cases second with
    | cons here rest =>
      exact .cons (h _ List.mem_cons_self _ _ step here)
        (ih rest fun x hx => h x (List.mem_cons_of_mem _ hx))

theorem exists_of_mem_mapM {f : α → Except ε β} {xs : List α} {ys : List β}
    (h : xs.mapM f = .ok ys) {y : β} (hy : y ∈ ys) : ∃ x ∈ xs, f x = .ok y :=
  exists_of_mem_right (mapM_eq_ok_iff.1 h) hy

/-- If the computation fails, then with a fault that has the property. -/
def FaultsIn (p : ε → Prop) (x : Except ε α) : Prop := ∀ fault, x = .error fault → p fault

section

variable {p q : ε → Prop}

@[simp] theorem faultsIn_ok (a : α) : FaultsIn p (.ok a) := by
  simp [FaultsIn]

@[simp] theorem faultsIn_pure (a : α) : FaultsIn p (pure a) := faultsIn_ok a

@[simp] theorem faultsIn_error_iff {fault : ε} :
    FaultsIn p (.error fault : Except ε α) ↔ p fault := by
  simp [FaultsIn]

theorem faultsIn_bind_iff {x : Except ε α} {f : α → Except ε β} :
    FaultsIn p (x >>= f) ↔ FaultsIn p x ∧ ∀ a, x = .ok a → FaultsIn p (f a) := by
  cases x with
  | error fault =>
    have failed : (Except.error fault : Except ε α) >>= f = .error fault := rfl
    simp [failed]
  | ok a =>
    have opened : Except.ok a >>= f = f a := rfl
    simp [opened]

@[simp] theorem faultsIn_bind_pure_iff {x : Except ε α} {f : α → β} :
    FaultsIn p (x >>= fun a => pure (f a)) ↔ FaultsIn p x := by
  rw [faultsIn_bind_iff]
  exact and_iff_left fun a _ => faultsIn_pure (f a)

theorem faultsIn_mapM {f : α → Except ε β} {xs : List α} (below : ∀ x ∈ xs, FaultsIn p (f x)) :
    FaultsIn p (xs.mapM f) := by
  induction xs with
  | nil => exact faultsIn_pure _
  | cons x xs ih =>
    rw [List.forall_mem_cons] at below
    rw [List.mapM_cons, faultsIn_bind_iff]
    exact ⟨below.1, fun _ _ => faultsIn_bind_pure_iff.2 (ih below.2)⟩

theorem FaultsIn.mono {x : Except ε α} (faults : FaultsIn p x) (h : ∀ fault, p fault → q fault) :
    FaultsIn q x :=
  fun fault failed => h fault (faults fault failed)

/-- A computation that has no fault to fail with succeeds. -/
theorem faultsIn_false_iff {x : Except ε α} : FaultsIn (fun _ => False) x ↔ ∃ a, x = .ok a := by
  cases x <;> simp

end

/-- Computations that fail with the same fault, or give results that are related. -/
inductive FailAlike (r : α → β → Prop) : Except ε α → Except ε β → Prop where
  | error (fault : ε) : FailAlike r (.error fault) (.error fault)
  | ok {a : α} {b : β} (related : r a b) : FailAlike r (.ok a) (.ok b)

theorem FailAlike.bind {r : α → β → Prop} {s : γ → δ → Prop} {x : Except ε α} {y : Except ε β}
    {f : α → Except ε γ} {g : β → Except ε δ} (alike : FailAlike r x y)
    (onward : ∀ a b, r a b → FailAlike s (f a) (g b)) : FailAlike s (x >>= f) (y >>= g) := by
  cases alike with
  | error fault => exact .error fault
  | ok related => exact onward _ _ related

/-- Computations that fail both, with any two faults, or give results that are related. -/
inductive FailTogether (r : α → β → Prop) : Except ε α → Except ε β → Prop where
  | error (fault other : ε) : FailTogether r (.error fault) (.error other)
  | ok {a : α} {b : β} (related : r a b) : FailTogether r (.ok a) (.ok b)

namespace FailTogether

variable {r : α → α → Prop} {x y z : Except ε α}

theorem refl (same : ∀ a, r a a) (x : Except ε α) : FailTogether r x x := by
  cases x with
  | error fault => exact .error fault fault
  | ok a => exact .ok (same a)

theorem symm (back : ∀ a b, r a b → r b a) (together : FailTogether r x y) : FailTogether r y x := by
  cases together with
  | error fault other => exact .error other fault
  | ok related => exact .ok (back _ _ related)

theorem trans (onward : ∀ a b c, r a b → r b c → r a c) (together : FailTogether r x y)
    (further : FailTogether r y z) : FailTogether r x z := by
  cases together with
  | error fault other =>
    cases further with
    | error _ last => exact .error fault last
  | ok related =>
    cases further with
    | ok next => exact .ok (onward _ _ _ related next)

theorem bind {r : α → β → Prop} {s : γ → δ → Prop} {x : Except ε α} {y : Except ε β}
    {f : α → Except ε γ} {g : β → Except ε δ} (together : FailTogether r x y)
    (onward : ∀ a b, r a b → FailTogether s (f a) (g b)) : FailTogether s (x >>= f) (y >>= g) := by
  cases together with
  | error fault other => exact .error fault other
  | ok related => exact onward _ _ related

/-- A traversal in another order fails as well, or gives its results in another order. -/
theorem mapM_perm {xs ys : List α} (h : xs.Perm ys) (f : α → Except ε β) :
    FailTogether List.Perm (xs.mapM f) (ys.mapM f) := by
  induction h with
  | nil => exact .ok .nil
  | cons x _ ih =>
    rw [List.mapM_cons, List.mapM_cons]
    exact (refl Eq.refl (f x)).bind fun b _ same => ih.bind fun _ _ h => .ok (same ▸ h.cons b)
  | swap x y l =>
    simp only [List.mapM_cons]
    cases f x with
    | error fault => cases f y <;> exact .error _ _
    | ok b =>
      cases f y with
      | error fault => exact .error _ _
      | ok c =>
        cases l.mapM f with
        | error fault => exact .error _ _
        | ok bs => exact .ok (.swap b c bs)
  | trans _ _ ih ih' => exact ih.trans (fun _ _ _ => List.Perm.trans) ih'

theorem error_iff (together : FailTogether r x y) :
    (∃ fault, x = .error fault) ↔ ∃ fault, y = .error fault := by
  cases together <;> simp

end FailTogether

end AccessControl
