import Mathlib.Data.List.Forall2

/-!
# Computations one after the other

A sequence of computations that may fail succeeds exactly when each of them
does, and the first that fails decides the error.
-/

set_option autoImplicit false

namespace ClassPolicy

theorem isOk_iff {α ε : Type} {x : Except ε α} : x.isOk = true ↔ ∃ a, x = .ok a := by
  cases x <;> simp [Except.isOk, Except.toBool]

theorem bind_eq_ok_iff {α β ε : Type} {x : Except ε α} {f : α → Except ε β} {b : β} :
    x >>= f = .ok b ↔ ∃ a, x = .ok a ∧ f a = .ok b := by
  cases x <;> simp [bind, Except.bind]

/-- A check before a computation. -/
theorem check_bind_eq_ok_iff {β ε : Type} {x : Except ε Unit} {f : Unit → Except ε β} {b : β} :
    x >>= f = .ok b ↔ x = .ok () ∧ f () = .ok b := by
  cases x <;> simp [bind, Except.bind]

theorem bind_eq_error_iff {α β ε : Type} {x : Except ε α} {f : α → Except ε β} {e : ε} :
    x >>= f = .error e ↔ x = .error e ∨ ∃ a, x = .ok a ∧ f a = .error e := by
  cases x <;> simp [bind, Except.bind]

theorem mapError_eq_ok_iff {α ε ε' : Type} {f : ε → ε'} {x : Except ε α} {a : α} :
    x.mapError f = .ok a ↔ x = .ok a := by
  cases x <;> simp [Except.mapError]

theorem mapError_eq_error_iff {α ε ε' : Type} {f : ε → ε'} {x : Except ε α} {e' : ε'} :
    x.mapError f = .error e' ↔ ∃ e, x = .error e ∧ f e = e' := by
  cases x <;> simp [Except.mapError]

theorem map_eq_error_iff {α β ε : Type} {f : α → β} {x : Except ε α} {e : ε} :
    x.map f = .error e ↔ x = .error e := by
  cases x <;> simp [Except.map]

theorem ok_bind {α β ε : Type} (a : α) (f : α → Except ε β) : .ok a >>= f = f a := rfl

theorem mapError_ok {α ε ε' : Type} (g : ε → ε') (a : α) :
    (.ok a : Except ε α).mapError g = .ok a := rfl

theorem mapError_bind {α β ε ε' : Type} (g : ε → ε') (x : Except ε α) (f : α → Except ε β) :
    (x >>= f).mapError g = x.mapError g >>= fun a => (f a).mapError g := by
  cases x <;> rfl

theorem mapError_twice {α ε : Type} {g : ε → ε} (idempotent : ∀ e, g (g e) = g e)
    (x : Except ε α) : (x.mapError g).mapError g = x.mapError g := by
  cases x <;> simp [Except.mapError, idempotent]

theorem mapError_map {α β ε ε' : Type} (g : ε → ε') (x : Except ε α) (f : α → β) :
    (x.map f).mapError g = (x.mapError g).map f := by
  cases x <;> rfl

/-- Where two computations agree up to their errors, both give the same answer
or both fail. -/
theorem cases_of_mapError_eq {α ε ε' : Type} {g : ε → ε'} {x y : Except ε α}
    (same : x.mapError g = y.mapError g) :
    (∃ a, x = .ok a ∧ y = .ok a) ∨ ∃ e e', x = .error e ∧ y = .error e' ∧ g e = g e' := by
  cases x <;> cases y <;> simp_all [Except.mapError]

/-- Only the errors of the single computations count. -/
theorem mapM_mapError {α β ε ε' : Type} (g : ε → ε') (f : α → Except ε β) (xs : List α) :
    (xs.mapM f).mapError g = xs.mapM (fun x => (f x).mapError g) := by
  induction xs with
  | nil => rfl
  | cons x xs ih =>
    simp only [List.mapM_cons, mapError_bind, ih]
    rfl

theorem mapM_eq_ok_iff {α β ε : Type} {f : α → Except ε β} {xs : List α} {ys : List β} :
    xs.mapM f = .ok ys ↔ List.Forall₂ (fun x y => f x = .ok y) xs ys := by
  induction xs generalizing ys with
  | nil => cases ys <;> simp [pure, Except.pure]
  | cons x xs ih =>
    rw [List.mapM_cons]
    cases first : f x with
    | error failure => cases ys <;> simp [bind, Except.bind, first]
    | ok y =>
      cases later : xs.mapM f with
      | error failure => cases ys <;> simp [bind, Except.bind, first, ← ih, later]
      | ok ys' => cases ys <;> simp [bind, Except.bind, pure, Except.pure, first, ← ih, later]

/-- The first computation that fails decides. -/
theorem mapM_eq_error_iff {α β ε : Type} {f : α → Except ε β} {xs : List α} {e : ε} :
    xs.mapM f = .error e ↔
      ∃ before x after, xs = before ++ x :: after ∧ (∀ y ∈ before, ∃ b, f y = .ok b) ∧
        f x = .error e := by
  induction xs with
  | nil => simp [pure, Except.pure]
  | cons x xs ih =>
    rw [List.mapM_cons, bind_eq_error_iff]
    constructor
    · rintro (here | ⟨b, first, later⟩)
      · exact ⟨[], x, xs, rfl, by simp, here⟩
      · rw [bind_eq_error_iff, ih] at later
        obtain ⟨before, y, after, rfl, passed, failed⟩ | ⟨_, _, done⟩ := later
        · refine ⟨x :: before, y, after, rfl, ?_, failed⟩
          exact List.forall_mem_cons.2 ⟨⟨b, first⟩, passed⟩
        · cases done
    · rintro ⟨before, y, after, cut, passed, failed⟩
      cases before with
      | nil =>
        obtain ⟨rfl, rfl⟩ := List.cons.inj cut
        exact .inl failed
      | cons first before =>
        obtain ⟨rfl, rfl⟩ := List.cons.inj cut
        obtain ⟨⟨b, here⟩, passed⟩ := List.forall_mem_cons.1 passed
        refine .inr ⟨b, here, bind_eq_error_iff.2 (.inl (ih.2 ?_))⟩
        exact ⟨before, y, after, rfl, passed, failed⟩

end ClassPolicy
