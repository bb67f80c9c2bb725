/-!
# Tables over suffixes

A pattern is matched against a list through a table with one entry for each
suffix, the longest first: whether what is left of the pattern takes exactly
that suffix. Each part of a pattern turns the table of what follows it into
its own, so matching takes time in the product of the two lengths. `tabulate`
is what a table means; the lemmas state each step in its terms.
-/

set_option autoImplicit false

namespace ClassPolicy.Suffixes

variable {α : Type}

def tabulate (k : List α → Bool) : List α → List Bool
  | [] => [k []]
  | x :: s => k (x :: s) :: tabulate k s

def atEnd : List α → List Bool
  | [] => [true]
  | _ :: s => false :: atEnd s

def one (f : α → Bool) : List α → List Bool → List Bool
  | x :: s, _ :: later => (later.headD false && f x) :: one f s later
  | _, _ => [false]

def many (f : α → Bool) : List α → List Bool → List Bool
  | x :: s, b :: later =>
    let rest := many f s later
    (b || (rest.headD false && f x)) :: rest
  | _, table => table

def oneThen (f : α → Bool) (k : List α → Bool) : List α → Bool
  | [] => false
  | x :: s => k s && f x

def manyThen (f : α → Bool) (k : List α → Bool) : List α → Bool
  | [] => k []
  | x :: s => k (x :: s) || (manyThen f k s && f x)

@[simp] theorem headD_tabulate (k : List α → Bool) (s : List α) :
    (tabulate k s).headD false = k s := by cases s <;> rfl

theorem atEnd_eq (s : List α) : atEnd s = tabulate List.isEmpty s := by
  induction s with
  | nil => rfl
  | cons x s ih => simp [atEnd, tabulate, ih]

theorem one_tabulate (f : α → Bool) (k : List α → Bool) (s : List α) :
    one f s (tabulate k s) = tabulate (oneThen f k) s := by
  induction s with
  | nil => rfl
  | cons x s ih => simp only [one, tabulate, headD_tabulate, ih, oneThen]

theorem many_tabulate (f : α → Bool) (k : List α → Bool) (s : List α) :
    many f s (tabulate k s) = tabulate (manyThen f k) s := by
  induction s with
  | nil => rfl
  | cons x s ih => simp only [many, tabulate, ih, headD_tabulate, manyThen]

theorem manyThen_eq_true_iff {f : α → Bool} {k : List α → Bool} {s : List α} :
    manyThen f k s = true ↔ ∃ a b, s = a ++ b ∧ (∀ x ∈ a, f x = true) ∧ k b = true := by
  induction s with
  | nil =>
    simp only [manyThen]
    constructor
    · exact fun h => ⟨[], [], rfl, by simp, h⟩
    · rintro ⟨a, b, h, -, hk⟩
      obtain ⟨rfl, rfl⟩ := List.append_eq_nil_iff.1 h.symm
      exact hk
  | cons x s ih =>
    simp only [manyThen, Bool.or_eq_true, Bool.and_eq_true, ih]
    constructor
    · rintro (h | ⟨⟨a, b, rfl, ha, hk⟩, hx⟩)
      · exact ⟨[], x :: s, rfl, by simp, h⟩
      · exact ⟨x :: a, b, rfl, by simpa [hx] using ha, hk⟩
    · rintro ⟨a, b, h, ha, hk⟩
      cases a with
      | nil => exact .inl (by simpa [h] using hk)
      | cons y a =>
        obtain ⟨rfl, rfl⟩ := List.cons.inj h
        exact .inr ⟨⟨a, b, rfl, fun z hz => ha z (List.mem_cons_of_mem _ hz), hk⟩,
          ha _ List.mem_cons_self⟩

end ClassPolicy.Suffixes
