import ClassPolicy.SortedMap
import ClassPolicy.TypeName

/-!
# Fields in order

A field is told by the type that declares it and its own name. Fields are
ordered by type and, within a type, by name, so the fields of a type stand
together, and in a list in this order they are read from where the first of
them would stand up to where another type begins.
-/

set_option autoImplicit false

namespace ClassPolicy

structure FieldKey where
  owner : TypeName
  field : String
deriving DecidableEq

namespace FieldKey

instance : LT FieldKey :=
  ⟨fun k l => k.owner.text < l.owner.text ∨ k.owner = l.owner ∧ k.field < l.field⟩

instance : DecidableLT FieldKey := fun _ _ => inferInstanceAs (Decidable (_ ∨ _ ∧ _))

theorem lt_irrefl (k : FieldKey) : ¬ k < k := by
  rintro (less | ⟨-, less⟩) <;> exact String.lt_irrefl _ less

theorem lt_trans {k l m : FieldKey} (first : k < l) (second : l < m) : k < m := by
  rcases first with first | ⟨same, first⟩
  · rcases second with second | ⟨same', -⟩
    · exact .inl (String.lt_trans first second)
    · exact .inl (same' ▸ first)
  · rcases second with second | ⟨same', second⟩
    · exact .inl (same ▸ second)
    · exact .inr ⟨same.trans same', String.lt_trans first second⟩

instance : Std.Irrefl (fun k l : FieldKey => k < l) := ⟨lt_irrefl⟩

instance : Trans (fun k l : FieldKey => k < l) (fun k l : FieldKey => k < l)
    (fun k l : FieldKey => k < l) := ⟨lt_trans⟩

instance : Std.Trichotomous (fun k l : FieldKey => k < l) where
  trichotomous k l first second := by
    obtain ⟨owner, field⟩ := k
    obtain ⟨owner', field'⟩ := l
    have owners : owner = owner' := TypeName.text_inj.1 <| String.le_antisymm
      (String.not_lt.1 fun less => second (.inl less))
      (String.not_lt.1 fun less => first (.inl less))
    subst owners
    have fields : field = field' := String.le_antisymm
      (String.not_lt.1 fun less => second (.inr ⟨rfl, less⟩))
      (String.not_lt.1 fun less => first (.inr ⟨rfl, less⟩))
    rw [fields]

/-- Nothing of a type stands before its empty field. -/
theorem lt_unnamed_iff {k : FieldKey} {owner : TypeName} :
    k < ⟨owner, ""⟩ ↔ k.owner.text < owner.text := by
  refine ⟨?_, .inl⟩
  rintro (less | ⟨-, less⟩)
  · exact less
  · exact absurd less (List.not_lt_nil _)

theorem owner_le {k l : FieldKey} (less : k < l) : k.owner.text ≤ l.owner.text := by
  rcases less with less | ⟨same, -⟩
  · exact String.not_lt.1 fun greater => String.lt_irrefl _ (String.lt_trans less greater)
  · exact same ▸ String.le_refl _

/-- What stands from the empty field of a type on up to another type. -/
def scan {α : Type} (name : TypeName) (entries : List (FieldKey × α)) : List (FieldKey × α) :=
  (entries.dropWhile (·.1 < ⟨name, ""⟩)).takeWhile (·.1.owner = name)

section Scan

variable {α : Type} {name : TypeName} {entries : List (FieldKey × α)}

/-- Past the smaller types, the entries of a type come first. -/
theorem takeWhile_owner_eq_filter (increasing : entries.Pairwise (fun a b => a.1 < b.1))
    (reached : ∀ e ∈ entries, name.text ≤ e.1.owner.text) :
    entries.takeWhile (·.1.owner = name) = entries.filter (·.1.owner = name) := by
  induction entries with
  | nil => rfl
  | cons e rest ih =>
    obtain ⟨less, increasing⟩ := List.pairwise_cons.1 increasing
    obtain ⟨here, reached⟩ := List.forall_mem_cons.1 reached
    by_cases own : e.1.owner = name
    · simpa [own] using ih increasing reached
    · -- Another type is a greater one here, and so are all that follow.
      have none : ∀ later ∈ rest, later.1.owner ≠ name := by
        rintro later member rfl
        have before : e.1.owner.text ≤ later.1.owner.text := owner_le (less later member)
        exact own (TypeName.text_inj.1 (String.le_antisymm before here))
      simpa [own] using none

/-- The scan misses no entry of the type and takes in none of another type,
also when one name begins with the other. -/
theorem scan_eq_filter (increasing : entries.Pairwise (fun a b => a.1 < b.1)) :
    scan name entries = entries.filter (·.1.owner = name) := by
  unfold scan
  induction entries with
  | nil => rfl
  | cons e rest ih =>
    obtain ⟨less, later⟩ := List.pairwise_cons.1 increasing
    by_cases smaller : e.1.owner.text < name.text
    · have before : e.1 < ⟨name, ""⟩ := lt_unnamed_iff.2 smaller
      have other : e.1.owner ≠ name := by
        rintro rfl
        exact String.lt_irrefl _ smaller
      simpa [before, other] using ih later
    · have start : ¬ e.1 < ⟨name, ""⟩ := mt lt_unnamed_iff.1 smaller
      have here : name.text ≤ e.1.owner.text := String.not_lt.1 smaller
      rw [List.dropWhile_cons_of_neg (by simpa using start)]
      refine takeWhile_owner_eq_filter increasing (List.forall_mem_cons.2 ⟨here, ?_⟩)
      intro next member
      exact String.le_trans here (owner_le (less next member))

end Scan

end FieldKey

end ClassPolicy
