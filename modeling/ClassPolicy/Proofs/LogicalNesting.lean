import ClassPolicy.Proofs.CacheCoherence
import Mathlib.Data.List.TakeWhile

/-!
# Types nested in logical types

A type without a spec of its own is kept out when the type at the outside of
all its nesting is logical, whatever roots, rewriters and rules say. Only that
type counts: a logical type that is itself nested keeps out none of the types
nested in it. No memory holds an acceptance from before, because a spec that
makes a type logical starts a generation.
-/

set_option autoImplicit false

namespace ClassPolicy

namespace TypeName

/-- The inner name begins with the outer one, and a `$` follows there. -/
def Encloses (outer inner : TypeName) : Prop :=
  outer.text.toList ++ ['$'] <+: inner.text.toList

instance (outer inner : TypeName) : Decidable (outer.Encloses inner) :=
  inferInstanceAs (Decidable (_ <+: _))

theorem isNested_eq_false_iff {name : TypeName} :
    name.isNested = false ↔ '$' ∉ name.text.toList := by
  simp [isNested]

theorem kept_of_free {s : List Char} (free : '$' ∉ s) : ∀ c ∈ s, decide (c ≠ '$') = true := by
  intro c member
  have other : c ≠ '$' := fun same => free (same ▸ member)
  simpa using other

theorem outer_text_of_spelled {name : TypeName} {before rest : List Char}
    (spelled : name.text.toList = before ++ '$' :: rest) (free : '$' ∉ before) :
    name.outer.text.toList = before := by
  simp only [outer, outermost, String.toList_ofList, spelled]
  rw [List.takeWhile_append_of_pos (kept_of_free free)]
  simp

theorem outer_of_encloses {outer inner : TypeName} (encloses : outer.Encloses inner)
    (outermost : outer.isNested = false) : inner.outer = outer := by
  obtain ⟨rest, spelled⟩ := encloses
  have split : inner.text.toList = outer.text.toList ++ '$' :: rest := by simp [← spelled]
  have free : '$' ∉ outer.text.toList := isNested_eq_false_iff.1 outermost
  exact text_inj.1 (String.toList_injective (outer_text_of_spelled split free))

/-- The outermost type encloses a nested one, and is not nested itself. -/
theorem outer_encloses {name : TypeName} (nested : name.isNested = true) :
    name.outer.Encloses name ∧ name.outer.isNested = false := by
  have mark : '$' ∈ name.text.toList := by simpa [isNested] using nested
  obtain ⟨before, rest, spelled, free⟩ := List.eq_append_cons_of_mem mark
  have outermost := outer_text_of_spelled spelled free
  constructor
  · refine ⟨rest, ?_⟩
    rw [outermost, spelled, List.append_assoc]
    rfl
  · rw [isNested_eq_false_iff, outermost]
    exact free

theorem outer_of_flat {name : TypeName} (flat : name.isNested = false) : name.outer = name := by
  have free : '$' ∉ name.text.toList := isNested_eq_false_iff.1 flat
  apply text_inj.1
  apply String.toList_injective
  simp only [outer, outermost, String.toList_ofList]
  exact List.takeWhile_eq_self_iff.2 (kept_of_free free)

end TypeName

namespace Registries

variable {r : Registries} {ty : TypeDescriptor}

theorem isLogical_of_absent {name : TypeName} (absent : r.specs.get? name = none) :
    r.isLogical name = false := by
  simp [isLogical, absent]

/-- No step that accepts comes before the question about nesting. -/
theorem adaptability_refused (absent : r.specs.get? ty.name = none)
    (logical : r.isLogical ty.name.outer = true) {decision : Adaptability}
    (found : r.adaptability ty = .ok decision) : decision.transformable = false := by
  have apart : ty.name.outer ≠ ty.name := by
    intro same
    rw [same, isLogical_of_absent absent] at logical
    cases logical
  have nested : r.isNestedInLogical ty.name = true := by
    simp [isNestedInLogical, apart, SpecStore.contains_of_none absent, logical]
  simp only [adaptability, nested, if_true] at found
  split at found
  · cases found
    rfl
  · split at found
    · cases found
    · cases found
      rfl
    · split at found <;> cases found <;> rfl

/-- A type without a spec whose outermost type is not logical is decided upon
as if there were no specs. -/
theorem adaptability_without_specs (absent : r.specs.get? ty.name = none)
    (plain : r.isLogical ty.name.outer = false) :
    r.adaptability ty = adaptability { r with specs := .empty } ty := by
  have here : r.isNestedInLogical ty.name = false := by simp [isNestedInLogical, plain]
  have there : isNestedInLogical { r with specs := .empty } ty.name = false := by
    simp [isNestedInLogical, isLogical, SpecStore.get?, SpecStore.empty]
  have none := SpecStore.contains_of_none absent
  simp only [adaptability, here, there, none]
  rfl

end Registries

namespace Engine

/-- Nothing is remembered that accepts a type without a spec whose outermost
type is logical. -/
def NestingKept (e : Engine) : Prop :=
  ∀ name decision, e.registries.specs.get? name = none →
    e.registries.isLogical name.outer = true →
    e.cache.decision? name e.generation = some decision → decision.transformable = false

theorem step_nestingKept (e e' : Engine) (step : Step (fun _ => True) True e e')
    (kept : NestingKept e) : NestingKept e' := by
  intro name decision absent logical known
  cases step with
  | registered changes => cases known
  | adjusted change =>
    cases change with
    | marked =>
      rw [Registries.isLogical_marked] at logical
      have free : e.registries.specs.get? name = none := by
        have same := Registries.contains_marked e.registries.specs name
        simpa [SpecStore.contains, absent] using same
      exact kept name decision free logical known
    | _ => exact kept name decision absent logical known
  | @stranded stray allowed free =>
    -- The spec left behind is not logical, so the outermost type is another one.
    have look := SpecStore.get?_put_of_absent free .live (.ofName stray)
    simp only [strand, adjust] at absent logical known
    have other : name ≠ stray := by
      rintro rfl
      rw [look, if_pos rfl] at absent
      cases absent
    rw [look, if_neg other] at absent
    simp only [Registries.isLogical] at logical
    rw [look] at logical
    split at logical
    · rename_i found
      split at found
      · cases found
        cases logical
      · refine kept name decision absent ?_ known
        simpa [Registries.isLogical, found] using logical
    · cases logical
  | @decided ty decision₀ ask unknown found =>
    rw [registries_rememberDecision] at absent logical
    rw [generation_rememberDecision, decision?_rememberDecision] at known
    split at known
    · rename_i same
      subst same
      cases known
      exact Registries.adaptability_refused absent logical found
    · exact kept name decision absent logical known
  | moded ask stored found =>
    rw [registries_rememberMode] at absent logical
    rw [generation_rememberMode, decision?_rememberMode] at known
    exact kept name decision absent logical known
  | reported diagnostics => exact kept name decision absent logical known

theorem Reachable.nestingKept {e : Engine} (reached : Reachable e) : NestingKept e :=
  reached.invariant (fun _ _ _ _ _ known => nomatch known) step_nestingKept

theorem explain_refused {e : Engine} (kept : NestingKept e) {ty : TypeDescriptor}
    (absent : e.registries.specs.get? ty.name = none)
    (logical : e.registries.isLogical ty.name.outer = true) {decision : Adaptability}
    (explained : (e.explain ty).1 = .ok decision) : decision.transformable = false := by
  unfold explain at explained
  split at explained
  · rename_i known
    cases explained
    exact kept ty.name _ absent logical known
  · split at explained
    · cases explained
    · rename_i found
      cases explained
      exact Registries.adaptability_refused absent logical found

/-- In every reachable engine a type without a spec of its own is never
accepted when a type that encloses it and is not nested itself is logical. When
all logical types that enclose it are nested themselves, the decision is the
one made without any specs. -/
theorem Reachable.explain_nested {e : Engine} (reached : Reachable e) {ty : TypeDescriptor}
    (absent : e.registries.specs.get? ty.name = none) :
    (∀ outer : TypeName, outer.Encloses ty.name → e.registries.isLogical outer = true →
      outer.isNested = false →
        ∀ decision, (e.explain ty).1 = .ok decision → decision.transformable = false) ∧
    ((∀ outer : TypeName, outer.Encloses ty.name → e.registries.isLogical outer = true →
      outer.isNested = true) →
        e.registries.adaptability ty =
          Registries.adaptability { e.registries with specs := .empty } ty) := by
  constructor
  · intro outer encloses logical outermost decision explained
    rw [← TypeName.outer_of_encloses encloses outermost] at logical
    exact explain_refused reached.nestingKept absent logical explained
  · intro inner
    refine Registries.adaptability_without_specs absent ?_
    cases nested : ty.name.isNested with
    | false =>
      rw [TypeName.outer_of_flat nested]
      exact Registries.isLogical_of_absent absent
    | true =>
      obtain ⟨encloses, outermost⟩ := TypeName.outer_encloses nested
      by_contra logical
      rw [Bool.not_eq_false] at logical
      have contrary := inner _ encloses logical
      rw [outermost] at contrary
      cases contrary

def lineOfPage : TypeDescriptor := .named (TypeName.ofString "acme.Ledger$Page$Line")

/-- Everything but a spec accepts the line type, which is asked about before
its outermost type becomes logical. -/
def ledgerLogical : Engine := (ofOptions {}).run [
  ⟨.addInclude "acme.*" {}⟩, ⟨.addRewriter "acme.Ledger$Page$Line" "acme.Rewriter"⟩,
  ⟨.addRoot { typeName := lineOfPage.name, fieldName := "text" } false⟩, ⟨.explain lineOfPage⟩,
  ⟨.getOrCreateLogicalSpec "acme.Ledger" "acme.Applicator"⟩]

/-- Only the type in between is logical. -/
def pageLogical : Engine := (ofOptions {}).run [
  ⟨.getOrCreateLogicalSpec "acme.Ledger$Page" "acme.Applicator"⟩, ⟨.addInclude "acme.*" {}⟩]

theorem lineOfPage_settled :
    (∀ decision, (ledgerLogical.explain lineOfPage).1 = .ok decision →
        decision.transformable = false) ∧
      pageLogical.registries.adaptability lineOfPage =
        Registries.adaptability { pageLogical.registries with specs := .empty } lineOfPage := by
  have absent : ledgerLogical.registries.specs.get? lineOfPage.name = none := by decide +kernel
  have encloses : (TypeName.ofString "acme.Ledger").Encloses lineOfPage.name := by
    decide +kernel
  have logical : ledgerLogical.registries.isLogical (TypeName.ofString "acme.Ledger") = true := by
    decide +kernel
  have outermost : (TypeName.ofString "acme.Ledger").isNested = false := by decide +kernel
  have reached : Reachable ledgerLogical := (Reachable.fresh {}).run _
  refine ⟨(reached.explain_nested absent).1 _ encloses logical outermost, ?_⟩
  have absent' : pageLogical.registries.specs.get? lineOfPage.name = none := by decide +kernel
  have plain : pageLogical.registries.isLogical lineOfPage.name.outer = false := by
    decide +kernel
  have reached' : Reachable pageLogical := (Reachable.fresh {}).run _
  refine (reached'.explain_nested absent').2 fun outer encloses' logical' => ?_
  by_contra flat
  rw [Bool.not_eq_true] at flat
  rw [TypeName.outer_of_encloses encloses' flat, logical'] at plain
  cases plain

/-- The line of a logical page is accepted without a spec of its own, though it
is nested in a logical type. -/
theorem lineOfPage_accepted :
    Reachable pageLogical ∧ pageLogical.registries.specs.get? lineOfPage.name = none ∧
      (TypeName.ofString "acme.Ledger$Page").Encloses lineOfPage.name ∧
      pageLogical.registries.isLogical (TypeName.ofString "acme.Ledger$Page") = true ∧
      (pageLogical.explain lineOfPage).1 = .ok (.accept .includeRule) := by
  refine ⟨(Reachable.fresh {}).run _, ?_⟩
  decide +kernel

end Engine

end ClassPolicy
