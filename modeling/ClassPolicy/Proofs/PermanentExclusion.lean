import ClassPolicy.Proofs.Run
import Mathlib.Tactic.Common

/-!
# Permanent exclusion along a run

A pattern stays among the permanent excludes whatever is called, and it is
asked before every step that accepts a type. Adding it starts a generation, so
neither memory holds an older acceptance, and what is remembered later was
computed with the pattern in force. A type that it matches is never accepted
again. The types asked about must be told apart by their names, since the
memories are kept by name.
-/

set_option autoImplicit false

namespace ClassPolicy

/-- The answer refuses, or another permanent exclude fails on the type. -/
def Barred {α : Type} (r : Registries) (pattern : String) (ty : TypeDescriptor)
    (refuses : α → Prop) : Except PatternError α → Prop
  | .ok answer => refuses answer
  | .error failure =>
    ∃ other ∈ r.rules.permanentExcludes, other ≠ pattern ∧ matchType other ty = .error failure

theorem RuleRegistry.anyMatches_of_mem {pattern : String} {ty : TypeDescriptor}
    (matched : matchType pattern ty = .ok true) {patterns : List String}
    (member : pattern ∈ patterns) :
    anyMatches ty patterns = .ok true ∨
      ∃ failure, anyMatches ty patterns = .error failure ∧
        ∃ other ∈ patterns, other ≠ pattern ∧ matchType other ty = .error failure := by
  induction patterns with
  | nil => cases member
  | cons first rest ih =>
    cases found : matchType first ty with
    | error failure =>
      have apart : first ≠ pattern := by
        rintro rfl
        rw [matched] at found
        cases found
      refine .inr ⟨failure, ?_, first, List.mem_cons_self, apart, found⟩
      simp [anyMatches, found]
    | ok here =>
      cases here with
      | true => exact .inl (by simp [anyMatches, found])
      | false =>
        have later : pattern ∈ rest := by
          rcases List.mem_cons.1 member with rfl | later
          · rw [matched] at found
            cases found
          · exact later
        have skip : anyMatches ty (first :: rest) = anyMatches ty rest := by
          simp [anyMatches, found]
        rw [skip]
        rcases ih later with yes | ⟨failure, failed, other, present, fails⟩
        · exact .inl yes
        · exact .inr ⟨failure, failed, other, List.mem_cons_of_mem _ present, fails⟩

namespace Registries

/-- The exclusion is asked before every step that accepts. -/
theorem adaptability_barred {r : Registries} {pattern : String} {ty : TypeDescriptor}
    (matched : matchType pattern ty = .ok true) (listed : pattern ∈ r.rules.permanentExcludes) :
    Barred r pattern ty (fun decision => decision.transformable = false)
      (r.adaptability ty) := by
  unfold adaptability
  split
  · rfl
  · unfold RuleRegistry.isPermanentlyExcluded
    rcases RuleRegistry.anyMatches_of_mem matched listed with yes | ⟨failure, failed, blame⟩
    · rw [yes]
      rfl
    · rw [failed]
      exact blame

theorem mode_of_refused (r : Registries) (ty : TypeDescriptor) :
    r.mode ty false = .ok .notAdaptable := by
  simp [mode, ModeFacts.decide_eq]

theorem change_listed {pattern : String} (r r' : Registries) (change : r.Change r')
    (listed : pattern ∈ r.rules.permanentExcludes) : pattern ∈ r'.rules.permanentExcludes := by
  cases change with
  | aside change => cases change <;> exact listed
  | permanentExclude added => exact List.mem_cons_of_mem added listed
  | _ => exact listed

end Registries

namespace Engine

/-- The pattern is in force, and nothing remembered of the type is from before
it. -/
structure Excludes (pattern : String) (ty : TypeDescriptor) (e : Engine) : Prop where
  listed : pattern ∈ e.registries.rules.permanentExcludes
  decision : ∀ decision, e.cache.decision? ty.name e.generation = some decision →
    decision.transformable = false
  mode : ∀ mode, e.cache.mode? ty.name e.generation = some mode → mode = .notAdaptable

variable {asked : TypeDescriptor → Prop} {pattern : String} {ty : TypeDescriptor}

theorem addPermanentExclude_excludes (pattern : String) (ty : TypeDescriptor) (e : Engine) :
    Excludes pattern ty (e.addPermanentExclude pattern) where
  listed := List.mem_cons_self
  decision := nofun
  mode := nofun

theorem step_excludes (matched : matchType pattern ty = .ok true)
    (one : ∀ ty', asked ty' → ty'.name = ty.name → ty' = ty) (e e' : Engine)
    (step : Step asked True e e') (excludes : Excludes pattern ty e) :
    Excludes pattern ty e' := by
  cases step with
  | registered changes =>
    exact ⟨kept_along (P := fun r => pattern ∈ r.rules.permanentExcludes)
      Registries.change_listed changes excludes.listed, nofun, nofun⟩
  | adjusted change =>
    exact ⟨Registries.change_listed _ _ (.aside change) excludes.listed, excludes.decision,
      excludes.mode⟩
  | stranded allowed absent => exact ⟨excludes.listed, excludes.decision, excludes.mode⟩
  | @decided ty₀ decision₀ ask₀ unknown₀ found₀ =>
    refine ⟨by rw [registries_rememberDecision]; exact excludes.listed, ?_, ?_⟩
    · intro decision known
      rw [generation_rememberDecision, decision?_rememberDecision] at known
      split at known
      · rename_i same
        cases one ty₀ ask₀ same.symm
        cases known
        have barred := Registries.adaptability_barred matched excludes.listed
        rwa [found₀] at barred
      · exact excludes.decision decision known
    · intro mode known
      rw [generation_rememberDecision, mode?_rememberDecision] at known
      exact excludes.mode mode known
  | @moded ty₀ decision₀ mode₀ ask₀ known₀ found₀ =>
    refine ⟨excludes.listed, ?_, ?_⟩
    · intro decision known
      rw [generation_rememberMode, decision?_rememberMode] at known
      exact excludes.decision decision known
    · intro mode known
      rw [generation_rememberMode, mode?_rememberMode] at known
      split at known
      · rename_i same
        cases one ty₀ ask₀ same.symm
        cases known
        rw [excludes.decision decision₀ known₀, Registries.mode_of_refused] at found₀
        cases found₀
        rfl
      · exact excludes.mode mode known
  | reported diagnostics => exact ⟨excludes.listed, excludes.decision, excludes.mode⟩

/-! ### Answers under the exclusion -/

theorem explain_barred (matched : matchType pattern ty = .ok true) {e : Engine}
    (excludes : Excludes pattern ty e) :
    Barred e.registries pattern ty (fun decision => decision.transformable = false)
      (e.explain ty).1 := by
  have barred := Registries.adaptability_barred matched excludes.listed
  unfold explain
  split
  · rename_i decision known
    exact excludes.decision decision known
  · split
    · rename_i found
      rwa [found] at barred
    · rename_i found
      rwa [found] at barred

theorem isTransformable_barred (matched : matchType pattern ty = .ok true) {e : Engine}
    (excludes : Excludes pattern ty e) :
    Barred e.registries pattern ty (fun transformable => transformable = false)
      (e.isTransformable ty).1 := by
  have barred := explain_barred matched excludes
  simp only [isTransformable]
  cases explained : (e.explain ty).1 with
  | error failure =>
    rw [explained] at barred
    exact barred
  | ok decision =>
    rw [explained] at barred
    exact barred

theorem modeGiven_of_refused {e : Engine} {ty : TypeDescriptor}
    (remembered : ∀ mode, e.cache.mode? ty.name e.generation = some mode → mode = .notAdaptable) :
    (e.modeGiven ty false).1 = .ok .notAdaptable := by
  unfold modeGiven
  rw [Registries.mode_of_refused]
  split
  · rename_i mode known
    rw [remembered mode known]
  · rfl

theorem modeFor_barred (matched : matchType pattern ty = .ok true) {e : Engine}
    (excludes : Excludes pattern ty e) :
    Barred e.registries pattern ty (fun mode => mode = .notAdaptable) (e.modeFor ty).1 := by
  have barred := explain_barred matched excludes
  have after : Excludes pattern ty (e.explain ty).2 := by
    have steps : Steps (Eq ty) True e (e.explain ty).2 := explain_steps rfl e
    exact steps.preserve (step_excludes matched fun _ same _ => same.symm) excludes
  unfold modeFor
  split
  · rename_i mode known
    exact excludes.mode mode known
  · split
    · rename_i explained
      rwa [explained] at barred
    · rename_i decision e₁ explained
      rw [explained] at barred after
      have refused : decision.transformable = false := barred
      rw [refused, modeGiven_of_refused after.mode]
      rfl

/-- However a run goes on after a permanent exclude, a type that the pattern
matches is not accepted and has no other mode than not adaptable. A question
on it can only fail by another permanent exclude. -/
theorem run_barred (e : Engine) (matched : matchType pattern ty = .ok true)
    (calls : List AnyCall) (one : ∀ ty' ∈ typesAsked calls, ty'.name = ty.name → ty' = ty) :
    let later := (e.addPermanentExclude pattern).run calls
    Barred later.registries pattern ty (fun decision => decision.transformable = false)
        (later.explain ty).1 ∧
      Barred later.registries pattern ty (fun transformable => transformable = false)
        (later.isTransformable ty).1 ∧
      Barred later.registries pattern ty (fun mode => mode = .notAdaptable)
        (later.modeFor ty).1 := by
  have steps : Steps (· ∈ typesAsked calls) True (e.addPermanentExclude pattern)
      ((e.addPermanentExclude pattern).run calls) := run_steps calls _ fun _ member => member
  have excludes := steps.preserve (step_excludes matched one)
    (addPermanentExclude_excludes pattern ty e)
  exact ⟨explain_barred matched excludes, isTransformable_barred matched excludes,
    modeFor_barred matched excludes⟩

def vault : TypeDescriptor := .named (TypeName.ofString "acme.Vault")

/-- Everything that accepts a type is tried on the vault, after an answer. -/
def vaultClaimed : List AnyCall := [
  ⟨.explain vault⟩, ⟨.addInclude "acme.*" {}⟩, ⟨.addRewriter "acme.Vault" "acme.Rewriter"⟩,
  ⟨.addRoot { typeName := vault.name, fieldName := "keys" } true⟩, ⟨.modeFor vault⟩]

theorem vault_stays_barred :
    let later := ((ofOptions {}).addPermanentExclude "acme.Vault*").run vaultClaimed
    matchType "acme.Vault*" vault = .ok true ∧
      Barred later.registries "acme.Vault*" vault (fun decision => decision.transformable = false)
        (later.explain vault).1 ∧
      Barred later.registries "acme.Vault*" vault (fun mode => mode = .notAdaptable)
        (later.modeFor vault).1 := by
  have matched : matchType "acme.Vault*" vault = .ok true := by decide +kernel
  have one : ∀ ty ∈ typesAsked vaultClaimed, ty.name = vault.name → ty = vault := by
    decide +kernel
  obtain ⟨explained, -, moded⟩ := run_barred (ofOptions {}) matched vaultClaimed one
  exact ⟨matched, explained, moded⟩

end Engine

end ClassPolicy
