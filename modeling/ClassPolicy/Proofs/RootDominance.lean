import ClassPolicy.Proofs.LogicalNesting

/-!
# Roots along a run

Nothing takes a root away, and for a type that is not nested only the
namespaces of the runtime and the permanent excludes are asked before its
roots. So from the registration of a root on, these two alone settle the type,
whatever is registered or removed besides. Registering a root starts a
generation; what is remembered of the type later was settled in the same way.
-/

set_option autoImplicit false

namespace ClassPolicy

/-- How a type that declares a root is settled. Of the permanent excludes the
first that does not merely miss the type counts. -/
inductive RootVerdict (rules : RuleRegistry) (ty : TypeDescriptor) :
    Except PatternError Adaptability → Prop
  | internal (inside : rules.isInternal ty.name.text = true) :
      RootVerdict rules ty (.ok (.refuse .internalNamespace))
  | excluded {before after : List String} {pattern : String}
      (outside : rules.isInternal ty.name.text = false)
      (listed : rules.permanentExcludes = before ++ pattern :: after)
      (missed : ∀ p ∈ before, matchType p ty = .ok false)
      (matched : matchType pattern ty = .ok true) :
      RootVerdict rules ty (.ok (.refuse .permanentlyExcluded))
  | failed {before after : List String} {pattern : String} {error : PatternError}
      (outside : rules.isInternal ty.name.text = false)
      (listed : rules.permanentExcludes = before ++ pattern :: after)
      (missed : ∀ p ∈ before, matchType p ty = .ok false)
      (fails : matchType pattern ty = .error error) : RootVerdict rules ty (.error error)
  | rooted (outside : rules.isInternal ty.name.text = false)
      (missed : ∀ p ∈ rules.permanentExcludes, matchType p ty = .ok false) :
      RootVerdict rules ty (.ok (.accept .declaresRoot))

theorem TypeDescriptor.not_isDynamicSubtype_of_flat {ty : TypeDescriptor}
    (flat : '$' ∉ ty.name.text.toList) : ty.isDynamicSubtype = false := by
  rw [← Bool.not_eq_true, TypeDescriptor.isDynamicSubtype, Text.occursIn_iff]
  exact fun marked => flat (marked.subset (by decide))

namespace Registries

variable {r : Registries} {ty : TypeDescriptor}

/-- The steps between the guards and the roots do not concern a type without a
`$` in its name. -/
theorem adaptability_of_unguarded (flat : '$' ∉ ty.name.text.toList)
    (rooted : r.roots.hasRoots ty.name = true) (outside : r.rules.isInternal ty.name.text = false)
    (missed : r.rules.isPermanentlyExcluded ty = .ok false) :
    r.adaptability ty = .ok (.accept .declaresRoot) := by
  have single : ty.isDynamicSubtype = false := TypeDescriptor.not_isDynamicSubtype_of_flat flat
  have outermost : r.isNestedInLogical ty.name = false := by
    simp [isNestedInLogical, TypeName.outer_of_flat (TypeName.isNested_eq_false_iff.2 flat)]
  simp [adaptability, outside, missed, single, outermost, rooted]

theorem rootVerdict_adaptability (flat : '$' ∉ ty.name.text.toList)
    (rooted : r.roots.hasRoots ty.name = true) : RootVerdict r.rules ty (r.adaptability ty) := by
  cases inside : r.rules.isInternal ty.name.text with
  | true =>
    have refused : r.adaptability ty = .ok (.refuse .internalNamespace) := by
      simp [adaptability, inside]
    rw [refused]
    exact .internal inside
  | false =>
    cases asked : r.rules.isPermanentlyExcluded ty with
    | error e =>
      obtain ⟨before, p, after, listed, missed, fails⟩ :=
        (RuleRegistry.anyMatches_eq_iff_first (by simp)).1 asked
      have failed : r.adaptability ty = .error e := by simp [adaptability, inside, asked]
      rw [failed]
      exact .failed inside listed missed fails
    | ok here =>
      cases here with
      | true =>
        obtain ⟨before, p, after, listed, missed, matched⟩ :=
          (RuleRegistry.anyMatches_eq_iff_first (by simp)).1 asked
        have refused : r.adaptability ty = .ok (.refuse .permanentlyExcluded) := by
          simp [adaptability, inside, asked]
        rw [refused]
        exact .excluded inside listed missed matched
      | false =>
        rw [adaptability_of_unguarded flat rooted inside asked]
        exact .rooted inside (RuleRegistry.anyMatches_eq_ok_false_iff.1 asked)

theorem adaptability_of_rootVerdict (flat : '$' ∉ ty.name.text.toList)
    (rooted : r.roots.hasRoots ty.name = true) {answer : Except PatternError Adaptability}
    (verdict : RootVerdict r.rules ty answer) : r.adaptability ty = answer := by
  cases verdict with
  | internal inside => simp [adaptability, inside]
  | excluded outside listed missed matched =>
    have asked : r.rules.isPermanentlyExcluded ty = .ok true :=
      (RuleRegistry.anyMatches_eq_iff_first (by simp)).2 ⟨_, _, _, listed, missed, matched⟩
    simp [adaptability, outside, asked]
  | @failed _ _ _ error outside listed missed fails =>
    have asked : r.rules.isPermanentlyExcluded ty = .error error :=
      (RuleRegistry.anyMatches_eq_iff_first (by simp)).2 ⟨_, _, _, listed, missed, fails⟩
    simp [adaptability, outside, asked]
  | rooted outside missed =>
    exact adaptability_of_unguarded flat rooted outside
      (RuleRegistry.anyMatches_eq_ok_false_iff.2 missed)

theorem adaptability_of_root (flat : '$' ∉ ty.name.text.toList)
    (rooted : r.roots.hasRoots ty.name = true) {answer : Except PatternError Adaptability} :
    r.adaptability ty = answer ↔ RootVerdict r.rules ty answer :=
  ⟨fun settled => settled ▸ rootVerdict_adaptability flat rooted,
    adaptability_of_rootVerdict flat rooted⟩

theorem change_hasRoots {name : TypeName} (r r' : Registries) (change : r.Change r')
    (rooted : r.roots.hasRoots name = true) : r'.roots.hasRoots name = true := by
  cases change with
  | aside change => cases change <;> exact rooted
  | root root roots added =>
    obtain ⟨field, definition, found⟩ := RootRegistry.hasRoots_iff.1 rooted
    refine RootRegistry.hasRoots_iff.2 ⟨field, ?_⟩
    rw [RootRegistry.get?_add added]
    split
    · exact ⟨root, rfl⟩
    · exact ⟨definition, found⟩
  | _ => exact rooted

end Registries

namespace Engine

/-- The type declares a root, and what is remembered of it is settled as for
such a type. -/
structure Rooted (ty : TypeDescriptor) (e : Engine) : Prop where
  root : e.registries.roots.hasRoots ty.name = true
  decision : ∀ decision, e.cache.decision? ty.name e.generation = some decision →
    RootVerdict e.registries.rules ty (.ok decision)

variable {asked : TypeDescriptor → Prop} {ty : TypeDescriptor}

theorem addRoot_rooted {root : RootDefinition} {createSpec : Bool} {e : Engine}
    (owner : root.typeName = ty.name) (added : (e.addRoot root createSpec).1 = .ok ()) :
    Rooted ty (e.addRoot root createSpec).2 := by
  unfold addRoot at added ⊢
  split at added
  · cases added
  · rename_i roots found
    have own : roots.get? ty.name root.fieldName = some root := by
      simp [RootRegistry.get?_add found, owner]
    exact ⟨RootRegistry.hasRoots_iff.2 ⟨root.fieldName, root, own⟩, nofun⟩

theorem step_rooted (flat : '$' ∉ ty.name.text.toList)
    (one : ∀ ty', asked ty' → ty'.name = ty.name → ty' = ty) (e e' : Engine)
    (step : Step asked True e e') (rooted : Rooted ty e) : Rooted ty e' := by
  cases step with
  | registered changes =>
    exact ⟨kept_along (P := fun r => r.roots.hasRoots ty.name = true)
      Registries.change_hasRoots changes rooted.root, nofun⟩
  | adjusted change => cases change <;> exact ⟨rooted.root, rooted.decision⟩
  | stranded allowed absent => exact ⟨rooted.root, rooted.decision⟩
  | @decided ty₀ decision₀ ask₀ unknown₀ found₀ =>
    refine ⟨by rw [registries_rememberDecision]; exact rooted.root, fun decision known => ?_⟩
    rw [registries_rememberDecision]
    rw [generation_rememberDecision, decision?_rememberDecision] at known
    split at known
    · rename_i same
      cases one ty₀ ask₀ same.symm
      cases known
      exact (Registries.adaptability_of_root flat rooted.root).1 found₀
    · exact rooted.decision decision known
  | moded ask known found =>
    refine ⟨rooted.root, fun decision stored => ?_⟩
    rw [generation_rememberMode, decision?_rememberMode] at stored
    exact rooted.decision decision stored
  | reported diagnostics => exact ⟨rooted.root, rooted.decision⟩

theorem explain_of_rooted (flat : '$' ∉ ty.name.text.toList) {e : Engine} (rooted : Rooted ty e)
    {answer : Except PatternError Adaptability} :
    (e.explain ty).1 = answer ↔ RootVerdict e.registries.rules ty answer := by
  rw [← Registries.adaptability_of_root flat rooted.root]
  unfold explain
  split
  · rename_i decision known
    rw [(Registries.adaptability_of_root flat rooted.root).2 (rooted.decision decision known)]
  · split
    · rename_i found
      rw [found]
    · rename_i found
      rw [found]

/-- However a run goes on after a root of a type has been registered, the type
is accepted for its root, unless a namespace of the runtime holds its name or
the first permanent exclude that does not miss it refuses or fails. -/
theorem run_rooted (e : Engine) {root : RootDefinition} {createSpec : Bool}
    (owner : root.typeName = ty.name) (flat : '$' ∉ ty.name.text.toList)
    (added : (e.addRoot root createSpec).1 = .ok ()) (calls : List AnyCall)
    (one : ∀ ty' ∈ typesAsked calls, ty'.name = ty.name → ty' = ty)
    (answer : Except PatternError Adaptability) :
    let later := (e.addRoot root createSpec).2.run calls
    (later.explain ty).1 = answer ↔ RootVerdict later.registries.rules ty answer := by
  have steps : Steps (· ∈ typesAsked calls) True (e.addRoot root createSpec).2
      ((e.addRoot root createSpec).2.run calls) := run_steps calls _ fun _ member => member
  exact explain_of_rooted flat (steps.preserve (step_rooted flat one) (addRoot_rooted owner added))

def depot : TypeDescriptor := .named (TypeName.ofString "acme.Depot")

def shelves : RootDefinition := { typeName := depot.name, fieldName := "shelves" }

/-- Everything that could refuse the depot or fail on it is tried, after an
answer. -/
def depotContested : List AnyCall := [
  ⟨.explain depot⟩, ⟨.addExclude "acme.*"⟩, ⟨.addInclude "acme.(" {}⟩,
  ⟨.addPermanentExclude "org..*"⟩, ⟨.removeSpec "acme.Depot"⟩, ⟨.modeFor depot⟩,
  ⟨.addRoot { typeName := depot.name, fieldName := "keys" } false⟩]

theorem depot_stays_rooted :
    let later := ((ofOptions {}).addRoot shelves true).2.run depotContested
    (later.explain depot).1 = .ok (.accept .declaresRoot) := by
  have added : ((ofOptions {}).addRoot shelves true).1 = .ok () := by decide +kernel
  have flat : '$' ∉ depot.name.text.toList := by decide +kernel
  have one : ∀ ty ∈ typesAsked depotContested, ty.name = depot.name → ty = depot := by
    decide +kernel
  refine (run_rooted (ofOptions {}) rfl flat added depotContested one _).2 (.rooted ?_ ?_)
  · decide +kernel
  · decide +kernel

end Engine

end ClassPolicy
