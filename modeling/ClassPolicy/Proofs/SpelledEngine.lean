import ClassPolicy.Proofs.SettingsChecks
import ClassPolicy.Proofs.SpelledDecisions

/-!
# The engine in the dotted spelling

What an engine decides and registers commutes with the dotted spelling: an
operation on the engine in that spelling, with its type names and patterns in
it too, gives what the operation gives, with the texts that a failure repeats
and the patterns that are kept in that spelling. Where a failure shows more
than the spelled text, both sides are put in the dotted spelling before they
are compared.
-/

set_option autoImplicit false

namespace ClassPolicy

@[simps] def Engine.withDots (e : Engine) : Engine := { e with registries := e.registries.withDots }

@[simp] theorem Engine.withDots_withDots (e : Engine) : e.withDots.withDots = e.withDots := by
  simp [withDots, Registries.withDots]

/-- What a call gives, with the texts of failures and patterns in the dotted
spelling. -/
def Outcome.withDots {α : Type} (o : Outcome α) : Outcome α :=
  (o.1.mapError Failure.withDots, o.2.withDots)

@[simp] theorem Outcome.withDots_ok {α : Type} (a : α) (e : Engine) :
    Outcome.withDots (.ok a, e) = (.ok a, e.withDots) := rfl

@[simp] theorem Outcome.withDots_error {α : Type} (f : Failure) (e : Engine) :
    Outcome.withDots (α := α) (.error f, e) = (.error f.withDots, e.withDots) := rfl

@[simp] theorem Outcome.withDots_withDots {α : Type} (o : Outcome α) :
    Outcome.withDots (Outcome.withDots o) = Outcome.withDots o := by
  rcases o with ⟨failure | a, e⟩ <;> simp

theorem Outcome.withDots_of_eq {α : Type} {o o' : Outcome α} (same : o' = Outcome.withDots o) :
    Outcome.withDots o' = Outcome.withDots o := by
  rw [same, withDots_withDots]

namespace Engine

/-! ### Calls one after the other -/

theorem thenWith_withDots {α β : Type} {first first' : Engine → Outcome α}
    {next next' : α → Engine → Outcome β}
    (one : ∀ e : Engine, first' e.withDots = Outcome.withDots (first e))
    (two : ∀ (a : α) (e : Engine), next' a e.withDots = Outcome.withDots (next a e))
    (e : Engine) : thenWith first' next' e.withDots = Outcome.withDots (thenWith first next e) := by
  simp only [thenWith, one]
  rcases first e with ⟨failure | a, e₁⟩
  · rfl
  · exact two a e₁

theorem andThen_withDots {first first' second second' : Engine → Outcome Unit}
    (one : ∀ e : Engine, first' e.withDots = Outcome.withDots (first e))
    (two : ∀ e : Engine, second' e.withDots = Outcome.withDots (second e)) (e : Engine) :
    andThen first' second' e.withDots = Outcome.withDots (andThen first second e) :=
  thenWith_withDots one (fun _ => two) e

theorem always_withDots {change change' : Engine → Engine}
    (each : ∀ e : Engine, change' e.withDots = (change e).withDots) (e : Engine) :
    always change' e.withDots = Outcome.withDots (always change e) :=
  congrArg (Prod.mk _) (each e)

theorem forEach_withDots {β : Type} {call : β → Engine → Outcome Unit} {s : β → β}
    (each : ∀ (b : β) (e : Engine), call (s b) e.withDots = Outcome.withDots (call b e))
    (items : List β) (e : Engine) :
    forEach call (items.map s) e.withDots = Outcome.withDots (forEach call items e) := by
  induction items generalizing e with
  | nil => rfl
  | cons b rest ih =>
    rw [List.map_cons, forEach_cons, forEach_cons]
    exact andThen_withDots (each b) ih e

/-! ### Decisions -/

@[simp] theorem generation_withDots (e : Engine) : e.withDots.generation = e.generation := rfl

section Decisions

variable (ty : TypeDescriptor) (e : Engine)

theorem rememberDecision_withDots (decision : Adaptability) :
    e.withDots.rememberDecision ty decision = (e.rememberDecision ty decision).withDots := by
  simp only [rememberDecision]
  split <;> rfl

theorem explain_withDots :
    e.withDots.explain ty =
      Prod.map (Except.mapError PatternError.withDots) withDots (e.explain ty) := by
  simp only [explain, withDots_cache, withDots_registries, generation_withDots,
    Registries.adaptability_withDots]
  cases e.cache.decision? ty.name e.generation with
  | some decision => rfl
  | none =>
    cases e.registries.adaptability ty with
    | error error => rfl
    | ok decision => exact congrArg (Prod.mk _) (rememberDecision_withDots ty e decision)

theorem isTransformable_withDots :
    e.withDots.isTransformable ty =
      Prod.map (Except.mapError PatternError.withDots) withDots (e.isTransformable ty) := by
  simp only [isTransformable, explain_withDots]
  rcases e.explain ty with ⟨error | decision, e₁⟩ <;> rfl

theorem modeGiven_withDots (transformable : Bool) :
    e.withDots.modeGiven ty transformable =
      Prod.map (Except.mapError PatternError.withDots) withDots
        (e.modeGiven ty transformable) := by
  simp only [modeGiven, withDots_cache, withDots_registries, generation_withDots,
    Registries.mode_withDots]
  cases e.cache.mode? ty.name e.generation with
  | some mode => rfl
  | none => cases e.registries.mode ty transformable <;> rfl

theorem modeFor_withDots :
    e.withDots.modeFor ty =
      Prod.map (Except.mapError PatternError.withDots) withDots (e.modeFor ty) := by
  simp only [modeFor, withDots_cache, generation_withDots, explain_withDots]
  cases e.cache.mode? ty.name e.generation with
  | some mode => rfl
  | none =>
    rcases e.explain ty with ⟨error | decision, e₁⟩
    · rfl
    · exact modeGiven_withDots ty e₁ decision.transformable

theorem decide_withDots :
    e.withDots.decide ty =
      Prod.map (Except.mapError PatternError.withDots) withDots (e.decide ty) := by
  simp only [decide, explain_withDots]
  rcases e.explain ty with ⟨error | decision, e₁⟩
  · rfl
  simp only [Prod.map, Except.mapError, modeGiven_withDots]
  rcases e₁.modeGiven ty decision.transformable with ⟨error | mode, e₂⟩
  · rfl
  simp only [Except.mapError, withDots_registries, Registries.withDots_rules,
    RuleRegistry.disposition_withDots]
  cases e₂.registries.rules.disposition ty <;> rfl

end Decisions

/-! ### Registrations -/

section Registrations

variable (e : Engine)

theorem setAllowsDynamicSubtypes_withDots (allow : Bool) :
    e.withDots.setAllowsDynamicSubtypes allow = (e.setAllowsDynamicSubtypes allow).withDots := by
  simp only [setAllowsDynamicSubtypes, apply_ite withDots]
  rfl

theorem addRules_withDots (block : List Rule) :
    e.withDots.addRules (block.map Rule.withDots) = Outcome.withDots (e.addRules block) := by
  simp only [addRules, List.isEmpty_map, withDots_registries, Registries.withDots_rules,
    RuleRegistry.prependBlock_withDots]
  split_ifs
  · rfl
  · cases e.registries.rules.prependBlock block <;> rfl

theorem includeAndLock_withDots (ty : TypeDescriptor) (pattern : String)
    (attributes : IncludeAttributes) (lockPattern : String) :
    e.withDots.includeAndLock ty (dottedText pattern) attributes (dottedMember lockPattern) =
      Outcome.withDots (e.includeAndLock ty pattern attributes lockPattern) := by
  simp only [includeAndLock_eq, withDots_registries, Registries.withDots_specs,
    Registries.withDots_rules, RuleRegistry.disposition_withDots]
  split_ifs
  · rfl
  · cases e.registries.rules.disposition ty with
    | error error => rfl
    | ok disposition => cases disposition <;> rfl

theorem removeRewriter_withDots (name : String) :
    e.withDots.removeRewriter (dottedText name) =
      Prod.map id withDots (e.removeRewriter name) := by
  simp only [removeRewriter, ofString_dottedText, withDots_registries,
    Registries.withDots_rewriters]
  split <;> rfl

theorem addSpec_withDots (partition : Partition) (spec : ClassSpec) :
    e.withDots.addSpec partition spec = Outcome.withDots (e.addSpec partition spec) := by
  simp only [addSpec, SpecStore.insert, withDots_registries, Registries.withDots_specs]
  split_ifs <;> rfl

theorem addSpecIfAbsent_withDots (partition : Partition) (spec : ClassSpec) :
    e.withDots.addSpecIfAbsent partition spec =
      Outcome.withDots (e.addSpecIfAbsent partition spec) := by
  simp only [addSpecIfAbsent, withDots_registries, Registries.withDots_specs]
  rcases e.registries.specs.lookup_cases spec.name with found | ⟨both, -⟩
  · rw [found]
    cases e.registries.specs.get? spec.name with
    | some held => rfl
    | none =>
      exact thenWith_withDots (fun e => addSpec_withDots e partition spec) (fun _ _ => rfl) e
  · rw [both]
    rfl

theorem addMissingSpecs_withDots (partition : Partition) (specs : List ClassSpec) :
    e.withDots.addMissingSpecs partition specs =
      Outcome.withDots (e.addMissingSpecs partition specs) := by
  induction specs generalizing e with
  | nil => rfl
  | cons spec rest ih =>
    refine thenWith_withDots (fun e => addSpecIfAbsent_withDots e partition spec) (fun _ e => ?_) e
    exact thenWith_withDots ih (fun _ _ => rfl) e

theorem getOrCreate_withDots (name : TypeName) (make : ClassSpec) :
    e.withDots.getOrCreate name make = Prod.map id withDots (e.getOrCreate name make) := by
  simp only [getOrCreate, withDots_registries, Registries.withDots_specs]
  split <;> rfl

/-- An edit is given its own texts, so only what it leaves is compared. -/
theorem updateSpec_withDots (name : String) (edits : List SpecEdit) :
    Outcome.withDots (e.withDots.updateSpec (dottedText name) edits) =
      Outcome.withDots (e.updateSpec name edits) := by
  simp only [updateSpec, ofString_dottedText, withDots_registries, Registries.withDots_specs]
  split <;> simp [refused, withSpecs, register, Engine.withDots, Registries.withDots]

theorem moveToLogical_withDots (name superName : String) :
    e.withDots.moveToLogical (dottedText name) (dottedText superName) =
      Outcome.withDots (e.moveToLogical name superName) := by
  simp only [moveToLogical, ofString_dottedText, withDots_registries, Registries.withDots_specs]
  cases e.registries.specs.get? (TypeName.ofString superName) with
  | none => rfl
  | some superSpec =>
    rcases e.registries.specs.getOrInsert (TypeName.ofString name) (.ofName (.ofString name))
      with ⟨spec, specs⟩
    simp only [ClassSpec.moveToLogical]
    cases superSpec.logical <;> rfl

theorem removeSpec_withDots (name : String) :
    e.withDots.removeSpec (dottedText name) = Prod.map id withDots (e.removeSpec name) := by
  simp only [removeSpec, ofString_dottedText, withDots_registries, Registries.withDots_specs]
  split <;> rfl

theorem addRoot_withDots (root : RootDefinition) (createSpec : Bool) :
    e.withDots.addRoot root createSpec = Outcome.withDots (e.addRoot root createSpec) := by
  simp only [addRoot, RootRegistry.add, withDots_registries, Registries.withDots_roots]
  by_cases unnamed : root.fieldName.isEmpty = true
  · simp [unnamed, refused, Failure.withDots, PolicyError.withDots,
      root.dottedField_qualifiedName unnamed]
  · simp only [unnamed, Bool.false_eq_true, if_false]
    split_ifs <;> rfl

theorem addLock_withDots (pattern : String) (definition : LockDefinition) :
    e.withDots.addLock (dottedMember pattern) definition =
      Outcome.withDots (e.addLock pattern definition) := by
  simp only [addLock, LockPolicy.add, withDots_registries, Registries.withDots_locks]
  split_ifs <;> rfl

theorem addAutolock_withDots (pattern : String) (level : LockLevel)
    (provenance : Option String) :
    e.withDots.addAutolock (dottedMember pattern) level provenance =
      Outcome.withDots (e.addAutolock pattern level provenance) := by
  rw [addAutolock_eq, addAutolock_eq]
  rfl

theorem addDistributed_withDots (method : DistributedMethod) :
    e.withDots.addDistributed method.withDots = (e.addDistributed method).withDots := by
  simp [addDistributed, adjust, Engine.withDots, Registries.withDots]

theorem addAutolockExclude_withDots (pattern : String) :
    e.withDots.addAutolockExclude (dottedMember pattern) =
      (e.addAutolockExclude pattern).withDots := by
  simp only [addAutolockExclude, withLocks, adjust, Engine.withDots, Registries.withDots,
    LockPolicy.addAutolockExclude_withDots]

theorem addRootForField_withDots (qualified : String) (rootName : Option String) :
    e.withDots.addRootForField (dottedField qualified) rootName =
      Outcome.withDots (e.addRootForField qualified rootName) := by
  simp only [addRootForField, splitField_dottedField]
  cases splitField qualified with
  | error error => rfl
  | ok parts => simp only [ofString_dottedText, addRoot_withDots]

theorem addTransient_of_filled {typeName field : String}
    (filled : (typeName.isEmpty || field.isEmpty) = false) :
    e.withDots.addTransient (dottedText typeName) field =
      Outcome.withDots (e.addTransient typeName field) := by
  simp only [addTransient, isEmpty_dottedText, ofString_dottedText, filled, Bool.false_eq_true,
    if_false]
  rfl

/-- Without a type or a field the error shows the two as they were given. -/
theorem addTransient_withDots (typeName field : String) :
    Outcome.withDots (e.withDots.addTransient (dottedText typeName) field) =
      Outcome.withDots (e.addTransient typeName field) := by
  cases filled : typeName.isEmpty || field.isEmpty with
  | false => rw [addTransient_of_filled e filled, Outcome.withDots_withDots]
  | true =>
    simp [addTransient, filled, refused, Failure.withDots, PolicyError.withDots,
      dottedField_append]

end Registrations

end Engine

end ClassPolicy
