import ClassPolicy.Proofs.SpelledPolicy

/-!
# Calls in the dotted spelling

Spelled in a call are the type names given as texts, the type patterns, those
in member patterns included, and the type part of a qualified field. A
`TypeName` is dotted from the start. Lock names, the beginnings of internal
namespaces and the declared types of members and fields are plain texts and
stay as they are. Two kinds of answers repeat what was written: a failure its
texts, and the question for a distributed method the pattern it was registered
with. They too are put in the dotted spelling before they are compared.
-/

set_option autoImplicit false

namespace ClassPolicy

/-- A call with its type names and type patterns in the dotted spelling. -/
def Call.withDots : {α : Type} → Call α → Call α
  | _, .addInclude pattern attributes => .addInclude (dottedText pattern) attributes
  | _, .addExclude pattern => .addExclude (dottedText pattern)
  | _, .addRules block => .addRules (block.map Rule.withDots)
  | _, .includeAndLock ty pattern attributes lockPattern =>
    .includeAndLock ty (dottedText pattern) attributes (dottedMember lockPattern)
  | _, .addPermanentExclude pattern => .addPermanentExclude (dottedText pattern)
  | _, .addNonPortable pattern => .addNonPortable (dottedText pattern)
  | _, .addRewriter name id => .addRewriter (dottedText name) id
  | _, .removeRewriter name => .removeRewriter (dottedText name)
  | _, .hasRewriter name => .hasRewriter (dottedText name)
  | _, .rewriter name => .rewriter (dottedText name)
  | _, .getOrCreateSpec name => .getOrCreateSpec (dottedText name)
  | _, .getOrCreateLogicalSpec name applicator =>
    .getOrCreateLogicalSpec (dottedText name) applicator
  | _, .updateSpec name edits => .updateSpec (dottedText name) edits
  | _, .moveToLogical name superName => .moveToLogical (dottedText name) (dottedText superName)
  | _, .spec name => .spec (dottedText name)
  | _, .hasSpec name => .hasSpec (dottedText name)
  | _, .removeSpec name => .removeSpec (dottedText name)
  | _, .isLogical name => .isLogical (dottedText name)
  | _, .extending name => .extending (dottedText name)
  | _, .changeApplicator name => .changeApplicator (dottedText name)
  | _, .addRootForField qualified shown => .addRootForField (dottedField qualified) shown
  | _, .isRoot typeName field => .isRoot (dottedText typeName) field
  | _, .root typeName field => .root (dottedText typeName) field
  | _, .rootName typeName field => .rootName (dottedText typeName) field
  | _, .rootIsFinal typeName field primitive => .rootIsFinal (dottedText typeName) field primitive
  | _, .addLock pattern definition => .addLock (dottedMember pattern) definition
  | _, .addAutolock pattern level provenance => .addAutolock (dottedMember pattern) level provenance
  | _, .addAutolockExclude pattern => .addAutolockExclude (dottedMember pattern)
  | _, .addDistributed method => .addDistributed method.withDots
  | _, .addTransient typeName field => .addTransient (dottedText typeName) field
  | _, .preCreate name => .preCreate (dottedText name)
  | _, .postCreate name => .postCreate (dottedText name)
  | _, .matchType pattern ty => .matchType (dottedText pattern) ty
  | _, .matchMember pattern m => .matchMember (dottedMember pattern) m
  | _, .applyPolicy policy => .applyPolicy policy.withDots
  | _, c => c

/-! ### Answers -/

/-- What a call answers, together with the type of its answer. An answer about
distributed methods stands apart, since it repeats a pattern. -/
inductive Answer : Type 1
  | plain {α : Type} (result : Except Failure α)
  | distributed (result : Except Failure (Option DistributedMethod))

/-- An answer with the texts that a failure repeats, and the pattern of a
distributed method, in the dotted spelling. -/
def Answer.withDots : Answer → Answer
  | .plain result => .plain (result.mapError Failure.withDots)
  | .distributed result =>
    .distributed ((result.mapError Failure.withDots).map (Option.map DistributedMethod.withDots))

namespace Call

variable {α : Type}

/-- The answer of a call from what performing it gives. -/
def answer : {α : Type} → Call α → Except Failure α → Answer
  | _, .distributedFor _, result => .distributed result
  | _, _, result => .plain result

/-- The spelling of a call does not tell which kind of answer it has. -/
theorem answer_withDots (c : Call α) : c.withDots.answer = c.answer := by
  cases c <;> rfl

/-- The same answer and the same engine, up to the spelling of what they
repeat. -/
structure Alike (c : Call α) (o o' : Outcome α) : Prop where
  answer : (c.answer o.1).withDots = (c.answer o'.1).withDots
  engine : o.2.withDots = o'.2.withDots

theorem alike_of_eq {o o' : Outcome α} (same : Outcome.withDots o = Outcome.withDots o')
    (c : Call α) : c.Alike o o' where
  answer := by
    have results : o.1.mapError Failure.withDots = o'.1.mapError Failure.withDots :=
      congrArg Prod.fst same
    cases c <;> simp only [Call.answer, Answer.withDots, results]
  engine := congrArg Prod.snd same

end Call

namespace Engine

theorem asked_withDots {α : Type} (r : Except PatternError α × Engine) :
    asked (Prod.map (Except.mapError PatternError.withDots) withDots r) =
      Outcome.withDots (asked r) := by
  rcases r with ⟨error | a, e⟩ <;> rfl

/-- A question that only a pattern can make fail. -/
theorem asked_of_mapError {α : Type} {x y : Except PatternError α}
    (same : x = y.mapError PatternError.withDots) (e : Engine) :
    Outcome.withDots (asked (x, e.withDots)) = Outcome.withDots (asked (y, e)) :=
  Outcome.withDots_of_eq ((congrArg (fun x => asked (x, e.withDots)) same).trans
    (asked_withDots (y, e)))

/-- A question that breaks the contract when there is no such root. -/
theorem violating_of_mapError {α : Type} {x y : Except Violation α}
    (same : x = y.mapError Violation.withDots) (e : Engine) :
    Outcome.withDots (x.mapError .violation, e.withDots) =
      Outcome.withDots (y.mapError .violation, e) := by
  subst same
  cases y <;> simp [Except.mapError, Failure.withDots]

/-- A question that fails alike but for the spelling. -/
theorem failing_of_mapError {α : Type} {x y : Except Failure α}
    (same : x.mapError Failure.withDots = y.mapError Failure.withDots) (e : Engine) :
    Outcome.withDots (x, e.withDots) = Outcome.withDots (y, e) :=
  congrArg₂ Prod.mk same e.withDots_withDots

/-- What is answered without a look at the spelled texts. -/
theorem unspelled_withDots {α : Type} (answer : Except Failure α) (e : Engine) :
    Outcome.withDots (answer, e.withDots) = Outcome.withDots (answer, e) :=
  congrArg (Prod.mk _) e.withDots_withDots

/-- The pattern in the answer is spelled as it was registered. -/
theorem distributedFor_withDots (m : MemberDescriptor) (e : Engine) :
    (Call.distributedFor m).Alike (e.withDots.perform (.distributedFor m))
      (e.perform (.distributedFor m)) where
  answer := by
    have failures : ∀ x : Except PatternError (Option DistributedMethod),
        (x.mapError Failure.ofPattern).mapError Failure.withDots =
          (x.mapError PatternError.withDots).mapError .ofPattern := by
      rintro (_ | _) <;> rfl
    simp only [perform, withDots_registries, Registries.withDots_distributed, asked, Call.answer,
      Answer.withDots, failures, DistributedMethod.lookup_withDots]
    rcases DistributedMethod.lookup e.registries.distributed m with error | _ | method
    · rfl
    · rfl
    · simp [Except.mapError, Except.map]
  engine := e.withDots_withDots

/-- A call that does not ask for a distributed method does in the dotted
spelling to the engine in that spelling what it does, up to the spelling. -/
theorem perform_withDots_of_plain {α : Type} {c : Call α}
    (plain : ∀ result, c.answer result = .plain result) (e : Engine) :
    Outcome.withDots (e.withDots.perform c.withDots) = Outcome.withDots (e.perform c) := by
  cases c with
  | addRules block => exact Outcome.withDots_of_eq (addRules_withDots e block)
  | includeAndLock ty pattern attributes lockPattern =>
    exact Outcome.withDots_of_eq (includeAndLock_withDots e ty pattern attributes lockPattern)
  | setAllowsDynamicSubtypes allow =>
    exact Outcome.withDots_of_eq (congrArg done (setAllowsDynamicSubtypes_withDots e allow))
  | disposition ty => exact asked_of_mapError (e.registries.rules.disposition_withDots ty) e
  | hasRules =>
    simp only [perform, Call.withDots, withDots_registries, Registries.withDots_rules,
      RuleRegistry.withDots, List.isEmpty_map]
    exact unspelled_withDots _ e
  | hasRuleFor ty =>
    refine asked_of_mapError ?_ e
    simp only [withDots_registries, Registries.withDots_rules, RuleRegistry.disposition_withDots]
    cases e.registries.rules.disposition ty <;> rfl
  | isNonPortable ty => exact asked_of_mapError (e.registries.rules.isNonPortable_withDots ty) e
  | isNeverAdaptable ty => exact asked_of_mapError (e.registries.isNeverAdaptable_withDots ty) e
  | addRewriter name id =>
    simp only [perform, Call.withDots, addRewriter, ofString_dottedText]
    exact Outcome.withDots_of_eq rfl
  | removeRewriter name =>
    exact Outcome.withDots_of_eq (congrArg answered (removeRewriter_withDots e name))
  | hasRewriter name | rewriter name =>
    simp only [perform, Call.withDots, ofString_dottedText]
    exact unspelled_withDots _ e
  | addSpec partition spec => exact Outcome.withDots_of_eq (addSpec_withDots e partition spec)
  | addSpecIfAbsent partition spec =>
    exact Outcome.withDots_of_eq (addSpecIfAbsent_withDots e partition spec)
  | getOrCreateSpec name =>
    simp only [perform, Call.withDots, getOrCreateSpec, ofString_dottedText]
    exact Outcome.withDots_of_eq (congrArg answered (getOrCreate_withDots e _ _))
  | getOrCreateLogicalSpec name applicator =>
    simp only [perform, Call.withDots, getOrCreateLogicalSpec, ofString_dottedText]
    exact Outcome.withDots_of_eq (congrArg answered (getOrCreate_withDots e _ _))
  | updateSpec name edits => exact updateSpec_withDots e name edits
  | moveToLogical name superName =>
    exact Outcome.withDots_of_eq (moveToLogical_withDots e name superName)
  | spec name | hasSpec name | isLogical name | extending name | changeApplicator name
  | preCreate name | postCreate name =>
    simp only [perform, Call.withDots, ofString_dottedText]
    exact unspelled_withDots _ e
  | removeSpec name =>
    exact Outcome.withDots_of_eq (congrArg answered (removeSpec_withDots e name))
  | addRoot root createSpec => exact Outcome.withDots_of_eq (addRoot_withDots e root createSpec)
  | addRootForField qualified shown =>
    exact Outcome.withDots_of_eq (addRootForField_withDots e qualified shown)
  | isRoot typeName field | root typeName field =>
    simp only [perform, Call.withDots, ofString_dottedText]
    exact unspelled_withDots _ e
  | rootName typeName field =>
    exact violating_of_mapError (e.registries.roots.rootName_dottedText typeName field) e
  | rootIsFinal typeName field primitive =>
    exact violating_of_mapError
      (e.registries.roots.isFinal_dottedText typeName field primitive) e
  | addLock pattern definition =>
    exact Outcome.withDots_of_eq (addLock_withDots e pattern definition)
  | addAutolock pattern level provenance =>
    exact Outcome.withDots_of_eq (addAutolock_withDots e pattern level provenance)
  | addDistributed method =>
    exact Outcome.withDots_of_eq (congrArg done (addDistributed_withDots e method))
  | addAutolockExclude pattern =>
    exact Outcome.withDots_of_eq (congrArg done (addAutolockExclude_withDots e pattern))
  | locksFor m => exact failing_of_mapError (e.registries.locks.definitionsFor_withDots m) e
  | isLockMethod m => exact failing_of_mapError (e.registries.locks.isLockMethod_withDots m) e
  | autolockFor m => exact failing_of_mapError (e.registries.locks.autolockFor_withDots m) e
  | addTransient typeName field => exact addTransient_withDots e typeName field
  | isTransient modifiers ty field =>
    exact asked_of_mapError (e.registries.isTransient_withDots ty modifiers field) e
  | isVolatile modifiers ty =>
    exact asked_of_mapError (e.registries.isVolatile_withDots ty modifiers) e
  | onLoad ty => exact asked_of_mapError (e.registries.onLoad_withDots ty) e
  | callsConstructorOnLoad ty | onLoadMethod ty | onLoadScript ty =>
    refine asked_of_mapError ?_ e
    simp only [withDots_registries, Registries.onLoad_withDots, mapError_map]
  | explain ty =>
    exact Outcome.withDots_of_eq ((congrArg asked (explain_withDots ty e)).trans (asked_withDots _))
  | isTransformable ty =>
    exact Outcome.withDots_of_eq
      ((congrArg asked (isTransformable_withDots ty e)).trans (asked_withDots _))
  | modeFor ty =>
    exact Outcome.withDots_of_eq ((congrArg asked (modeFor_withDots ty e)).trans (asked_withDots _))
  | decide ty =>
    exact Outcome.withDots_of_eq ((congrArg asked (decide_withDots ty e)).trans (asked_withDots _))
  | matchType pattern ty => exact asked_of_mapError (matchType_dottedText pattern ty) e
  | matchMember pattern m =>
    have same := matchMember_dottedMember pattern m
    refine (asked_withDots (_, e.withDots)).symm.trans ?_
    simp only [Prod.map, same, withDots_withDots]
    exact asked_withDots (_, e)
  | installBuiltins => exact Outcome.withDots_of_eq (install_withDots e)
  | applyPolicy policy => exact Outcome.withDots_of_eq (applyPolicy_withDots policy e)
  | mergeInventory manifest =>
    exact Outcome.withDots_of_eq (addMissingSpecs_withDots e .inventory _)
  | distributedFor m => cases plain (.ok none)
  | _ => exact Outcome.withDots_of_eq rfl

/-- A call in the dotted spelling does to the engine in that spelling what the
call does, up to the spelling. -/
theorem perform_withDots {α : Type} (c : Call α) (e : Engine) :
    c.Alike (e.withDots.perform c.withDots) (e.perform c) := by
  cases c with
  | distributedFor m => exact distributedFor_withDots m e
  | _ => exact Call.alike_of_eq (perform_withDots_of_plain (fun _ => rfl) e) _

end Engine

end ClassPolicy
