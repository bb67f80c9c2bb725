import ClassPolicy.Proofs.SpelledMembers

/-!
# Decisions in the dotted spelling

What the registries decide commutes with the dotted spelling: with the patterns
of rules, locks and distributed methods in that spelling the answers are the
same, and the failures are the same with the texts they repeat in that
spelling. A distributed method is answered with its pattern, so there the answer
is put in that spelling too. Where a failure shows more than the spelled text,
both sides are put in the dotted spelling before they are compared.
-/

set_option autoImplicit false

namespace ClassPolicy

/-! ### Failures -/

def SettingsError.withDots : SettingsError → SettingsError
  | .unqualifiedField text => .unqualifiedField (dottedField text)
  | .reservedLockName expression => .reservedLockName (dottedMember expression)
  | .namedAutoSynchronized expression => .namedAutoSynchronized (dottedMember expression)
  | e => e

def LogicalMoveError.withDots : LogicalMoveError → LogicalMoveError
  | .noSpec superSpelling => .noSpec (dottedText superSpelling)
  | e => e

def PolicyError.withDots : PolicyError → PolicyError
  | .pattern e => .pattern e.withDots
  | .settings e => .settings e.withDots
  | .invalidFieldName name => .invalidFieldName (dottedField name)
  | .logicalMove e => .logicalMove e.withDots
  | e => e

def Violation.withDots : Violation → Violation
  | .noOpinionRule pattern => .noOpinionRule (dottedText pattern)
  | .noSuchRoot typeSpelling field => .noSuchRoot (dottedText typeSpelling) field
  | .lockUncommitted pattern => .lockUncommitted (dottedMember pattern)
  | v => v

/-- A failure with the texts it repeats in the dotted spelling. -/
def Failure.withDots : Failure → Failure
  | .error e => .error e.withDots
  | .violation v => .violation v.withDots

@[simp] theorem SettingsError.withDots_withDots (e : SettingsError) :
    e.withDots.withDots = e.withDots := by
  cases e <;> simp [withDots]

@[simp] theorem LogicalMoveError.withDots_withDots (e : LogicalMoveError) :
    e.withDots.withDots = e.withDots := by
  cases e <;> simp [withDots]

@[simp] theorem PolicyError.withDots_withDots (e : PolicyError) :
    e.withDots.withDots = e.withDots := by
  cases e <;> simp [withDots]

@[simp] theorem Violation.withDots_withDots (v : Violation) :
    v.withDots.withDots = v.withDots := by
  cases v <;> simp [withDots]

@[simp] theorem Failure.withDots_withDots (f : Failure) : f.withDots.withDots = f.withDots := by
  cases f <;> simp [withDots]

/-! ### Rules -/

@[simp] theorem Rule.withDots_withDots (rule : Rule) : rule.withDots.withDots = rule.withDots := by
  simp [withDots]

@[simp] theorem RuleRegistry.withDots_withDots (r : RuleRegistry) :
    r.withDots.withDots = r.withDots := by
  simp [withDots]

theorem RuleRegistry.prependBlock_withDots (block : List Rule) (r : RuleRegistry) :
    r.withDots.prependBlock (block.map Rule.withDots) =
      ((r.prependBlock block).mapError Violation.withDots).map withDots := by
  have opinion : (fun rule : Rule => decide (rule.disposition = .noOpinion)) ∘ Rule.withDots =
      fun rule => decide (rule.disposition = .noOpinion) := rfl
  simp only [prependBlock, List.find?_map, opinion]
  cases block.find? (fun rule => rule.disposition = .noOpinion) with
  | none => simp [withDots, Except.mapError, Except.map]
  | some rule => rfl

/-! ### Locks -/

def LockRule.withDots (rule : LockRule) : LockRule :=
  { rule with pattern := dottedMember rule.pattern }

namespace LockPolicy

def withDots (p : LockPolicy) : LockPolicy where
  rules := p.rules.map LockRule.withDots
  autolockExcludes := p.autolockExcludes.map dottedMember

@[simp] theorem withDots_withDots (p : LockPolicy) : p.withDots.withDots = p.withDots := by
  simp [withDots, LockRule.withDots]

theorem addAutolockExclude_withDots (pattern : String) (p : LockPolicy) :
    p.withDots.addAutolockExclude (dottedMember pattern) =
      (p.addAutolockExclude pattern).withDots := by
  simp [addAutolockExclude, withDots]

variable (m : MemberDescriptor)

theorem anyMatches_dottedMember (patterns : List String) :
    (anyMatches m (patterns.map dottedMember)).mapError PatternError.withDots =
      (anyMatches m patterns).mapError PatternError.withDots := by
  induction patterns with
  | nil => rfl
  | cons pattern rest ih =>
    simp only [List.map_cons, anyMatches]
    obtain ⟨here, spelled, given⟩ | ⟨e, e', spelled, given, same⟩ :=
      cases_of_mapError_eq (matchMember_dottedMember pattern m)
    · rw [spelled, given]
      cases here with
      | true => rfl
      | false => exact ih
    · rw [spelled, given]
      exact congrArg Except.error same

theorem collect_withDots (autolockOpen : Bool) (rules : List LockRule) :
    (collect m autolockOpen (rules.map LockRule.withDots)).mapError Failure.withDots =
      (collect m autolockOpen rules).mapError Failure.withDots := by
  induction rules generalizing autolockOpen with
  | nil => rfl
  | cons rule rest ih =>
    simp only [List.map_cons, collect, LockRule.withDots]
    obtain ⟨here, spelled, given⟩ | ⟨e, e', spelled, given, same⟩ :=
      cases_of_mapError_eq (matchMember_dottedMember rule.pattern m)
    · rw [spelled, given]
      cases here with
      | false => exact ih autolockOpen
      | true =>
        cases rule.definition.isAutolock with
        | error v => rfl
        | ok autolock =>
          cases autolock with
          | false => simp only [mapError_map, ih]
          | true =>
            simp only
            split_ifs <;> simp only [mapError_map, ih]
    · rw [spelled, given]
      exact congrArg (fun e => Except.error (Failure.error (.pattern e))) same

variable (p : LockPolicy)

theorem definitionsFor_withDots :
    (p.withDots.definitionsFor m).mapError Failure.withDots =
      (p.definitionsFor m).mapError Failure.withDots := by
  unfold definitionsFor isAutolockExcluded
  obtain ⟨excluded, spelled, given⟩ | ⟨e, e', spelled, given, same⟩ :=
    cases_of_mapError_eq (anyMatches_dottedMember m p.autolockExcludes)
  · rw [withDots, spelled, given]
    exact collect_withDots m (!excluded) p.rules
  · rw [withDots, spelled, given]
    exact congrArg (fun e => Except.error (Failure.error (.pattern e))) same

theorem isLockMethod_withDots :
    (p.withDots.isLockMethod m).mapError Failure.withDots =
      (p.isLockMethod m).mapError Failure.withDots := by
  unfold isLockMethod
  obtain ⟨definitions, spelled, given⟩ | ⟨e, e', spelled, given, same⟩ :=
    cases_of_mapError_eq (definitionsFor_withDots m p)
  · rw [spelled, given]
  · rw [spelled, given]
    exact congrArg Except.error same

theorem autolockFor_withDots :
    (p.withDots.autolockFor m).mapError Failure.withDots =
      (p.autolockFor m).mapError Failure.withDots := by
  unfold autolockFor
  obtain ⟨definitions, spelled, given⟩ | ⟨e, e', spelled, given, same⟩ :=
    cases_of_mapError_eq (definitionsFor_withDots m p)
  · rw [spelled, given]
  · rw [spelled, given]
    exact congrArg Except.error same

end LockPolicy

/-! ### Distributed methods -/

namespace DistributedMethod

def withDots (method : DistributedMethod) : DistributedMethod :=
  { method with pattern := dottedMember method.pattern }

@[simp] theorem withDots_withDots (method : DistributedMethod) :
    method.withDots.withDots = method.withDots := by
  simp [withDots]

variable (m : MemberDescriptor) (methods : List DistributedMethod)

/-- The first match is the same method, and it repeats its pattern. -/
theorem firstMatch_withDots :
    (firstMatch m (methods.map withDots)).mapError PatternError.withDots =
      ((firstMatch m methods).mapError PatternError.withDots).map (Option.map withDots) := by
  induction methods with
  | nil => rfl
  | cons method rest ih =>
    simp only [List.map_cons, firstMatch, withDots]
    obtain ⟨here, spelled, given⟩ | ⟨e, e', spelled, given, same⟩ :=
      cases_of_mapError_eq (matchMember_dottedMember method.pattern m)
    · rw [spelled, given]
      cases here with
      | true => rfl
      | false => exact ih
    · rw [spelled, given]
      exact congrArg Except.error same

theorem lookup_withDots :
    (lookup (methods.map withDots) m).mapError PatternError.withDots =
      ((lookup methods m).mapError PatternError.withDots).map (Option.map withDots) := by
  unfold lookup
  split_ifs
  · rfl
  · exact firstMatch_withDots m methods

end DistributedMethod

/-! ### Roots -/

/-- The type of a root is dotted already. -/
theorem RootDefinition.dottedField_qualifiedName (root : RootDefinition)
    (unnamed : root.fieldName.isEmpty = true) :
    dottedField root.qualifiedName = root.qualifiedName := by
  have cut : Text.cutLast? '.' root.qualifiedName.toList = some (root.typeName.text.toList, []) :=
    Text.cutLast?_eq_some_iff.2 ⟨by simp [qualifiedName, String.isEmpty_iff.1 unnamed], by simp⟩
  have spelled := congrArg String.toList (dottedText_of_noSlash root.typeName.noSlash)
  rw [toList_dottedText] at spelled
  apply String.toList_injective
  rw [toList_dottedField, dottedOwner_of_cut cut, spelled]
  simp [qualifiedName, String.isEmpty_iff.1 unnamed]

namespace RootRegistry

variable (r : RootRegistry) (typeSpelling field : String)

theorem require_dottedText :
    r.require (dottedText typeSpelling) field =
      (r.require typeSpelling field).mapError Violation.withDots := by
  simp only [require, ofString_dottedText]
  cases r.get? (TypeName.ofString typeSpelling) field <;> rfl

theorem rootName_dottedText :
    r.rootName (dottedText typeSpelling) field =
      (r.rootName typeSpelling field).mapError Violation.withDots := by
  simp only [rootName, require_dottedText]
  cases r.require typeSpelling field <;> rfl

theorem isFinal_dottedText (primitive : Bool) :
    r.isFinal (dottedText typeSpelling) field primitive =
      (r.isFinal typeSpelling field primitive).mapError Violation.withDots := by
  simp only [isFinal, require_dottedText]
  cases r.require typeSpelling field <;> rfl

end RootRegistry

/-! ### Modes -/

namespace ModeFacts

/-- The facts whose failures repeat patterns in the dotted spelling. -/
@[simps] def withDots (facts : ModeFacts) : ModeFacts :=
  { facts with
    isIncluded := fun ty => (facts.isIncluded ty).mapError PatternError.withDots
    isNonPortable := fun ty => (facts.isNonPortable ty).mapError PatternError.withDots }

theorem inherited_withDots (facts : ModeFacts) (ancestors : List TypeDescriptor) :
    facts.withDots.inherited ancestors =
      (facts.inherited ancestors).mapError PatternError.withDots := by
  induction ancestors with
  | nil => rfl
  | cons ancestor rest ih =>
    simp only [inherited_cons, ih, withDots_explicitMode, withDots_isNonPortable]
    split_ifs
    · rfl
    · cases facts.isNonPortable ancestor with
      | error e => rfl
      | ok listed => cases listed <;> rfl

theorem decide_withDots (facts : ModeFacts) (ty : TypeDescriptor) (transformable : Bool) :
    facts.withDots.decide ty transformable =
      (facts.decide ty transformable).mapError PatternError.withDots := by
  simp only [decide_eq, inherited_withDots, withDots_explicitMode, withDots_isLogical,
    withDots_isIncluded]
  split_ifs
  · rfl
  · rfl
  · rfl
  cases facts.isIncluded ty with
  | error e => rfl
  | ok included => cases included <;> rfl

end ModeFacts

/-! ### Registries -/

namespace Registries

/-- Registries with the patterns of rules, locks and distributed methods in the
dotted spelling. -/
@[simps] def withDots (r : Registries) : Registries :=
  { r with
    rules := r.rules.withDots
    locks := r.locks.withDots
    distributed := r.distributed.map DistributedMethod.withDots }

variable (r : Registries) (ty : TypeDescriptor)

@[simp] theorem isNestedInLogical_withDots (name : TypeName) :
    r.withDots.isNestedInLogical name = r.isNestedInLogical name := rfl

theorem adaptability_withDots :
    r.withDots.adaptability ty = (r.adaptability ty).mapError PatternError.withDots := by
  simp only [adaptability, withDots_rules, withDots_specs, withDots_roots, withDots_rewriters,
    isNestedInLogical_withDots, RuleRegistry.isInternal_withDots,
    RuleRegistry.allowsDynamicSubtypes_withDots, RuleRegistry.isPermanentlyExcluded_withDots,
    RuleRegistry.disposition_withDots]
  by_cases internal : r.rules.isInternal ty.name.text = true
  · rw [if_pos internal, if_pos internal]
    rfl
  rw [if_neg internal, if_neg internal]
  cases r.rules.isPermanentlyExcluded ty with
  | error e => rfl
  | ok excluded =>
    cases excluded with
    | true => rfl
    | false =>
      simp only [Except.mapError]
      split_ifs
      iterate 5 rfl
      cases r.rules.disposition ty with
      | error e => rfl
      | ok disposition => cases disposition <;> rfl

theorem mode_withDots (transformable : Bool) :
    r.withDots.mode ty transformable =
      (r.mode ty transformable).mapError PatternError.withDots := by
  have facts : r.withDots.modeFacts = r.modeFacts.withDots := by
    simp only [modeFacts, ModeFacts.withDots]
    congr 1
    · funext ty
      simp only [isIncluded, withDots_rules, RuleRegistry.disposition_withDots]
      cases r.rules.disposition ty <;> rfl
    · funext ty
      exact r.rules.isNonPortable_withDots ty
  rw [mode, facts]
  exact r.modeFacts.decide_withDots ty transformable

theorem isNeverAdaptable_withDots :
    r.withDots.isNeverAdaptable ty =
      (r.isNeverAdaptable ty).mapError PatternError.withDots := by
  simp only [isNeverAdaptable, withDots_rules, RuleRegistry.isInternal_withDots,
    RuleRegistry.isPermanentlyExcluded_withDots, RuleRegistry.isNonPortable_withDots]
  split_ifs
  · rfl
  cases r.rules.isPermanentlyExcluded ty with
  | error e => rfl
  | ok excluded => cases excluded <;> rfl

theorem attributesOf_withDots :
    r.withDots.attributesOf ty = (r.attributesOf ty).mapError PatternError.withDots := by
  simp only [attributesOf, withDots_rules, withDots_specs, RuleRegistry.disposition_withDots]
  cases r.rules.disposition ty <;> rfl

theorem isTransient_withDots (modifiers : Modifiers) (field : String) :
    r.withDots.isTransient modifiers ty field =
      (r.isTransient modifiers ty field).mapError PatternError.withDots := by
  simp only [isTransient, attributesOf_withDots, withDots_transients]
  cases r.attributesOf ty <;> rfl

theorem isVolatile_withDots (modifiers : Modifiers) :
    r.withDots.isVolatile modifiers ty =
      (r.isVolatile modifiers ty).mapError PatternError.withDots := by
  simp only [isVolatile, attributesOf_withDots]
  split_ifs
  · cases r.attributesOf ty <;> rfl
  · rfl

theorem onLoad_withDots :
    r.withDots.onLoad ty = (r.onLoad ty).mapError PatternError.withDots := by
  simp only [onLoad, attributesOf_withDots]
  cases r.attributesOf ty <;> rfl

end Registries

end ClassPolicy
