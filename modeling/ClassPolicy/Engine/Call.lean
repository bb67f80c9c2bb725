import ClassPolicy.Bootstrap
import ClassPolicy.Engine.Bundle

/-!
# Calls on an engine

The calls that can be made on an engine, with the type of their answers, and
what performing them gives. A call that stands for another one with some
arguments filled in, such as an autolock at a given level, is not listed apart,
and an update of a spec brings a list of edits. The generation and the number
of cached decisions are read off the engine itself. A run is a list of calls
performed one after the other; a call that fails does not end it.
-/

set_option autoImplicit false

namespace ClassPolicy

inductive Call : Type → Type 1
  | addInclude (pattern : String) (attributes : IncludeAttributes) : Call Unit
  | addExclude (pattern : String) : Call Unit
  | addRules (block : List Rule) : Call Unit
  | includeAndLock (ty : TypeDescriptor) (pattern : String) (attributes : IncludeAttributes)
      (lockPattern : String) : Call Bool
  | addPermanentExclude (pattern : String) : Call Unit
  | addNonPortable (pattern : String) : Call Unit
  | setAllowsDynamicSubtypes (allow : Bool) : Call Unit
  | allowsDynamicSubtypes : Call Bool
  | disposition (ty : TypeDescriptor) : Call Disposition
  | hasRules : Call Bool
  | hasRuleFor (ty : TypeDescriptor) : Call Bool
  | isNonPortable (ty : TypeDescriptor) : Call Bool
  | isNeverAdaptable (ty : TypeDescriptor) : Call Bool
  | addRewriter (name id : String) : Call Unit
  | removeRewriter (name : String) : Call (Option String)
  | hasRewriter (name : String) : Call Bool
  | rewriter (name : String) : Call (Option String)
  | addSpec (partition : Partition) (spec : ClassSpec) : Call Unit
  | addSpecIfAbsent (partition : Partition) (spec : ClassSpec) : Call Bool
  | getOrCreateSpec (name : String) : Call ClassSpec
  | getOrCreateLogicalSpec (name applicator : String) : Call ClassSpec
  | updateSpec (name : String) (edits : List SpecEdit) : Call ClassSpec
  | moveToLogical (name superName : String) : Call Unit
  | spec (name : String) : Call (Option ClassSpec)
  | hasSpec (name : String) : Call Bool
  | removeSpec (name : String) : Call (Option ClassSpec)
  | allSpecs (includeInventory : Bool) : Call (List ClassSpec)
  | markAllPreInstrumented : Call Unit
  | isLogical (name : String) : Call Bool
  | extending (name : String) : Call (Option TypeName)
  | changeApplicator (name : String) : Call (Option String)
  | addRoot (root : RootDefinition) (createSpec : Bool) : Call Unit
  | addRootForField (qualified : String) (rootName : Option String) : Call Unit
  | isRoot (typeName field : String) : Call Bool
  | root (typeName field : String) : Call (Option RootDefinition)
  | rootName (typeName field : String) : Call String
  | rootIsFinal (typeName field : String) (primitive : Bool) : Call Bool
  | missingRoots (ty : TypeDescriptor) : Call (List String)
  | allRoots : Call (List RootDefinition)
  | addLock (pattern : String) (definition : LockDefinition) : Call Unit
  | addAutolock (pattern : String) (level : LockLevel) (provenance : Option String) : Call Unit
  | addAutolockExclude (pattern : String) : Call Unit
  | locksFor (m : MemberDescriptor) : Call (List LockDefinition)
  | isLockMethod (m : MemberDescriptor) : Call Bool
  | autolockFor (m : MemberDescriptor) : Call (Option LockDefinition)
  | addDistributed (method : DistributedMethod) : Call Unit
  | distributedFor (m : MemberDescriptor) : Call (Option DistributedMethod)
  | addTransient (typeName field : String) : Call Unit
  | isTransient (modifiers : Modifiers) (ty : TypeDescriptor) (field : String) : Call Bool
  | isVolatile (modifiers : Modifiers) (ty : TypeDescriptor) : Call Bool
  | onLoad (ty : TypeDescriptor) : Call OnLoad
  | callsConstructorOnLoad (ty : TypeDescriptor) : Call Bool
  | onLoadMethod (ty : TypeDescriptor) : Call (Option String)
  | onLoadScript (ty : TypeDescriptor) : Call (Option String)
  | preCreate (name : String) : Call (Option String)
  | postCreate (name : String) : Call (Option String)
  | explain (ty : TypeDescriptor) : Call Adaptability
  | isTransformable (ty : TypeDescriptor) : Call Bool
  | modeFor (ty : TypeDescriptor) : Call TransformMode
  | decide (ty : TypeDescriptor) : Call Bundle
  | matchType (pattern : String) (ty : TypeDescriptor) : Call Bool
  | matchMember (pattern : String) (m : MemberDescriptor) : Call Bool
  | installBuiltins : Call Unit
  | applyPolicy (policy : PolicySettings) : Call Unit
  | mergeInventory (manifest : Manifest) : Call Nat
  | verifyInventory (manifest : Manifest) : Call InventoryReport

namespace Engine

variable {α : Type}

/-- The outcome of a call that cannot fail. -/
def answered (r : α × Engine) : Outcome α := (.ok r.1, r.2)

/-- The outcome of a call that only a pattern can make fail. -/
def asked (r : Except PatternError α × Engine) : Outcome α := (r.1.mapError .ofPattern, r.2)

def done (e : Engine) : Outcome Unit := (.ok (), e)

def perform : Call α → Engine → Outcome α
  | .addInclude pattern attributes, e => done (e.addInclude pattern attributes)
  | .addExclude pattern, e => done (e.addExclude pattern)
  | .addRules block, e => e.addRules block
  | .includeAndLock ty pattern attributes lockPattern, e =>
    e.includeAndLock ty pattern attributes lockPattern
  | .addPermanentExclude pattern, e => done (e.addPermanentExclude pattern)
  | .addNonPortable pattern, e => done (e.addNonPortable pattern)
  | .setAllowsDynamicSubtypes allow, e => done (e.setAllowsDynamicSubtypes allow)
  | .allowsDynamicSubtypes, e => answered (e.registries.rules.allowsDynamicSubtypes, e)
  | .disposition ty, e => asked (e.registries.rules.disposition ty, e)
  | .hasRules, e => answered (!e.registries.rules.rules.isEmpty, e)
  | .hasRuleFor ty, e =>
    asked ((e.registries.rules.disposition ty).map (fun d => d ≠ .noOpinion), e)
  | .isNonPortable ty, e => asked (e.registries.rules.isNonPortable ty, e)
  | .isNeverAdaptable ty, e => asked (e.registries.isNeverAdaptable ty, e)
  | .addRewriter name id, e => done (e.addRewriter name id)
  | .removeRewriter name, e => answered (e.removeRewriter name)
  | .hasRewriter name, e =>
    answered (e.registries.rewriters.contains (TypeName.ofString name).text, e)
  | .rewriter name, e => answered (e.registries.rewriters.get? (TypeName.ofString name).text, e)
  | .addSpec partition spec, e => e.addSpec partition spec
  | .addSpecIfAbsent partition spec, e => e.addSpecIfAbsent partition spec
  | .getOrCreateSpec name, e => answered (e.getOrCreateSpec name)
  | .getOrCreateLogicalSpec name applicator, e =>
    answered (e.getOrCreateLogicalSpec name applicator)
  | .updateSpec name edits, e => e.updateSpec name edits
  | .moveToLogical name superName, e => e.moveToLogical name superName
  | .spec name, e => answered (e.registries.specs.get? (TypeName.ofString name), e)
  | .hasSpec name, e => answered (e.registries.specs.contains (TypeName.ofString name), e)
  | .removeSpec name, e => answered (e.removeSpec name)
  | .allSpecs includeInventory, e => answered (e.registries.specs.all includeInventory, e)
  | .markAllPreInstrumented, e => done e.markAllPreInstrumented
  | .isLogical name, e => answered (e.registries.isLogical (TypeName.ofString name), e)
  | .extending name, e => answered (e.registries.extending (TypeName.ofString name), e)
  | .changeApplicator name, e =>
    answered (e.registries.changeApplicator (TypeName.ofString name), e)
  | .addRoot root createSpec, e => e.addRoot root createSpec
  | .addRootForField qualified rootName, e => e.addRootForField qualified rootName
  | .isRoot typeName field, e =>
    answered (e.registries.roots.isRoot (TypeName.ofString typeName) field, e)
  | .root typeName field, e =>
    answered (e.registries.roots.get? (TypeName.ofString typeName) field, e)
  | .rootName typeName field, e =>
    ((e.registries.roots.rootName typeName field).mapError .violation, e)
  | .rootIsFinal typeName field primitive, e =>
    ((e.registries.roots.isFinal typeName field primitive).mapError .violation, e)
  | .missingRoots ty, e => answered (e.registries.roots.missingDeclarations ty, e)
  | .allRoots, e => answered (e.registries.roots.all, e)
  | .addLock pattern definition, e => e.addLock pattern definition
  | .addAutolock pattern level provenance, e => e.addAutolock pattern level provenance
  | .addAutolockExclude pattern, e => done (e.addAutolockExclude pattern)
  | .locksFor m, e => (e.registries.locks.definitionsFor m, e)
  | .isLockMethod m, e => (e.registries.locks.isLockMethod m, e)
  | .autolockFor m, e => (e.registries.locks.autolockFor m, e)
  | .addDistributed method, e => done (e.addDistributed method)
  | .distributedFor m, e => asked (DistributedMethod.lookup e.registries.distributed m, e)
  | .addTransient typeName field, e => e.addTransient typeName field
  | .isTransient modifiers ty field, e => asked (e.registries.isTransient modifiers ty field, e)
  | .isVolatile modifiers ty, e => asked (e.registries.isVolatile modifiers ty, e)
  | .onLoad ty, e => asked (e.registries.onLoad ty, e)
  | .callsConstructorOnLoad ty, e =>
    asked ((e.registries.onLoad ty).map (·.callsConstructor), e)
  | .onLoadMethod ty, e => asked ((e.registries.onLoad ty).map (·.method?), e)
  | .onLoadScript ty, e => asked ((e.registries.onLoad ty).map (·.script?), e)
  | .preCreate name, e => answered (e.registries.preCreate (TypeName.ofString name), e)
  | .postCreate name, e => answered (e.registries.postCreate (TypeName.ofString name), e)
  | .explain ty, e => asked (e.explain ty)
  | .isTransformable ty, e => asked (e.isTransformable ty)
  | .modeFor ty, e => asked (e.modeFor ty)
  | .decide ty, e => asked (e.decide ty)
  | .matchType pattern ty, e => asked (ClassPolicy.matchType pattern ty, e)
  | .matchMember pattern m, e => asked (ClassPolicy.matchMember pattern m, e)
  | .installBuiltins, e => Builtins.install e
  | .applyPolicy policy, e => e.applyPolicy policy
  | .mergeInventory manifest, e => e.mergeInventory manifest
  | .verifyInventory manifest, e => answered (e.verifyInventory manifest)

end Engine

/-- A call together with the type of its answer. -/
structure AnyCall where
  {answer : Type}
  call : Call answer

def Engine.run (calls : List AnyCall) (e : Engine) : Engine :=
  calls.foldl (fun e c => (e.perform c.call).2) e

end ClassPolicy
