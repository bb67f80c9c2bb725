import ClassPolicy.Builtins
import ClassPolicy.Settings.Source

/-!
# From settings to an engine

The built-in defaults come first, then the policy of the settings, then the
types of the inventory, so that what is configured goes before what is built
in. The include and exclude entries go in as one block, and the first entry of
the file is the first one consulted.
-/

set_option autoImplicit false

namespace ClassPolicy

def LoadAction.toOnLoad : LoadAction → OnLoad
  | .callConstructor => .callConstructor
  | .method name => .method name
  | .script source => .script source

def ClassEntry.rule (entry : ClassEntry) : Rule :=
  match entry.kind with
  | .exclusion => .excluding entry.expression
  | .inclusion => .including entry.expression
    { honorTransient := entry.honorTransient
      honorVolatile := entry.honorVolatile
      onLoad := (entry.onLoad.map LoadAction.toOnLoad).getD .none }

/-- The definition of a lock entry, completed. -/
def LockEntry.build (entry : LockEntry) : Except Violation LockDefinition :=
  let level : LockLevel := ⟨entry.mode, false⟩
  let opened : LockDefinition := match entry.name with
    | some name => .named name level
    | none => .autolock (if entry.autoSynchronized then level.autoVariant else level)
  opened.complete entry.provenance

/-- The manifest found at a path. -/
def Manifest.ofFile (path : String) (file : FileContent) : Except PolicyError Manifest :=
  match file with
  | .text content =>
    match Manifest.ofText? content with
    | some manifest => .ok manifest
    | none => .error (.inventoryUnreadable path)
  | _ => .error (.inventoryUnreadable path)

namespace Engine

def addLockEntry (entry : LockEntry) (e : Engine) : Outcome Unit :=
  e.addBuiltLock entry.expression entry.build

def addRootEntry (entry : RootEntry) (e : Engine) : Outcome Unit :=
  match splitField entry.field with
  | .error error => e.refused (.settings error)
  | .ok (typeName, fieldName) =>
    let root : RootDefinition :=
      { typeName := TypeName.ofString typeName
        fieldName
        rootName := entry.name
        isFinal := entry.isFinal }
    e.addRoot root false

def addTransientField (qualified : String) (e : Engine) : Outcome Unit :=
  match splitField qualified with
  | .error error => e.refused (.settings error)
  | .ok (typeName, field) => e.addTransient typeName field

/-- Registers a policy. When a root is a duplicate, what was registered before
it stays. -/
def applyPolicy (policy : PolicySettings) (e : Engine) : Outcome Unit :=
  match policy.validate with
  | .error error => e.refused (.settings error)
  | .ok () =>
    andThen (addRules (policy.instrumentedClasses.map ClassEntry.rule))
      (andThen (always fun e =>
        let e := policy.permanentExcludes.foldl (fun e p => e.addPermanentExclude p) e
        policy.nonPortable.foldl (fun e p => e.addNonPortable p) e)
      (andThen (forEach addLockEntry policy.locks)
      (andThen (always fun e =>
        policy.autolockExcludes.foldl (fun e p => e.addAutolockExclude p) e)
      (andThen (forEach addRootEntry policy.roots)
      (andThen (forEach addTransientField policy.transientFields)
      (always fun e =>
        let e := policy.distributedMethods.foldl
          (fun e entry => e.addDistributed ⟨entry.expression, entry.runOnAllNodes⟩) e
        let e := policy.customRewriters.entries.foldl (fun e p => e.addRewriter p.1 p.2) e
        if policy.allowDynamicSubtypes then e.setAllowsDynamicSubtypes true else e)))))) e

/-- Checks the live specs against a manifest. -/
def requireInventory (manifest : Manifest) (e : Engine) : Outcome Unit :=
  let (found, e) := e.verifyInventory manifest
  match found.requireComplete with
  | .error error => e.refused error
  | .ok _ => (.ok (), e)

/-- Takes in the inventory that the settings name, if they name one. `file` is
what is found at the path of its manifest. -/
def admitInventory (settings : InventorySettings) (file : FileContent) (e : Engine) :
    Outcome Unit :=
  match settings.manifestPath with
  | none => (.ok (), e)
  | some path =>
    match Manifest.ofFile path file with
    | .error error => e.refused error
    | .ok manifest =>
      thenWith (mergeInventory manifest)
        (fun _ => if settings.verifyOnStart then requireInventory manifest else always id) e

def reportReady (e : Engine) : Engine :=
  e.report [.engineReady (e.registries.specs.all true).length e.registries.roots.all.length]

/-- The engine that settings describe. `manifest` is what is found at the path
of the inventory manifest. -/
def bootstrap (settings : Settings) (manifest : FileContent) : Outcome Unit :=
  let e := ofOptions
    { internalNamespaces := settings.policy.internalNamespaces
      allowDynamicSubtypes := settings.policy.allowDynamicSubtypes }
  match settings.policy.validate with
  | .error error => e.refused (.settings error)
  | .ok () =>
    andThen (if settings.policy.includeBuiltins then Builtins.install else always id)
      (andThen (applyPolicy settings.policy)
      (andThen (admitInventory settings.inventory manifest) (always reportReady))) e

end Engine

end ClassPolicy
