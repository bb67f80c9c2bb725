import ClassPolicy.Lock
import ClassPolicy.Rule

/-!
# Settings

What a settings file can say, with the value of everything it leaves unsaid.
Settings are plain data: they are checked before they are applied, and only
their application makes rules of them.
-/

set_option autoImplicit false

namespace ClassPolicy

inductive RuleKind
  | inclusion
  | exclusion
deriving DecidableEq, Repr, Inhabited

/-- What an entry asks to be done when a shared instance is materialized. -/
inductive LoadAction
  | callConstructor
  | method (name : String)
  | script (source : String)
deriving DecidableEq, Repr

structure ClassEntry where
  kind : RuleKind := .inclusion
  expression : String
  honorTransient : Bool := false
  honorVolatile : Bool := false
  onLoad : Option LoadAction := none
deriving DecidableEq, Repr

/-- Without a name the lock is an autolock. -/
structure LockEntry where
  expression : String
  name : Option String := none
  mode : LockMode
  autoSynchronized : Bool := false
  provenance : Option String := none
deriving DecidableEq, Repr

/-- A root field, written `pkg.Type.field`. -/
structure RootEntry where
  field : String
  name : Option String := none
  isFinal : Option Bool := none
deriving DecidableEq, Repr

structure DistributedEntry where
  expression : String
  runOnAllNodes : Bool := true
deriving DecidableEq, Repr

def defaultInternalNamespaces : List String := ["com.tc.", "com.terracottatech."]

structure PolicySettings where
  includeBuiltins : Bool := true
  allowDynamicSubtypes : Bool := false
  internalNamespaces : List String := defaultInternalNamespaces
  instrumentedClasses : List ClassEntry := []
  permanentExcludes : List String := []
  nonPortable : List String := []
  locks : List LockEntry := []
  autolockExcludes : List String := []
  roots : List RootEntry := []
  transientFields : List String := []
  distributedMethods : List DistributedEntry := []
  customRewriters : SortedMap String := .empty
deriving DecidableEq

structure LoggingSettings where
  level : String := "warn"
  json : Bool := false
deriving DecidableEq, Repr

structure InventorySettings where
  manifestPath : Option String := none
  verifyOnStart : Bool := false
deriving DecidableEq, Repr

structure Settings where
  version : String := "0.1.0"
  logging : LoggingSettings := {}
  policy : PolicySettings := {}
  inventory : InventorySettings := {}
deriving DecidableEq

end ClassPolicy
