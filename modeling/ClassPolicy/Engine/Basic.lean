import ClassPolicy.DecisionCache
import ClassPolicy.DistributedMethod
import ClassPolicy.Inventory
import ClassPolicy.Lock
import ClassPolicy.ModeDecision
import ClassPolicy.Root
import ClassPolicy.Settings.Basic
import ClassPolicy.SpecStore
import ClassPolicy.TransientFields

/-!
# The engine and its registries

The registries hold the policy, and `Registries.adaptability` and
`Registries.mode` say what follows from it for a type. The engine adds a memory
of decisions and a journal of diagnostics. A change of the registries that can
change a decision goes through `Engine.register`, which starts a new
generation.
-/

set_option autoImplicit false

namespace ClassPolicy

inductive DiagnosticLevel
  | info
  | error
deriving DecidableEq, Repr

/-- What is reported besides the answers. -/
inductive Diagnostic
  | dynamicSubtypeRefused (name : TypeName)
  | missingFromInventory (name : TypeName)
  | engineReady (specs roots : Nat)
deriving DecidableEq

namespace Diagnostic

def level : Diagnostic → DiagnosticLevel
  | .dynamicSubtypeRefused _ => .error
  | .missingFromInventory _ => .info
  | .engineReady _ _ => .info

def message : Diagnostic → String
  | .dynamicSubtypeRefused _ =>
    "Refusing to transform dynamically generated subtype; " ++
      "enable allowDynamicSubtypes to share it"
  | .missingFromInventory _ => "Pre-instrumented type missing from inventory"
  | .engineReady _ _ => "Policy engine ready"

def fields : Diagnostic → List (String × String)
  | .dynamicSubtypeRefused name => [("type_name", name.text)]
  | .missingFromInventory name => [("type_name", name.text)]
  | .engineReady specs roots => [("specs", toString specs), ("roots", toString roots)]

end Diagnostic

structure Registries where
  specs : SpecStore := {}
  rules : RuleRegistry
  roots : RootRegistry := {}
  /-- Custom rewriter ids by type name. -/
  rewriters : SortedMap String := .empty
  locks : LockPolicy := {}
  distributed : List DistributedMethod := []
  /-- Fields kept out of the shared graph. -/
  transients : TransientFields := {}
deriving DecidableEq

namespace Registries

def explicitMode (r : Registries) (name : TypeName) : TransformMode :=
  match r.specs.get? name with
  | some spec => spec.mode
  | none => .unset

def isLogical (r : Registries) (name : TypeName) : Bool :=
  match r.specs.get? name with
  | some spec => spec.isLogical
  | none => false

def changeApplicator (r : Registries) (name : TypeName) : Option String :=
  (r.specs.get? name).bind (·.changeApplicator)

/-- The type that a logical type extends. -/
def extending (r : Registries) (name : TypeName) : Option TypeName :=
  (r.specs.get? name).bind (·.extending)

def preCreate (r : Registries) (name : TypeName) : Option String :=
  (r.specs.get? name).bind (·.preCreate)

def postCreate (r : Registries) (name : TypeName) : Option String :=
  (r.specs.get? name).bind (·.postCreate)

def isIncluded (r : Registries) (ty : TypeDescriptor) : Except PatternError Bool :=
  (r.rules.disposition ty).map (·.isIncluded)

/-- Nested in a logical type, without a spec of its own. -/
def isNestedInLogical (r : Registries) (name : TypeName) : Bool :=
  name.outer ≠ name && !r.specs.contains name && r.isLogical name.outer

/-- Whether a type may be transformed. The first step that applies decides:
the guards, nesting in a logical type, a root, a custom rewriter, a spec, and
last the rules. -/
def adaptability (r : Registries) (ty : TypeDescriptor) : Except PatternError Adaptability :=
  if r.rules.isInternal ty.name.text then .ok (.refuse .internalNamespace)
  else match r.rules.isPermanentlyExcluded ty with
    | .error e => .error e
    | .ok true => .ok (.refuse .permanentlyExcluded)
    | .ok false =>
      if ty.isDynamicSubtype && !r.rules.allowsDynamicSubtypes then
        .ok (.refuse .dynamicSubtypeRefused)
      else if r.isNestedInLogical ty.name then .ok (.refuse .nestedInLogicalType)
      else if r.roots.hasRoots ty.name then .ok (.accept .declaresRoot)
      else if r.rewriters.contains ty.name.text then .ok (.accept .customRewriter)
      else if r.specs.contains ty.name then .ok (.accept .explicitSpec)
      else match r.rules.disposition ty with
        | .error e => .error e
        | .ok (.included _) => .ok (.accept .includeRule)
        | .ok .excluded => .ok (.refuse .excludeRule)
        | .ok .noOpinion => .ok (.refuse .noMatchingRule)

def modeFacts (r : Registries) : ModeFacts where
  explicitMode := r.explicitMode
  isLogical := r.isLogical
  isIncluded := r.isIncluded
  isNonPortable := r.rules.isNonPortable

def mode (r : Registries) (ty : TypeDescriptor) (transformable : Bool) :
    Except PatternError TransformMode :=
  r.modeFacts.decide ty transformable

/-- Whether a type can never be shared. -/
def isNeverAdaptable (r : Registries) (ty : TypeDescriptor) : Except PatternError Bool :=
  if r.rules.isInternal ty.name.text then .ok true
  else match r.rules.isPermanentlyExcluded ty with
    | .error e => .error e
    | .ok true => .ok true
    | .ok false => r.rules.isNonPortable ty

end Registries

structure Engine where
  registries : Registries
  cache : DecisionCache := {}
  /-- The diagnostics so far, oldest first. -/
  journal : List Diagnostic := []
deriving DecidableEq

/-- What a call gives, and the engine after it. -/
abbrev Outcome (α : Type) := Except Failure α × Engine

namespace Engine

structure Options where
  internalNamespaces : List String := defaultInternalNamespaces
  allowDynamicSubtypes : Bool := false

def ofOptions (options : Options) : Engine where
  registries := { rules :=
    { internalNamespaces := options.internalNamespaces
      allowsDynamicSubtypes := options.allowDynamicSubtypes } }

def generation (e : Engine) : Nat := e.cache.generation

def cachedDecisions (e : Engine) : Nat := e.cache.size

/-- A change that no decision depends on. -/
def adjust (change : Registries → Registries) (e : Engine) : Engine :=
  { e with registries := change e.registries }

/-- A change that can change decisions: those remembered are dropped. -/
def register (change : Registries → Registries) (e : Engine) : Engine :=
  { e with registries := change e.registries, cache := e.cache.invalidate }

def report (diagnostics : List Diagnostic) (e : Engine) : Engine :=
  { e with journal := e.journal ++ diagnostics }

end Engine

end ClassPolicy
