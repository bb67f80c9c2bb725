import ClassPolicy.Engine.Basic

/-!
# Decisions of the engine

The engine answers from its memory when it can. Otherwise it asks the
registries and remembers the answer, but not a failure. The refusal of a
generated subtype is reported when it is first found.
-/

set_option autoImplicit false

namespace ClassPolicy.Engine

def rememberDecision (ty : TypeDescriptor) (decision : Adaptability) (e : Engine) : Engine :=
  let e := { e with cache := e.cache.storeDecision ty.name e.generation decision }
  if decision.reason = .dynamicSubtypeRefused then e.report [.dynamicSubtypeRefused ty.name]
  else e

def rememberMode (ty : TypeDescriptor) (mode : TransformMode) (e : Engine) : Engine :=
  { e with cache := e.cache.storeMode ty.name e.generation mode }

section Remembered

variable (ty : TypeDescriptor) (decision : Adaptability) (mode : TransformMode) (e : Engine)

@[simp] theorem registries_rememberDecision :
    (e.rememberDecision ty decision).registries = e.registries := by
  simp only [rememberDecision]
  split <;> rfl

@[simp] theorem generation_rememberDecision :
    (e.rememberDecision ty decision).generation = e.generation := by
  simp only [rememberDecision]
  split <;> simp [report, generation]

theorem decision?_rememberDecision (name : TypeName) :
    (e.rememberDecision ty decision).cache.decision? name e.generation =
      if name = ty.name then some decision else e.cache.decision? name e.generation := by
  simp only [rememberDecision]
  split <;> exact DecisionCache.decision?_storeDecision ..

@[simp] theorem mode?_rememberDecision (name : TypeName) (generation : Nat) :
    (e.rememberDecision ty decision).cache.mode? name generation =
      e.cache.mode? name generation := by
  simp only [rememberDecision]
  split <;> simp [report]

@[simp] theorem registries_rememberMode :
    (e.rememberMode ty mode).registries = e.registries := rfl

@[simp] theorem generation_rememberMode :
    (e.rememberMode ty mode).generation = e.generation := by
  simp [rememberMode, generation]

theorem mode?_rememberMode (name : TypeName) :
    (e.rememberMode ty mode).cache.mode? name e.generation =
      if name = ty.name then some mode else e.cache.mode? name e.generation :=
  DecisionCache.mode?_storeMode ..

@[simp] theorem decision?_rememberMode (name : TypeName) (generation : Nat) :
    (e.rememberMode ty mode).cache.decision? name generation =
      e.cache.decision? name generation := by
  simp [rememberMode]

end Remembered

/-- Whether a type may be transformed, and why. -/
def explain (ty : TypeDescriptor) (e : Engine) : Except PatternError Adaptability × Engine :=
  match e.cache.decision? ty.name e.generation with
  | some decision => (.ok decision, e)
  | none =>
    match e.registries.adaptability ty with
    | .error error => (.error error, e)
    | .ok decision => (.ok decision, e.rememberDecision ty decision)

def isTransformable (ty : TypeDescriptor) (e : Engine) : Except PatternError Bool × Engine :=
  let (decision, e) := e.explain ty
  (decision.map (·.transformable), e)

/-- The mode of a type whose transformability is known. -/
def modeGiven (ty : TypeDescriptor) (transformable : Bool) (e : Engine) :
    Except PatternError TransformMode × Engine :=
  match e.cache.mode? ty.name e.generation with
  | some mode => (.ok mode, e)
  | none =>
    match e.registries.mode ty transformable with
    | .error error => (.error error, e)
    | .ok mode => (.ok mode, e.rememberMode ty mode)

def modeFor (ty : TypeDescriptor) (e : Engine) : Except PatternError TransformMode × Engine :=
  match e.cache.mode? ty.name e.generation with
  | some mode => (.ok mode, e)
  | none =>
    match e.explain ty with
    | (.error error, e) => (.error error, e)
    | (.ok decision, e) => e.modeGiven ty decision.transformable

end ClassPolicy.Engine
