import ClassPolicy.Pattern.Error
import ClassPolicy.Descriptor
import ClassPolicy.TransformMode

/-!
# Deciding the mode

The mode of a type that may be transformed follows from facts about the type
and its ancestors. A mode set for the type itself wins; a logical or included
type is fully transformable; otherwise an ancestor that is adaptable only, or
that is not portable, makes the type adaptable only. The facts are asked one by
one, and the decision does not depend on what else the asking does: an engine
gives answers and failures, and a trace also keeps the questions.
-/

set_option autoImplicit false

namespace ClassPolicy

/-- How the facts are asked. -/
structure ModeQueries (m : Type → Type) where
  explicitMode : TypeName → m TransformMode
  isLogical : TypeName → m Bool
  isIncluded : TypeDescriptor → m Bool
  isNonPortable : TypeDescriptor → m Bool

namespace ModeQueries

variable {m : Type → Type} [Monad m] (ask : ModeQueries m)

/-- What the ancestors, nearest first, leave of the mode. -/
def inherited : List TypeDescriptor → m TransformMode
  | [] => pure .fullyTransformable
  | ancestor :: rest => do
    let explicit ← ask.explicitMode ancestor.name
    if explicit = .adaptableOnly then pure .adaptableOnly
    else
      let barred ← ask.isNonPortable ancestor
      if barred then pure .adaptableOnly else inherited rest

def decide (ty : TypeDescriptor) (transformable : Bool) : m TransformMode :=
  if ty.isInterface || !transformable then pure .notAdaptable
  else do
    let explicit ← ask.explicitMode ty.name
    if explicit.isSet then pure explicit
    else
      let logical ← ask.isLogical ty.name
      if logical then pure .fullyTransformable
      else
        let included ← ask.isIncluded ty
        if included then pure .fullyTransformable
        else ask.inherited (TypeDescriptor.ancestorsAlone ty.ancestors)

end ModeQueries

/-- Two of the facts are questions put to patterns and may fail. -/
structure ModeFacts where
  explicitMode : TypeName → TransformMode
  isLogical : TypeName → Bool
  isIncluded : TypeDescriptor → Except PatternError Bool
  isNonPortable : TypeDescriptor → Except PatternError Bool

namespace ModeFacts

variable (facts : ModeFacts)

def queries : ModeQueries (Except PatternError) where
  explicitMode name := .ok (facts.explicitMode name)
  isLogical name := .ok (facts.isLogical name)
  isIncluded := facts.isIncluded
  isNonPortable := facts.isNonPortable

def inherited (ancestors : List TypeDescriptor) : Except PatternError TransformMode :=
  facts.queries.inherited ancestors

def decide (ty : TypeDescriptor) (transformable : Bool) : Except PatternError TransformMode :=
  facts.queries.decide ty transformable

theorem inherited_cons (ancestor : TypeDescriptor) (rest : List TypeDescriptor) :
    facts.inherited (ancestor :: rest) =
      if facts.explicitMode ancestor.name = .adaptableOnly then .ok .adaptableOnly
      else match facts.isNonPortable ancestor with
        | .error e => .error e
        | .ok true => .ok .adaptableOnly
        | .ok false => facts.inherited rest := by
  simp only [inherited, ModeQueries.inherited, queries, bind, Except.bind, pure, Except.pure]
  rcases facts.isNonPortable ancestor with error | _ | _ <;> rfl

theorem decide_eq (ty : TypeDescriptor) (transformable : Bool) :
    facts.decide ty transformable =
      if ty.isInterface || !transformable then .ok .notAdaptable
      else if (facts.explicitMode ty.name).isSet then .ok (facts.explicitMode ty.name)
      else if facts.isLogical ty.name then .ok .fullyTransformable
      else match facts.isIncluded ty with
        | .error e => .error e
        | .ok true => .ok .fullyTransformable
        | .ok false => facts.inherited (TypeDescriptor.ancestorsAlone ty.ancestors) := by
  simp only [decide, ModeQueries.decide, queries, bind, Except.bind, pure, Except.pure]
  rcases facts.isIncluded ty with error | _ | _ <;> rfl

end ModeFacts

end ClassPolicy
