import ClassPolicy.Json.Record

/-!
# Transformation modes

How far a type takes part: not at all, by structural changes alone, or
fully. A spec that leaves the mode unset has it derived.
-/

set_option autoImplicit false

namespace ClassPolicy

inductive TransformMode
  | unset
  | notAdaptable
  | adaptableOnly
  | fullyTransformable
deriving DecidableEq, Repr, Inhabited

namespace TransformMode

def isSet (mode : TransformMode) : Bool := mode ≠ .unset

def text : TransformMode → String
  | .unset => "unset"
  | .notAdaptable => "not-adaptable"
  | .adaptableOnly => "adaptable-only"
  | .fullyTransformable => "fully-transformable"

def name : TransformMode → String
  | .unset => "unset"
  | .notAdaptable => "notAdaptable"
  | .adaptableOnly => "adaptableOnly"
  | .fullyTransformable => "fullyTransformable"

def all : List TransformMode := [.unset, .notAdaptable, .adaptableOnly, .fullyTransformable]

def toJson (mode : TransformMode) : Json := .string mode.name

def ofJson? : Json → Option TransformMode :=
  Json.plainVariant? (all.map (fun mode => (mode.name, mode)))

end TransformMode

end ClassPolicy
