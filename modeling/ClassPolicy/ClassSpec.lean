import ClassPolicy.Descriptor
import ClassPolicy.Rule
import ClassPolicy.TransformMode

/-!
# Class specs

The explicit policy for one type. A logical type is kept in step by replaying
its changes through a named applicator; a subtype moved under it shares the
applicator and names the type it extends. Whatever a spec leaves open is
settled by the rule that includes the type.
-/

set_option autoImplicit false

namespace ClassPolicy

structure LogicalDesignation where
  changeApplicator : String
  extending : Option TypeName
deriving DecidableEq

/-- What is done at the calls of one member. -/
inductive MemberBehavior
  | alwaysLog
  | ifTrueLog
  | iteratorWrapper
  | viewWrapper
  | arrayCopy
  | disableWaitNotify
  | custom (id : String)
deriving DecidableEq, Repr

/-- Which constructor runs when a shared instance is created locally. -/
inductive Construction
  | defaultConstructor
  | nonDefaultConstructor
deriving DecidableEq, Repr, Inhabited

structure ClassSpec where
  name : TypeName
  mode : TransformMode := .unset
  logical : Option LogicalDesignation := none
  transientFields : SortedSet := .empty
  memberBehaviors : SortedMap MemberBehavior := .empty
  construction : Construction := .defaultConstructor
  onLoad : Option OnLoad := none
  preCreate : Option String := none
  postCreate : Option String := none
  preInstrumented : Bool := false
  versionSpecific : Bool := false
  honorTransient : Option Bool := none
  honorVolatile : Option Bool := none
  excludedMethods : SortedSet := .empty
  customRewriter : Option String := none
deriving DecidableEq, Inhabited

inductive SpecEdit
  | setMode (mode : TransformMode)
  | addTransient (field : String)
  | addMemberBehavior (key : String) (behavior : MemberBehavior)
  | setConstruction (construction : Construction)
  | setOnLoad (onLoad : OnLoad)
  | setPreCreate (method : String)
  | setPostCreate (method : String)
  | markPreInstrumented
  | setVersionSpecific (value : Bool)
  | setHonorTransient (value : Bool)
  | setHonorVolatile (value : Bool)
  | excludeMethod (method : String)
  | setCustomRewriter (id : String)
  | moveToLogical (superSpec : ClassSpec)

namespace LogicalDesignation

def toJson (d : LogicalDesignation) : Json := Json.ofMembers [
  Json.member "changeApplicator" (.string d.changeApplicator),
  Json.memberIfSome "extendingType" (d.extending.map TypeName.toJson)]

def ofJson? (j : Json) : Option LogicalDesignation := do
  let members ← Json.record? ["changeApplicator", "extendingType"] j
  let changeApplicator ← Json.required members "changeApplicator" Json.text?
  let extending ← Json.optional members "extendingType" TypeName.ofJson?
  return ⟨changeApplicator, extending⟩

end LogicalDesignation

namespace MemberBehavior

def plain : List (String × MemberBehavior) :=
  [("alwaysLog", .alwaysLog), ("ifTrueLog", .ifTrueLog), ("iteratorWrapper", .iteratorWrapper),
    ("viewWrapper", .viewWrapper), ("arrayCopy", .arrayCopy),
    ("disableWaitNotify", .disableWaitNotify)]

def toJson : MemberBehavior → Json
  | .alwaysLog => .string "alwaysLog"
  | .ifTrueLog => .string "ifTrueLog"
  | .iteratorWrapper => .string "iteratorWrapper"
  | .viewWrapper => .string "viewWrapper"
  | .arrayCopy => .string "arrayCopy"
  | .disableWaitNotify => .string "disableWaitNotify"
  | .custom id => .object [("custom", .string id)]

def ofJson? (j : Json) : Option MemberBehavior :=
  Json.plainVariant? plain j <|> Json.textVariant? [("custom", .custom)] j

end MemberBehavior

namespace Construction

def toJson : Construction → Json
  | .defaultConstructor => .string "defaultConstructor"
  | .nonDefaultConstructor => .string "nonDefaultConstructor"

def ofJson? : Json → Option Construction :=
  Json.plainVariant? [("defaultConstructor", .defaultConstructor),
    ("nonDefaultConstructor", .nonDefaultConstructor)]

end Construction

namespace ClassSpec

def ofName (name : TypeName) : ClassSpec := { name }

@[simp] theorem name_ofName (name : TypeName) : (ofName name).name = name := rfl

def ofApplicator (name : TypeName) (applicator : String) : ClassSpec :=
  { name, logical := some ⟨applicator, none⟩ }

def isLogical (s : ClassSpec) : Bool := s.logical.isSome

def changeApplicator (s : ClassSpec) : Option String := s.logical.map (·.changeApplicator)

def extending (s : ClassSpec) : Option TypeName := s.logical.bind (·.extending)

/-- Makes the type logical with the applicator of `superSpec`. It then extends
what the super type extends, or the super type itself. -/
def moveToLogical (s superSpec : ClassSpec) : Except LogicalMoveError ClassSpec :=
  match superSpec.logical with
  | none => .error (.notLogical s.name superSpec.name)
  | some designation =>
    let extending := designation.extending.getD superSpec.name
    .ok { s with logical := some ⟨designation.changeApplicator, some extending⟩ }

def behavior? (s : ClassSpec) (m : MemberDescriptor) : Option MemberBehavior :=
  s.memberBehaviors.get? m.key

def excludesMethod (s : ClassSpec) (method : String) : Bool := s.excludedMethods.contains method

def markPreInstrumented (s : ClassSpec) : ClassSpec := { s with preInstrumented := true }

def edit : SpecEdit → ClassSpec → Except LogicalMoveError ClassSpec
  | .setMode mode, s => .ok { s with mode }
  | .addTransient field, s =>
    .ok { s with transientFields := SortedSet.add s.transientFields field }
  | .addMemberBehavior key behavior, s =>
    .ok { s with memberBehaviors := s.memberBehaviors.insert key behavior }
  | .setConstruction construction, s => .ok { s with construction }
  | .setOnLoad onLoad, s => .ok { s with onLoad := some onLoad }
  | .setPreCreate method, s => .ok { s with preCreate := some method }
  | .setPostCreate method, s => .ok { s with postCreate := some method }
  | .markPreInstrumented, s => .ok s.markPreInstrumented
  | .setVersionSpecific value, s => .ok { s with versionSpecific := value }
  | .setHonorTransient value, s => .ok { s with honorTransient := some value }
  | .setHonorVolatile value, s => .ok { s with honorVolatile := some value }
  | .excludeMethod method, s =>
    .ok { s with excludedMethods := SortedSet.add s.excludedMethods method }
  | .setCustomRewriter id, s => .ok { s with customRewriter := some id }
  | .moveToLogical superSpec, s => s.moveToLogical superSpec

/-- Edits in order up to the first that fails; those before it stay made. -/
def editAll : List SpecEdit → ClassSpec → ClassSpec × Option LogicalMoveError
  | [], s => (s, none)
  | e :: rest, s =>
    match edit e s with
    | .error error => (s, some error)
    | .ok s => editAll rest s

def toJson (s : ClassSpec) : Json := Json.ofMembers [
  Json.member "name" s.name.toJson,
  Json.member "mode" s.mode.toJson,
  Json.memberIfSome "logical" (s.logical.map LogicalDesignation.toJson),
  Json.memberIf (!s.transientFields.isEmpty) "transientFields" (Json.ofSet s.transientFields),
  Json.memberIf (!s.memberBehaviors.isEmpty) "memberBehaviors"
    (Json.ofMap MemberBehavior.toJson s.memberBehaviors),
  Json.member "construction" s.construction.toJson,
  Json.memberIfSome "onLoad" (s.onLoad.map OnLoad.toJson),
  Json.memberIfSome "preCreateMethod" (s.preCreate.map .string),
  Json.memberIfSome "postCreateMethod" (s.postCreate.map .string),
  Json.member "preInstrumented" (.bool s.preInstrumented),
  Json.member "versionSpecific" (.bool s.versionSpecific),
  Json.memberIfSome "honorTransient" (s.honorTransient.map .bool),
  Json.memberIfSome "honorVolatile" (s.honorVolatile.map .bool),
  Json.memberIf (!s.excludedMethods.isEmpty) "excludedMethods" (Json.ofSet s.excludedMethods),
  Json.memberIfSome "customRewriter" (s.customRewriter.map .string)]

def memberNames : List String :=
  ["name", "mode", "logical", "transientFields", "memberBehaviors", "construction", "onLoad",
    "preCreateMethod", "postCreateMethod", "preInstrumented", "versionSpecific",
    "honorTransient", "honorVolatile", "excludedMethods", "customRewriter"]

def ofJson? (j : Json) : Option ClassSpec := do
  let members ← Json.record? memberNames j
  let name ← Json.required members "name" TypeName.ofJson?
  let mode ← Json.required members "mode" TransformMode.ofJson?
  let logical ← Json.optional members "logical" LogicalDesignation.ofJson?
  let transientFields ← Json.defaulted members "transientFields" .empty Json.textSet?
  let memberBehaviors ←
    Json.defaulted members "memberBehaviors" .empty (Json.map? MemberBehavior.ofJson?)
  let construction ←
    Json.defaulted members "construction" .defaultConstructor Construction.ofJson?
  let onLoad ← Json.optional members "onLoad" OnLoad.ofJson?
  let preCreate ← Json.optional members "preCreateMethod" Json.text?
  let postCreate ← Json.optional members "postCreateMethod" Json.text?
  let preInstrumented ← Json.defaulted members "preInstrumented" false Json.bool?
  let versionSpecific ← Json.defaulted members "versionSpecific" false Json.bool?
  let honorTransient ← Json.optional members "honorTransient" Json.bool?
  let honorVolatile ← Json.optional members "honorVolatile" Json.bool?
  let excludedMethods ← Json.defaulted members "excludedMethods" .empty Json.textSet?
  let customRewriter ← Json.optional members "customRewriter" Json.text?
  return ⟨name, mode, logical, transientFields, memberBehaviors, construction, onLoad,
    preCreate, postCreate, preInstrumented, versionSpecific, honorTransient, honorVolatile,
    excludedMethods, customRewriter⟩

end ClassSpec

end ClassPolicy
