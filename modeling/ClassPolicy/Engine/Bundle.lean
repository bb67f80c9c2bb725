import ClassPolicy.Engine.Decisions

/-!
# Fields, members and the decision bundle

A spec settles whether transient and volatile fields are honoured and what
happens on load; what it leaves open is settled by the include rule. The
bundle gathers all that is decided about one type at one moment. Questions
about members are left to the engine.
-/

set_option autoImplicit false

namespace ClassPolicy

def honorsTransient (spec : Option ClassSpec) (attributes : Option IncludeAttributes) : Bool :=
  ((spec.bind (·.honorTransient)) <|> (attributes.map (·.honorTransient))).getD false

def honorsVolatile (spec : Option ClassSpec) (attributes : Option IncludeAttributes) : Bool :=
  ((spec.bind (·.honorVolatile)) <|> (attributes.map (·.honorVolatile))).getD false

def resolveOnLoad (spec : Option ClassSpec) (attributes : Option IncludeAttributes) : OnLoad :=
  ((spec.bind (·.onLoad)) <|> (attributes.map (·.onLoad))).getD .none

/-- `this$` and a number: the reference to the instance around a nested one. -/
def isOuterReference (field : String) : Bool :=
  "this$".toList.isPrefixOf field.toList &&
    let number := field.toList.drop "this$".toList.length
    !number.isEmpty && number.all Char.isDigit

/-- The fields that hold the delegate of a logical subtype are always shared. -/
def delegateStart : String := "__delegate_meld_"

def fieldIsTransient (field : String) (modifiers : Modifiers) (honored listed : Bool) : Bool :=
  if isOuterReference field then true
  else if delegateStart.toList.isPrefixOf field.toList then false
  else (modifiers.has .transient && honored) || listed

namespace Registries

/-- The spec of a type and the attributes under which it is included. -/
def attributesOf (r : Registries) (ty : TypeDescriptor) :
    Except PatternError (Option ClassSpec × Option IncludeAttributes) :=
  (r.rules.disposition ty).map (fun d => (r.specs.get? ty.name, d.attributes?))

def isTransient (r : Registries) (modifiers : Modifiers) (ty : TypeDescriptor) (field : String) :
    Except PatternError Bool :=
  (r.attributesOf ty).map (fun (spec, attributes) =>
    let inSpec := match spec with
      | some spec => spec.transientFields.contains field
      | none => false
    fieldIsTransient field modifiers (honorsTransient spec attributes)
      (inSpec || r.transients.contains ty.name field))

/-- A field that is not volatile needs no rule. -/
def isVolatile (r : Registries) (modifiers : Modifiers) (ty : TypeDescriptor) :
    Except PatternError Bool :=
  if modifiers.has .volatile then
    (r.attributesOf ty).map (fun (spec, attributes) => honorsVolatile spec attributes)
  else .ok false

def onLoad (r : Registries) (ty : TypeDescriptor) : Except PatternError OnLoad :=
  (r.attributesOf ty).map (fun (spec, attributes) => resolveOnLoad spec attributes)

end Registries

structure Bundle where
  type : TypeDescriptor
  adaptability : Adaptability
  mode : TransformMode
  spec : Option ClassSpec
  attributes : Option IncludeAttributes
  transientFields : SortedSet
  roots : List RootDefinition
  registeredRewriter : Option String
deriving DecidableEq

namespace Bundle

def isLogical (b : Bundle) : Bool :=
  match b.spec with
  | some spec => spec.isLogical
  | none => false

def changeApplicator (b : Bundle) : Option String := b.spec.bind (·.changeApplicator)

def construction (b : Bundle) : Construction :=
  match b.spec with
  | some spec => spec.construction
  | none => .defaultConstructor

def onLoad (b : Bundle) : OnLoad := resolveOnLoad b.spec b.attributes

def callsConstructor (b : Bundle) : Bool := b.onLoad.callsConstructor

def preCreate (b : Bundle) : Option String := b.spec.bind (·.preCreate)

def postCreate (b : Bundle) : Option String := b.spec.bind (·.postCreate)

def isPreInstrumented (b : Bundle) : Bool :=
  match b.spec with
  | some spec => spec.preInstrumented
  | none => false

/-- A registered rewriter goes before the one of the spec. -/
def rewriter (b : Bundle) : Option String :=
  b.registeredRewriter <|> b.spec.bind (·.customRewriter)

def rootFor (b : Bundle) (field : String) : Option RootDefinition :=
  b.roots.find? (fun root => root.fieldName = field)

def isTransient (b : Bundle) (field : FieldDescriptor) : Bool :=
  fieldIsTransient field.name field.modifiers (honorsTransient b.spec b.attributes)
    (b.transientFields.contains field.name)

def isVolatile (b : Bundle) (field : FieldDescriptor) : Bool :=
  field.modifiers.has .volatile && honorsVolatile b.spec b.attributes

def behavior? (b : Bundle) (m : MemberDescriptor) : Option MemberBehavior :=
  b.spec.bind (·.behavior? m)

def excludesMethod (b : Bundle) (m : MemberDescriptor) : Bool :=
  match b.spec with
  | some spec => spec.excludesMethod m.name
  | none => false

end Bundle

namespace Engine

/-- What the registries add to a decision and a mode. -/
def bundleOf (ty : TypeDescriptor) (adaptability : Adaptability) (mode : TransformMode)
    (disposition : Disposition) (e : Engine) : Bundle :=
  let spec := e.registries.specs.get? ty.name
  let inSpec := match spec with
    | some spec => spec.transientFields
    | none => .empty
  { type := ty
    adaptability
    mode
    spec
    attributes := disposition.attributes?
    transientFields := (e.registries.transients.fieldsOf ty.name).foldl SortedSet.add inSpec
    roots := e.registries.roots.rootsFor ty.name
    registeredRewriter := e.registries.rewriters.get? ty.name.text }

/-- All that is decided about a type. What was found before a failure stays
remembered. -/
def decide (ty : TypeDescriptor) (e : Engine) : Except PatternError Bundle × Engine :=
  match e.explain ty with
  | (.error error, e) => (.error error, e)
  | (.ok adaptability, e) =>
    match e.modeGiven ty adaptability.transformable with
    | (.error error, e) => (.error error, e)
    | (.ok mode, e) =>
      match e.registries.rules.disposition ty with
      | .error error => (.error error, e)
      | .ok disposition => (.ok (e.bundleOf ty adaptability mode disposition), e)

end Engine

end ClassPolicy
