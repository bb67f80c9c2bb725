import ClassPolicy.Modifier
import ClassPolicy.TypeName

/-!
# Descriptors

What the loader tells about a type, a field or a member. No live type system
is asked: the superclass chain and the interfaces of a type arrive resolved,
the chain nearest first.
-/

set_option autoImplicit false

namespace ClassPolicy

structure FieldDescriptor where
  declaringType : TypeName
  name : String
  modifiers : Modifiers := .none
  typeName : String
deriving DecidableEq, Inhabited

structure TypeDescriptor where
  name : TypeName
  modifiers : Modifiers
  ancestors : List TypeName
  interfaces : List TypeName
  fields : List FieldDescriptor
deriving DecidableEq, Inhabited

structure MemberDescriptor where
  declaringType : TypeName
  name : String
  modifiers : Modifiers
  returnType : String
  parameterTypes : List String
deriving DecidableEq, Inhabited

namespace FieldDescriptor

def primitives : List String :=
  ["boolean", "byte", "char", "short", "int", "long", "float", "double"]

def isPrimitive (field : FieldDescriptor) : Bool := primitives.contains field.typeName

def toJson (field : FieldDescriptor) : Json := .object [
  ("declaringType", field.declaringType.toJson),
  ("name", .string field.name),
  ("modifiers", field.modifiers.toJson),
  ("typeName", .string field.typeName)]

def ofJson? (j : Json) : Option FieldDescriptor := do
  let members ← Json.record? ["declaringType", "name", "modifiers", "typeName"] j
  let declaringType ← Json.required members "declaringType" TypeName.ofJson?
  let name ← Json.required members "name" Json.text?
  let modifiers ← Json.defaulted members "modifiers" .none Modifiers.ofJson?
  let typeName ← Json.required members "typeName" Json.text?
  return ⟨declaringType, name, modifiers, typeName⟩

end FieldDescriptor

namespace TypeDescriptor

/-- A public type about which only the name is known. -/
def named (name : TypeName) : TypeDescriptor := ⟨name, .publicOnly, [], [], []⟩

def withField (ty : TypeDescriptor) (name typeName : String) (modifiers : Modifiers) :
    TypeDescriptor :=
  { ty with fields := ty.fields ++ [⟨ty.name, name, modifiers, typeName⟩] }

def isInterface (ty : TypeDescriptor) : Bool := ty.modifiers.has .interface

/-- The mark that generated proxy subtypes carry in their names. -/
def dynamicMark : String := "$$EnhancerByCGLIB$$"

def isDynamicSubtype (ty : TypeDescriptor) : Bool :=
  Text.occursIn dynamicMark.toList ty.name.text.toList

/-- The first declared field of that name. -/
def field? (ty : TypeDescriptor) (name : String) : Option FieldDescriptor :=
  ty.fields.find? (fun f => f.name = name)

/-- The type itself, its superclasses and its interfaces. -/
def lineage (ty : TypeDescriptor) : List TypeName := ty.name :: ty.ancestors ++ ty.interfaces

/-- What is known of each superclass through its subtype: its name and the
rest of the chain. -/
def ancestorsAlone : List TypeName → List TypeDescriptor
  | [] => []
  | name :: rest => { named name with ancestors := rest } :: ancestorsAlone rest

def toJson (ty : TypeDescriptor) : Json := .object [
  ("name", ty.name.toJson),
  ("modifiers", ty.modifiers.toJson),
  ("ancestors", .array (ty.ancestors.map TypeName.toJson)),
  ("interfaces", .array (ty.interfaces.map TypeName.toJson)),
  ("fields", .array (ty.fields.map FieldDescriptor.toJson))]

def ofJson? (j : Json) : Option TypeDescriptor := do
  let members ← Json.record? ["name", "modifiers", "ancestors", "interfaces", "fields"] j
  let name ← Json.required members "name" TypeName.ofJson?
  let modifiers ← Json.defaulted members "modifiers" .none Modifiers.ofJson?
  let ancestors ← Json.defaulted members "ancestors" [] (Json.list? TypeName.ofJson?)
  let interfaces ← Json.defaulted members "interfaces" [] (Json.list? TypeName.ofJson?)
  let fields ← Json.defaulted members "fields" [] (Json.list? FieldDescriptor.ofJson?)
  return ⟨name, modifiers, ancestors, interfaces, fields⟩

end TypeDescriptor

namespace MemberDescriptor

def constructorName : String := "<init>"

def typeInitializerName : String := "<clinit>"

/-- A public member without parameters that returns nothing. -/
def named (declaringType : TypeName) (name : String) : MemberDescriptor :=
  ⟨declaringType, name, .publicOnly, "void", []⟩

/-- What tells the member from the others of its type: the name and the
parameter types. -/
def key (m : MemberDescriptor) : String :=
  m.name ++ "(" ++ String.intercalate "," m.parameterTypes ++ ")"

def isInitializer (m : MemberDescriptor) : Bool :=
  m.name = constructorName || m.name = typeInitializerName

/-- The declaration as it is shown: a space follows the modifiers whenever a
bit is set, one without a name included. -/
def text (m : MemberDescriptor) : String :=
  (if m.modifiers = .none then "" else m.modifiers.text ++ " ") ++ m.returnType ++ " " ++
    m.declaringType.text ++ "." ++ m.name ++ "(" ++ String.intercalate ", " m.parameterTypes ++ ")"

def toJson (m : MemberDescriptor) : Json := .object [
  ("declaringType", m.declaringType.toJson),
  ("name", .string m.name),
  ("modifiers", m.modifiers.toJson),
  ("returnType", .string m.returnType),
  ("parameterTypes", Json.ofStrings m.parameterTypes)]

def ofJson? (j : Json) : Option MemberDescriptor := do
  let members ←
    Json.record? ["declaringType", "name", "modifiers", "returnType", "parameterTypes"] j
  let declaringType ← Json.required members "declaringType" TypeName.ofJson?
  let name ← Json.required members "name" Json.text?
  let modifiers ← Json.defaulted members "modifiers" .none Modifiers.ofJson?
  let returnType ← Json.defaulted members "returnType" "void" Json.text?
  let parameterTypes ← Json.defaulted members "parameterTypes" [] Json.texts?
  return ⟨declaringType, name, modifiers, returnType, parameterTypes⟩

end MemberDescriptor

end ClassPolicy
