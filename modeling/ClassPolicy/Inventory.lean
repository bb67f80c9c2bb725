import ClassPolicy.Failure
import ClassPolicy.Json.Reader
import ClassPolicy.SpecStore

/-!
# The inventory

The types shipped already instrumented are listed in a manifest. Every live
spec that is marked pre-instrumented has to be listed there, unless its
presence depends on the version of the runtime. Specs of the inventory
partition are not checked.
-/

set_option autoImplicit false

namespace ClassPolicy

structure Manifest where
  version : Option String := none
  /-- The types as listed, in any order and possibly repeated. -/
  listed : List TypeName := []
deriving DecidableEq

structure InventoryReport where
  missing : List TypeName
  expected : Nat
  population : Nat
deriving DecidableEq

namespace Manifest

/-- The distinct types, in order. -/
def types (m : Manifest) : List TypeName := TypeName.sorted m.listed

def contains (m : Manifest) (name : TypeName) : Bool := m.listed.contains name

def size (m : Manifest) : Nat := m.types.length

def toJson (m : Manifest) : Json := Json.ofMembers [
  Json.memberIfSome "version" (m.version.map .string),
  Json.member "types" (.array (m.types.map TypeName.toJson))]

def ofJson? (j : Json) : Option Manifest := do
  let members ← Json.record? ["version", "types"] j
  let version ← Json.optional members "version" Json.text?
  let listed ← Json.defaulted members "types" [] (Json.list? TypeName.ofJson?)
  return ⟨version, listed⟩

def ofText? (text : String) : Option Manifest := (Json.parse? text).bind ofJson?

end Manifest

namespace InventoryReport

def isComplete (r : InventoryReport) : Bool := r.missing.isEmpty

def requireComplete (r : InventoryReport) : Except PolicyError InventoryReport :=
  if r.isComplete then .ok r else .error (.inventoryIncomplete r.missing.length)

def text (r : InventoryReport) : String :=
  toString r.population ++ " type(s) in inventory, " ++ toString r.expected ++
    " pre-instrumented, " ++ toString r.missing.length ++ " missing" ++
    String.join (r.missing.map (fun name => "\n  - " ++ name.text))

def toJson (r : InventoryReport) : Json := .object [
  ("missing", .array (r.missing.map TypeName.toJson)),
  ("expected", .integer r.expected),
  ("population", .integer r.population)]

end InventoryReport

/-- Compares the live specs with a manifest. -/
def SpecStore.verify (s : SpecStore) (m : Manifest) : InventoryReport :=
  let expected := (s.all false).filter (·.preInstrumented)
  { missing := (expected.filter (fun spec => !spec.versionSpecific && !m.contains spec.name)).map
      (·.name)
    expected := expected.length
    population := m.size }

end ClassPolicy
