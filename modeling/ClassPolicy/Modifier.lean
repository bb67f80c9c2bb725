import ClassPolicy.Json.Record

/-!
# Modifiers

The access and property flags of a type, field or member, each one bit of a
16-bit word as a class file holds it. Bits without a name are kept.
-/

set_option autoImplicit false

namespace ClassPolicy

inductive Modifier
  | publicAccess
  | privateAccess
  | protectedAccess
  | static
  | final
  | synchronized
  | volatile
  | transient
  | native
  | interface
  | abstract
  | synthetic
deriving DecidableEq, Repr

def Modifier.mask : Modifier → UInt16
  | .publicAccess => 0x0001
  | .privateAccess => 0x0002
  | .protectedAccess => 0x0004
  | .static => 0x0008
  | .final => 0x0010
  | .synchronized => 0x0020
  | .volatile => 0x0040
  | .transient => 0x0080
  | .native => 0x0100
  | .interface => 0x0200
  | .abstract => 0x0400
  | .synthetic => 0x1000

structure Modifiers where
  bits : UInt16
deriving DecidableEq, Repr, Inhabited

namespace Modifiers

def none : Modifiers := ⟨0⟩

/-- The flags of a type or member about which nothing else is said. -/
def publicOnly : Modifiers := ⟨Modifier.mask .publicAccess⟩

def containsAll (m other : Modifiers) : Bool := m.bits &&& other.bits == other.bits

def has (m : Modifiers) (flag : Modifier) : Bool := m.containsAll ⟨flag.mask⟩

def union (m other : Modifiers) : Modifiers := ⟨m.bits ||| other.bits⟩

def add (m : Modifiers) (flag : Modifier) : Modifiers := m.union ⟨flag.mask⟩

/-- Synchronized on its instance: a static member is synchronized on its type. -/
def isInstanceSynchronized (m : Modifiers) : Bool := m.has .synchronized && !m.has .static

/-- The flags that are spelled out in a text, in the order of the text. -/
def spelled : List (Modifier × String) :=
  [(.publicAccess, "public"), (.privateAccess, "private"), (.protectedAccess, "protected"),
    (.static, "static"), (.final, "final"), (.synchronized, "synchronized"),
    (.volatile, "volatile"), (.transient, "transient"), (.native, "native"),
    (.interface, "interface"), (.abstract, "abstract")]

def text (m : Modifiers) : String :=
  String.intercalate " " ((spelled.filter (fun p => m.has p.1)).map (·.2))

def toJson (m : Modifiers) : Json := .integer m.bits.toNat

def ofJson? (j : Json) : Option Modifiers :=
  (Json.natBelow? 0x10000 j).map (fun n => ⟨UInt16.ofNat n⟩)

end Modifiers

end ClassPolicy
