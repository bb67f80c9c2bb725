import ClassPolicy.Pattern.Error
import ClassPolicy.Settings.Error
import ClassPolicy.TypeName

/-!
# Failures

A call on the policy fails in one of two ways. It is refused with an error
that its caller may handle, or it breaks the contract of the operation, which
is a violation.
-/

set_option autoImplicit false

namespace ClassPolicy

/-- Why a type cannot be moved under a logical type. -/
inductive LogicalMoveError
  | noSpec (superSpelling : String)
  | notLogical (name superName : TypeName)
deriving DecidableEq

inductive PolicyError
  | pattern (e : PatternError)
  | settings (e : SettingsError)
  | invalidFieldName (name : String)
  | duplicateRoot (typeName : TypeName) (field : String)
  | logicalMove (e : LogicalMoveError)
  | inventoryUnreadable (path : String)
  | inventoryIncomplete (missing : Nat)
deriving DecidableEq

inductive Violation
  | duplicateSpec (name : TypeName)
  | specInBoth (name : TypeName)
  | noOpinionRule (pattern : String)
  | lockReadEarly (name : String)
  | lockFrozen (name : String)
  | lockUncommitted (pattern : String)
  | noSuchRoot (typeSpelling field : String)
deriving DecidableEq

inductive Failure
  | error (e : PolicyError)
  | violation (v : Violation)
deriving DecidableEq

def LogicalMoveError.message : LogicalMoveError → String
  | .noSpec superSpelling => "no class spec for " ++ superSpelling
  | .notLogical name superName =>
    "cannot move " ++ name.text ++ " under non-logical type " ++ superName.text

def PolicyError.message : PolicyError → String
  | .pattern e => e.message
  | .settings e => e.message
  | .invalidFieldName name => "invalid field name: " ++ name
  | .duplicateRoot typeName field => "duplicate root: " ++ typeName.text ++ "." ++ field
  | .logicalMove e => "invalid argument: " ++ e.message
  | .inventoryUnreadable path => "failed to load inventory manifest " ++ path
  | .inventoryIncomplete missing =>
    "incomplete inventory: " ++ toString missing ++ " pre-instrumented type(s) missing"

def Violation.message : Violation → String
  | .duplicateSpec name => "duplicate class spec for " ++ name.text
  | .specInBoth name =>
    "class spec for " ++ name.text ++ " present in both live and inventory partitions"
  | .noOpinionRule pattern => "no-opinion is a lookup result, not a rule: " ++ pattern
  | .lockReadEarly name => "lock definition `" ++ name ++ "` read before commit"
  | .lockFrozen name => "lock definition `" ++ name ++ "` is committed and cannot be modified"
  | .lockUncommitted pattern =>
    "lock definition for `" ++ pattern ++ "` must be committed before registration"
  | .noSuchRoot typeSpelling field =>
    "no such root for field " ++ field ++ " in type " ++ typeSpelling

def Failure.message : Failure → String
  | .error e => e.message
  | .violation v => v.message

def Failure.ofPattern (e : PatternError) : Failure := .error (.pattern e)

end ClassPolicy
