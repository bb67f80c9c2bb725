/-!
# Settings errors

What can be wrong with a settings file or with the policy in it.
-/

set_option autoImplicit false

namespace ClassPolicy

inductive SettingsError
  | unreadable (path : String)
  /-- The text is not JSON or does not fit the settings. -/
  | malformed
  /-- A blank expression in the named part of the policy. -/
  | emptyExpression (part : String)
  | unqualifiedField (text : String)
  | reservedLockName (expression : String)
  | namedAutoSynchronized (expression : String)
deriving DecidableEq, Repr

def SettingsError.message : SettingsError → String
  | .unreadable path => "failed to read settings file " ++ path
  | .malformed => "failed to parse settings JSON"
  | .emptyExpression part => part ++ ": empty expression"
  | .unqualifiedField text => "`" ++ text ++ "` is not a qualified field name"
  | .reservedLockName expression =>
    "lock `" ++ expression ++ "`: the name `autolock` is reserved for unnamed locks"
  | .namedAutoSynchronized expression =>
    "lock `" ++ expression ++ "`: autoSynchronized only applies to unnamed locks"

end ClassPolicy
