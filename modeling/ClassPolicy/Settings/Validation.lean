import ClassPolicy.Settings.Basic
import ClassPolicy.Settings.Error
import ClassPolicy.Text.Blank
import ClassPolicy.Text.Cut

/-!
# Checking the policy settings

No expression may be blank, a root or transient field has to name its type and
its field, and a named lock may neither take the name of autolocks nor ask to
be auto-synchronized. Checks go through the parts in a fixed order and stop at
the first fault.
-/

set_option autoImplicit false

namespace ClassPolicy

/-- `pkg.Type.field` as `pkg.Type` and `field`. -/
def splitField (qualified : String) : Except SettingsError (String × String) :=
  match Text.cutLast? '.' qualified.toList with
  | some (typeName, field) =>
    if typeName.isEmpty || field.isEmpty then .error (.unqualifiedField qualified)
    else .ok (String.ofList typeName, String.ofList field)
  | none => .error (.unqualifiedField qualified)

def requireExpression (part expression : String) : Except SettingsError Unit :=
  if Text.isBlankText expression then .error (.emptyExpression part) else .ok ()

def LockEntry.check (e : LockEntry) : Except SettingsError Unit :=
  match e.name with
  | none => .ok ()
  | some name =>
    if Text.trim name.toList = LockDefinition.autolockName.toList then
      .error (.reservedLockName e.expression)
    else if e.autoSynchronized then .error (.namedAutoSynchronized e.expression)
    else .ok ()

/-- The first fault among the items, if any. -/
def checkAll {α : Type} (check : α → Except SettingsError Unit) :
    List α → Except SettingsError Unit
  | [] => .ok ()
  | item :: rest =>
    match check item with
    | .error e => .error e
    | .ok () => checkAll check rest

def checkField (qualified : String) : Except SettingsError Unit :=
  (splitField qualified).map (fun _ => ())

def LockEntry.checkEntry (e : LockEntry) : Except SettingsError Unit := do
  requireExpression "locks" e.expression
  e.check

def PolicySettings.validate (p : PolicySettings) : Except SettingsError Unit := do
  checkAll (fun e : ClassEntry => requireExpression "instrumentedClasses" e.expression)
    p.instrumentedClasses
  checkAll (requireExpression "permanentExcludes") p.permanentExcludes
  checkAll (requireExpression "nonPortable") p.nonPortable
  checkAll LockEntry.checkEntry p.locks
  checkAll (requireExpression "autolockExcludes") p.autolockExcludes
  checkAll (fun e : DistributedEntry => requireExpression "distributedMethods" e.expression)
    p.distributedMethods
  checkAll (fun e : RootEntry => checkField e.field) p.roots
  checkAll checkField p.transientFields

end ClassPolicy
