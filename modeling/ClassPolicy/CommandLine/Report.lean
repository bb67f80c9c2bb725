import ClassPolicy.Bootstrap
import ClassPolicy.CommandLine.Command
import ClassPolicy.Engine.Bundle
import ClassPolicy.Json.Writer

/-!
# Reports

The text with which each command answers. A command that fails on the way
gives no text.
-/

set_option autoImplicit false

namespace ClassPolicy.CommandLine

structure Report where
  text : String
  /-- Whether what was asked about is in order. -/
  inOrder : Bool := true
deriving DecidableEq, Repr

def line (text : String) : String := text ++ "\n"

def entry (label value : String) : String := line ("  " ++ label ++ ": " ++ value)

def yesNo (b : Bool) : String := if b then "true" else "false"

def entryIfSome (label : String) (value : Option String) : String :=
  match value with
  | some value => entry label value
  | none => ""

def bundleText (b : Bundle) : String :=
  line b.type.name.text ++
    entry "transformable" (yesNo b.adaptability.transformable) ++
    entry "reason" b.adaptability.reason.text ++
    entry "mode" b.mode.text ++
    entryIfSome "change applicator" b.changeApplicator ++
    entryIfSome "custom rewriter" b.rewriter ++
    String.join (b.roots.map (fun root =>
      entry "root" (root.fieldName ++ " as " ++ root.exposedName)))

def locksText (m : MemberDescriptor) (definitions : List LockDefinition) (isLock : Bool)
    (distributed : Option DistributedMethod) : String :=
  line m.text ++
    (if definitions.isEmpty then line "  no locks"
      else String.join (definitions.map (fun d => line ("  " ++ d.text)))) ++
    entry "lock method" (yesNo isLock) ++
    entryIfSome "distributed" (distributed.map (fun d =>
      if d.runOnAllNodes then "all nodes" else "resident nodes"))

def locksReport (m : MemberDescriptor) (r : Registries) : Except Failure Report := do
  let definitions ← r.locks.definitionsFor m
  let isLock ← r.locks.isLockMethod m
  let distributed ← (DistributedMethod.lookup r.distributed m).mapError .ofPattern
  return { text := locksText m definitions isLock distributed }

def specsText (specs : List ClassSpec) : String :=
  line (Json.array (specs.map ClassSpec.toJson)).pretty

/-- The path of the file that a command reads. -/
def Command.manifestPath? : Command → Option String
  | .verifyInventory path => some path
  | _ => none

/-- What a command reports of an engine. `manifest` is what is found at the
path that the command names. -/
def Command.report (manifest : FileContent) (e : Engine) : Command → Outcome Report
  | .check ty =>
    let (bundle, e) := e.decide ty
    ((bundle.map (fun b => { text := bundleText b })).mapError .ofPattern, e)
  | .locks m => (locksReport m e.registries, e)
  | .verifyInventory path =>
    match Manifest.ofFile path manifest with
    | .error error => (.error (.error error), e)
    | .ok manifest =>
      let (found, e) := e.verifyInventory manifest
      (.ok { text := line found.text, inOrder := found.isComplete }, e)
  | .dumpSpecs => (.ok { text := specsText (e.registries.specs.all true) }, e)

end ClassPolicy.CommandLine
