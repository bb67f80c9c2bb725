import ClassPolicy.CommandLine.Arguments
import ClassPolicy.Descriptor

/-!
# Commands

What can be asked on the command line, and the form in which it is asked. Two
options go with every command and may stand before its name too; where one is
given in both places, the one after the name counts.
-/

set_option autoImplicit false

namespace ClassPolicy.CommandLine

inductive Command
  /-- How a type is transformed. -/
  | check (ty : TypeDescriptor)
  /-- The locks that apply to a member. -/
  | locks (m : MemberDescriptor)
  /-- Whether the manifest at the path lists what it has to. -/
  | verifyInventory (manifestPath : String)
  | dumpSpecs
deriving DecidableEq

structure Invocation where
  settingsPath : Option String
  logLevel : Option String
  command : Command
deriving DecidableEq

/-- The form of a command: its name, its options and its words. `read` makes
nothing of words that are too few. -/
structure Form where
  name : String
  kinds : OptionKinds
  wordKinds : List ArgumentKind
  read : Given → Option Command

def commonKinds : OptionKinds := [("settings", .path), ("log-level", .text)]

def checkForm : Form where
  name := "check"
  kinds := [("ancestor", .texts), ("interface", .flag)]
  wordKinds := [.text]
  read given :=
    match given.words with
    | [name] =>
      let ty := TypeDescriptor.named (.ofString name)
      some (.check { ty with
        ancestors := (given.values "ancestor").map TypeName.ofString
        modifiers := if given.has "interface" then ty.modifiers.add .interface
          else ty.modifiers })
    | _ => none

def locksForm : Form where
  name := "locks"
  kinds := [("synchronized", .flag), ("static", .flag), ("returns", .text), ("param", .texts)]
  wordKinds := [.text, .text]
  read given :=
    match given.words with
    | [declaring, method] =>
      let m := MemberDescriptor.named (.ofString declaring) method
      let modifiers := if given.has "synchronized" then m.modifiers.add .synchronized
        else m.modifiers
      some (.locks { m with
        modifiers := if given.has "static" then modifiers.add .static else modifiers
        returnType := (given.value? "returns").getD m.returnType
        parameterTypes := given.values "param" })
    | _ => none

def verifyInventoryForm : Form where
  name := "verify-inventory"
  kinds := []
  wordKinds := [.path]
  read given :=
    match given.words with
    | [path] => some (.verifyInventory path)
    | _ => none

def dumpSpecsForm : Form where
  name := "dump-specs"
  kinds := []
  wordKinds := []
  read _ := some .dumpSpecs

def forms : List Form := [checkForm, locksForm, verifyInventoryForm, dumpSpecsForm]

def form? (name : String) : Option Form := forms.find? (fun form => form.name = name)

def helpName : String := "help"

/-- Help may be asked for all or for one command. -/
def helpStop : List String → Stop
  | [] => .help
  | [name] => if (form? name).isSome || name = helpName then .help else .misuse
  | _ => .misuse

def Form.invocation (form : Form) (before : Given) (args : List String) :
    Except Stop Invocation := do
  let given ← takeAll (commonKinds ++ form.kinds) form.wordKinds {} args
  let before ← before.settle
  match form.read given with
  | none => .error .misuse
  | some command =>
    return {
      settingsPath := given.value? "settings" <|> before.value? "settings"
      logLevel := given.value? "log-level" <|> before.value? "log-level"
      command }

def Invocation.ofArguments (args : List String) : Except Stop Invocation := do
  let (before, rest) ← takeOptions commonKinds {} args
  match rest with
  | [] => .error .misuse
  | name :: rest =>
    if name = helpName then .error (helpStop rest)
    else match form? name with
      | none => .error .misuse
      | some form => form.invocation before rest

def usage : String :=
  "Usage: [--settings PATH] [--log-level LEVEL] COMMAND\n\n" ++
  "Commands:\n" ++
  "  check TYPE [--ancestor TYPE]... [--interface]\n" ++
  "  locks TYPE METHOD [--synchronized] [--static] [--returns TYPE] [--param TYPE]...\n" ++
  "  verify-inventory MANIFEST\n" ++
  "  dump-specs\n" ++
  "  help [COMMAND]\n"

end ClassPolicy.CommandLine
