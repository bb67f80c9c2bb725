import ClassPolicy.CommandLine.Report

/-!
# Sessions

From the arguments to what is shown and how it ends: the settings are loaded,
the engine is built from them and the command reports on it. How files are
read is left to the caller.
-/

set_option autoImplicit false

namespace ClassPolicy.CommandLine

inductive SessionError
  | settings (path : String) (e : SettingsError)
  | engine (f : Failure)
  | command (f : Failure)
deriving DecidableEq

/-- What went wrong, the outermost context first. -/
def SessionError.chain : SessionError → List String
  | .settings path e => ["Failed to load settings from " ++ path, e.message]
  | .engine f => ["Failed to build policy engine", f.message]
  | .command f => [f.message]

inductive Ending
  | helped
  | misused
  | failed (error : SessionError)
  | reported (report : Report)
deriving DecidableEq

structure Session where
  ending : Ending
  /-- The diagnostics that the log level lets through. -/
  diagnostics : List Diagnostic := []
deriving DecidableEq

namespace Session

def exitCode (s : Session) : UInt32 :=
  match s.ending with
  | .helped => 0
  | .misused => 2
  | .failed _ => 1
  | .reported report => if report.inOrder then 0 else 1

/-- The text on standard output. -/
def output (s : Session) : String :=
  match s.ending with
  | .helped => usage
  | .reported report => report.text
  | _ => ""

def failure (s : Session) : List String :=
  match s.ending with
  | .failed error => error.chain
  | _ => []

end Session

/-- Whether a log level lets diagnostics of a level through. -/
def showsAt (logLevel : String) : DiagnosticLevel → Bool
  | .error => logLevel ≠ "off"
  | .info => ["info", "debug", "trace"].contains logLevel

def shown (logLevel : String) (journal : List Diagnostic) : List Diagnostic :=
  journal.filter (fun d => showsAt logLevel d.level)

/-- What is found at a path, when there is one. -/
def readIfSome {m : Type → Type} [Monad m] (read : String → m FileContent) :
    Option String → m FileContent
  | some path => read path
  | none => pure .missing

def Invocation.run {m : Type → Type} [Monad m] (read : String → m FileContent)
    (env : Environment) (invocation : Invocation) : m Session := do
  let path := invocation.settingsPath.getD (Settings.defaultPath (env "HOME"))
  match Settings.load path (← read path) env with
  | .error error => return { ending := .failed (.settings path error) }
  | .ok settings =>
    let level := invocation.logLevel.getD settings.logging.level
    match Engine.bootstrap settings (← readIfSome read settings.inventory.manifestPath) with
    | (.error failure, e) =>
      return { ending := .failed (.engine failure), diagnostics := shown level e.journal }
    | (.ok (), e) =>
      let manifest ← readIfSome read invocation.command.manifestPath?
      let (outcome, e) := invocation.command.report manifest e
      return {
        ending := match outcome with
          | .error failure => .failed (.command failure)
          | .ok report => .reported report
        diagnostics := shown level e.journal }

/-- A whole session. -/
def run {m : Type → Type} [Monad m] (read : String → m FileContent) (env : Environment)
    (args : List String) : m Session :=
  match Invocation.ofArguments args with
  | .error .help => pure { ending := .helped }
  | .error .misuse => pure { ending := .misused }
  | .ok invocation => invocation.run read env

/-- The variables that a session may look at. -/
def environmentNames : List String := "HOME" :: Settings.overrideNames

end ClassPolicy.CommandLine
