import ClassPolicy.CommandLine.Session

/-!
# The command line program

Hands the arguments, the environment and the files to a session and shows what
comes of it.
-/

set_option autoImplicit false

namespace ClassPolicy.CommandLine

def readFile (path : String) : IO FileContent := do
  try
    return .text (← IO.FS.readFile path)
  catch
    | .noFileOrDirectory .. => return .missing
    | _ => return .unreadable

def readEnvironment : IO Environment := do
  let values ← environmentNames.mapM (fun name => return (name, ← IO.getEnv name))
  return fun name => (values.lookup name).bind id

def diagnosticLine (d : Diagnostic) : String :=
  (match d.level with
    | .error => "ERROR "
    | .info => "INFO ") ++ d.message ++
      String.join (d.fields.map (fun field => " " ++ field.1 ++ "=" ++ field.2))

def showSession (session : Session) : IO Unit := do
  session.diagnostics.forM (fun d => IO.eprintln (diagnosticLine d))
  match session.failure with
  | [] => pure ()
  | outermost :: causes =>
    IO.eprintln ("Error: " ++ outermost)
    causes.forM (fun cause => IO.eprintln ("Caused by: " ++ cause))
  if session.ending = .misused then IO.eprint usage
  IO.print session.output

end ClassPolicy.CommandLine

open ClassPolicy.CommandLine in
def main (args : List String) : IO UInt32 := do
  let session ← run readFile (← readEnvironment) args
  showSession session
  return session.exitCode
