import ClassPolicy.Json.Merge
import ClassPolicy.Json.Reader
import ClassPolicy.Settings.Codec
import ClassPolicy.Settings.Validation

/-!
# Where settings come from

Three layers: the defaults, the settings file laid over them, and the
environment. A missing file leaves the defaults. A variable whose value cannot
be read changes nothing. The policy is checked once all layers are in place.
-/

set_option autoImplicit false

namespace ClassPolicy

/-- What is found at a path. -/
inductive FileContent
  | missing
  /-- Something is there that is no text, such as a directory. -/
  | unreadable
  | text (content : String)
deriving DecidableEq, Repr

/-- The value of an environment variable, when it is set. -/
abbrev Environment := String → Option String

def lowercase (s : String) : String := s.map Char.toLower

/-- The accepted words are ASCII, and only ASCII letters have them as their
lower case. -/
def parseFlag (value : String) : Option Bool :=
  let word := lowercase value
  if ["true", "1", "yes", "on"].contains word then some true
  else if ["false", "0", "no", "off"].contains word then some false
  else none

def logLevels : List String := ["error", "warn", "info", "debug", "trace", "off"]

def parseLogLevel (value : String) : Option String :=
  let word := lowercase (String.ofList (Text.trim value.toList))
  if logLevels.contains word then some word else none

namespace Settings

/-- The default path of the settings file, below the home directory when there
is one. -/
def defaultPath (home : Option String) : String :=
  let home := home.getD "/tmp"
  let separator := if home.isEmpty || home.toList.getLast? = some '/' then "" else "/"
  home ++ separator ++ ".meld/settings.json"

/-- The file laid over the defaults. -/
def ofFile (path : String) (file : FileContent) : Except SettingsError Settings :=
  match file with
  | .missing => .ok {}
  | .unreadable => .error (.unreadable path)
  | .text content =>
    match Json.read? content with
    | none => .error .malformed
    | some document =>
      match ofJson? (Json.overlay (toJson {}) document) with
      | none => .error .malformed
      | some settings => .ok settings

/-- The variables that `override` looks at. -/
def overrideNames : List String :=
  ["MELD_LOG_LEVEL", "MELD_ALLOW_DYNAMIC_SUBTYPES", "MELD_INCLUDE_BUILTINS",
    "MELD_INVENTORY_MANIFEST", "MELD_VERIFY_INVENTORY"]

def override (env : Environment) (s : Settings) : Settings :=
  let flag (name : String) (value : Bool) : Bool := ((env name).bind parseFlag).getD value
  { s with
    logging := { s.logging with
      level := ((env "MELD_LOG_LEVEL").bind parseLogLevel).getD s.logging.level }
    policy := { s.policy with
      allowDynamicSubtypes := flag "MELD_ALLOW_DYNAMIC_SUBTYPES" s.policy.allowDynamicSubtypes
      includeBuiltins := flag "MELD_INCLUDE_BUILTINS" s.policy.includeBuiltins }
    inventory :=
      { manifestPath := ((env "MELD_INVENTORY_MANIFEST").filter (fun path => !path.isEmpty)) <|>
          s.inventory.manifestPath
        verifyOnStart := flag "MELD_VERIFY_INVENTORY" s.inventory.verifyOnStart } }

def load (path : String) (file : FileContent) (env : Environment) :
    Except SettingsError Settings := do
  let settings := override env (← ofFile path file)
  settings.policy.validate
  return settings

end Settings

end ClassPolicy
