import ClassPolicy.Text.Cut

/-!
# Arguments

Options are written `--name value` or `--name=value`, flags `--name`, and they
may stand before, between and after the words of a command. After `--` all
arguments are words. Arguments are read from the left, and the first one that
does not fit ends the reading, as does a call for help. A value that stands
apart from its option is checked when the reading goes on to the next option
or word, or ends; the reading of a command comes before that.
-/

set_option autoImplicit false

namespace ClassPolicy.CommandLine

inductive ArgumentKind
  | flag
  | text
  /-- A text that is not empty. -/
  | path
  /-- A text that may be given again. -/
  | texts
deriving DecidableEq, Repr

def ArgumentKind.allows (kind : ArgumentKind) (value : String) : Bool :=
  kind ≠ .path || !value.isEmpty

/-- Why arguments are not carried out. -/
inductive Stop
  | help
  | misuse
deriving DecidableEq, Repr

/-- An option with its value, an empty one for a flag. -/
structure GivenOption where
  name : String
  kind : ArgumentKind
  value : String
deriving DecidableEq, Repr

structure Given where
  /-- The options in the order given, a flag with an empty value. -/
  options : List (String × String) := []
  words : List String := []
  /-- The option whose value is still to be checked. -/
  pending : Option GivenOption := none
deriving DecidableEq, Repr

namespace Given

def has (given : Given) (name : String) : Bool := (given.options.lookup name).isSome

def value? (given : Given) (name : String) : Option String := given.options.lookup name

def values (given : Given) (name : String) : List String :=
  (given.options.filter (fun o => o.1 = name)).map (·.2)

def addOption (given : Given) (o : GivenOption) : Except Stop Given :=
  if o.kind ≠ .texts && given.has o.name then .error .misuse
  else if !o.kind.allows o.value then .error .misuse
  else .ok { given with options := given.options ++ [(o.name, o.value)] }

def addWord (given : Given) (kind : ArgumentKind) (word : String) : Except Stop Given :=
  if kind.allows word then .ok { given with words := given.words ++ [word] } else .error .misuse

/-- The arguments given once what is pending has been checked. -/
def settle (given : Given) : Except Stop Given :=
  match given.pending with
  | none => .ok given
  | some o => { given with pending := none }.addOption o

end Given

abbrev OptionKinds := List (String × ArgumentKind)

/-- A lone `-` is a word. -/
def isOption (arg : String) : Bool := "-".toList.isPrefixOf arg.toList && arg ≠ "-"

/-- The name of a long option and the value attached to it. -/
def longOption? (arg : String) : Option (String × Option String) :=
  match arg.toList with
  | '-' :: '-' :: rest =>
    match Text.cutFirst? '=' rest with
    | some (name, value) => some (String.ofList name, some (String.ofList value))
    | none => some (String.ofList rest, none)
  | _ => none

def asksForHelp (arg : String) : Bool := arg = "--help" || "-h".toList.isPrefixOf arg.toList

/-- Reads options up to the first word or `--`. -/
def takeOptions (kinds : OptionKinds) (given : Given) :
    List String → Except Stop (Given × List String)
  | [] => .ok (given, [])
  | arg :: rest =>
    if !isOption arg || arg = "--" then .ok (given, arg :: rest)
    else match given.settle with
      | .error stop => .error stop
      | .ok given =>
        if asksForHelp arg then .error .help
        else match longOption? arg with
          | none => .error .misuse
          | some (name, attached) =>
            match kinds.lookup name, attached, rest with
            | none, _, _ => .error .misuse
            | some .flag, some _, _ => .error .misuse
            | some .flag, none, rest =>
              match given.addOption ⟨name, .flag, ""⟩ with
              | .error stop => .error stop
              | .ok given => takeOptions kinds given rest
            | some kind, some value, rest =>
              match given.addOption ⟨name, kind, value⟩ with
              | .error stop => .error stop
              | .ok given => takeOptions kinds given rest
            | some _, none, [] => .error .misuse
            | some kind, none, value :: rest =>
              if isOption value then .error .misuse
              else takeOptions kinds { given with pending := some ⟨name, kind, value⟩ } rest

/-- Reads options and words of the given kinds, to the end. -/
def takeAll (kinds : OptionKinds) : List ArgumentKind → Given → List String → Except Stop Given
  | wordKinds, given, args =>
    match takeOptions kinds given args with
    | .error stop => .error stop
    | .ok (given, rest) =>
      match given.settle, rest, wordKinds with
      | .error stop, _, _ => .error stop
      | .ok given, [], _ => .ok given
      | .ok given, "--" :: words, wordKinds =>
        if words.length ≤ wordKinds.length then
          (wordKinds.zip words).foldlM (fun given word => given.addWord word.1 word.2) given
        else .error .misuse
      | .ok _, _, [] => .error .misuse
      | .ok given, word :: rest, kind :: wordKinds =>
        match given.addWord kind word with
        | .error stop => .error stop
        | .ok given => takeAll kinds wordKinds given rest

end ClassPolicy.CommandLine
