import ClassPolicy.Failure
import ClassPolicy.Pattern.MemberPattern

/-!
# Locks

A lock definition is built, committed and only then read; it is frozen from
there on. Lock rules bind definitions to member patterns, the latest first.
All named locks that match a member apply to it, and at most one autolock: the
first that matches, unless the member is exempted from autolocks.
-/

set_option autoImplicit false

namespace ClassPolicy

inductive LockMode
  | read
  | write
  | concurrent
  | synchronousWrite
deriving DecidableEq, Repr, Inhabited

/-- An auto-synchronized level is meant for members that are not synchronized
themselves. -/
structure LockLevel where
  mode : LockMode
  autoSynchronized : Bool := false
deriving DecidableEq, Repr, Inhabited

structure LockDefinition where
  name : String
  level : LockLevel
  provenance : Option String := none
  committed : Bool := false
deriving DecidableEq

namespace LockMode

def all : List LockMode := [.read, .write, .concurrent, .synchronousWrite]

def text : LockMode → String
  | .read => "read"
  | .write => "write"
  | .concurrent => "concurrent"
  | .synchronousWrite => "synchronous-write"

def name : LockMode → String
  | .read => "read"
  | .write => "write"
  | .concurrent => "concurrent"
  | .synchronousWrite => "synchronousWrite"

def autoSynchronizedName : LockMode → String
  | .read => "autoSynchronizedRead"
  | .write => "autoSynchronizedWrite"
  | .concurrent => "autoSynchronizedConcurrent"
  | .synchronousWrite => "autoSynchronizedSynchronousWrite"

def toJson (mode : LockMode) : Json := .string mode.name

def ofJson? : Json → Option LockMode :=
  Json.plainVariant? (all.map (fun mode => (mode.name, mode)))

end LockMode

namespace LockLevel

def autoVariant (level : LockLevel) : LockLevel := { level with autoSynchronized := true }

def text (level : LockLevel) : String :=
  (if level.autoSynchronized then "auto-synchronized-" else "") ++ level.mode.text

def name (level : LockLevel) : String :=
  if level.autoSynchronized then level.mode.autoSynchronizedName else level.mode.name

def all : List LockLevel := LockMode.all.map (⟨·, false⟩) ++ LockMode.all.map (⟨·, true⟩)

def toJson (level : LockLevel) : Json := .string level.name

def ofJson? : Json → Option LockLevel :=
  Json.plainVariant? (all.map (fun level => (level.name, level)))

end LockLevel

namespace LockDefinition

/-- The name that all autolocks share. -/
def autolockName : String := "autolock"

/-- A definition that is still to be committed. -/
def named (name : String) (level : LockLevel) : LockDefinition := { name, level }

def autolock (level : LockLevel) : LockDefinition := named autolockName level

/-- Changes a definition that is not yet committed. -/
def change (f : LockDefinition → LockDefinition) (d : LockDefinition) :
    Except Violation LockDefinition :=
  if d.committed then .error (.lockFrozen d.name) else .ok (f d)

def setName (name : String) : LockDefinition → Except Violation LockDefinition :=
  change ({ · with name })

def setLevel (level : LockLevel) : LockDefinition → Except Violation LockDefinition :=
  change ({ · with level })

def setProvenance (text : String) : LockDefinition → Except Violation LockDefinition :=
  change ({ · with provenance := some text })

def commit : LockDefinition → Except Violation LockDefinition :=
  change ({ · with committed := true })

/-- Commits a definition, with a note of where it came from if that is known. -/
def complete (provenance : Option String) (d : LockDefinition) : Except Violation LockDefinition :=
  match provenance with
  | none => d.commit
  | some text =>
    match d.setProvenance text with
    | .error v => .error v
    | .ok d => d.commit

def buildAutolock (level : LockLevel) (provenance : Option String) :
    Except Violation LockDefinition := (autolock level).complete provenance

def committedAutolock (level : LockLevel) (provenance : Option String) : LockDefinition :=
  { name := autolockName, level, provenance, committed := true }

/-- A definition that was not committed before is completed without a
violation. -/
theorem complete_named (name : String) (level : LockLevel) (provenance : Option String) :
    (named name level).complete provenance =
      .ok { name, level, provenance, committed := true } := by
  cases provenance <;> rfl

theorem buildAutolock_eq (level : LockLevel) (provenance : Option String) :
    buildAutolock level provenance = .ok (committedAutolock level provenance) :=
  complete_named autolockName level provenance

/-- Reads a definition that is committed. -/
def read {α : Type} (f : LockDefinition → α) (d : LockDefinition) : Except Violation α :=
  if d.committed then .ok (f d) else .error (.lockReadEarly d.name)

def isAutolock (d : LockDefinition) : Except Violation Bool :=
  d.read (fun d => d.name = autolockName)

def text (d : LockDefinition) : String :=
  d.name ++ " (" ++ d.level.text ++ ")" ++
    match d.provenance with
    | some provenance => " [" ++ provenance ++ "]"
    | none => ""

end LockDefinition

structure LockRule where
  pattern : String
  definition : LockDefinition
deriving DecidableEq

structure LockPolicy where
  rules : List LockRule := []
  autolockExcludes : List String := []
deriving DecidableEq

namespace LockPolicy

def empty : LockPolicy := {}

/-- The policy with a rule put before those it has. -/
def prepend (rule : LockRule) (p : LockPolicy) : LockPolicy := { p with rules := rule :: p.rules }

def add (pattern : String) (definition : LockDefinition) (p : LockPolicy) :
    Except Violation LockPolicy :=
  if definition.committed then .ok (p.prepend ⟨pattern, definition⟩)
  else .error (.lockUncommitted pattern)

def addAutolockExclude (pattern : String) (p : LockPolicy) : LockPolicy :=
  { p with autolockExcludes := p.autolockExcludes ++ [pattern] }

def anyMatches (m : MemberDescriptor) : List String → Except PatternError Bool
  | [] => .ok false
  | pattern :: rest =>
    match matchMember pattern m with
    | .error e => .error e
    | .ok true => .ok true
    | .ok false => anyMatches m rest

def isAutolockExcluded (p : LockPolicy) (m : MemberDescriptor) : Except PatternError Bool :=
  anyMatches m p.autolockExcludes

/-- The definitions of the rules that match, in their order. An autolock is
taken only while `autolockOpen`, which ends with the first one. -/
def collect (m : MemberDescriptor) :
    Bool → List LockRule → Except Failure (List LockDefinition)
  | _, [] => .ok []
  | autolockOpen, rule :: rest =>
    match matchMember rule.pattern m with
    | .error e => .error (.ofPattern e)
    | .ok false => collect m autolockOpen rest
    | .ok true =>
      match rule.definition.isAutolock with
      | .error v => .error (.violation v)
      | .ok true =>
        if autolockOpen then (collect m false rest).map (rule.definition :: ·)
        else collect m autolockOpen rest
      | .ok false => (collect m autolockOpen rest).map (rule.definition :: ·)

def definitionsFor (p : LockPolicy) (m : MemberDescriptor) :
    Except Failure (List LockDefinition) :=
  match p.isAutolockExcluded m with
  | .error e => .error (.ofPattern e)
  | .ok excluded => collect m (!excluded) p.rules

/-- The first definition that reads as an autolock. -/
def firstAutolock : List LockDefinition → Except Violation (Option LockDefinition)
  | [] => .ok none
  | d :: rest =>
    match d.isAutolock with
    | .error v => .error v
    | .ok true => .ok (some d)
    | .ok false => firstAutolock rest

/-- Whether the definitions call for a lock: a named one always does, an
autolock when the member is synchronized on its instance. -/
def callForLock (instanceSynchronized : Bool) : List LockDefinition → Except Violation Bool
  | [] => .ok false
  | d :: rest =>
    match d.isAutolock with
    | .error v => .error v
    | .ok autolock =>
      if !autolock || instanceSynchronized then .ok true
      else callForLock instanceSynchronized rest

def isLockMethod (p : LockPolicy) (m : MemberDescriptor) : Except Failure Bool :=
  match p.definitionsFor m with
  | .error e => .error e
  | .ok definitions =>
    (callForLock m.modifiers.isInstanceSynchronized definitions).mapError .violation

def autolockFor (p : LockPolicy) (m : MemberDescriptor) :
    Except Failure (Option LockDefinition) :=
  match p.definitionsFor m with
  | .error e => .error e
  | .ok definitions => (firstAutolock definitions).mapError .violation

end LockPolicy

end ClassPolicy
