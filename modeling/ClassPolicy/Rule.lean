import ClassPolicy.Failure
import ClassPolicy.Pattern.TypePattern

/-!
# Rules

Include and exclude rules are held in one list, the first match decides, and a
rule added later is consulted earlier. Types that are never transformed and
types that are not portable are named by two further lists of patterns, and
the namespaces of the runtime itself by their beginnings.
-/

set_option autoImplicit false

namespace ClassPolicy

/-- What happens when a shared instance is materialized. -/
inductive OnLoad
  | none
  | callConstructor
  | method (name : String)
  | script (source : String)
deriving DecidableEq, Repr, Inhabited

/-- What an include rule says of the types it matches. -/
structure IncludeAttributes where
  honorTransient : Bool := false
  honorVolatile : Bool := false
  onLoad : OnLoad := .none
deriving DecidableEq, Repr, Inhabited

inductive Disposition
  | included (attributes : IncludeAttributes)
  | excluded
  /-- No rule matched. -/
  | noOpinion
deriving DecidableEq, Repr

structure Rule where
  pattern : String
  disposition : Disposition
deriving DecidableEq, Repr

namespace OnLoad

def isSet (o : OnLoad) : Bool := o ≠ .none

def callsConstructor (o : OnLoad) : Bool := o = .callConstructor

def method? : OnLoad → Option String
  | .method name => some name
  | _ => Option.none

def script? : OnLoad → Option String
  | .script source => some source
  | _ => Option.none

def toJson : OnLoad → Json
  | .none => .string "none"
  | .callConstructor => .string "callConstructor"
  | .method name => .object [("method", .string name)]
  | .script source => .object [("script", .string source)]

def ofJson? (j : Json) : Option OnLoad :=
  Json.plainVariant? [("none", OnLoad.none), ("callConstructor", .callConstructor)] j <|>
    Json.textVariant? [("method", .method), ("script", .script)] j

end OnLoad

namespace IncludeAttributes

def toJson (a : IncludeAttributes) : Json := .object [
  ("honorTransient", .bool a.honorTransient),
  ("honorVolatile", .bool a.honorVolatile),
  ("onLoad", a.onLoad.toJson)]

def ofJson? (j : Json) : Option IncludeAttributes := do
  let members ← Json.record? ["honorTransient", "honorVolatile", "onLoad"] j
  let honorTransient ← Json.required members "honorTransient" Json.bool?
  let honorVolatile ← Json.required members "honorVolatile" Json.bool?
  let onLoad ← Json.required members "onLoad" OnLoad.ofJson?
  return ⟨honorTransient, honorVolatile, onLoad⟩

end IncludeAttributes

namespace Disposition

def isIncluded : Disposition → Bool
  | .included _ => true
  | _ => false

def attributes? : Disposition → Option IncludeAttributes
  | .included attributes => some attributes
  | _ => none

end Disposition

def Rule.including (pattern : String) (attributes : IncludeAttributes) : Rule :=
  ⟨pattern, .included attributes⟩

def Rule.excluding (pattern : String) : Rule := ⟨pattern, .excluded⟩

structure RuleRegistry where
  rules : List Rule := []
  permanentExcludes : List String := []
  nonPortable : List String := []
  internalNamespaces : List String
  allowsDynamicSubtypes : Bool := false
deriving DecidableEq

namespace RuleRegistry

/-- A block of rules goes ahead of all others and keeps its order. The outcome
of a lookup that found nothing is no rule. -/
def prependBlock (block : List Rule) (r : RuleRegistry) : Except Violation RuleRegistry :=
  match block.find? (fun rule => rule.disposition = .noOpinion) with
  | some rule => .error (.noOpinionRule rule.pattern)
  | none => .ok { r with rules := block ++ r.rules }

def prepend (rule : Rule) (r : RuleRegistry) : Except Violation RuleRegistry :=
  r.prependBlock [rule]

def addInclude (pattern : String) (attributes : IncludeAttributes) (r : RuleRegistry) :
    RuleRegistry :=
  { r with rules := .including pattern attributes :: r.rules }

def addExclude (pattern : String) (r : RuleRegistry) : RuleRegistry :=
  { r with rules := .excluding pattern :: r.rules }

def addPermanentExclude (pattern : String) (r : RuleRegistry) : RuleRegistry :=
  { r with permanentExcludes := pattern :: r.permanentExcludes }

def addNonPortable (pattern : String) (r : RuleRegistry) : RuleRegistry :=
  { r with nonPortable := pattern :: r.nonPortable }

def setAllowsDynamicSubtypes (allow : Bool) (r : RuleRegistry) : RuleRegistry :=
  { r with allowsDynamicSubtypes := allow }

def firstDisposition (ty : TypeDescriptor) : List Rule → Except PatternError Disposition
  | [] => .ok .noOpinion
  | rule :: rest =>
    match matchType rule.pattern ty with
    | .error e => .error e
    | .ok true => .ok rule.disposition
    | .ok false => firstDisposition ty rest

def disposition (r : RuleRegistry) (ty : TypeDescriptor) : Except PatternError Disposition :=
  firstDisposition ty r.rules

/-- Whether one of the patterns matches; those after the first match are not
looked at. -/
def anyMatches (ty : TypeDescriptor) : List String → Except PatternError Bool
  | [] => .ok false
  | pattern :: rest =>
    match matchType pattern ty with
    | .error e => .error e
    | .ok true => .ok true
    | .ok false => anyMatches ty rest

theorem anyMatches_cons_of_read {pattern : String} {p : TypePattern}
    (read : TypePattern.compile pattern = .ok p) (ty : TypeDescriptor) (rest : List String) :
    anyMatches ty (pattern :: rest) =
      if p.matchesType ty then .ok true else anyMatches ty rest := by
  simp only [anyMatches, matchType_of_read read]
  cases p.matchesType ty <;> rfl

theorem anyMatches_eq_ok_false_iff {ty : TypeDescriptor} {patterns : List String} :
    anyMatches ty patterns = .ok false ↔ ∀ p ∈ patterns, matchType p ty = .ok false := by
  induction patterns with
  | nil => simp [anyMatches]
  | cons p rest ih =>
    cases found : matchType p ty with
    | error e => simp [anyMatches, found]
    | ok here => cases here <;> simp [anyMatches, found, ih]

/-- Any other answer is that of the first pattern that does not merely miss. -/
theorem anyMatches_eq_iff_first {ty : TypeDescriptor} {patterns : List String}
    {answer : Except PatternError Bool} (hit : answer ≠ .ok false) :
    anyMatches ty patterns = answer ↔ ∃ before p after, patterns = before ++ p :: after ∧
      (∀ q ∈ before, matchType q ty = .ok false) ∧ matchType p ty = answer := by
  constructor
  · intro answered
    induction patterns with
    | nil => exact absurd answered.symm hit
    | cons p rest ih =>
      by_cases missed : matchType p ty = .ok false
      · simp only [anyMatches, missed] at answered
        obtain ⟨before, q, after, rfl, all, found⟩ := ih answered
        exact ⟨p :: before, q, after, rfl, List.forall_mem_cons.2 ⟨missed, all⟩, found⟩
      · refine ⟨[], p, rest, rfl, by simp, ?_⟩
        rw [← answered]
        cases found : matchType p ty with
        | error e => simp [anyMatches, found]
        | ok here =>
          cases here with
          | true => simp [anyMatches, found]
          | false => exact absurd found missed
  · rintro ⟨before, p, after, rfl, missed, found⟩
    induction before with
    | nil =>
      subst found
      cases found : matchType p ty with
      | error e => simp [anyMatches, found]
      | ok here =>
        cases here with
        | true => simp [anyMatches, found]
        | false => exact absurd found hit
    | cons q before ih =>
      obtain ⟨first, rest⟩ := List.forall_mem_cons.1 missed
      simpa [anyMatches, first] using ih rest

def isInternal (r : RuleRegistry) (name : String) : Bool :=
  r.internalNamespaces.any (fun start => start.toList.isPrefixOf name.toList)

def isPermanentlyExcluded (r : RuleRegistry) (ty : TypeDescriptor) : Except PatternError Bool :=
  anyMatches ty r.permanentExcludes

def isNonPortable (r : RuleRegistry) (ty : TypeDescriptor) : Except PatternError Bool :=
  anyMatches ty r.nonPortable

end RuleRegistry

end ClassPolicy
