import ClassPolicy.Pattern.MemberPattern

/-!
# Compiled patterns

Patterns that compiled are kept under their texts, type and member patterns
apart. A text that did not compile is not kept and fails again.
-/

set_option autoImplicit false

namespace ClassPolicy

structure PatternCache where
  types : SortedMap TypePattern
  members : SortedMap MemberPattern
deriving DecidableEq

namespace PatternCache

def empty : PatternCache := ⟨.empty, .empty⟩

def compiledCount (c : PatternCache) : Nat := c.types.size + c.members.size

/-- What a text compiles to, looked up among what is known first. -/
def compileOnce {α : Type} (compile : String → Except PatternError α) (pattern : String)
    (known : SortedMap α) : Except PatternError α × SortedMap α :=
  match known.get? pattern with
  | some compiled => (.ok compiled, known)
  | none =>
    match compile pattern with
    | .error e => (.error e, known)
    | .ok compiled => (.ok compiled, known.insert pattern compiled)

def typePattern (pattern : String) (c : PatternCache) :
    Except PatternError TypePattern × PatternCache :=
  let (compiled, types) := compileOnce TypePattern.compile pattern c.types
  (compiled, { c with types })

def memberPattern (pattern : String) (c : PatternCache) :
    Except PatternError MemberPattern × PatternCache :=
  let (compiled, members) := compileOnce MemberPattern.compile pattern c.members
  (compiled, { c with members })

def matchType (pattern : String) (ty : TypeDescriptor) (c : PatternCache) :
    Except PatternError Bool × PatternCache :=
  let (compiled, c) := c.typePattern pattern
  (compiled.map (·.matchesType ty), c)

def matchMember (pattern : String) (m : MemberDescriptor) (c : PatternCache) :
    Except PatternError Bool × PatternCache :=
  let (compiled, c) := c.memberPattern pattern
  (compiled.map (·.matchesMember m), c)

end PatternCache

end ClassPolicy
