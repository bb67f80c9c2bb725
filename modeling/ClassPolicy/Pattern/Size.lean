import ClassPolicy.Pattern.Error
import ClassPolicy.Pattern.Glob

/-!
# Sizes of globs

A glob stands for two automata over the UTF-8 bytes of a name: one reads the
name forwards and records where the match begins and ends, one reads it
backwards. The pieces alone tell how many bytes each automaton takes. A glob
is bounded when neither takes more than the limit.
-/

set_option autoImplicit false

namespace ClassPolicy.Glob

def stateBytes : Nat := 32

def transitionBytes : Nat := 8

def branchBytes : Nat := 4

/-- A state that enters the part before it once more or goes on. -/
def loopBytes : Nat := stateBytes + 2 * branchBytes

structure Automaton where
  /-- The states around the pieces. -/
  frame : Nat
  /-- The states that read any character but one. -/
  anyButOne : Nat

/-- Characters with the same last bytes share the states for them. -/
def forwards : Automaton := ⟨6 * stateBytes, 9 * stateBytes + 17 * transitionBytes⟩

/-- The last byte is read first, so each of the ten ranges of characters has
its own states. -/
def backwards : Automaton := ⟨4 * stateBytes, 30 * stateBytes + 10 * branchBytes⟩

namespace Automaton

def pieceSize (a : Automaton) : Piece → Nat
  | .char c => c.utf8Size * stateBytes
  | .run _ => a.anyButOne + loopBytes
  | .packages => a.anyButOne + loopBytes + stateBytes + loopBytes

def size (a : Automaton) (g : Glob) : Nat :=
  g.foldr (fun piece n => a.pieceSize piece + n) a.frame

end Automaton

def sizeLimit : Nat := 10485760

def fits (g : Glob) : Bool := forwards.size g ≤ sizeLimit && backwards.size g ≤ sizeLimit

/-- A glob itself, unless it is too large. -/
def bounded? (g : Glob) : Except PatternFault Glob :=
  if g.fits then .ok g else .error (.tooLarge sizeLimit)

theorem bounded?_eq_ok_iff {g h : Glob} : g.bounded? = .ok h ↔ g.fits = true ∧ g = h := by
  by_cases hg : g.fits = true <;> simp [bounded?, hg]

end ClassPolicy.Glob
