import ClassPolicy.Adaptability
import ClassPolicy.TransformMode
import ClassPolicy.TypeName

/-!
# The decision cache

Decisions and modes are remembered by type name, each with the generation it
was computed under. A change of the policy starts a new generation and clears
both memories. What was computed under another generation is neither stored
nor served.
-/

set_option autoImplicit false

namespace ClassPolicy

structure Tagged (α : Type) where
  generation : Nat
  value : α
deriving DecidableEq

structure DecisionCache where
  generation : Nat := 0
  decisions : SortedMap (Tagged Adaptability) := .empty
  modes : SortedMap (Tagged TransformMode) := .empty
deriving DecidableEq

namespace DecisionCache

def empty : DecisionCache := {}

def lookup {α : Type} (memory : SortedMap (Tagged α)) (name : TypeName) (generation : Nat) :
    Option α :=
  match memory.get? name.text with
  | some entry => if entry.generation = generation then some entry.value else none
  | none => none

def decision? (c : DecisionCache) (name : TypeName) (generation : Nat) : Option Adaptability :=
  lookup c.decisions name generation

def mode? (c : DecisionCache) (name : TypeName) (generation : Nat) : Option TransformMode :=
  lookup c.modes name generation

def storeDecision (name : TypeName) (generation : Nat) (value : Adaptability)
    (c : DecisionCache) : DecisionCache :=
  if generation = c.generation then
    { c with decisions := c.decisions.insert name.text ⟨generation, value⟩ }
  else c

def storeMode (name : TypeName) (generation : Nat) (value : TransformMode)
    (c : DecisionCache) : DecisionCache :=
  if generation = c.generation then
    { c with modes := c.modes.insert name.text ⟨generation, value⟩ }
  else c

def invalidate (c : DecisionCache) : DecisionCache := { generation := c.generation + 1 }

/-- The number of remembered decisions. -/
def size (c : DecisionCache) : Nat := c.decisions.size

theorem lookup_insert {α : Type} (memory : SortedMap (Tagged α)) (name name' : TypeName)
    (generation : Nat) (value : α) :
    lookup (memory.insert name.text ⟨generation, value⟩) name' generation =
      if name' = name then some value else lookup memory name' generation := by
  by_cases same : name' = name
  · simp [lookup, SortedMap.get?_insert, same]
  · simp [lookup, SortedMap.get?_insert, TypeName.text_inj, same]

@[simp] theorem generation_storeDecision (name : TypeName) (generation : Nat)
    (value : Adaptability) (c : DecisionCache) :
    (c.storeDecision name generation value).generation = c.generation := by
  unfold storeDecision
  split <;> rfl

@[simp] theorem generation_storeMode (name : TypeName) (generation : Nat) (value : TransformMode)
    (c : DecisionCache) : (c.storeMode name generation value).generation = c.generation := by
  unfold storeMode
  split <;> rfl

theorem decision?_storeDecision (name name' : TypeName) (value : Adaptability)
    (c : DecisionCache) :
    (c.storeDecision name c.generation value).decision? name' c.generation =
      if name' = name then some value else c.decision? name' c.generation := by
  simp only [storeDecision, ↓reduceIte, decision?, lookup_insert]

theorem mode?_storeMode (name name' : TypeName) (value : TransformMode) (c : DecisionCache) :
    (c.storeMode name c.generation value).mode? name' c.generation =
      if name' = name then some value else c.mode? name' c.generation := by
  simp only [storeMode, ↓reduceIte, mode?, lookup_insert]

@[simp] theorem mode?_storeDecision (name name' : TypeName) (generation asOf : Nat)
    (value : Adaptability) (c : DecisionCache) :
    (c.storeDecision name generation value).mode? name' asOf = c.mode? name' asOf := by
  unfold storeDecision
  split <;> rfl

@[simp] theorem decision?_storeMode (name name' : TypeName) (generation asOf : Nat)
    (value : TransformMode) (c : DecisionCache) :
    (c.storeMode name generation value).decision? name' asOf = c.decision? name' asOf := by
  unfold storeMode
  split <;> rfl

/-- A new generation remembers nothing. -/
@[simp] theorem decision?_invalidate (c : DecisionCache) (name : TypeName) (generation : Nat) :
    c.invalidate.decision? name generation = none := rfl

@[simp] theorem mode?_invalidate (c : DecisionCache) (name : TypeName) (generation : Nat) :
    c.invalidate.mode? name generation = none := rfl

end DecisionCache

end ClassPolicy
