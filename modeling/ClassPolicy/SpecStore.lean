import ClassPolicy.ClassSpec

/-!
# The spec store

Specs are held in two partitions: those registered at run time and those that
belong to the inventory of types shipped already instrumented. A type has a
spec in at most one of them, since a spec is only ever added for a name that
neither partition holds; to look up a name that both hold breaks the contract
of the store.
-/

set_option autoImplicit false

namespace ClassPolicy

inductive Partition
  | live
  | inventory
deriving DecidableEq, Repr

structure SpecStore where
  live : SortedMap ClassSpec := .empty
  inventory : SortedMap ClassSpec := .empty
deriving DecidableEq

namespace SpecStore

def empty : SpecStore := {}

/-- The spec under a name, where at most one partition holds the name. -/
def get? (s : SpecStore) (name : TypeName) : Option ClassSpec :=
  s.live.get? name.text <|> s.inventory.get? name.text

def contains (s : SpecStore) (name : TypeName) : Bool := (s.get? name).isSome

/-- The spec under a name, which must not stand in both partitions. -/
def lookup (name : TypeName) (s : SpecStore) : Except Violation (Option ClassSpec) :=
  if s.live.contains name.text && s.inventory.contains name.text then
    .error (.specInBoth name)
  else .ok (s.get? name)

def partition? (s : SpecStore) (name : TypeName) : Option Partition :=
  if s.live.contains name.text then some .live
  else if s.inventory.contains name.text then some .inventory
  else none

/-- The store with a spec put under a name in one of the partitions. -/
def put (partition : Partition) (name : TypeName) (spec : ClassSpec) (s : SpecStore) : SpecStore :=
  match partition with
  | .live => { s with live := s.live.insert name.text spec }
  | .inventory => { s with inventory := s.inventory.insert name.text spec }

def insert (partition : Partition) (spec : ClassSpec) (s : SpecStore) :
    Except Violation SpecStore :=
  if s.contains spec.name then .error (.duplicateSpec spec.name)
  else .ok (s.put partition spec.name spec)

/-- The spec under a name; a missing one is first made and put in the live
partition. -/
def getOrInsert (name : TypeName) (make : ClassSpec) (s : SpecStore) : ClassSpec × SpecStore :=
  match s.get? name with
  | some spec => (spec, s)
  | none => (make, s.put .live name make)

/-- Replaces the spec under a name where it stands. -/
def replace (name : TypeName) (spec : ClassSpec) (s : SpecStore) : SpecStore :=
  match s.partition? name with
  | some partition => s.put partition name spec
  | none => s

def remove (name : TypeName) (s : SpecStore) : Option ClassSpec × SpecStore :=
  (s.get? name, ⟨s.live.erase name.text, s.inventory.erase name.text⟩)

/-- The live specs in order of their names, with those of the inventory on
request. -/
def all (includeInventory : Bool) (s : SpecStore) : List ClassSpec :=
  (s.live.values ++ if includeInventory then s.inventory.values else []).mergeSort
    (fun a b => a.name.text ≤ b.name.text)

def markAllPreInstrumented (s : SpecStore) : SpecStore :=
  { s with live := s.live.map ClassSpec.markPreInstrumented }

theorem get?_eq_none_iff {s : SpecStore} {name : TypeName} :
    s.get? name = none ↔ s.live.get? name.text = none ∧ s.inventory.get? name.text = none := by
  simp [get?]

theorem contains_of_some {s : SpecStore} {name : TypeName} {spec : ClassSpec}
    (found : s.get? name = some spec) : s.contains name = true := by
  rw [contains, found, Option.isSome_some]

theorem contains_of_none {s : SpecStore} {name : TypeName} (absent : s.get? name = none) :
    s.contains name = false := by
  rw [contains, absent, Option.isSome_none]

/-- The lookup of a name answers with its spec or breaks the contract. -/
theorem lookup_cases (s : SpecStore) (name : TypeName) :
    s.lookup name = .ok (s.get? name) ∨
      s.lookup name = .error (.specInBoth name) ∧ s.contains name = true := by
  unfold lookup
  split
  · rename_i both
    have live : (s.live.get? name.text).isSome = true := (Bool.and_eq_true_iff.1 both).1
    exact .inr ⟨rfl, by simp [contains, get?, live]⟩
  · exact .inl rfl

/-- What is put under a free name is found there, and nowhere else. -/
theorem get?_put_of_absent {s : SpecStore} {name : TypeName} (absent : s.get? name = none)
    (partition : Partition) (spec : ClassSpec) (name' : TypeName) :
    (s.put partition name spec).get? name' = if name' = name then some spec else s.get? name' := by
  obtain ⟨notLive, notInventory⟩ := get?_eq_none_iff.1 absent
  by_cases same : name' = name
  · cases partition <;> simp [put, get?, SortedMap.get?_insert, same, notLive]
  · cases partition <;> simp [put, get?, SortedMap.get?_insert, TypeName.text_inj, same]

/-- Marking reaches the specs of the live partition and adds or drops none. -/
theorem get?_markAllPreInstrumented (s : SpecStore) (name : TypeName) :
    s.markAllPreInstrumented.get? name = s.get? name ∨
      s.markAllPreInstrumented.get? name = (s.get? name).map ClassSpec.markPreInstrumented := by
  simp only [get?, markAllPreInstrumented, SortedMap.get?_map]
  cases s.live.get? name.text with
  | none => exact .inl rfl
  | some spec => exact .inr rfl

end SpecStore

end ClassPolicy
