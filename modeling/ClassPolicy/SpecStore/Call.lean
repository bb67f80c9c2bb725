import ClassPolicy.SpecStore

/-!
# Calls on a spec store

Every call that can be made on a store by itself, with the type of its answer,
and what performing it gives. Names are given in either spelling.
-/

set_option autoImplicit false

namespace ClassPolicy

/-- A spec after some edits, and the failure that stopped them. -/
abbrev EditedSpec := ClassSpec × Option LogicalMoveError

inductive StoreCall : Type → Type 1
  | insert (partition : Partition) (spec : ClassSpec) : StoreCall Unit
  | get (name : String) : StoreCall (Option ClassSpec)
  | edit (name : String) (edits : List SpecEdit) : StoreCall (Option EditedSpec)
  | contains (name : String) : StoreCall Bool
  | partition (name : String) : StoreCall (Option Partition)
  | getOrInsert (name : String) (make : ClassSpec) (edits : List SpecEdit) : StoreCall EditedSpec
  | remove (name : String) : StoreCall (Option ClassSpec)
  | all (includeInventory : Bool) : StoreCall (List ClassSpec)
  | markAllPreInstrumented : StoreCall Unit
  | size (partition : Partition) : StoreCall Nat

/-- The spec that a call brings along for a missing one has the name asked
for. -/
def StoreCall.Apt {α : Type} : StoreCall α → Prop
  | .getOrInsert name make _ => make.name = TypeName.ofString name
  | _ => True

namespace SpecStore

variable {α : Type}

/-- One of the two partitions. -/
def held (s : SpecStore) : Partition → SortedMap ClassSpec
  | .live => s.live
  | .inventory => s.inventory

/-- Edits a spec that stands under a name. -/
def editFound (name : TypeName) (spec : ClassSpec) (edits : List SpecEdit) (s : SpecStore) :
    EditedSpec × SpecStore :=
  (spec.editAll edits, s.replace name (spec.editAll edits).1)

def perform : StoreCall α → SpecStore → Except Violation α × SpecStore
  | .insert partition spec, s =>
    match s.insert partition spec with
    | .error v => (.error v, s)
    | .ok s => (.ok (), s)
  | .get name, s => (s.lookup (TypeName.ofString name), s)
  | .edit name edits, s =>
    match s.lookup (TypeName.ofString name) with
    | .error v => (.error v, s)
    | .ok none => (.ok none, s)
    | .ok (some spec) =>
      let (edited, s) := s.editFound (TypeName.ofString name) spec edits
      (.ok (some edited), s)
  | .contains name, s => ((s.lookup (TypeName.ofString name)).map Option.isSome, s)
  | .partition name, s => (.ok (s.partition? (TypeName.ofString name)), s)
  | .getOrInsert name make edits, s =>
    match s.lookup (TypeName.ofString name) with
    | .error v => (.error v, s)
    | .ok _ =>
      let (spec, s) := s.getOrInsert (TypeName.ofString name) make
      let (edited, s) := s.editFound (TypeName.ofString name) spec edits
      (.ok edited, s)
  | .remove name, s =>
    let (found, s) := s.remove (TypeName.ofString name)
    (.ok found, s)
  | .all includeInventory, s => (.ok (s.all includeInventory), s)
  | .markAllPreInstrumented, s => (.ok (), s.markAllPreInstrumented)
  | .size partition, s => (.ok (s.held partition).size, s)

end SpecStore

/-- A call on a store together with the type of its answer. -/
structure AnyStoreCall where
  {answer : Type}
  call : StoreCall answer

def SpecStore.run (calls : List AnyStoreCall) (s : SpecStore) : SpecStore :=
  calls.foldl (fun s c => (s.perform c.call).2) s

end ClassPolicy
