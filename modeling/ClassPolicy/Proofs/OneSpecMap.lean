import ClassPolicy.SpecStore.Call
import Mathlib.Data.List.Perm.Lattice
import Mathlib.Tactic.Common

/-!
# The spec store as one map

The two partitions of a store stand for one map, from the name of a type to its
spec and the partition it is in. Each call does to the partitions what a plain
call does to the map, and answers alike, so along every run the store cannot be
told from the map, and no lookup ever finds a spec in both partitions.
-/

set_option autoImplicit false

namespace ClassPolicy

/-- The specs of both partitions in one map. -/
abbrev SpecMap := SortedMap (Partition × ClassSpec)

namespace SpecMap

variable {α : Type}

/-- Replaces the spec of an entry by what edits make of it. -/
def editFound (key : String) (entry : Partition × ClassSpec) (edits : List SpecEdit)
    (m : SpecMap) : EditedSpec × SpecMap :=
  (entry.2.editAll edits, m.insert key (entry.1, (entry.2.editAll edits).1))

/-- A live entry with its spec flagged as pre-instrumented, and nothing else of
it changed. -/
def markLive (entry : Partition × ClassSpec) : Partition × ClassSpec :=
  match entry with
  | (.live, spec) => (.live, { spec with preInstrumented := true })
  | (.inventory, spec) => (.inventory, spec)

/-- What a call on a store amounts to on the one map. Only a spec for a name
that has one already is refused. -/
def perform : StoreCall α → SpecMap → Except Violation α × SpecMap
  | .insert partition spec, m =>
    if m.contains spec.name.text then (.error (.duplicateSpec spec.name), m)
    else (.ok (), m.insert spec.name.text (partition, spec))
  | .get name, m => (.ok ((m.get? (TypeName.ofString name).text).map (·.2)), m)
  | .edit name edits, m =>
    match m.get? (TypeName.ofString name).text with
    | none => (.ok none, m)
    | some entry =>
      let (edited, m) := editFound (TypeName.ofString name).text entry edits m
      (.ok (some edited), m)
  | .contains name, m => (.ok (m.contains (TypeName.ofString name).text), m)
  | .partition name, m => (.ok ((m.get? (TypeName.ofString name).text).map (·.1)), m)
  | .getOrInsert name make edits, m =>
    let entry := (m.get? (TypeName.ofString name).text).getD (.live, make)
    let (edited, m) := editFound (TypeName.ofString name).text entry edits m
    (.ok edited, m)
  | .remove name, m =>
    (.ok ((m.get? (TypeName.ofString name).text).map (·.2)),
      m.erase (TypeName.ofString name).text)
  | .all includeInventory, m =>
    (.ok ((m.values.filter (fun e => e.1 = .live || includeInventory)).map (·.2)), m)
  | .markAllPreInstrumented, m => (.ok (), m.map markLive)
  | .size partition, m => (.ok (m.values.filter (fun e => e.1 = partition)).length, m)

def run (calls : List AnyStoreCall) (m : SpecMap) : SpecMap :=
  calls.foldl (fun m c => (perform c.call m).2) m

theorem perform_ne_specInBoth (c : StoreCall α) (m : SpecMap) (name : TypeName) :
    (perform c m).1 ≠ .error (.specInBoth name) := by
  intro fired
  cases c with
  | insert partition spec =>
    simp only [perform] at fired
    split at fired <;> cases fired
  | edit asked edits =>
    simp only [perform] at fired
    split at fired <;> cases fired
  | _ => cases fired

end SpecMap

theorem ClassSpec.name_edit {edit : SpecEdit} {spec edited : ClassSpec}
    (made : ClassSpec.edit edit spec = .ok edited) : edited.name = spec.name := by
  cases edit with
  | moveToLogical superSpec =>
    simp only [ClassSpec.edit, ClassSpec.moveToLogical] at made
    split at made
    · cases made
    · cases made
      rfl
  | _ =>
    cases made
    rfl

@[simp] theorem ClassSpec.name_editAll (edits : List SpecEdit) (spec : ClassSpec) :
    (spec.editAll edits).1.name = spec.name := by
  induction edits generalizing spec with
  | nil => rfl
  | cons edit rest ih =>
    simp only [ClassSpec.editAll]
    split
    · rfl
    · rename_i edited made
      rw [ih, ClassSpec.name_edit made]

namespace SpecStore

/-- The partitions of the store hold what the map says, each spec under its
own name. -/
structure Represents (s : SpecStore) (m : SpecMap) : Prop where
  entries : ∀ partition key spec,
    (s.held partition).get? key = some spec ↔ m.get? key = some (partition, spec)
  keyed : ∀ key entry, m.get? key = some entry → entry.2.name.text = key

theorem held_put (partition other : Partition) (name : TypeName) (spec : ClassSpec)
    (s : SpecStore) :
    (s.put partition name spec).held other =
      if other = partition then (s.held partition).insert name.text spec else s.held other := by
  cases partition <;> cases other <;> rfl

theorem held_remove (partition : Partition) (name : TypeName) (s : SpecStore) :
    (s.remove name).2.held partition = (s.held partition).erase name.text := by
  cases partition <;> rfl

theorem empty_represents : SpecStore.empty.Represents .empty where
  entries := by
    intro partition key spec
    cases partition <;> simp [SpecStore.empty, held]
  keyed := by
    intro key entry found
    simp at found

section Represented

variable {s : SpecStore} {m : SpecMap}

/-! ### What the partitions say -/

theorem Represents.name_eq (h : s.Represents m) {name : TypeName} {entry : Partition × ClassSpec}
    (found : m.get? name.text = some entry) : entry.2.name = name :=
  TypeName.text_inj.1 (h.keyed _ entry found)

theorem Represents.held_get? (h : s.Represents m) (partition : Partition) (key : String) :
    (s.held partition).get? key =
      (m.get? key).bind (fun e => if e.1 = partition then some e.2 else none) := by
  apply Option.ext
  intro spec
  rw [h.entries]
  rcases m.get? key with _ | ⟨place, stored⟩
  · simp
  · by_cases here : place = partition <;> simp [here]

theorem Represents.live_get? (h : s.Represents m) (key : String) :
    s.live.get? key = (m.get? key).bind (fun e => if e.1 = .live then some e.2 else none) :=
  h.held_get? .live key

theorem Represents.inventory_get? (h : s.Represents m) (key : String) :
    s.inventory.get? key =
      (m.get? key).bind (fun e => if e.1 = .inventory then some e.2 else none) :=
  h.held_get? .inventory key

theorem Represents.get?_eq (h : s.Represents m) (name : TypeName) :
    s.get? name = (m.get? name.text).map (·.2) := by
  rw [get?, h.live_get?, h.inventory_get?]
  rcases m.get? name.text with _ | ⟨partition, spec⟩
  · rfl
  · cases partition <;> rfl

theorem Represents.partition?_eq (h : s.Represents m) (name : TypeName) :
    s.partition? name = (m.get? name.text).map (·.1) := by
  simp only [partition?, SortedMap.contains, h.live_get?, h.inventory_get?]
  rcases m.get? name.text with _ | ⟨partition, spec⟩
  · rfl
  · cases partition <;> rfl

theorem Represents.apart (h : s.Represents m) (key : String) :
    (s.live.contains key && s.inventory.contains key) = false := by
  simp only [SortedMap.contains, h.live_get?, h.inventory_get?]
  rcases m.get? key with _ | ⟨partition, spec⟩
  · rfl
  · cases partition <;> rfl

/-- No lookup finds a spec in both partitions. -/
theorem Represents.lookup_eq (h : s.Represents m) (name : TypeName) :
    s.lookup name = .ok ((m.get? name.text).map (·.2)) := by
  rw [lookup, h.apart, h.get?_eq]
  rfl

/-! ### What the calls do to them -/

/-- A spec is put under its own name, into the partition that holds the name
already or, when none does, into any. -/
theorem Represents.put (h : s.Represents m) {partition : Partition} {name : TypeName}
    {spec : ClassSpec} (own : spec.name = name)
    (place : ∀ entry, m.get? name.text = some entry → entry.1 = partition) :
    (s.put partition name spec).Represents (m.insert name.text (partition, spec)) where
  entries := by
    intro other key spec'
    rw [held_put, SortedMap.get?_insert]
    by_cases same : key = name.text
    · subst same
      by_cases here : other = partition
      · subst here
        simp [SortedMap.get?_insert]
      · have gone : (s.held other).get? name.text ≠ some spec' := by
          intro found
          exact here (place _ ((h.entries _ _ _).1 found))
        simp [here, gone, Ne.symm here]
    · rw [if_neg same, ← h.entries]
      by_cases here : other = partition
      · subst here
        simp [SortedMap.get?_insert, same]
      · rw [if_neg here]
  keyed := by
    intro key entry found
    rw [SortedMap.get?_insert] at found
    split at found
    · cases found
      simp_all
    · exact h.keyed key entry found

theorem Represents.replace (h : s.Represents m) {partition : Partition} {name : TypeName}
    {spec spec' : ClassSpec} (present : m.get? name.text = some (partition, spec))
    (own : spec'.name = name) :
    (s.replace name spec').Represents (m.insert name.text (partition, spec')) := by
  rw [SpecStore.replace, h.partition?_eq, present]
  refine h.put own fun entry found => ?_
  rw [present] at found
  cases found
  rfl

theorem Represents.remove (h : s.Represents m) (name : TypeName) :
    (s.remove name).2.Represents (m.erase name.text) where
  entries := by
    intro partition key spec
    rw [held_remove, SortedMap.get?_erase, SortedMap.get?_erase]
    by_cases same : key = name.text
    · simp [same]
    · simp [same, h.entries]
  keyed := by
    intro key entry found
    rw [SortedMap.get?_erase] at found
    split at found
    · cases found
    · exact h.keyed key entry found

theorem Represents.markAllPreInstrumented (h : s.Represents m) :
    s.markAllPreInstrumented.Represents (m.map SpecMap.markLive) where
  entries := by
    intro partition key spec
    have live := h.live_get? key
    have inventory := h.inventory_get? key
    rw [SortedMap.get?_map]
    cases partition with
    | live =>
      simp only [held, SpecStore.markAllPreInstrumented, SortedMap.get?_map, live]
      rcases m.get? key with _ | ⟨_ | _, stored⟩ <;>
        simp [SpecMap.markLive, ClassSpec.markPreInstrumented]
    | inventory =>
      simp only [held, SpecStore.markAllPreInstrumented, inventory]
      rcases m.get? key with _ | ⟨_ | _, stored⟩ <;> simp [SpecMap.markLive]
  keyed := by
    intro key entry found
    rw [SortedMap.get?_map] at found
    obtain ⟨⟨partition, spec⟩, present, rfl⟩ := Option.map_eq_some_iff.1 found
    have own := h.keyed key (partition, spec) present
    cases partition <;> exact own

/-! ### What is listed -/

/-- The specs of the map that a condition picks, in order of their names. -/
def picked (m : SpecMap) (pick : Partition × ClassSpec → Bool) : List ClassSpec :=
  (m.values.filter pick).map (·.2)

theorem Represents.picked_increasing (h : s.Represents m) (pick : Partition × ClassSpec → Bool) :
    (picked m pick).Pairwise (fun a b => a.name.text < b.name.text) := by
  have all : m.values.Pairwise (fun a b => a.2.name.text < b.2.name.text) :=
    SortedMap.values_increasing (fun e : Partition × ClassSpec => e.2.name.text) h.keyed
  exact List.pairwise_map.2 (all.filter pick)

theorem Represents.eq_of_name_eq (h : s.Represents m) {a b : Partition × ClassSpec}
    (first : a ∈ m.values) (second : b ∈ m.values) (same : a.2.name.text = b.2.name.text) :
    a = b := by
  obtain ⟨key, found⟩ := SortedMap.mem_values.1 first
  obtain ⟨key', found'⟩ := SortedMap.mem_values.1 second
  have keys : key = key' := by rw [← h.keyed key a found, ← h.keyed key' b found', same]
  subst keys
  exact Option.some.inj (found.symm.trans found')

theorem nodup_of_increasing {specs : List ClassSpec}
    (increasing : specs.Pairwise (fun a b => a.name.text < b.name.text)) : specs.Nodup := by
  refine increasing.imp ?_
  rintro a _ less rfl
  exact String.lt_irrefl _ less

/-- Two lists of the same specs in order of their names are the same list. -/
theorem eq_of_increasing {specs specs' : List ClassSpec}
    (increasing : specs.Pairwise (fun a b => a.name.text < b.name.text))
    (increasing' : specs'.Pairwise (fun a b => a.name.text < b.name.text))
    (same : ∀ spec, spec ∈ specs ↔ spec ∈ specs') : specs = specs' := by
  have perm : specs.Perm specs' :=
    (List.perm_ext_iff_of_nodup (nodup_of_increasing increasing)
      (nodup_of_increasing increasing')).2 same
  refine perm.eq_of_pairwise (fun a b _ _ less greater => ?_) increasing increasing'
  exact absurd (String.lt_trans less greater) (String.lt_irrefl _)

theorem Represents.values_held (h : s.Represents m) (partition : Partition) :
    (s.held partition).values = picked m (fun e => e.1 = partition) := by
  refine eq_of_increasing ?_ (h.picked_increasing _) fun spec => ?_
  · refine SortedMap.values_increasing (fun spec : ClassSpec => spec.name.text) ?_
    intro key spec found
    exact h.keyed key _ ((h.entries partition key spec).1 found)
  · simp only [picked, SortedMap.mem_values, h.entries, List.mem_map, List.mem_filter,
      decide_eq_true_eq, Prod.exists]
    constructor
    · rintro ⟨key, found⟩
      exact ⟨partition, spec, ⟨⟨key, found⟩, rfl⟩, rfl⟩
    · rintro ⟨place, stored, ⟨⟨key, found⟩, rfl⟩, rfl⟩
      exact ⟨key, found⟩

theorem Represents.size_eq (h : s.Represents m) (partition : Partition) :
    (s.held partition).size = (m.values.filter (fun e => e.1 = partition)).length := by
  have lengths := congrArg List.length (h.values_held partition)
  simpa [picked, SortedMap.values, SortedMap.size] using lengths

/-- The two partitions together, before they are put in order. -/
theorem Represents.all_perm (h : s.Represents m) (includeInventory : Bool) :
    (s.all includeInventory).Perm
      (picked m (fun e => e.1 = .live || includeInventory)) := by
  refine (List.mergeSort_perm _ _).trans ?_
  have live : s.live.values = picked m (fun e => e.1 = .live) := h.values_held .live
  have inventory : s.inventory.values = picked m (fun e => e.1 = .inventory) :=
    h.values_held .inventory
  cases includeInventory with
  | false => simp [live]
  | true =>
    have other : (fun e : Partition × ClassSpec => decide (e.1 = .inventory)) =
        fun e => !decide (e.1 = .live) := by
      funext e
      rcases e with ⟨_ | _, _⟩ <;> rfl
    simp only [live, inventory, picked, other, if_true, ← List.map_append, Bool.or_true,
      List.filter_true]
    exact (List.filter_append_perm _ _).map _

theorem Represents.all_eq (h : s.Represents m) (includeInventory : Bool) :
    s.all includeInventory = picked m (fun e => e.1 = .live || includeInventory) := by
  have perm := h.all_perm includeInventory
  have ordered : (s.all includeInventory).Pairwise (fun a b => a.name.text ≤ b.name.text) := by
    refine (List.pairwise_mergeSort ?_ ?_ _).imp of_decide_eq_true
    · intro a b c first second
      exact decide_eq_true (String.le_trans (of_decide_eq_true first) (of_decide_eq_true second))
    · intro a b
      simpa using String.le_total a.name.text b.name.text
  have ordered' : (picked m (fun e => e.1 = .live || includeInventory)).Pairwise
      (fun a b => a.name.text ≤ b.name.text) :=
    (h.picked_increasing _).imp fun less =>
      String.not_lt.1 fun greater => String.lt_irrefl _ (String.lt_trans less greater)
  refine perm.eq_of_pairwise (fun a b first second less greater => ?_) ordered ordered'
  obtain ⟨x, member, rfl⟩ := List.mem_map.1 (perm.subset first)
  obtain ⟨y, member', rfl⟩ := List.mem_map.1 second
  have same := String.le_antisymm less greater
  rw [h.eq_of_name_eq (List.mem_of_mem_filter member) (List.mem_of_mem_filter member') same]

/-! ### Calls and runs -/

theorem Represents.insert (h : s.Represents m) (partition : Partition) (spec : ClassSpec) :
    (s.perform (.insert partition spec)).1 = (SpecMap.perform (.insert partition spec) m).1 ∧
      (s.perform (.insert partition spec)).2.Represents
        (SpecMap.perform (.insert partition spec) m).2 := by
  have known : s.contains spec.name = m.contains spec.name.text := by
    simp [contains, SortedMap.contains, h.get?_eq]
  simp only [perform, SpecStore.insert, SpecMap.perform, known]
  cases mapped : m.contains spec.name.text with
  | true => exact ⟨rfl, h⟩
  | false =>
    have free : m.get? spec.name.text = none := by simpa [SortedMap.contains] using mapped
    refine ⟨rfl, h.put rfl fun entry found => ?_⟩
    rw [free] at found
    cases found

theorem Represents.edit (h : s.Represents m) (name : String) (edits : List SpecEdit) :
    (s.perform (.edit name edits)).1 = (SpecMap.perform (.edit name edits) m).1 ∧
      (s.perform (.edit name edits)).2.Represents
        (SpecMap.perform (.edit name edits) m).2 := by
  simp only [perform, SpecMap.perform, h.lookup_eq]
  cases found : m.get? (TypeName.ofString name).text with
  | none => exact ⟨rfl, h⟩
  | some entry =>
    refine ⟨rfl, h.replace found ?_⟩
    rw [ClassSpec.name_editAll, h.name_eq found]

/-- A missing spec is put in the live partition before it is edited, which
comes to the same as putting the edited one there. -/
theorem Represents.getOrInsert (h : s.Represents m) (name : String) (make : ClassSpec)
    (edits : List SpecEdit) :
    (s.perform (.getOrInsert name make edits)).1 =
        (SpecMap.perform (.getOrInsert name make edits) m).1 ∧
      (make.name = TypeName.ofString name →
        (s.perform (.getOrInsert name make edits)).2.Represents
          (SpecMap.perform (.getOrInsert name make edits) m).2) := by
  simp only [perform, SpecMap.perform, h.lookup_eq, SpecStore.getOrInsert, h.get?_eq]
  cases found : m.get? (TypeName.ofString name).text with
  | none =>
    refine ⟨rfl, fun own => ?_⟩
    have made : (s.put .live (TypeName.ofString name) make).Represents
        (m.insert (TypeName.ofString name).text (.live, make)) := by
      refine h.put own fun entry stored => ?_
      rw [found] at stored
      cases stored
    have present : (m.insert (TypeName.ofString name).text (.live, make)).get?
        (TypeName.ofString name).text = some (.live, make) := by
      simp [SortedMap.get?_insert]
    have edited : (make.editAll edits).1.name = TypeName.ofString name := by
      rw [ClassSpec.name_editAll, own]
    have replaced := made.replace present edited
    rw [SortedMap.insert_insert] at replaced
    exact replaced
  | some entry =>
    refine ⟨rfl, fun _ => h.replace found ?_⟩
    rw [ClassSpec.name_editAll]
    exact h.name_eq found

/-- A call is answered as by the map, and leaves what the map then says. -/
theorem Represents.perform {α : Type} (h : s.Represents m) (c : StoreCall α) :
    (s.perform c).1 = (SpecMap.perform c m).1 ∧
      (c.Apt → (s.perform c).2.Represents (SpecMap.perform c m).2) := by
  cases c with
  | insert partition spec =>
    have both := h.insert partition spec
    exact ⟨both.1, fun _ => both.2⟩
  | get name => exact ⟨h.lookup_eq _, fun _ => h⟩
  | edit name edits =>
    have both := h.edit name edits
    exact ⟨both.1, fun _ => both.2⟩
  | contains name =>
    refine ⟨?_, fun _ => h⟩
    simp [SpecStore.perform, SpecMap.perform, h.lookup_eq, SortedMap.contains, Except.map]
  | partition name => exact ⟨congrArg Except.ok (h.partition?_eq _), fun _ => h⟩
  | getOrInsert name make edits => exact h.getOrInsert name make edits
  | remove name =>
    exact ⟨congrArg Except.ok (h.get?_eq _), fun _ => h.remove (TypeName.ofString name)⟩
  | all includeInventory => exact ⟨congrArg Except.ok (h.all_eq _), fun _ => h⟩
  | markAllPreInstrumented => exact ⟨rfl, fun _ => h.markAllPreInstrumented⟩
  | size partition => exact ⟨congrArg Except.ok (h.size_eq _), fun _ => h⟩

theorem Represents.run (h : s.Represents m) (calls : List AnyStoreCall)
    (apt : ∀ c ∈ calls, c.call.Apt) : (s.run calls).Represents (SpecMap.run calls m) := by
  induction calls generalizing s m with
  | nil => exact h
  | cons c rest ih =>
    have first : c.call.Apt := apt c List.mem_cons_self
    exact ih ((h.perform c.call).2 first) fun c' later => apt c' (List.mem_cons_of_mem _ later)

end Represented

/-- After any calls from the empty store that bring along specs of the names
asked for, the store stands for the map after the same calls: the partitions
have no name in common, every spec is under its own name, the next call is
answered as by the map and leaves what the map then says, no lookup finds a
spec in both partitions, and the specs are listed in strict order. -/
theorem run_as_one_map (calls : List AnyStoreCall) (apt : ∀ c ∈ calls, c.call.Apt) :
    let s := SpecStore.empty.run calls
    let m := SpecMap.run calls .empty
    s.Represents m ∧
      (∀ key, ¬(s.live.contains key = true ∧ s.inventory.contains key = true)) ∧
      (∀ partition key spec, (s.held partition).get? key = some spec → spec.name.text = key) ∧
      (∀ {α : Type} (c : StoreCall α), (s.perform c).1 = (SpecMap.perform c m).1 ∧
        (∀ name, (s.perform c).1 ≠ .error (.specInBoth name)) ∧
        (c.Apt → (s.perform c).2.Represents (SpecMap.perform c m).2)) ∧
      ∀ includeInventory,
        (s.all includeInventory).Pairwise (fun a b => a.name.text < b.name.text) := by
  intro s m
  have h : s.Represents m := empty_represents.run calls apt
  refine ⟨h, ?_, ?_, ?_, ?_⟩
  · rintro key ⟨live, inventory⟩
    have apart := h.apart key
    rw [live, inventory] at apart
    cases apart
  · intro partition key spec found
    exact h.keyed key _ ((h.entries partition key spec).1 found)
  · intro α c
    have both := h.perform c
    refine ⟨both.1, fun name => ?_, both.2⟩
    rw [both.1]
    exact SpecMap.perform_ne_specInBoth c m name
  · intro includeInventory
    rw [h.all_eq]
    exact h.picked_increasing _

def purse : ClassSpec := .ofName (TypeName.ofString "acme.Purse")

/-- The spec of a wallet after its edit and the mark. -/
def wallet : ClassSpec where
  name := TypeName.ofString "acme.Wallet"
  versionSpecific := true
  preInstrumented := true

/-- A spec of the inventory, a live one asked for in the other spelling, one
that is refused, and a mark on all that are live. -/
def purseCalls : List AnyStoreCall := [
  ⟨.insert .inventory purse⟩,
  ⟨.getOrInsert "acme/Wallet" (.ofName (TypeName.ofString "acme.Wallet"))
    [.setVersionSpecific true]⟩,
  ⟨.insert .live purse⟩,
  ⟨.markAllPreInstrumented⟩]

theorem purseCalls_as_one_map :
    (∀ c ∈ purseCalls, c.call.Apt) ∧
      (SpecStore.empty.run purseCalls).Represents (SpecMap.run purseCalls .empty) ∧
      ((SpecStore.empty.run purseCalls).perform (.insert .live purse)).1 =
        .error (.duplicateSpec purse.name) ∧
      ((SpecStore.empty.run purseCalls).perform (.partition "acme/Wallet")).1 =
        .ok (some .live) ∧
      ((SpecStore.empty.run purseCalls).perform (.all true)).1 = .ok [purse, wallet] := by
  have spellings : TypeName.ofString "acme.Wallet" = TypeName.ofString "acme/Wallet" := by
    apply TypeName.text_inj.1
    apply String.toList_injective
    simp only [TypeName.ofString, String.toList_map]
    decide
  have apt : ∀ c ∈ purseCalls, c.call.Apt := by
    simp [purseCalls, StoreCall.Apt, ClassSpec.ofName, spellings]
  have whole := run_as_one_map purseCalls apt
  refine ⟨apt, whole.1, ?_, ?_, ?_⟩
  · refine (whole.2.2.2.1 (.insert .live purse)).1.trans ?_
    decide +kernel
  · refine (whole.2.2.2.1 (.partition "acme/Wallet")).1.trans ?_
    decide +kernel
  · refine (whole.2.2.2.1 (.all true)).1.trans ?_
    decide +kernel

end SpecStore

end ClassPolicy
