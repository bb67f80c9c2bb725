import ClassPolicy.Proofs.OneSpecMap
import ClassPolicy.Proofs.Run

/-!
# The specs of an engine

Whatever an engine is taken through, its spec store goes on standing for one
map: a change puts a spec under its own name where the name is free, edits it
where it stands, takes it out, or marks the live ones. So along every run each
spec is under its own name, in one partition, and listed once. No lookup breaks
the contract of such a store, and specs that are missing are added to it
without a violation.
-/

set_option autoImplicit false

namespace ClassPolicy

namespace SpecStore

/-- The store stands for some map of specs. -/
def Filed (s : SpecStore) : Prop := ∃ m, s.Represents m

namespace Filed

variable {s : SpecStore}

theorem name_eq (filed : s.Filed) {name : TypeName} {spec : ClassSpec}
    (found : s.get? name = some spec) : spec.name = name := by
  obtain ⟨m, h⟩ := filed
  rw [h.get?_eq, Option.map_eq_some_iff] at found
  obtain ⟨entry, found, rfl⟩ := found
  exact h.name_eq found

theorem lookup_eq (filed : s.Filed) (name : TypeName) : s.lookup name = .ok (s.get? name) := by
  obtain ⟨m, h⟩ := filed
  rw [h.lookup_eq, h.get?_eq]

theorem put (filed : s.Filed) (partition : Partition) {spec : ClassSpec}
    (absent : s.get? spec.name = none) : (s.put partition spec.name spec).Filed := by
  obtain ⟨m, h⟩ := filed
  rw [h.get?_eq, Option.map_eq_none_iff] at absent
  refine ⟨_, h.put rfl fun entry found => ?_⟩
  rw [absent] at found
  cases found

/-- A spec that is put in the place of another one leaves all others. -/
theorem replace (filed : s.Filed) {name : TypeName} {old spec : ClassSpec}
    (present : s.get? name = some old) (own : spec.name = name) :
    (s.replace name spec).Filed ∧ ∀ name',
      (s.replace name spec).get? name' = if name' = name then some spec else s.get? name' := by
  obtain ⟨m, h⟩ := filed
  rw [h.get?_eq, Option.map_eq_some_iff] at present
  obtain ⟨⟨partition, _⟩, found, rfl⟩ := present
  have replaced := h.replace found own
  refine ⟨⟨_, replaced⟩, fun name' => ?_⟩
  rw [replaced.get?_eq, SortedMap.get?_insert, h.get?_eq]
  by_cases same : name' = name
  · simp [same]
  · simp [same, TypeName.text_inj]

theorem live_keyed (filed : s.Filed) {key : String} {spec : ClassSpec}
    (found : s.live.get? key = some spec) : spec.name.text = key := by
  obtain ⟨m, h⟩ := filed
  exact h.keyed key _ ((h.entries .live key spec).1 found)

theorem all_increasing (filed : s.Filed) (includeInventory : Bool) :
    (s.all includeInventory).Pairwise (fun a b => a.name.text < b.name.text) := by
  obtain ⟨m, h⟩ := filed
  rw [h.all_eq]
  exact h.picked_increasing _

theorem all_live (filed : s.Filed) : s.all false = s.live.values := by
  obtain ⟨m, h⟩ := filed
  have live : s.live.values = picked m (fun e => e.1 = .live) := h.values_held .live
  rw [h.all_eq, live]
  simp

theorem mem_all_live (filed : s.Filed) {spec : ClassSpec} :
    spec ∈ s.all false ↔ s.live.get? spec.name.text = some spec := by
  rw [filed.all_live, SortedMap.mem_values]
  constructor
  · rintro ⟨key, found⟩
    rwa [filed.live_keyed found]
  · exact fun found => ⟨_, found⟩

end Filed

end SpecStore

namespace Registries

theorem Aside.specs_filed {r r' : Registries} (change : r.Aside r') (filed : r.specs.Filed) :
    r'.specs.Filed := by
  cases change with
  | marked =>
    obtain ⟨m, h⟩ := filed
    exact ⟨_, h.markAllPreInstrumented⟩
  | _ => exact filed

theorem Change.specs_filed {r r' : Registries} (change : r.Change r') (filed : r.specs.Filed) :
    r'.specs.Filed := by
  cases change with
  | aside change => exact change.specs_filed filed
  | spec partition spec absent => exact filed.put partition absent
  | specEdited name spec edits present =>
    have own : (spec.editAll edits).1.name = name := by
      rw [ClassSpec.name_editAll]
      exact filed.name_eq present
    exact (filed.replace present own).1
  | specRemoved name =>
    obtain ⟨m, h⟩ := filed
    exact ⟨_, h.remove name⟩
  | _ => exact filed

end Registries

namespace Engine

theorem Reachable.specs_filed {e : Engine} (reached : Reachable e) : e.registries.specs.Filed :=
  reached.registries_invariant (P := fun r => r.specs.Filed)
    (fun _ => ⟨_, SpecStore.empty_represents⟩) fun _ _ change => change.specs_filed

/-- No lookup in the store of an engine finds a name in both partitions, so each
answers with what `get?` reads. -/
theorem Reachable.lookup_specs {e : Engine} (reached : Reachable e) (name : TypeName) :
    e.registries.specs.lookup name = .ok (e.registries.specs.get? name) :=
  reached.specs_filed.lookup_eq name

/-! ### Specs that are missing -/

section Missing

variable {e : Engine} {spec : ClassSpec} (filed : e.registries.specs.Filed)
  (partition : Partition)

include filed

theorem addSpecIfAbsent_of_present (present : e.registries.specs.contains spec.name = true) :
    e.addSpecIfAbsent partition spec = (.ok false, e) := by
  obtain ⟨held, found⟩ := Option.isSome_iff_exists.1 present
  simp [addSpecIfAbsent, filed.lookup_eq, found]

theorem addSpecIfAbsent_of_absent (absent : e.registries.specs.get? spec.name = none) :
    e.addSpecIfAbsent partition spec =
      (.ok true, e.withSpecs (e.registries.specs.put partition spec.name spec)) := by
  simp only [addSpecIfAbsent, filed.lookup_eq, absent]
  rw [thenWith_of_ok (addSpec_of_absent partition (SpecStore.contains_of_none absent))]

theorem addMissingSpecs_cons_of_present (rest : List ClassSpec)
    (present : e.registries.specs.contains spec.name = true) :
    e.addMissingSpecs partition (spec :: rest) = e.addMissingSpecs partition rest := by
  have same (counted : Except Failure Nat) : counted.map (false.toNat + ·) = counted := by
    cases counted <;> simp [Except.map]
  rw [addMissingSpecs, thenWith_of_ok (addSpecIfAbsent_of_present filed partition present),
    thenWith_answer]
  exact Prod.ext (same _) rfl

theorem addMissingSpecs_cons_of_absent (rest : List ClassSpec)
    (absent : e.registries.specs.get? spec.name = none) :
    e.addMissingSpecs partition (spec :: rest) =
      let later := (e.withSpecs (e.registries.specs.put partition spec.name spec)).addMissingSpecs
        partition rest
      (later.1.map (1 + ·), later.2) := by
  rw [addMissingSpecs, thenWith_of_ok (addSpecIfAbsent_of_absent filed partition absent),
    thenWith_answer]
  rfl

/-- What is added is free when it is added, so no violation stops the others. -/
theorem addMissingSpecs_succeeds (specs : List ClassSpec) :
    ∃ added, (e.addMissingSpecs partition specs).1 = .ok added := by
  induction specs generalizing e with
  | nil => exact ⟨0, rfl⟩
  | cons spec rest ih =>
    cases found : e.registries.specs.get? spec.name with
    | some held =>
      rw [addMissingSpecs_cons_of_present filed partition rest (SpecStore.contains_of_some found)]
      exact ih filed
    | none =>
      have next : (e.withSpecs
          (e.registries.specs.put partition spec.name spec)).registries.specs.Filed :=
        filed.put partition found
      obtain ⟨later, added⟩ := ih next
      rw [addMissingSpecs_cons_of_absent filed partition rest found]
      exact ⟨1 + later, congrArg (Except.map (1 + ·)) added⟩

end Missing

end Engine

end ClassPolicy
