import ClassPolicy.Proofs.BootstrapOutcome
import ClassPolicy.Proofs.EngineSpecs
import Mathlib.Data.Finset.Card

/-!
# Merging and verifying an inventory

A merge takes the distinct types of a manifest one after the other: one that
has a spec in either partition is passed over, and any other gets an empty spec
in the inventory partition and is counted. Live specs are not touched, and the
report of a verification is about live specs alone, so no merge changes a
report.
-/

set_option autoImplicit false

namespace ClassPolicy

/-! ### The types of a manifest -/

namespace Manifest

variable (m : Manifest)

theorem nodup_types : m.types.Nodup := by
  refine (TypeName.sorted_increasing m.listed).imp ?_
  rintro a _ less rfl
  exact String.lt_irrefl _ less

theorem toFinset_types : m.types.toFinset = m.listed.toFinset := by
  ext name
  rw [List.mem_toFinset, List.mem_toFinset, types, TypeName.mem_sorted]

theorem size_eq_card : m.size = m.listed.toFinset.card := by
  rw [← toFinset_types, List.toFinset_card_of_nodup m.nodup_types, size]

end Manifest

/-! ### Adding the listed types -/

namespace Engine

theorem inventory_put (name : TypeName) (spec : ClassSpec) (s : SpecStore) :
    (s.put .inventory name spec).inventory = s.inventory.insert name.text spec := rfl

/-- What the inventory has under a name once the missing specs are added to it. -/
theorem inventory_addMissingSpecs {e : Engine} (filed : e.registries.specs.Filed)
    (names : List TypeName) (name : TypeName) :
    (e.addMissingSpecs .inventory (names.map .ofName)).2.registries.specs.inventory.get?
        name.text =
      if name ∈ names ∧ e.registries.specs.get? name = none then some (.ofName name)
      else e.registries.specs.inventory.get? name.text := by
  induction names generalizing e with
  | nil => simp [addMissingSpecs]
  | cons first rest ih =>
    rw [List.map_cons]
    cases found : e.registries.specs.get? first with
    | some held =>
      rw [addMissingSpecs_cons_of_present filed _ _ (SpecStore.contains_of_some found), ih filed]
      by_cases same : name = first
      · simp [same, found]
      · simp [same]
    | none =>
      have free : e.registries.specs.get? (ClassSpec.ofName first).name = none := found
      have next := filed.put .inventory free
      rw [addMissingSpecs_cons_of_absent filed _ _ found, ih next]
      by_cases same : name = first
      · subst same
        simp [withSpecs, register, SpecStore.get?_put_of_absent found, found,
          inventory_put, SortedMap.get?_insert]
      · simp [withSpecs, register, SpecStore.get?_put_of_absent found, same,
          inventory_put, SortedMap.get?_insert, TypeName.text_inj]

/-- The names that are new among distinct ones are counted. -/
theorem count_addMissingSpecs {e : Engine} (filed : e.registries.specs.Filed)
    {names : List TypeName} (distinct : names.Nodup) :
    (e.addMissingSpecs .inventory (names.map .ofName)).1 =
      .ok (names.filter (fun name => !e.registries.specs.contains name)).length := by
  induction names generalizing e with
  | nil => rfl
  | cons first rest ih =>
    obtain ⟨fresh, distinct⟩ := List.nodup_cons.1 distinct
    rw [List.map_cons, List.filter_cons]
    cases found : e.registries.specs.get? first with
    | some held =>
      have present := SpecStore.contains_of_some found
      rw [addMissingSpecs_cons_of_present filed _ _ present, ih filed distinct]
      simp [present]
    | none =>
      have free : e.registries.specs.get? (ClassSpec.ofName first).name = none := found
      have next := filed.put .inventory free
      -- The spec of `first` changes no answer about the names after it.
      have same : ∀ later ∈ rest,
          (e.registries.specs.put .inventory first (.ofName first)).contains later =
            e.registries.specs.contains later := by
        intro later member
        have other : later ≠ first := fun e => fresh (e ▸ member)
        simp [SpecStore.contains, SpecStore.get?_put_of_absent found, other]
      have count := ih (e := e.withSpecs (e.registries.specs.put .inventory first (.ofName first)))
        next distinct
      rw [addMissingSpecs_cons_of_absent filed _ _ found]
      simp only [ClassSpec.name_ofName, count]
      simp only [withSpecs, register]
      rw [List.filter_congr fun later member => congrArg (!·) (same later member)]
      simp [SpecStore.contains_of_none found, Except.map, Nat.add_comm]

theorem addMissingSpecs_of_present {e : Engine} (filed : e.registries.specs.Filed)
    (partition : Partition) {specs : List ClassSpec}
    (present : ∀ spec ∈ specs, e.registries.specs.contains spec.name = true) :
    e.addMissingSpecs partition specs = (.ok 0, e) := by
  induction specs with
  | nil => rfl
  | cons spec rest ih =>
    obtain ⟨first, later⟩ := List.forall_mem_cons.1 present
    rw [addMissingSpecs_cons_of_present filed partition rest first, ih later]

/-! ### The whole merge -/

section Merge

variable {e : Engine} (m : Manifest)

/-- A merge counts the distinct listed types without a spec. -/
theorem mergeInventory_count (filed : e.registries.specs.Filed) : (e.mergeInventory m).1 =
    .ok (m.listed.toFinset.filter fun name => e.registries.specs.get? name = none).card := by
  have new : (m.types.filter (fun name => !e.registries.specs.contains name)).length =
      (m.listed.toFinset.filter fun name => e.registries.specs.get? name = none).card := by
    rw [← List.toFinset_card_of_nodup (m.nodup_types.filter _), List.toFinset_filter,
      m.toFinset_types]
    refine congrArg Finset.card (Finset.filter_congr fun name _ => ?_)
    simp [SpecStore.contains]
  rw [mergeInventory, count_addMissingSpecs filed m.nodup_types, new]

/-- Exactly these types get an empty spec in the inventory partition. -/
theorem inventory_mergeInventory (filed : e.registries.specs.Filed) (name : TypeName) :
    (e.mergeInventory m).2.registries.specs.inventory.get? name.text =
      if name ∈ m.listed ∧ e.registries.specs.get? name = none then some (.ofName name)
      else e.registries.specs.inventory.get? name.text := by
  have added := inventory_addMissingSpecs filed m.types name
  simp only [Manifest.types, TypeName.mem_sorted] at added
  exact added

theorem live_mergeInventory (e : Engine) :
    (e.mergeInventory m).2.registries.specs.live = e.registries.specs.live := by
  obtain ⟨inventory, merged⟩ := mergeInventory_registries m e
  rw [merged]

theorem filed_mergeInventory (filed : e.registries.specs.Filed) :
    (e.mergeInventory m).2.registries.specs.Filed := by
  refine addMissingSpecs_along
    (R := fun e e' => e.registries.specs.Filed → e'.registries.specs.Filed) (fun _ => id)
    (fun one two => two ∘ one) (fun spec _ e filed => ?_) e filed
  rw [snd_addSpecIfAbsent]
  split
  · exact filed
  · rename_i absent
    exact filed.put .inventory (by simpa [SpecStore.contains] using absent)

/-- Every listed type has a spec after a merge, so a second one adds nothing. -/
theorem mergeInventory_again (filed : e.registries.specs.Filed) :
    (e.mergeInventory m).2.mergeInventory m = (.ok 0, (e.mergeInventory m).2) := by
  refine addMissingSpecs_of_present (filed_mergeInventory m filed) .inventory ?_
  intro spec member
  obtain ⟨name, listed, rfl⟩ := List.mem_map.1 member
  have listed : name ∈ m.listed := TypeName.mem_sorted.1 listed
  show (e.mergeInventory m).2.registries.specs.contains name = true
  rw [SpecStore.contains, SpecStore.get?, live_mergeInventory, inventory_mergeInventory m filed]
  cases found : e.registries.specs.get? name with
  | none => simp [listed]
  | some spec =>
    rw [if_neg (by simp)]
    exact congrArg Option.isSome found

end Merge

end Engine

/-! ### The report -/

namespace SpecStore

variable {s : SpecStore}

theorem Filed.mem_missing (filed : s.Filed) (m : Manifest) (name : TypeName) :
    name ∈ (s.verify m).missing ↔
      name ∉ m.listed ∧ ∃ spec, s.live.get? name.text = some spec ∧
        spec.preInstrumented = true ∧ spec.versionSpecific = false := by
  simp only [verify, Manifest.contains, List.mem_map, List.mem_filter, filed.mem_all_live]
  constructor
  · rintro ⟨spec, ⟨⟨found, instrumented⟩, due⟩, rfl⟩
    simp only [Bool.and_eq_true, Bool.not_eq_true', List.contains_eq_mem,
      decide_eq_false_iff_not] at due
    exact ⟨due.2, spec, found, instrumented, due.1⟩
  · rintro ⟨unlisted, spec, found, instrumented, plain⟩
    have own : spec.name = name := TypeName.text_inj.1 (filed.live_keyed found)
    subst own
    exact ⟨spec, ⟨⟨found, instrumented⟩, by simp [plain, unlisted]⟩, rfl⟩

theorem Filed.missing_increasing (filed : s.Filed) (m : Manifest) :
    (s.verify m).missing.Pairwise (fun a b => a.text < b.text) :=
  List.pairwise_map.2 (((filed.all_increasing false).filter _).filter _)

theorem Filed.expected_eq (filed : s.Filed) (m : Manifest) :
    (s.verify m).expected = (s.live.values.filter (·.preInstrumented)).length := by
  simp only [verify, filed.all_live]

/-- A larger manifest leaves out no type that the smaller one lists. -/
theorem missing_subset {m m' : Manifest} (larger : m.listed ⊆ m'.listed) (s : SpecStore) :
    (s.verify m').missing ⊆ (s.verify m).missing := by
  intro name member
  simp only [verify, Manifest.contains, List.mem_map, List.mem_filter, Bool.and_eq_true,
    Bool.not_eq_true', List.contains_eq_mem, decide_eq_false_iff_not] at member ⊢
  obtain ⟨spec, ⟨expected, plain, unlisted⟩, own⟩ := member
  exact ⟨spec, ⟨expected, plain, fun listed => unlisted (larger listed)⟩, own⟩

end SpecStore

namespace Engine

/-- A merge counts the distinct listed types without a spec, gives exactly
these an empty one in the inventory partition, and adds nothing when repeated.
It changes no report. A report names, in strict order, the live specs that the
manifest has to list and does not; it counts those that are exempt too, raises
one information each for the missing ones, and only shortens when the manifest
grows. -/
theorem Reachable.merge_and_verify {e : Engine} (reached : Reachable e) (m : Manifest) :
    let merged := (e.mergeInventory m).2
    (e.mergeInventory m).1 =
        .ok (m.listed.toFinset.filter fun name => e.registries.specs.get? name = none).card ∧
      (∀ name ∈ m.listed, e.registries.specs.get? name = none →
        merged.registries.specs.partition? name = some .inventory ∧
          merged.registries.specs.get? name = some (.ofName name)) ∧
      (∀ name, (e.registries.specs.get? name ≠ none ∨ name ∉ m.listed) → ∀ partition,
        (merged.registries.specs.held partition).get? name.text =
          (e.registries.specs.held partition).get? name.text) ∧
      merged.mergeInventory m = (.ok 0, merged) ∧
      ∀ m' : Manifest,
        let report := (e.verifyInventory m').1
        (merged.verifyInventory m').1 = report ∧
          report.missing.Pairwise (fun a b => a.text < b.text) ∧
          (∀ name, name ∈ report.missing ↔
            name ∉ m'.listed ∧ ∃ spec, e.registries.specs.live.get? name.text = some spec ∧
              spec.preInstrumented = true ∧ spec.versionSpecific = false) ∧
          report.expected =
            (e.registries.specs.live.values.filter (·.preInstrumented)).length ∧
          report.population = m'.listed.toFinset.card ∧
          (e.verifyInventory m').2 =
            { e with journal := e.journal ++ report.missing.map .missingFromInventory } ∧
          (∀ diagnostic ∈ report.missing.map Diagnostic.missingFromInventory,
            diagnostic.level = .info) ∧
          ∀ m'' : Manifest, m'.listed ⊆ m''.listed →
            (e.verifyInventory m'').1.missing ⊆ report.missing := by
  intro merged
  have filed := reached.specs_filed
  refine ⟨mergeInventory_count m filed, ?_, ?_, mergeInventory_again m filed, fun m' => ?_⟩
  · intro name listed absent
    have notLive : merged.registries.specs.live.get? name.text = none := by
      rw [live_mergeInventory]
      exact (SpecStore.get?_eq_none_iff.1 absent).1
    have admitted : merged.registries.specs.inventory.get? name.text = some (.ofName name) := by
      rw [inventory_mergeInventory m filed, if_pos ⟨listed, absent⟩]
    constructor
    · simp [SpecStore.partition?, SortedMap.contains, notLive, admitted]
    · simp [SpecStore.get?, notLive, admitted]
  · intro name kept partition
    cases partition with
    | live => exact congrArg (·.get? name.text) (live_mergeInventory m e)
    | inventory =>
      refine (inventory_mergeInventory m filed name).trans (if_neg ?_)
      rintro ⟨listed, absent⟩
      exact kept.elim (· absent) (· listed)
  · refine ⟨SpecStore.verify_congr (live_mergeInventory m e) m', filed.missing_increasing m',
      filed.mem_missing m', filed.expected_eq m', m'.size_eq_card, rfl, ?_, ?_⟩
    · intro diagnostic raised
      obtain ⟨name, -, rfl⟩ := List.mem_map.1 raised
      rfl
    · exact fun m'' larger => SpecStore.missing_subset larger e.registries.specs

def cart : TypeName := ⟨"Cart", by decide +kernel⟩

def scale : TypeName := ⟨"Scale", by decide +kernel⟩

def till : TypeName := ⟨"Till", by decide +kernel⟩

/-- A market with a cart that has to be listed, a scale that is exempt, and a
till that is in the inventory already. -/
def market : Engine := (ofOptions {}).run [
  ⟨.addSpec .live { name := cart, preInstrumented := true }⟩,
  ⟨.addSpec .live { name := scale, preInstrumented := true, versionSpecific := true }⟩,
  ⟨.addSpec .inventory (.ofName till)⟩]

/-- The till, the scale, and a crate in both spellings. -/
def crates : Manifest where
  listed := [till, .ofString "a/Crate", scale, .ofString "a.Crate"]

theorem market_merged_and_verified :
    Reachable market ∧ (market.mergeInventory crates).1 = .ok 1 ∧
      ((market.mergeInventory crates).2.verifyInventory crates).1 =
        { missing := [cart], expected := 2, population := 3 } := by
  have reached : Reachable market := (Reachable.fresh {}).run _
  obtain ⟨counted, -, -, -, verified⟩ := reached.merge_and_verify crates
  obtain ⟨same, -⟩ := verified crates
  refine ⟨reached, ?_, ?_⟩
  · rw [counted]
    decide +kernel
  · -- The kernel does not open the sort behind the listing of the live specs.
    rw [same]
    simp only [verifyInventory, SpecStore.verify, reached.specs_filed.all_live]
    decide +kernel

end Engine

end ClassPolicy
