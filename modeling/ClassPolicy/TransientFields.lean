import ClassPolicy.FieldKey

/-!
# Transient fields

The fields that are kept out of the shared graph, as one set of fields in
order. A question about one field asks the set for it; all fields of a type
are read by a scan.
-/

set_option autoImplicit false

namespace ClassPolicy

structure TransientFields where
  entries : List (FieldKey × Unit)
  increasing : entries.Pairwise (fun a b => a.1 < b.1)
deriving DecidableEq

namespace TransientFields

def empty : TransientFields := ⟨[], .nil⟩

instance : EmptyCollection TransientFields := ⟨empty⟩

def contains (t : TransientFields) (name : TypeName) (field : String) : Bool :=
  (t.entries.lookup ⟨name, field⟩).isSome

def add (name : TypeName) (field : String) (t : TransientFields) : TransientFields :=
  ⟨SortedMap.insertEntry ⟨name, field⟩ () t.entries,
    SortedMap.insertEntry_increasing _ () t.increasing⟩

/-- The fields of a type, in order. -/
def fieldsOf (t : TransientFields) (name : TypeName) : List String :=
  (FieldKey.scan name t.entries).map (·.1.field)

theorem contains_iff {t : TransientFields} {name : TypeName} {field : String} :
    t.contains name field = true ↔ (⟨name, field⟩, ()) ∈ t.entries := by
  rw [contains, Option.isSome_iff_exists, ← SortedMap.lookup_eq_some_iff t.increasing]
  exact ⟨fun ⟨_, found⟩ => found, fun found => ⟨(), found⟩⟩

theorem contains_add (t : TransientFields) (name name' : TypeName) (field field' : String) :
    (t.add name field).contains name' field' =
      (decide (name' = name ∧ field' = field) || t.contains name' field') := by
  simp only [contains, add, SortedMap.lookup_insertEntry, FieldKey.mk.injEq]
  by_cases same : name' = name ∧ field' = field <;> simp [same]

/-- The scan finds a field exactly when a question about that field does. -/
theorem mem_fieldsOf {t : TransientFields} {name : TypeName} {field : String} :
    field ∈ t.fieldsOf name ↔ t.contains name field = true := by
  rw [contains_iff, fieldsOf, FieldKey.scan_eq_filter t.increasing]
  simp only [List.mem_map, List.mem_filter, decide_eq_true_eq]
  constructor
  · rintro ⟨⟨⟨owner, field⟩, ⟨⟩⟩, ⟨member, rfl⟩, rfl⟩
    exact member
  · intro member
    exact ⟨_, ⟨member, rfl⟩, rfl⟩

end TransientFields

end ClassPolicy
