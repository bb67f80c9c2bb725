import ClassPolicy.Descriptor
import ClassPolicy.Failure
import ClassPolicy.FieldKey

/-!
# Roots

A root is a field that names an entry point of the shared object graph. Roots
are kept in one list in the order of their fields, so the roots of a type are
read by a scan. Roots are shown under `type.field` unless a root has a name of
its own.
-/

set_option autoImplicit false

namespace ClassPolicy

structure RootDefinition where
  typeName : TypeName
  fieldName : String
  rootName : Option String := none
  /-- Says whether the root may be reassigned; the kind of field does otherwise. -/
  isFinal : Option Bool := none
deriving DecidableEq

namespace RootDefinition

def qualifiedName (r : RootDefinition) : String := r.typeName.text ++ "." ++ r.fieldName

def exposedName (r : RootDefinition) : String := r.rootName.getD r.qualifiedName

/-- References are final and primitives are not, unless the root says so. -/
def isFinalFor (r : RootDefinition) (primitive : Bool) : Bool := r.isFinal.getD !primitive

def toJson (r : RootDefinition) : Json := Json.ofMembers [
  Json.member "typeName" r.typeName.toJson,
  Json.member "fieldName" (.string r.fieldName),
  Json.memberIfSome "rootName" (r.rootName.map .string),
  Json.memberIfSome "isFinal" (r.isFinal.map .bool)]

def ofJson? (j : Json) : Option RootDefinition := do
  let members ← Json.record? ["typeName", "fieldName", "rootName", "isFinal"] j
  let typeName ← Json.required members "typeName" TypeName.ofJson?
  let fieldName ← Json.required members "fieldName" Json.text?
  let rootName ← Json.optional members "rootName" Json.text?
  let isFinal ← Json.optional members "isFinal" Json.bool?
  return ⟨typeName, fieldName, rootName, isFinal⟩

end RootDefinition

def RootDefinition.key (root : RootDefinition) : FieldKey := ⟨root.typeName, root.fieldName⟩

structure RootRegistry where
  entries : List (FieldKey × RootDefinition)
  increasing : entries.Pairwise (fun a b => a.1 < b.1)
deriving DecidableEq

namespace RootRegistry

def empty : RootRegistry := ⟨[], .nil⟩

instance : EmptyCollection RootRegistry := ⟨empty⟩

def get? (r : RootRegistry) (name : TypeName) (field : String) : Option RootDefinition :=
  r.entries.lookup ⟨name, field⟩

/-- The registry with a root put where it belongs. -/
def put (root : RootDefinition) (r : RootRegistry) : RootRegistry :=
  ⟨SortedMap.insertEntry root.key root r.entries,
    SortedMap.insertEntry_increasing root.key root r.increasing⟩

def add (root : RootDefinition) (r : RootRegistry) : Except PolicyError RootRegistry :=
  if root.fieldName.isEmpty then .error (.invalidFieldName root.qualifiedName)
  else if (r.get? root.typeName root.fieldName).isSome then
    .error (.duplicateRoot root.typeName root.fieldName)
  else .ok (r.put root)

theorem get?_eq_some_iff {r : RootRegistry} {name : TypeName} {field : String}
    {root : RootDefinition} :
    r.get? name field = some root ↔ (⟨name, field⟩, root) ∈ r.entries :=
  SortedMap.lookup_eq_some_iff r.increasing

/-- A registry of roots is determined by its answers. -/
theorem ext_get? {r s : RootRegistry}
    (same : ∀ name field, r.get? name field = s.get? name field) : r = s := by
  have entries : r.entries = s.entries :=
    SortedMap.eq_of_lookup_eq r.increasing s.increasing fun k => same k.owner k.field
  cases r
  cases s
  cases entries
  rfl

theorem get?_put (root : RootDefinition) (r : RootRegistry) (name : TypeName) (field : String) :
    (r.put root).get? name field =
      if name = root.typeName ∧ field = root.fieldName then some root else r.get? name field := by
  simp only [get?, put, SortedMap.lookup_insertEntry, RootDefinition.key, FieldKey.mk.injEq]

/-- Adding a root adds that root and no other. -/
theorem get?_add {root : RootDefinition} {r roots : RootRegistry} (added : r.add root = .ok roots)
    (name : TypeName) (field : String) :
    roots.get? name field =
      if name = root.typeName ∧ field = root.fieldName then some root else r.get? name field := by
  unfold add at added
  split at added
  · cases added
  · split at added
    · cases added
    · cases added
      exact get?_put root r name field

def isRoot (r : RootRegistry) (name : TypeName) (field : String) : Bool :=
  (r.get? name field).isSome

theorem add_eq (root : RootDefinition) (r : RootRegistry) :
    r.add root =
      if root.fieldName.isEmpty then .error (.invalidFieldName root.qualifiedName)
      else if r.isRoot root.typeName root.fieldName then
        .error (.duplicateRoot root.typeName root.fieldName)
      else .ok (r.put root) := rfl

/-- A root that has to be there; the violation names the type as it was
spelled. -/
def require (r : RootRegistry) (typeSpelling field : String) : Except Violation RootDefinition :=
  match r.get? (TypeName.ofString typeSpelling) field with
  | some root => .ok root
  | none => .error (.noSuchRoot typeSpelling field)

def rootName (r : RootRegistry) (typeSpelling field : String) : Except Violation String :=
  (r.require typeSpelling field).map (·.exposedName)

def isFinal (r : RootRegistry) (typeSpelling field : String) (primitive : Bool) :
    Except Violation Bool :=
  (r.require typeSpelling field).map (·.isFinalFor primitive)

def rootsFor (r : RootRegistry) (name : TypeName) : List RootDefinition :=
  (FieldKey.scan name r.entries).map (·.2)

theorem mem_rootsFor {r : RootRegistry} {name : TypeName} {root : RootDefinition} :
    root ∈ r.rootsFor name ↔ ∃ field, r.get? name field = some root := by
  simp only [rootsFor, FieldKey.scan_eq_filter r.increasing, get?_eq_some_iff, List.mem_map,
    List.mem_filter, decide_eq_true_eq, Prod.exists, exists_eq_right]
  constructor
  · rintro ⟨⟨owner, field⟩, member, rfl⟩
    exact ⟨field, member⟩
  · rintro ⟨field, member⟩
    exact ⟨_, member, rfl⟩

def hasRoots (r : RootRegistry) (name : TypeName) : Bool := !(r.rootsFor name).isEmpty

theorem hasRoots_iff {r : RootRegistry} {name : TypeName} :
    r.hasRoots name = true ↔ ∃ field root, r.get? name field = some root := by
  rw [hasRoots, Bool.not_eq_true', ← Bool.not_eq_true, List.isEmpty_iff]
  constructor
  · intro some
    obtain ⟨root, member⟩ := List.exists_mem_of_ne_nil _ some
    obtain ⟨field, found⟩ := mem_rootsFor.1 member
    exact ⟨field, root, found⟩
  · rintro ⟨field, root, found⟩ none
    have member : root ∈ r.rootsFor name := mem_rootsFor.2 ⟨field, found⟩
    rw [none] at member
    cases member

/-- The roots of a type on fields that its descriptor does not declare. -/
def missingDeclarations (r : RootRegistry) (ty : TypeDescriptor) : List String :=
  ((r.rootsFor ty.name).filter (fun root => (ty.field? root.fieldName).isNone)).map
    (·.qualifiedName)

/-- Every root, by type and then by field. -/
def all (r : RootRegistry) : List RootDefinition := r.entries.map (·.2)

end RootRegistry

end ClassPolicy
