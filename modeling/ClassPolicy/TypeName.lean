import ClassPolicy.Json.Record
import ClassPolicy.Text.Cut

/-!
# Type names

Type names come in two spellings, `java.util.HashMap` and `java/util/HashMap`.
A `TypeName` is in the dotted one, so every lookup by name agrees whichever
spelling it was given. Names are ordered by code point. A `$` parts a nested
type from the type around it.
-/

set_option autoImplicit false

namespace ClassPolicy

/-- A slash becomes a dot. -/
def dotted (c : Char) : Char := if c = '/' then '.' else c

theorem dotted_ne_slash (c : Char) : dotted c ≠ '/' := by
  unfold dotted; split
  · decide
  · assumption

structure TypeName where
  text : String
  noSlash : '/' ∉ text.toList
deriving DecidableEq

namespace TypeName

theorem text_inj {a b : TypeName} : a.text = b.text ↔ a = b := by
  cases a
  cases b
  simp

def ofString (spelling : String) : TypeName where
  text := spelling.map dotted
  noSlash := by simp [String.toList_map, dotted_ne_slash]

instance : Inhabited TypeName := ⟨ofString ""⟩

theorem ofString_text (name : TypeName) : ofString name.text = name := by
  obtain ⟨text, h⟩ := name
  have : text.map dotted = text := by
    apply String.toList_injective
    rw [String.toList_map]
    refine (List.map_congr_left fun c hc => ?_).trans (List.map_id _)
    have : c ≠ '/' := fun e => h (e ▸ hc)
    simp [dotted, this]
  simp [ofString, this]

/-- The part of a spelling before its first `$`. -/
def outermost (spelling : String) : String :=
  String.ofList (spelling.toList.takeWhile (· ≠ '$'))

/-- The type at the outside of all nesting. -/
def outer (name : TypeName) : TypeName where
  text := outermost name.text
  noSlash := by
    rw [outermost, String.toList_ofList]
    exact fun h => name.noSlash ((List.takeWhile_sublist _).subset h)

def isNested (name : TypeName) : Bool := name.text.toList.contains '$'

/-- The part before the last dot; empty for a name without one. -/
def package (name : TypeName) : String :=
  match Text.cutLast? '.' name.text.toList with
  | some p => String.ofList p.1
  | none => ""

def toJson (name : TypeName) : Json := .string name.text

def ofJson? (j : Json) : Option TypeName := (Json.text? j).map ofString

/-- Distinct names in order. -/
def sorted (names : List TypeName) : List TypeName :=
  (SortedMap.ofList (names.map (fun n => (n.text, n)))).values

theorem mem_sorted {names : List TypeName} {name : TypeName} :
    name ∈ sorted names ↔ name ∈ names := by
  rw [sorted, SortedMap.mem_values]
  constructor
  · rintro ⟨key, found⟩
    obtain ⟨listed, member, same⟩ := List.mem_map.1 (SortedMap.mem_of_get?_ofList found)
    cases same
    exact member
  · intro member
    have entry : (name.text, name) ∈ names.map (fun n => (n.text, n)) :=
      List.mem_map.2 ⟨name, member, rfl⟩
    obtain ⟨found, lookup⟩ := Option.isSome_iff_exists.1 (SortedMap.isSome_get?_ofList entry)
    obtain ⟨listed, -, same⟩ := List.mem_map.1 (SortedMap.mem_of_get?_ofList lookup)
    simp only [Prod.mk.injEq, text_inj] at same
    obtain ⟨rfl, rfl⟩ := same
    exact ⟨_, lookup⟩

theorem sorted_increasing (names : List TypeName) :
    (sorted names).Pairwise (fun a b => a.text < b.text) := by
  refine SortedMap.values_increasing text fun key name found => ?_
  obtain ⟨listed, -, same⟩ := List.mem_map.1 (SortedMap.mem_of_get?_ofList found)
  cases same
  rfl

end TypeName

end ClassPolicy
