import ClassPolicy.ClassSpec
import Mathlib.Data.List.Induction
import Mathlib.Tactic.Common

/-!
# Member keys

A spec files the behaviors of members under their keys. A key is read back in
two cuts: the name ends at the first opening parenthesis, and the types
between the parentheses are parted by commas. So members whose names and types
are free of that punctuation share a key only when they have the same name and
the same parameter types. What a spec answers for a member is then what was
attached last to its own signature, and never what belongs to an overload.
-/

set_option autoImplicit false

namespace ClassPolicy

/-! ### Keys read back -/

/-- The punctuation of a key occurs in no part that goes into it. -/
structure MemberDescriptor.Legible (m : MemberDescriptor) : Prop where
  name : '(' ∉ m.name.toList
  parameters : ∀ type ∈ m.parameterTypes, type ≠ "" ∧ ',' ∉ type.toList

/-- Types as they stand between the parentheses of a key. -/
def joinedTypes (types : List String) : List Char :=
  [','].intercalate (types.map String.toList)

/-- The types that stand between the parentheses of a key. -/
def typesRead (joined : List Char) : List String :=
  if joined = [] then [] else (joined.splitOn ',').map String.ofList

theorem toList_key (m : MemberDescriptor) :
    m.key.toList = m.name.toList ++ '(' :: (joinedTypes m.parameterTypes ++ [')']) := by
  simp [MemberDescriptor.key, joinedTypes, String.toList_intercalate]

/-- Only an empty list leaves nothing between the parentheses: a single type
would have to be empty, and any more have a comma between them. -/
theorem joinedTypes_eq_nil_iff {types : List String} (filled : ∀ type ∈ types, type ≠ "") :
    joinedTypes types = [] ↔ types = [] := by
  cases types with
  | nil => simp [joinedTypes]
  | cons type rest =>
    have first : type.toList ≠ [] := fun empty =>
      filled type List.mem_cons_self (String.toList_eq_nil_iff.1 empty)
    cases rest with
    | nil => simpa [joinedTypes, List.intercalate_singleton] using first
    | cons next rest => simp [joinedTypes, List.intercalate_cons_cons]

theorem typesRead_joinedTypes {types : List String}
    (legible : ∀ type ∈ types, type ≠ "" ∧ ',' ∉ type.toList) :
    typesRead (joinedTypes types) = types := by
  have empty := joinedTypes_eq_nil_iff fun type member => (legible type member).1
  by_cases none : types = []
  · rw [typesRead, if_pos (empty.2 none), none]
  · have commaless : ∀ part ∈ types.map String.toList, ',' ∉ part := by
      intro part listed
      obtain ⟨type, member, rfl⟩ := List.mem_map.1 listed
      exact (legible type member).2
    rw [typesRead, if_neg (mt empty.1 none), joinedTypes,
      List.splitOn_intercalate ',' commaless (by simpa using none), List.map_map]
    simp [Function.comp_def]

/-- The first parenthesis parts the name from the types. -/
theorem cutFirst?_key {m : MemberDescriptor} (legible : m.Legible) :
    Text.cutFirst? '(' m.key.toList =
      some (m.name.toList, joinedTypes m.parameterTypes ++ [')']) :=
  Text.cutFirst?_eq_some_iff.2 ⟨toList_key m, legible.name⟩

theorem signature_of_key {m m' : MemberDescriptor} (legible : m.Legible) (legible' : m'.Legible)
    (same : m.key = m'.key) : m.name = m'.name ∧ m.parameterTypes = m'.parameterTypes := by
  have cut := cutFirst?_key legible
  rw [same, cutFirst?_key legible', Option.some.injEq, Prod.mk.injEq] at cut
  obtain ⟨names, tails⟩ := cut
  have types := congrArg typesRead (List.append_cancel_right tails)
  rw [typesRead_joinedTypes legible'.parameters, typesRead_joinedTypes legible.parameters] at types
  exact ⟨(String.toList_injective names).symm, types.symm⟩

theorem key_eq_iff {m m' : MemberDescriptor} (legible : m.Legible) (legible' : m'.Legible) :
    m.key = m'.key ↔ m.name = m'.name ∧ m.parameterTypes = m'.parameterTypes := by
  refine ⟨signature_of_key legible legible', ?_⟩
  rintro ⟨names, types⟩
  rw [MemberDescriptor.key, MemberDescriptor.key, names, types]

/-! ### Behaviors attached one after the other -/

/-- A behavior and the member it is attached to. -/
abbrev Attachment := MemberDescriptor × MemberBehavior

def Attachment.edit (a : Attachment) : SpecEdit := .addMemberBehavior a.1.key a.2

/-- The behavior attached last to the name and the parameter types of a
member. -/
def lastAttached (attachments : List Attachment) (m : MemberDescriptor) :
    Option MemberBehavior :=
  ((attachments.filter fun a =>
    a.1.name = m.name ∧ a.1.parameterTypes = m.parameterTypes).map (·.2)).getLast?

namespace ClassSpec

/-- Attaching always succeeds and changes nothing but the behaviors. -/
theorem editAll_attachments (attachments : List Attachment) (s : ClassSpec) :
    s.editAll (attachments.map Attachment.edit) =
      ({ s with memberBehaviors :=
          (attachments.map fun a => (a.1.key, a.2)).foldl (fun behaviors entry =>
            behaviors.insert entry.1 entry.2) s.memberBehaviors }, none) := by
  induction attachments generalizing s with
  | nil => rfl
  | cons a rest ih => exact ih _

end ClassSpec

/-- The last entry under the key of a member is the last one of its signature. -/
theorem lookup_keys {attachments : List Attachment} {m : MemberDescriptor}
    (attached : ∀ a ∈ attachments, a.1.Legible) (asked : m.Legible) :
    (attachments.map fun a => (a.1.key, a.2)).reverse.lookup m.key = lastAttached attachments m := by
  induction attachments using List.reverseRecOn with
  | nil => rfl
  | append_singleton attachments a ih =>
    have legible : a.1.Legible := attached a (by simp)
    have earlier := ih fun b member => attached b (List.mem_append_left _ member)
    have own : m.key = a.1.key ↔ a.1.name = m.name ∧ a.1.parameterTypes = m.parameterTypes :=
      eq_comm.trans (key_eq_iff legible asked)
    rw [List.map_append, List.map_singleton, List.reverse_append, List.reverse_singleton,
      List.singleton_append, SortedMap.lookup_cons_entry, earlier, lastAttached, lastAttached,
      List.filter_append, List.map_append, List.getLast?_append]
    by_cases same : a.1.name = m.name ∧ a.1.parameterTypes = m.parameterTypes
    · simp [own, same]
    · simp [own, same]

/-- Members of legible names and types have one key only if they have one name
and one list of parameter types. In a spec that starts without behaviors each
has the behavior attached last to its own name and parameter types, and none
when nothing was attached to them. -/
theorem behavior_by_signature :
    (∀ m m' : MemberDescriptor, m.Legible → m'.Legible → m.key = m'.key →
      m.name = m'.name ∧ m.parameterTypes = m'.parameterTypes) ∧
    ∀ (s : ClassSpec) (attachments : List Attachment),
      s.memberBehaviors = .empty → (∀ a ∈ attachments, a.1.Legible) →
        ∃ s', s.editAll (attachments.map Attachment.edit) = (s', none) ∧
          ∀ m : MemberDescriptor, m.Legible → s'.behavior? m = lastAttached attachments m := by
  refine ⟨fun m m' legible legible' => signature_of_key legible legible', ?_⟩
  intro s attachments none legible
  refine ⟨_, s.editAll_attachments attachments, fun m asked => ?_⟩
  rw [ClassSpec.behavior?, SortedMap.get?_foldl_insert, none, SortedMap.get?_empty, Option.or_none]
  exact lookup_keys legible asked

/-- A method `put` of a cache, overloaded in its parameters. -/
def putOf (types : List String) : MemberDescriptor :=
  { MemberDescriptor.named (.ofString "acme.Cache") "put" with parameterTypes := types }

def cachePuts : List Attachment :=
  [(putOf ["acme.Key"], .alwaysLog), (putOf ["acme.Key", "acme.Value"], .viewWrapper),
    (putOf ["acme.Key"], .arrayCopy)]

theorem putOf_legible {types : List String}
    (legible : ∀ type ∈ types, type ≠ "" ∧ ',' ∉ type.toList) : (putOf types).Legible where
  name := by simp [putOf, MemberDescriptor.named]
  parameters := legible

theorem cachePuts_by_signature :
    (putOf ["acme.Key", "acme.Value"]).key ≠ (putOf ["acme.Key"]).key ∧
      ∃ s', (ClassSpec.ofName (.ofString "acme.Cache")).editAll (cachePuts.map Attachment.edit) =
          (s', none) ∧
        s'.behavior? (putOf ["acme.Key"]) = some .arrayCopy ∧
        s'.behavior? (putOf ["acme.Key", "acme.Value"]) = some .viewWrapper ∧
        s'.behavior? (putOf []) = none := by
  have one : (putOf ["acme.Key"]).Legible := putOf_legible (by decide +kernel)
  have two : (putOf ["acme.Key", "acme.Value"]).Legible := putOf_legible (by decide +kernel)
  have nothing : (putOf []).Legible := putOf_legible nofun
  obtain ⟨keys, behaviors⟩ := behavior_by_signature
  obtain ⟨s', attached, answers⟩ := behaviors (.ofName (.ofString "acme.Cache")) cachePuts rfl
    (by simp [cachePuts, one, two])
  refine ⟨fun same => ?_, s', attached, ?_, ?_, ?_⟩
  · have types := (keys _ _ two one same).2
    simp [putOf] at types
  · rw [answers _ one]
    decide
  · rw [answers _ two]
    decide
  · rw [answers _ nothing]
    decide

end ClassPolicy
