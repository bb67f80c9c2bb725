import ClassPolicy.Json.Record
import Mathlib.Data.List.Forall2
import Mathlib.Tactic.Common

/-!
# Records read back

A record is written with one slot for each of its names, in their order; some
slots may be empty. Read back, the record has exactly the members of the
slots, and a field that is left out when it has its default value, or when
there is none, comes back as that.
-/

set_option autoImplicit false

namespace ClassPolicy.Json

variable {α : Type}

theorem distinctNames_iff {names : List String} : distinctNames names = true ↔ names.Nodup := by
  induction names with
  | nil => simp [distinctNames]
  | cons name rest ih => simp [distinctNames, ih]

/-! ### The slots of a record -/

abbrev Slot := Option (String × Json)

/-- The members in the slots that are not empty. -/
def present (slots : List Slot) : Members := slots.filterMap id

/-- Each slot is empty or holds a member of the name at its place. -/
def Slots (names : List String) (slots : List Slot) : Prop :=
  List.Forall₂ (fun name slot => ∀ m ∈ slot, m.1 = name) names slots

theorem Slots.nil : Slots [] [] := List.Forall₂.nil

theorem Slots.member {names : List String} {slots : List Slot} (rest : Slots names slots)
    (name : String) (value : Json) : Slots (name :: names) (Json.member name value :: slots) :=
  .cons (by simp [Json.member]) rest

theorem Slots.memberIfSome {names : List String} {slots : List Slot} (rest : Slots names slots)
    (name : String) (value : Option Json) :
    Slots (name :: names) (Json.memberIfSome name value :: slots) := by
  refine .cons ?_ rest
  cases value <;> simp [Json.memberIfSome]

theorem Slots.memberIf {names : List String} {slots : List Slot} (rest : Slots names slots)
    (name : String) (present : Bool) (value : Json) :
    Slots (name :: names) (Json.memberIf present name value :: slots) := by
  refine .cons ?_ rest
  cases present <;> simp [Json.memberIf]

theorem Slots.names_sublist {names : List String} {slots : List Slot} (h : Slots names slots) :
    ((present slots).map (·.1)).Sublist names := by
  induction h with
  | nil => exact .slnil
  | @cons name slot names slots own _ ih =>
    cases slot with
    | none => exact ih.cons name
    | some m => simpa [present, own m rfl] using ih

/-- The members of the slots are what is read. -/
theorem record?_ofMembers {names : List String} {slots : List Slot} (h : Slots names slots)
    (distinct : names.Nodup) : record? names (ofMembers slots) = some (present slots) := by
  have known : ∀ m ∈ present slots, names.contains m.1 = true := fun m there =>
    List.contains_iff_mem.2 (h.names_sublist.subset (List.mem_map_of_mem there))
  change record? names (.object (present slots)) = _
  simp only [record?, List.filter_eq_self.2 known]
  rw [if_pos (distinctNames_iff.2 (h.names_sublist.nodup distinct))]

section Lookup

variable (asked name : String) (value : Json) (slots : List Slot)

@[simp] theorem lookup_present_nil : (present []).lookup asked = none := rfl

@[simp] theorem lookup_present_member : (present (member name value :: slots)).lookup asked =
    if asked = name then some value else (present slots).lookup asked :=
  SortedMap.lookup_cons_entry asked name value _

@[simp] theorem lookup_present_memberIfSome (value : Option Json) :
    (present (memberIfSome name value :: slots)).lookup asked =
      if asked = name then value.or ((present slots).lookup asked)
      else (present slots).lookup asked := by
  cases value with
  | none => simp [memberIfSome, present]
  | some value => exact SortedMap.lookup_cons_entry asked name value _

@[simp] theorem lookup_present_memberIf (there : Bool) :
    (present (memberIf there name value :: slots)).lookup asked =
      if asked = name ∧ there = true then some value else (present slots).lookup asked := by
  cases there with
  | false => simp [memberIf, present]
  | true =>
    simp only [and_true]
    exact SortedMap.lookup_cons_entry asked name value _

end Lookup

/-! ### Fields -/

section Fields

variable {members : Members} {name : String} {decode : Json → Option α}

theorem required_eq {value : α} {encoded : Json} (found : members.lookup name = some encoded)
    (decoded : decode encoded = some value) : required members name decode = some value := by
  rw [required, found, Option.bind_some, decoded]

theorem defaulted_of_some {value default : α} {encoded : Json}
    (found : members.lookup name = some encoded) (decoded : decode encoded = some value) :
    defaulted members name default decode = some value := by
  simp only [defaulted, found, decoded]

/-- A field that is left out when it has its default value. -/
theorem defaulted_eq {value default : α} {encoded : Json} {omitted : Bool}
    (found : members.lookup name = if omitted = false then some encoded else none)
    (decoded : decode encoded = some value) (left : omitted = true → value = default) :
    defaulted members name default decode = some value := by
  cases omitted with
  | false => exact defaulted_of_some found decoded
  | true => simp only [defaulted, found, left rfl, Bool.true_eq_false, if_false]

theorem nullable_of_ne_null {j : Json} (written : j ≠ .null) :
    nullable decode j = (decode j).map some := by
  cases j with
  | null => exact absurd rfl written
  | _ => rfl

/-- A field that is left out when there is none. -/
theorem optional_eq {encode : α → Json} {value : Option α}
    (found : members.lookup name = value.map encode)
    (decoded : ∀ a, decode (encode a) = some a) (written : ∀ a, encode a ≠ .null) :
    optional members name decode = some value := by
  cases value with
  | none => rw [optional, defaulted, found, Option.map_none]
  | some a =>
    rw [optional, defaulted, found, Option.map_some]
    exact (nullable_of_ne_null (written a)).trans (by rw [decoded, Option.map_some])

theorem text?_string (text : String) : text? (.string text) = some text := rfl

theorem required_text {text : String} (found : members.lookup name = some (.string text)) :
    required members name text? = some text := required_eq found rfl

theorem defaulted_bool {value default : Bool} (found : members.lookup name = some (.bool value)) :
    defaulted members name default bool? = some value := defaulted_of_some found rfl

theorem optional_text {value : Option String} (found : members.lookup name = value.map .string) :
    optional members name text? = some value := optional_eq found text?_string (by simp)

end Fields

/-- A field is read, and the next is read after it. -/
theorem bind_of_some {α β : Type} {x : Option α} {a : α} (read : x = some a) (f : α → Option β) :
    x >>= f = f a := by
  rw [read]
  rfl

/-! ### Lists, sets and maps -/

theorem mapM_map_eq {β : Type} {encode : α → β} {decode : β → Option α}
    (decoded : ∀ a, decode (encode a) = some a) (l : List α) :
    (l.map encode).mapM decode = some l := by
  induction l with
  | nil => rfl
  | cons a rest ih => simp [decoded, ih]

theorem list?_array {encode : α → Json} {decode : Json → Option α}
    (decoded : ∀ a, decode (encode a) = some a) (l : List α) :
    list? decode (.array (l.map encode)) = some l :=
  mapM_map_eq decoded l

theorem texts?_ofStrings (texts : List String) : texts? (ofStrings texts) = some texts :=
  list?_array text?_string texts

theorem textSet?_ofSet (s : SortedSet) : textSet? (ofSet s) = some s := by
  rw [textSet?, ofSet, texts?_ofStrings, Option.map_some, SortedSet.ofList_toList]

theorem map?_ofMap {encode : α → Json} {decode : Json → Option α}
    (decoded : ∀ a, decode (encode a) = some a) (m : SortedMap α) :
    map? decode (ofMap encode m) = some m := by
  have entries : (m.entries.map fun e => (e.1, encode e.2)).mapM
      (fun e => (decode e.2).map fun v => (e.1, v)) = some m.entries :=
    mapM_map_eq (fun e => by rw [decoded, Option.map_some]) m.entries
  rw [ofMap, map?, entries, Option.map_some, SortedMap.ofList_entries]

end ClassPolicy.Json
