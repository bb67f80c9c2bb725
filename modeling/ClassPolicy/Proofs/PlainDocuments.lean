import ClassPolicy.Proofs.JsonText
import ClassPolicy.Proofs.Overlay

/-!
# Plain documents

A plain document has no number, no null and nothing unreadable in it, names no
member of an object twice and is nested no deeper than said. Records, lists and
maps of plain parts are plain. A text that writes a plain document is read as
that document, unless it is nested deeper than a reader follows.
-/

set_option autoImplicit false

namespace ClassPolicy.Json

/-! ### Items and members -/

section Parts

variable {items : List Json} {members : List (String × Json)} {n : ℕ}

theorem areTextualItems_iff : areTextualItems items = true ↔ ∀ v ∈ items, v.isTextual = true := by
  induction items with
  | nil => simp [areTextualItems]
  | cons v rest ih => simp [areTextualItems, ih]

theorem areTextualMembers_iff :
    areTextualMembers members = true ↔ ∀ m ∈ members, m.2.isTextual = true := by
  induction members with
  | nil => simp [areTextualMembers]
  | cons m rest ih => simp [areTextualMembers, ih]

theorem areNullFreeItems_iff :
    areNullFreeItems items = true ↔ ∀ v ∈ items, v.isNullFree = true := by
  induction items with
  | nil => simp [areNullFreeItems]
  | cons v rest ih => simp [areNullFreeItems, ih]

theorem depthOfItems_le_iff : depthOfItems items ≤ n ↔ ∀ v ∈ items, v.depth ≤ n := by
  induction items with
  | nil => simp [depthOfItems]
  | cons v rest ih => rw [depthOfItems, Nat.max_le, ih, List.forall_mem_cons]

theorem depthOfMembers_le_iff : depthOfMembers members ≤ n ↔ ∀ m ∈ members, m.2.depth ≤ n := by
  induction members with
  | nil => simp [depthOfMembers]
  | cons m rest ih => rw [depthOfMembers, Nat.max_le, ih, List.forall_mem_cons]

theorem valueOfItems?_eq_self (values : ∀ v ∈ items, v.value? = some v) :
    valueOfItems? items = some items := by
  induction items with
  | nil => rfl
  | cons v rest ih =>
    obtain ⟨first, later⟩ := List.forall_mem_cons.1 values
    rw [valueOfItems?, first, ih later]

end Parts

structure Plain (limit : ℕ) (v : Json) : Prop where
  textual : v.isTextual = true
  nullFree : NullFreeValue v
  shallow : v.depth ≤ limit

namespace Plain

variable {limit : ℕ}

theorem string (text : String) : Plain limit (.string text) := ⟨rfl, ⟨rfl, rfl⟩, Nat.zero_le _⟩

theorem bool (value : Bool) : Plain limit (.bool value) := ⟨rfl, ⟨rfl, rfl⟩, Nat.zero_le _⟩

theorem array {items : List Json} (each : ∀ v ∈ items, Plain limit v) :
    Plain (limit + 1) (.array items) where
  textual := areTextualItems_iff.2 fun v member => (each v member).textual
  nullFree.value := by
    rw [value?, valueOfItems?_eq_self fun v member => (each v member).nullFree.value,
      Option.map_some]
  nullFree.nullFree := areNullFreeItems_iff.2 fun v member => (each v member).nullFree.nullFree
  shallow := Nat.succ_le_succ (depthOfItems_le_iff.2 fun v member => (each v member).shallow)

theorem object {members : List (String × Json)} (distinct : (members.map (·.1)).Nodup)
    (each : ∀ m ∈ members, Plain limit m.2) : Plain (limit + 1) (.object members) where
  textual := areTextualMembers_iff.2 fun m member => (each m member).textual
  nullFree.value := value?_object_iff.2 ⟨distinct, fun m member => (each m member).nullFree.value⟩
  nullFree.nullFree := areNullFreeMembers_iff.2 fun m member => (each m member).nullFree.nullFree
  shallow := Nat.succ_le_succ (depthOfMembers_le_iff.2 fun m member => (each m member).shallow)

theorem list {α : Type} {encode : α → Json} (each : ∀ a, Plain limit (encode a)) (l : List α) :
    Plain (limit + 1) (.array (l.map encode)) :=
  array (List.forall_mem_map.2 fun a _ => each a)

theorem ofStrings (texts : List String) : Plain (limit + 1) (ofStrings texts) := list string texts

theorem ofMap {α : Type} {encode : α → Json} (each : ∀ a, Plain limit (encode a))
    (m : SortedMap α) : Plain (limit + 1) (ofMap encode m) := by
  refine object ?_ (List.forall_mem_map.2 fun e _ => each e.2)
  rw [List.map_map]
  exact List.pairwise_map.2 (m.increasing.imp fun less => String.ne_of_lt less)

end Plain

/-- The slots of a record whose members are plain. -/
structure PlainSlots (limit : ℕ) (names : List String) (slots : List Slot) : Prop where
  named : Slots names slots
  each : ∀ slot ∈ slots, ∀ m ∈ slot, Plain limit m.2

namespace PlainSlots

variable {limit : ℕ} {names : List String} {slots : List Slot}

theorem nil : PlainSlots limit [] [] := ⟨.nil, nofun⟩

theorem member (rest : PlainSlots limit names slots) (name : String) {value : Json}
    (plain : Plain limit value) :
    PlainSlots limit (name :: names) (Json.member name value :: slots) where
  named := rest.named.member name value
  each := List.forall_mem_cons.2 ⟨by rintro _ ⟨⟩; exact plain, rest.each⟩

theorem memberIfSome {α : Type} (rest : PlainSlots limit names slots) (name : String)
    {encode : α → Json} (plain : ∀ a, Plain limit (encode a)) (value : Option α) :
    PlainSlots limit (name :: names) (Json.memberIfSome name (value.map encode) :: slots) where
  named := rest.named.memberIfSome name _
  each := by
    refine List.forall_mem_cons.2 ⟨?_, rest.each⟩
    cases value with
    | none => exact nofun
    | some a =>
      rintro _ ⟨⟩
      exact plain a

theorem ofMembers (h : PlainSlots limit names slots) (distinct : names.Nodup) :
    Plain (limit + 1) (ofMembers slots) := by
  refine .object (h.named.names_sublist.nodup distinct) fun m member => ?_
  obtain ⟨slot, there, own⟩ := List.mem_filterMap.1 member
  exact h.each slot there m own

end PlainSlots

/-- A text that writes a plain document denotes that document. -/
theorem Plain.read?_eq {v : Json} (plain : Plain depthLimit v) {text : String}
    (parsed : parse? text = some v) : read? text = some v := by
  simp only [read?, parsed, if_pos plain.shallow, plain.nullFree.value]

end ClassPolicy.Json
