/-!
# Maps in key order

A finite map from text keys, kept as the list of its entries in strictly
increasing key order. The order is part of the type, so a map is determined by
what it answers: maps with equal lookups are equal. Texts are ordered by code
point. What is said of lists of entries holds for keys of any type with a
strict order in which two keys can always be compared.
-/

set_option autoImplicit false

namespace ClassPolicy

structure SortedMap (α : Type) where
  entries : List (String × α)
  increasing : entries.Pairwise (fun a b => a.1 < b.1)
deriving DecidableEq

namespace SortedMap

/-! ### Entries in key order -/

section Entries

variable {κ α : Type} [LT κ] [DecidableLT κ] [DecidableEq κ]

def insertEntry (k : κ) (v : α) : List (κ × α) → List (κ × α)
  | [] => [(k, v)]
  | e :: rest =>
    if k < e.1 then (k, v) :: e :: rest
    else if k = e.1 then (k, v) :: rest
    else e :: insertEntry k v rest

theorem mem_insertEntry {k : κ} {v : α} {l : List (κ × α)} {x : κ × α}
    (h : x ∈ insertEntry k v l) : x = (k, v) ∨ x ∈ l := by
  induction l with
  | nil => simpa [insertEntry] using h
  | cons e rest ih =>
    simp only [insertEntry] at h
    split at h
    · simpa using h
    · split at h
      · rcases List.mem_cons.1 h with h | h
        · exact .inl h
        · exact .inr (List.mem_cons_of_mem _ h)
      · rcases List.mem_cons.1 h with h | h
        · exact .inr (h ▸ List.mem_cons_self)
        · exact (ih h).imp id (List.mem_cons_of_mem _)

omit [DecidableEq κ] in
theorem lt_of_not_lt_of_ne [Std.Trichotomous (fun a b : κ => a < b)] {a b : κ} (h : ¬ a < b)
    (hne : a ≠ b) : b < a := by
  by_cases hba : b < a
  · exact hba
  · exact absurd (Std.Trichotomous.trichotomous (r := fun a b : κ => a < b) _ _ h hba) hne

theorem insertEntry_increasing
    [Trans (fun a b : κ => a < b) (fun a b : κ => a < b) (fun a b : κ => a < b)]
    [Std.Trichotomous (fun a b : κ => a < b)] (k : κ) (v : α) {l : List (κ × α)}
    (h : l.Pairwise (fun a b => a.1 < b.1)) :
    (insertEntry k v l).Pairwise (fun a b => a.1 < b.1) := by
  induction l with
  | nil => simp [insertEntry]
  | cons e rest ih =>
    obtain ⟨he, hr⟩ := List.pairwise_cons.1 h
    simp only [insertEntry]
    split
    · rename_i hlt
      refine List.pairwise_cons.2 ⟨fun x hx => ?_, h⟩
      rcases List.mem_cons.1 hx with rfl | hx
      · exact hlt
      · exact Trans.trans (r := fun a b : κ => a < b) hlt (he x hx)
    · split
      · rename_i heq
        exact List.pairwise_cons.2 ⟨fun x hx => heq ▸ he x hx, hr⟩
      · rename_i hlt hne
        refine List.pairwise_cons.2 ⟨fun x hx => ?_, ih hr⟩
        rcases mem_insertEntry hx with rfl | hx
        · exact lt_of_not_lt_of_ne hlt hne
        · exact he x hx

omit [LT κ] [DecidableLT κ] in
theorem lookup_cons_entry (k' k : κ) (v : α) (l : List (κ × α)) :
    ((k, v) :: l).lookup k' = if k' = k then some v else l.lookup k' := by
  rw [List.lookup_cons]
  by_cases h : k' = k <;> simp [h, beq_false_of_ne]

theorem lookup_insertEntry (k k' : κ) (v : α) (l : List (κ × α)) :
    (insertEntry k v l).lookup k' = if k' = k then some v else l.lookup k' := by
  induction l with
  | nil => simp [insertEntry, lookup_cons_entry]
  | cons e rest ih =>
    obtain ⟨ek, ev⟩ := e
    simp only [insertEntry]
    split
    · rw [lookup_cons_entry]
    · split
      · rename_i heq
        subst heq
        by_cases h : k' = k <;> simp [lookup_cons_entry, h]
      · rename_i hne
        by_cases h : k' = ek
        · subst h
          simp [Ne.symm hne]
        · simp [lookup_cons_entry, ih, h]

end Entries

section Increasing

variable {κ α : Type} [LT κ] [DecidableEq κ] [Std.Irrefl (fun a b : κ => a < b)]

theorem lookup_eq_some_iff {l : List (κ × α)} (hl : l.Pairwise (fun a b => a.1 < b.1)) {k : κ}
    {v : α} : l.lookup k = some v ↔ (k, v) ∈ l := by
  induction l with
  | nil => simp
  | cons e rest ih =>
    obtain ⟨ek, ev⟩ := e
    obtain ⟨he, hr⟩ := List.pairwise_cons.1 hl
    by_cases h : k = ek
    · subst h
      simp only [lookup_cons_entry, ↓reduceIte, Option.some.injEq, List.mem_cons, Prod.mk.injEq,
        true_and]
      refine ⟨fun e => .inl e.symm, fun e => ?_⟩
      rcases e with e | e
      · exact e.symm
      · exact absurd (he _ e) (Std.Irrefl.irrefl (r := fun a b : κ => a < b) _)
    · simp [lookup_cons_entry, ih hr, h]

/-- Entries in key order are determined by what is found among them. -/
theorem eq_of_lookup_eq
    [Trans (fun a b : κ => a < b) (fun a b : κ => a < b) (fun a b : κ => a < b)]
    {l r : List (κ × α)} (hl : l.Pairwise (fun a b => a.1 < b.1))
    (hr : r.Pairwise (fun a b => a.1 < b.1)) (h : ∀ k, l.lookup k = r.lookup k) : l = r := by
  have irrefl : ∀ a : κ, ¬ a < a := Std.Irrefl.irrefl (r := fun a b : κ => a < b)
  have hmem : ∀ x, x ∈ l ↔ x ∈ r := fun ⟨k, v⟩ => by
    rw [← lookup_eq_some_iff hl, ← lookup_eq_some_iff hr, h]
  clear h
  induction l generalizing r with
  | nil =>
    cases r with
    | nil => rfl
    | cons b r => simpa using hmem b
  | cons a l ih =>
    cases r with
    | nil => simpa using hmem a
    | cons b r =>
      obtain ⟨ha, hl'⟩ := List.pairwise_cons.1 hl
      obtain ⟨hb, hr'⟩ := List.pairwise_cons.1 hr
      have hab : a = b := by
        rcases List.mem_cons.1 ((hmem a).1 List.mem_cons_self) with e | e
        · exact e
        · rcases List.mem_cons.1 ((hmem b).2 List.mem_cons_self) with f | f
          · exact f.symm
          · exact absurd (Trans.trans (r := fun a b : κ => a < b) (ha b f) (hb a e)) (irrefl _)
      subst hab
      refine congrArg (a :: ·) (ih hl' hr' fun x => ?_)
      constructor
      · intro hx
        rcases List.mem_cons.1 ((hmem x).1 (List.mem_cons_of_mem _ hx)) with rfl | e
        · exact absurd (ha _ hx) (irrefl _)
        · exact e
      · intro hx
        rcases List.mem_cons.1 ((hmem x).2 (List.mem_cons_of_mem _ hx)) with rfl | e
        · exact absurd (hb _ hx) (irrefl _)
        · exact e

end Increasing

/-! ### Maps -/

variable {α β : Type}

def empty : SortedMap α := ⟨[], .nil⟩

instance : EmptyCollection (SortedMap α) := ⟨empty⟩
instance : Inhabited (SortedMap α) := ⟨empty⟩

/-- The value under a key; a key already present gets the new value. -/
def insert (m : SortedMap α) (k : String) (v : α) : SortedMap α :=
  ⟨insertEntry k v m.entries, insertEntry_increasing k v m.increasing⟩

def get? (m : SortedMap α) (k : String) : Option α := m.entries.lookup k

def contains (m : SortedMap α) (k : String) : Bool := (m.get? k).isSome

def erase (m : SortedMap α) (k : String) : SortedMap α :=
  ⟨m.entries.filter (fun e => e.1 ≠ k), m.increasing.filter _⟩

def map (f : α → β) (m : SortedMap α) : SortedMap β :=
  ⟨m.entries.map (fun e => (e.1, f e.2)), List.pairwise_map.2 m.increasing⟩

def keys (m : SortedMap α) : List String := m.entries.map (·.1)

def values (m : SortedMap α) : List α := m.entries.map (·.2)

def size (m : SortedMap α) : Nat := m.entries.length

def isEmpty (m : SortedMap α) : Bool := m.entries.isEmpty

/-- Of entries with one key, the last one stays. -/
def ofList (l : List (String × α)) : SortedMap α :=
  l.foldl (fun m e => m.insert e.1 e.2) empty

@[simp] theorem get?_empty (k : String) : (empty : SortedMap α).get? k = none := rfl

theorem get?_insert (m : SortedMap α) (k k' : String) (v : α) :
    (m.insert k v).get? k' = if k' = k then some v else m.get? k' :=
  lookup_insertEntry k k' v m.entries

theorem get?_erase (m : SortedMap α) (k k' : String) :
    (m.erase k).get? k' = if k' = k then none else m.get? k' := by
  simp only [get?, erase]
  induction m.entries with
  | nil => simp
  | cons e rest ih =>
    obtain ⟨ek, ev⟩ := e
    by_cases he : ek = k
    · subst he
      by_cases h : k' = ek <;> simpa [List.filter, lookup_cons_entry, h] using ih
    · by_cases h : k' = ek
      · simp [List.filter, h, he]
      · simpa [List.filter, lookup_cons_entry, h, he] using ih

theorem get?_map (f : α → β) (m : SortedMap α) (k : String) :
    (m.map f).get? k = (m.get? k).map f := by
  simp only [get?, map]
  induction m.entries with
  | nil => rfl
  | cons e rest ih =>
    obtain ⟨ek, ev⟩ := e
    by_cases h : k = ek <;> simp [lookup_cons_entry, ih, h]

theorem get?_eq_some_iff {m : SortedMap α} {k : String} {v : α} :
    m.get? k = some v ↔ (k, v) ∈ m.entries := lookup_eq_some_iff m.increasing

theorem mem_keys {m : SortedMap α} {k : String} : k ∈ m.keys ↔ m.contains k = true := by
  simp only [keys, contains, List.mem_map, Prod.exists, exists_and_right, exists_eq_right,
    Option.isSome_iff_exists, get?_eq_some_iff]

theorem nodup_keys (m : SortedMap α) : m.keys.Nodup := by
  refine List.pairwise_map.2 (m.increasing.imp fun less same => ?_)
  rw [same] at less
  exact String.lt_irrefl _ less

/-- A map has an entry for each key that has a value. -/
theorem size_eq_length {m : SortedMap α} {distinct : List String} (nodup : distinct.Nodup)
    (held : ∀ k, k ∈ distinct ↔ m.contains k = true) : m.size = distinct.length := by
  have same : m.keys.Perm distinct :=
    (List.perm_ext_iff_of_nodup m.nodup_keys nodup).2 fun k => mem_keys.trans (held k).symm
  rw [← same.length_eq, keys, List.length_map, size]

theorem mem_values {m : SortedMap α} {v : α} : v ∈ m.values ↔ ∃ k, m.get? k = some v := by
  simp only [values, List.mem_map, Prod.exists, exists_eq_right, get?_eq_some_iff]

/-- Values that carry their key stand in the order of the keys. -/
theorem values_increasing (key : α → String) {m : SortedMap α}
    (keyed : ∀ k v, m.get? k = some v → key v = k) :
    m.values.Pairwise (fun a b => key a < key b) := by
  have own : ∀ e ∈ m.entries, key e.2 = e.1 := fun e member =>
    keyed e.1 e.2 (get?_eq_some_iff.2 member)
  refine List.pairwise_map.2 (m.increasing.imp_of_mem fun first second less => ?_)
  rw [own _ first, own _ second]
  exact less

/-- A map is determined by its answers. -/
theorem ext_get? {m n : SortedMap α} (h : ∀ k, m.get? k = n.get? k) : m = n := by
  have entries : m.entries = n.entries := eq_of_lookup_eq m.increasing n.increasing h
  cases m
  cases n
  cases entries
  rfl

/-- Of entries inserted one after the other, the last one of a key is found. -/
theorem get?_foldl_insert (l : List (String × α)) (m : SortedMap α) (k : String) :
    (l.foldl (fun m e => m.insert e.1 e.2) m).get? k = (l.reverse.lookup k).or (m.get? k) := by
  induction l generalizing m with
  | nil => simp
  | cons e rest ih =>
    obtain ⟨ek, ev⟩ := e
    rw [List.foldl_cons, ih, get?_insert, List.reverse_cons, List.lookup_append]
    by_cases same : k = ek <;> simp [lookup_cons_entry, same]

theorem get?_ofList (l : List (String × α)) (k : String) :
    (ofList l).get? k = l.reverse.lookup k := by
  rw [ofList, get?_foldl_insert, get?_empty, Option.or_none]

theorem mem_of_get?_ofList {l : List (String × α)} {k : String} {v : α}
    (found : (ofList l).get? k = some v) : (k, v) ∈ l := by
  rw [get?_ofList] at found
  obtain ⟨before, after, split, -⟩ := List.lookup_eq_some_iff.1 found
  rw [← List.mem_reverse, split]
  simp

theorem contains_ofList (l : List (String × α)) (k : String) :
    (ofList l).contains k = true ↔ k ∈ l.map (·.1) := by
  rw [contains, get?_ofList, List.lookup_isSome_iff, List.mem_map]
  simp only [List.mem_reverse, beq_iff_eq, eq_comm (a := k)]

theorem isSome_get?_ofList {l : List (String × α)} {k : String} {v : α}
    (member : (k, v) ∈ l) : ((ofList l).get? k).isSome :=
  (contains_ofList l k).2 (List.mem_map_of_mem member)

theorem insert_insert (m : SortedMap α) (k : String) (v w : α) :
    (m.insert k v).insert k w = m.insert k w := by
  apply ext_get?
  intro k'
  by_cases same : k' = k <;> simp [get?_insert, same]

theorem insert_comm (m : SortedMap α) {k l : String} (different : k ≠ l) (v w : α) :
    (m.insert k v).insert l w = (m.insert l w).insert k v := by
  apply ext_get?
  intro k'
  simp only [get?_insert]
  by_cases first : k' = k
  · simp [first, different]
  · simp [first]

theorem eq_empty_of_isEmpty {m : SortedMap α} (none : m.isEmpty = true) : m = empty := by
  obtain ⟨entries, increasing⟩ := m
  obtain rfl : entries = [] := List.isEmpty_iff.1 none
  rfl

/-- A map is made again from its own entries. -/
theorem ofList_entries (m : SortedMap α) : ofList m.entries = m := by
  refine ext_get? fun k => Option.ext fun v => ?_
  rw [get?_eq_some_iff (m := m)]
  refine ⟨mem_of_get?_ofList, fun member => ?_⟩
  obtain ⟨found, lookup⟩ := Option.isSome_iff_exists.1 (isSome_get?_ofList member)
  have stored : m.get? k = some found := get?_eq_some_iff.2 (mem_of_get?_ofList lookup)
  rw [get?_eq_some_iff.2 member] at stored
  rw [lookup, stored]

end SortedMap

/-- A finite set of texts, in order. -/
abbrev SortedSet := SortedMap Unit

namespace SortedSet

def add (s : SortedSet) (k : String) : SortedSet := SortedMap.insert s k ()

def ofList (l : List String) : SortedSet := l.foldl add SortedMap.empty

def toList (s : SortedSet) : List String := SortedMap.keys s

theorem contains_add (s : SortedSet) (k k' : String) :
    (add s k).contains k' = (decide (k' = k) || s.contains k') := by
  by_cases same : k' = k <;> simp [add, SortedMap.contains, SortedMap.get?_insert, same]

theorem contains_foldl_add (keys : List String) (s : SortedSet) (k : String) :
    (keys.foldl add s).contains k = (s.contains k || keys.contains k) := by
  induction keys generalizing s with
  | nil => simp
  | cons key rest ih =>
    rw [List.foldl_cons, ih, contains_add, List.contains_cons]
    by_cases same : k = key <;> simp [same, beq_false_of_ne]

theorem contains_toList (s : SortedSet) (k : String) :
    (toList s).contains k = s.contains k := by
  rw [Bool.eq_iff_iff, List.contains_iff_mem, toList, SortedMap.mem_keys]

theorem ext_contains {s t : SortedSet} (h : ∀ k, s.contains k = t.contains k) : s = t := by
  refine SortedMap.ext_get? fun k => ?_
  have same := h k
  simp only [SortedMap.contains] at same
  cases one : s.get? k <;> cases other : t.get? k <;> simp_all

/-- A set is made again from its own elements. -/
theorem ofList_toList (s : SortedSet) : ofList (toList s) = s := by
  refine ext_contains fun k => ?_
  rw [ofList, contains_foldl_add, contains_toList]
  rfl

end SortedSet

end ClassPolicy
