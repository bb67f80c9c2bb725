import ClassPolicy.Json.Merge
import ClassPolicy.Proofs.RecordFields

/-!
# Overlays, member by member

What an overlay says of a member is laid over what is below it, and what it
does not mention stays. Below there may be the document of a default: a reader
that has the default anyway reads the same without it.
-/

set_option autoImplicit false

namespace ClassPolicy.Json

theorem mem_of_lookup {members : List (String × Json)} {name : String} {v : Json}
    (found : members.lookup name = some v) : (name, v) ∈ members := by
  obtain ⟨before, after, split, -⟩ := List.lookup_eq_some_iff.1 found
  simp [split]

theorem lookup_of_fresh {members : List (String × Json)} {name : String}
    (fresh : name ∉ members.map (·.1)) : members.lookup name = none := by
  rw [List.lookup_eq_none_iff]
  intro m there
  simp only [bne_iff_ne, ne_eq]
  rintro rfl
  exact fresh (List.mem_map.2 ⟨m, there, rfl⟩)

/-! ### Values without null -/

mutual

/-- Whether there is no null in a document, at any depth. -/
def isNullFree : Json → Bool
  | .null => false
  | .array items => areNullFreeItems items
  | .object members => areNullFreeMembers members
  | _ => true

def areNullFreeItems : List Json → Bool
  | [] => true
  | v :: rest => isNullFree v && areNullFreeItems rest

def areNullFreeMembers : List (String × Json) → Bool
  | [] => true
  | (_, v) :: rest => isNullFree v && areNullFreeMembers rest

end

/-- A value, with no name repeated and nothing unreadable, and without null. -/
structure NullFreeValue (v : Json) : Prop where
  value : v.value? = some v
  nullFree : v.isNullFree = true

theorem length_valueOfMembers? {members values : List (String × Json)}
    (found : valueOfMembers? members = some values) : values.length ≤ members.length := by
  induction members generalizing values with
  | nil =>
    cases found
    exact Nat.le_refl _
  | cons m rest ih =>
    obtain ⟨name, v⟩ := m
    rw [valueOfMembers?] at found
    split at found
    · rename_i w others _ later
      have short := ih later
      cases found
      split <;> simp only [List.length_cons] <;> omega
    · cases found

/-- The members of a value are values, under distinct names. -/
theorem values_of_valueOfMembers? {members : List (String × Json)}
    (same : valueOfMembers? members = some members) :
    (members.map (·.1)).Nodup ∧ ∀ m ∈ members, m.2.value? = some m.2 := by
  induction members with
  | nil => exact ⟨List.nodup_nil, nofun⟩
  | cons m rest ih =>
    obtain ⟨name, v⟩ := m
    rw [valueOfMembers?] at same
    split at same
    · rename_i w others ofHead later
      have short := length_valueOfMembers? later
      -- A name that comes again would make the value shorter than the document.
      cases again : (others.lookup name).isSome with
      | true =>
        rw [again, if_pos rfl, Option.some.injEq] at same
        rw [same, List.length_cons] at short
        omega
      | false =>
        simp only [again, Bool.false_eq_true, if_false, Option.some.injEq, List.cons.injEq,
          Prod.mk.injEq, true_and] at same
        obtain ⟨rfl, rfl⟩ := same
        obtain ⟨distinct, values⟩ := ih later
        refine ⟨List.nodup_cons.2 ⟨fun member => ?_, distinct⟩, ?_⟩
        · obtain ⟨⟨k, x⟩, there, rfl⟩ := List.mem_map.1 member
          have found : (others.lookup k).isSome :=
            List.lookup_isSome_iff.2 ⟨(k, x), there, by simp⟩
          rw [found] at again
          cases again
        · intro m' member
          rcases List.mem_cons.1 member with rfl | member
          · exact ofHead
          · exact values m' member
    · cases same

theorem valueOfMembers?_eq_self {members : List (String × Json)}
    (distinct : (members.map (·.1)).Nodup) (values : ∀ m ∈ members, m.2.value? = some m.2) :
    valueOfMembers? members = some members := by
  induction members with
  | nil => rfl
  | cons m rest ih =>
    obtain ⟨name, v⟩ := m
    obtain ⟨fresh, distinct⟩ := List.nodup_cons.1 distinct
    obtain ⟨first, later⟩ := List.forall_mem_cons.1 values
    have absent : rest.lookup name = none := lookup_of_fresh fresh
    simp only [valueOfMembers?, first, ih distinct later, absent, Option.isSome_none,
      Bool.false_eq_true, if_false]

/-- An object is a value when its members are, under distinct names. -/
theorem value?_object_iff {members : List (String × Json)} :
    (Json.object members).value? = some (.object members) ↔
      (members.map (·.1)).Nodup ∧ ∀ m ∈ members, m.2.value? = some m.2 := by
  constructor
  · intro value
    obtain ⟨values, found, same⟩ := Option.map_eq_some_iff.1 value
    cases same
    exact values_of_valueOfMembers? found
  · rintro ⟨distinct, values⟩
    rw [value?, valueOfMembers?_eq_self distinct values, Option.map_some]

theorem areNullFreeMembers_iff {members : List (String × Json)} :
    areNullFreeMembers members = true ↔ ∀ m ∈ members, m.2.isNullFree = true := by
  induction members with
  | nil => simp [areNullFreeMembers]
  | cons m rest ih => simp [areNullFreeMembers, ih]

namespace NullFreeValue

variable {members : List (String × Json)}

theorem nodup_names (h : NullFreeValue (.object members)) : (members.map (·.1)).Nodup :=
  (value?_object_iff.1 h.value).1

theorem member (h : NullFreeValue (.object members)) {m : String × Json} (there : m ∈ members) :
    NullFreeValue m.2 :=
  ⟨(value?_object_iff.1 h.value).2 m there, areNullFreeMembers_iff.1 h.nullFree m there⟩

theorem isNull_eq_false {v : Json} (h : NullFreeValue v) : v.isNull = false := by
  cases v with
  | null => cases h.nullFree
  | _ => rfl

end NullFreeValue

/-! ### Members -/

theorem lookup_setMember (name : String) (value : Json) (members : List (String × Json))
    (asked : String) : (setMember name value members).lookup asked =
      if asked = name then some value else members.lookup asked := by
  induction members with
  | nil => simp [setMember, SortedMap.lookup_cons_entry]
  | cons m rest ih =>
    obtain ⟨k, v⟩ := m
    by_cases same : k = name
    · subst same
      by_cases here : asked = k <;> simp [setMember, SortedMap.lookup_cons_entry, here]
    · by_cases here : asked = k
      · subst here
        simp [setMember, same]
      · simp [setMember, SortedMap.lookup_cons_entry, same, here, ih]

theorem names_setMember (name : String) (value : Json) (members : List (String × Json)) :
    (setMember name value members).map (·.1) =
      if name ∈ members.map (·.1) then members.map (·.1) else members.map (·.1) ++ [name] := by
  induction members with
  | nil => rfl
  | cons m rest ih =>
    obtain ⟨k, v⟩ := m
    by_cases same : k = name
    · simp [setMember, same]
    · by_cases later : name ∈ rest.map (·.1)
      · simp_all [setMember, Ne.symm same]
      · simp_all [setMember, Ne.symm same]

theorem nodup_setMember (name : String) (value : Json) {members : List (String × Json)}
    (distinct : (members.map (·.1)).Nodup) :
    ((setMember name value members).map (·.1)).Nodup := by
  rw [names_setMember]
  split
  · exact distinct
  · rename_i fresh
    refine List.nodup_append.2 ⟨distinct, by simp, fun k member k' last => ?_⟩
    rw [List.mem_singleton.1 last]
    rintro rfl
    exact fresh member

/-- What is laid over a member that may be there. -/
def laid (below : Option Json) (above : Json) : Json :=
  match below with
  | some below => overlay below above
  | none => above

theorem overlayMembers_cons {name : String} {value : Json} (set : value.isNull = false)
    (members rest : List (String × Json)) : overlayMembers members ((name, value) :: rest) =
      overlayMembers (setMember name (laid (members.lookup name) value) members) rest := by
  rw [overlayMembers, set]
  rfl

theorem nodup_overlayMembers {members source : List (String × Json)}
    (distinct : (members.map (·.1)).Nodup) :
    ((overlayMembers members source).map (·.1)).Nodup := by
  induction source generalizing members with
  | nil => simpa [overlayMembers] using distinct
  | cons m rest ih =>
    obtain ⟨name, value⟩ := m
    cases null : value.isNull with
    | true =>
      rw [overlayMembers, null, if_pos rfl]
      exact ih distinct
    | false =>
      rw [overlayMembers_cons null]
      exact ih (nodup_setMember name _ distinct)

/-- What an overlay says of a member: a null says nothing. -/
def said (source : List (String × Json)) (name : String) : Option Json :=
  (source.lookup name).filter (!·.isNull)

theorem said_cons (name : String) (value : Json) (rest : List (String × Json)) (asked : String) :
    said ((name, value) :: rest) asked =
      if asked = name then (if value.isNull then none else some value) else said rest asked := by
  rw [said, SortedMap.lookup_cons_entry]
  split
  · cases null : value.isNull <;> simp [Option.filter, null]
  · rfl

/-- A member that the overlay says something of is laid over the one below, and
any other member below stays. -/
theorem lookup_overlayMembers_said {source : List (String × Json)}
    (distinct : (source.map (·.1)).Nodup) (members : List (String × Json)) (asked : String) :
    (overlayMembers members source).lookup asked =
      match said source asked with
      | some above => some (laid (members.lookup asked) above)
      | none => members.lookup asked := by
  induction source generalizing members with
  | nil => rfl
  | cons m rest ih =>
    obtain ⟨name, value⟩ := m
    obtain ⟨fresh, distinct⟩ := List.nodup_cons.1 distinct
    have later : said rest name = none := by rw [said, lookup_of_fresh fresh, Option.filter_none]
    cases null : value.isNull with
    | true =>
      rw [overlayMembers, null, if_pos rfl, ih distinct, said_cons, null]
      by_cases same : asked = name
      · simp [same, later]
      · simp [same]
    | false =>
      rw [overlayMembers_cons null, ih distinct, lookup_setMember, said_cons, null]
      by_cases same : asked = name
      · simp [same, later]
      · simp [same]

/-- An overlay without nulls. -/
theorem lookup_overlayMembers {source : List (String × Json)}
    (distinct : (source.map (·.1)).Nodup) (set : ∀ m ∈ source, m.2.isNull = false)
    (members : List (String × Json)) (asked : String) :
    (overlayMembers members source).lookup asked =
      match source.lookup asked with
      | some above => some (laid (members.lookup asked) above)
      | none => members.lookup asked := by
  have heard : said source asked = source.lookup asked := by
    cases found : source.lookup asked with
    | none => rw [said, found, Option.filter_none]
    | some above => simp [said, found, set _ (mem_of_lookup found)]
  rw [lookup_overlayMembers_said distinct, heard]

/-! ### Records over their defaults -/

/-- The members of a record as read alone, and as read over others. -/
structure Overlaid (names : List String) (below own merged : Members) : Prop where
  lookup : ∀ name ∈ names, merged.lookup name =
    match own.lookup name with
    | some above => some (laid (below.lookup name) above)
    | none => below.lookup name
  values : ∀ name v, own.lookup name = some v → NullFreeValue v

theorem lookup_known {names : List String} {name : String} (known : name ∈ names)
    (members : Members) :
    (members.filter fun m => names.contains m.1).lookup name = members.lookup name := by
  induction members with
  | nil => rfl
  | cons m rest ih =>
    obtain ⟨k, v⟩ := m
    by_cases here : name = k
    · subst here
      simp [known]
    · rw [List.filter_cons, SortedMap.lookup_cons_entry, if_neg here, ← ih]
      split
      · rw [SortedMap.lookup_cons_entry, if_neg here]
      · rfl

theorem record?_of_nodup (names : List String) {members : Members}
    (distinct : (members.map (·.1)).Nodup) :
    record? names (.object members) = some (members.filter fun m => names.contains m.1) := by
  have kept : ((members.filter fun m => names.contains m.1).map (·.1)).Nodup :=
    (List.filter_sublist.map _).nodup distinct
  simp only [record?, distinctNames_iff.2 kept, if_true]

/-- A reader to which what is below makes no difference. -/
def Absorbs {α : Type} (decode : Json → Option α) (below : Json) : Prop :=
  ∀ v, NullFreeValue v → decode (overlay below v) = decode v

section Absorbing

variable {α : Type} {decode : Json → Option α}

theorem absorbs_of_not_object {below : Json} (plain : ∀ members, below ≠ .object members) :
    Absorbs decode below := by
  intro v _
  cases v with
  | object source =>
    cases below with
    | object members => exact absurd rfl (plain members)
    | _ => rfl
  | _ => rfl

theorem absorbs_record {names : List String} {below : Members} {read : Members → Option α}
    (distinct : (below.map (·.1)).Nodup)
    (same : ∀ own merged, Overlaid names below own merged → read merged = read own) :
    Absorbs (fun j => (record? names j).bind read) (.object below) := by
  intro v plain
  cases v with
  | object source =>
    have apart := plain.nodup_names
    have set : ∀ m ∈ source, m.2.isNull = false := fun m there =>
      (plain.member there).isNull_eq_false
    change (record? names (.object (overlayMembers below source))).bind read =
      (record? names (.object source)).bind read
    rw [record?_of_nodup names apart, record?_of_nodup names (nodup_overlayMembers distinct)]
    refine same _ _ ⟨fun name known => ?_, fun name v found => ?_⟩
    · rw [lookup_known known, lookup_known known, lookup_overlayMembers apart set]
    · exact plain.member (List.mem_of_mem_filter (mem_of_lookup found))
  | _ => rfl

variable {names : List String} {below own merged : Members} {name : String}

/-- A field of which the default is below. -/
theorem Overlaid.defaulted (h : Overlaid names below own merged) (known : name ∈ names)
    {default : α} {encoded : Json} (under : below.lookup name = some encoded)
    (decoded : decode encoded = some default) (absorbs : Absorbs decode encoded) :
    Json.defaulted merged name default decode = Json.defaulted own name default decode := by
  have lookup := h.lookup name known
  cases found : own.lookup name with
  | none =>
    rw [found, under] at lookup
    simp only [Json.defaulted, lookup, found, decoded]
  | some v =>
    rw [found, under] at lookup
    simp only [Json.defaulted, lookup, found]
    exact absorbs v (h.values name v found)

/-- A list of which the default, the empty one, is below. -/
theorem Overlaid.list (h : Overlaid names below own merged) (known : name ∈ names)
    (under : below.lookup name = some (.array [])) :
    Json.defaulted merged name [] (list? decode) = Json.defaulted own name [] (list? decode) :=
  h.defaulted known under rfl (absorbs_of_not_object nofun)

/-- A field of which there is nothing below. -/
theorem Overlaid.optional (h : Overlaid names below own merged) (known : name ∈ names)
    (under : below.lookup name = none) :
    Json.optional merged name decode = Json.optional own name decode := by
  have lookup := h.lookup name known
  cases found : own.lookup name with
  | none =>
    rw [found, under] at lookup
    simp only [Json.optional, Json.defaulted, lookup, found]
  | some v =>
    rw [found, under] at lookup
    simp only [Json.optional, Json.defaulted, lookup, found]
    rfl

end Absorbing

/-! ### Over nothing -/

theorem setMember_of_fresh {name : String} {members : List (String × Json)}
    (fresh : name ∉ members.map (·.1)) (value : Json) :
    setMember name value members = members ++ [(name, value)] := by
  induction members with
  | nil => rfl
  | cons m rest ih =>
    simp only [List.map_cons, List.mem_cons, not_or] at fresh
    rw [setMember, if_neg (Ne.symm fresh.1), ih fresh.2, List.cons_append]

/-- Members under new names are added in their order. -/
theorem overlayMembers_of_fresh {members source : List (String × Json)}
    (distinct : ((members ++ source).map (·.1)).Nodup)
    (set : ∀ m ∈ source, m.2.isNull = false) :
    overlayMembers members source = members ++ source := by
  induction source generalizing members with
  | nil => simp [overlayMembers]
  | cons m rest ih =>
    obtain ⟨name, value⟩ := m
    have fresh : name ∉ members.map (·.1) := by
      rw [List.map_append, List.nodup_append] at distinct
      intro there
      exact distinct.2.2 name there name (by simp) rfl
    have apart : ((members ++ [(name, value)] ++ rest).map (·.1)).Nodup := by
      simpa using distinct
    rw [overlayMembers_cons (set _ List.mem_cons_self), lookup_of_fresh fresh, laid,
      setMember_of_fresh fresh, ih apart fun m' member => set m' (List.mem_cons_of_mem _ member),
      List.append_assoc, List.singleton_append]

theorem absorbs_empty {α : Type} {decode : Json → Option α} : Absorbs decode (.object []) := by
  intro v plain
  cases v with
  | object source =>
    have kept : overlayMembers [] source = source :=
      overlayMembers_of_fresh plain.nodup_names fun m there =>
        (plain.member there).isNull_eq_false
    change decode (.object (overlayMembers [] source)) = _
    rw [kept]
  | _ => rfl

end ClassPolicy.Json
