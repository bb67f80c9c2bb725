import ClassPolicy.Proofs.OverlayPaths

/-!
# Null members of an overlay

A null member of an overlay says nothing where the object that it is in is laid
over an object: what is below stays. Where that object comes over something
else, or over nothing, it is taken over as it is, and its nulls with it. So it
makes a difference to leave the nulls of an overlay out beforehand exactly when
one of them is in such an object. A null that is a whole overlay replaces
whatever it is laid over.
-/

set_option autoImplicit false

namespace ClassPolicy.Json

/-! ### Nulls left out -/

mutual

/-- A document without the null members of its objects, as far down as objects
lie in objects. -/
def withoutNulls : Json → Json
  | .object members => .object (withoutNullMembers members)
  | v => v

def withoutNullMembers : List (String × Json) → List (String × Json)
  | [] => []
  | (name, v) :: rest =>
    if v.isNull then withoutNullMembers rest
    else (name, withoutNulls v) :: withoutNullMembers rest

end

theorem withoutNulls_of_plain {v : Json} (plain : ∀ members, v ≠ .object members) :
    v.withoutNulls = v := by
  cases v with
  | object members => exact absurd rfl (plain members)
  | _ => rfl

theorem withoutNullMembers_cons {name : String} {v : Json} (set : v.isNull = false)
    (rest : List (String × Json)) : withoutNullMembers ((name, v) :: rest) =
      (name, v.withoutNulls) :: withoutNullMembers rest := by
  rw [withoutNullMembers, set]
  rfl

theorem isNull_withoutNulls (v : Json) : v.withoutNulls.isNull = v.isNull := by
  cases v <;> rfl

theorem names_withoutNullMembers (members : List (String × Json)) :
    ((withoutNullMembers members).map (·.1)).Sublist (members.map (·.1)) := by
  induction members with
  | nil => exact .slnil
  | cons m rest ih =>
    obtain ⟨name, v⟩ := m
    rw [withoutNullMembers]
    split
    · exact ih.cons name
    · exact ih.cons_cons name

theorem exists_of_mem_withoutNullMembers {members : List (String × Json)} {m : String × Json}
    (member : m ∈ withoutNullMembers members) : ∃ v, (m.1, v) ∈ members ∧ m.2 = v.withoutNulls := by
  induction members with
  | nil => cases member
  | cons first rest ih =>
    obtain ⟨name, v⟩ := first
    rw [withoutNullMembers] at member
    split at member
    · obtain ⟨w, there, same⟩ := ih member
      exact ⟨w, List.mem_cons_of_mem _ there, same⟩
    · rcases List.mem_cons.1 member with rfl | later
      · exact ⟨v, List.mem_cons_self, rfl⟩
      · obtain ⟨w, there, same⟩ := ih later
        exact ⟨w, List.mem_cons_of_mem _ there, same⟩

/-- The members left are those that an overlay says something of. -/
theorem lookup_withoutNullMembers {members : List (String × Json)}
    (distinct : (members.map (·.1)).Nodup) (name : String) :
    (withoutNullMembers members).lookup name = (said members name).map withoutNulls := by
  induction members with
  | nil => rfl
  | cons m rest ih =>
    obtain ⟨k, v⟩ := m
    obtain ⟨fresh, distinct⟩ := List.nodup_cons.1 distinct
    have later := ih distinct
    rw [withoutNullMembers, said_cons]
    cases null : v.isNull with
    | true =>
      by_cases same : name = k
      · subst same
        simp [later, said, lookup_of_fresh fresh]
      · simp [later, same]
    | false => by_cases same : name = k <;> simp [SortedMap.lookup_cons_entry, later, same]

theorem value?_withoutNulls {v : Json} (value : v.value? = some v) :
    v.withoutNulls.value? = some v.withoutNulls := by
  refine value_induction (P := fun v => v.withoutNulls.value? = some v.withoutNulls)
    (fun members distinct each => ?_) (fun v plain value => ?_) v value
  · refine value?_object_iff.2 ⟨(names_withoutNullMembers members).nodup distinct, ?_⟩
    intro m member
    obtain ⟨v, there, same⟩ := exists_of_mem_withoutNullMembers member
    rw [same]
    exact (each _ there).2
  · rwa [withoutNulls_of_plain plain]

/-! ### Objects along a path -/

/-- The document has an object at the path. -/
def ObjectAt (v : Json) (path : List String) : Prop :=
  ∃ members, v.at? path = some (.object members)

section Paths

variable {v : Json} {name : String} {path : List String}

theorem at?_append (v : Json) (path rest : List String) :
    v.at? (path ++ rest) = (v.at? path).bind (·.at? rest) := by
  induction path generalizing v with
  | nil => rfl
  | cons name path ih =>
    rw [List.cons_append, at?, at?, Option.bind_assoc]
    simp only [ih]

theorem not_objectAt_null (path : List String) : ¬ObjectAt .null path := by
  rintro ⟨members, there⟩
  cases path <;> cases there

/-- An overlay is heard on a member with an object in it. -/
theorem said_of_objectAt {source : List (String × Json)} {next : Json}
    (lookup : source.lookup name = some next) (object : ObjectAt next path) :
    said source name = some next := by
  cases next with
  | null => exact absurd object (not_objectAt_null path)
  | _ => simp [said, lookup, isNull]

theorem objectAt_cons_iff :
    ObjectAt v (name :: path) ↔ ObjectAt ((v.get? name).getD .null) path := by
  cases found : v.get? name with
  | none =>
    refine iff_of_false ?_ (not_objectAt_null path)
    simp [ObjectAt, at?, found]
  | some next => simp [ObjectAt, at?, found]

/-- What has something at a path of several names is an object. -/
theorem eq_object_of_get? {next : Json} (found : v.get? name = some next) :
    ∃ members, v = .object members ∧ members.lookup name = some next := by
  cases v with
  | object members => exact ⟨members, rfl, found⟩
  | _ => cases found

theorem objectAt_of_at? {w : Json} (there : v.at? (path ++ [name]) = some w) :
    ∃ members, v.at? path = some (.object members) ∧ members.lookup name = some w := by
  rw [at?_append, Option.bind_eq_some_iff] at there
  obtain ⟨u, here, below⟩ := there
  obtain ⟨next, found, same⟩ := Option.bind_eq_some_iff.1 below
  cases same
  obtain ⟨members, rfl, lookup⟩ := eq_object_of_get? found
  exact ⟨members, here, lookup⟩

theorem value?_of_at? {w : Json} (value : v.value? = some v) (there : v.at? path = some w) :
    w.value? = some w := by
  induction path generalizing v with
  | nil =>
    cases there
    exact value
  | cons name path ih =>
    obtain ⟨next, found, below⟩ := Option.bind_eq_some_iff.1 there
    obtain ⟨members, rfl, lookup⟩ := eq_object_of_get? found
    exact ih ((value?_object_iff.1 value).2 _ (mem_of_lookup lookup)) below

theorem objectAt_withoutNulls {members : List (String × Json)} (value : v.value? = some v)
    (there : v.at? path = some (.object members)) :
    v.withoutNulls.at? path = some (.object (withoutNullMembers members)) := by
  induction path generalizing v with
  | nil =>
    cases there
    rfl
  | cons name path ih =>
    obtain ⟨next, found, below⟩ := Option.bind_eq_some_iff.1 there
    obtain ⟨source, rfl, lookup⟩ := eq_object_of_get? found
    obtain ⟨distinct, values⟩ := value?_object_iff.1 value
    have kept : (Json.object source).withoutNulls.get? name = some next.withoutNulls := by
      change (withoutNullMembers source).lookup name = _
      rw [lookup_withoutNullMembers distinct, said_of_objectAt lookup ⟨members, below⟩, Option.map_some]
    rw [at?, kept, Option.bind_some, ih (values _ (mem_of_lookup lookup)) below]

/-- Where a null member was, nothing is left. -/
theorem at?_withoutNulls_of_null (value : v.value? = some v)
    (null : v.at? (path ++ [name]) = some .null) : v.withoutNulls.at? (path ++ [name]) = none := by
  obtain ⟨members, there, lookup⟩ := objectAt_of_at? null
  have distinct := (value?_object_iff.1 (value?_of_at? value there)).1
  have gone : (withoutNullMembers members).lookup name = none := by
    rw [lookup_withoutNullMembers distinct, said, lookup]
    rfl
  rw [at?_append, objectAt_withoutNulls value there, Option.bind_some, at?, get?, gone,
    Option.bind_none]

end Paths

/-! ### Objects over objects, and over anything else -/

section Below

variable {below above : Json} {name : String} {path : List String}

theorem overlay_of_bare (object : ObjectAt above []) (bare : ¬ObjectAt below []) :
    overlay below above = above := by
  obtain ⟨source, same⟩ := object
  cases same
  cases below with
  | object members => exact absurd ⟨members, rfl⟩ bare
  | _ => rfl

/-- Below a member that is an object, the overlay goes on with that member. -/
theorem at?_overlay_cons {members source : List (String × Json)} {next : Json}
    (distinct : (source.map (·.1)).Nodup) (lookup : source.lookup name = some next)
    (object : ObjectAt next path) (rest : List String) :
    (overlay (.object members) (.object source)).at? (name :: path ++ rest) =
      (overlay (((Json.object members).get? name).getD .null) next).at? (path ++ rest) := by
  have laidOver : (overlay (.object members) (.object source)).get? name =
      some (laid (members.lookup name) next) := by
    change (overlayMembers members source).lookup name = _
    rw [lookup_overlayMembers_said distinct, said_of_objectAt lookup object]
  rw [List.cons_append, at?, laidOver, Option.bind_some, laid_eq_overlay]
  rfl

/-- An object that does not come over an object is taken over with all that is
in it. -/
theorem at?_overlay_of_bare (value : above.value? = some above) (object : ObjectAt above path)
    (bare : ¬ObjectAt below path) (rest : List String) :
    (overlay below above).at? (path ++ rest) = above.at? (path ++ rest) := by
  induction path generalizing below above with
  | nil => rw [overlay_of_bare object bare]
  | cons name path ih =>
    by_cases under : ObjectAt below []
    · obtain ⟨members, same⟩ := under
      cases same
      obtain ⟨inner, there⟩ := object
      obtain ⟨next, found, deeper⟩ := Option.bind_eq_some_iff.1 there
      obtain ⟨source, rfl, lookup⟩ := eq_object_of_get? found
      obtain ⟨distinct, values⟩ := value?_object_iff.1 value
      have object : ObjectAt next path := ⟨inner, deeper⟩
      rw [at?_overlay_cons distinct lookup object,
        ih (values _ (mem_of_lookup lookup)) object (mt objectAt_cons_iff.2 bare),
        List.cons_append, at?, found, Option.bind_some]
    · obtain ⟨inner, there⟩ := object
      obtain ⟨next, found, -⟩ := Option.bind_eq_some_iff.1 there
      obtain ⟨source, rfl, -⟩ := eq_object_of_get? found
      rw [overlay_of_bare ⟨source, rfl⟩ under]

/-- A null member of an object that comes over an object leaves what is below. -/
theorem at?_overlay_of_covered (value : above.value? = some above)
    (null : above.at? (path ++ [name]) = some .null) (covered : ObjectAt below path) :
    (overlay below above).at? (path ++ [name]) = below.at? (path ++ [name]) := by
  induction path generalizing below above with
  | nil =>
    obtain ⟨members, same⟩ := covered
    cases same
    obtain ⟨source, same, lookup⟩ : ∃ source, above.at? [] = some (.object source) ∧
        source.lookup name = some .null := objectAt_of_at? null
    cases same
    have silent : said source name = none := by
      rw [said, lookup]
      rfl
    change ((overlayMembers members source).lookup name).bind _ = (members.lookup name).bind _
    rw [lookup_overlayMembers_said (value?_object_iff.1 value).1, silent]
  | cons k path ih =>
    obtain ⟨inner, there, -⟩ := objectAt_of_at? null
    obtain ⟨next, found, deeper⟩ := Option.bind_eq_some_iff.1 there
    obtain ⟨source, rfl, lookup⟩ := eq_object_of_get? found
    obtain ⟨distinct, values⟩ := value?_object_iff.1 value
    obtain ⟨members, under⟩ := covered
    obtain ⟨lower, foundBelow, -⟩ := Option.bind_eq_some_iff.1 under
    obtain ⟨members, rfl, -⟩ := eq_object_of_get? foundBelow
    have further : next.at? (path ++ [name]) = some .null := by
      rwa [List.cons_append, at?, found, Option.bind_some] at null
    have covered : ObjectAt lower path := by
      have := objectAt_cons_iff.1 ⟨_, under⟩
      rwa [foundBelow] at this
    rw [at?_overlay_cons distinct lookup ⟨inner, deeper⟩, foundBelow, Option.getD_some,
      ih (values _ (mem_of_lookup lookup)) further covered, List.cons_append, at?, foundBelow,
      Option.bind_some]

end Below

/-! ### Covered nulls -/

/-- Every object of the overlay that has a null member comes over an object. -/
def NullsCovered (below above : Json) : Prop :=
  ∀ path name, above.at? (path ++ [name]) = some .null → ObjectAt below path

theorem NullsCovered.member {source : List (String × Json)} {below : Json}
    (covered : NullsCovered below (.object source)) (distinct : (source.map (·.1)).Nodup)
    {m : String × Json} (member : m ∈ source) :
    NullsCovered ((below.get? m.1).getD .null) m.2 := by
  intro path name null
  have found : (Json.object source).get? m.1 = some m.2 := lookup_of_mem distinct member
  refine objectAt_cons_iff.1 (covered (m.1 :: path) name ?_)
  rw [List.cons_append, at?, found, Option.bind_some, null]

theorem NullsCovered.of_plain {below v : Json} (plain : ∀ members, v ≠ .object members) :
    NullsCovered below v := by
  intro path name null
  obtain ⟨members, there, -⟩ := objectAt_of_at? null
  cases path with
  | nil =>
    cases there
    exact absurd rfl (plain members)
  | cons k path =>
    obtain ⟨next, found, -⟩ := Option.bind_eq_some_iff.1 there
    obtain ⟨source, rfl, -⟩ := eq_object_of_get? found
    exact absurd rfl (plain source)

theorem NullsCovered.object {members source : List (String × Json)}
    (each : ∀ m ∈ source, NullsCovered ((members.lookup m.1).getD .null) m.2) :
    NullsCovered (.object members) (.object source) := by
  intro path name null
  cases path with
  | nil => exact ⟨members, rfl⟩
  | cons k path =>
    obtain ⟨next, found, deeper⟩ := Option.bind_eq_some_iff.1 null
    exact objectAt_cons_iff.2 (each _ (mem_of_lookup found) path name deeper)

/-- Members laid over others, with and without the nulls in them: only what
comes of each member counts. -/
theorem overlayMembers_withoutNullMembers {members source : List (String × Json)}
    (distinct : (source.map (·.1)).Nodup)
    (each : ∀ m ∈ source,
      laid (members.lookup m.1) m.2.withoutNulls = laid (members.lookup m.1) m.2) :
    overlayMembers members (withoutNullMembers source) = overlayMembers members source := by
  induction source generalizing members with
  | nil => rfl
  | cons m rest ih =>
    obtain ⟨name, v⟩ := m
    obtain ⟨fresh, distinct⟩ := List.nodup_cons.1 distinct
    obtain ⟨first, later⟩ := List.forall_mem_cons.1 each
    cases null : v.isNull with
    | true =>
      rw [withoutNullMembers, overlayMembers, null, if_pos rfl, if_pos rfl]
      exact ih distinct later
    | false =>
      rw [withoutNullMembers_cons null, overlayMembers_cons null,
        overlayMembers_cons (isNull_withoutNulls v ▸ null), first]
      refine ih distinct fun m member => ?_
      have other : m.1 ≠ name := by
        rintro rfl
        exact fresh (List.mem_map.2 ⟨m, member, rfl⟩)
      rw [lookup_setMember, if_neg other]
      exact later m member

/-- An object without any nulls in it is left as it is. -/
theorem withoutNullMembers_eq_self {source : List (String × Json)}
    (each : ∀ m ∈ source, m.2.isNull = false ∧ m.2.withoutNulls = m.2) :
    withoutNullMembers source = source := by
  induction source with
  | nil => rfl
  | cons m rest ih =>
    obtain ⟨name, v⟩ := m
    obtain ⟨⟨set, same⟩, later⟩ := List.forall_mem_cons.1 each
    rw [withoutNullMembers_cons set, same, ih later]

theorem overlay_withoutNulls_of_covered {above : Json} (value : above.value? = some above)
    {below : Json} (covered : NullsCovered below above) :
    overlay below above.withoutNulls = overlay below above := by
  refine value_induction
    (P := fun above => ∀ below, NullsCovered below above →
      overlay below above.withoutNulls = overlay below above)
    (fun source distinct each below covered => ?_) (fun v plain _ below _ => ?_) above value
    below covered
  · have members : ∀ m ∈ source,
        laid (below.get? m.1) m.2.withoutNulls = laid (below.get? m.1) m.2 := by
      intro m member
      rw [laid_eq_overlay, laid_eq_overlay]
      exact (each m member).2 _ (covered.member distinct member)
    by_cases under : ObjectAt below []
    · obtain ⟨inner, same⟩ := under
      cases same
      exact congrArg Json.object (overlayMembers_withoutNullMembers distinct members)
    · have nothing : ∀ name, below.get? name = none := by
        intro name
        cases below with
        | object inner => exact absurd ⟨inner, rfl⟩ under
        | _ => rfl
      have itself : withoutNullMembers source = source := by
        refine withoutNullMembers_eq_self fun m member => ⟨?_, ?_⟩
        · cases null : m.2 with
          | null =>
            have there : (Json.object source).at? ([] ++ [m.1]) = some .null := by
              simp [at?, get?, lookup_of_mem distinct member, null]
            exact absurd (covered [] m.1 there) under
          | _ => rfl
        · simpa only [nothing, laid] using members m member
      rw [withoutNulls, itself]
  · rw [withoutNulls_of_plain plain]

/-- What becomes of a null member of an overlay: what is below stays where its
object comes over an object, and otherwise the null is there, which it would
not be had it been left out. -/
structure NullAt (below above : Json) (path : List String) (name : String) : Prop where
  skipped : ObjectAt below path →
    (overlay below above).at? (path ++ [name]) = below.at? (path ++ [name])
  taken : ¬ObjectAt below path →
    (overlay below above).at? (path ++ [name]) = some .null ∧
      (overlay below above.withoutNulls).at? (path ++ [name]) = none

theorem nullAt {below above : Json} (value : above.value? = some above) {path : List String}
    {name : String} (null : above.at? (path ++ [name]) = some .null) :
    NullAt below above path name := by
  obtain ⟨members, there, -⟩ := objectAt_of_at? null
  refine ⟨at?_overlay_of_covered value null, fun bare => ⟨?_, ?_⟩⟩
  · rw [at?_overlay_of_bare value ⟨members, there⟩ bare, null]
  · rw [at?_overlay_of_bare (value?_withoutNulls value) ⟨_, objectAt_withoutNulls value there⟩ bare,
      at?_withoutNulls_of_null value null]

/-- Leaving the nulls of an overlay out makes no difference exactly when every
object with a null member comes over an object. There a null leaves what is
below, and in any other object it is taken over. A null that is all of the
overlay leaves nothing but a null as it is. -/
theorem overlay_withoutNulls_iff (below : Json) {above : Json}
    (value : above.value? = some above) :
    (overlay below above = overlay below above.withoutNulls ↔ NullsCovered below above) ∧
      (∀ path name, above.at? (path ++ [name]) = some .null → NullAt below above path name) ∧
      (overlay below .null = below ↔ below = .null) := by
  refine ⟨⟨fun same path name null => ?_, fun covered => ?_⟩, fun path name => nullAt value,
    eq_comm⟩
  · by_contra bare
    obtain ⟨stays, gone⟩ := (nullAt value null).taken bare
    rw [same, gone] at stays
    cases stays
  · exact (overlay_withoutNulls_of_covered value covered).symm

/-- A depth that is not set and one that is, the first among known limits. -/
def unsetDepth : Json := .object [
  ("limits", .object [("depth", .null), ("width", .integer 4)]), ("name", .null)]

theorem unsetDepth_over_limits :
    overlay limits unsetDepth = overlay limits unsetDepth.withoutNulls ∧
      (overlay limits unsetDepth).at? ["limits", "depth"] = some (.integer 3) := by
  have value : unsetDepth.value? = some unsetDepth := rfl
  obtain ⟨same, each, -⟩ := overlay_withoutNulls_iff limits value
  have depth := each ["limits"] "depth" rfl
  refine ⟨same.2 (.object ?_), depth.skipped ⟨_, rfl⟩⟩
  refine List.forall_mem_cons.2 ⟨.object ?_, List.forall_mem_singleton.2 (.of_plain nofun)⟩
  exact List.forall_mem_cons.2 ⟨.of_plain nofun, List.forall_mem_singleton.2 (.of_plain nofun)⟩

/-- A null in an object that is new. -/
theorem null_in_new_object_stays :
    overlay (.object []) (.object [("limits", .object [("depth", .null)])]) ≠
        overlay (.object []) (withoutNulls (.object [("limits", .object [("depth", .null)])])) ∧
      overlay (.object []) .null ≠ .object [] := by
  constructor <;> intro same <;> cases same

end ClassPolicy.Json
