import ClassPolicy.Proofs.Overlay

/-!
# Overlays, path by path

Laying the same value over a document twice is laying it over once. At a path
of member names a value without nulls replaces what it has something other
than an object for, and where it says nothing what is below stays.
-/

set_option autoImplicit false

namespace ClassPolicy.Json

/-- What holds of everything that is no object, and of an object when it holds
of its members, holds of every value. -/
theorem value_induction {P : Json → Prop}
    (object : ∀ members : List (String × Json), (members.map (·.1)).Nodup →
      (∀ m ∈ members, m.2.value? = some m.2 ∧ P m.2) → P (.object members))
    (other : ∀ v : Json, (∀ members, v ≠ .object members) → v.value? = some v → P v) :
    ∀ v : Json, v.value? = some v → P v
  | .object members, value =>
    have ⟨distinct, values⟩ := value?_object_iff.1 value
    object members distinct fun m there =>
      ⟨values m there, value_induction object other m.2 (values m there)⟩
  | .null, value => other .null nofun value
  | .bool b, value => other (.bool b) nofun value
  | .integer n, value => other (.integer n) nofun value
  | .real literal, value => other (.real literal) nofun value
  | .string text, value => other (.string text) nofun value
  | .array items, value => other (.array items) nofun value
  | .unreadable, value => other .unreadable nofun value
termination_by v => sizeOf v
decreasing_by
  have inside := List.sizeOf_lt_of_mem there
  obtain ⟨name, v⟩ := m
  simp only [Prod.mk.sizeOf_spec, Json.object.sizeOf_spec] at inside ⊢
  omega

/-! ### Laid over twice -/

/-- A value that changes nothing where it already lies. -/
def Settles (above : Json) : Prop :=
  ∀ below, overlay (overlay below above) above = overlay below above

theorem overlay_null (v : Json) : overlay .null v = v := by
  cases v <;> rfl

theorem Settles.overlay_self {v : Json} (settles : Settles v) : overlay v v = v := by
  simpa only [overlay_null] using settles .null

theorem laid_eq_overlay (below : Option Json) (above : Json) :
    laid below above = overlay (below.getD .null) above := by
  cases below with
  | none => exact (overlay_null above).symm
  | some below => rfl

theorem Settles.overlay_laid {v : Json} (settles : Settles v) (below : Option Json) :
    overlay (laid below v) v = laid below v := by
  rw [laid_eq_overlay]
  exact settles _

theorem setMember_of_lookup {members : List (String × Json)} {name : String} {value : Json}
    (found : members.lookup name = some value) : setMember name value members = members := by
  induction members with
  | nil => cases found
  | cons m rest ih =>
    obtain ⟨k, v⟩ := m
    rw [SortedMap.lookup_cons_entry] at found
    by_cases same : name = k
    · subst same
      rw [if_pos rfl, Option.some.injEq] at found
      simp [setMember, found]
    · rw [if_neg same] at found
      simp [setMember, Ne.symm same, ih found]

/-- Members over which the overlay lies already. -/
theorem overlayMembers_of_laid {members source : List (String × Json)}
    (there : ∀ m ∈ source, m.2.isNull = false →
      ∃ v, members.lookup m.1 = some v ∧ overlay v m.2 = v) :
    overlayMembers members source = members := by
  induction source with
  | nil => rfl
  | cons m rest ih =>
    obtain ⟨name, value⟩ := m
    obtain ⟨here, later⟩ := List.forall_mem_cons.1 there
    cases null : value.isNull with
    | true => rw [overlayMembers, null, if_pos rfl, ih later]
    | false =>
      obtain ⟨v, found, same⟩ := here null
      rw [overlayMembers_cons null, found, laid, same, setMember_of_lookup found, ih later]

theorem lookup_of_mem {members : List (String × Json)} (distinct : (members.map (·.1)).Nodup)
    {m : String × Json} (member : m ∈ members) : members.lookup m.1 = some m.2 := by
  induction members with
  | nil => cases member
  | cons m' rest ih =>
    obtain ⟨k, v⟩ := m'
    obtain ⟨fresh, distinct⟩ := List.nodup_cons.1 distinct
    rw [SortedMap.lookup_cons_entry]
    rcases List.mem_cons.1 member with rfl | later
    · exact if_pos rfl
    · have other : m.1 ≠ k := by
        rintro rfl
        exact fresh (List.mem_map.2 ⟨m, later, rfl⟩)
      rw [if_neg other, ih distinct later]

theorem settles_object {source : List (String × Json)} (distinct : (source.map (·.1)).Nodup)
    (each : ∀ m ∈ source, Settles m.2) : Settles (.object source) := by
  have itself : overlayMembers source source = source :=
    overlayMembers_of_laid fun m member _ =>
      ⟨m.2, lookup_of_mem distinct member, (each m member).overlay_self⟩
  intro below
  cases below with
  | object members =>
    refine congrArg Json.object (overlayMembers_of_laid fun m member set => ?_)
    have heard : said source m.1 = some m.2 := by
      simp [said, lookup_of_mem distinct member, set]
    refine ⟨_, ?_, (each m member).overlay_laid (members.lookup m.1)⟩
    rw [lookup_overlayMembers_said distinct, heard]
  | _ => exact congrArg Json.object itself

theorem settles (above : Json) (value : above.value? = some above) : Settles above := by
  refine value_induction (fun source distinct each => ?_) (fun above plain _ below => ?_) above value
  · exact settles_object distinct fun m there => (each m there).2
  · cases above with
    | object source => exact absurd rfl (plain source)
    | _ => rfl

/-! ### Paths -/

def isObject : Json → Bool
  | .object _ => true
  | _ => false

/-- What stands at a path of member names. -/
def at? (v : Json) : List String → Option Json
  | [] => some v
  | name :: path => (v.get? name).bind (fun member => member.at? path)

/-- What a document has at a path after a value is laid over it. -/
structure OverlaidAt (below above : Json) (path : List String) : Prop where
  replaced : ∀ v, above.at? path = some v → v.isObject = false →
    (overlay below above).at? path = some v
  merged : ∀ v, above.at? path = some v → v.isObject = true →
    ∃ w, (overlay below above).at? path = some w ∧ w.isObject = true
  kept : above.at? path = none →
    (∀ start v, start <+: path → above.at? start = some v → v.isObject = true) →
      (overlay below above).at? path = below.at? path

theorem get?_overlay {source : List (String × Json)} (plain : NullFreeValue (.object source))
    (below : Json) (name : String) : (overlay below (.object source)).get? name =
      match source.lookup name with
      | some above => some (laid (below.get? name) above)
      | none => below.get? name := by
  have set : ∀ m ∈ source, m.2.isNull = false := fun m member =>
    (plain.member member).isNull_eq_false
  cases below with
  | object members => exact lookup_overlayMembers plain.nodup_names set members name
  | _ =>
    change source.lookup name = _
    cases source.lookup name <;> rfl

theorem isObject_overlay_object (below : Json) (source : List (String × Json)) :
    (overlay below (.object source)).isObject = true := by
  cases below <;> rfl

theorem overlay_of_isObject_eq_false {above : Json} (plain : above.isObject = false)
    (below : Json) : overlay below above = above := by
  cases above with
  | object source => cases plain
  | _ => rfl

theorem overlaidAt_nil (below above : Json) : OverlaidAt below above [] := by
  refine ⟨?_, ?_, nofun⟩
  · rintro _ ⟨⟩ other
    rw [overlay_of_isObject_eq_false other]
    rfl
  · rintro _ ⟨⟩ object
    refine ⟨_, rfl, ?_⟩
    cases above with
    | object source => exact isObject_overlay_object below source
    | _ => cases object

section Below

variable {source : List (String × Json)} {below : Json} {name : String} {path : List String}

/-- Nothing is said of the member. -/
theorem overlaidAt_of_absent (plain : NullFreeValue (.object source))
    (absent : source.lookup name = none) : OverlaidAt below (.object source) (name :: path) := by
  have nothing : (Json.object source).at? (name :: path) = none := by
    have start : (Json.object source).get? name = none := absent
    rw [at?, start, Option.bind_none]
  refine ⟨by simp [nothing], by simp [nothing], fun _ _ => ?_⟩
  rw [at?, at?, get?_overlay plain, absent]

/-- Something is laid over the member, or over nothing. -/
theorem OverlaidAt.member {next : Json} (plain : NullFreeValue (.object source))
    (found : source.lookup name = some next)
    (deeper : OverlaidAt ((below.get? name).getD .null) next path) :
    OverlaidAt below (.object source) (name :: path) := by
  have inside (rest : List String) : (Json.object source).at? (name :: rest) = next.at? rest := by
    have start : (Json.object source).get? name = some next := found
    rw [at?, start, Option.bind_some]
  have under : (overlay below (.object source)).at? (name :: path) =
      (overlay ((below.get? name).getD .null) next).at? path := by
    rw [at?, get?_overlay plain, found, ← laid_eq_overlay]
    rfl
  refine ⟨?_, ?_, ?_⟩
  · rw [inside, under]
    exact deeper.replaced
  · rw [inside, under]
    exact deeper.merged
  · rw [inside, under]
    intro nothing objects
    have objects' : ∀ start v, start <+: path → next.at? start = some v →
        v.isObject = true := fun start v before there =>
      objects (name :: start) v (List.cons_prefix_cons.2 ⟨rfl, before⟩)
        (by rw [inside]; exact there)
    cases below' : below.get? name with
    | some member =>
      rw [below'] at deeper
      rw [deeper.kept nothing objects', at?, below']
      rfl
    | none =>
      rw [Option.getD_none, overlay_null, nothing, at?, below', Option.bind_none]

end Below

theorem overlaidAt {above : Json} (plain : NullFreeValue above) (below : Json)
    (path : List String) : OverlaidAt below above path := by
  induction path generalizing above below with
  | nil => exact overlaidAt_nil below above
  | cons name path ih =>
    cases above with
    | object source =>
      cases found : source.lookup name with
      | none => exact overlaidAt_of_absent plain found
      | some next => exact .member plain found (ih (plain.member (mem_of_lookup found)) _)
    | _ =>
      -- Already the empty path leads to something that is no object.
      refine ⟨nofun, nofun, fun _ objects => ?_⟩
      have here := objects [] _ List.nil_prefix rfl
      cases here

/-- Laying a value over a document twice is laying it over once; and of a value
without nulls, everything that is no object replaces what is below it, objects
are merged, and what it does not mention stays. -/
theorem overlay_settles (below : Json) {above : Json} (value : above.value? = some above) :
    overlay (overlay below above) above = overlay below above ∧
      (above.isNullFree = true → ∀ path, OverlaidAt below above path) :=
  ⟨settles above value below, fun nullFree path => overlaidAt ⟨value, nullFree⟩ below path⟩

def limits : Json := .object [
  ("limits", .object [("depth", .integer 3), ("width", .integer 9)]), ("name", .string "plain")]

/-- A number becomes a list, a text becomes an object, and a limit is new. -/
def newLimits : Json := .object [
  ("limits", .object [("depth", .array [.integer 4]), ("height", .bool true)]),
  ("name", .object [("short", .string "p")])]

theorem newLimits_settles :
    overlay (overlay limits newLimits) newLimits = overlay limits newLimits ∧
      (overlay limits newLimits).at? ["limits", "depth"] = some (.array [.integer 4]) ∧
      (∃ w, (overlay limits newLimits).at? ["name"] = some w ∧ w.isObject = true) ∧
      (overlay limits newLimits).at? ["limits", "width"] = some (.integer 9) := by
  have value : newLimits.value? = some newLimits := rfl
  obtain ⟨settled, paths⟩ := overlay_settles limits value
  have nullFree : newLimits.isNullFree = true := by decide
  refine ⟨settled, (paths nullFree _).replaced _ rfl rfl, (paths nullFree _).merged _ rfl rfl,
    (paths nullFree _).kept rfl ?_⟩
  intro start v before there
  simp only [List.prefix_cons_iff, List.prefix_nil] at before
  rcases before with rfl | ⟨_, rfl, rfl | ⟨_, rfl, rfl⟩⟩ <;> cases there <;> rfl

end ClassPolicy.Json
