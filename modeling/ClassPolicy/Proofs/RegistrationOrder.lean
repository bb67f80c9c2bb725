import ClassPolicy.Proofs.Run
import ClassPolicy.Proofs.Sequencing

/-!
# The order of registrations

Specs, roots and custom rewriters go into maps, and whether a type is on one
of the two pattern lists does not depend on the order of patterns that can be
read. So these registrations may be made in any order: what differs afterwards
is the order of the two lists, which no decision shows.
-/

set_option autoImplicit false

namespace ClassPolicy

/-! ### Entries -/

/-- What a registration outside the rule list enters. -/
inductive Entry
  | spec (partition : Partition) (spec : ClassSpec)
  | root (root : RootDefinition)
  | rewriter (name : TypeName) (id : String)
  | permanentExclude (pattern : String)
  | nonPortable (pattern : String)

/-- What an entry is kept under in the map it goes into. -/
inductive EntryKey
  | spec (name : TypeName)
  | root (typeName : TypeName) (field : String)
  | rewriter (name : TypeName)
deriving DecidableEq

/-- The entry of a registration. A root entered with a spec is two entries and
does not count. -/
def Call.entry? {α : Type} : Call α → Option Entry
  | .addSpec partition added => some (.spec partition added)
  | .addSpecIfAbsent partition added => some (.spec partition added)
  | .addRoot added createSpec => if createSpec then none else some (.root added)
  | .addRootForField qualified shownAs =>
    match splitField qualified with
    | .ok (declaring, field) => some (.root ⟨TypeName.ofString declaring, field, shownAs, none⟩)
    | .error _ => none
  | .addRewriter name id => some (.rewriter (TypeName.ofString name) id)
  | .addPermanentExclude pattern => some (.permanentExclude pattern)
  | .addNonPortable pattern => some (.nonPortable pattern)
  | _ => none

namespace Entry

def key? : Entry → Option EntryKey
  | .spec _ added => some (.spec added.name)
  | .root added => some (.root added.typeName added.fieldName)
  | .rewriter name _ => some (.rewriter name)
  | .permanentExclude _ => none
  | .nonPortable _ => none

/-- Two entries that are not kept under one key. -/
def Apart (x y : Entry) : Prop := x.key? = none ∨ x.key? ≠ y.key?

instance (x y : Entry) : Decidable (x.Apart y) := inferInstanceAs (Decidable (_ ∨ _))

/-- Whether the pattern of an entry, if it has one, can be read. -/
def readable : Entry → Bool
  | .permanentExclude pattern => (TypePattern.compile pattern).isOk
  | .nonPortable pattern => (TypePattern.compile pattern).isOk
  | _ => true

/-- Whether the registries take the entry. -/
def fits : Entry → Registries → Bool
  | .spec _ added, r => !r.specs.contains added.name
  | .root added, r => !added.fieldName.isEmpty && !r.roots.isRoot added.typeName added.fieldName
  | _, _ => true

def change : Entry → Registries → Registries
  | .spec partition added, r => { r with specs := r.specs.put partition added.name added }
  | .root added, r => { r with roots := r.roots.put added }
  | .rewriter name id, r => { r with rewriters := r.rewriters.insert name.text id }
  | .permanentExclude pattern, r => { r with rules := r.rules.addPermanentExclude pattern }
  | .nonPortable pattern, r => { r with rules := r.rules.addNonPortable pattern }

def enter (x : Entry) (e : Engine) : Engine :=
  if x.fits e.registries then e.register x.change else e

theorem Apart.symm {x y : Entry} (apart : x.Apart y) : y.Apart x := by
  rcases apart with keyless | different
  · by_cases none : y.key? = none
    · exact .inl none
    · exact .inr (by rwa [keyless])
  · exact .inr different.symm

theorem Apart.ne_of_key {x y : Entry} (apart : x.Apart y) {k l : EntryKey}
    (here : x.key? = some k) (there : y.key? = some l) : k ≠ l := by
  rintro rfl
  rcases apart with keyless | different
  · rw [keyless] at here
    cases here
  · exact different (here.trans there.symm)

theorem Apart.spec_ne {partition partition' : Partition} {added added' : ClassSpec}
    (apart : (Entry.spec partition added).Apart (.spec partition' added')) :
    added.name ≠ added'.name := fun same => apart.ne_of_key rfl rfl (by rw [same])

theorem Apart.root_ne {added added' : RootDefinition}
    (apart : (Entry.root added).Apart (.root added')) :
    added.typeName = added'.typeName → added.fieldName ≠ added'.fieldName :=
  fun same field => apart.ne_of_key rfl rfl (by rw [same, field])

theorem Apart.rewriter_ne {name name' : TypeName} {id id' : String}
    (apart : (Entry.rewriter name id).Apart (.rewriter name' id')) : name.text ≠ name'.text :=
  fun same => apart.ne_of_key rfl rfl (by rw [TypeName.text_inj.1 same])

end Entry

namespace Engine

theorem addSpec_eq_enter (partition : Partition) (spec : ClassSpec) (e : Engine) :
    (e.addSpec partition spec).2 = (Entry.spec partition spec).enter e := by
  cases present : e.registries.specs.contains spec.name <;>
    simp [addSpec, SpecStore.insert, violated, withSpecs, register, Entry.enter, Entry.fits,
      Entry.change, present]

theorem addSpecIfAbsent_eq_enter (partition : Partition) (spec : ClassSpec) (e : Engine) :
    (e.addSpecIfAbsent partition spec).2 = (Entry.spec partition spec).enter e := by
  rw [snd_addSpecIfAbsent]
  cases present : e.registries.specs.contains spec.name <;>
    simp [withSpecs, register, Entry.enter, Entry.fits, Entry.change, present]

theorem addRoot_eq_enter (root : RootDefinition) (e : Engine) :
    (e.addRoot root false).2 = (Entry.root root).enter e := by
  cases blank : root.fieldName.isEmpty <;>
    cases taken : e.registries.roots.isRoot root.typeName root.fieldName <;>
    simp [addRoot, RootRegistry.add_eq, refused, register, Entry.enter, Entry.fits, Entry.change,
      blank, taken]

theorem perform_of_entry {α : Type} {c : Call α} {x : Entry} (entry : c.entry? = some x)
    (e : Engine) : (e.perform c).2 = x.enter e := by
  cases c with
  | addSpec partition spec =>
    cases entry
    exact addSpec_eq_enter partition spec e
  | addSpecIfAbsent partition spec =>
    cases entry
    exact addSpecIfAbsent_eq_enter partition spec e
  | addRoot root createSpec =>
    cases createSpec with
    | false =>
      cases entry
      exact addRoot_eq_enter root e
    | true => cases entry
  | addRootForField qualified rootName =>
    simp only [Call.entry?] at entry
    split at entry
    · rename_i parts
      cases entry
      simp only [perform, addRootForField, parts]
      exact addRoot_eq_enter _ e
    · cases entry
  | addRewriter name id =>
    cases entry
    rfl
  | addPermanentExclude pattern =>
    cases entry
    rfl
  | addNonPortable pattern =>
    cases entry
    rfl
  | _ => cases entry

/-- The entries of a list of calls, in their order. -/
def entriesOf (calls : List AnyCall) : List Entry := calls.filterMap (·.call.entry?)

def enterAll (entries : List Entry) (e : Engine) : Engine :=
  entries.foldl (fun e x => x.enter e) e

theorem run_of_entries {calls : List AnyCall}
    (registrations : ∀ c ∈ calls, c.call.entry?.isSome) (e : Engine) :
    e.run calls = e.enterAll (entriesOf calls) := by
  induction calls generalizing e with
  | nil => rfl
  | cons c rest ih =>
    obtain ⟨first, later⟩ := List.forall_mem_cons.1 registrations
    obtain ⟨x, entry⟩ := Option.isSome_iff_exists.1 first
    rw [run_cons, perform_of_entry entry, ih later, entriesOf, entriesOf, List.filterMap_cons,
      entry]
    rfl

end Engine

/-! ### Registries that decide alike -/

def Registries.withPatterns (excludes nonPortable : List String) (r : Registries) : Registries :=
  { r with rules := { r.rules with permanentExcludes := excludes, nonPortable } }

/-- The same registries but for the two pattern lists, and the same types on
these. -/
def Registries.Alike (r s : Registries) : Prop :=
  ∃ excludes nonPortable, s = r.withPatterns excludes nonPortable ∧
    (∀ ty, RuleRegistry.anyMatches ty excludes = r.rules.isPermanentlyExcluded ty) ∧
    ∀ ty, RuleRegistry.anyMatches ty nonPortable = r.rules.isNonPortable ty

namespace RuleRegistry

theorem anyMatches_cons_congr {ty : TypeDescriptor} {rest rest' : List String}
    (same : anyMatches ty rest = anyMatches ty rest') (pattern : String) :
    anyMatches ty (pattern :: rest) = anyMatches ty (pattern :: rest') := by
  simp only [anyMatches, same]

/-- Patterns that can be read may change places. -/
theorem anyMatches_swap {p q : String} (read : (TypePattern.compile p).isOk = true)
    (read' : (TypePattern.compile q).isOk = true) (ty : TypeDescriptor) (rest : List String) :
    anyMatches ty (p :: q :: rest) = anyMatches ty (q :: p :: rest) := by
  obtain ⟨c, compiled⟩ := isOk_iff.1 read
  obtain ⟨d, compiled'⟩ := isOk_iff.1 read'
  simp only [anyMatches_cons_of_read compiled, anyMatches_cons_of_read compiled']
  cases c.matchesType ty <;> cases d.matchesType ty <;> rfl

end RuleRegistry

namespace Registries

variable {r s t : Registries}

theorem Alike.refl (r : Registries) : r.Alike r :=
  ⟨_, _, rfl, fun _ => rfl, fun _ => rfl⟩

theorem Alike.trans (one : r.Alike s) (two : s.Alike t) : r.Alike t := by
  obtain ⟨excludes, nonPortable, rfl, sameExcludes, sameNonPortable⟩ := one
  obtain ⟨excludes', nonPortable', rfl, sameExcludes', sameNonPortable'⟩ := two
  exact ⟨excludes', nonPortable', rfl, fun ty => (sameExcludes' ty).trans (sameExcludes ty),
    fun ty => (sameNonPortable' ty).trans (sameNonPortable ty)⟩

theorem Alike.adaptability_eq (alike : r.Alike s) (ty : TypeDescriptor) :
    s.adaptability ty = r.adaptability ty := by
  obtain ⟨excludes, nonPortable, rfl, sameExcludes, -⟩ := alike
  have same : (r.withPatterns excludes nonPortable).rules.isPermanentlyExcluded ty =
      r.rules.isPermanentlyExcluded ty := sameExcludes ty
  simp only [adaptability, same]
  rfl

theorem Alike.mode_eq (alike : r.Alike s) (ty : TypeDescriptor) (transformable : Bool) :
    s.mode ty transformable = r.mode ty transformable := by
  obtain ⟨excludes, nonPortable, rfl, -, sameNonPortable⟩ := alike
  have same : (r.withPatterns excludes nonPortable).rules.isNonPortable = r.rules.isNonPortable :=
    funext sameNonPortable
  simp only [mode, modeFacts, same]
  rfl

theorem Alike.isNeverAdaptable_eq (alike : r.Alike s) (ty : TypeDescriptor) :
    s.isNeverAdaptable ty = r.isNeverAdaptable ty := by
  obtain ⟨excludes, nonPortable, rfl, sameExcludes, sameNonPortable⟩ := alike
  have excluded : (r.withPatterns excludes nonPortable).rules.isPermanentlyExcluded ty =
      r.rules.isPermanentlyExcluded ty := sameExcludes ty
  have unportable : (r.withPatterns excludes nonPortable).rules.isNonPortable ty =
      r.rules.isNonPortable ty := sameNonPortable ty
  simp only [isNeverAdaptable, excluded, unportable]
  rfl

end Registries

/-! ### Two entries -/

theorem SpecStore.contains_put_of_ne {name other : TypeName} (different : other ≠ name)
    (partition : Partition) (spec : ClassSpec) (s : SpecStore) :
    (s.put partition name spec).contains other = s.contains other := by
  cases partition <;>
    simp [contains, get?, put, SortedMap.get?_insert, TypeName.text_inj, different]

theorem SpecStore.put_comm {name other : TypeName} (different : name ≠ other)
    (one two : Partition) (spec spec' : ClassSpec) (s : SpecStore) :
    (s.put one name spec).put two other spec' = (s.put two other spec').put one name spec := by
  have keys : name.text ≠ other.text := fun same => different (TypeName.text_inj.1 same)
  cases one <;> cases two <;> simp [put, SortedMap.insert_comm _ keys]

theorem RootRegistry.isRoot_put_of_ne {root : RootDefinition} {name : TypeName} {field : String}
    (different : name = root.typeName → field ≠ root.fieldName) (r : RootRegistry) :
    (r.put root).isRoot name field = r.isRoot name field := by
  have other : ¬ (name = root.typeName ∧ field = root.fieldName) := fun own =>
    different own.1 own.2
  rw [isRoot, get?_put, if_neg other, isRoot]

theorem RootRegistry.put_comm {root other : RootDefinition}
    (different : root.typeName = other.typeName → root.fieldName ≠ other.fieldName)
    (r : RootRegistry) : (r.put root).put other = (r.put other).put root := by
  refine ext_get? fun name field => ?_
  simp only [get?_put]
  by_cases first : name = root.typeName ∧ field = root.fieldName
  · have second : ¬ (name = other.typeName ∧ field = other.fieldName) := fun own =>
      different (first.1.symm.trans own.1) (first.2.symm.trans own.2)
    rw [if_neg second, if_pos first, if_pos first]
  · rw [if_neg first, if_neg first]

namespace Entry

variable {x y : Entry} {r s : Registries}

/-- An entry does not decide whether one apart from it fits. -/
theorem fits_change (apart : x.Apart y) (r : Registries) : x.fits (y.change r) = x.fits r := by
  cases x with
  | spec partition added =>
    cases y with
    | spec partition' added' => simp [fits, change, SpecStore.contains_put_of_ne apart.spec_ne]
    | _ => rfl
  | root added =>
    cases y with
    | root added' => simp [fits, change, RootRegistry.isRoot_put_of_ne apart.root_ne]
    | _ => rfl
  | _ => rfl

theorem change_comm (apart : x.Apart y) (read : x.readable = true) (read' : y.readable = true)
    (r : Registries) : (y.change (x.change r)).Alike (x.change (y.change r)) := by
  -- Entries of two kinds go to two places, so only those of one kind can meet.
  cases x with
  | spec partition added =>
    cases y with
    | spec partition' added' =>
      simp only [change, SpecStore.put_comm apart.spec_ne]
      exact .refl _
    | _ => exact .refl _
  | root added =>
    cases y with
    | root added' =>
      simp only [change, RootRegistry.put_comm apart.root_ne]
      exact .refl _
    | _ => exact .refl _
  | rewriter name id =>
    cases y with
    | rewriter name' id' =>
      simp only [change, SortedMap.insert_comm _ apart.rewriter_ne]
      exact .refl _
    | _ => exact .refl _
  | permanentExclude pattern =>
    cases y with
    | permanentExclude pattern' =>
      exact ⟨_, _, rfl, fun ty => RuleRegistry.anyMatches_swap read read' ty _,
        fun _ => rfl⟩
    | _ => exact .refl _
  | nonPortable pattern =>
    cases y with
    | nonPortable pattern' =>
      exact ⟨_, _, rfl, fun _ => rfl,
        fun ty => RuleRegistry.anyMatches_swap read read' ty _⟩
    | _ => exact .refl _

theorem fits_of_alike (x : Entry) (alike : r.Alike s) : x.fits s = x.fits r := by
  obtain ⟨excludes, nonPortable, rfl, -, -⟩ := alike
  cases x <;> rfl

theorem change_alike (x : Entry) (alike : r.Alike s) : (x.change r).Alike (x.change s) := by
  obtain ⟨excludes, nonPortable, rfl, sameExcludes, sameNonPortable⟩ := alike
  cases x with
  | permanentExclude pattern =>
    exact ⟨_, _, rfl, fun ty => RuleRegistry.anyMatches_cons_congr (sameExcludes ty) pattern,
      sameNonPortable⟩
  | nonPortable pattern =>
    exact ⟨_, _, rfl, sameExcludes,
      fun ty => RuleRegistry.anyMatches_cons_congr (sameNonPortable ty) pattern⟩
  | _ => exact ⟨_, _, rfl, sameExcludes, sameNonPortable⟩

end Entry

/-! ### Engines that answer alike -/

namespace Engine

/-- Engines with one memory and one journal whose registries are alike. -/
def Alike (e e' : Engine) : Prop :=
  ∃ s, e.registries.Alike s ∧ e' = { e with registries := s }

/-- Alike engines give one answer and are left alike. -/
def AnswersAlike {β : Type} (f : Engine → β × Engine) : Prop :=
  ∀ e e', Alike e e' → (f e).1 = (f e').1 ∧ Alike (f e).2 (f e').2

theorem Alike.refl (e : Engine) : e.Alike e := ⟨_, .refl _, rfl⟩

theorem Alike.trans {e e' e'' : Engine} (one : e.Alike e') (two : e'.Alike e'') : e.Alike e'' := by
  obtain ⟨s, first, rfl⟩ := one
  obtain ⟨t, second, rfl⟩ := two
  exact ⟨t, first.trans second, rfl⟩

theorem rememberDecision_alike (ty : TypeDescriptor) (decision : Adaptability) {e e' : Engine}
    (alike : e.Alike e') :
    (e.rememberDecision ty decision).Alike (e'.rememberDecision ty decision) := by
  obtain ⟨s, alike, rfl⟩ := alike
  unfold rememberDecision
  split <;> exact ⟨s, alike, rfl⟩

theorem explain_answersAlike (ty : TypeDescriptor) : AnswersAlike (explain ty) := by
  rintro e _ ⟨s, alike, rfl⟩
  unfold explain
  simp only [generation, alike.adaptability_eq]
  split
  · exact ⟨rfl, s, alike, rfl⟩
  · split
    · exact ⟨rfl, s, alike, rfl⟩
    · exact ⟨rfl, rememberDecision_alike ty _ ⟨s, alike, rfl⟩⟩

theorem modeGiven_answersAlike (ty : TypeDescriptor) (transformable : Bool) :
    AnswersAlike (modeGiven ty transformable) := by
  rintro e _ ⟨s, alike, rfl⟩
  unfold modeGiven
  simp only [generation, alike.mode_eq]
  split
  · exact ⟨rfl, s, alike, rfl⟩
  · split <;> exact ⟨rfl, s, alike, rfl⟩

theorem isTransformable_answersAlike (ty : TypeDescriptor) :
    AnswersAlike (isTransformable ty) := by
  intro e e' alike
  obtain ⟨same, left⟩ := explain_answersAlike ty e e' alike
  exact ⟨congrArg (Except.map Adaptability.transformable) same, left⟩

theorem AnswersAlike.outcomes {β : Type} {f : Engine → β × Engine} (answersAlike : AnswersAlike f)
    {e e' : Engine} (alike : e.Alike e') :
    ∃ answer e₁ e₁', f e = (answer, e₁) ∧ f e' = (answer, e₁') ∧ e₁.Alike e₁' := by
  obtain ⟨same, left⟩ := answersAlike e e' alike
  exact ⟨(f e).1, (f e).2, (f e').2, rfl, Prod.ext same.symm rfl, left⟩

theorem modeFor_answersAlike (ty : TypeDescriptor) : AnswersAlike (modeFor ty) := by
  intro e e' alike
  obtain ⟨answer, e₁, e₁', here, there, left⟩ := (explain_answersAlike ty).outcomes alike
  have memory : e'.cache = e.cache := by
    obtain ⟨s, -, rfl⟩ := alike
    rfl
  unfold modeFor
  simp only [generation, memory, here, there]
  split
  · exact ⟨rfl, alike⟩
  · cases answer with
    | error error => exact ⟨rfl, left⟩
    | ok decision => exact modeGiven_answersAlike ty decision.transformable e₁ e₁' left

theorem decide_answersAlike (ty : TypeDescriptor) : AnswersAlike (decide ty) := by
  intro e e' alike
  obtain ⟨answer, e₁, e₁', here, there, left⟩ := (explain_answersAlike ty).outcomes alike
  unfold decide
  simp only [here, there]
  cases answer with
  | error error => exact ⟨rfl, left⟩
  | ok decision =>
    obtain ⟨answer, e₂, e₂', here, there, left⟩ :=
      (modeGiven_answersAlike ty decision.transformable).outcomes left
    simp only [here, there]
    cases answer with
    | error error => exact ⟨rfl, left⟩
    | ok mode =>
      -- The rules and all that the bundle shows are outside the two pattern lists.
      obtain ⟨_, ⟨excludes, nonPortable, rfl, sameExcludes, sameNonPortable⟩, rfl⟩ := left
      have rules : (e₂.registries.withPatterns excludes nonPortable).rules.disposition ty =
          e₂.registries.rules.disposition ty := rfl
      simp only [rules]
      split <;> exact ⟨rfl, _, ⟨excludes, nonPortable, rfl, sameExcludes, sameNonPortable⟩, rfl⟩

theorem enter_alike (x : Entry) {e e' : Engine} (alike : e.Alike e') :
    (x.enter e).Alike (x.enter e') := by
  obtain ⟨s, alike, rfl⟩ := alike
  simp only [Entry.enter, x.fits_of_alike alike]
  split
  · exact ⟨_, x.change_alike alike, rfl⟩
  · exact ⟨s, alike, rfl⟩

theorem enter_comm {x y : Entry} (apart : x.Apart y) (read : x.readable = true)
    (read' : y.readable = true) (e : Engine) :
    (y.enter (x.enter e)).Alike (x.enter (y.enter e)) := by
  have first := Entry.fits_change apart e.registries
  have second := Entry.fits_change apart.symm e.registries
  cases here : x.fits e.registries <;> cases there : y.fits e.registries <;>
    simp only [Entry.enter, register, here, there, first, second, Bool.false_eq_true, ↓reduceIte]
  · exact .refl e
  · exact .refl _
  · exact .refl _
  · exact ⟨_, Entry.change_comm apart read read' e.registries, rfl⟩

theorem enterAll_alike (entries : List Entry) {e e' : Engine} (alike : e.Alike e') :
    (e.enterAll entries).Alike (e'.enterAll entries) := by
  induction entries generalizing e e' with
  | nil => exact alike
  | cons x rest ih => exact ih (enter_alike x alike)

/-- Entries that are pairwise apart may be entered in any order. -/
theorem enterAll_perm {entries entries' : List Entry} (perm : entries.Perm entries')
    (apart : entries.Pairwise Entry.Apart) (readable : ∀ x ∈ entries, x.readable = true)
    (e : Engine) : (e.enterAll entries).Alike (e.enterAll entries') := by
  induction perm generalizing e with
  | nil => exact .refl e
  | cons x _ ih =>
    exact ih (List.pairwise_cons.1 apart).2 (List.forall_mem_cons.1 readable).2 (x.enter e)
  | swap x y rest =>
    obtain ⟨first, later⟩ := List.forall_mem_cons.1 readable
    exact enterAll_alike rest (enter_comm ((List.pairwise_cons.1 apart).1 x List.mem_cons_self)
      first (List.forall_mem_cons.1 later).1 e)
  | trans one _ ih ih' =>
    exact (ih apart readable e).trans (ih' ((one.pairwise_iff Entry.Apart.symm).1 apart)
      (fun x member => readable x (one.mem_iff.2 member)) e)

/-! ### Calls in any order -/

/-- Registrations that may be made in any order: of entries that are pairwise
apart, with patterns that can be read. -/
structure Unordered (calls : List AnyCall) : Prop where
  registrations : ∀ c ∈ calls, c.call.entry?.isSome
  apart : (entriesOf calls).Pairwise Entry.Apart
  readable : ∀ x ∈ entriesOf calls, x.readable = true

theorem run_perm {calls calls' : List AnyCall} (perm : calls.Perm calls')
    (unordered : Unordered calls) (e : Engine) : (e.run calls).Alike (e.run calls') := by
  rw [run_of_entries unordered.registrations, run_of_entries fun c member =>
    unordered.registrations c (perm.mem_iff.2 member)]
  exact enterAll_perm (perm.filterMap _) unordered.apart unordered.readable e

theorem asked_answersAlike {β : Type} {f : Engine → Except PatternError β × Engine}
    (alike : AnswersAlike f) : AnswersAlike (fun e => asked (f e)) := fun e e' same =>
  ⟨congrArg (Except.mapError Failure.ofPattern) (alike e e' same).1, (alike e e' same).2⟩

theorem perform_answersAlike {α : Type} {c : Call α} (question : c.asks.isSome) :
    AnswersAlike (perform c) := by
  cases c with
  | explain ty => exact asked_answersAlike (explain_answersAlike ty)
  | isTransformable ty => exact asked_answersAlike (isTransformable_answersAlike ty)
  | modeFor ty => exact asked_answersAlike (modeFor_answersAlike ty)
  | decide ty => exact asked_answersAlike (decide_answersAlike ty)
  | _ => cases question

theorem run_alike {asked : List AnyCall} (questions : ∀ c ∈ asked, c.call.asks.isSome)
    {e e' : Engine} (alike : e.Alike e') : (e.run asked).Alike (e'.run asked) := by
  induction asked generalizing e e' with
  | nil => exact alike
  | cons c rest ih =>
    obtain ⟨first, later⟩ := List.forall_mem_cons.1 questions
    exact ih later (perform_answersAlike first e e' alike).2

/-- The order of registrations outside the rule list shows in no decision,
whatever was asked before it. An entry that is already there is refused in
every order. -/
theorem decisions_of_reordered {calls calls' : List AnyCall} (perm : calls.Perm calls')
    (unordered : Unordered calls) (e : Engine) {asked : List AnyCall}
    (questions : ∀ c ∈ asked, c.call.asks.isSome) (ty : TypeDescriptor) :
    let one := (e.run calls).run asked
    let other := (e.run calls').run asked
    (one.explain ty).1 = (other.explain ty).1 ∧ (one.modeFor ty).1 = (other.modeFor ty).1 ∧
      one.registries.isNeverAdaptable ty = other.registries.isNeverAdaptable ty ∧
      (one.decide ty).1 = (other.decide ty).1 := by
  have alike := run_alike questions (run_perm perm unordered e)
  refine ⟨(explain_answersAlike ty _ _ alike).1, (modeFor_answersAlike ty _ _ alike).1, ?_,
    (decide_answersAlike ty _ _ alike).1⟩
  obtain ⟨s, alike, same⟩ := alike
  rw [same]
  exact (alike.isNeverAdaptable_eq ty).symm

/-- A harbour in whose list of exclusions one pattern cannot be read. -/
def harbour : Engine := (ofOptions {}).run [⟨.addPermanentExclude "acme.Lock?"⟩]

def harbourEntries : List AnyCall := [
  ⟨.addPermanentExclude "acme.Hidden*"⟩,
  ⟨.addSpec .live (.ofName (TypeName.ofString "acme.HiddenPier"))⟩,
  ⟨.addNonPortable "acme.Crane"⟩,
  ⟨.addSpecIfAbsent .inventory (.ofName (TypeName.ofString "acme.Dock"))⟩,
  ⟨.addRootForField "acme.Dock.ships" none⟩,
  ⟨.addPermanentExclude "*Pier"⟩,
  ⟨.addRoot { typeName := TypeName.ofString "acme.Dock", fieldName := "cargo" } false⟩,
  ⟨.addRewriter "acme/Crane" "acme.Rewriter"⟩]

def pier : TypeDescriptor := .named (TypeName.ofString "acme.HiddenPier")

def dock : TypeDescriptor := .named (TypeName.ofString "acme.Dock")

theorem harbour_entered_backwards :
    let one := (harbour.run harbourEntries).run [⟨.explain pier⟩]
    let other := (harbour.run harbourEntries.reverse).run [⟨.explain pier⟩]
    ∀ ty ∈ [pier, dock],
      (one.explain ty).1 = (other.explain ty).1 ∧ (one.modeFor ty).1 = (other.modeFor ty).1 ∧
        one.registries.isNeverAdaptable ty = other.registries.isNeverAdaptable ty ∧
        (one.decide ty).1 = (other.decide ty).1 := by
  have unordered : Unordered harbourEntries :=
    ⟨by decide +kernel, by decide +kernel, by decide +kernel⟩
  intro one other ty _
  exact decisions_of_reordered (List.reverse_perm _).symm unordered harbour (by decide +kernel) ty

end Engine

end ClassPolicy
