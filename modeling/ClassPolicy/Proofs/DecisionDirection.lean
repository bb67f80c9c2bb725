import ClassPolicy.Proofs.CacheCoherence
import ClassPolicy.Proofs.RootDominance
import ClassPolicy.Proofs.RuleOrder

/-!
# Directions of registrations

Most registrations move decisions one way only. A type that is accepted stays
accepted when something that speaks for a type is added, and one that is
refused stays refused when something that speaks against a type is added,
though a decision may change its reason, and one that failed may come to
either answer. What neither speaks for a type nor against it changes no
decision at all.
-/

set_option autoImplicit false

namespace ClassPolicy

namespace Registries

/-- Whether the type is accepted, the reason left out. -/
def verdict (r : Registries) (ty : TypeDescriptor) : Except PatternError Bool :=
  (r.adaptability ty).map (·.transformable)

/-- A generated subtype that is not allowed, or one nested in a logical type. -/
def isGuarded (r : Registries) (ty : TypeDescriptor) : Bool :=
  (ty.isDynamicSubtype && !r.rules.allowsDynamicSubtypes) || r.isNestedInLogical ty.name

/-- The type is spoken for under its own name. -/
def isClaimed (r : Registries) (name : TypeName) : Bool :=
  r.roots.hasRoots name || r.rewriters.contains name.text || r.specs.contains name

/-- Nothing refuses the type, and it is claimed or included. -/
structure Admits (r : Registries) (ty : TypeDescriptor) : Prop where
  outside : r.rules.isInternal ty.name.text = false
  unbarred : r.rules.isPermanentlyExcluded ty = .ok false
  unguarded : r.isGuarded ty = false
  ground : r.isClaimed ty.name = true ∨ r.isIncluded ty = .ok true

/-- What refuses the type, or that nothing speaks for it. -/
inductive Refuses (r : Registries) (ty : TypeDescriptor) : Prop
  | internal (inside : r.rules.isInternal ty.name.text = true)
  | excluded (barred : r.rules.isPermanentlyExcluded ty = .ok true)
  | guarded (unbarred : r.rules.isPermanentlyExcluded ty = .ok false)
      (guarded : r.isGuarded ty = true)
  | unclaimed (unbarred : r.rules.isPermanentlyExcluded ty = .ok false)
      (free : r.isClaimed ty.name = false) (out : r.isIncluded ty = .ok false)

section Verdict

variable {r : Registries} {ty : TypeDescriptor}

/-- The ten outcomes of a decision, by what they say alone. -/
theorem verdict_eq (r : Registries) (ty : TypeDescriptor) :
    r.verdict ty = if r.rules.isInternal ty.name.text then .ok false
      else match r.rules.isPermanentlyExcluded ty with
        | .error e => .error e
        | .ok true => .ok false
        | .ok false =>
          if r.isGuarded ty then .ok false
          else if r.isClaimed ty.name then .ok true
          else r.isIncluded ty := by
  cases inside : r.rules.isInternal ty.name.text with
  | true => simp [verdict, adaptability, inside, Except.map, Adaptability.refuse]
  | false =>
    cases barred : r.rules.isPermanentlyExcluded ty with
    | error e => simp [verdict, adaptability, inside, barred, Except.map]
    | ok hit =>
      cases hit with
      | true => simp [verdict, adaptability, inside, barred, Except.map, Adaptability.refuse]
      | false =>
        -- Behind the guards one test for each reason remains.
        simp only [verdict, adaptability, inside, barred, isGuarded, isClaimed, isIncluded,
          Bool.or_eq_true, Bool.false_eq_true, if_false, ite_or, apply_ite (Except.map _)]
        rcases r.rules.disposition ty with _ | _ | _ | _ <;> rfl

theorem verdict_eq_true_iff : r.verdict ty = .ok true ↔ r.Admits ty := by
  rw [verdict_eq]
  constructor
  · intro accepted
    split at accepted
    · cases accepted
    · rename_i outside
      split at accepted
      · cases accepted
      · cases accepted
      · rename_i unbarred
        split at accepted
        · cases accepted
        · rename_i unguarded
          refine ⟨by simpa using outside, unbarred, by simpa using unguarded, ?_⟩
          split at accepted
          · rename_i claimed
            exact .inl claimed
          · exact .inr accepted
  · rintro ⟨outside, unbarred, unguarded, claimed | included⟩
    · simp [outside, unbarred, unguarded, claimed]
    · simp [outside, unbarred, unguarded, included]

theorem verdict_eq_false_iff : r.verdict ty = .ok false ↔ r.Refuses ty := by
  rw [verdict_eq]
  constructor
  · intro refused
    split at refused
    · rename_i inside
      exact .internal inside
    · split at refused
      · cases refused
      · rename_i barred
        exact .excluded barred
      · rename_i unbarred
        split at refused
        · rename_i guarded
          exact .guarded unbarred guarded
        · split at refused
          · cases refused
          · rename_i free
            exact .unclaimed unbarred (by simpa using free) refused
  · intro refuses
    split
    · rfl
    · rename_i outside
      cases refuses with
      | internal inside => exact absurd inside outside
      | excluded barred => simp [barred]
      | guarded unbarred guarded => simp [unbarred, guarded]
      | unclaimed unbarred free out => simp [unbarred, free, out]

variable {r' : Registries}

/-- A type stays admitted when no guard is added and what speaks for it stays. -/
theorem Admits.keep (admits : r.Admits ty)
    (internal : r'.rules.isInternal ty.name.text = r.rules.isInternal ty.name.text)
    (barred : r'.rules.isPermanentlyExcluded ty = r.rules.isPermanentlyExcluded ty)
    (guards : r.isGuarded ty = false → r'.isGuarded ty = false)
    (claims : r.isClaimed ty.name = true → r'.isClaimed ty.name = true)
    (includes : r.isIncluded ty = .ok true → r'.isIncluded ty = .ok true) : r'.Admits ty where
  outside := internal.trans admits.outside
  unbarred := barred.trans admits.unbarred
  unguarded := guards admits.unguarded
  ground := admits.ground.imp claims includes

/-- A type stays refused when no guard is lifted and nothing speaks for it. -/
theorem Refuses.keep (refuses : r.Refuses ty)
    (internal : r'.rules.isInternal ty.name.text = r.rules.isInternal ty.name.text)
    (barred : r'.rules.isPermanentlyExcluded ty = r.rules.isPermanentlyExcluded ty)
    (guards : r.isGuarded ty = true → r'.isGuarded ty = true)
    (claims : r.isClaimed ty.name = false → r'.isClaimed ty.name = false)
    (includes : r.isIncluded ty = .ok false → r'.isIncluded ty = .ok false) : r'.Refuses ty := by
  cases refuses with
  | internal inside => exact .internal (internal.trans inside)
  | excluded hit => exact .excluded (barred.trans hit)
  | guarded unbarred guarded => exact .guarded (barred.trans unbarred) (guards guarded)
  | unclaimed unbarred free out =>
    exact .unclaimed (barred.trans unbarred) (claims free) (includes out)

end Verdict

end Registries

/-- Which way a registration moves decisions. -/
inductive Direction
  | widening
  | narrowing
  | neutral
deriving DecidableEq, Repr

namespace Direction

/-- What is accepted stays accepted, what is refused stays refused, or every
decision stays as it is. -/
def Moves : Direction → Registries → Registries → Prop
  | .widening, r, r' => ∀ ty, r.verdict ty = .ok true → r'.verdict ty = .ok true
  | .narrowing, r, r' => ∀ ty, r.verdict ty = .ok false → r'.verdict ty = .ok false
  | .neutral, r, r' => ∀ ty, r'.adaptability ty = r.adaptability ty

theorem moves_of_neutral {r r' : Registries} (same : neutral.Moves r r') (d : Direction) :
    d.Moves r r' := by
  cases d with
  | widening => exact fun ty accepted => by rwa [Registries.verdict, same ty]
  | narrowing => exact fun ty refused => by rwa [Registries.verdict, same ty]
  | neutral => exact same

theorem moves_refl (d : Direction) (r : Registries) : d.Moves r r :=
  moves_of_neutral (fun _ => rfl) d

theorem Moves.trans {d : Direction} {r₁ r₂ r₃ : Registries} (first : d.Moves r₁ r₂)
    (second : d.Moves r₂ r₃) : d.Moves r₁ r₃ := by
  cases d with
  | widening => exact fun ty accepted => second ty (first ty accepted)
  | narrowing => exact fun ty refused => second ty (first ty refused)
  | neutral => exact fun ty => (second ty).trans (first ty)

theorem moves_of_provided {b : Bool} {d d' : Direction} {r r' : Registries}
    (directed : (if b then some d' else none) = some d) (moved : b = true → d'.Moves r r') :
    d.Moves r r' := by
  cases b with
  | false => cases directed
  | true =>
    cases directed
    exact moved rfl

end Direction

/-! ### Single changes -/

namespace Registries

variable {r : Registries} {pattern : String}

theorem aside_neutral {r' : Registries} (change : r.Aside r') : Direction.neutral.Moves r r' :=
  change.adaptability_eq

theorem isIncluded_prepend (rule : Rule) {p : TypePattern}
    (read : TypePattern.compile rule.pattern = .ok p) (r : Registries) (ty : TypeDescriptor) :
    isIncluded { r with rules := { r.rules with rules := rule :: r.rules.rules } } ty =
      if p.matchesType ty then .ok rule.disposition.isIncluded else r.isIncluded ty := by
  simp only [isIncluded, RuleRegistry.disposition, RuleRegistry.firstDisposition,
    matchType_of_read read]
  cases p.matchesType ty <;> rfl

theorem addInclude_widens {p : TypePattern} (read : TypePattern.compile pattern = .ok p)
    (attributes : IncludeAttributes) :
    Direction.widening.Moves r { r with rules := r.rules.addInclude pattern attributes } := by
  intro ty accepted
  have admits := verdict_eq_true_iff.1 accepted
  refine verdict_eq_true_iff.2 (admits.keep rfl rfl id id fun included => ?_)
  refine (isIncluded_prepend (.including pattern attributes) read r ty).trans ?_
  split
  · rfl
  · exact included

theorem lockedInclude_widens {p : TypePattern} (read : TypePattern.compile pattern = .ok p)
    (attributes : IncludeAttributes) (lock : LockRule)
    (committed : lock.definition.committed = true) :
    Direction.widening.Moves r { r with
      rules := r.rules.addInclude pattern attributes
      locks := { r.locks with rules := lock :: r.locks.rules } } := by
  have included : Direction.widening.Moves r _ := addInclude_widens read attributes
  exact included.trans (Direction.moves_of_neutral (aside_neutral (.lock lock committed)) _)

theorem addExclude_narrows {p : TypePattern} (read : TypePattern.compile pattern = .ok p) :
    Direction.narrowing.Moves r { r with rules := r.rules.addExclude pattern } := by
  intro ty refused
  have refuses := verdict_eq_false_iff.1 refused
  refine verdict_eq_false_iff.2 (refuses.keep rfl rfl id id fun out => ?_)
  refine (isIncluded_prepend (.excluding pattern) read r ty).trans ?_
  split
  · rfl
  · exact out

/-- A type that the pattern matches is refused for it, unless it was refused
already. -/
theorem addPermanentExclude_narrows {p : TypePattern}
    (read : TypePattern.compile pattern = .ok p) :
    Direction.narrowing.Moves r { r with rules := r.rules.addPermanentExclude pattern } := by
  intro ty refused
  have refuses := verdict_eq_false_iff.1 refused
  have asked := RuleRegistry.anyMatches_cons_of_read read ty r.rules.permanentExcludes
  rw [verdict_eq_false_iff]
  by_cases matched : p.matchesType ty = true
  · rw [if_pos matched] at asked
    exact .excluded asked
  · rw [if_neg matched] at asked
    exact refuses.keep rfl asked id id id

theorem allowing_widens :
    Direction.widening.Moves r { r with rules := r.rules.setAllowsDynamicSubtypes true } := by
  intro ty accepted
  have admits := verdict_eq_true_iff.1 accepted
  refine verdict_eq_true_iff.2 (admits.keep rfl rfl (fun unguarded => ?_) id id)
  simp only [isGuarded, Bool.or_eq_false_iff] at unguarded ⊢
  exact ⟨by simp [RuleRegistry.setAllowsDynamicSubtypes], unguarded.2⟩

theorem forbidding_narrows :
    Direction.narrowing.Moves r { r with rules := r.rules.setAllowsDynamicSubtypes false } := by
  intro ty refused
  have refuses := verdict_eq_false_iff.1 refused
  refine verdict_eq_false_iff.2 (refuses.keep rfl rfl (fun guarded => ?_) id id)
  simp only [isGuarded, Bool.or_eq_true, Bool.and_eq_true] at guarded ⊢
  exact guarded.imp_left fun dynamic => ⟨dynamic.1, rfl⟩

theorem nonPortable_neutral (pattern : String) :
    Direction.neutral.Moves r { r with rules := r.rules.addNonPortable pattern } :=
  fun _ => rfl

theorem roots_widen {root : RootDefinition} {roots : RootRegistry}
    (added : r.roots.add root = .ok roots) : Direction.widening.Moves r { r with roots } := by
  intro ty accepted
  have admits := verdict_eq_true_iff.1 accepted
  refine verdict_eq_true_iff.2 (admits.keep rfl rfl id (fun claimed => ?_) id)
  simp only [isClaimed, Bool.or_eq_true, or_assoc] at claimed ⊢
  exact claimed.imp_left (change_hasRoots r _ (.root root roots added))

theorem rewriter_widens (key value : String) :
    Direction.widening.Moves r { r with rewriters := r.rewriters.insert key value } := by
  intro ty accepted
  have admits := verdict_eq_true_iff.1 accepted
  refine verdict_eq_true_iff.2 (admits.keep rfl rfl id (fun claimed => ?_) id)
  by_cases same : ty.name.text = key
  · simp [isClaimed, SortedMap.contains, SortedMap.get?_insert, same]
  · simpa [isClaimed, SortedMap.contains, SortedMap.get?_insert, same] using claimed

theorem rewriterRemoved_narrows (key : String) :
    Direction.narrowing.Moves r { r with rewriters := r.rewriters.erase key } := by
  intro ty refused
  have refuses := verdict_eq_false_iff.1 refused
  refine verdict_eq_false_iff.2 (refuses.keep rfl rfl id (fun free => ?_) id)
  simp only [isClaimed, SortedMap.contains, SortedMap.get?_erase, Bool.or_eq_false_iff] at free ⊢
  refine ⟨⟨free.1.1, ?_⟩, free.2⟩
  split
  · rfl
  · exact free.1.2

/-- A spec that is not logical makes no type nested. -/
theorem isNestedInLogical_put {spec : ClassSpec} (absent : r.specs.get? spec.name = none)
    (plain : spec.isLogical = false) (partition : Partition) {name : TypeName}
    (apart : r.isNestedInLogical name = false) :
    isNestedInLogical { r with specs := r.specs.put partition spec.name spec } name = false := by
  have found := SpecStore.get?_put_of_absent absent partition spec
  have logical : isLogical { r with specs := r.specs.put partition spec.name spec } name.outer =
      r.isLogical name.outer := by
    by_cases same : name.outer = spec.name
    · rw [same, isLogical_of_absent absent]
      simp [isLogical, found, plain]
    · simp [isLogical, found, same]
  by_cases own : name = spec.name
  · simp [isNestedInLogical, SpecStore.contains, found, own]
  · rw [isNestedInLogical, logical, SpecStore.contains, found, if_neg own]
    exact apart

theorem spec_widens (spec : ClassSpec) (absent : r.specs.get? spec.name = none)
    (plain : spec.isLogical = false) (partition : Partition) :
    Direction.widening.Moves r { r with specs := r.specs.put partition spec.name spec } := by
  intro ty accepted
  have admits := verdict_eq_true_iff.1 accepted
  refine verdict_eq_true_iff.2
    (admits.keep rfl rfl (fun unguarded => ?_) (fun claimed => ?_) id)
  · simp only [isGuarded, Bool.or_eq_false_iff] at unguarded ⊢
    exact ⟨unguarded.1, isNestedInLogical_put absent plain partition unguarded.2⟩
  · simp only [isClaimed, Bool.or_eq_true] at claimed ⊢
    refine claimed.imp_right fun present => ?_
    rw [SpecStore.contains, SpecStore.get?_put_of_absent absent]
    split
    · rfl
    · exact present

theorem getOrInsert_widens (r : Registries) (name : TypeName) :
    Direction.widening.Moves r
      { r with specs := (r.specs.getOrInsert name (.ofName name)).2 } := by
  unfold SpecStore.getOrInsert
  cases found : r.specs.get? name with
  | none => exact spec_widens (.ofName name) found rfl .live
  | some spec => exact Direction.moves_refl _ r

end Registries

/-! ### Calls -/

/-- The way in which a call moves decisions, if it has one. A pattern that
cannot be read has none, since decisions may fail on it, nor has a logical spec,
since it speaks against the types nested in its own. -/
def Call.direction? {α : Type} : Call α → Option Direction
  | .addInclude pattern _ | .includeAndLock _ pattern _ _ =>
    if (TypePattern.compile pattern).isOk then some .widening else none
  | .addExclude pattern | .addPermanentExclude pattern =>
    if (TypePattern.compile pattern).isOk then some .narrowing else none
  | .setAllowsDynamicSubtypes allow => some (if allow then .widening else .narrowing)
  | .addRoot _ _ | .addRootForField _ _ | .addRewriter _ _ | .getOrCreateSpec _
  | .mergeInventory _ => some .widening
  | .addSpec _ added | .addSpecIfAbsent _ added =>
    if !added.isLogical then some .widening else none
  | .removeRewriter _ => some .narrowing
  | .addRules _ | .getOrCreateLogicalSpec _ _ | .updateSpec _ _ | .moveToLogical _ _
  | .removeSpec _ | .installBuiltins | .applyPolicy _ => none
  | _ => some .neutral

namespace Engine

variable {e : Engine}

theorem includeAndLock_widens {pattern : String} {p : TypePattern}
    (read : TypePattern.compile pattern = .ok p) (ty : TypeDescriptor)
    (attributes : IncludeAttributes) (lockPattern : String) (e : Engine) :
    Direction.widening.Moves e.registries
      (e.includeAndLock ty pattern attributes lockPattern).2.registries := by
  unfold includeAndLock
  split
  · exact Direction.moves_refl _ _
  · split
    · exact Direction.moves_refl _ _
    · exact Registries.lockedInclude_widens read attributes _ rfl
    · exact Direction.moves_refl _ _

theorem addRoot_widens (root : RootDefinition) (createSpec : Bool) (e : Engine) :
    Direction.widening.Moves e.registries (e.addRoot root createSpec).2.registries := by
  unfold addRoot
  split
  · exact Direction.moves_refl _ _
  · rename_i roots added
    have rooted := Registries.roots_widen added
    cases createSpec with
    | false => exact rooted
    | true => exact rooted.trans (Registries.getOrInsert_widens _ root.typeName)

theorem addSpec_widens (spec : ClassSpec) (plain : spec.isLogical = false)
    (partition : Partition) (e : Engine) :
    Direction.widening.Moves e.registries (e.addSpec partition spec).2.registries := by
  unfold addSpec
  split
  · exact Direction.moves_refl _ _
  · rename_i specs inserted
    unfold SpecStore.insert at inserted
    split at inserted
    · cases inserted
    · rename_i absent
      cases inserted
      exact Registries.spec_widens spec (by simpa [SpecStore.contains] using absent) plain partition

theorem addSpecIfAbsent_widens (spec : ClassSpec) (plain : spec.isLogical = false)
    (partition : Partition) (e : Engine) :
    Direction.widening.Moves e.registries (e.addSpecIfAbsent partition spec).2.registries := by
  rw [snd_addSpecIfAbsent]
  split
  · exact Direction.moves_refl _ _
  · rename_i absent
    exact Registries.spec_widens spec (by simpa [SpecStore.contains] using absent) plain partition

theorem mergeInventory_widens (manifest : Manifest) (e : Engine) :
    Direction.widening.Moves e.registries (e.mergeInventory manifest).2.registries := by
  refine addMissingSpecs_along
    (R := fun e e' => Direction.widening.Moves e.registries e'.registries)
    (fun e => Direction.moves_refl _ _) .trans (fun spec member => ?_) e
  obtain ⟨name, -, rfl⟩ := List.mem_map.1 member
  exact addSpecIfAbsent_widens (.ofName name) rfl .inventory

/-- A call with a direction moves decisions in that direction, also when it
fails. -/
theorem perform_moves {α : Type} {c : Call α} {d : Direction} (directed : c.direction? = some d)
    (e : Engine) : d.Moves e.registries (e.perform c).2.registries := by
  cases c with
  | addInclude pattern attributes =>
    refine Direction.moves_of_provided directed fun read => ?_
    obtain ⟨p, compiled⟩ := isOk_iff.1 read
    exact Registries.addInclude_widens compiled attributes
  | includeAndLock ty pattern attributes lockPattern =>
    refine Direction.moves_of_provided directed fun read => ?_
    obtain ⟨p, compiled⟩ := isOk_iff.1 read
    exact includeAndLock_widens compiled ty attributes lockPattern e
  | addExclude pattern =>
    refine Direction.moves_of_provided directed fun read => ?_
    obtain ⟨p, compiled⟩ := isOk_iff.1 read
    exact Registries.addExclude_narrows compiled
  | addPermanentExclude pattern =>
    refine Direction.moves_of_provided directed fun read => ?_
    obtain ⟨p, compiled⟩ := isOk_iff.1 read
    exact Registries.addPermanentExclude_narrows compiled
  | addSpec partition added =>
    refine Direction.moves_of_provided directed fun plain => ?_
    exact addSpec_widens added (by simpa using plain) partition e
  | addSpecIfAbsent partition added =>
    refine Direction.moves_of_provided directed fun plain => ?_
    exact addSpecIfAbsent_widens added (by simpa using plain) partition e
  | setAllowsDynamicSubtypes allow =>
    simp only [perform, done, registries_setAllowsDynamicSubtypes]
    cases directed
    cases allow with
    | true => exact Registries.allowing_widens
    | false => exact Registries.forbidding_narrows
  | addRewriter name id =>
    cases directed
    exact Registries.rewriter_widens _ id
  | removeRewriter name =>
    cases directed
    simp only [perform, answered, removeRewriter]
    split
    · exact Direction.moves_refl _ _
    · exact Registries.rewriterRemoved_narrows _
  | addRoot root createSpec =>
    cases directed
    exact addRoot_widens root createSpec e
  | addRootForField qualified rootName =>
    cases directed
    simp only [perform, addRootForField]
    split
    · exact Direction.moves_refl _ _
    · exact addRoot_widens _ false e
  | getOrCreateSpec name =>
    cases directed
    simp only [perform, answered, getOrCreateSpec, getOrCreate]
    split
    · exact Direction.moves_refl _ _
    · rename_i absent
      exact Registries.spec_widens (.ofName (TypeName.ofString name)) absent rfl .live
  | mergeInventory manifest =>
    cases directed
    exact mergeInventory_widens manifest e
  | addNonPortable pattern =>
    cases directed
    exact Registries.nonPortable_neutral pattern
  | addLock pattern definition =>
    cases directed
    simp only [perform, addLock]
    split <;> exact fun ty => rfl
  | addAutolock pattern level provenance =>
    cases directed
    simp only [perform, addAutolock_eq]
    exact fun ty => rfl
  | addTransient typeName field =>
    cases directed
    simp only [perform, addTransient]
    split <;> exact fun ty => rfl
  | markAllPreInstrumented =>
    cases directed
    exact Registries.aside_neutral .marked
  | explain ty | isTransformable ty =>
    cases directed
    exact fun ty' => congrArg (·.adaptability ty') (explain_registries ty e)
  | modeFor ty =>
    cases directed
    exact fun ty' => congrArg (·.adaptability ty') (modeFor_registries ty e)
  | decide ty =>
    cases directed
    exact fun ty' => congrArg (·.adaptability ty') (decide_registries ty e)
  | addRules | getOrCreateLogicalSpec | updateSpec | moveToLogical | removeSpec
  | installBuiltins | applyPolicy => cases directed
  | _ =>
    cases directed
    exact fun ty => rfl

/-- A run keeps to one direction when each of its calls does or moves nothing. -/
theorem run_moves {d : Direction} {calls : List AnyCall}
    (directed : ∀ c ∈ calls, c.call.direction? = some d ∨ c.call.direction? = some .neutral)
    (e : Engine) : d.Moves e.registries (e.run calls).registries := by
  induction calls generalizing e with
  | nil => exact Direction.moves_refl d e.registries
  | cons c rest ih =>
    obtain ⟨here, later⟩ := List.forall_mem_cons.1 directed
    have first : d.Moves e.registries (e.perform c.call).2.registries := by
      rcases here with own | still
      · exact perform_moves own e
      · exact Direction.moves_of_neutral (perform_moves still e) d
    rw [run_cons]
    exact first.trans (ih later _)

/-- After a call that widens, what was accepted is accepted; after one that
narrows, what was refused is refused; and a neutral call changes no decision.
The same holds of a whole run in one direction. -/
theorem decisions_move_one_way (e : Engine) :
    (∀ {α : Type} (c : Call α) (ty : TypeDescriptor),
      (c.direction? = some .widening → e.registries.verdict ty = .ok true →
        (e.perform c).2.registries.verdict ty = .ok true) ∧
      (c.direction? = some .narrowing → e.registries.verdict ty = .ok false →
        (e.perform c).2.registries.verdict ty = .ok false) ∧
      (c.direction? = some .neutral →
        (e.perform c).2.registries.adaptability ty = e.registries.adaptability ty)) ∧
    ∀ (d : Direction) (calls : List AnyCall),
      (∀ c ∈ calls, c.call.direction? = some d ∨ c.call.direction? = some .neutral) →
      d.Moves e.registries (e.run calls).registries := by
  constructor
  · intro α c ty
    exact ⟨fun widening => perform_moves widening e ty,
      fun narrowing => perform_moves narrowing e ty, fun neutral => perform_moves neutral e ty⟩
  · intro d calls directed
    exact run_moves directed e

/-- Only the shop is included. -/
def storefront : Engine := (ofOptions {}).addInclude "shop.*" {}

/-- Calls that speak for a type, and one that moves nothing. -/
def storefrontOpens : List AnyCall := [
  ⟨.addRoot { typeName := crate.name, fieldName := "lid" } true⟩, ⟨.addInclude "yard.Crane" {}⟩,
  ⟨.addRewriter "shop.Till" "ledger"⟩, ⟨.markAllPreInstrumented⟩,
  ⟨.addSpecIfAbsent .inventory (.ofName forklift.name)⟩, ⟨.setAllowsDynamicSubtypes true⟩]

theorem storefront_moves_one_way :
    (storefront.run storefrontOpens).registries.verdict crate = .ok true ∧
      (storefront.perform (.addExclude "shop.Till")).2.registries.verdict forklift = .ok false ∧
      (storefront.perform (.addNonPortable "shop.*")).2.registries.adaptability crate =
        storefront.registries.adaptability crate := by
  have directed : ∀ c ∈ storefrontOpens, c.call.direction? = some .widening ∨
      c.call.direction? = some .neutral := by
    decide +kernel
  have plain : storefront.registries.isLogical crate.name.outer = false :=
    Registries.isLogical_of_absent rfl
  have apart : storefront.registries.isNestedInLogical crate.name = false := by
    simp [Registries.isNestedInLogical, plain]
  have accepted : storefront.registries.verdict crate = .ok true := by
    refine Registries.verdict_eq_true_iff.2 ⟨by decide +kernel, rfl, ?_, .inr (by decide +kernel)⟩
    rw [Registries.isGuarded, apart]
    decide +kernel
  have refused : storefront.registries.verdict forklift = .ok false :=
    Registries.verdict_eq_false_iff.2 (.unclaimed rfl rfl (by decide +kernel))
  obtain ⟨single, whole⟩ := decisions_move_one_way storefront
  refine ⟨whole .widening storefrontOpens directed crate accepted, ?_, ?_⟩
  · exact (single (.addExclude "shop.Till") forklift).2.1 (by decide +kernel) refused
  · exact (single (.addNonPortable "shop.*") crate).2.2 rfl

end Engine

end ClassPolicy
