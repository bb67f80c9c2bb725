import ClassPolicy.Proofs.BootstrapOutcome
import ClassPolicy.Proofs.MemoryIndependence

/-!
# The order of the rules

A registration puts a block of rules ahead of the list and leaves the block in
its own order, so the list of an engine is made of its blocks, the latest one
first. In that list the first rule that does not merely miss a type decides.
Either it matches and says what happens to the type, or its pattern cannot be
read and nothing is said.
-/

set_option autoImplicit false

namespace ClassPolicy

namespace Rule

/-- The pattern can be read and matches the type. -/
def Hits (rule : Rule) (ty : TypeDescriptor) : Prop :=
  ∃ p, TypePattern.compile rule.pattern = .ok p ∧ p.matchesType ty = true

/-- The pattern can be read and does not match the type. -/
def Misses (rule : Rule) (ty : TypeDescriptor) : Prop :=
  ∃ p, TypePattern.compile rule.pattern = .ok p ∧ p.matchesType ty = false

end Rule

/-- What a list of rules says of a type. The first rule that does not miss the
type has the last word. -/
inductive Resolved (ty : TypeDescriptor) (rules : List Rule) :
    Except PatternError Disposition → Prop
  | silent (missed : ∀ rule ∈ rules, rule.Misses ty) : Resolved ty rules (.ok .noOpinion)
  | decided {before after : List Rule} {rule : Rule} (listed : rules = before ++ rule :: after)
      (missed : ∀ earlier ∈ before, earlier.Misses ty) (hit : rule.Hits ty) :
      Resolved ty rules (.ok rule.disposition)
  | unreadable {before after : List Rule} {rule : Rule} {e : PatternError}
      (listed : rules = before ++ rule :: after)
      (missed : ∀ earlier ∈ before, earlier.Misses ty)
      (malformed : TypePattern.compile rule.pattern = .error e) : Resolved ty rules (.error e)

theorem Resolved.cons {ty : TypeDescriptor} {rule : Rule} {rest : List Rule}
    {answer : Except PatternError Disposition} (first : rule.Misses ty)
    (resolved : Resolved ty rest answer) : Resolved ty (rule :: rest) answer := by
  cases resolved with
  | silent missed => exact .silent (List.forall_mem_cons.2 ⟨first, missed⟩)
  | decided listed missed hit =>
    subst listed
    exact .decided (List.cons_append ..).symm (List.forall_mem_cons.2 ⟨first, missed⟩) hit
  | unreadable listed missed malformed =>
    subst listed
    exact .unreadable (List.cons_append ..).symm (List.forall_mem_cons.2 ⟨first, missed⟩) malformed

namespace RuleRegistry

variable {ty : TypeDescriptor}

/-- A rule that misses is passed over. -/
theorem firstDisposition_of_misses {before : List Rule}
    (missed : ∀ rule ∈ before, rule.Misses ty) (rest : List Rule) :
    firstDisposition ty (before ++ rest) = firstDisposition ty rest := by
  induction before with
  | nil => rfl
  | cons rule before ih =>
    obtain ⟨first, later⟩ := List.forall_mem_cons.1 missed
    have skipped : matchType rule.pattern ty = .ok false := matchType_eq_ok_iff.2 first
    simpa only [List.cons_append, firstDisposition, skipped] using ih later

theorem resolved_firstDisposition (ty : TypeDescriptor) (rules : List Rule) :
    Resolved ty rules (firstDisposition ty rules) := by
  induction rules with
  | nil => exact .silent (by simp)
  | cons rule rest ih =>
    unfold firstDisposition
    split
    · rename_i found
      exact .unreadable (List.nil_append _).symm (by simp) (matchType_eq_error_iff.1 found)
    · rename_i found
      exact .decided (List.nil_append _).symm (by simp) (matchType_eq_ok_iff.1 found)
    · rename_i found
      exact ih.cons (matchType_eq_ok_iff.1 found)

theorem firstDisposition_of_resolved {rules : List Rule} {answer : Except PatternError Disposition}
    (resolved : Resolved ty rules answer) : firstDisposition ty rules = answer := by
  cases resolved with
  | silent missed => simpa [firstDisposition] using firstDisposition_of_misses missed []
  | decided listed missed hit =>
    rw [listed, firstDisposition_of_misses missed]
    simp only [firstDisposition, matchType_eq_ok_iff.2 hit]
  | unreadable listed missed malformed =>
    rw [listed, firstDisposition_of_misses missed]
    simp only [firstDisposition, matchType_eq_error_iff.2 malformed]

theorem disposition_eq_iff {r : RuleRegistry} {answer : Except PatternError Disposition} :
    r.disposition ty = answer ↔ Resolved ty r.rules answer :=
  ⟨fun resolved => resolved ▸ resolved_firstDisposition ty r.rules, firstDisposition_of_resolved⟩

/-- No rule stands for the outcome of a lookup that found nothing. -/
def Opinionated (r : RuleRegistry) : Prop := ∀ rule ∈ r.rules, rule.disposition ≠ .noOpinion

theorem disposition_eq_noOpinion_iff {r : RuleRegistry} (opinionated : r.Opinionated) :
    r.disposition ty = .ok .noOpinion ↔ ∀ rule ∈ r.rules, rule.Misses ty := by
  rw [disposition_eq_iff]
  constructor
  · generalize spoken : Except.ok Disposition.noOpinion = answer
    intro resolved
    cases resolved with
    | silent missed => exact missed
    | @decided before after rule listed missed hit =>
      have member : rule ∈ r.rules := by simp [listed]
      injection spoken with none
      exact absurd none.symm (opinionated rule member)
    | unreadable listed missed malformed => cases spoken
  · exact .silent

theorem disposition_eq_ok_iff {r : RuleRegistry} {d : Disposition} (opinion : d ≠ .noOpinion) :
    r.disposition ty = .ok d ↔ ∃ before rule after, r.rules = before ++ rule :: after ∧
      (∀ earlier ∈ before, earlier.Misses ty) ∧ rule.Hits ty ∧ rule.disposition = d := by
  rw [disposition_eq_iff]
  constructor
  · intro resolved
    cases resolved with
    | silent missed => exact absurd rfl opinion
    | decided listed missed hit => exact ⟨_, _, _, listed, missed, hit, rfl⟩
  · rintro ⟨before, rule, after, listed, missed, hit, rfl⟩
    exact .decided listed missed hit

theorem disposition_eq_error_iff {r : RuleRegistry} {e : PatternError} :
    r.disposition ty = .error e ↔ ∃ before rule after, r.rules = before ++ rule :: after ∧
      (∀ earlier ∈ before, earlier.Misses ty) ∧ TypePattern.compile rule.pattern = .error e := by
  rw [disposition_eq_iff]
  constructor
  · intro resolved
    cases resolved with
    | unreadable listed missed malformed => exact ⟨_, _, _, listed, missed, malformed⟩
  · rintro ⟨before, rule, after, listed, missed, malformed⟩
    exact .unreadable listed missed malformed

end RuleRegistry

/-! ### The blocks of a run -/

/-- What an entry of the settings says of the types that it names. -/
def ClassEntry.says (entry : ClassEntry) : Disposition :=
  match entry.kind, entry.onLoad with
  | .exclusion, _ => .excluded
  | .inclusion, none => .included ⟨entry.honorTransient, entry.honorVolatile, .none⟩
  | .inclusion, some .callConstructor =>
    .included ⟨entry.honorTransient, entry.honorVolatile, .callConstructor⟩
  | .inclusion, some (.method name) =>
    .included ⟨entry.honorTransient, entry.honorVolatile, .method name⟩
  | .inclusion, some (.script source) =>
    .included ⟨entry.honorTransient, entry.honorVolatile, .script source⟩

theorem ClassEntry.rule_eq (entry : ClassEntry) :
    entry.rule = ⟨entry.expression, entry.says⟩ := by
  obtain ⟨_ | _, expression, honorTransient, honorVolatile, _ | _ | _ | _⟩ := entry <;> rfl

/-- The include and exclude entries of a policy as one block, in file order. -/
def PolicySettings.block (p : PolicySettings) : List Rule :=
  p.instrumentedClasses.map fun entry => ⟨entry.expression, entry.says⟩

theorem PolicySettings.block_eq (p : PolicySettings) :
    p.instrumentedClasses.map ClassEntry.rule = p.block :=
  List.map_congr_left fun entry _ => entry.rule_eq

/-- The rules that a call puts ahead of all others, in their order. -/
def Call.block {α : Type} : Call α → Engine → List Rule
  | .addInclude pattern attributes, _ => [.including pattern attributes]
  | .addExclude pattern, _ => [.excluding pattern]
  | .addRules block, _ => if ∀ rule ∈ block, rule.disposition ≠ .noOpinion then block else []
  | .includeAndLock ty pattern attributes lockPattern, e =>
    match (e.includeAndLock ty pattern attributes lockPattern).1 with
    | .ok true => [.including pattern attributes]
    | _ => []
  | .applyPolicy policy, _ =>
    match policy.validate with
    | .ok () => policy.block
    | .error _ => []
  | _, _ => []

namespace Engine

/-- The blocks of a run, the earliest first. -/
def blocks : List AnyCall → Engine → List (List Rule)
  | [], _ => []
  | c :: rest, e => c.call.block e :: blocks rest (e.perform c.call).2

theorem rules_addRules (block : List Rule) (e : Engine) :
    (e.addRules block).2.registries.rules.rules =
      (Call.addRules block).block e ++ e.registries.rules.rules := by
  rw [Call.block]
  by_cases opinions : ∀ rule ∈ block, rule.disposition ≠ .noOpinion
  · obtain ⟨e', done, left⟩ := addRules_makes block opinions e
    rw [done, left, if_pos opinions]
  · rw [if_neg opinions, List.nil_append]
    unfold addRules
    split
    · rfl
    · split
      · rfl
      · rename_i rules prepended
        exact absurd (prependBlock_eq_ok prepended).2 opinions

theorem rules_includeAndLock (ty : TypeDescriptor) (pattern : String)
    (attributes : IncludeAttributes) (lockPattern : String) (e : Engine) :
    (e.includeAndLock ty pattern attributes lockPattern).2.registries.rules.rules =
      (Call.includeAndLock ty pattern attributes lockPattern).block e ++
        e.registries.rules.rules := by
  simp only [Call.block, includeAndLock_eq]
  split
  · rfl
  · split <;> rfl

/-- A policy that passes its checks has its rules in the list, also when it
fails on a root later on. -/
theorem rules_applyPolicy (policy : PolicySettings) (e : Engine) :
    (e.applyPolicy policy).2.registries.rules.rules =
      (Call.applyPolicy policy).block e ++ e.registries.rules.rules := by
  simp only [Call.block]
  cases checked : policy.validate with
  | error error => simp [applyPolicy, checked, refused]
  | ok _ =>
    have applied := applyPolicy_applied (PolicySettings.validate_eq_ok_iff.1 checked) e
    generalize done : applyPolicy policy e = outcome at applied ⊢
    cases applied with
    | all free left => simp [left, Registries.configured, policy.block_eq]
    | duplicate taken left => simp [left, Registries.configured, policy.block_eq]

theorem rules_addRoot (root : RootDefinition) (createSpec : Bool) (e : Engine) :
    (e.addRoot root createSpec).2.registries.rules = e.registries.rules := by
  unfold addRoot
  split <;> rfl

/-- A call puts its block ahead of the rules that are there. -/
theorem rules_perform {α : Type} (c : Call α) (e : Engine) :
    (e.perform c).2.registries.rules.rules = c.block e ++ e.registries.rules.rules := by
  cases c with
  | addRules block => exact rules_addRules block e
  | includeAndLock ty pattern attributes lockPattern =>
    exact rules_includeAndLock ty pattern attributes lockPattern e
  | applyPolicy policy => exact rules_applyPolicy policy e
  | installBuiltins => simp only [perform, Call.block, registries_install, List.nil_append]
  | mergeInventory manifest =>
    obtain ⟨inventory, merged⟩ := mergeInventory_registries manifest e
    simp only [perform, merged, Call.block, List.nil_append]
  | explain ty => exact congrArg (·.rules.rules) (explain_registries ty e)
  | isTransformable ty => exact congrArg (·.rules.rules) (explain_registries ty e)
  | modeFor ty => exact congrArg (·.rules.rules) (modeFor_registries ty e)
  | decide ty => exact congrArg (·.rules.rules) (decide_registries ty e)
  | setAllowsDynamicSubtypes allow =>
    exact congrArg (·.rules.rules) (registries_setAllowsDynamicSubtypes allow e)
  | removeRewriter name =>
    simp only [perform, answered, removeRewriter]
    split <;> rfl
  | addSpec partition spec =>
    simp only [perform, addSpec]
    split <;> rfl
  | addSpecIfAbsent partition spec =>
    simp only [perform, snd_addSpecIfAbsent]
    split <;> rfl
  | getOrCreateSpec name =>
    simp only [perform, answered, getOrCreateSpec, getOrCreate]
    split <;> rfl
  | getOrCreateLogicalSpec name applicator =>
    simp only [perform, answered, getOrCreateLogicalSpec, getOrCreate]
    split <;> rfl
  | updateSpec name edits =>
    simp only [perform, updateSpec]
    split <;> rfl
  | moveToLogical name superName =>
    simp only [perform, moveToLogical]
    split
    · rfl
    · split <;> rfl
  | removeSpec name =>
    simp only [perform, answered, removeSpec]
    split <;> rfl
  | addRoot root createSpec =>
    exact congrArg (·.rules) (rules_addRoot root createSpec e)
  | addRootForField qualified rootName =>
    simp only [perform, addRootForField]
    split
    · rfl
    · exact congrArg (·.rules) (rules_addRoot _ false e)
  | addLock pattern definition =>
    simp only [perform, addLock]
    split <;> rfl
  | addAutolock pattern level provenance =>
    simp only [perform, addAutolock_eq]
    rfl
  | addTransient typeName field =>
    simp only [perform, addTransient]
    split <;> rfl
  | _ => rfl

/-- The list after a run: the blocks of its calls with the latest first, and
behind them what was there. -/
theorem rules_run (calls : List AnyCall) (e : Engine) :
    (e.run calls).registries.rules.rules =
      (blocks calls e).reverse.flatten ++ e.registries.rules.rules := by
  induction calls generalizing e with
  | nil => rfl
  | cons c rest ih =>
    rw [run_cons, ih, rules_perform, blocks]
    simp

/-! ### Where a run starts -/

/-- An engine that options or settings give, and the block of rules that it
begins with. -/
inductive Started : Engine → List Rule → Prop
  | fresh (options : Options) : Started (ofOptions options) []
  | bootstrapped {settings : Settings} {file : FileContent}
      (booted : (bootstrap settings file).1 = .ok ()) :
      Started (bootstrap settings file).2 settings.policy.block

theorem rules_groundFor (p : PolicySettings) : (groundFor p).registries.rules.rules = [] := by
  cases included : p.includeBuiltins <;> simp [groundFor, included, registries_install, ofOptions]

namespace Started

variable {e : Engine} {first : List Rule}

theorem reachable (started : Started e first) : Reachable e := by
  cases started with
  | fresh options => exact .fresh options
  | bootstrapped booted => exact .bootstrapped _ _

theorem rules (started : Started e first) : e.registries.rules.rules = first := by
  cases started with
  | fresh options => rfl
  | bootstrapped booted =>
    obtain ⟨-, roots, inventory, left⟩ := registries_bootstrap booted
    rw [left]
    simp [Registries.configured, rules_groundFor, PolicySettings.block_eq]

end Started

theorem Reachable.rules_opinionated {e : Engine} (reached : Reachable e) :
    e.registries.rules.Opinionated := by
  refine reached.registries_invariant (P := fun r => r.rules.Opinionated) (fun _ _ => nofun) ?_
  intro r r' change opinionated
  cases change with
  | aside change => cases change <;> exact opinionated
  | rules block opinions => exact List.forall_mem_append.2 ⟨opinions, opinionated⟩
  | _ => exact opinionated

/-- The list after a run is made of the blocks that went into it, the latest
one first. Its first rule that does not miss a type gives the disposition, or
the failure if its pattern cannot be read, and without such a rule there is no
opinion. -/
theorem rules_in_blocks {e : Engine} {first : List Rule} (started : Started e first)
    (calls : List AnyCall) (ty : TypeDescriptor) :
    let rules := (first :: blocks calls e).reverse.flatten
    let later := (e.run calls).registries.rules
    later.rules = rules ∧
    (∀ d, d ≠ .noOpinion → (later.disposition ty = .ok d ↔ ∃ before rule after,
      rules = before ++ rule :: after ∧ (∀ earlier ∈ before, earlier.Misses ty) ∧
        rule.Hits ty ∧ rule.disposition = d)) ∧
    (later.disposition ty = .ok .noOpinion ↔ ∀ rule ∈ rules, rule.Misses ty) ∧
    ∀ error, later.disposition ty = .error error ↔ ∃ before rule after,
      rules = before ++ rule :: after ∧ (∀ earlier ∈ before, earlier.Misses ty) ∧
        TypePattern.compile rule.pattern = .error error := by
  have list : (e.run calls).registries.rules.rules =
      (first :: blocks calls e).reverse.flatten := by
    rw [rules_run, started.rules]
    simp
  have opinionated := (started.reachable.run calls).rules_opinionated
  simp only [← list]
  exact ⟨trivial, fun d opinion => RuleRegistry.disposition_eq_ok_iff opinion,
    RuleRegistry.disposition_eq_noOpinion_iff opinionated,
    fun error => RuleRegistry.disposition_eq_error_iff⟩

/-- All of the shop but its till is shared. The entry that includes it honours
transient fields and restocks what is loaded. -/
def shop : Settings where
  policy :=
    { includeBuiltins := false
      instrumentedClasses :=
        [{ kind := .inclusion, expression := "shop.*", honorTransient := true,
            onLoad := some (.method "restock") },
          { kind := .exclusion, expression := "shop.Till" }] }

def crate : TypeDescriptor := .named (TypeName.ofString "shop.Crate")

def shelf : TypeDescriptor := .named (TypeName.ofString "shop.Shelf")

def forklift : TypeDescriptor := .named (TypeName.ofString "yard.Forklift")

/-- The yard is added with its locks, then a pattern that cannot be read, and a
block. -/
def shopCalls : List AnyCall := [
  ⟨.includeAndLock forklift "yard.*" {} "* yard.*.*(..)"⟩, ⟨.addExclude "yard.("⟩,
  ⟨.addRules [.excluding "shop.Crate", .including "shop.C*" {}]⟩]

/-- What the settings say of the shop. -/
def restocked : IncludeAttributes := { honorTransient := true, onLoad := .method "restock" }

theorem shop_in_blocks :
    let later := ((bootstrap shop .missing).2.run shopCalls).registries.rules
    (bootstrap shop .missing).2.registries.rules.disposition shelf = .ok (.included restocked) ∧
    later.rules = [.excluding "shop.Crate", .including "shop.C*" {}, .excluding "yard.(",
      .including "yard.*" {}, .including "shop.*" restocked, .excluding "shop.Till"] ∧
    later.disposition crate = .ok .excluded ∧
    later.disposition forklift = .error (.malformed "yard.(" (.illegalCharacter '(')) := by
  have booted : (bootstrap shop .missing).1 = .ok () := by decide +kernel
  have first := (rules_in_blocks (.bootstrapped booted) [] shelf).2.1 (.included restocked)
  have rules := rules_in_blocks (.bootstrapped booted) shopCalls
  have listed : (shop.policy.block ::
      blocks shopCalls (bootstrap shop .missing).2).reverse.flatten =
      [.excluding "shop.Crate", .including "shop.C*" {}, .excluding "yard.(",
        .including "yard.*" {}, .including "shop.*" restocked, .excluding "shop.Till"] := by
    decide +kernel
  rw [listed] at rules
  have included : matchType "shop.*" shelf = .ok true := by decide +kernel
  have hit : matchType "shop.Crate" crate = .ok true := by decide +kernel
  have missed : ∀ rule ∈ [Rule.excluding "shop.Crate", .including "shop.C*" {}],
      matchType rule.pattern forklift = .ok false := by decide +kernel
  refine ⟨(first nofun).2 ⟨[], .including "shop.*" restocked, _, rfl, by simp,
    matchType_eq_ok_iff.1 included, rfl⟩, (rules crate).1, ?_, ?_⟩
  · exact ((rules crate).2.1 _ (by decide)).2
      ⟨[], .excluding "shop.Crate", _, rfl, by simp, matchType_eq_ok_iff.1 hit, rfl⟩
  · refine ((rules forklift).2.2.2 _).2 ⟨[.excluding "shop.Crate", .including "shop.C*" {}],
      .excluding "yard.(", _, rfl, fun rule member => ?_, by decide +kernel⟩
    exact matchType_eq_ok_iff.1 (missed rule member)

end Engine

end ClassPolicy
