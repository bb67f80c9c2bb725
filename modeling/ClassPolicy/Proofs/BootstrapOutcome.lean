import ClassPolicy.Proofs.EngineSpecs
import ClassPolicy.Proofs.PolicyApplication
import Mathlib.Tactic.Common

/-!
# When settings give an engine

The policy has to pass its checks, and then its roots have to be apart: on a
fresh engine, with or without the built-in defaults, no root is there before.
When the settings name a manifest it has to be readable, and complete if that
is asked for. Nothing else can go wrong, and no contract is ever broken.
-/

set_option autoImplicit false

namespace ClassPolicy

/-- Some live spec that the manifest has to list is not listed there. -/
def Manifest.Omits (m : Manifest) (s : SpecStore) : Prop :=
  ∃ spec ∈ s.all false, spec.preInstrumented = true ∧ spec.versionSpecific = false ∧
    spec.name ∉ m.listed

theorem Manifest.ofFile_cases (path : String) (file : FileContent) :
    (∃ manifest, Manifest.ofFile path file = .ok manifest) ∨
      Manifest.ofFile path file = .error (.inventoryUnreadable path) := by
  unfold Manifest.ofFile
  split
  · split
    · exact .inl ⟨_, rfl⟩
    · exact .inr rfl
  · exact .inr rfl

namespace SpecStore

/-- The report is about the live specs alone. -/
theorem verify_congr {s s' : SpecStore} (same : s.live = s'.live) (m : Manifest) :
    s.verify m = s'.verify m := by
  simp only [verify, all, same, Bool.false_eq_true, ↓reduceIte]

theorem verify_missing_eq_nil_iff {s : SpecStore} {m : Manifest} :
    (s.verify m).missing = [] ↔ ¬ m.Omits s := by
  have missing : (s.verify m).missing = [] ↔ ∀ spec ∈ s.all false, spec.versionSpecific = false →
      spec.name ∉ m.listed → spec.preInstrumented = false := by
    simp [verify, Manifest.contains]
  rw [missing, Manifest.Omits]
  constructor
  · rintro complete ⟨spec, member, instrumented, plain, unlisted⟩
    simp [complete spec member plain unlisted] at instrumented
  · intro none spec member plain unlisted
    by_contra instrumented
    exact none ⟨spec, member, by simpa using instrumented, plain, unlisted⟩

theorem requireComplete_verify {s : SpecStore} {m : Manifest} (omits : ¬ m.Omits s) :
    (s.verify m).requireComplete = .ok (s.verify m) := by
  simp [InventoryReport.requireComplete, InventoryReport.isComplete,
    verify_missing_eq_nil_iff.2 omits]

theorem requireComplete_verify_of_omits {s : SpecStore} {m : Manifest} (omits : m.Omits s) :
    (s.verify m).requireComplete = .error (.inventoryIncomplete (s.verify m).missing.length) := by
  have missing : (s.verify m).missing ≠ [] := fun none => verify_missing_eq_nil_iff.1 none omits
  simp [InventoryReport.requireComplete, InventoryReport.isComplete, missing]

end SpecStore

namespace Engine

/-! ### The built-in defaults -/

/-- What the defaults register ahead of their specs. -/
def withDefaults (r : Registries) : Registries :=
  { r with
    rules := { r.rules with
      permanentExcludes := Builtins.permanentExcludes.reverse ++ r.rules.permanentExcludes
      nonPortable := Builtins.nonPortable.reverse ++ r.rules.nonPortable }
    locks :=
      { rules := (Builtins.writeAutolocks.map fun pattern => (⟨pattern,
          .committedAutolock ⟨.write, false⟩ (some Builtins.provenance)⟩ : LockRule)).reverse ++
            r.locks.rules
        autolockExcludes := r.locks.autolockExcludes ++ Builtins.autolockExcludes } }

/-- The patterns and the locks go in, and then the specs that are missing. -/
theorem install_eq (e : Engine) : ∃ e', e'.registries = withDefaults e.registries ∧
    Builtins.install e =
      thenWith (addMissingSpecs .live Builtins.specs) (fun _ e => (.ok (), e)) e' := by
  have patterns : Makes (always fun e =>
      let e := Builtins.permanentExcludes.foldl (fun e pattern => e.addPermanentExclude pattern) e
      let e := Builtins.nonPortable.foldl (fun e pattern => e.addNonPortable pattern) e
      Builtins.autolockExcludes.foldl (fun e pattern => e.addAutolockExclude pattern) e)
      (fun r => { r with
        rules := (withDefaults r).rules
        locks := { r.locks with autolockExcludes := (withDefaults r).locks.autolockExcludes } }) := by
    refine always_makes fun e => ?_
    simp only [registries_autolockExcludes, registries_nonPortable, registries_permanentExcludes,
      withDefaults]
  have locks := addLocks_makes (fun pattern e => addAutolock_eq pattern ⟨.write, false⟩
    (some Builtins.provenance) e) Builtins.writeAutolocks
  obtain ⟨e₁, done₁, left₁⟩ := patterns e
  obtain ⟨e₂, done₂, left₂⟩ := locks e₁
  refine ⟨e₂, by rw [left₂, left₁]; rfl, ?_⟩
  rw [Builtins.install, andThen_of_ok done₁]
  exact andThen_of_ok done₂

/-- Whatever holds of the registries with the patterns and locks of the defaults
and survives each of their specs holds of those with all the defaults. -/
theorem install_along {P : Registries → Prop} {e : Engine} (start : P (withDefaults e.registries))
    (each : ∀ spec ∈ Builtins.specs, ∀ e : Engine, P e.registries →
      P (e.addSpecIfAbsent .live spec).2.registries) : P (Builtins.install e).2.registries := by
  obtain ⟨e', left, done⟩ := install_eq e
  rw [done]
  have specs : P e'.registries → P (e'.addMissingSpecs .live Builtins.specs).2.registries :=
    addMissingSpecs_along (R := fun e e' => P e.registries → P e'.registries) (fun _ => id)
      (fun one two => two ∘ one) each e'
  refine thenWith_along (R := fun e e' => P e.registries → P e'.registries)
    (fun one two => two ∘ one) specs (fun _ _ => id) ?_
  rwa [left]

/-- The defaults hold no include or exclude rules and no roots. -/
theorem registries_install (e : Engine) :
    (Builtins.install e).2.registries.roots = e.registries.roots ∧
      (Builtins.install e).2.registries.rules.rules = e.registries.rules.rules := by
  refine install_along (P := fun r => r.roots = e.registries.roots ∧
    r.rules.rules = e.registries.rules.rules) ⟨rfl, rfl⟩ fun spec _ e same => ?_
  rw [snd_addSpecIfAbsent]
  split <;> exact same

/-- Where every spec is under its own name, the defaults go in without a
violation. -/
theorem install_succeeds {e : Engine} (filed : e.registries.specs.Filed) :
    (Builtins.install e).1 = .ok () := by
  obtain ⟨e', left, done⟩ := install_eq e
  have filed : e'.registries.specs.Filed := by
    rw [left]
    exact filed
  obtain ⟨added, answer⟩ := addMissingSpecs_succeeds filed .live Builtins.specs
  rw [done, thenWith_of_ok (Prod.ext answer rfl)]

/-! ### The inventory -/

/-- Specs that are missing in the inventory are all that a merge adds. -/
theorem mergeInventory_registries (manifest : Manifest) (e : Engine) :
    ∃ inventory, (e.mergeInventory manifest).2.registries = { e.registries with
      specs := { e.registries.specs with inventory } } := by
  refine addMissingSpecs_along (R := fun e e' => ∃ inventory, e'.registries = { e.registries with
    specs := { e.registries.specs with inventory } })
    (fun e => ⟨e.registries.specs.inventory, rfl⟩) ?_ (fun spec _ e => ?_) e
  · rintro e₁ e₂ e₃ ⟨_, first⟩ ⟨inventory, second⟩
    exact ⟨inventory, by rw [second, first]⟩
  · rw [snd_addSpecIfAbsent]
    split
    · exact ⟨e.registries.specs.inventory, rfl⟩
    · exact ⟨e.registries.specs.inventory.insert spec.name.text spec, rfl⟩

theorem mergeInventory_succeeds {e : Engine} (filed : e.registries.specs.Filed)
    (manifest : Manifest) : ∃ added, (e.mergeInventory manifest).1 = .ok added :=
  addMissingSpecs_succeeds filed .inventory _

theorem requireInventory_registries (manifest : Manifest) (e : Engine) :
    (e.requireInventory manifest).2.registries = e.registries := by
  simp only [requireInventory]
  split <;> rfl

/-- The specs of the inventory are all that taking it in adds to the registries. -/
theorem admitInventory_registries (settings : InventorySettings) (file : FileContent)
    (e : Engine) :
    ∃ inventory, (admitInventory settings file e).2.registries = { e.registries with
      specs := { e.registries.specs with inventory } } := by
  have same : ∃ inventory, e.registries = { e.registries with
      specs := { e.registries.specs with inventory } } := ⟨e.registries.specs.inventory, rfl⟩
  unfold admitInventory
  split
  · exact same
  · split
    · exact same
    · rename_i manifest _
      refine thenWith_along (R := fun e e' => ∃ inventory, e'.registries = { e.registries with
        specs := { e.registries.specs with inventory } }) ?_
        (mergeInventory_registries manifest e) fun _ e => ⟨e.registries.specs.inventory, ?_⟩
      · rintro e₁ e₂ e₃ ⟨_, first⟩ ⟨inventory, second⟩
        exact ⟨inventory, by rw [second, first]⟩
      · split
        · exact requireInventory_registries manifest e
        · rfl

/-- How the inventory that settings ask for is taken in. -/
inductive Admitted (settings : InventorySettings) (file : FileContent) (s : SpecStore) :
    Except Failure Unit → Prop
  | unused (unnamed : settings.manifestPath = none) : Admitted settings file s (.ok ())
  | unreadable {path : String} (named : settings.manifestPath = some path)
      (failed : ∀ manifest, Manifest.ofFile path file ≠ .ok manifest) :
      Admitted settings file s (.error (.error (.inventoryUnreadable path)))
  | listed {path : String} {manifest : Manifest} (named : settings.manifestPath = some path)
      (loaded : Manifest.ofFile path file = .ok manifest)
      (complete : settings.verifyOnStart = true → ¬ manifest.Omits s) :
      Admitted settings file s (.ok ())
  | incomplete {path : String} {manifest : Manifest}
      (named : settings.manifestPath = some path)
      (loaded : Manifest.ofFile path file = .ok manifest)
      (verified : settings.verifyOnStart = true) (omits : manifest.Omits s) :
      Admitted settings file s
        (.error (.error (.inventoryIncomplete (s.verify manifest).missing.length)))

/-- The verdict is about the live specs, which taking in the inventory keeps. -/
theorem admitInventory_admitted (settings : InventorySettings) (file : FileContent) {e : Engine}
    {s : SpecStore} (filed : e.registries.specs.Filed)
    (same : e.registries.specs.live = s.live) :
    Admitted settings file s (admitInventory settings file e).1 := by
  unfold admitInventory
  cases named : settings.manifestPath with
  | none => exact .unused named
  | some path =>
    rcases Manifest.ofFile_cases path file with ⟨manifest, loaded⟩ | failed
    · obtain ⟨inventory, merged⟩ := mergeInventory_registries manifest e
      have report : (e.mergeInventory manifest).2.registries.specs.verify manifest =
          s.verify manifest :=
        SpecStore.verify_congr (by rw [merged, same]) manifest
      obtain ⟨added, answer⟩ := mergeInventory_succeeds filed manifest
      simp only [loaded]
      rw [thenWith_of_ok (Prod.ext answer rfl)]
      cases verified : settings.verifyOnStart with
      | false => exact .listed named loaded (by simp [verified])
      | true =>
        simp only [↓reduceIte, requireInventory, verifyInventory, report]
        by_cases omits : manifest.Omits s
        · simp only [SpecStore.requireComplete_verify_of_omits omits]
          exact .incomplete named loaded verified omits
        · simp only [SpecStore.requireComplete_verify omits]
          exact .listed named loaded fun _ => omits
    · simp only [failed, refused]
      exact .unreadable named (by simp [failed])

theorem andThen_reportReady (call : Engine → Outcome Unit) (e : Engine) :
    (andThen call (always reportReady) e).1 = (call e).1 ∧
      (andThen call (always reportReady) e).2.registries = (call e).2.registries := by
  rcases done : call e with ⟨failure | _, e'⟩
  · rw [andThen_of_error done]
    exact ⟨rfl, rfl⟩
  · rw [andThen_of_ok done]
    exact ⟨rfl, rfl⟩

/-! ### The whole -/

/-- How settings end: the checks of the policy come first, its roots second,
and the inventory last. -/
inductive Booted (settings : Settings) (file : FileContent) (s : SpecStore) :
    Except Failure Unit → Prop
  | unsound {error : SettingsError} (unsound : ¬ settings.policy.Sound) :
      Booted settings file s (.error (.error (.settings error)))
  | duplicate {name : TypeName} {field : String} (sound : settings.policy.Sound)
      (together : ¬ RootsApart settings.policy.roots) :
      Booted settings file s (.error (.error (.duplicateRoot name field)))
  | configured {verdict : Except Failure Unit} (sound : settings.policy.Sound)
      (apart : RootsApart settings.policy.roots)
      (admitted : Admitted settings.inventory file s verdict) : Booted settings file s verdict

theorem rootsFree_empty_iff {entries : List RootEntry} :
    RootsFree entries {} ↔ RootsApart entries :=
  ⟨fun free => free.apart, fun apart => ⟨apart, fun _ _ _ _ _ => rfl⟩⟩

/-- The engine on which the policy of the settings is registered. -/
def groundFor (p : PolicySettings) : Engine :=
  let e := ofOptions
    { internalNamespaces := p.internalNamespaces, allowDynamicSubtypes := p.allowDynamicSubtypes }
  if p.includeBuiltins then (Builtins.install e).2 else e

theorem reachable_groundFor (p : PolicySettings) : Reachable (groundFor p) := by
  unfold groundFor
  split
  · exact (Reachable.fresh _).called .installBuiltins
  · exact .fresh _

theorem roots_groundFor (p : PolicySettings) : (groundFor p).registries.roots = {} := by
  cases included : p.includeBuiltins <;> simp [groundFor, included, registries_install, ofOptions]

theorem installed_groundFor (p : PolicySettings) :
    (if p.includeBuiltins then Builtins.install else always id) (ofOptions
      { internalNamespaces := p.internalNamespaces
        allowDynamicSubtypes := p.allowDynamicSubtypes }) = (.ok (), groundFor p) := by
  cases included : p.includeBuiltins with
  | false => simp only [groundFor, included, Bool.false_eq_true, ↓reduceIte, always, id]
  | true =>
    -- by name: comparing the pairs would run the defaults
    have answer := install_succeeds (Reachable.fresh
      { internalNamespaces := p.internalNamespaces
        allowDynamicSubtypes := p.allowDynamicSubtypes }).specs_filed
    simp only [groundFor, included, ↓reduceIte]
    rw [← answer, Prod.eta]

theorem bootstrap_of_sound {settings : Settings} (sound : settings.policy.Sound)
    (file : FileContent) :
    bootstrap settings file = andThen (applyPolicy settings.policy)
      (andThen (admitInventory settings.inventory file) (always reportReady))
      (groundFor settings.policy) := by
  simp only [bootstrap, PolicySettings.validate_eq_ok_iff.2 sound]
  exact andThen_of_ok (installed_groundFor settings.policy)

/-- With a policy that passes its checks it either ends at the roots, or the
whole policy is registered and the inventory has the last word. -/
theorem bootstrap_cases {settings : Settings} (sound : settings.policy.Sound)
    (file : FileContent) :
    (¬ RootsApart settings.policy.roots ∧ ∃ name field roots,
      (bootstrap settings file).1 = .error (.error (.duplicateRoot name field)) ∧
      (bootstrap settings file).2.registries =
        { (groundFor settings.policy).registries.configured settings.policy with roots }) ∨
    (RootsApart settings.policy.roots ∧ ∃ roots, ∃ e : Engine,
      e.registries = Registries.completed settings.policy
        { (groundFor settings.policy).registries.configured settings.policy with roots } ∧
      (bootstrap settings file).1 = (admitInventory settings.inventory file e).1 ∧
      (bootstrap settings file).2.registries =
        (admitInventory settings.inventory file e).2.registries) := by
  have free : RootsFree settings.policy.roots (groundFor settings.policy).registries.roots ↔
      RootsApart settings.policy.roots := by
    rw [roots_groundFor, rootsFree_empty_iff]
  have applied := applyPolicy_applied sound (groundFor settings.policy)
  rw [bootstrap_of_sound sound]
  generalize done : applyPolicy settings.policy (groundFor settings.policy) = outcome at applied
  cases applied with
  | duplicate taken left =>
    rw [andThen_of_error done]
    exact .inl ⟨fun apart => taken (free.2 apart), _, _, _, rfl, left⟩
  | @all e roots rootsFree left =>
    obtain ⟨verdict, kept⟩ := andThen_reportReady (admitInventory settings.inventory file) e
    rw [andThen_of_ok done]
    exact .inr ⟨free.1 rootsFree, roots, e, left, verdict, kept⟩

/-- A policy registers no specs, so the live ones are those that were there before. -/
theorem live_bootstrap {settings : Settings} (sound : settings.policy.Sound)
    (file : FileContent) : (bootstrap settings file).2.registries.specs.live =
      (groundFor settings.policy).registries.specs.live := by
  rcases bootstrap_cases sound file with ⟨-, _, _, _, -, left⟩ | ⟨-, _, e, left, -, kept⟩
  · rw [left]
    rfl
  · obtain ⟨inventory, admitted⟩ := admitInventory_registries settings.inventory file e
    rw [kept, admitted, left]
    simp only [Registries.specs_completed, Registries.configured]

theorem bootstrap_booted (settings : Settings) (file : FileContent) :
    Booted settings file (groundFor settings.policy).registries.specs
      (bootstrap settings file).1 := by
  cases checked : settings.policy.validate with
  | error error =>
    have unsound : ¬ settings.policy.Sound := fun sound => by
      simp [PolicySettings.validate_eq_ok_iff.2 sound] at checked
    simpa only [bootstrap, checked, refused] using .unsound unsound
  | ok _ =>
    have sound := PolicySettings.validate_eq_ok_iff.1 checked
    rcases bootstrap_cases sound file with
      ⟨together, name, field, roots, failed, -⟩ | ⟨apart, roots, e, left, verdict, -⟩
    · rw [failed]
      exact .duplicate sound together
    · rw [verdict]
      have specs : e.registries.specs = (groundFor settings.policy).registries.specs := by
        rw [left, Registries.specs_completed, Registries.configured]
      have filed : e.registries.specs.Filed := by
        rw [specs]
        exact (reachable_groundFor settings.policy).specs_filed
      exact .configured sound apart
        (admitInventory_admitted settings.inventory file filed (congrArg SpecStore.live specs))

/-- An engine that settings give holds the whole policy, and of the rest only
its roots and the specs of the inventory are left open here. -/
theorem registries_bootstrap {settings : Settings} {file : FileContent}
    (booted : (bootstrap settings file).1 = .ok ()) :
    settings.policy.Sound ∧ ∃ roots inventory,
      let whole := Registries.completed settings.policy
        { (groundFor settings.policy).registries.configured settings.policy with roots }
      (bootstrap settings file).2.registries =
        { whole with specs := { whole.specs with inventory } } := by
  have verdict := bootstrap_booted settings file
  rw [booted] at verdict
  obtain - | - | ⟨sound, -, -⟩ := verdict
  refine ⟨sound, ?_⟩
  rcases bootstrap_cases sound file with ⟨-, _, _, _, failed, -⟩ | ⟨-, roots, e, left, -, kept⟩
  · rw [booted] at failed
    cases failed
  · obtain ⟨inventory, admitted⟩ := admitInventory_registries settings.inventory file e
    exact ⟨roots, inventory, by rw [kept, admitted, left]⟩

/-- Settings give an engine exactly when the policy passes its checks, its
roots are apart and the inventory that is asked for is readable and complete.
No contract is broken on the way. The inventory has to list live specs of the
engine, and these are the ones from before the policy. -/
theorem bootstrap_outcome (settings : Settings) (file : FileContent) :
    (settings.policy.Sound → (bootstrap settings file).2.registries.specs.live =
      (groundFor settings.policy).registries.specs.live) ∧
    (∀ violation, (bootstrap settings file).1 ≠ .error (.violation violation)) ∧
    ((∃ error, (bootstrap settings file).1 = .error (.error (.settings error))) ↔
      ¬ settings.policy.Sound) ∧
    ((∃ name field, (bootstrap settings file).1 = .error (.error (.duplicateRoot name field))) ↔
      settings.policy.Sound ∧ ¬ RootsApart settings.policy.roots) ∧
    (settings.inventory.manifestPath = none →
      ((bootstrap settings file).1 = .ok () ↔
        settings.policy.Sound ∧ RootsApart settings.policy.roots) ∧
      (settings.policy.Sound → ∀ failure, (bootstrap settings file).1 = .error failure →
        ∃ name field, failure = .error (.duplicateRoot name field))) ∧
    ∀ path, settings.inventory.manifestPath = some path →
      ((bootstrap settings file).1 = .ok () ↔
        settings.policy.Sound ∧ RootsApart settings.policy.roots ∧
          ∃ manifest, Manifest.ofFile path file = .ok manifest ∧
            (settings.inventory.verifyOnStart = true →
              ¬ manifest.Omits (groundFor settings.policy).registries.specs)) ∧
      ((bootstrap settings file).1 = .error (.error (.inventoryUnreadable path)) ↔
        settings.policy.Sound ∧ RootsApart settings.policy.roots ∧
          ∀ manifest, Manifest.ofFile path file ≠ .ok manifest) ∧
      ((∃ missing, (bootstrap settings file).1 = .error (.error (.inventoryIncomplete missing))) ↔
        settings.policy.Sound ∧ RootsApart settings.policy.roots ∧
          ∃ manifest, Manifest.ofFile path file = .ok manifest ∧
            settings.inventory.verifyOnStart = true ∧
            manifest.Omits (groundFor settings.policy).registries.specs) := by
  refine ⟨fun sound => live_bootstrap sound file, ?_⟩
  have booted := bootstrap_booted settings file
  generalize (groundFor settings.policy).registries.specs = specs at booted ⊢
  generalize (bootstrap settings file).1 = verdict at booted ⊢
  cases booted with
  | unsound unsound => simp [unsound]
  | duplicate sound together => simp [sound, together]
  | configured sound apart admitted =>
    cases admitted with
    | unused unnamed => simp [sound, apart, unnamed]
    | unreadable named failed => simp_all
    | listed named loaded complete => simp_all
    | incomplete named loaded verified omits => simp_all

/-- One root in both spellings. -/
def respelledRoots : PolicySettings where
  includeBuiltins := false
  roots := [{ field := "acme.Main.graph" }, { field := "acme/Main.graph" }]

/-- Settings with an inventory. -/
def stocked : Settings where
  policy := { includeBuiltins := false }
  inventory := { manifestPath := some "inventory.json" }

theorem respelledRoots_denote : ∀ entry ∈ respelledRoots.roots,
    entry.Denotes (TypeName.ofString "acme.Main") "graph" := by
  have same : TypeName.ofString "acme/Main" = TypeName.ofString "acme.Main" := by
    simp [TypeName.ofString, ← String.toList_inj, dotted]
  intro entry member
  simp only [respelledRoots, List.mem_cons, List.not_mem_nil, or_false] at member
  rcases member with rfl | rfl
  · exact ⟨"acme.Main", ⟨by simp, by simp, by simp, by simp⟩, rfl⟩
  · exact ⟨"acme/Main", ⟨by simp, by simp, by simp, by simp⟩, same⟩

/-- The collision shows only once the names are normalized; a good policy still
fails when its manifest is not there. -/
theorem outcome_of_respelled_and_stocked :
    (respelledRoots.Sound ∧ ¬ RootsApart respelledRoots.roots ∧
      (bootstrap { policy := respelledRoots } .missing).1 ≠ .ok () ∧
      ∃ name field, (bootstrap { policy := respelledRoots } .missing).1 =
        .error (.error (.duplicateRoot name field))) ∧
    stocked.policy.Sound ∧ RootsApart stocked.policy.roots ∧
      ∀ manifest, Manifest.ofFile "inventory.json" .missing ≠ .ok manifest := by
  have denote := respelledRoots_denote
  have sound : respelledRoots.Sound := by
    have named : ∀ entry ∈ respelledRoots.roots,
        ∃ owner field, NamesField entry.field owner field := fun entry member =>
      (denote entry member).imp fun _ names => ⟨_, names.1⟩
    constructor <;> first | exact named | exact nofun
  have together : ¬ RootsApart respelledRoots.roots := fun apart =>
    (List.pairwise_cons.1 apart).1 _ List.mem_cons_self _ _ (denote _ List.mem_cons_self)
      (denote _ (List.mem_cons_of_mem _ List.mem_cons_self))
  have outcome := bootstrap_outcome { policy := respelledRoots } .missing
  have refused : (bootstrap { policy := respelledRoots } .missing).1 ≠ .ok () := fun booted =>
    together ((outcome.2.2.2.2.1 rfl).1.1 booted).2
  have listed := (bootstrap_outcome stocked .missing).2.2.2.2.2 "inventory.json" rfl
  exact ⟨⟨sound, together, refused, outcome.2.2.2.1.2 ⟨sound, together⟩⟩, listed.2.1.1 rfl⟩

end Engine

end ClassPolicy
