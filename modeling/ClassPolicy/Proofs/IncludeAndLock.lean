import ClassPolicy.Proofs.RuleOrder

/-!
# Including a type together with its lock

Including a type with a lock is one change or none: when nothing is said of the
type yet, the rule and the autolock go in together under one new generation,
and otherwise the engine stays as it is. Rules are never taken out again, so a
pattern that matches its type gets in once in the life of an engine.
-/

set_option autoImplicit false

namespace ClassPolicy

/-- Nothing is said of the type: it has no spec, and every rule can be read
and misses it. -/
structure Registries.Silent (r : Registries) (ty : TypeDescriptor) : Prop where
  live : r.specs.live.get? ty.name.text = none
  inventory : r.specs.inventory.get? ty.name.text = none
  missed : ∀ rule ∈ r.rules.rules, rule.Misses ty

/-- The autolock that goes in with an include. -/
def includeLock (pattern : String) : LockRule where
  pattern := pattern
  definition :=
    { name := "autolock", level := ⟨.write, false⟩, provenance := some "added with include"
      committed := true }

namespace Engine

section Include

variable {ty : TypeDescriptor} {pattern lockPattern : String} {attributes : IncludeAttributes}
  {e : Engine}

/-- The engine with an include and its lock ahead of all others. -/
def included (pattern : String) (attributes : IncludeAttributes) (lockPattern : String)
    (e : Engine) : Engine :=
  { e with
    registries := { e.registries with
      rules := { e.registries.rules with
        rules := .including pattern attributes :: e.registries.rules.rules }
      locks := { e.registries.locks with
        rules := includeLock lockPattern :: e.registries.locks.rules } }
    cache := e.cache.invalidate }

theorem includeAndLock_of_silent (opinionated : e.registries.rules.Opinionated)
    (silent : e.registries.Silent ty) :
    e.includeAndLock ty pattern attributes lockPattern =
      (.ok true, e.included pattern attributes lockPattern) := by
  have absent : e.registries.specs.contains ty.name = false := by
    simp [SpecStore.contains, SpecStore.get?, silent.live, silent.inventory]
  have unsaid := (RuleRegistry.disposition_eq_noOpinion_iff opinionated).2 silent.missed
  simp only [includeAndLock, absent, Bool.false_eq_true, ↓reduceIte, unsaid]
  rfl

theorem includeAndLock_of_spoken (opinionated : e.registries.rules.Opinionated)
    (spoken : ¬ e.registries.Silent ty) :
    (e.includeAndLock ty pattern attributes lockPattern).1 ≠ .ok true ∧
      (e.includeAndLock ty pattern attributes lockPattern).2 = e := by
  unfold includeAndLock
  split
  · simp
  · rename_i absent
    split
    · simp
    · rename_i unsaid
      have missed := (RuleRegistry.disposition_eq_noOpinion_iff opinionated).1 unsaid
      have free : e.registries.specs.get? ty.name = none := by
        simpa [SpecStore.contains] using absent
      obtain ⟨live, inventory⟩ := SpecStore.get?_eq_none_iff.1 free
      exact absurd ⟨live, inventory, missed⟩ spoken
    · simp

/-- A pattern that matches the type, once included, keeps the type from being
included again, whatever is called in between. -/
theorem includeAndLock_once (reached : Reachable e) (matched : matchType pattern ty = .ok true)
    (done : (e.perform (.includeAndLock ty pattern attributes lockPattern)).1 = .ok true)
    (calls : List AnyCall) (pattern' lockPattern' : String) (attributes' : IncludeAttributes) :
    let later := (e.perform (.includeAndLock ty pattern attributes lockPattern)).2.run calls
    (later.perform (.includeAndLock ty pattern' attributes' lockPattern')).1 ≠ .ok true ∧
      (later.perform (.includeAndLock ty pattern' attributes' lockPattern')).2 = later := by
  intro later
  have reachedLater : Reachable later := (reached.called _).run calls
  have block : (Call.includeAndLock ty pattern attributes lockPattern).block e =
      [.including pattern attributes] := by
    simp only [perform] at done
    simp only [Call.block, done]
  have listed : Rule.including pattern attributes ∈ later.registries.rules.rules := by
    simp [later, rules_run, rules_perform, block]
  have spoken : ¬ later.registries.Silent ty := by
    intro silent
    have missed := matchType_eq_ok_iff.2 (silent.missed _ listed)
    rw [show (Rule.including pattern attributes).pattern = pattern from rfl, matched] at missed
    cases missed
  exact includeAndLock_of_spoken reachedLater.rules_opinionated spoken

/-- Right after it went in the pattern is the first one asked. -/
theorem includeAndLock_included (matched : matchType pattern ty = .ok true) :
    (e.included pattern attributes lockPattern).includeAndLock ty pattern attributes lockPattern =
      (.ok false, e.included pattern attributes lockPattern) := by
  have first : (e.included pattern attributes lockPattern).registries.rules.disposition ty =
      .ok (.included attributes) := by
    simp [RuleRegistry.disposition, RuleRegistry.firstDisposition, included, Rule.including,
      matched]
  unfold includeAndLock
  split
  · rfl
  · simp only [first]

end Include

/-- A call that changes nothing changes nothing when it is repeated. -/
theorem run_replicate_of_still {c : AnyCall} {e : Engine} (still : (e.perform c.call).2 = e)
    (n : Nat) : e.run (List.replicate n c) = e := by
  induction n with
  | zero => rfl
  | succ n ih => rw [List.replicate_succ, run_cons, still, ih]

/-- Including a type with a lock adds the rule and the lock together, and only
when nothing is said of the type. Otherwise nothing changes. Repeated right
after it went in, a pattern that matches the type is not added again. -/
theorem includeAndLock_all_or_nothing {e : Engine} (reached : Reachable e) (ty : TypeDescriptor)
    (pattern : String) (attributes : IncludeAttributes) (lockPattern : String) :
    let call : Call Bool := .includeAndLock ty pattern attributes lockPattern
    let after := (e.perform call).2
    ((e.perform call).1 = .ok true ↔ e.registries.Silent ty) ∧
    ((e.perform call).1 = .ok true →
      after = e.included pattern attributes lockPattern ∧
        after.generation = e.generation + 1) ∧
    ((e.perform call).1 ≠ .ok true → after = e) ∧
    ((e.perform call).1 = .ok true → matchType pattern ty = .ok true → ∀ n,
      after.run (List.replicate n ⟨call⟩) = after ∧
        ((after.run (List.replicate n ⟨call⟩)).perform call).1 = .ok false) := by
  intro call after
  have opinionated := reached.rules_opinionated
  by_cases silent : e.registries.Silent ty
  · have done : e.perform call = (.ok true, e.included pattern attributes lockPattern) :=
      includeAndLock_of_silent opinionated silent
    have left : after = e.included pattern attributes lockPattern := by simp only [after, done]
    refine ⟨by simp [done, silent], fun _ => ⟨left, by rw [left]; rfl⟩, by simp [done], ?_⟩
    intro _ matched n
    have again : after.perform call = (.ok false, after) := by
      rw [left]
      exact includeAndLock_included matched
    have still : (after.perform call).2 = after := by rw [again]
    have repeated : after.run (List.replicate n ⟨call⟩) = after :=
      run_replicate_of_still (c := ⟨call⟩) still n
    rw [repeated, again]
    exact ⟨rfl, rfl⟩
  · have refused : (e.perform call).1 ≠ .ok true ∧ after = e :=
      includeAndLock_of_spoken opinionated silent
    exact ⟨⟨fun done => absurd done refused.1, fun spoken => absurd spoken silent⟩,
      fun done => absurd done refused.1, fun _ => refused.2, fun done => absurd done refused.1⟩

/-- A rule is in the list and a crate has a spec. -/
def yard : Engine := (ofOptions {}).run [⟨.addExclude "shop.Till"⟩, ⟨.getOrCreateSpec "shop.Crate"⟩]

theorem forklift_included_once :
    let call : Call Bool := .includeAndLock forklift "yard.*" {} "* yard.*.*(..)"
    let after := (yard.perform call).2
    after = yard.included "yard.*" {} "* yard.*.*(..)" ∧
      ((after.run (List.replicate 3 ⟨call⟩)).perform call).1 = .ok false ∧
      (yard.perform (.includeAndLock crate "shop.*" {} "* shop.*.*(..)")).2 = yard := by
  have reached : Reachable yard := (Reachable.fresh {}).run _
  have missed : ∀ rule ∈ yard.registries.rules.rules,
      matchType rule.pattern forklift = .ok false := by decide +kernel
  have silent : yard.registries.Silent forklift :=
    ⟨by decide +kernel, by decide +kernel, fun rule member =>
      matchType_eq_ok_iff.1 (missed rule member)⟩
  have matched : matchType "yard.*" forklift = .ok true := by decide +kernel
  have present : ¬ yard.registries.Silent crate := fun silent =>
    absurd silent.live (by decide +kernel)
  obtain ⟨whether, added, -, again⟩ :=
    includeAndLock_all_or_nothing reached forklift "yard.*" {} "* yard.*.*(..)"
  obtain ⟨whether', -, kept, -⟩ :=
    includeAndLock_all_or_nothing reached crate "shop.*" {} "* shop.*.*(..)"
  have done := whether.2 silent
  exact ⟨(added done).1, (again done matched 3).2, kept fun done' => present (whether'.1 done')⟩

end Engine

end ClassPolicy
