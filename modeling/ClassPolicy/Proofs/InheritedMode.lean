import ClassPolicy.Proofs.BundleAgreement
import ClassPolicy.Proofs.CacheCoherence
import ClassPolicy.Proofs.Sequencing

/-!
# What the ancestors leave of the mode

A type that is accepted without being included, logical or given a mode of its
own is adaptable only when one of its ancestors is, or when one of them is not
portable. An ancestor is known by its name and the rest of the chain: a
pattern that would match it by one of its interfaces does not reach the types
below it.
-/

set_option autoImplicit false

namespace ClassPolicy

namespace RuleRegistry

/-- A non-portable pattern matches the name or, when it takes in subtypes, one
of the names above it. -/
def NotPortable (r : RuleRegistry) (name : TypeName) (above : List TypeName) : Prop :=
  ∃ pattern ∈ r.nonPortable, ∃ p, TypePattern.compile pattern = .ok p ∧
    (p.matchesName name.text = true ∨
      p.subtypes = true ∧ ∃ super ∈ above, p.matchesName super.text = true)

/-- Every non-portable pattern is well-formed. -/
def NonPortableAccepted (r : RuleRegistry) : Prop :=
  ∀ pattern ∈ r.nonPortable, ∃ p, TypePattern.compile pattern = .ok p

theorem anyMatches_of_accepted {ty : TypeDescriptor} {patterns : List String}
    (accepted : ∀ pattern ∈ patterns, ∃ p, TypePattern.compile pattern = .ok p) :
    ∃ found, anyMatches ty patterns = .ok found ∧
      (found = true ↔ ∃ pattern ∈ patterns, matchType pattern ty = .ok true) := by
  induction patterns with
  | nil => exact ⟨false, rfl, by simp⟩
  | cons pattern rest ih =>
    obtain ⟨⟨p, compiled⟩, later⟩ := List.forall_mem_cons.1 accepted
    obtain ⟨found, answered, means⟩ := ih later
    have here : matchType pattern ty = .ok (p.matchesType ty) := matchType_of_read compiled ty
    cases matched : p.matchesType ty with
    | true =>
      rw [matched] at here
      exact ⟨true, by simp [anyMatches, here], by simp [here]⟩
    | false =>
      rw [matched] at here
      exact ⟨found, by simpa [anyMatches, here] using answered, by simp [here, means]⟩

theorem notPortable_iff {r : RuleRegistry} {ty : TypeDescriptor} :
    r.NotPortable ty.name (ty.ancestors ++ ty.interfaces) ↔
      ∃ pattern ∈ r.nonPortable, matchType pattern ty = .ok true := by
  refine exists_congr fun pattern => and_congr_right fun _ => ?_
  cases compiled : TypePattern.compile pattern with
  | error e => simp [matchType, compiled, Except.map]
  | ok p => simp [matchType, compiled, Except.map, TypePattern.matchesType, or_and_right, exists_or]

instance (r : RuleRegistry) (name : TypeName) (above : List TypeName) :
    Decidable (r.NotPortable name above) :=
  decidable_of_iff
    (∃ pattern ∈ r.nonPortable,
      matchType pattern { TypeDescriptor.named name with ancestors := above } = .ok true)
    (by simp [← notPortable_iff, TypeDescriptor.named])

/-- With well-formed patterns the question about portability is answered, by
the name, the ancestors and the interfaces. -/
theorem isNonPortable_of_accepted {r : RuleRegistry} (accepted : r.NonPortableAccepted)
    (ty : TypeDescriptor) :
    ∃ found, r.isNonPortable ty = .ok found ∧
      (found = true ↔ r.NotPortable ty.name (ty.ancestors ++ ty.interfaces)) := by
  simp only [notPortable_iff]
  exact anyMatches_of_accepted accepted

end RuleRegistry

namespace Registries

/-- One of the ancestors is adaptable only by its own spec, or is not portable
by its name or the ancestors that follow. -/
def Limited (r : Registries) (chain : List TypeName) : Prop :=
  ∃ nearer name above, chain = nearer ++ name :: above ∧
    (r.explicitMode name = .adaptableOnly ∨ r.rules.NotPortable name above)

theorem not_limited_nil (r : Registries) : ¬ r.Limited [] := by
  rintro ⟨nearer, name, above, chain, -⟩
  simp at chain

theorem limited_cons_iff {r : Registries} {name : TypeName} {above : List TypeName} :
    r.Limited (name :: above) ↔
      (r.explicitMode name = .adaptableOnly ∨ r.rules.NotPortable name above) ∨
        r.Limited above := by
  constructor
  · rintro ⟨nearer, other, rest, chain, limits⟩
    cases nearer with
    | nil =>
      cases chain
      exact .inl limits
    | cons first nearer =>
      cases chain
      exact .inr ⟨nearer, other, rest, rfl, limits⟩
  · rintro (limits | ⟨nearer, other, rest, rfl, limits⟩)
    · exact ⟨[], name, above, rfl, limits⟩
    · exact ⟨name :: nearer, other, rest, rfl, limits⟩

instance decidableLimited (r : Registries) : (chain : List TypeName) → Decidable (r.Limited chain)
  | [] => .isFalse r.not_limited_nil
  | _ :: above =>
    have := decidableLimited r above
    decidable_of_iff _ limited_cons_iff.symm

theorem inherited_of_accepted {r : Registries} (accepted : r.rules.NonPortableAccepted)
    (chain : List TypeName) :
    (r.Limited chain →
      r.modeFacts.inherited (TypeDescriptor.ancestorsAlone chain) = .ok .adaptableOnly) ∧
    (¬ r.Limited chain →
      r.modeFacts.inherited (TypeDescriptor.ancestorsAlone chain) = .ok .fullyTransformable) := by
  induction chain with
  | nil => exact ⟨fun limited => absurd limited r.not_limited_nil, fun _ => rfl⟩
  | cons name above ih =>
    let alone : TypeDescriptor := { TypeDescriptor.named name with ancestors := above }
    obtain ⟨found, answered, means⟩ := RuleRegistry.isNonPortable_of_accepted accepted alone
    have barred : found = true ↔ r.rules.NotPortable name above := by
      simpa [alone, TypeDescriptor.named] using means
    have first : TypeDescriptor.ancestorsAlone (name :: above) =
        alone :: TypeDescriptor.ancestorsAlone above := rfl
    have mode : r.modeFacts.explicitMode alone.name = r.explicitMode name := rfl
    have asked : r.modeFacts.isNonPortable alone = .ok found := answered
    rw [limited_cons_iff, first, ModeFacts.inherited_cons, mode, asked]
    by_cases own : r.explicitMode name = .adaptableOnly
    · simp [own]
    · rw [if_neg own]
      cases found with
      | true => simp [barred.1 rfl]
      | false =>
        have portable : ¬ r.rules.NotPortable name above := by simp [← barred]
        simpa [own, portable] using ih

/-- The mode of an accepted type about which only its ancestors say anything. -/
theorem mode_of_derived {r : Registries} {ty : TypeDescriptor} (concrete : ty.isInterface = false)
    (unset : r.explicitMode ty.name = .unset) (plain : r.isLogical ty.name = false)
    (apart : r.isIncluded ty = .ok false) :
    r.mode ty true = r.modeFacts.inherited (TypeDescriptor.ancestorsAlone ty.ancestors) := by
  simp [mode, ModeFacts.decide_eq, modeFacts, concrete, unset, plain, apart, TransformMode.isSet]

/-- The spec left behind by a failing move says nothing of the mode. -/
theorem modeFacts_strand {r : Registries} {name : TypeName} (absent : r.specs.get? name = none) :
    modeFacts { r with specs := r.specs.put .live name (.ofName name) } = r.modeFacts := by
  have look := SpecStore.get?_put_of_absent absent .live (.ofName name)
  have modes : explicitMode { r with specs := r.specs.put .live name (.ofName name) } =
      r.explicitMode := by
    funext other
    unfold explicitMode
    rw [look]
    by_cases same : other = name
    · subst same
      rw [if_pos rfl, absent]
      rfl
    · rw [if_neg same]
  have logical : isLogical { r with specs := r.specs.put .live name (.ofName name) } =
      r.isLogical := by
    funext other
    unfold isLogical
    rw [look]
    by_cases same : other = name
    · subst same
      rw [if_pos rfl, absent]
      rfl
    · rw [if_neg same]
  simp only [modeFacts, modes, logical]
  rfl

end Registries

namespace Engine

variable {asked : TypeDescriptor → Prop} {ty : TypeDescriptor}

/-- A remembered mode goes with the remembered decision. -/
def ModeKept (ty : TypeDescriptor) (e : Engine) : Prop :=
  ∀ mode, e.cache.mode? ty.name e.generation = some mode →
    ∃ decision, e.cache.decision? ty.name e.generation = some decision ∧
      e.registries.mode ty decision.transformable = .ok mode

theorem step_modeKept (one : ∀ ty', asked ty' → ty'.name = ty.name → ty' = ty) (e e' : Engine)
    (step : Step asked True e e') (kept : ModeKept ty e) : ModeKept ty e' := by
  intro mode known
  cases step with
  | registered changes => cases known
  | adjusted change =>
    obtain ⟨decision, stored, found⟩ := kept mode known
    refine ⟨decision, stored, ?_⟩
    rw [Registries.mode, change.modeFacts_eq]
    exact found
  | stranded allowed absent =>
    obtain ⟨decision, stored, found⟩ := kept mode known
    refine ⟨decision, stored, ?_⟩
    simp only [strand, adjust, Registries.mode, Registries.modeFacts_strand absent]
    exact found
  | @decided ty₀ decision₀ ask₀ unknown₀ found₀ =>
    rw [generation_rememberDecision, mode?_rememberDecision] at known
    obtain ⟨decision, stored, found⟩ := kept mode known
    have other : ty.name ≠ ty₀.name := by
      intro same
      rw [same, unknown₀] at stored
      cases stored
    refine ⟨decision, ?_, by rw [registries_rememberDecision]; exact found⟩
    rw [generation_rememberDecision, decision?_rememberDecision, if_neg other]
    exact stored
  | @moded ty₀ decision₀ mode₀ ask₀ known₀ found₀ =>
    rw [generation_rememberMode, mode?_rememberMode] at known
    rw [registries_rememberMode, generation_rememberMode, decision?_rememberMode]
    split at known
    · rename_i same
      cases one ty₀ ask₀ same.symm
      cases known
      exact ⟨decision₀, known₀, found₀⟩
    · exact kept mode known
  | reported diagnostics => exact kept mode known

theorem ReachableAsking.modeKept {e : Engine}
    (reached : ReachableAsking (fun ty' => ty'.name = ty.name → ty' = ty) e) : ModeKept ty e :=
  reached.invariant (fun _ _ => nofun) (step_modeKept fun _ ask same => ask same)

theorem explain_keeps_mode (ty : TypeDescriptor) (e : Engine) (name : TypeName) :
    (e.explain ty).2.cache.mode? name (e.explain ty).2.generation =
      e.cache.mode? name e.generation := by
  unfold explain
  split
  · rfl
  · split
    · rfl
    · rw [generation_rememberDecision, mode?_rememberDecision]

theorem modeFor_of_transformable {e : Engine} (kept : ModeKept ty e)
    (transformable : (e.isTransformable ty).1 = .ok true) :
    (e.modeFor ty).1 = e.registries.mode ty true := by
  unfold isTransformable at transformable
  cases known : e.cache.mode? ty.name e.generation with
  | some mode =>
    obtain ⟨decision, stored, found⟩ := kept mode known
    rw [explain_of_known stored] at transformable
    have accepted : decision.transformable = true := by simpa [Except.map] using transformable
    rw [modeFor_of_known known, ← found, accepted]
  | none =>
    have left := explain_registries ty e
    have unknown := explain_keeps_mode ty e ty.name
    rw [known] at unknown
    unfold modeFor
    rw [known]
    generalize e.explain ty = explained at transformable left unknown ⊢
    obtain ⟨answer, e₁⟩ := explained
    cases answer with
    | error error => simp [Except.map] at transformable
    | ok decision =>
      have accepted : decision.transformable = true := by simpa [Except.map] using transformable
      simp only at left unknown
      simp only [accepted, modeGiven, unknown, left]
      split
      · rename_i found
        exact found.symm
      · rename_i found
        exact found.symm

/-- A type below one that is not portable is adaptable only when the pattern
says so of the upper type by its name or by an ancestor of it. When the pattern
reaches the upper type by an interface alone, the mode is what the chain of
ancestors leaves without it. The memory is kept by name, so the name of the
lower type must have been asked about with this descriptor only. -/
theorem mode_below_nonPortable {c b : TypeDescriptor} {nearer : List TypeName} {e : Engine}
    (reached : ReachableAsking (fun ty => ty.name = c.name → ty = c) e)
    (accepted : e.registries.rules.NonPortableAccepted)
    (chain : c.ancestors = nearer ++ b.name :: b.ancestors)
    (barred : e.registries.rules.isNonPortable b = .ok true)
    (transformable : (e.isTransformable c).1 = .ok true) (concrete : c.isInterface = false)
    (unset : e.registries.explicitMode c.name = .unset)
    (plain : e.registries.isLogical c.name = false)
    (apart : e.registries.isIncluded c = .ok false) :
    (e.registries.rules.NotPortable b.name b.ancestors →
      (e.modeFor c).1 = .ok .adaptableOnly) ∧
    (¬ e.registries.rules.NotPortable b.name b.ancestors →
      (∃ pattern ∈ e.registries.rules.nonPortable, ∃ p, TypePattern.compile pattern = .ok p ∧
        p.subtypes = true ∧ ∃ face ∈ b.interfaces, p.matchesName face.text = true) ∧
      ((e.modeFor c).1 = .ok .adaptableOnly ↔ e.registries.Limited c.ancestors) ∧
      ((e.modeFor c).1 = .ok .fullyTransformable ↔ ¬ e.registries.Limited c.ancestors)) := by
  have derived : (e.modeFor c).1 =
      e.registries.modeFacts.inherited (TypeDescriptor.ancestorsAlone c.ancestors) := by
    rw [modeFor_of_transformable reached.modeKept transformable]
    exact Registries.mode_of_derived concrete unset plain apart
  obtain ⟨limited, free⟩ := Registries.inherited_of_accepted accepted c.ancestors
  rw [← derived] at limited free
  constructor
  · intro above
    exact limited ⟨nearer, b.name, b.ancestors, chain, .inr above⟩
  · intro within
    refine ⟨?_, ⟨fun answer => ?_, limited⟩, ⟨fun answer => ?_, free⟩⟩
    · obtain ⟨found, answered, means⟩ := RuleRegistry.isNonPortable_of_accepted accepted b
      rw [barred] at answered
      cases answered
      obtain ⟨pattern, listed, p, compiled, matched⟩ := means.1 rfl
      rcases matched with name | ⟨subtypes, super, member, matched⟩
      · exact absurd ⟨pattern, listed, p, compiled, .inl name⟩ within
      · rcases List.mem_append.1 member with ancestor | face
        · exact absurd ⟨pattern, listed, p, compiled, .inr ⟨subtypes, super, ancestor, matched⟩⟩
            within
        · exact ⟨pattern, listed, p, compiled, subtypes, super, face, matched⟩
    · by_contra none
      rw [free none] at answer
      cases answer
    · intro some
      rw [limited some] at answer
      cases answer

/-- Types without rules for them, under a servlet that is not portable by its
name and under a base type that is not by its interface. -/
def servletsBarred : Engine := (ofOptions {}).run [
  ⟨.addNonPortable "acme.Marker+"⟩, ⟨.addNonPortable "acme.Servlet"⟩,
  ⟨.getOrCreateSpec "acme.Login"⟩, ⟨.getOrCreateSpec "acme.Child"⟩]

def servlet : TypeDescriptor := .named (TypeName.ofString "acme.Servlet")

def login : TypeDescriptor :=
  { TypeDescriptor.named (TypeName.ofString "acme.Login") with
    ancestors := [TypeName.ofString "acme.HttpServlet", servlet.name] }

def markedBase : TypeDescriptor :=
  { TypeDescriptor.named (TypeName.ofString "acme.Base") with
    interfaces := [TypeName.ofString "acme.Marker"] }

def markedChild : TypeDescriptor :=
  { TypeDescriptor.named (TypeName.ofString "acme.Child") with
    ancestors := [markedBase.name]
    interfaces := [TypeName.ofString "acme.Marker"] }

theorem servletsBarred_accepted : servletsBarred.registries.rules.NonPortableAccepted := by
  have listed : servletsBarred.registries.rules.nonPortable = ["acme.Servlet", "acme.Marker+"] := by
    decide +kernel
  intro pattern member
  rw [listed] at member
  have compiled : ∀ pattern ∈ ["acme.Servlet", "acme.Marker+"],
      (TypePattern.compile pattern).isOk = true := by decide +kernel
  exact isOk_iff.1 (compiled pattern member)

theorem login_and_markedChild_modes :
    (servletsBarred.modeFor login).1 = .ok .adaptableOnly ∧
      (servletsBarred.modeFor markedChild).1 = .ok .fullyTransformable := by
  have reached (ty : TypeDescriptor) :
      ReachableAsking (fun ty' => ty'.name = ty.name → ty' = ty) servletsBarred :=
    (ReachableAsking.fresh {}).run _ nofun
  constructor
  · have chain : login.ancestors =
        [TypeName.ofString "acme.HttpServlet"] ++ servlet.name :: servlet.ancestors := rfl
    have settled := mode_below_nonPortable (reached login) servletsBarred_accepted chain
      (by decide +kernel) (by decide +kernel) (by decide +kernel) (by decide +kernel)
      (by decide +kernel) (by decide +kernel)
    exact settled.1 (by decide +kernel)
  · have chain : markedChild.ancestors = [] ++ markedBase.name :: markedBase.ancestors := rfl
    have settled := mode_below_nonPortable (reached markedChild) servletsBarred_accepted chain
      (by decide +kernel) (by decide +kernel) (by decide +kernel) (by decide +kernel)
      (by decide +kernel) (by decide +kernel)
    exact (settled.2 (by decide +kernel)).2.2.2 (by decide +kernel)

/-- A base type that is not portable by an interface leaves a subtype that has
the interface too fully transformable. -/
theorem marker_not_inherited :
    Reachable servletsBarred ∧ servletsBarred.registries.rules.NonPortableAccepted ∧
      markedChild.ancestors = markedBase.name :: markedBase.ancestors ∧
      markedBase.interfaces ⊆ markedChild.interfaces ∧
      servletsBarred.registries.rules.isNonPortable markedBase = .ok true ∧
      (servletsBarred.isTransformable markedChild).1 = .ok true ∧
      markedChild.isInterface = false ∧
      servletsBarred.registries.explicitMode markedChild.name = .unset ∧
      servletsBarred.registries.isLogical markedChild.name = false ∧
      servletsBarred.registries.isIncluded markedChild = .ok false ∧
      (servletsBarred.modeFor markedChild).1 = .ok .fullyTransformable := by
  refine ⟨(Reachable.fresh {}).run _, servletsBarred_accepted, rfl, List.Subset.refl _, ?_⟩
  decide +kernel

end Engine

end ClassPolicy
