import ClassPolicy.Proofs.RegistrationSteps
import Mathlib.Tactic.Common

/-!
# Registrations that fail

A registration that fails leaves the engine as it was, with one exception. A
type without a spec that is moved under a type that is not logical keeps the
empty spec made for it. No new generation starts then, so a decision already
remembered on the type stands, while a fresh one accepts it for its spec.
-/

set_option autoImplicit false

namespace ClassPolicy

namespace Call

/-- The registrations of rules, specs, roots, transient fields and locks. -/
def isRegistration {α : Type} : Call α → Bool
  | .addInclude _ _ => true
  | .addExclude _ => true
  | .addRules _ => true
  | .includeAndLock _ _ _ _ => true
  | .addSpec _ _ => true
  | .addSpecIfAbsent _ _ => true
  | .moveToLogical _ _ => true
  | .addRoot _ _ => true
  | .addRootForField _ _ => true
  | .addTransient _ _ => true
  | .addLock _ _ => true
  | .addAutolock _ _ _ => true
  | _ => false

end Call

namespace Engine

/-- A failure changes nothing. -/
def Intact {α : Type} (e : Engine) (outcome : Outcome α) : Prop :=
  ∀ failure, outcome.1 = .error failure → outcome.2 = e

theorem intact_of_ok {α : Type} (e e' : Engine) (answer : α) : Intact e (.ok answer, e') := nofun

theorem intact_of_same {α : Type} (e : Engine) (answer : Except Failure α) :
    Intact e (answer, e) := fun _ _ => rfl

theorem addRules_intact (block : List Rule) (e : Engine) : Intact e (e.addRules block) := by
  unfold addRules
  split
  · exact intact_of_ok e _ _
  · split
    · exact intact_of_same e _
    · exact intact_of_ok e _ _

theorem includeAndLock_intact (ty : TypeDescriptor) (pattern : String)
    (attributes : IncludeAttributes) (lockPattern : String) (e : Engine) :
    Intact e (e.includeAndLock ty pattern attributes lockPattern) := by
  rw [includeAndLock_eq]
  split
  · exact intact_of_same e _
  · split
    · exact intact_of_same e _
    · exact intact_of_ok e _ _
    · exact intact_of_same e _

theorem addSpec_intact (partition : Partition) (spec : ClassSpec) (e : Engine) :
    Intact e (e.addSpec partition spec) := by
  unfold addSpec
  split
  · exact intact_of_same e _
  · exact intact_of_ok e _ _

theorem addSpecIfAbsent_intact (partition : Partition) (spec : ClassSpec) (e : Engine) :
    Intact e (e.addSpecIfAbsent partition spec) := by
  have added := addSpec_intact partition spec e
  unfold addSpecIfAbsent
  split
  · exact intact_of_same e _
  · exact intact_of_same e _
  · rcases found : e.addSpec partition spec with ⟨failure | _, e'⟩
    · rw [thenWith_of_error found]
      rw [found] at added
      exact fun _ _ => added _ rfl
    · rw [thenWith_of_ok found]
      exact intact_of_ok _ _ _

theorem addRoot_intact (root : RootDefinition) (createSpec : Bool) (e : Engine) :
    Intact e (e.addRoot root createSpec) := by
  unfold addRoot
  split
  · exact intact_of_same e _
  · exact intact_of_ok e _ _

theorem addRootForField_intact (qualified : String) (rootName : Option String) (e : Engine) :
    Intact e (e.addRootForField qualified rootName) := by
  unfold addRootForField
  split
  · exact intact_of_same e _
  · exact addRoot_intact _ false e

theorem addTransient_intact (typeName field : String) (e : Engine) :
    Intact e (e.addTransient typeName field) := by
  unfold addTransient
  split
  · exact intact_of_same e _
  · exact intact_of_ok e _ _

theorem addLock_intact (pattern : String) (definition : LockDefinition) (e : Engine) :
    Intact e (e.addLock pattern definition) := by
  unfold addLock
  split
  · exact intact_of_same e _
  · exact intact_of_ok e _ _

theorem addAutolock_intact (pattern : String) (level : LockLevel) (provenance : Option String)
    (e : Engine) : Intact e (e.addAutolock pattern level provenance) := by
  rw [addAutolock_eq]
  exact intact_of_ok e _ _

theorem leftBy_of_failed_move {name superName : String} {e : Engine} {failure : Failure}
    (failed : (e.moveToLogical name superName).1 = .error failure) :
    (e.moveToLogical name superName).2 = e.leftBy (.moveToLogical name superName) := by
  rcases moveToLogical_cases name superName e with ⟨-, superSpec, done⟩ | ⟨_, left⟩
  · rw [done] at failed
    cases failed
  · rw [left]

theorem leftBy_of_failed {α : Type} {c : Call α} {e : Engine} {failure : Failure}
    (registration : c.isRegistration = true) (failed : (e.perform c).1 = .error failure) :
    (e.perform c).2 = e.leftBy c := by
  cases c with
  | addInclude pattern attributes => cases failed
  | addExclude pattern => cases failed
  | addRules block => exact addRules_intact block e failure failed
  | includeAndLock ty pattern attributes lockPattern =>
    exact includeAndLock_intact ty pattern attributes lockPattern e failure failed
  | addSpec partition spec => exact addSpec_intact partition spec e failure failed
  | addSpecIfAbsent partition spec => exact addSpecIfAbsent_intact partition spec e failure failed
  | moveToLogical name superName => exact leftBy_of_failed_move failed
  | addRoot root createSpec => exact addRoot_intact root createSpec e failure failed
  | addRootForField qualified rootName =>
    exact addRootForField_intact qualified rootName e failure failed
  | addTransient typeName field => exact addTransient_intact typeName field e failure failed
  | addLock pattern definition => exact addLock_intact pattern definition e failure failed
  | addAutolock pattern level provenance =>
    exact addAutolock_intact pattern level provenance e failure failed
  | _ => cases registration

theorem registries_strand_ne {name : TypeName} {e : Engine}
    (absent : e.registries.specs.get? name = none) :
    (e.strand name).registries ≠ e.registries := by
  intro same
  have stray : (e.strand name).registries.specs.get? name = some (.ofName name) := by
    simp [strand, adjust, SpecStore.get?_put_of_absent absent]
  rw [same, absent] at stray
  cases stray

/-- A registration that fails leaves the engine, its registries, its memory
and its generation, as it was, exactly unless it strands a spec; then it leaves
that spec and nothing else. -/
theorem failed_registration {α : Type} {c : Call α} {e : Engine} {failure : Failure}
    (registration : c.isRegistration = true) (failed : (e.perform c).1 = .error failure) :
    ((e.perform c).2 = e ↔ c.strands e.registries = none) ∧
      ∀ name, c.strands e.registries = some name →
        (e.perform c).2 = e.strand name ∧ (e.perform c).2.registries ≠ e.registries := by
  rw [leftBy_of_failed registration failed]
  unfold leftBy
  cases stranded : c.strands e.registries with
  | none => exact ⟨by simp, nofun⟩
  | some name =>
    have changed : (e.strand name).registries ≠ e.registries :=
      registries_strand_ne (Call.absent_of_strands stranded)
    constructor
    · exact ⟨fun same => absurd (congrArg registries same) changed, nofun⟩
    · rintro _ ⟨⟩
      exact ⟨rfl, changed⟩

/-- An engine with a spec that is not logical. -/
def plainBase : Engine :=
  (ofOptions {}).run [⟨.addSpec .live (.ofName (TypeName.ofString "acme.Base"))⟩]

theorem failed_registration_of_stray :
    (plainBase.perform (.moveToLogical "acme.Stray" "acme.Base")).2 ≠ plainBase ∧
      (plainBase.perform (.moveToLogical "acme.Missing" "acme.None")).2 = plainBase := by
  have notLogical : (plainBase.perform (.moveToLogical "acme.Stray" "acme.Base")).1 =
      .error (.error (.logicalMove
        (.notLogical (TypeName.ofString "acme.Stray") (TypeName.ofString "acme.Base")))) := by
    decide +kernel
  have noSpec : (plainBase.perform (.moveToLogical "acme.Missing" "acme.None")).1 =
      .error (.error (.logicalMove (.noSpec "acme.None"))) := by
    decide +kernel
  constructor
  · exact fun same => absurd ((failed_registration rfl notLogical).1.1 same) (by decide +kernel)
  · exact (failed_registration rfl noSpec).1.2 (by decide +kernel)

/-- The stray spec changes the registries, and with them a later answer. -/
theorem failed_move_changes_answer :
    (plainBase.perform (.moveToLogical "acme.Stray" "acme.Base")).1.isOk = false ∧
      (plainBase.perform (.moveToLogical "acme.Stray" "acme.Base")).2.registries ≠
        plainBase.registries ∧
      (plainBase.perform (.explain (.named (TypeName.ofString "acme.Stray")))).1 =
        .ok (.refuse .noMatchingRule) ∧
      ((plainBase.perform (.moveToLogical "acme.Stray" "acme.Base")).2.perform
          (.explain (.named (TypeName.ofString "acme.Stray")))).1 =
        .ok (.accept .explicitSpec) := by
  decide +kernel

end Engine

end ClassPolicy
