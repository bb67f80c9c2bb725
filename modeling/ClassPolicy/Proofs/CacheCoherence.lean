import ClassPolicy.Proofs.MemoryIndependence
import Mathlib.Tactic.Common

/-!
# Coherence of the memory

What is remembered is what the registries give afresh. Every step preserves
this as long as a name stands for one type and no move strands a spec: a new
generation remembers nothing, and a change that starts none changes no
decision. So along a run every answer is the one computed without a memory,
and the questions asked before do not show in it.
-/

set_option autoImplicit false

namespace ClassPolicy

namespace Registries

/-- The mode of a type, computed from the registries alone. -/
def modeOf (r : Registries) (ty : TypeDescriptor) : Except PatternError TransformMode :=
  match r.adaptability ty with
  | .error e => .error e
  | .ok decision => r.mode ty decision.transformable

/-! ### What no decision depends on -/

theorem contains_marked (s : SpecStore) (name : TypeName) :
    s.markAllPreInstrumented.contains name = s.contains name := by
  rcases s.get?_markAllPreInstrumented name with same | marked
  · simp [SpecStore.contains, same]
  · simp [SpecStore.contains, marked]

theorem explicitMode_marked (r : Registries) (name : TypeName) :
    explicitMode { r with specs := r.specs.markAllPreInstrumented } name =
      r.explicitMode name := by
  unfold explicitMode
  rcases r.specs.get?_markAllPreInstrumented name with same | marked
  · rw [same]
  · rw [marked]
    cases r.specs.get? name <;> rfl

theorem isLogical_marked (r : Registries) (name : TypeName) :
    isLogical { r with specs := r.specs.markAllPreInstrumented } name = r.isLogical name := by
  unfold isLogical
  rcases r.specs.get?_markAllPreInstrumented name with same | marked
  · rw [same]
  · rw [marked]
    cases r.specs.get? name <;> rfl

theorem Aside.adaptability_eq {r r' : Registries} (change : r.Aside r') (ty : TypeDescriptor) :
    r'.adaptability ty = r.adaptability ty := by
  cases change with
  | marked =>
    simp only [adaptability, isNestedInLogical, contains_marked, isLogical_marked]
    rfl
  | _ => rfl

theorem Aside.modeFacts_eq {r r' : Registries} (change : r.Aside r') :
    r'.modeFacts = r.modeFacts := by
  cases change with
  | marked =>
    have modes := funext (explicitMode_marked r)
    have logical := funext (isLogical_marked r)
    simp only [modeFacts, modes, logical]
    rfl
  | _ => rfl

theorem Aside.modeOf_eq {r r' : Registries} (change : r.Aside r') (ty : TypeDescriptor) :
    r'.modeOf ty = r.modeOf ty := by
  simp only [modeOf, mode, change.adaptability_eq, change.modeFacts_eq]

end Registries

namespace Call

/-- What a question about a decision or a mode is answered by the registries
alone. -/
def afresh? {α : Type} : Call α → Registries → Option (Except PatternError α)
  | .explain ty, r => some (r.adaptability ty)
  | .isTransformable ty, r => some ((r.adaptability ty).map (·.transformable))
  | .modeFor ty, r => some (r.modeOf ty)
  | _, _ => none

def isMove {α : Type} : Call α → Bool
  | .moveToLogical _ _ => true
  | _ => false

end Call

namespace Engine

/-- What is remembered of the types of which `asked` holds is what the
registries give. -/
structure Coherent (asked : TypeDescriptor → Prop) (e : Engine) : Prop where
  decision : ∀ ty decision, asked ty → e.cache.decision? ty.name e.generation = some decision →
    e.registries.adaptability ty = .ok decision
  mode : ∀ ty mode, asked ty → e.cache.mode? ty.name e.generation = some mode →
    e.registries.modeOf ty = .ok mode

variable {asked : TypeDescriptor → Prop}

theorem coherent_of_forgetful {e : Engine}
    (decisions : ∀ name, e.cache.decision? name e.generation = none)
    (modes : ∀ name, e.cache.mode? name e.generation = none) : Coherent asked e where
  decision ty decision _ found := by simp [decisions] at found
  mode ty mode _ found := by simp [modes] at found

theorem ofOptions_coherent (options : Options) : Coherent asked (ofOptions options) :=
  coherent_of_forgetful (fun _ => rfl) (fun _ => rfl)

/-- The step of the invariant. It needs that no spec is stranded, and that the
types asked about are told apart by their names. -/
theorem step_coherent (apart : ∀ ty ty', asked ty → asked ty' → ty.name = ty'.name → ty = ty')
    (e e' : Engine) (step : Step asked False e e') (coherent : Coherent asked e) :
    Coherent asked e' := by
  cases step with
  | registered changes => exact coherent_of_forgetful (fun _ => rfl) (fun _ => rfl)
  | adjusted change =>
    constructor
    · intro ty decision ask found
      rw [change.adaptability_eq]
      exact coherent.decision ty decision ask found
    · intro ty mode ask found
      rw [change.modeOf_eq]
      exact coherent.mode ty mode ask found
  | stranded allowed => exact allowed.elim
  | @decided ty₀ decision₀ ask₀ unknown₀ found₀ =>
    constructor
    · intro ty decision ask found
      rw [generation_rememberDecision, decision?_rememberDecision] at found
      rw [registries_rememberDecision]
      split at found
      · rename_i same
        cases apart ty ty₀ ask ask₀ same
        cases found
        exact found₀
      · exact coherent.decision ty decision ask found
    · intro ty mode ask found
      rw [generation_rememberDecision, mode?_rememberDecision] at found
      rw [registries_rememberDecision]
      exact coherent.mode ty mode ask found
  | @moded ty₀ decision₀ mode₀ ask₀ known found₀ =>
    constructor
    · intro ty decision ask found
      rw [generation_rememberMode, decision?_rememberMode] at found
      rw [registries_rememberMode]
      exact coherent.decision ty decision ask found
    · intro ty mode ask found
      rw [generation_rememberMode, mode?_rememberMode] at found
      rw [registries_rememberMode]
      split at found
      · rename_i same
        cases apart ty ty₀ ask ask₀ same
        cases found
        rw [Registries.modeOf, coherent.decision ty₀ decision₀ ask₀ known]
        exact found₀
      · exact coherent.mode ty mode ask found
  | reported diagnostics => exact ⟨coherent.decision, coherent.mode⟩

/-! ### Answers of a coherent engine -/

theorem explain_of_coherent {e : Engine} (coherent : Coherent asked e) {ty : TypeDescriptor}
    (ask : asked ty) : (e.explain ty).1 = e.registries.adaptability ty := by
  unfold explain
  split
  · rename_i decision known
    exact (coherent.decision ty decision ask known).symm
  · split
    · rename_i found
      exact found.symm
    · rename_i found
      exact found.symm

theorem modeGiven_of_coherent {e : Engine} (coherent : Coherent asked e) {ty : TypeDescriptor}
    (ask : asked ty) {decision : Adaptability}
    (decided : e.registries.adaptability ty = .ok decision) :
    (e.modeGiven ty decision.transformable).1 = e.registries.modeOf ty := by
  unfold modeGiven
  split
  · rename_i mode known
    exact (coherent.mode ty mode ask known).symm
  · rw [Registries.modeOf, decided]
    split
    · rename_i found
      exact found.symm
    · rename_i found
      exact found.symm

theorem modeFor_of_coherent
    (apart : ∀ ty ty', asked ty → asked ty' → ty.name = ty'.name → ty = ty') {e : Engine}
    (coherent : Coherent asked e) {ty : TypeDescriptor} (ask : asked ty) :
    (e.modeFor ty).1 = e.registries.modeOf ty := by
  have answer := explain_of_coherent coherent ask
  have left := explain_registries ty e
  have after : Coherent asked (e.explain ty).2 :=
    (explain_steps ask e).preserve (step_coherent apart) coherent
  unfold modeFor
  split
  · rename_i mode known
    exact (coherent.mode ty mode ask known).symm
  · split
    · rename_i explained
      rw [explained] at answer
      rw [Registries.modeOf, ← answer]
    · rename_i decision e₁ explained
      rw [explained] at answer left after
      rw [modeGiven_of_coherent after ask (left ▸ answer.symm), left]

theorem perform_of_coherent
    (apart : ∀ ty ty', asked ty → asked ty' → ty.name = ty'.name → ty = ty') {e : Engine}
    (coherent : Coherent asked e) {α : Type} {c : Call α} (ask : ∀ ty, c.asks = some ty → asked ty)
    {answer : Except PatternError α} (afresh : c.afresh? e.registries = some answer) :
    (e.perform c).1 = answer.mapError .ofPattern := by
  cases c with
  | explain ty =>
    cases afresh
    rw [← explain_of_coherent coherent (ask ty rfl)]
    rfl
  | isTransformable ty =>
    cases afresh
    rw [← explain_of_coherent coherent (ask ty rfl)]
    rfl
  | modeFor ty =>
    cases afresh
    rw [← modeFor_of_coherent apart coherent (ask ty rfl)]
    rfl
  | _ => cases afresh

/-! ### Runs -/

/-- Every name is asked about with one and the same descriptor. -/
def OneTypePerName (calls : List AnyCall) : Prop :=
  ∀ ty ∈ typesAsked calls, ∀ ty' ∈ typesAsked calls, ty.name = ty'.name → ty = ty'

/-- Every move of a type under a logical one succeeds when its turn comes. -/
def MovesSucceed : List AnyCall → Engine → Prop
  | [], _ => True
  | c :: rest, e =>
    (c.call.isMove = true → (e.perform c.call).1.isOk = true) ∧
      MovesSucceed rest (e.perform c.call).2

theorem strands_of_move_succeeds {α : Type} {c : Call α} {e : Engine}
    (moved : c.isMove = true → (e.perform c).1.isOk = true) : c.strands e.registries = none := by
  cases c with
  | moveToLogical name superName =>
    have succeeds := moved rfl
    simp only [perform] at succeeds
    rcases moveToLogical_cases name superName e with ⟨plain, -⟩ | ⟨failure, failed⟩
    · exact plain
    · rw [failed] at succeeds
      cases succeeds
  | _ => rfl

theorem MovesSucceed.left {before after : List AnyCall} {e : Engine}
    (moved : MovesSucceed (before ++ after) e) : MovesSucceed before e := by
  induction before generalizing e with
  | nil => trivial
  | cons c rest ih => exact ⟨moved.1, ih moved.2⟩

theorem run_steps_of_moves {calls : List AnyCall} {e : Engine} (moved : MovesSucceed calls e)
    (ask : ∀ ty ∈ typesAsked calls, asked ty) : Steps asked False e (e.run calls) := by
  induction calls generalizing e with
  | nil => exact .refl
  | cons c rest ih =>
    rw [run_cons]
    have first : Steps asked False e (e.perform c.call).2 :=
      perform_steps c.call e (fun ty asks => ask ty (mem_typesAsked List.mem_cons_self asks))
        (fun stranded => stranded (strands_of_move_succeeds moved.1))
    exact first.trans (ih moved.2 fun ty member =>
      ask ty (typesAsked_subset (List.subset_cons_self c rest) member))

/-- An engine that is asked nothing remembers nothing, whatever it strands. -/
theorem unasked_forgetful {e e' : Engine} (steps : Steps (fun _ => False) True e e')
    (forgetful : ∀ name, e.cache.decision? name e.generation = none ∧
      e.cache.mode? name e.generation = none) (name : TypeName) :
    e'.cache.decision? name e'.generation = none ∧ e'.cache.mode? name e'.generation = none := by
  refine steps.preserve (P := fun e => ∀ name, e.cache.decision? name e.generation = none ∧
    e.cache.mode? name e.generation = none) ?_ forgetful name
  intro e e' step forgetful name
  cases step with
  | registered changes => exact ⟨rfl, rfl⟩
  | adjusted change => exact forgetful name
  | stranded allowed absent => exact forgetful name
  | decided ask unknown found => exact ask.elim
  | moded ask known found => exact ask.elim
  | reported diagnostics => exact forgetful name

theorem run_withoutQuestions_steps (calls : List AnyCall) (e : Engine) :
    Steps (fun _ => False) True e (e.run (withoutQuestions calls)) := by
  refine run_steps _ e fun ty member => ?_
  obtain ⟨c, present, asks⟩ := List.mem_filterMap.1 member
  have plain := (List.mem_filter.1 present).2
  simp [asks] at plain

/-- Along a run from any options in which every name stands for one type and
every move succeeds, a question about a decision or a mode gets the very
answer, value or error, that the registries of that moment give afresh, and
the one it would get had nothing been asked before. -/
theorem run_answers_afresh (options : Options) {calls : List AnyCall}
    (one : OneTypePerName calls) (moved : MovesSucceed calls (ofOptions options))
    {before after : List AnyCall} (question : AnyCall)
    (place : calls = before ++ question :: after)
    {answer : Except PatternError question.answer}
    (afresh : question.call.afresh? ((ofOptions options).run before).registries = some answer) :
    (((ofOptions options).run before).perform question.call).1 = answer.mapError .ofPattern ∧
    (((ofOptions options).run (withoutQuestions before)).perform question.call).1 =
      answer.mapError .ofPattern := by
  subst place
  have apart : ∀ ty ty', ty ∈ typesAsked (before ++ question :: after) →
      ty' ∈ typesAsked (before ++ question :: after) → ty.name = ty'.name → ty = ty' :=
    fun ty ty' h h' => one ty h ty' h'
  have ask : ∀ ty, question.call.asks = some ty →
      ty ∈ typesAsked (before ++ question :: after) :=
    fun ty asks => mem_typesAsked (by simp) asks
  constructor
  · have left : typesAsked before ⊆ typesAsked (before ++ question :: after) :=
      typesAsked_subset (List.subset_append_left before _)
    have steps : Steps (· ∈ typesAsked (before ++ question :: after)) False (ofOptions options)
        ((ofOptions options).run before) := run_steps_of_moves moved.left left
    exact perform_of_coherent apart
      (steps.preserve (step_coherent apart) (ofOptions_coherent options)) ask afresh
  · have forgetful := unasked_forgetful (run_withoutQuestions_steps before (ofOptions options))
      fun _ => ⟨rfl, rfl⟩
    rw [run_withoutQuestions before rfl] at afresh
    exact perform_of_coherent apart
      (coherent_of_forgetful (fun name => (forgetful name).1) (fun name => (forgetful name).2))
      ask afresh

def circle : TypeDescriptor := .named (TypeName.ofString "acme.Circle")

/-- A type is asked about, included, asked about again and moved under a
logical type. -/
def circleMoved : List AnyCall := [
  ⟨.explain circle⟩, ⟨.addInclude "acme.*" {}⟩, ⟨.modeFor circle⟩,
  ⟨.getOrCreateLogicalSpec "acme.Shape" "acme.Applicator"⟩,
  ⟨.moveToLogical "acme.Circle" "acme.Shape"⟩]

theorem circleMoved_answers_afresh :
    (((ofOptions {}).run circleMoved).perform (.explain circle)).1 =
        .ok (.accept .explicitSpec) ∧
      (((ofOptions {}).run (withoutQuestions circleMoved)).perform (.explain circle)).1 =
        .ok (.accept .explicitSpec) := by
  have one : OneTypePerName (circleMoved ++ [⟨.explain circle⟩]) := by
    unfold OneTypePerName
    decide +kernel
  have moved : MovesSucceed (circleMoved ++ [⟨.explain circle⟩]) (ofOptions {}) :=
    ⟨nofun, nofun, nofun, nofun, fun _ => by decide +kernel, nofun, trivial⟩
  have afresh : ((ofOptions {}).run circleMoved).registries.adaptability circle =
      .ok (.accept .explicitSpec) := by decide +kernel
  exact run_answers_afresh {} one moved ⟨.explain circle⟩ rfl (congrArg some afresh)

end Engine

end ClassPolicy
