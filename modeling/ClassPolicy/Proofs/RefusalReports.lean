import ClassPolicy.Proofs.DecisionMemory
import ClassPolicy.Proofs.Journal

/-!
# Refusals are reported once

Four kinds of questions share the memory of decisions. The refusal of a
generated subtype is reported when it is first found in a generation, whichever
of them finds it, and not again before the policy changes. At any time the
engine remembers one decision for every name of which a question has obtained
one since then.
-/

set_option autoImplicit false

namespace ClassPolicy.Engine

/-! ### What a run obtains and reports -/

/-- The decision on a type that an engine gives, with the name of the type. -/
def decisionOn (ty : TypeDescriptor) (e : Engine) : Option (TypeName × Adaptability) :=
  match (e.explain ty).1 with
  | .ok decision => some (ty.name, decision)
  | .error _ => none

/-- The decision that a call obtains: a question about a decision or a mode
obtains the one on its type, even if it fails in the end. -/
def obtained {α : Type} (c : Call α) (e : Engine) : Option (TypeName × Adaptability) :=
  c.asks.bind (decisionOn · e)

/-- What a call adds to the journal. -/
def reported {α : Type} (c : Call α) (e : Engine) : List Diagnostic :=
  (e.perform c).2.journal.drop e.journal.length

/-- The calls of a run, each with the engine on which it is made. -/
def moments : List AnyCall → Engine → List (Engine × AnyCall)
  | [], _ => []
  | c :: rest, e => (e, c) :: moments rest (e.perform c.call).2

/-- The calls that a run makes in one generation. -/
def momentsIn (generation : Nat) (calls : List AnyCall) (start : Engine) :
    List (Engine × AnyCall) :=
  (moments calls start).filter (·.1.generation = generation)

/-- The decisions that the questions of a run obtain in one generation. -/
def obtainedIn (generation : Nat) (calls : List AnyCall) (start : Engine) :
    List (TypeName × Adaptability) :=
  (momentsIn generation calls start).filterMap fun m => obtained m.2.call m.1

/-- What a run reports in one generation. -/
def reportedIn (generation : Nat) (calls : List AnyCall) (start : Engine) : List Diagnostic :=
  (momentsIn generation calls start).flatMap fun m => reported m.2.call m.1

/-- The names of the generated subtypes that were refused, of some decisions. -/
def refusedNames (decisions : List (TypeName × Adaptability)) : List TypeName :=
  (decisions.filter (·.2.reason = .dynamicSubtypeRefused)).map (·.1)

section Snoc

variable (calls : List AnyCall) (c : AnyCall) (start : Engine)

theorem run_snoc : start.run (calls ++ [c]) = ((start.run calls).perform c.call).2 := by
  simp [run]

theorem moments_snoc :
    moments (calls ++ [c]) start = moments calls start ++ [(start.run calls, c)] := by
  induction calls generalizing start with
  | nil => rfl
  | cons first rest ih => rw [List.cons_append, moments, ih, moments, run_cons, List.cons_append]

theorem mem_moments {m : Engine × AnyCall} (member : m ∈ moments calls start) :
    ∃ before after, calls = before ++ m.2 :: after ∧ m.1 = start.run before := by
  induction calls generalizing start with
  | nil => cases member
  | cons first rest ih =>
    rcases List.mem_cons.1 member with rfl | later
    · exact ⟨[], rest, rfl, rfl⟩
    · obtain ⟨before, after, rfl, reached⟩ := ih _ later
      exact ⟨first :: before, after, rfl, by rw [reached, run_cons]⟩

theorem momentsIn_snoc (generation : Nat) : momentsIn generation (calls ++ [c]) start =
    momentsIn generation calls start ++
      if (start.run calls).generation = generation then [(start.run calls, c)] else [] := by
  rw [momentsIn, moments_snoc, List.filter_append, momentsIn, List.filter_singleton]
  simp

theorem obtainedIn_snoc (generation : Nat) : obtainedIn generation (calls ++ [c]) start =
    obtainedIn generation calls start ++
      if (start.run calls).generation = generation then (obtained c.call (start.run calls)).toList
      else [] := by
  rw [obtainedIn, momentsIn_snoc, List.filterMap_append, obtainedIn]
  split
  · cases found : obtained c.call (start.run calls) <;> simp [found]
  · rfl

theorem reportedIn_snoc (generation : Nat) : reportedIn generation (calls ++ [c]) start =
    reportedIn generation calls start ++
      if (start.run calls).generation = generation then reported c.call (start.run calls)
      else [] := by
  rw [reportedIn, momentsIn_snoc, List.flatMap_append, reportedIn]
  split <;> simp

end Snoc

/-! ### The books -/

/-- Every refusal of a generated subtype has one report, and nothing else is
reported as one. -/
def Counted (decisions : List (TypeName × Adaptability)) (reports : List Diagnostic) : Prop :=
  ∀ name, reports.count (.dynamicSubtypeRefused name) =
    if name ∈ refusedNames decisions then 1 else 0

/-- What an engine remembers of its generation and what it has reported, by the
decisions that were obtained in it. -/
structure Books (decisions : List (TypeName × Adaptability)) (reports : List Diagnostic)
    (e : Engine) : Prop where
  known : ∀ name decision, e.cache.decision? name e.generation = some decision ↔
    (name, decision) ∈ decisions
  filed : ∀ text, e.cache.decisions.contains text = true ↔ ∃ p ∈ decisions, p.1.text = text
  moded : ∀ name, (e.cache.mode? name e.generation).isSome →
    (e.cache.decision? name e.generation).isSome
  counted : Counted decisions reports

theorem mem_refusedNames {decisions : List (TypeName × Adaptability)} {name : TypeName} :
    name ∈ refusedNames decisions ↔
      ∃ decision, (name, decision) ∈ decisions ∧ decision.reason = .dynamicSubtypeRefused := by
  simp [refusedNames]

theorem refusedNames_append (decisions : List (TypeName × Adaptability)) (name : TypeName)
    (decision : Adaptability) : refusedNames (decisions ++ [(name, decision)]) =
      refusedNames decisions ++
        if decision.reason = .dynamicSubtypeRefused then [name] else [] := by
  rw [refusedNames, List.filter_append, List.map_append, List.filter_singleton]
  by_cases refused : decision.reason = .dynamicSubtypeRefused <;> simp [refusedNames, refused]

theorem decisions_rememberDecision (ty : TypeDescriptor) (decision : Adaptability) (e : Engine) :
    (e.rememberDecision ty decision).cache.decisions =
      e.cache.decisions.insert ty.name.text ⟨e.generation, decision⟩ := by
  simp only [rememberDecision]
  split <;> simp [report, DecisionCache.storeDecision, generation]

theorem decisions_rememberMode (ty : TypeDescriptor) (mode : TransformMode) (e : Engine) :
    (e.rememberMode ty mode).cache.decisions = e.cache.decisions := by
  simp only [rememberMode, DecisionCache.storeMode]
  split <;> rfl

section Books

variable {decisions : List (TypeName × Adaptability)} {reports added : List Diagnostic}
  {e e' : Engine} {name : TypeName} {decision : Adaptability}

theorem Counted.append (counted : Counted decisions reports)
    (quiet : ∀ name, .dynamicSubtypeRefused name ∉ added) :
    Counted decisions (reports ++ added) := by
  intro name
  rw [List.count_append, counted name, List.count_eq_zero.2 (quiet name), Nat.add_zero]

/-- A decision obtained once more is in the books already. -/
theorem Books.again (books : Books decisions reports e) (member : (name, decision) ∈ decisions) :
    Books (decisions ++ [(name, decision)]) reports e := by
  have same : ∀ p, p ∈ decisions ++ [(name, decision)] ↔ p ∈ decisions := by
    intro p
    rw [List.mem_append, List.mem_singleton]
    exact or_iff_left_of_imp fun here => here ▸ member
  refine ⟨fun name' decision' => ?_, fun text => ?_, books.moded, fun name' => ?_⟩
  · rw [same, books.known]
  · simp only [same, books.filed]
  · have names : name' ∈ refusedNames (decisions ++ [(name, decision)]) ↔
        name' ∈ refusedNames decisions := by simp only [mem_refusedNames, same]
    simp only [books.counted name', names]

theorem Counted.remember (counted : Counted decisions reports)
    (absent : ∀ other, (name, other) ∉ decisions) :
    Counted (decisions ++ [(name, decision)])
      (reports ++ if decision.reason = .dynamicSubtypeRefused then [.dynamicSubtypeRefused name]
        else []) := by
  have fresh : name ∉ refusedNames decisions := by
    rw [mem_refusedNames]
    rintro ⟨other, member, -⟩
    exact absent other member
  intro name'
  rw [List.count_append, counted name', refusedNames_append]
  split_ifs with before <;> by_cases same : name' = name <;> simp_all [eq_comm]

/-- A decision is remembered under its name, and reported if it is a refusal. -/
theorem Books.remember {ty : TypeDescriptor} (books : Books decisions reports e)
    (unknown : e.cache.decision? ty.name e.generation = none) :
    Books (decisions ++ [(ty.name, decision)])
      (reports ++ if decision.reason = .dynamicSubtypeRefused then
        [.dynamicSubtypeRefused ty.name] else [])
      (e.rememberDecision ty decision) := by
  have absent : ∀ other, (ty.name, other) ∉ decisions := by
    intro other member
    rw [(books.known _ _).2 member] at unknown
    cases unknown
  refine ⟨fun name' decision' => ?_, fun text => ?_, fun name' => ?_, books.counted.remember absent⟩
  · rw [generation_rememberDecision, decision?_rememberDecision, List.mem_append,
      List.mem_singleton, Prod.mk.injEq]
    split
    · rename_i own
      subst own
      simp only [absent, Option.some.injEq, true_and, false_or]
      exact eq_comm
    · rename_i other
      simp [books.known, other]
  · rw [decisions_rememberDecision, SortedMap.contains, SortedMap.get?_insert]
    simp only [List.mem_append, List.mem_singleton, or_and_right, exists_or, exists_eq_left,
      ← books.filed]
    split
    · rename_i own
      simp [own]
    · rename_i other
      exact (or_iff_left fun same => other same.symm).symm
  · rw [generation_rememberDecision, decision?_rememberDecision, mode?_rememberDecision]
    split
    · simp
    · exact books.moded name'

theorem generation_modeGiven (ty : TypeDescriptor) (transformable : Bool) (e : Engine) :
    (e.modeGiven ty transformable).2.generation = e.generation := by
  unfold Engine.modeGiven
  split
  · rfl
  · split
    · rfl
    · exact generation_rememberMode ..

/-- A mode is remembered only of a type of which a decision is. -/
theorem Books.modeGiven {ty : TypeDescriptor} {transformable : Bool}
    (books : Books decisions reports e)
    (known : (e.cache.decision? ty.name e.generation).isSome) :
    Books decisions reports (e.modeGiven ty transformable).2 := by
  unfold Engine.modeGiven
  split
  · exact books
  · split
    · exact books
    · refine ⟨fun name' decision' => ?_, fun text => ?_, fun name' => ?_, books.counted⟩
      · rw [generation_rememberMode, decision?_rememberMode, books.known]
      · rw [decisions_rememberMode, books.filed]
      · rw [generation_rememberMode, decision?_rememberMode, mode?_rememberMode]
        split
        · rename_i own
          subst own
          exact fun _ => known
        · exact books.moded name'

theorem Books.size (books : Books decisions reports e) :
    e.cachedDecisions = (decisions.map (·.1)).dedup.length :=
  SortedMap.size_eq_dedup fun text => by simp [books.filed]

theorem Books.of_cache (books : Books decisions reports e) (same : e'.cache = e.cache)
    {reports' : List Diagnostic} (counted : Counted decisions reports') :
    Books decisions reports' e' := by
  obtain ⟨known, filed, moded, -⟩ := books
  simp only [generation, ← same] at known filed moded
  exact ⟨known, filed, moded, counted⟩

/-- Nothing is in the books of an engine that remembers nothing. -/
theorem books_of_empty (decisions : e.cache.decisions = .empty) (modes : e.cache.modes = .empty) :
    Books [] [] e where
  known name decision := by simp [DecisionCache.decision?, DecisionCache.lookup, decisions]
  filed text := by simp [SortedMap.contains, decisions]
  moded name := by simp [DecisionCache.mode?, DecisionCache.lookup, modes]
  counted name := by simp [refusedNames]

end Books

/-! ### One call -/

section Calls

variable {decisions : List (TypeName × Adaptability)} {reports : List Diagnostic} {e : Engine}

/-- The books after one more answer about a decision. -/
theorem Books.explain (books : Books decisions reports e) (ty : TypeDescriptor) :
    (e.explain ty).2.generation = e.generation ∧
      ∃ added, (e.explain ty).2.journal = e.journal ++ added ∧
        Books (decisions ++ (decisionOn ty e).toList) (reports ++ added) (e.explain ty).2 := by
  unfold decisionOn Engine.explain
  cases found : e.cache.decision? ty.name e.generation with
  | some decision =>
    have again := books.again ((books.known _ _).1 found)
    exact ⟨rfl, [], by simp, by simpa using again⟩
  | none =>
    cases made : e.registries.adaptability ty with
    | error error => exact ⟨rfl, [], by simp, by simpa using books⟩
    | ok decision =>
      exact ⟨generation_rememberDecision .., _, journal_rememberDecision .., books.remember found⟩

/-- A question about a type first settles its decision, and then its mode at
most. -/
theorem perform_of_asks {α : Type} {c : Call α} {ty : TypeDescriptor} (asks : c.asks = some ty)
    (moded : (e.cache.mode? ty.name e.generation).isSome →
      (e.cache.decision? ty.name e.generation).isSome) :
    (e.perform c).2 = (e.explain ty).2 ∨
      ∃ decision, (e.explain ty).1 = .ok decision ∧
        (e.perform c).2 = ((e.explain ty).2.modeGiven ty decision.transformable).2 := by
  cases c with
  | explain ty => cases asks; exact .inl rfl
  | isTransformable ty => cases asks; exact .inl rfl
  | modeFor ty =>
    cases asks
    simp only [perform, Engine.asked, modeFor]
    split
    · rename_i mode known
      obtain ⟨decision, found⟩ := Option.isSome_iff_exists.1 (moded (by simp [known]))
      simp [Engine.explain, found]
    · split
      · rename_i explained
        simp [explained]
      · rename_i decision e₁ explained
        simp [explained]
  | decide ty =>
    cases asks
    simp only [perform, Engine.asked, decide]
    split
    · rename_i explained
      simp [explained]
    · rename_i decision e₁ explained
      right
      refine ⟨decision, by rw [explained], ?_⟩
      split
      · rename_i moded
        simp [explained, moded]
      · rename_i moded
        split <;> simp [explained, moded]
  | _ => cases asks

theorem unasked_cache {e e' : Engine} (steps : Steps (fun _ => False) True e e') :
    e'.cache = e.cache ∨
      (e.generation < e'.generation ∧ e'.cache.decisions = .empty ∧ e'.cache.modes = .empty) := by
  refine steps.preserve (P := fun e' => e'.cache = e.cache ∨
    (e.generation < e'.generation ∧ e'.cache.decisions = .empty ∧ e'.cache.modes = .empty)) ?_
    (.inl rfl)
  intro e₁ e₂ step settled
  cases step with
  | registered changes =>
    have later : e.generation ≤ e₁.generation := by
      rcases settled with same | ⟨later, -⟩
      · exact Nat.le_of_eq (congrArg DecisionCache.generation same.symm)
      · exact Nat.le_of_lt later
    exact .inr ⟨Nat.lt_succ_of_le later, rfl, rfl⟩
  | adjusted change => exact settled
  | stranded allowed absent => exact settled
  | decided ask unknown found => exact ask.elim
  | moded ask known found => exact ask.elim
  | reported diagnostics => exact settled

theorem reported_of_journal {α : Type} {c : Call α} {added : List Diagnostic}
    (grown : (e.perform c).2.journal = e.journal ++ added) : reported c e = added := by
  rw [reported, grown, List.drop_left]

theorem Books.grows (books : Books decisions reports e) {α : Type} (c : Call α) :
    e.journal <+: (e.perform c).2.journal := by
  cases asks : c.asks with
  | some ty =>
    obtain ⟨-, added, grown, -⟩ := books.explain ty
    rcases perform_of_asks asks (books.moded ty.name) with same | ⟨decision, -, same⟩
    · rw [same]
      exact ⟨added, grown.symm⟩
    · rw [same, modeGiven_silent]
      exact ⟨added, grown.symm⟩
  | none =>
    obtain ⟨added, grown, -⟩ := perform_informs asks e
    exact ⟨added, grown.symm⟩

/-- A call that asks puts what it obtains into the books; any other leaves the
books as they are, or closes them and opens new ones with a new generation. -/
theorem Books.perform (books : Books decisions reports e) {α : Type} (c : Call α) :
    ((e.perform c).2.generation = e.generation ∧
      Books (decisions ++ (obtained c e).toList) (reports ++ reported c e) (e.perform c).2) ∨
    (e.generation < (e.perform c).2.generation ∧ obtained c e = none ∧
      (∀ name, .dynamicSubtypeRefused name ∉ reported c e) ∧ Books [] [] (e.perform c).2) := by
  cases asks : c.asks with
  | some ty =>
    left
    obtain ⟨steady, added, grown, after⟩ := books.explain ty
    have gives : obtained c e = decisionOn ty e := by rw [obtained, asks]; rfl
    rw [gives]
    rcases perform_of_asks asks (books.moded ty.name) with same | ⟨decision, explained, same⟩
    · rw [← same] at steady grown after
      rw [reported_of_journal grown]
      exact ⟨steady, after⟩
    · have known := explain_remembers (Prod.ext explained rfl)
      have silent := modeGiven_silent ty decision.transformable (e.explain ty).2
      have kept := generation_modeGiven ty decision.transformable (e.explain ty).2
      rw [← same] at silent kept
      refine ⟨kept.trans steady, ?_⟩
      rw [reported_of_journal (silent.trans grown), same]
      exact after.modeGiven (by simp [known])
  | none =>
    obtain ⟨added, grown, infos⟩ := perform_informs asks e
    have quiet : ∀ name, .dynamicSubtypeRefused name ∉ reported c e := by
      rw [reported_of_journal grown]
      intro name member
      cases infos _ member
    have none : obtained c e = none := by rw [obtained, asks]; rfl
    have steps : Steps (fun _ => False) True e (e.perform c).2 :=
      perform_steps c e (by simp [asks]) fun _ => trivial
    rcases unasked_cache steps with same | ⟨later, decisions, modes⟩
    · refine .inl ⟨congrArg DecisionCache.generation same, ?_⟩
      rw [none]
      simpa using books.of_cache same (books.counted.append quiet)
    · exact .inr ⟨later, none, quiet, books_of_empty decisions modes⟩

end Calls

/-! ### Runs -/

/-- Where an engine comes from: options, or settings with what is found at the
path of their inventory. -/
inductive Origin
  | ofOptions (options : Options)
  | ofSettings (settings : Settings) (manifest : FileContent)

def Origin.engine : Origin → Engine
  | .ofOptions options => Engine.ofOptions options
  | .ofSettings settings manifest => (bootstrap settings manifest).2

theorem Origin.forgetful (origin : Origin) :
    origin.engine.cache.decisions = .empty ∧ origin.engine.cache.modes = .empty := by
  cases origin with
  | ofOptions options => exact ⟨rfl, rfl⟩
  | ofSettings settings manifest =>
    have started : ∃ options, Steps (fun _ => False) True (Engine.ofOptions options)
        (bootstrap settings manifest).2 := bootstrap_steps settings manifest
    obtain ⟨options, steps⟩ := started
    rcases unasked_cache steps with same | ⟨-, forgetful⟩
    · exact ⟨congrArg DecisionCache.decisions same, congrArg DecisionCache.modes same⟩
    · exact forgetful

theorem Origin.unreported (origin : Origin) (name : TypeName) :
    .dynamicSubtypeRefused name ∉ origin.engine.journal := by
  cases origin with
  | ofOptions options => exact List.not_mem_nil
  | ofSettings settings manifest =>
    intro member
    cases bootstrap_informs settings manifest _ member

/-- The books of every generation of a run, up to the last. -/
structure Audited (calls : List AnyCall) (start : Engine) : Prop where
  current : Books (obtainedIn (start.run calls).generation calls start)
    (reportedIn (start.run calls).generation calls start) (start.run calls)
  counted : ∀ generation,
    Counted (obtainedIn generation calls start) (reportedIn generation calls start)
  bounded : ∀ m ∈ moments calls start, m.1.generation ≤ (start.run calls).generation

theorem Audited.none_later {calls : List AnyCall} {start : Engine} (audited : Audited calls start)
    {generation : Nat} (later : (start.run calls).generation < generation) :
    momentsIn generation calls start = [] := by
  refine List.filter_eq_nil_iff.2 fun m member => ?_
  have bound := audited.bounded m member
  simp only [decide_eq_true_eq]
  omega

theorem Audited.snoc {calls : List AnyCall} {start : Engine} (audited : Audited calls start)
    (c : AnyCall) : Audited (calls ++ [c]) start := by
  have bounded : ∀ later, (start.run calls).generation ≤ later →
      ∀ m ∈ moments (calls ++ [c]) start, m.1.generation ≤ later := by
    intro later bound m member
    rw [moments_snoc] at member
    rcases List.mem_append.1 member with before | here
    · exact Nat.le_trans (audited.bounded m before) bound
    · rw [List.mem_singleton.1 here]
      exact bound
  rcases audited.current.perform c.call with ⟨steady, books⟩ | ⟨later, none, quiet, books⟩
  -- The call is booked in the generation of the engine, and no other is touched.
  · have current : Books (obtainedIn (start.run calls).generation (calls ++ [c]) start)
        (reportedIn (start.run calls).generation (calls ++ [c]) start)
        (start.run (calls ++ [c])) := by
      rw [obtainedIn_snoc, reportedIn_snoc, if_pos rfl, if_pos rfl, run_snoc]
      exact books
    rw [← run_snoc] at steady
    refine ⟨by rwa [steady], fun generation => ?_, bounded _ (Nat.le_of_eq steady.symm)⟩
    by_cases now : (start.run calls).generation = generation
    · exact now ▸ current.counted
    · rw [obtainedIn_snoc, reportedIn_snoc, if_neg now, if_neg now, List.append_nil,
        List.append_nil]
      exact audited.counted generation
  -- The books of the generation are closed; those of the new one are still empty.
  · rw [← run_snoc] at later books
    refine ⟨?_, fun generation => ?_, bounded _ (Nat.le_of_lt later)⟩
    · have empty := audited.none_later later
      rw [obtainedIn_snoc, reportedIn_snoc, if_neg (Nat.ne_of_lt later),
        if_neg (Nat.ne_of_lt later), obtainedIn, reportedIn, empty]
      exact books
    · rw [obtainedIn_snoc, reportedIn_snoc, none]
      split
      · simpa using (audited.counted generation).append quiet
      · simpa using audited.counted generation

theorem audited (origin : Origin) (calls : List AnyCall) : Audited calls origin.engine := by
  induction calls using List.reverseRecOn with
  | nil =>
    obtain ⟨decisions, modes⟩ := origin.forgetful
    exact ⟨books_of_empty decisions modes, fun _ _ => rfl, by simp [moments]⟩
  | append_singleton calls c ih => exact ih.snoc c

theorem journal_run (origin : Origin) (calls : List AnyCall) :
    (origin.engine.run calls).journal = origin.engine.journal ++
      (moments calls origin.engine).flatMap fun m => reported m.2.call m.1 := by
  induction calls using List.reverseRecOn with
  | nil => simp [moments]
  | append_singleton calls c ih =>
    have grows := (audited origin calls).current.grows c.call
    rw [moments_snoc, List.flatMap_append, ← List.append_assoc, ← ih, run_snoc,
      List.flatMap_singleton, reported, List.prefix_iff_eq_append.1 grows]

/-- What a run reports and remembers of the decisions it obtains. -/
structure ReportsOnce (calls : List AnyCall) (start : Engine) : Prop where
  /-- Nothing gets into the journal but what the calls report. -/
  journal : (start.run calls).journal = start.journal ++
    (moments calls start).flatMap fun m => reported m.2.call m.1
  unreported : ∀ name, .dynamicSubtypeRefused name ∉ start.journal
  /-- A call that reports a refusal is made in one generation. -/
  steady : ∀ m ∈ moments calls start, ∀ name,
    .dynamicSubtypeRefused name ∈ reported m.2.call m.1 →
      (m.1.perform m.2.call).2.generation = m.1.generation
  once : ∀ generation name,
    (reportedIn generation calls start).count (.dynamicSubtypeRefused name) =
      if name ∈ refusedNames (obtainedIn generation calls start) then 1 else 0
  remembered : (start.run calls).cachedDecisions =
    ((obtainedIn (start.run calls).generation calls start).map (·.1)).dedup.length

/-- In every generation of a run a refused subtype is reported once if a question
found it refused, and otherwise not at all. As many decisions are remembered as
there are names on which one was obtained since the generation last moved. -/
theorem run_reportsOnce (origin : Origin) (calls : List AnyCall) :
    ReportsOnce calls origin.engine where
  journal := journal_run origin calls
  unreported := origin.unreported
  steady m member name refusal := by
    obtain ⟨before, after, -, reached⟩ := mem_moments calls origin.engine member
    rw [reached] at refusal ⊢
    rcases (audited origin before).current.perform m.2.call with ⟨steady, -⟩ | ⟨-, -, quiet, -⟩
    · exact steady
    · exact absurd refusal (quiet name)
  once generation name := (audited origin calls).counted generation name
  remembered := (audited origin calls).current.size

/-- A generated subtype of `acme.Till`. -/
def generatedTill : TypeDescriptor :=
  .named (TypeName.ofString "acme.Till$$EnhancerByCGLIB$$1")

/-- Asked about in three ways, with a change of the policy in between. -/
def tillAsked : List AnyCall := [
  ⟨.modeFor generatedTill⟩, ⟨.explain generatedTill⟩, ⟨.addInclude "acme.*" {}⟩,
  ⟨.decide generatedTill⟩]

example : [0, 1, 2].map (reportedIn · tillAsked (ofOptions {})) =
    [[.dynamicSubtypeRefused generatedTill.name], [.dynamicSubtypeRefused generatedTill.name],
      []] := by decide +kernel

end ClassPolicy.Engine
