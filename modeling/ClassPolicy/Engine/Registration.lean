import ClassPolicy.Engine.Basic
import ClassPolicy.Settings.Validation

/-!
# Registration

The calls that change the policy. Names are given in either spelling; errors
repeat the spelling they were given. A call that fails leaves the engine as it
was, with one exception: a type that was to be moved under a type that is not
logical keeps the empty spec made for it.
-/

set_option autoImplicit false

namespace ClassPolicy.Engine

/-! ### Calls one after the other -/

/-- A call and then another one that goes by its answer, unless the first one
fails. -/
def thenWith {α β : Type} (first : Engine → Outcome α) (next : α → Engine → Outcome β)
    (e : Engine) : Outcome β :=
  match first e with
  | (.error failure, e) => (.error failure, e)
  | (.ok answer, e) => next answer e

def andThen (first second : Engine → Outcome Unit) : Engine → Outcome Unit :=
  thenWith first fun _ => second

/-- Calls over a list, up to the first that fails. -/
def forEach {α : Type} (call : α → Engine → Outcome Unit) : List α → Engine → Outcome Unit
  | [], e => (.ok (), e)
  | item :: rest, e => andThen (call item) (forEach call rest) e

def always (change : Engine → Engine) (e : Engine) : Outcome Unit := (.ok (), change e)

section Sequences

variable {α β : Type} {first : Engine → Outcome α} {next : α → Engine → Outcome β}
  {e e' : Engine}

theorem thenWith_of_ok {answer : α} (done : first e = (.ok answer, e')) :
    thenWith first next e = next answer e' := by
  simp only [thenWith, done]

theorem thenWith_of_error {failure : Failure} (failed : first e = (.error failure, e')) :
    thenWith first next e = (.error failure, e') := by
  simp only [thenWith, failed]

theorem andThen_of_ok {first second : Engine → Outcome Unit} (done : first e = (.ok (), e')) :
    andThen first second e = second e' :=
  thenWith_of_ok done

theorem andThen_of_error {first second : Engine → Outcome Unit} {failure : Failure}
    (failed : first e = (.error failure, e')) : andThen first second e = (.error failure, e') :=
  thenWith_of_error failed

theorem forEach_cons (call : α → Engine → Outcome Unit) (item : α) (rest : List α) :
    forEach call (item :: rest) = andThen (call item) (forEach call rest) := rfl

/-- A second call that only answers changes nothing but the answer. -/
theorem thenWith_answer (first : Engine → Outcome α) (answer : α → β) (e : Engine) :
    thenWith first (fun a e => (.ok (answer a), e)) e = ((first e).1.map answer, (first e).2) := by
  rcases done : first e with ⟨failure | a, e'⟩
  · exact thenWith_of_error done
  · exact thenWith_of_ok done

/-- What is kept by both calls is kept by the one after the other. -/
theorem thenWith_along {R : Engine → Engine → Prop}
    (trans : ∀ {e₁ e₂ e₃}, R e₁ e₂ → R e₂ e₃ → R e₁ e₃) (one : R e (first e).2)
    (two : ∀ answer e', R e' (next answer e').2) : R e (thenWith first next e).2 := by
  rcases found : first e with ⟨failure | answer, e'⟩
  · rw [thenWith_of_error found]
    rwa [found] at one
  · rw [thenWith_of_ok found]
    rw [found] at one
    exact trans one (two answer e')

end Sequences

/-! ### Changes of the registries -/

def withRules (change : RuleRegistry → RuleRegistry) (e : Engine) : Engine :=
  e.register (fun r => { r with rules := change r.rules })

def withLocks (change : LockPolicy → LockPolicy) (e : Engine) : Engine :=
  e.adjust (fun r => { r with locks := change r.locks })

def withSpecs (specs : SpecStore) (e : Engine) : Engine := e.register ({ · with specs })

def violated {α : Type} (v : Violation) (e : Engine) : Outcome α := (.error (.violation v), e)

def refused {α : Type} (error : PolicyError) (e : Engine) : Outcome α :=
  (.error (.error error), e)

/-! ### Locks -/

def addLock (pattern : String) (definition : LockDefinition) (e : Engine) : Outcome Unit :=
  match e.registries.locks.add pattern definition with
  | .error v => e.violated v
  | .ok locks => (.ok (), e.withLocks (fun _ => locks))

/-- Registers a definition, unless a violation kept it from being built. -/
def addBuiltLock (pattern : String) (built : Except Violation LockDefinition) (e : Engine) :
    Outcome Unit :=
  match built with
  | .error v => e.violated v
  | .ok definition => e.addLock pattern definition

def addAutolock (pattern : String) (level : LockLevel) (provenance : Option String) :
    Engine → Outcome Unit :=
  addBuiltLock pattern (LockDefinition.buildAutolock level provenance)

/-- A definition that is committed is registered. -/
theorem addLock_of_committed {definition : LockDefinition} (pattern : String)
    (committed : definition.committed = true) (e : Engine) :
    e.addLock pattern definition = (.ok (), e.withLocks (·.prepend ⟨pattern, definition⟩)) := by
  simp [addLock, LockPolicy.add, committed, withLocks, adjust]

theorem addAutolock_eq (pattern : String) (level : LockLevel) (provenance : Option String)
    (e : Engine) : e.addAutolock pattern level provenance =
      (.ok (), e.withLocks (·.prepend ⟨pattern, .committedAutolock level provenance⟩)) := by
  rw [addAutolock, LockDefinition.buildAutolock_eq]
  have committed : (LockDefinition.committedAutolock level provenance).committed = true := rfl
  exact addLock_of_committed pattern committed e

/-! ### Rules -/

def addInclude (pattern : String) (attributes : IncludeAttributes) (e : Engine) : Engine :=
  e.withRules (·.addInclude pattern attributes)

def addExclude (pattern : String) (e : Engine) : Engine := e.withRules (·.addExclude pattern)

/-- A block of rules, consulted in its own order; an empty one is no change. -/
def addRules (block : List Rule) (e : Engine) : Outcome Unit :=
  if block.isEmpty then (.ok (), e)
  else match e.registries.rules.prependBlock block with
    | .error v => e.violated v
    | .ok rules => (.ok (), e.withRules (fun _ => rules))

def includeAndLockProvenance : String := "added with include"

/-- Includes a type and autolocks its members, but only when nothing is said
of the type yet. Answers whether anything was added. -/
def includeAndLock (ty : TypeDescriptor) (pattern : String) (attributes : IncludeAttributes)
    (lockPattern : String) (e : Engine) : Outcome Bool :=
  if e.registries.specs.contains ty.name then (.ok false, e)
  else match e.registries.rules.disposition ty with
    | .error error => (.error (.ofPattern error), e)
    | .ok .noOpinion =>
      let e := e.adjust (fun r => { r with rules := r.rules.addInclude pattern attributes })
      thenWith (addAutolock lockPattern ⟨.write, false⟩ (some includeAndLockProvenance))
        (fun _ e => (.ok true, e.register id)) e
    | .ok _ => (.ok false, e)

/-- The rule and the lock go in together, in one new generation. -/
theorem includeAndLock_eq (ty : TypeDescriptor) (pattern : String)
    (attributes : IncludeAttributes) (lockPattern : String) (e : Engine) :
    e.includeAndLock ty pattern attributes lockPattern =
      if e.registries.specs.contains ty.name then (.ok false, e)
      else match e.registries.rules.disposition ty with
        | .error error => (.error (.ofPattern error), e)
        | .ok .noOpinion => (.ok true, e.register (fun r => { r with
            rules := r.rules.addInclude pattern attributes
            locks := r.locks.prepend ⟨lockPattern,
              .committedAutolock ⟨.write, false⟩ (some includeAndLockProvenance)⟩ }))
        | .ok _ => (.ok false, e) := by
  simp only [includeAndLock, thenWith, addAutolock_eq]
  rfl

def addPermanentExclude (pattern : String) (e : Engine) : Engine :=
  e.withRules (·.addPermanentExclude pattern)

def addNonPortable (pattern : String) (e : Engine) : Engine :=
  e.withRules (·.addNonPortable pattern)

def setAllowsDynamicSubtypes (allow : Bool) (e : Engine) : Engine :=
  if e.registries.rules.allowsDynamicSubtypes = allow then e
  else e.withRules (·.setAllowsDynamicSubtypes allow)

/-! ### Custom rewriters -/

def addRewriter (name id : String) (e : Engine) : Engine :=
  e.register (fun r =>
    { r with rewriters := r.rewriters.insert (TypeName.ofString name).text id })

def removeRewriter (name : String) (e : Engine) : Option String × Engine :=
  let key := (TypeName.ofString name).text
  match e.registries.rewriters.get? key with
  | none => (none, e)
  | some id => (some id, e.register (fun r => { r with rewriters := r.rewriters.erase key }))

/-! ### Specs -/

def addSpec (partition : Partition) (spec : ClassSpec) (e : Engine) : Outcome Unit :=
  match e.registries.specs.insert partition spec with
  | .error v => e.violated v
  | .ok specs => (.ok (), e.withSpecs specs)

/-- Adds a spec unless its type has one. Answers whether it was added. -/
def addSpecIfAbsent (partition : Partition) (spec : ClassSpec) (e : Engine) : Outcome Bool :=
  match e.registries.specs.lookup spec.name with
  | .error v => e.violated v
  | .ok (some _) => (.ok false, e)
  | .ok none => thenWith (addSpec partition spec) (fun _ e => (.ok true, e)) e

/-- Adding a spec of a name that is free succeeds. -/
theorem addSpec_of_absent {spec : ClassSpec} {e : Engine} (partition : Partition)
    (absent : e.registries.specs.contains spec.name = false) :
    e.addSpec partition spec =
      (.ok (), e.withSpecs (e.registries.specs.put partition spec.name spec)) := by
  simp [addSpec, SpecStore.insert, absent]

/-- What is left by a call does not depend on which partitions hold the name. -/
theorem snd_addSpecIfAbsent (partition : Partition) (spec : ClassSpec) (e : Engine) :
    (e.addSpecIfAbsent partition spec).2 =
      if e.registries.specs.contains spec.name then e
      else e.withSpecs (e.registries.specs.put partition spec.name spec) := by
  rcases e.registries.specs.lookup_cases spec.name with found | ⟨both, present⟩
  · cases held : e.registries.specs.get? spec.name with
    | some old => simp [addSpecIfAbsent, found, held, SpecStore.contains_of_some held]
    | none =>
      have absent := SpecStore.contains_of_none held
      simp [addSpecIfAbsent, found, held, thenWith, addSpec_of_absent partition absent, absent]
  · simp [addSpecIfAbsent, both, violated, present]

/-- Adds those specs of a list whose types have none. Answers how many were
added. -/
def addMissingSpecs (partition : Partition) : List ClassSpec → Engine → Outcome Nat
  | [], e => (.ok 0, e)
  | spec :: rest, e =>
    thenWith (addSpecIfAbsent partition spec) (fun added =>
      thenWith (addMissingSpecs partition rest) fun later e => (.ok (added.toNat + later), e)) e

/-- What each of the specs does to an engine is what they do to it one after the
other, also where a violation ends them. -/
theorem addMissingSpecs_along {R : Engine → Engine → Prop} (refl : ∀ e, R e e)
    (trans : ∀ {e₁ e₂ e₃}, R e₁ e₂ → R e₂ e₃ → R e₁ e₃) {partition : Partition}
    {specs : List ClassSpec} (each : ∀ spec ∈ specs, ∀ e, R e (e.addSpecIfAbsent partition spec).2)
    (e : Engine) : R e (e.addMissingSpecs partition specs).2 := by
  induction specs generalizing e with
  | nil => exact refl e
  | cons spec rest ih =>
    obtain ⟨first, later⟩ := List.forall_mem_cons.1 each
    exact thenWith_along trans (first e) fun added e' =>
      thenWith_along trans (ih later e') fun _ e'' => refl e''

/-- The spec of a type; a missing one is first made. -/
def getOrCreate (name : TypeName) (make : ClassSpec) (e : Engine) : ClassSpec × Engine :=
  match e.registries.specs.get? name with
  | some spec => (spec, e)
  | none => (make, e.withSpecs (e.registries.specs.put .live name make))

def getOrCreateSpec (name : String) (e : Engine) : ClassSpec × Engine :=
  let name := TypeName.ofString name
  e.getOrCreate name (.ofName name)

def getOrCreateLogicalSpec (name applicator : String) (e : Engine) : ClassSpec × Engine :=
  let name := TypeName.ofString name
  e.getOrCreate name (.ofApplicator name applicator)

/-- Edits the spec of a type, made when missing. What a caller does to the spec
is a list of edits here, each made by one of its setters; to put another spec
in its place is not among them. The edits before one that fails stay made. -/
def updateSpec (name : String) (edits : List SpecEdit) (e : Engine) : Outcome ClassSpec :=
  let name := TypeName.ofString name
  let (spec, specs) := e.registries.specs.getOrInsert name (.ofName name)
  let (edited, error) := spec.editAll edits
  let e := e.withSpecs (specs.replace name edited)
  match error with
  | some error => e.refused (.logicalMove error)
  | none => (.ok edited, e)

/-- Makes a type logical under another one. -/
def moveToLogical (name superName : String) (e : Engine) : Outcome Unit :=
  match e.registries.specs.get? (TypeName.ofString superName) with
  | none => e.refused (.logicalMove (.noSpec superName))
  | some superSpec =>
    let name := TypeName.ofString name
    let (spec, specs) := e.registries.specs.getOrInsert name (.ofName name)
    match spec.moveToLogical superSpec with
    | .error error => (e.adjust ({ · with specs })).refused (.logicalMove error)
    | .ok moved => (.ok (), e.withSpecs (specs.replace name moved))

def removeSpec (name : String) (e : Engine) : Option ClassSpec × Engine :=
  match e.registries.specs.remove (TypeName.ofString name) with
  | (none, _) => (none, e)
  | (some spec, specs) => (some spec, e.withSpecs specs)

def markAllPreInstrumented (e : Engine) : Engine :=
  e.adjust (fun r => { r with specs := r.specs.markAllPreInstrumented })

/-- Gives every listed type without a spec an empty one in the inventory
partition. Answers how many got one. -/
def mergeInventory (manifest : Manifest) : Engine → Outcome Nat :=
  addMissingSpecs .inventory (manifest.types.map .ofName)

def verifyInventory (manifest : Manifest) (e : Engine) : InventoryReport × Engine :=
  let found := e.registries.specs.verify manifest
  (found, e.report (found.missing.map .missingFromInventory))

/-! ### Roots -/

def addRoot (root : RootDefinition) (createSpec : Bool) (e : Engine) : Outcome Unit :=
  match e.registries.roots.add root with
  | .error error => e.refused error
  | .ok roots =>
    let specs := if createSpec then
        (e.registries.specs.getOrInsert root.typeName (.ofName root.typeName)).2
      else e.registries.specs
    (.ok (), e.register ({ · with roots, specs }))

def addRootForField (qualified : String) (rootName : Option String) (e : Engine) : Outcome Unit :=
  match splitField qualified with
  | .error _ => e.refused (.invalidFieldName qualified)
  | .ok (typeName, fieldName) =>
    e.addRoot { typeName := TypeName.ofString typeName, fieldName, rootName } false

/-! ### Members and fields -/

def addAutolockExclude (pattern : String) (e : Engine) : Engine :=
  e.withLocks (·.addAutolockExclude pattern)

def addDistributed (method : DistributedMethod) (e : Engine) : Engine :=
  e.adjust (fun r => { r with distributed := r.distributed ++ [method] })

/-- Keeps a field out of the shared graph. -/
def addTransient (typeName field : String) (e : Engine) : Outcome Unit :=
  if typeName.isEmpty || field.isEmpty then
    e.refused (.invalidFieldName (typeName ++ "." ++ field))
  else
    (.ok (), e.adjust (fun r => { r with
      transients := r.transients.add (TypeName.ofString typeName) field }))

end ClassPolicy.Engine
