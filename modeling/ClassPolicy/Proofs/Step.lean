import ClassPolicy.Engine.Call
import Mathlib.Logic.Relation

/-!
# Steps of an engine

A step is one of six kinds: changes of the registries under a new generation,
a change that no decision depends on, the spec left behind by a move that
fails, an answer remembered in one of the two memories, and a report. What all
steps preserve, any number of them preserves.
-/

set_option autoImplicit false

namespace ClassPolicy

open Relation (ReflTransGen)

/-- What one step keeps, any number of them keeps. -/
theorem kept_along {α : Type} {step : α → α → Prop} {P : α → Prop}
    (kept : ∀ a b, step a b → P a → P b) {a b : α} (steps : ReflTransGen step a b) (holds : P a) :
    P b := by
  induction steps with
  | refl => exact holds
  | tail _ last ih => exact kept _ _ last ih

namespace Registries

/-- A change that no decision depends on. -/
inductive Aside (r : Registries) : Registries → Prop
  | lock (rule : LockRule) (committed : rule.definition.committed = true) :
      Aside r { r with locks := r.locks.prepend rule }
  | autolockExclude (pattern : String) :
      Aside r { r with locks := r.locks.addAutolockExclude pattern }
  | distributed (method : DistributedMethod) :
      Aside r { r with distributed := r.distributed ++ [method] }
  | transient (name : TypeName) (field : String) :
      Aside r { r with transients := r.transients.add name field }
  | marked : Aside r { r with specs := r.specs.markAllPreInstrumented }

/-- One change of the registries. -/
inductive Change (r : Registries) : Registries → Prop
  | aside {r' : Registries} (change : r.Aside r') : Change r r'
  | rules (block : List Rule) (opinions : ∀ rule ∈ block, rule.disposition ≠ .noOpinion) :
      Change r { r with rules := { r.rules with rules := block ++ r.rules.rules } }
  | permanentExclude (pattern : String) :
      Change r { r with rules := r.rules.addPermanentExclude pattern }
  | nonPortable (pattern : String) : Change r { r with rules := r.rules.addNonPortable pattern }
  | dynamicSubtypes (allow : Bool) :
      Change r { r with rules := r.rules.setAllowsDynamicSubtypes allow }
  | rewriter (name : TypeName) (id : String) :
      Change r { r with rewriters := r.rewriters.insert name.text id }
  | rewriterRemoved (name : TypeName) :
      Change r { r with rewriters := r.rewriters.erase name.text }
  | spec (partition : Partition) (spec : ClassSpec) (absent : r.specs.get? spec.name = none) :
      Change r { r with specs := r.specs.put partition spec.name spec }
  | specEdited (name : TypeName) (spec : ClassSpec) (edits : List SpecEdit)
      (present : r.specs.get? name = some spec) :
      Change r { r with specs := r.specs.replace name (spec.editAll edits).1 }
  | specRemoved (name : TypeName) : Change r { r with specs := (r.specs.remove name).2 }
  | root (root : RootDefinition) (roots : RootRegistry) (added : r.roots.add root = .ok roots) :
      Change r { r with roots }

/-- The changes by which the spec of a type is first made when missing. -/
theorem getOrInsert_changes (r : Registries) (make : ClassSpec) :
    ReflTransGen Change r { r with specs := (r.specs.getOrInsert make.name make).2 } := by
  unfold SpecStore.getOrInsert
  cases found : r.specs.get? make.name with
  | none => exact .single (.spec .live make found)
  | some spec => exact .refl

theorem get?_getOrInsert (s : SpecStore) (name : TypeName) (make : ClassSpec) :
    (s.getOrInsert name make).2.get? name = some (s.getOrInsert name make).1 := by
  unfold SpecStore.getOrInsert
  cases found : s.get? name with
  | none => simp [SpecStore.get?_put_of_absent found]
  | some spec => exact found

/-- The changes by which the spec of a type is edited, made when missing. -/
theorem edited_changes (r : Registries) (name : TypeName) (edits : List SpecEdit) :
    ReflTransGen Change r
      { r with
        specs := (r.specs.getOrInsert name (.ofName name)).2.replace name
          ((r.specs.getOrInsert name (.ofName name)).1.editAll edits).1 } :=
  (r.getOrInsert_changes (.ofName name)).tail
    (.specEdited name _ edits (get?_getOrInsert r.specs name (.ofName name)))

end Registries

namespace Call

/-- The type whose decision or mode a call asks for. -/
def asks {α : Type} : Call α → Option TypeDescriptor
  | .explain ty => some ty
  | .isTransformable ty => some ty
  | .modeFor ty => some ty
  | .decide ty => some ty
  | _ => none

/-- The type that a call leaves an empty spec of, though it fails: one without
a spec that was to be moved under a type that is not logical. -/
def strands {α : Type} : Call α → Registries → Option TypeName
  | .moveToLogical name superName, r =>
    match r.specs.get? (TypeName.ofString superName) with
    | some superSpec =>
      if superSpec.isLogical || r.specs.contains (TypeName.ofString name) then none
      else some (TypeName.ofString name)
    | none => none
  | _, _ => none

theorem absent_of_strands {α : Type} {c : Call α} {r : Registries} {name : TypeName}
    (h : c.strands r = some name) : r.specs.get? name = none := by
  cases c with
  | moveToLogical typeName superName =>
    simp only [strands] at h
    split at h
    · split at h
      · cases h
      · rename_i absent
        cases h
        simp only [SpecStore.contains, Bool.or_eq_true, not_or, Option.not_isSome_iff_eq_none]
          at absent
        exact absent.2
    · cases h
  | _ => cases h

end Call

namespace Engine

/-- What a move that fails leaves of a type that had no spec. -/
def strand (name : TypeName) (e : Engine) : Engine :=
  e.adjust (fun r => { r with specs := r.specs.put .live name (.ofName name) })

/-- The engine that a call leaves when it fails. -/
def leftBy {α : Type} (c : Call α) (e : Engine) : Engine :=
  match c.strands e.registries with
  | none => e
  | some name => e.strand name

/-- One step of an engine. A decision is made only on a type of which `asked`
holds and of whose name none is remembered, and only when `stranding` may a
move that fails leave a spec behind. -/
inductive Step (asked : TypeDescriptor → Prop) (stranding : Prop) : Engine → Engine → Prop
  | registered {e : Engine} {r : Registries}
      (changes : ReflTransGen Registries.Change e.registries r) :
      Step asked stranding e { e with registries := r, cache := e.cache.invalidate }
  | adjusted {e : Engine} {r : Registries} (change : e.registries.Aside r) :
      Step asked stranding e { e with registries := r }
  | stranded {e : Engine} {name : TypeName} (allowed : stranding)
      (absent : e.registries.specs.get? name = none) : Step asked stranding e (e.strand name)
  | decided {e : Engine} {ty : TypeDescriptor} {decision : Adaptability} (ask : asked ty)
      (unknown : e.cache.decision? ty.name e.generation = none)
      (found : e.registries.adaptability ty = .ok decision) :
      Step asked stranding e (e.rememberDecision ty decision)
  | moded {e : Engine} {ty : TypeDescriptor} {decision : Adaptability} {mode : TransformMode}
      (ask : asked ty) (known : e.cache.decision? ty.name e.generation = some decision)
      (found : e.registries.mode ty decision.transformable = .ok mode) :
      Step asked stranding e (e.rememberMode ty mode)
  | reported {e : Engine} (diagnostics : List Diagnostic) :
      Step asked stranding e (e.report diagnostics)

abbrev Steps (asked : TypeDescriptor → Prop) (stranding : Prop) : Engine → Engine → Prop :=
  ReflTransGen (Step asked stranding)

section Steps

variable {asked : TypeDescriptor → Prop} {stranding : Prop}

theorem Steps.preserve {P : Engine → Prop}
    (kept : ∀ e e', Step asked stranding e e' → P e → P e') {e e' : Engine}
    (steps : Steps asked stranding e e') (holds : P e) : P e' :=
  kept_along kept steps holds

/-- What every change of the registries keeps, every step keeps. -/
theorem Step.registries {P : Registries → Prop} (kept : ∀ r r', r.Change r' → P r → P r')
    {e e' : Engine} (step : Step asked stranding e e') (holds : P e.registries) :
    P e'.registries := by
  cases step with
  | registered changes => exact kept_along kept changes holds
  | adjusted change => exact kept _ _ (.aside change) holds
  | stranded allowed absent => exact kept _ _ (.spec .live (.ofName _) absent) holds
  | decided ask unknown found => rwa [registries_rememberDecision]
  | moded ask known found => exact holds
  | reported diagnostics => exact holds

theorem register_steps {e : Engine} {r : Registries} (change : e.registries.Change r) :
    Steps asked stranding e { e with registries := r, cache := e.cache.invalidate } :=
  .single (.registered (.single change))

theorem foldl_steps {β : Type} {f : Engine → β → Engine}
    (each : ∀ e b, Steps asked stranding e (f e b)) (items : List β) (e : Engine) :
    Steps asked stranding e (items.foldl f e) := by
  induction items generalizing e with
  | nil => exact .refl
  | cons b rest ih => exact (each e b).trans (ih (f e b))

theorem andThen_steps {first second : Engine → Outcome Unit} {e : Engine}
    (one : Steps asked stranding e (first e).2)
    (two : ∀ e', Steps asked stranding e' (second e').2) :
    Steps asked stranding e (andThen first second e).2 :=
  thenWith_along .trans one fun _ => two

theorem forEach_steps {β : Type} {call : β → Engine → Outcome Unit}
    (each : ∀ b e, Steps asked stranding e (call b e).2) (items : List β) (e : Engine) :
    Steps asked stranding e (forEach call items e).2 := by
  induction items generalizing e with
  | nil => exact .refl
  | cons b rest ih =>
    rw [forEach_cons]
    exact andThen_steps (each b e) ih

end Steps

end Engine

end ClassPolicy
