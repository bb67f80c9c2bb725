import ClassPolicy.DecisionCache
import Mathlib.Data.List.Dedup
import Mathlib.Data.List.DropRight
import Mathlib.Data.List.Induction

/-!
# What the decision cache remembers

Stores may claim any generation, and invalidations may come between a value
and its store. After any calls the cache remembers the stores since the last
invalidation that claim the generation in force, of each name the latest.
-/

set_option autoImplicit false

namespace ClassPolicy

/-- A map keyed by names has one entry for each of them. -/
theorem SortedMap.size_eq_dedup {α : Type} {m : SortedMap α} {names : List TypeName}
    (keyed : ∀ text, m.contains text = true ↔ ∃ name ∈ names, name.text = text) :
    m.size = names.dedup.length := by
  have nodup : (names.dedup.map TypeName.text).Nodup :=
    (List.nodup_dedup _).map fun _ _ => TypeName.text_inj.1
  rw [SortedMap.size_eq_length nodup, List.length_map]
  intro text
  rw [keyed]
  simp

/-- A call that changes a decision cache. -/
inductive CacheCall
  | storeDecision (name : TypeName) (generation : Nat) (value : Adaptability)
  | storeMode (name : TypeName) (generation : Nat) (value : TransformMode)
  | invalidate
deriving DecidableEq

/-- A value for a type, with the generation it claims to be computed under. -/
structure Store (α : Type) where
  name : TypeName
  generation : Nat
  value : α

namespace Store

variable {α : Type}

def entry (s : Store α) : String × Tagged α := (s.name.text, ⟨s.generation, s.value⟩)

/-- The value of the last store of a name. -/
def latest? (stores : List (Store α)) (name : TypeName) : Option α :=
  (stores.reverse.find? (·.name = name)).map (·.value)

theorem lookup_map_entry (stores : List (Store α)) (name : TypeName) :
    (stores.map entry).lookup name.text =
      (stores.find? (·.name = name)).map (fun s => ⟨s.generation, s.value⟩) := by
  induction stores with
  | nil => rfl
  | cons s rest ih =>
    rw [List.map_cons, entry, SortedMap.lookup_cons_entry, ih]
    by_cases own : s.name = name
    · simp [own]
    · have other : name.text ≠ s.name.text := fun same => own (TypeName.text_inj.1 same).symm
      rw [if_neg other, List.find?_cons_of_neg (by simpa using own)]

/-- Of stores that claim one generation the latest are served, and only when
asked for that generation. -/
theorem lookup_ofList_map_entry {stores : List (Store α)} {generation : Nat}
    (claimed : ∀ s ∈ stores, s.generation = generation) (name : TypeName) (asked : Nat) :
    DecisionCache.lookup (.ofList (stores.map entry)) name asked =
      if asked = generation then latest? stores name else none := by
  rw [DecisionCache.lookup, SortedMap.get?_ofList, ← List.map_reverse, lookup_map_entry, latest?]
  cases found : stores.reverse.find? (·.name = name) with
  | none => simp
  | some s =>
    have tag : s.generation = generation :=
      claimed s (List.mem_reverse.1 (List.mem_of_find?_eq_some found))
    simp [tag, eq_comm]

theorem size_ofList_map_entry (stores : List (Store α)) :
    (SortedMap.ofList (stores.map entry)).size = (stores.map (·.name)).dedup.length :=
  SortedMap.size_eq_dedup fun text => by simp [SortedMap.contains_ofList, entry]

end Store

namespace CacheCall

variable {α : Type}

def perform : CacheCall → DecisionCache → DecisionCache
  | .storeDecision name generation value => DecisionCache.storeDecision name generation value
  | .storeMode name generation value => DecisionCache.storeMode name generation value
  | .invalidate => DecisionCache.invalidate

def decision? : CacheCall → Option (Store Adaptability)
  | .storeDecision name generation value => some ⟨name, generation, value⟩
  | _ => none

def mode? : CacheCall → Option (Store TransformMode)
  | .storeMode name generation value => some ⟨name, generation, value⟩
  | _ => none

/-- The generation that a store claims. -/
def claimed? : CacheCall → Option Nat
  | .storeDecision _ generation _ => some generation
  | .storeMode _ generation _ => some generation
  | .invalidate => none

def invalidations (calls : List CacheCall) : Nat := calls.count .invalidate

/-- The calls since the last invalidation. -/
def recent (calls : List CacheCall) : List CacheCall := calls.rtakeWhile (· ≠ .invalidate)

/-- The stores of one kind since the last invalidation that claim the
generation in force. -/
def current (store? : CacheCall → Option (Store α)) (calls : List CacheCall) : List (Store α) :=
  ((recent calls).filterMap store?).filter (·.generation = invalidations calls)

theorem generation_of_mem_current {store? : CacheCall → Option (Store α)} {calls : List CacheCall}
    {s : Store α} (member : s ∈ current store? calls) : s.generation = invalidations calls := by
  simpa using (List.mem_filter.1 member).2

theorem current_invalidate (store? : CacheCall → Option (Store α)) (calls : List CacheCall) :
    current store? (calls ++ [.invalidate]) = [] := by
  simp [current, recent]

theorem current_append_singleton (store? : CacheCall → Option (Store α)) (calls : List CacheCall)
    {call : CacheCall} (keeps : call ≠ .invalidate) :
    current store? (calls ++ [call]) = current store? calls ++
      (store? call).toList.filter (·.generation = invalidations calls) := by
  have counted : invalidations (calls ++ [call]) = invalidations calls := by
    simp [invalidations, keeps]
  have kept : recent (calls ++ [call]) = recent calls ++ [call] := by
    simp [recent, keeps]
  cases stored : store? call <;> simp [current, counted, kept, stored]

end CacheCall

namespace DecisionCache

variable {α : Type}

def ofCalls (calls : List CacheCall) : DecisionCache :=
  calls.foldl (fun c call => call.perform c) .empty

theorem ofCalls_append (before after : List CacheCall) :
    ofCalls (before ++ after) = after.foldl (fun c call => call.perform c) (ofCalls before) :=
  List.foldl_append

theorem ofCalls_append_singleton (calls : List CacheCall) (call : CacheCall) :
    ofCalls (calls ++ [call]) = call.perform (ofCalls calls) :=
  ofCalls_append calls [call]

theorem generation_ofCalls (calls : List CacheCall) :
    (ofCalls calls).generation = CacheCall.invalidations calls := by
  induction calls using List.reverseRecOn with
  | nil => rfl
  | append_singleton calls call ih =>
    rw [ofCalls_append_singleton]
    cases call <;> simp [CacheCall.perform, CacheCall.invalidations, invalidate, ih]

/-- A memory of the cache that takes the stores of one kind. -/
structure Takes (memory : DecisionCache → SortedMap (Tagged α))
    (store? : CacheCall → Option (Store α)) : Prop where
  fresh : memory .empty = .empty
  cleared : ∀ c, memory (invalidate c) = .empty
  performed : ∀ call c, call ≠ .invalidate → memory (call.perform c) =
    (((store? call).toList.filter (·.generation = c.generation)).map Store.entry).foldl
      (fun m e => m.insert e.1 e.2) (memory c)

theorem decisions_takes : Takes decisions CacheCall.decision? where
  fresh := rfl
  cleared _ := rfl
  performed call c keeps := by
    cases call with
    | storeDecision name generation value =>
      by_cases same : generation = c.generation <;>
        simp [CacheCall.perform, CacheCall.decision?, storeDecision, Store.entry, same]
    | storeMode name generation value =>
      simp [CacheCall.perform, CacheCall.decision?, storeMode, apply_ite]
    | invalidate => exact absurd rfl keeps

theorem modes_takes : Takes modes CacheCall.mode? where
  fresh := rfl
  cleared _ := rfl
  performed call c keeps := by
    cases call with
    | storeDecision name generation value =>
      simp [CacheCall.perform, CacheCall.mode?, storeDecision, apply_ite]
    | storeMode name generation value =>
      by_cases same : generation = c.generation <;>
        simp [CacheCall.perform, CacheCall.mode?, storeMode, Store.entry, same]
    | invalidate => exact absurd rfl keeps

/-- A memory holds the current stores of its kind. -/
theorem Takes.memory_ofCalls {memory : DecisionCache → SortedMap (Tagged α)}
    {store? : CacheCall → Option (Store α)} (takes : Takes memory store?)
    (calls : List CacheCall) :
    memory (ofCalls calls) = .ofList ((CacheCall.current store? calls).map Store.entry) := by
  induction calls using List.reverseRecOn with
  | nil => exact takes.fresh
  | append_singleton calls call ih =>
    rw [ofCalls_append_singleton]
    by_cases clears : call = .invalidate
    · subst clears
      rw [CacheCall.current_invalidate]
      exact takes.cleared _
    · rw [takes.performed call _ clears, ih, generation_ofCalls,
        CacheCall.current_append_singleton _ _ clears, List.map_append, SortedMap.ofList,
        SortedMap.ofList, List.foldl_append]

theorem perform_eq_self {call : CacheCall} {claimed : Nat} {c : DecisionCache}
    (claims : call.claimed? = some claimed) (other : claimed ≠ c.generation) :
    call.perform c = c := by
  cases call with
  | storeDecision name generation value =>
    cases claims
    exact if_neg other
  | storeMode name generation value =>
    cases claims
    exact if_neg other
  | invalidate => cases claims

/-- What a cache answers after calls. -/
structure Remembers (calls : List CacheCall) (c : DecisionCache) : Prop where
  generation : c.generation = CacheCall.invalidations calls
  decision : ∀ name asked, c.decision? name asked =
    if asked = c.generation then Store.latest? (CacheCall.current CacheCall.decision? calls) name
    else none
  mode : ∀ name asked, c.mode? name asked =
    if asked = c.generation then Store.latest? (CacheCall.current CacheCall.mode? calls) name
    else none
  size : c.size = ((CacheCall.current CacheCall.decision? calls).map (·.name)).dedup.length

/-- After any calls the cache answers, when asked for the generation in force,
with the latest of the stores since the last invalidation that claim it. A
store that claims another generation is as good as not made. -/
theorem remembers_of_calls (calls : List CacheCall) :
    Remembers calls (ofCalls calls) ∧
      ∀ before call after claimed, calls = before ++ call :: after →
        call.claimed? = some claimed → claimed ≠ CacheCall.invalidations before →
          ofCalls calls = ofCalls (before ++ after) := by
  have counted := generation_ofCalls calls
  refine ⟨⟨counted, fun name asked => ?_, fun name asked => ?_, ?_⟩, ?_⟩
  · rw [decision?, decisions_takes.memory_ofCalls, counted]
    exact Store.lookup_ofList_map_entry (fun _ => CacheCall.generation_of_mem_current) name asked
  · rw [mode?, modes_takes.memory_ofCalls, counted]
    exact Store.lookup_ofList_map_entry (fun _ => CacheCall.generation_of_mem_current) name asked
  · rw [size, decisions_takes.memory_ofCalls]
    exact Store.size_ofList_map_entry _
  · rintro before call after claimed rfl claims other
    rw [← generation_ofCalls before] at other
    have dropped : call.perform (ofCalls before) = ofCalls before := perform_eq_self claims other
    rw [ofCalls_append, List.foldl_cons, dropped, ← ofCalls_append]

/-- The policy changes between the first decision and the others. -/
def lateCalls : List CacheCall := [
  .storeDecision (TypeName.ofString "acme.Shop") 0 ⟨true, .includeRule⟩,
  .invalidate,
  .storeDecision (TypeName.ofString "acme.Shop") 0 ⟨true, .includeRule⟩,
  .storeDecision (TypeName.ofString "acme/Shop") 1 ⟨false, .excludeRule⟩,
  .storeDecision (TypeName.ofString "acme.Till") 2 ⟨true, .includeRule⟩]

example : (ofCalls lateCalls).decision? (TypeName.ofString "acme.Shop") 1 =
    some ⟨false, .excludeRule⟩ := by cbv

end DecisionCache

end ClassPolicy
