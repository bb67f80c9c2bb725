import ClassPolicy.Proofs.JsonText
import ClassPolicy.Proofs.Run
import ClassPolicy.Proofs.SpelledCalls
import ClassPolicy.Proofs.SpelledManifest
import Mathlib.Data.List.Nodup
import Mathlib.Data.String.Basic
import Mathlib.Logic.Function.Iterate

/-!
# Runs do not depend on the spelling of type names

Type names and type patterns may be written with slashes or with dots. Two
runs of calls that differ in nothing else give the same answers, except that
errors may repeat the spelling they were given, and so may the pattern in the
answer about a distributed method.

In one place the spelling decides. The keys of a policy's rewriters are spelled
too, and the rewriters are registered in the order of the keys as they are
spelled. Where several keys are spellings of one type the last one counts, and
their spellings decide which that is. So the keys may be respelled as long as
each type keeps the rewriter that comes last.
-/

set_option autoImplicit false

namespace ClassPolicy

/-! ### The rewriters of a policy -/

namespace PolicySettings

/-- The types of a policy's rewriters, in the order in which they are
registered. -/
def typedRewriters (p : PolicySettings) : List (TypeName × String) :=
  p.customRewriters.entries.map (fun entry => (TypeName.ofString entry.1, entry.2))

/-- The rewriters that a policy gives a type under any of its spellings. -/
def rewritersOf (p : PolicySettings) (name : TypeName) : List String :=
  (p.typedRewriters.filter (fun entry => entry.1 = name)).map (·.2)

/-- The policies that differ in the spelling of type names and type patterns
only, and in which the rewriter that comes last for a type is the same. -/
structure Respelled (p p' : PolicySettings) : Prop where
  texts : ({ p with customRewriters := .empty } : PolicySettings).withDots =
    ({ p' with customRewriters := .empty } : PolicySettings).withDots
  typed : p.typedRewriters.Perm p'.typedRewriters
  last : ∀ name, (p.rewritersOf name).getLast? = (p'.rewritersOf name).getLast?

theorem Respelled.withDots_eq {p p' : PolicySettings} (respelled : p.Respelled p') :
    p'.withDots = { p.withDots with customRewriters := p'.customRewriters } :=
  congrArg (fun q : PolicySettings => { q with customRewriters := p'.customRewriters })
    respelled.texts.symm

/-- Keys of which no two are spellings of one type may be respelled in any
way. -/
theorem rewritersOf_of_apart {p p' : PolicySettings}
    (perm : p.typedRewriters.Perm p'.typedRewriters)
    (apart : (p.typedRewriters.map (·.1)).Nodup) (name : TypeName) :
    p.rewritersOf name = p'.rewritersOf name := by
  have listed := (perm.filter (fun entry => entry.1 = name)).map (·.2)
  have single : (p.rewritersOf name).length ≤ 1 := by
    have once := List.nodup_iff_count_le_one.1 apart name
    rw [List.count, List.countP_map, List.countP_eq_length_filter] at once
    simpa [rewritersOf, Function.comp_def, beq_eq_decide] using once
  change (p.rewritersOf name).Perm (p'.rewritersOf name) at listed
  match p.rewritersOf name, single, listed with
  | [], _, listed => exact (List.nil_perm.1 listed).symm
  | [id], _, listed => exact List.singleton_perm.1 listed

end PolicySettings

namespace Engine

/-- Rewriters registered one after the other. -/
def withRewriters (typed : List (TypeName × String)) (rewriters : SortedMap String) :
    SortedMap String :=
  typed.foldl (fun rewriters entry => rewriters.insert entry.1.text entry.2) rewriters

theorem foldl_addRewriter (p : PolicySettings) (e : Engine) :
    p.customRewriters.entries.foldl (fun e entry => e.addRewriter entry.1 entry.2) e =
      { e with
        registries := { e.registries with
          rewriters := withRewriters p.typedRewriters e.registries.rewriters }
        cache := DecisionCache.invalidate^[p.typedRewriters.length] e.cache } := by
  unfold PolicySettings.typedRewriters
  induction p.customRewriters.entries generalizing e with
  | nil => rfl
  | cons entry rest ih =>
    rw [List.foldl_cons, ih]
    rfl

/-- The rewriter registered last for a type is the one that counts. -/
theorem get?_withRewriters (typed : List (TypeName × String)) (rewriters : SortedMap String)
    (key : String) :
    (withRewriters typed rewriters).get? key =
      ((typed.filter (fun entry => entry.1.text = key)).map (·.2)).getLast?.or
        (rewriters.get? key) := by
  induction typed generalizing rewriters with
  | nil => rfl
  | cons entry rest ih =>
    rw [withRewriters, List.foldl_cons, ← withRewriters, ih, SortedMap.get?_insert]
    by_cases here : entry.1.text = key
    · cases last : ((rest.filter (fun entry => entry.1.text = key)).map (·.2)).getLast? <;>
        simp [here, List.getLast?_cons, last]
    · simp [here, Ne.symm here]

theorem withRewriters_congr {p p' : PolicySettings}
    (last : ∀ name, (p.rewritersOf name).getLast? = (p'.rewritersOf name).getLast?)
    (rewriters : SortedMap String) :
    withRewriters p.typedRewriters rewriters = withRewriters p'.typedRewriters rewriters := by
  refine SortedMap.ext_get? fun key => ?_
  rw [get?_withRewriters, get?_withRewriters]
  by_cases dotted : ∃ name : TypeName, name.text = key
  · obtain ⟨name, rfl⟩ := dotted
    have listed := last name
    simp only [PolicySettings.rewritersOf] at listed
    simp only [TypeName.text_inj, listed]
  · have nowhere : ∀ name : TypeName, name.text ≠ key := fun name same => dotted ⟨name, same⟩
    simp [nowhere]

/-- Of the rewriters of a type the last one counts, and of all of them their
number. -/
theorem applyPolicy_rewriters {p : PolicySettings} {rewriters : SortedMap String}
    (typed : ({ p with customRewriters := rewriters } : PolicySettings).typedRewriters.Perm
      p.typedRewriters)
    (last : ∀ name,
      (({ p with customRewriters := rewriters } : PolicySettings).rewritersOf name).getLast? =
        (p.rewritersOf name).getLast?) :
    applyPolicy { p with customRewriters := rewriters } = applyPolicy p := by
  have registered : ∀ e : Engine,
      rewriters.entries.foldl (fun e entry => e.addRewriter entry.1 entry.2) e =
        p.customRewriters.entries.foldl (fun e entry => e.addRewriter entry.1 entry.2) e := by
    intro e
    have respelled := foldl_addRewriter { p with customRewriters := rewriters } e
    rw [withRewriters_congr last, typed.length_eq] at respelled
    exact respelled.trans (foldl_addRewriter p e).symm
  funext e
  have checked : ({ p with customRewriters := rewriters } : PolicySettings).validate =
    p.validate := rfl
  simp only [applyPolicy, checked, registered]

theorem applyPolicy_respelled {p p' : PolicySettings} (respelled : p.Respelled p') :
    applyPolicy p'.withDots = applyPolicy p.withDots := by
  rw [respelled.withDots_eq]
  exact applyPolicy_rewriters respelled.typed.symm fun name => (respelled.last name).symm

end Engine

/-! ### Runs -/

/-- Calls that differ in the spelling of type names and type patterns only. -/
inductive AnyCall.Respelled : AnyCall → AnyCall → Prop
  | call {α : Type} {c c' : Call α} (same : c.withDots = c'.withDots) : Respelled ⟨c⟩ ⟨c'⟩
  | policy {p p' : PolicySettings} (respelled : p.Respelled p') :
      Respelled ⟨.applyPolicy p⟩ ⟨.applyPolicy p'⟩

namespace Engine

/-- The answers to calls made one after the other. -/
def answers : List AnyCall → Engine → List Answer
  | [], _ => []
  | c :: rest, e => c.call.answer (e.perform c.call).1 :: answers rest (e.perform c.call).2

theorem perform_respelled {c c' : AnyCall} (respelled : c.Respelled c') {e e' : Engine}
    (alike : e.withDots = e'.withDots) :
    (c.call.answer (e.perform c.call).1).withDots =
        (c'.call.answer (e'.perform c'.call).1).withDots ∧
      (e.perform c.call).2.withDots = (e'.perform c'.call).2.withDots := by
  cases respelled with
  | @call α c c' same =>
    -- Both are the same call on the same engine once everything is dotted.
    have kinds : c.answer = c'.answer := by rw [← c.answer_withDots, same, c'.answer_withDots]
    have given := perform_withDots c e
    rw [same, alike] at given
    have given' := perform_withDots c' e'
    exact ⟨by rw [← given.answer, kinds, given'.answer], given.engine.symm.trans given'.engine⟩
  | @policy p p' respelled =>
    have same : Outcome.withDots (e.applyPolicy p) = Outcome.withDots (e'.applyPolicy p') := by
      rw [← applyPolicy_withDots, ← applyPolicy_respelled respelled, alike, applyPolicy_withDots]
    have both := Call.alike_of_eq same (.applyPolicy p)
    exact ⟨both.answer, both.engine⟩

theorem answers_respelled {calls calls' : List AnyCall}
    (respelled : List.Forall₂ AnyCall.Respelled calls calls') {e e' : Engine}
    (alike : e.withDots = e'.withDots) :
    (e.answers calls).map Answer.withDots = (e'.answers calls').map Answer.withDots ∧
      (e.run calls).withDots = (e'.run calls').withDots := by
  induction respelled generalizing e e' with
  | nil => exact ⟨rfl, alike⟩
  | cons first _ ih =>
    obtain ⟨answered, left⟩ := perform_respelled first alike
    obtain ⟨later, final⟩ := ih left
    exact ⟨congrArg₂ List.cons answered later, final⟩

end Engine

/-! ### From settings -/

/-- Settings that differ in the spelling of type names and type patterns
only. -/
structure Settings.Respelled (s s' : Settings) : Prop where
  policy : s.policy.Respelled s'.policy
  others : { s with policy := {} } = { s' with policy := {} }

namespace Engine

/-- Of the file only the manifest in it counts. -/
theorem bootstrap_manifest {file file' : FileContent}
    (same : ∀ path, Manifest.ofFile path file = Manifest.ofFile path file')
    (settings : Settings) : bootstrap settings file = bootstrap settings file' := by
  have admitted : admitInventory settings.inventory file =
      admitInventory settings.inventory file' := by
    funext e
    simp only [admitInventory, same]
  simp only [bootstrap, admitted]

theorem bootstrap_respelled {settings settings' : Settings}
    (respelled : settings.Respelled settings') (manifest : FileContent) :
    Outcome.withDots (bootstrap settings manifest) =
      Outcome.withDots (bootstrap settings' manifest) := by
  have others : settings' = { settings with policy := settings'.policy } :=
    congrArg (fun s : Settings => { s with policy := settings'.policy }) respelled.others.symm
  have applied : applyPolicy settings'.policy.withDots = applyPolicy settings.policy.withDots :=
    applyPolicy_respelled respelled.policy
  rw [← bootstrap_withDots, ← bootstrap_withDots settings', others]
  simp only [bootstrap, applied]
  rw [respelled.policy.withDots_eq]
  rfl

/-- Whatever the spelling of type names and type patterns, an engine is built
alike, every call in a run gives the same answer, and the engines left are the
same. Failures differ at most in the texts they repeat, answers about
distributed methods in the pattern that they repeat, and engines in the texts of
their patterns. -/
theorem runs_agree_across_spellings :
    (∀ name : TypeName, '/' ∉ name.text.toList) ∧
    (∀ spelling spelling' : String,
      TypeName.ofString spelling = TypeName.ofString spelling' ↔
        dottedText spelling = dottedText spelling') ∧
    (∀ (settings settings' : Settings) (file file' : FileContent),
      settings.Respelled settings' → file.Respelled file' →
        Outcome.withDots (bootstrap settings file) =
          Outcome.withDots (bootstrap settings' file')) ∧
    ∀ (e e' : Engine) (calls calls' : List AnyCall), e.withDots = e'.withDots →
      List.Forall₂ AnyCall.Respelled calls calls' →
        (e.answers calls).map Answer.withDots = (e'.answers calls').map Answer.withDots ∧
          (e.run calls).withDots = (e'.run calls').withDots := by
  refine ⟨TypeName.noSlash, fun _ _ => ofString_eq_iff, ?_, fun _ _ _ _ alike respelled =>
    answers_respelled respelled alike⟩
  intro settings settings' file file' respelled same
  rw [bootstrap_respelled respelled, bootstrap_manifest (Manifest.ofFile_respelled same)]

/-- The type that the settings, the inventory and the calls of a bank name, with
either separator. -/
def spelledVault (separator : String) : String := "acme" ++ separator ++ "Vault"

def openingsOf (separator : String) : String := "* " ++ spelledVault separator ++ ".open(..)"

def bankSettings (separator : String) : Settings where
  policy :=
    { permanentExcludes := [spelledVault separator]
      transientFields := [spelledVault separator ++ "." ++ "key"]
      distributedMethods := [{ expression := openingsOf separator }]
      customRewriters := ⟨[(spelledVault separator, "sealed")], by simp⟩ }
  inventory := { manifestPath := some "inventory.json" }

def vaultDocument (separator : String) : Json :=
  .object [("types", .array [.string (spelledVault separator)])]

def vaultFile (separator : String) : FileContent := .text (vaultDocument separator).compact

def bankCalls (separator : String) : List AnyCall :=
  [⟨.rewriter (spelledVault separator)⟩, ⟨.hasSpec (spelledVault separator)⟩,
    ⟨.distributedFor (.named (.ofString (spelledVault separator)) "open")⟩,
    ⟨.addExclude (spelledVault separator)⟩,
    ⟨.explain (.named (.ofString (spelledVault separator)))⟩,
    ⟨.addAutolock (openingsOf separator) ⟨.write, false⟩ none⟩,
    ⟨.locksFor (.named (.ofString (spelledVault separator)) "open")⟩,
    ⟨.rootName (spelledVault separator) "door"⟩, ⟨.applyPolicy (bankSettings separator).policy⟩]

theorem dottedText_spelledVault : dottedText (spelledVault "/") = dottedText (spelledVault ".") :=
  String.toList_injective (by rw [toList_dottedText, toList_dottedText]; decide)

theorem dottedMember_openingsOf :
    dottedMember (openingsOf "/") = dottedMember (openingsOf ".") := by
  decide +kernel

theorem bank_typedRewriters : (bankSettings "/").policy.typedRewriters.Perm
    (bankSettings ".").policy.typedRewriters := by
  have same := ofString_eq_iff.2 dottedText_spelledVault
  simp [PolicySettings.typedRewriters, bankSettings, same]

theorem bank_respelled : (bankSettings "/").Respelled (bankSettings ".") where
  policy.texts := by
    have field :
        dottedField (spelledVault "/" ++ "." ++ "key") =
          dottedField (spelledVault "." ++ "." ++ "key") := by
      rw [← dottedField_append, dottedText_spelledVault, dottedField_append]
    simp [PolicySettings.withDots, bankSettings, DistributedEntry.withDots,
      dottedText_spelledVault, dottedMember_openingsOf, field]
  policy.typed := bank_typedRewriters
  policy.last name := congrArg List.getLast?
    (PolicySettings.rewritersOf_of_apart bank_typedRewriters (List.nodup_singleton _) name)
  others := rfl

theorem vaultFile_respelled : (vaultFile "/").Respelled (vaultFile ".") := by
  have parsed : ∀ separator, Json.parse? (vaultDocument separator).compact =
      some (vaultDocument separator) := by
    intro separator
    have textual : (vaultDocument separator).isTextual = true := rfl
    simpa using Json.parse?_compact textual Json.empty_gap
  refine .document (parsed "/") (parsed ".") ?_
  simp [vaultDocument, Manifest.dottedDocument, Json.changeMember, Manifest.dottedItems,
    Manifest.dottedItem, dottedText_spelledVault]

theorem bank_agrees_across_spellings :
    Outcome.withDots (bootstrap (bankSettings "/") (vaultFile "/")) =
      Outcome.withDots (bootstrap (bankSettings ".") (vaultFile ".")) ∧
    ((bootstrap (bankSettings "/") (vaultFile "/")).2.answers (bankCalls "/")).map
        Answer.withDots =
      ((bootstrap (bankSettings ".") (vaultFile ".")).2.answers (bankCalls ".")).map
        Answer.withDots := by
  obtain ⟨-, names, starts, runs⟩ := runs_agree_across_spellings
  have name := (names _ _).2 dottedText_spelledVault
  have started := starts _ _ _ _ bank_respelled vaultFile_respelled
  refine ⟨started, (runs _ _ _ _ (congrArg Prod.snd started) ?_).1⟩
  refine .cons (.call ?_) (.cons (.call ?_) (.cons (.call ?_) (.cons (.call ?_) (.cons (.call ?_)
    (.cons (.call ?_) (.cons (.call ?_) (.cons (.call ?_)
      (.cons (.policy bank_respelled.policy) .nil))))))))
  · exact congrArg Call.rewriter dottedText_spelledVault
  · exact congrArg Call.hasSpec dottedText_spelledVault
  · exact congrArg (fun name => Call.distributedFor (.named name "open")) name
  · exact congrArg Call.addExclude dottedText_spelledVault
  · exact congrArg (fun name => Call.explain (.named name)) name
  · exact congrArg (Call.addAutolock · _ none) dottedMember_openingsOf
  · exact congrArg (fun name => Call.locksFor (.named name "open")) name
  · exact congrArg (Call.rootName · "door") dottedText_spelledVault

end Engine

/-! ### Where the spelling shows -/

theorem dottedVault_lt : "acme.Vault" < "acme/Vault" := String.lt_iff_toList_lt.2 (by decide)

/-- A policy that gives one type two rewriters, one under each spelling. -/
def twoVaults (dotted slashed : String) : PolicySettings :=
  { customRewriters :=
    { entries := [("acme.Vault", dotted), ("acme/Vault", slashed)]
      increasing := List.pairwise_pair.2 dottedVault_lt } }

theorem ofString_vault : TypeName.ofString "acme/Vault" = TypeName.ofString "acme.Vault" :=
  ofString_eq_iff.2 (String.toList_injective (by
    rw [toList_dottedText, toList_dottedText]
    decide))

/-- The key with the slash comes last, and its rewriter counts. -/
theorem rewriter_twoVaults (dotted slashed : String) :
    (((Engine.ofOptions {}).run [⟨.applyPolicy (twoVaults dotted slashed)⟩]).perform
      (.rewriter "acme.Vault")).1 = .ok (some slashed) := by
  have registered :
      ((Engine.ofOptions {}).run [⟨.applyPolicy (twoVaults dotted slashed)⟩]).registries.rewriters =
        Engine.withRewriters (twoVaults dotted slashed).typedRewriters .empty := rfl
  refine congrArg Except.ok ?_
  rw [registered, Engine.get?_withRewriters]
  simp [PolicySettings.typedRewriters, twoVaults, ofString_vault]

/-- A distributed method is answered with its pattern as it was registered. -/
theorem distributedFor_addDistributed {method : DistributedMethod} {m : MemberDescriptor}
    (movable : (m.modifiers.has .static || m.isInitializer) = false)
    (taken : matchMember method.pattern m = .ok true) :
    (((Engine.ofOptions {}).run [⟨.addDistributed method⟩]).perform (.distributedFor m)).1 =
      .ok (some method) := by
  have registered : ((Engine.ofOptions {}).run [⟨.addDistributed method⟩]).registries.distributed =
      [method] := rfl
  simp only [Engine.perform, Engine.asked, registered, DistributedMethod.lookup, movable,
    DistributedMethod.firstMatch, taken]
  rfl

/-- With the two spellings of a key exchanged the other rewriter counts, and a
distributed method is answered in either spelling. -/
theorem spellings_told_apart :
    (({ twoVaults "sealed" "open" with customRewriters := .empty } : PolicySettings) =
        { twoVaults "open" "sealed" with customRewriters := .empty } ∧
      (twoVaults "sealed" "open").typedRewriters.Perm (twoVaults "open" "sealed").typedRewriters ∧
      (((Engine.ofOptions {}).run [⟨.applyPolicy (twoVaults "sealed" "open")⟩]).perform
        (.rewriter "acme.Vault")).1 = .ok (some "open") ∧
      (((Engine.ofOptions {}).run [⟨.applyPolicy (twoVaults "open" "sealed")⟩]).perform
        (.rewriter "acme.Vault")).1 = .ok (some "sealed")) ∧
    ∀ pattern ∈ ["* acme/Bus.publish(..)", "* acme.Bus.publish(..)"],
      (((Engine.ofOptions {}).run [⟨.addDistributed ⟨pattern, true⟩⟩]).perform
        (.distributedFor (.named (.ofString "acme.Bus") "publish"))).1 =
          .ok (some ⟨pattern, true⟩) := by
  refine ⟨⟨rfl, ?_, rewriter_twoVaults _ _, rewriter_twoVaults _ _⟩, ?_⟩
  · simp only [PolicySettings.typedRewriters, twoVaults, List.map_cons, List.map_nil,
      ofString_vault]
    exact .swap _ _ _
  · have taken : ∀ pattern ∈ ["* acme/Bus.publish(..)", "* acme.Bus.publish(..)"],
        matchMember pattern (.named (.ofString "acme.Bus") "publish") = .ok true := by
      decide +kernel
    exact fun pattern listed => distributedFor_addDistributed (by decide) (taken pattern listed)

end ClassPolicy
