import ClassPolicy.Proofs.MemberPatternMeaning
import ClassPolicy.Proofs.NameSpelling

/-!
# Members in either spelling

The declaring type of a member is kept in the dotted spelling, its return type
and parameter types as the loader spells them. A member pattern is blind to the
spelling exactly if it matches no member or all its return and parameter
patterns are blind, and what locks and distributed methods say of a member
depends on its spelling only where a pattern is not.
-/

set_option autoImplicit false

namespace ClassPolicy

/-! ### Members as they are supplied -/

/-- The text is the name itself or, where the name is dotted, its slash form. -/
def Respelled (name text : String) : Prop :=
  text = name ∨ '/' ∉ name.toList ∧ text = slashedText name

/-- A member with its types spelled as the loader spells them. -/
structure SuppliedMember where
  declaringType : String
  name : String
  modifiers : Modifiers
  returnType : String
  parameterTypes : List String

namespace SuppliedMember

def descriptor (m : SuppliedMember) : MemberDescriptor :=
  ⟨TypeName.ofString m.declaringType, m.name, m.modifiers, m.returnType, m.parameterTypes⟩

/-- A member that is known, with other types in its signature. -/
def ofRetyped (m : MemberDescriptor) (returnType : String) (parameterTypes : List String) :
    SuppliedMember :=
  ⟨m.declaringType.text, m.name, m.modifiers, returnType, parameterTypes⟩

theorem descriptor_ofRetyped (m : MemberDescriptor) (returnType : String)
    (parameterTypes : List String) :
    (ofRetyped m returnType parameterTypes).descriptor =
      { m with returnType, parameterTypes } := by
  simp only [descriptor, ofRetyped, TypeName.ofString_text]

/-- The member with its types in the dotted spelling. -/
def withDots (m : SuppliedMember) : SuppliedMember :=
  { m with
    declaringType := dottedText m.declaringType
    returnType := dottedText m.returnType
    parameterTypes := m.parameterTypes.map dottedText }

/-- The members differ in that some types of the second one are written in
slash form. -/
structure Slashed (m m' : SuppliedMember) : Prop where
  declaringType : Respelled m.declaringType m'.declaringType
  name : m'.name = m.name
  modifiers : m'.modifiers = m.modifiers
  returnType : Respelled m.returnType m'.returnType
  parameterTypes : List.Forall₂ Respelled m.parameterTypes m'.parameterTypes

end SuppliedMember

theorem Respelled.dottedText_eq {name text : String} (respelled : Respelled name text) :
    dottedText text = dottedText name := by
  rcases respelled with rfl | ⟨-, rfl⟩
  · rfl
  · exact dottedText_slashedText name

theorem SuppliedMember.Slashed.withDots_eq {m m' : SuppliedMember} (slashed : m.Slashed m') :
    m'.withDots = m.withDots := by
  have types : m.parameterTypes.map dottedText = m'.parameterTypes.map dottedText := by
    rw [← List.forall₂_eq_eq_eq, List.forall₂_map_left_iff, List.forall₂_map_right_iff]
    exact slashed.parameterTypes.imp fun _ _ respelled => respelled.dottedText_eq.symm
  simp only [withDots, types, slashed.name, slashed.modifiers, slashed.declaringType.dottedText_eq,
    slashed.returnType.dottedText_eq]

/-! ### Parameter types -/

namespace TypesMatch

variable {parameters before after : List ParameterPattern} {types : List String}

theorem map_dottedText_iff (blind : ∀ q, .type q ∈ parameters → q.SpellingBlind) :
    TypesMatch parameters (types.map dottedText) ↔ TypesMatch parameters types := by
  induction parameters generalizing types with
  | nil =>
    cases types with
    | nil => rfl
    | cons type types => exact iff_of_false nofun nofun
  | cons entry rest ih =>
    have later : ∀ q, .type q ∈ rest → q.SpellingBlind := fun q member =>
      blind q (List.mem_cons_of_mem _ member)
    cases entry with
    | anyRun =>
      rw [anyRun_cons_iff, anyRun_cons_iff]
      constructor
      · rintro ⟨_, _, split, matched⟩
        obtain ⟨run, others, rfl, rfl, rfl⟩ := List.map_eq_append_iff.1 split
        exact ⟨run, others, rfl, (ih later).1 matched⟩
      · rintro ⟨run, others, rfl, matched⟩
        exact ⟨_, _, List.map_append, (ih later).2 matched⟩
    | type q =>
      have here := blind q List.mem_cons_self
      rw [type_cons_iff, type_cons_iff]
      constructor
      · rintro ⟨_, _, split, first, matched⟩
        obtain ⟨type, others, rfl, rfl, rfl⟩ := List.map_eq_cons_iff.1 split
        rw [here.matchesName_dottedText] at first
        exact ⟨type, others, rfl, first, (ih later).1 matched⟩
      · rintro ⟨type, others, rfl, first, matched⟩
        refine ⟨_, _, List.map_cons, ?_, (ih later).2 matched⟩
        rwa [here.matchesName_dottedText]

/-- One name for each type of a list, as short as they come. -/
def sampleTypes : List ParameterPattern → List String
  | [] => []
  | .anyRun :: rest => sampleTypes rest
  | .type q :: rest => String.ofList q.glob.sample :: sampleTypes rest

/-- A name in one place of a list, and one name for each type around it. -/
def placed (before : List ParameterPattern) (name : String) (after : List ParameterPattern) :
    List String :=
  sampleTypes before ++ name :: sampleTypes after

theorem sampleTypes_append (before after : List ParameterPattern) :
    sampleTypes (before ++ after) = sampleTypes before ++ sampleTypes after := by
  induction before with
  | nil => rfl
  | cons entry before ih =>
    cases entry with
    | anyRun => exact ih
    | type q => exact congrArg (_ :: ·) ih

theorem of_sampleTypes (parameters : List ParameterPattern) :
    TypesMatch parameters (sampleTypes parameters) := by
  induction parameters with
  | nil => exact .nil
  | cons entry rest ih =>
    cases entry with
    | anyRun => exact anyRun_cons_iff.2 ⟨[], _, rfl, ih⟩
    | type q => exact .type q.matchesName_sample ih

theorem length_le (matched : TypesMatch parameters types) :
    (sampleTypes parameters).length ≤ types.length := by
  induction matched with
  | nil => exact Nat.le_refl _
  | anyRun later ih =>
    rw [List.length_append]
    exact Nat.le_add_left_of_le ih
  | type here later ih => exact Nat.succ_le_succ ih

/-- Where there is just one type for each entry, an entry is asked about the
type in its place. -/
theorem in_place_iff {q : TypePattern} {name : String} :
    TypesMatch (before ++ .type q :: after) (placed before name after) ↔
      q.matchesName name = true := by
  rw [placed]
  induction before with
  | nil =>
    rw [List.nil_append, sampleTypes, List.nil_append, type_cons_iff]
    constructor
    · rintro ⟨_, _, ⟨⟩, here, -⟩
      exact here
    · exact fun here => ⟨_, _, rfl, here, of_sampleTypes after⟩
  | cons entry before ih =>
    cases entry with
    | anyRun =>
      rw [List.cons_append, anyRun_cons_iff]
      constructor
      · rintro ⟨run, others, split, matched⟩
        have least := matched.length_le
        have lengths := congrArg List.length split
        simp only [sampleTypes, sampleTypes_append, List.length_append, List.length_cons]
          at least lengths
        have none : run = [] := List.length_eq_zero_iff.1 (by omega)
        rw [none, List.nil_append] at split
        rw [← split] at matched
        exact ih.1 matched
      · exact fun here => ⟨[], _, rfl, ih.2 here⟩
    | type first =>
      rw [List.cons_append, type_cons_iff]
      constructor
      · rintro ⟨_, _, ⟨⟩, -, matched⟩
        exact ih.1 matched
      · exact fun here => ⟨_, _, rfl, first.matchesName_sample, ih.2 here⟩

end TypesMatch

/-! ### Member patterns -/

namespace MemberPattern

/-- No member matches, or the return type and every parameter type are asked
for by blind patterns. -/
def SpellingBlind (p : MemberPattern) : Prop :=
  (∀ m, p.matchesMember m = false) ∨
    p.returns.SpellingBlind ∧ ∀ q, .type q ∈ p.parameters → q.SpellingBlind

theorem mergeRuns_subset (parameters : List ParameterPattern) :
    mergeRuns parameters ⊆ parameters := by
  fun_induction mergeRuns parameters with
  | case1 rest ih => exact List.Subset.trans ih (List.subset_cons_self _ _)
  | case2 entry rest _ ih => exact List.cons_subset_cons entry ih
  | case3 => exact List.Subset.refl _

theorem exists_entry {entries : List (List Char)} {parameters : List ParameterPattern}
    (read : List.Forall₂ EntryReads entries parameters) {parameter : ParameterPattern}
    (member : parameter ∈ parameters) : ∃ entry, EntryReads entry parameter := by
  induction read with
  | nil => cases member
  | cons here _ ih =>
    rcases List.mem_cons.1 member with rfl | later
    · exact ⟨_, here⟩
    · exact ih later

variable {pattern : String} {p : MemberPattern}

/-- The type patterns of a member pattern are made of texts themselves. -/
theorem exists_text_of_mem (accepted : compile pattern = .ok p) {q : TypePattern}
    (member : q = p.returns ∨ .type q ∈ p.parameters) :
    ∃ text, TypePattern.compile text = .ok q := by
  obtain ⟨o, -, -, returns, -, -, list⟩ := compile_eq_ok_iff.1 accepted
  rcases member with rfl | member
  · exact ⟨_, returns⟩
  · obtain ⟨parameters, reads⟩ := exists_reads list
    have merged : p.parameters = mergeRuns parameters :=
      Except.ok.inj (list.symm.trans (parameters?_of_reads reads pattern))
    rw [merged] at member
    have listed := mergeRuns_subset parameters member
    cases reads with
    | blank only => cases listed
    | entries read =>
      obtain ⟨entry, reads⟩ := exists_entry read listed
      cases reads with
      | type accepted => exact ⟨_, accepted⟩

/-- What a member with a matching name and declaring type is asked besides. -/
theorem matchesMember_retyped {m : MemberDescriptor} (matched : p.matchesMember m = true)
    (returnType : String) (parameterTypes : List String) :
    p.matchesMember { m with returnType, parameterTypes } =
      (p.returns.matchesName returnType && matchesParameters p.parameters parameterTypes) := by
  simp only [matchesMember, Bool.and_eq_true] at matched ⊢
  obtain ⟨⟨⟨⟨⟨required, forbidden⟩, name⟩, declaring⟩, -⟩, -⟩ := matched
  simp only [required, forbidden, name, declaring, Bool.true_and]

theorem SpellingBlind.matchesMember_withDots (blind : p.SpellingBlind) (m : SuppliedMember) :
    p.matchesMember m.withDots.descriptor = p.matchesMember m.descriptor := by
  rcases blind with none | ⟨returns, parameters⟩
  · rw [none, none]
  · have types : matchesParameters p.parameters (m.parameterTypes.map dottedText) =
        matchesParameters p.parameters m.parameterTypes := by
      rw [Bool.eq_iff_iff, matchesParameters_iff, matchesParameters_iff,
        TypesMatch.map_dottedText_iff parameters]
    simp only [matchesMember, SuppliedMember.descriptor, SuppliedMember.withDots,
      ofString_dottedText, returns.matchesName_dottedText, types]

/-- Putting a dotted name or its slash form in one place of a member changes
the answer of a pattern that is not blind. -/
theorem exists_slashed_apart (accepted : compile pattern = .ok p) (sighted : ¬p.SpellingBlind) :
    ∃ m m' : SuppliedMember, m.Slashed m' ∧
      p.matchesMember m'.descriptor ≠ p.matchesMember m.descriptor := by
  simp only [SpellingBlind, not_or, not_forall, Bool.not_eq_false] at sighted
  obtain ⟨⟨m, matched⟩, sighted⟩ := sighted
  have asked : p.returns.matchesName m.returnType = true ∧
      matchesParameters p.parameters m.parameterTypes = true := by
    rw [← Bool.and_eq_true, ← matchesMember_retyped matched]
    exact matched
  have same (types : List String) : List.Forall₂ Respelled types types :=
    List.forall₂_same.2 fun _ _ => .inl rfl
  by_cases returns : p.returns.SpellingBlind
  · obtain ⟨q, member, sees⟩ : ∃ q, .type q ∈ p.parameters ∧ ¬q.SpellingBlind := by
      simpa [returns] using sighted
    obtain ⟨text, read⟩ := exists_text_of_mem accepted (.inr member)
    obtain ⟨name, dotted, apart⟩ := TypePattern.exists_respelled_apart read sees
    obtain ⟨before, after, split⟩ := List.append_of_mem member
    have answer (name : String) :
        p.matchesMember { m with parameterTypes := TypesMatch.placed before name after } =
          q.matchesName name := by
      rw [matchesMember_retyped matched, asked.1, Bool.true_and, Bool.eq_iff_iff,
        matchesParameters_iff, split, TypesMatch.in_place_iff]
    refine ⟨.ofRetyped m m.returnType (TypesMatch.placed before name after),
      .ofRetyped m m.returnType (TypesMatch.placed before (slashedText name) after),
      ⟨.inl rfl, rfl, rfl, .inl rfl, ?_⟩, ?_⟩
    · exact List.rel_append (same _) (.cons (.inr ⟨dotted, rfl⟩) (same _))
    · rwa [SuppliedMember.descriptor_ofRetyped, SuppliedMember.descriptor_ofRetyped, answer, answer]
  · obtain ⟨text, read⟩ := exists_text_of_mem accepted (.inl rfl)
    obtain ⟨name, dotted, apart⟩ := TypePattern.exists_respelled_apart read returns
    have answer (name : String) :
        p.matchesMember { m with returnType := name } = p.returns.matchesName name := by
      rw [matchesMember_retyped matched, asked.2, Bool.and_true]
    refine ⟨.ofRetyped m name m.parameterTypes, .ofRetyped m (slashedText name) m.parameterTypes,
      ⟨.inl rfl, rfl, rfl, .inr ⟨dotted, rfl⟩, same _⟩, ?_⟩
    rwa [SuppliedMember.descriptor_ofRetyped, SuppliedMember.descriptor_ofRetyped, answer, answer]

theorem matchMember_of_read {pattern : String} {p : MemberPattern}
    (read : compile pattern = .ok p) (m : MemberDescriptor) :
    matchMember pattern m = .ok (p.matchesMember m) := by
  simp only [matchMember, read, Except.map]

/-- A pattern is blind exactly if writing types of a member in slash form never
changes its answer. -/
theorem spellingBlind_iff (accepted : compile pattern = .ok p) :
    p.SpellingBlind ↔ ∀ m m' : SuppliedMember, m.Slashed m' →
      matchMember pattern m'.descriptor = matchMember pattern m.descriptor := by
  simp only [matchMember_of_read accepted, Except.ok.injEq]
  constructor
  · intro blind m m' slashed
    rw [← blind.matchesMember_withDots m, ← slashed.withDots_eq, blind.matchesMember_withDots]
  · intro same
    by_contra sighted
    obtain ⟨m, m', slashed, apart⟩ := exists_slashed_apart accepted sighted
    exact apart (same m m' slashed)

end MemberPattern

/-! ### What is said of a member -/

section Alike

variable {m m' : MemberDescriptor}

theorem anyMatches_congr {patterns : List String}
    (same : ∀ pattern ∈ patterns, matchMember pattern m' = matchMember pattern m) :
    LockPolicy.anyMatches m' patterns = LockPolicy.anyMatches m patterns := by
  induction patterns with
  | nil => rfl
  | cons pattern rest ih =>
    obtain ⟨first, later⟩ := List.forall_mem_cons.1 same
    simp only [LockPolicy.anyMatches, first, ih later]

theorem collect_congr {rules : List LockRule}
    (same : ∀ rule ∈ rules, matchMember rule.pattern m' = matchMember rule.pattern m)
    (autolockOpen : Bool) :
    LockPolicy.collect m' autolockOpen rules = LockPolicy.collect m autolockOpen rules := by
  induction rules generalizing autolockOpen with
  | nil => rfl
  | cons rule rest ih =>
    obtain ⟨first, later⟩ := List.forall_mem_cons.1 same
    simp only [LockPolicy.collect, first, ih later]

theorem firstMatch_congr {methods : List DistributedMethod}
    (same : ∀ d ∈ methods, matchMember d.pattern m' = matchMember d.pattern m) :
    DistributedMethod.firstMatch m' methods = DistributedMethod.firstMatch m methods := by
  induction methods with
  | nil => rfl
  | cons d rest ih =>
    obtain ⟨first, later⟩ := List.forall_mem_cons.1 same
    simp only [DistributedMethod.firstMatch, first, ih later]

end Alike

/-- The member patterns of locks, of exemptions from autolocks and of
distributed methods. -/
def Registries.memberPatterns (r : Registries) : List String :=
  r.locks.rules.map (·.pattern) ++ r.locks.autolockExcludes ++ r.distributed.map (·.pattern)

namespace MemberPattern

/-- A pattern that is blind wherever it can be read answers alike for a member
in either spelling. -/
theorem matchMember_of_alike {pattern : String}
    (blind : ∀ p, compile pattern = .ok p → p.SpellingBlind) {m m' : SuppliedMember}
    (alike : m'.withDots = m.withDots) :
    matchMember pattern m'.descriptor = matchMember pattern m.descriptor := by
  cases read : compile pattern with
  | error e => rw [matchMember_eq_error_iff.2 read, matchMember_eq_error_iff.2 read]
  | ok p =>
    have blind := blind p read
    rw [matchMember_of_read read, matchMember_of_read read, ← blind.matchesMember_withDots m,
      ← alike, blind.matchesMember_withDots]

end MemberPattern

namespace Engine

/-- What the engine says of the locks and the distribution of two members is the
same. -/
structure SaysAlike (e : Engine) (m m' : MemberDescriptor) : Prop where
  locks : e.perform (.locksFor m') = e.perform (.locksFor m)
  lockMethod : e.perform (.isLockMethod m') = e.perform (.isLockMethod m)
  autolock : e.perform (.autolockFor m') = e.perform (.autolockFor m)
  distributed : e.perform (.distributedFor m') = e.perform (.distributedFor m)

theorem saysAlike_of_blind {e : Engine}
    (blind : ∀ pattern ∈ e.registries.memberPatterns,
      ∀ p, MemberPattern.compile pattern = .ok p → p.SpellingBlind)
    {m m' : SuppliedMember} (alike : m'.withDots = m.withDots) :
    e.SaysAlike m.descriptor m'.descriptor := by
  have same (pattern : String) (member : pattern ∈ e.registries.memberPatterns) :
      matchMember pattern m'.descriptor = matchMember pattern m.descriptor :=
    MemberPattern.matchMember_of_alike (blind pattern member) alike
  have name : m'.descriptor.name = m.descriptor.name := (SuppliedMember.mk.inj alike).2.1
  have modifiers : m'.descriptor.modifiers = m.descriptor.modifiers :=
    (SuppliedMember.mk.inj alike).2.2.1
  have excluded : e.registries.locks.isAutolockExcluded m'.descriptor =
      e.registries.locks.isAutolockExcluded m.descriptor :=
    anyMatches_congr fun pattern member => same pattern (by simp [Registries.memberPatterns, member])
  have locks : e.registries.locks.definitionsFor m'.descriptor =
      e.registries.locks.definitionsFor m.descriptor := by
    have collected := collect_congr fun rule (member : rule ∈ e.registries.locks.rules) =>
      same rule.pattern (List.mem_append_left _ (List.mem_append_left _
        (List.mem_map_of_mem member)))
    simp only [LockPolicy.definitionsFor, excluded, collected]
  have distributed : DistributedMethod.lookup e.registries.distributed m'.descriptor =
      DistributedMethod.lookup e.registries.distributed m.descriptor := by
    have first := firstMatch_congr fun d (member : d ∈ e.registries.distributed) =>
      same d.pattern (List.mem_append_right _ (List.mem_map_of_mem member))
    have initializer : m'.descriptor.isInitializer = m.descriptor.isInitializer := by
      rw [MemberDescriptor.isInitializer, MemberDescriptor.isInitializer, name]
    rw [DistributedMethod.lookup, DistributedMethod.lookup, first, initializer, modifiers]
  constructor
  · simp only [perform, locks]
  · simp only [perform, LockPolicy.isLockMethod, locks, modifiers]
  · simp only [perform, LockPolicy.autolockFor, locks]
  · simp only [perform, distributed]

/-- A member pattern answers alike for every member and the member with some of
its types in slash form exactly if it is blind; the declaring type may be
spelled either way for any pattern. Where all the member patterns of an engine
that can be read are blind, it says the same of a member in either spelling. -/
theorem members_in_either_spelling {pattern : String} {p : MemberPattern}
    (accepted : MemberPattern.compile pattern = .ok p) (e : Engine) :
    (p.SpellingBlind ↔ ∀ m m' : SuppliedMember, m.Slashed m' →
      matchMember pattern m'.descriptor = matchMember pattern m.descriptor) ∧
    (∀ (m : SuppliedMember) (declaringType : String), Respelled m.declaringType declaringType →
      matchMember pattern { m with declaringType }.descriptor =
        matchMember pattern m.descriptor) ∧
    ((∀ pattern ∈ e.registries.memberPatterns,
        ∀ p, MemberPattern.compile pattern = .ok p → p.SpellingBlind) →
      ∀ m m' : SuppliedMember, m.Slashed m' → e.SaysAlike m.descriptor m'.descriptor) := by
  refine ⟨MemberPattern.spellingBlind_iff accepted, fun m declaringType respelled => ?_,
    fun blind m m' slashed => saysAlike_of_blind blind slashed.withDots_eq⟩
  have name : TypeName.ofString declaringType = TypeName.ofString m.declaringType :=
    ofString_eq_iff.2 respelled.dottedText_eq
  simp only [SuppliedMember.descriptor, name]

/-- A bank that locks and distributes the members of an account by patterns
that name no packages outside the account itself. -/
def bank : Engine := (ofOptions {}).run [
  ⟨.addAutolock "* acme.Account.put(int, ..)" ⟨.write, false⟩ none⟩,
  ⟨.addDistributed ⟨"* acme.Account.put(..)", true⟩⟩]

def putPattern : MemberPattern where
  required := []
  forbidden := []
  returns := ⟨[.run '\n'], false⟩
  declaring := ⟨"acme.Account".toList.map .char, false⟩
  name := "put".toList.map .char
  parameters := [.type ⟨"int".toList.map .char, false⟩, .anyRun]

def put : SuppliedMember :=
  ⟨"acme.Account", "put", .publicOnly, "java.util.Map", ["int", "java.util.List"]⟩

def putSlashed : SuppliedMember :=
  ⟨"acme/Account", "put", .publicOnly, "java/util/Map", ["int", "java/util/List"]⟩

theorem put_in_either_spelling :
    MemberPattern.compile "* acme.Account.put(int, ..)" = .ok putPattern ∧
      putPattern.SpellingBlind ∧ put.Slashed putSlashed ∧
      matchMember "* acme.Account.put(int, ..)" putSlashed.descriptor = .ok true ∧
      bank.SaysAlike put.descriptor putSlashed.descriptor := by
  have putRead : MemberPattern.compile "* acme.Account.put(int, ..)" = .ok putPattern := by
    decide +kernel
  have anyRead : MemberPattern.compile "* acme.Account.put(..)" =
      .ok { putPattern with parameters := [.anyRun] } := by
    decide +kernel
  have int : TypePattern.SpellingBlind ⟨"int".toList.map .char, false⟩ :=
    .inr ⟨"int".toList, rfl, by decide, by decide⟩
  have putBlind : putPattern.SpellingBlind := by
    refine .inr ⟨.inl rfl, fun q member => ?_⟩
    obtain rfl : q = ⟨"int".toList.map .char, false⟩ := by simpa [putPattern] using member
    exact int
  have anyBlind : MemberPattern.SpellingBlind { putPattern with parameters := [.anyRun] } :=
    .inr ⟨.inl rfl, by simp⟩
  have slashed : put.Slashed putSlashed := by
    refine ⟨.inr (by decide +kernel), rfl, rfl, .inr (by decide +kernel), ?_⟩
    exact .cons (.inl rfl) (.cons (.inr (by decide +kernel)) .nil)
  obtain ⟨blind, -, alike⟩ := members_in_either_spelling putRead bank
  have answer : matchMember "* acme.Account.put(int, ..)" put.descriptor = .ok true := by
    decide +kernel
  refine ⟨putRead, putBlind, slashed, ?_, alike (fun pattern member p read => ?_) _ _ slashed⟩
  · rw [blind.1 putBlind put putSlashed slashed, answer]
  · have listed : bank.registries.memberPatterns =
        ["* acme.Account.put(int, ..)", "* acme.Account.put(..)"] := rfl
    simp only [listed, List.mem_cons, List.not_mem_nil, or_false] at member
    rcases member with rfl | rfl
    · obtain rfl := Except.ok.inj (putRead.symm.trans read)
      exact putBlind
    · obtain rfl := Except.ok.inj (anyRead.symm.trans read)
      exact anyBlind

def sort : SuppliedMember := ⟨"a.B", "m", .publicOnly, "void", ["java.util.List"]⟩

def sortSlashed : SuppliedMember := ⟨"a/B", "m", .publicOnly, "void", ["java/util/List"]⟩

/-- A parameter type with its package in the pattern is missed in slash form,
though the declaring type is not. -/
theorem slashed_parameter_missed :
    sort.Slashed sortSlashed ∧
      matchMember "* a.B.m(java.util.List)" sort.descriptor = .ok true ∧
      matchMember "* a.B.m(java.util.List)" sortSlashed.descriptor = .ok false := by
  refine ⟨⟨.inr (by decide +kernel), rfl, rfl, .inl rfl, ?_⟩, ?_, ?_⟩
  · exact .cons (.inr (by decide +kernel)) .nil
  · decide +kernel
  · decide +kernel

end Engine

end ClassPolicy
