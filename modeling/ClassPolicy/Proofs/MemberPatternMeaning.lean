import ClassPolicy.Proofs.MemberForms
import ClassPolicy.Proofs.ParameterCuts
import ClassPolicy.Proofs.Stars

/-!
# What member patterns mean

A member matches a pattern when it has the modifiers asked for and none of
those refused, its declaring type, return type and name match, and its
parameter types follow the list as it is written, before neighbouring `..`
entries are merged.
-/

set_option autoImplicit false

namespace ClassPolicy

/-- What the form asks of a member. -/
structure MemberForm.Takes (f : MemberForm) (m : MemberDescriptor) : Prop where
  flags : ∀ w ∈ f.modifiers, m.modifiers.has w.flag = !w.negated
  returns : f.returns.pattern.matchesName m.returnType = true
  declaring : f.declaring.pattern.matchesName m.declaringType.text = true
  name : StarMatch (fun _ => True) (MemberPattern.calledName f.name) m.name.toList
  parameters : TypesMatch f.parameters m.parameterTypes

namespace MemberPattern

theorem flagsOf_iff (ws : List ModifierWord) (m : Modifiers) :
    ((ModifierWord.flagsOf ws).1.all m.has &&
        (ModifierWord.flagsOf ws).2.all (fun flag => !m.has flag)) = true ↔
      ∀ w ∈ ws, m.has w.flag = !w.negated := by
  induction ws with
  | nil => simp [ModifierWord.flagsOf]
  | cons w ws ih =>
    rw [List.forall_mem_cons, ← ih]
    simp only [ModifierWord.flagsOf, List.foldr_cons, ModifierWord.add]
    cases w.negated with
    | true =>
      simp only [if_true, List.all_cons, Bool.and_eq_true, Bool.not_eq_true', Bool.not_true]
      exact and_left_comm
    | false =>
      simp only [Bool.false_eq_true, if_false, List.all_cons, Bool.and_eq_true, Bool.not_false,
        and_assoc]

/-- In a name without a line feed a star stands for any run of characters. -/
theorem matchesText_globOfName_iff (name : List Char) {text : String}
    (plain : '\n' ∉ text.toList) :
    (globOfName name).matchesText text = true ↔
      StarMatch (fun _ => True) (calledName name) text.toList := by
  have pieces : globOfName name = (calledName name).map (Glob.starPiece '\n') := rfl
  rw [pieces, Glob.matchesText, Glob.matchesChars_eq_takes, Glob.takes_map_starPiece_iff]
  exact ⟨fun matched => matched.unrestricted, fun matched => matched.avoiding plain⟩

end MemberPattern

namespace MemberForm

theorem compiled_matchesMember_iff (f : MemberForm) {m : MemberDescriptor}
    (plain : '\n' ∉ m.name.toList) : f.compiled.matchesMember m = true ↔ f.Takes m := by
  have flags := MemberPattern.flagsOf_iff f.modifiers m.modifiers
  have name := MemberPattern.matchesText_globOfName_iff f.name plain
  simp only [MemberPattern.matchesMember, compiled, Bool.and_eq_true] at flags ⊢
  rw [flags, name, MemberPattern.matchesParameters_iff, MemberPattern.typesMatch_mergeRuns_iff]
  constructor
  · rintro ⟨⟨⟨⟨flags, name⟩, declaring⟩, returns⟩, parameters⟩
    exact ⟨flags, returns, declaring, name, parameters⟩
  · intro taken
    exact ⟨⟨⟨⟨taken.flags, taken.name⟩, taken.declaring⟩, taken.returns⟩, taken.parameters⟩

end MemberForm

namespace MemberPattern

/-- The texts that are accepted are those written by a form whose member name
is not too large for an automaton, and a member without a line feed in its name
matches when the form takes it. -/
theorem means_form (pattern : String) :
    ((∃ p, compile pattern = .ok p) ↔
        ∃ f : MemberForm, f.Writes (Text.trim pattern.toList) ∧
          (globOfName f.name).fits = true) ∧
      ∀ f : MemberForm, f.Writes (Text.trim pattern.toList) → (globOfName f.name).fits = true →
        ∀ m : MemberDescriptor, '\n' ∉ m.name.toList →
          (matchMember pattern m = .ok true ↔ f.Takes m) := by
  refine ⟨⟨?_, ?_⟩, ?_⟩
  · rintro ⟨p, accepted⟩
    obtain ⟨f, writes⟩ := MemberForm.exists_writes accepted
    exact ⟨f, writes, ((MemberForm.compile_of_writes writes p).1 accepted).1⟩
  · rintro ⟨f, writes, fits⟩
    exact ⟨f.compiled, (MemberForm.compile_of_writes writes _).2 ⟨fits, rfl⟩⟩
  · intro f writes fits m plain
    have accepted : compile pattern = .ok f.compiled :=
      (MemberForm.compile_of_writes writes _).2 ⟨fits, rfl⟩
    rw [matchMember, accepted, Except.map, Except.ok.injEq]
    exact f.compiled_matchesMember_iff plain

def anyType : TypeText := ⟨['*'], ⟨[.run '\n'], false⟩, by decide +kernel⟩

def incrementForm : MemberForm where
  modifiers := [⟨false, "public", .publicAccess, by decide⟩, ⟨true, "static", .static, by decide⟩]
  returns := anyType
  declaring := ⟨"acme.Counter".toList, ⟨"acme.Counter".toList.map .char, false⟩, by decide +kernel⟩
  name := "inc*".toList
  nonempty := by decide
  legal := List.all_eq_true.1 (by decide)
  list := "int, ..".toList
  parameters := [.type ⟨"int".toList.map .char, false⟩, .anyRun]
  listed := .entries (.cons (.type (by decide +kernel)) (.cons (.anyRun (by decide)) .nil))

def increment : MemberDescriptor :=
  { MemberDescriptor.named (TypeName.ofString "acme.Counter") "increment" with
    parameterTypes := ["int", "long", "long"] }

theorem increment_taken :
    (∃ p, compile "public !static * acme.Counter.inc*(int, ..)" = .ok p) ∧
      incrementForm.Takes increment := by
  have writes : incrementForm.Writes
      (Text.trim "public !static * acme.Counter.inc*(int, ..)".toList) := by
    refine ⟨"public !static * acme.Counter.inc*".toList, ?_, ?_, ?_, Text.words_eq_iff.1 ?_⟩
    all_goals decide +kernel
  have fits : (globOfName incrementForm.name).fits = true := by decide +kernel
  have means := means_form "public !static * acme.Counter.inc*(int, ..)"
  refine ⟨means.1.2 ⟨incrementForm, writes, fits⟩, ?_⟩
  refine (means.2 incrementForm writes fits increment ?_).1 ?_
  all_goals decide +kernel

theorem size_replicate (a : Glob.Automaton) (piece : Piece) (n : ℕ) :
    a.size (List.replicate n piece) = n * a.pieceSize piece + a.frame := by
  induction n with
  | zero => simp [Glob.Automaton.size]
  | succ n ih =>
    have step : a.size (List.replicate (n + 1) piece) =
        a.pieceSize piece + a.size (List.replicate n piece) := rfl
    rw [step, ih, Nat.succ_mul]
    omega

/-- A member name of stars alone. -/
def starsForm (n : ℕ) : MemberForm where
  modifiers := []
  returns := anyType
  declaring := ⟨['a', '.', 'B'], ⟨[.char 'a', .char '.', .char 'B'], false⟩, by decide +kernel⟩
  name := List.replicate (n + 1) '*'
  nonempty := by simp
  legal := by
    intro c member
    rw [List.eq_of_mem_replicate member]
    decide
  list := []
  parameters := []
  listed := .blank nofun

def starsPattern (n : ℕ) : String :=
  String.ofList (['*', ' ', 'a', '.', 'B', '.'] ++ List.replicate (n + 1) '*' ++ ['(', ')'])

theorem starsForm_writes (n : ℕ) : (starsForm n).Writes (Text.trim (starsPattern n).toList) := by
  have spelled : (starsPattern n).toList =
      '*' :: ([' ', 'a', '.', 'B', '.'] ++ List.replicate (n + 1) '*' ++ ['('] ++ [')']) := by
    simp [starsPattern]
  have declaring : ['a', '.', 'B', '.'].all (!Text.isBlank ·) = true := by decide
  have solid : ∀ c ∈ ['a', '.', 'B', '.'] ++ List.replicate (n + 1) '*',
      Text.isBlank c = false := by
    intro c member
    rcases List.mem_append.1 member with member | member
    · simpa using List.all_eq_true.1 declaring c member
    · rw [List.eq_of_mem_replicate member]
      decide
  have qualified : Text.Spaced [['a', '.', 'B', '.'] ++ List.replicate (n + 1) '*']
      ([' '] ++ (['a', '.', 'B', '.'] ++ List.replicate (n + 1) '*') ++ []) :=
    .word (List.forall_mem_singleton.2 (by decide)) (by simp) solid nofun (.blank nofun)
  have apart : ∀ c ∈ ([' '] ++ (['a', '.', 'B', '.'] ++ List.replicate (n + 1) '*') ++ []).head?,
      Text.isBlank c = true := by
    rintro _ ⟨⟩
    decide
  have star : ∀ c ∈ ['*'], Text.isBlank c = false := List.forall_mem_singleton.2 (by decide)
  have none : ∀ c ∈ ([] : List Char), Text.isBlank c = true := nofun
  have spaced : Text.Spaced (starsForm n).words _ :=
    .word none (List.cons_ne_nil _ _) star apart qualified
  refine ⟨_, ?_, ?_, List.not_mem_nil, spaced⟩
  · rw [spelled, Text.trim_of_ends (by decide) (by decide)]
    simp [starsForm, anyType]
  · simp [starsForm, anyType]

theorem globOfName_stars (n : ℕ) :
    globOfName (List.replicate (n + 1) '*') = List.replicate (n + 1) (.run '\n') := by
  have plain : List.replicate (n + 1) '*' ≠ constructorAlias.toList := by
    intro same
    have first := congrArg List.head? same
    rw [List.replicate_succ] at first
    cases first
  rw [globOfName, calledName, if_neg plain, List.map_replicate]
  rfl

/-- A pattern is refused though a form writes it: its member name of stars is
too large for an automaton that reads backwards. -/
theorem starsPattern_refused :
    (∃ f : MemberForm, f.Writes (Text.trim (starsPattern 14999).toList)) ∧
      ∀ p, compile (starsPattern 14999) ≠ .ok p := by
  have writes := starsForm_writes 14999
  refine ⟨⟨_, writes⟩, fun p accepted => ?_⟩
  have fits := ((MemberForm.compile_of_writes writes p).1 accepted).1
  have glob : globOfName (starsForm 14999).name = _ := globOfName_stars 14999
  rw [glob, Glob.fits, size_replicate, size_replicate] at fits
  revert fits
  decide

end MemberPattern

end ClassPolicy
