import ClassPolicy.Root
import Mathlib.Data.List.Dedup
import Mathlib.Data.List.Induction
import Mathlib.Data.List.Sort

/-!
# Roots after any registrations

Roots are offered to an empty registry one after the other, and each is taken
or refused. The registry then holds the roots that were taken and no others.
The roots of a type are listed in the order of their fields, and all roots are
these lists, one type after the other.
-/

set_option autoImplicit false

namespace ClassPolicy

namespace RootRegistry

/-- The registry after a root is offered. A root that is refused changes
nothing. -/
def offer (r : RootRegistry) (root : RootDefinition) : RootRegistry :=
  match r.add root with
  | .ok added => added
  | .error _ => r

def ofRoots (offered : List RootDefinition) : RootRegistry := offered.foldl offer .empty

/-- A root is taken if it is added when its turn comes. -/
def Taken (offered : List RootDefinition) (root : RootDefinition) : Prop :=
  ∃ before after, offered = before ++ root :: after ∧
    ∃ added, (ofRoots before).add root = .ok added

/-! ### Entries of one type -/

section Entries

variable {r : RootRegistry}

/-- Every root stands where its type and its field say. -/
def Filed (r : RootRegistry) : Prop := ∀ e ∈ r.entries, e.2.key = e.1

theorem rootsFor_increasing (filed : r.Filed) (name : TypeName) :
    (r.rootsFor name).Pairwise (fun a b => a.fieldName < b.fieldName) := by
  rw [rootsFor, FieldKey.scan_eq_filter r.increasing, List.pairwise_map]
  refine (r.increasing.filter _).imp_of_mem fun {a b} first second less => ?_
  simp only [List.mem_filter, decide_eq_true_eq] at first second
  have own : a.2.fieldName = a.1.field := congrArg FieldKey.field (filed a first.1)
  have own' : b.2.fieldName = b.1.field := congrArg FieldKey.field (filed b second.1)
  rw [own, own']
  rcases less with less | ⟨-, less⟩
  · rw [first.2, second.2] at less
    exact absurd less (String.lt_irrefl _)
  · exact less

/-- The types of the entries, each once. -/
def owners (r : RootRegistry) : List TypeName := (r.entries.map (·.1.owner)).dedup

theorem owners_increasing : r.owners.Pairwise (fun a b => a.text < b.text) := by
  have ordered : r.owners.Pairwise (fun a b => a.text ≤ b.text) := by
    refine List.Pairwise.sublist (List.dedup_sublist _) (List.pairwise_map.2 ?_)
    exact r.increasing.imp FieldKey.owner_le
  refine (ordered.and (List.nodup_dedup _)).imp fun ⟨less, different⟩ => ?_
  exact String.not_le.1 fun greater =>
    different (TypeName.text_inj.1 (String.le_antisymm less greater))

theorem mem_owners {name : TypeName} : name ∈ r.owners ↔ ∃ e ∈ r.entries, e.1.owner = name := by
  simp [owners]

/-- The entries are those of the first type, then those of the next one, and
so on. -/
theorem entries_eq_flatMap :
    r.entries = r.owners.flatMap (fun name => r.entries.filter (·.1.owner = name)) := by
  let less := fun a b : FieldKey × RootDefinition => a.1 < b.1
  have irrefl : Std.Irrefl less := ⟨fun a => FieldKey.lt_irrefl a.1⟩
  have antisymm : Std.Antisymm less := ⟨fun a b before after =>
    absurd (FieldKey.lt_trans before after) (FieldKey.lt_irrefl a.1)⟩
  have grouped : (r.owners.flatMap fun name => r.entries.filter (·.1.owner = name)).Pairwise
      less := by
    refine List.pairwise_flatMap.2 ⟨fun name _ => r.increasing.filter _, ?_⟩
    refine owners_increasing.imp fun below e member e' member' => .inl ?_
    simp only [List.mem_filter, decide_eq_true_eq] at member member'
    rwa [member.2, member'.2]
  refine List.Pairwise.eq_of_mem_iff r.increasing grouped fun e => ?_
  simp only [List.mem_flatMap, List.mem_filter, decide_eq_true_eq, mem_owners]
  constructor
  · exact fun member => ⟨e.1.owner, ⟨e, member, rfl⟩, member, rfl⟩
  · rintro ⟨-, -, member, -⟩
    exact member

theorem all_eq_flatMap : r.all = r.owners.flatMap r.rootsFor := by
  have roots : r.rootsFor = fun name => (r.entries.filter (·.1.owner = name)).map (·.2) := by
    funext name
    rw [rootsFor, FieldKey.scan_eq_filter r.increasing]
  rw [all, roots, ← List.map_flatMap, ← entries_eq_flatMap]

end Entries

/-! ### Offers -/

theorem ofRoots_append_singleton (offered : List RootDefinition) (root : RootDefinition) :
    ofRoots (offered ++ [root]) = (ofRoots offered).offer root := by
  simp [ofRoots]

theorem taken_append_singleton {offered : List RootDefinition} {root last : RootDefinition} :
    Taken (offered ++ [last]) root ↔
      Taken offered root ∨ root = last ∧ ∃ added, (ofRoots offered).add last = .ok added := by
  constructor
  · rintro ⟨before, after, split, added⟩
    rcases List.eq_nil_or_concat' after with rfl | ⟨after, other, rfl⟩
    · obtain ⟨rfl, same⟩ := List.append_inj' split rfl
      cases same
      exact .inr ⟨rfl, added⟩
    · rw [← List.cons_append, ← List.append_assoc] at split
      obtain ⟨rfl, -⟩ := List.append_inj' split rfl
      exact .inl ⟨before, after, rfl, added⟩
  · rintro (⟨before, after, rfl, added⟩ | ⟨rfl, added⟩)
    · exact ⟨before, after ++ [last], by simp, added⟩
    · exact ⟨offered, [], rfl, added⟩

theorem add_eq_ok {r added : RootRegistry} {root : RootDefinition}
    (success : r.add root = .ok added) : r.get? root.typeName root.fieldName = none := by
  unfold add at success
  split at success
  · cases success
  · split at success
    · cases success
    · rename_i absent
      simpa using absent

/-- The roots that were taken are found, and no others. -/
theorem get?_ofRoots {offered : List RootDefinition} {name : TypeName} {field : String}
    {root : RootDefinition} :
    (ofRoots offered).get? name field = some root ↔
      Taken offered root ∧ root.typeName = name ∧ root.fieldName = field := by
  induction offered using List.reverseRecOn generalizing name field root with
  | nil => simp [ofRoots, empty, get?, Taken]
  | append_singleton offered last ih =>
    rw [ofRoots_append_singleton, taken_append_singleton, offer]
    cases outcome : (ofRoots offered).add last with
    | error e => simp [ih]
    | ok added =>
      have absent := add_eq_ok outcome
      simp only [get?_add outcome, Except.ok.injEq, exists_eq', and_true]
      by_cases own : name = last.typeName ∧ field = last.fieldName
      · obtain ⟨rfl, rfl⟩ := own
        have none : ¬ (Taken offered root ∧ root.typeName = last.typeName ∧
            root.fieldName = last.fieldName) := fun taken => by
          rw [ih.2 taken] at absent
          cases absent
        rw [if_pos ⟨rfl, rfl⟩, Option.some.injEq]
        constructor
        · rintro rfl
          exact ⟨.inr rfl, rfl, rfl⟩
        · rintro ⟨taken | rfl, fits⟩
          · exact absurd ⟨taken, fits⟩ none
          · rfl
      · rw [if_neg own, ih]
        constructor
        · rintro ⟨taken, fits⟩
          exact ⟨.inl taken, fits⟩
        · rintro ⟨taken | rfl, fits⟩
          · exact ⟨taken, fits⟩
          · exact absurd ⟨fits.1.symm, fits.2.symm⟩ own

theorem ofRoots_filed (offered : List RootDefinition) : (ofRoots offered).Filed := by
  rintro ⟨⟨name, field⟩, root⟩ member
  obtain ⟨-, rfl, rfl⟩ := get?_ofRoots.1 (get?_eq_some_iff.2 member)
  rfl

/-! ### Outcomes and answers -/

theorem isRoot_ofRoots {offered : List RootDefinition} {name : TypeName} {field : String} :
    (ofRoots offered).isRoot name field = true ↔
      ∃ root, Taken offered root ∧ root.typeName = name ∧ root.fieldName = field := by
  simp only [isRoot, Option.isSome_iff_exists, get?_ofRoots]

theorem mem_rootsFor_ofRoots {offered : List RootDefinition} {name : TypeName}
    {root : RootDefinition} :
    root ∈ (ofRoots offered).rootsFor name ↔ Taken offered root ∧ root.typeName = name := by
  simp only [mem_rootsFor, get?_ofRoots]
  constructor
  · rintro ⟨-, taken, own, -⟩
    exact ⟨taken, own⟩
  · rintro ⟨taken, own⟩
    exact ⟨root.fieldName, taken, own, rfl⟩

theorem mem_owners_iff {r : RootRegistry} {name : TypeName} :
    name ∈ r.owners ↔ r.hasRoots name = true := by
  rw [mem_owners, hasRoots_iff]
  constructor
  · rintro ⟨⟨⟨owner, field⟩, root⟩, member, rfl⟩
    exact ⟨field, root, get?_eq_some_iff.2 member⟩
  · rintro ⟨field, root, found⟩
    exact ⟨_, get?_eq_some_iff.1 found, rfl⟩

theorem field?_eq_none_iff {ty : TypeDescriptor} {field : String} :
    ty.field? field = none ↔ ∀ f ∈ ty.fields, f.name ≠ field := by
  simp [TypeDescriptor.field?]

/-- How a root is judged that is offered after others. -/
structure Judged (offered : List RootDefinition) (root : RootDefinition) : Prop where
  unnamed : (ofRoots offered).add root = .error (.invalidFieldName root.qualifiedName) ↔
    root.fieldName = ""
  duplicate : (ofRoots offered).add root = .error (.duplicateRoot root.typeName root.fieldName) ↔
    root.fieldName ≠ "" ∧ ∃ earlier, Taken offered earlier ∧
      earlier.typeName = root.typeName ∧ earlier.fieldName = root.fieldName
  refused : ∀ e, (ofRoots offered).add root = .error e →
    (e = .invalidFieldName root.qualifiedName ∨ e = .duplicateRoot root.typeName root.fieldName) ∧
      ofRoots (offered ++ [root]) = ofRoots offered

/-- What a registry answers about types in either spelling, given the roots
that were taken. -/
structure Answers (taken : RootDefinition → Prop) (r : RootRegistry) : Prop where
  get : ∀ spelling field root, r.get? (TypeName.ofString spelling) field = some root ↔
    taken root ∧ root.typeName = TypeName.ofString spelling ∧ root.fieldName = field
  isRoot : ∀ spelling field, r.isRoot (TypeName.ofString spelling) field = true ↔
    ∃ root, taken root ∧ root.typeName = TypeName.ofString spelling ∧ root.fieldName = field
  listed : ∀ spelling root, root ∈ r.rootsFor (TypeName.ofString spelling) ↔
    taken root ∧ root.typeName = TypeName.ofString spelling
  increasing : ∀ spelling, (r.rootsFor (TypeName.ofString spelling)).Pairwise
    (fun a b => a.fieldName < b.fieldName)
  hasRoots : ∀ spelling, r.hasRoots (TypeName.ofString spelling) = true ↔
    r.rootsFor (TypeName.ofString spelling) ≠ []
  all : ∃ types : List TypeName, types.Pairwise (fun a b => a.text < b.text) ∧
    (∀ name, name ∈ types ↔ ∃ root, taken root ∧ root.typeName = name) ∧
    r.all = types.flatMap r.rootsFor
  missing : ∀ ty, r.missingDeclarations ty =
    ((r.rootsFor ty.name).filter fun root => ∀ f ∈ ty.fields, f.name ≠ root.fieldName).map
      (·.qualifiedName)

theorem judged (offered : List RootDefinition) (root : RootDefinition) : Judged offered root := by
  have outcome := add_eq root (ofRoots offered)
  simp only [String.isEmpty_iff] at outcome
  by_cases unnamed : root.fieldName = ""
  · rw [if_pos unnamed] at outcome
    refine ⟨by simp [outcome, unnamed], by simp [outcome, unnamed], fun e failed => ⟨?_, ?_⟩⟩
    · exact .inl (Except.error.inj (failed.symm.trans outcome))
    · rw [ofRoots_append_singleton, offer, failed]
  · rw [if_neg unnamed] at outcome
    by_cases present : (ofRoots offered).isRoot root.typeName root.fieldName = true
    · rw [if_pos present] at outcome
      refine ⟨by simp [outcome, unnamed], ?_, fun e failed => ⟨?_, ?_⟩⟩
      · exact iff_of_true outcome ⟨unnamed, isRoot_ofRoots.1 present⟩
      · exact .inr (Except.error.inj (failed.symm.trans outcome))
      · rw [ofRoots_append_singleton, offer, failed]
    · rw [if_neg present] at outcome
      refine ⟨by simp [outcome, unnamed], ?_, fun e failed => ?_⟩
      · refine iff_of_false (by simp [outcome]) fun taken => ?_
        exact present (isRoot_ofRoots.2 taken.2)
      · rw [outcome] at failed
        cases failed

theorem answers_ofRoots (offered : List RootDefinition) :
    Answers (Taken offered) (ofRoots offered) where
  get _ _ _ := get?_ofRoots
  isRoot _ _ := isRoot_ofRoots
  listed _ _ := mem_rootsFor_ofRoots
  increasing _ := rootsFor_increasing (ofRoots_filed offered) _
  hasRoots spelling := by simp [RootRegistry.hasRoots]
  all := by
    refine ⟨(ofRoots offered).owners, owners_increasing, fun name => ?_, all_eq_flatMap⟩
    rw [mem_owners_iff, hasRoots_iff]
    simp only [get?_ofRoots]
    constructor
    · rintro ⟨-, root, taken, own, -⟩
      exact ⟨root, taken, own⟩
    · rintro ⟨root, taken, own⟩
      exact ⟨root.fieldName, root, taken, own, rfl⟩
  missing ty := by
    refine congrArg (List.map _) (List.filter_congr fun root _ => ?_)
    rw [Bool.eq_iff_iff, Option.isNone_iff_eq_none, field?_eq_none_iff, decide_eq_true_iff]

/-- After any offers a root is refused for an empty field, or else for a root
that was taken at the same field of the same type, and a refusal changes
nothing. All answers are about the roots that were taken. -/
theorem roots_of_offers (offered : List RootDefinition) :
    (∀ root, Judged offered root) ∧ Answers (Taken offered) (ofRoots offered) :=
  ⟨judged offered, answers_ofRoots offered⟩

/-- The name of one type begins with that of the other. -/
def shopRoots : List RootDefinition := [
  { typeName := TypeName.ofString "acme.ShopFront", fieldName := "sign" },
  { typeName := TypeName.ofString "acme.Shop", fieldName := "till" }]

example : ((ofRoots shopRoots).rootsFor (TypeName.ofString "acme/Shop")).map (·.fieldName) =
    ["till"] := by cbv

end RootRegistry

end ClassPolicy
