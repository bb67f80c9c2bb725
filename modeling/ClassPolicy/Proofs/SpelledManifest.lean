import ClassPolicy.Bootstrap
import ClassPolicy.Proofs.Spelling

/-!
# Manifests in the dotted spelling

The types of a manifest are listed in its document, in one member of a record
or of the array that may stand for it. Files whose documents differ only in the
spelling of these types hold the same manifest.
-/

set_option autoImplicit false

namespace ClassPolicy

namespace Json

/-- Members with a change made to the values of one name. -/
def changeMember (name : String) (change : Json → Json) (members : Members) : Members :=
  members.map fun m => if m.1 = name then (m.1, change m.2) else m

variable (name : String) (change : Json → Json) (members : Members)

theorem names_changeMember :
    (changeMember name change members).map (·.1) = members.map (·.1) := by
  rw [changeMember, List.map_map]
  refine List.map_congr_left fun m _ => ?_
  simp only [Function.comp_apply]
  split <;> rfl

theorem filter_changeMember (known : String → Bool) :
    (changeMember name change members).filter (fun m => known m.1) =
      changeMember name change (members.filter fun m => known m.1) := by
  have names : (fun m : String × Json => known m.1) ∘
      (fun m => if m.1 = name then (m.1, change m.2) else m) = fun m => known m.1 := by
    funext m
    simp only [Function.comp_apply]
    split <;> rfl
  rw [changeMember, List.filter_map, names, changeMember]

theorem lookup_changeMember (name' : String) :
    (changeMember name change members).lookup name' =
      if name' = name then (members.lookup name').map change else members.lookup name' := by
  induction members with
  | nil => simp [changeMember]
  | cons m rest ih =>
    obtain ⟨key, value⟩ := m
    rw [changeMember, List.map_cons, ← changeMember]
    by_cases here : name' = key
    · subst here
      by_cases own : name' = name <;> simp [own]
    · rw [SortedMap.lookup_cons_entry name' key value, if_neg here, ← ih]
      simp only
      split <;> rw [SortedMap.lookup_cons_entry, if_neg here]

end Json

namespace Manifest

/-- A listed type in the dotted spelling. -/
def dottedItem : Json → Json
  | .string spelling => .string (dottedText spelling)
  | j => j

def dottedItems : Json → Json
  | .array items => .array (items.map dottedItem)
  | j => j

/-- A document with the types that it lists in the dotted spelling. -/
def dottedDocument : Json → Json
  | .object members => .object (Json.changeMember "types" dottedItems members)
  | .array (version :: listed :: rest) => .array (version :: dottedItems listed :: rest)
  | j => j

theorem ofJson?_dottedItem (j : Json) : TypeName.ofJson? (dottedItem j) = TypeName.ofJson? j := by
  cases j with
  | string spelling => exact congrArg some (ofString_dottedText spelling)
  | _ => rfl

theorem list?_dottedItems (j : Json) :
    Json.list? TypeName.ofJson? (dottedItems j) = Json.list? TypeName.ofJson? j := by
  cases j with
  | array items =>
    simp only [dottedItems, Json.list?, List.mapM_map, Function.comp_def, ofJson?_dottedItem]
  | _ => rfl

/-- The members of a record keep their names and their places. -/
theorem record?_dottedDocument (j : Json) :
    Json.record? ["version", "types"] (dottedDocument j) =
      (Json.record? ["version", "types"] j).map (Json.changeMember "types" dottedItems) := by
  match j with
  | .object members =>
    simp only [dottedDocument, Json.record?,
      Json.filter_changeMember _ _ _ (["version", "types"].contains ·), Json.names_changeMember]
    split <;> rfl
  | .array (version :: listed :: rest) =>
    simp only [dottedDocument, Json.record?, List.length_cons]
    split <;> simp [Json.changeMember]
  | .array [version] => rfl
  | .array [] => rfl
  | .null | .bool _ | .integer _ | .real _ | .string _ | .unreadable => rfl

theorem ofJson?_dottedDocument (j : Json) : ofJson? (dottedDocument j) = ofJson? j := by
  unfold ofJson?
  rw [record?_dottedDocument]
  cases Json.record? ["version", "types"] j with
  | none => rfl
  | some members =>
    have version : Json.optional (Json.changeMember "types" dottedItems members) "version"
        Json.text? = Json.optional members "version" Json.text? := by
      simp [Json.optional, Json.defaulted, Json.lookup_changeMember]
    have listed : Json.defaulted (Json.changeMember "types" dottedItems members) "types" []
        (Json.list? TypeName.ofJson?) =
          Json.defaulted members "types" [] (Json.list? TypeName.ofJson?) := by
      simp only [Json.defaulted, Json.lookup_changeMember, if_true]
      cases members.lookup "types" with
      | none => rfl
      | some j => exact list?_dottedItems j
    simp only [Option.map_some, Option.bind_eq_bind, Option.bind_some, version, listed]

end Manifest

/-- The same file, or two whose documents differ only in the spelling of the
types that they list. -/
inductive FileContent.Respelled : FileContent → FileContent → Prop
  | same (file : FileContent) : Respelled file file
  | document {text text' : String} {j j' : Json} (parsed : Json.parse? text = some j)
      (parsed' : Json.parse? text' = some j')
      (alike : Manifest.dottedDocument j = Manifest.dottedDocument j') :
      Respelled (.text text) (.text text')

theorem Manifest.ofFile_respelled {file file' : FileContent} (respelled : file.Respelled file')
    (path : String) : Manifest.ofFile path file = Manifest.ofFile path file' := by
  cases respelled with
  | same => rfl
  | @document text text' j j' parsed parsed' alike =>
    have read : Manifest.ofText? text = Manifest.ofText? text' := by
      simp only [Manifest.ofText?, parsed, parsed', Option.bind_some]
      rw [← ofJson?_dottedDocument, alike, ofJson?_dottedDocument]
    simp only [Manifest.ofFile, read]

end ClassPolicy
