import ClassPolicy.CommandLine.Report
import ClassPolicy.Proofs.EngineSpecs
import ClassPolicy.Proofs.JsonText
import ClassPolicy.Proofs.RecordFields

/-!
# Specs survive their encoding

A spec that is encoded and decoded again is the same spec, whatever it holds:
a part that is left out of the document is read as what it was. The same goes
for the text of the document in either layout, so what a dump of the specs
prints can be read back as the specs of the engine.
-/

set_option autoImplicit false

namespace ClassPolicy

/-! ### The parts of a spec -/

theorem TypeName.ofJson?_toJson (name : TypeName) : ofJson? name.toJson = some name :=
  congrArg some name.ofString_text

theorem TransformMode.ofJson?_toJson (mode : TransformMode) : ofJson? mode.toJson = some mode := by
  cases mode <;> decide +kernel

theorem OnLoad.ofJson?_toJson (onLoad : OnLoad) : ofJson? onLoad.toJson = some onLoad := by
  cases onLoad <;>
    simp [toJson, ofJson?, Json.plainVariant?, Json.textVariant?, Json.variant?, List.lookup_cons]

theorem MemberBehavior.ofJson?_toJson (behavior : MemberBehavior) :
    ofJson? behavior.toJson = some behavior := by
  cases behavior <;>
    simp [toJson, ofJson?, plain, Json.plainVariant?, Json.textVariant?, Json.variant?,
      List.lookup_cons]

theorem Construction.ofJson?_toJson (construction : Construction) :
    ofJson? construction.toJson = some construction := by
  cases construction <;>
    simp [toJson, ofJson?, Json.plainVariant?, Json.variant?, List.lookup_cons]

theorem LogicalDesignation.ofJson?_toJson (d : LogicalDesignation) : ofJson? d.toJson = some d := by
  have record : Json.record? ["changeApplicator", "extendingType"] d.toJson = _ :=
    Json.record?_ofMembers (Json.Slots.nil |>.memberIfSome _ _ |>.member _ _) (by decide)
  generalize written : Json.present _ = members at record
  have changeApplicator : Json.required members "changeApplicator" Json.text? =
      some d.changeApplicator := Json.required_eq (by simp [← written]; rfl) rfl
  have extending : Json.optional members "extendingType" TypeName.ofJson? = some d.extending :=
    Json.optional_eq (by simp [← written]) TypeName.ofJson?_toJson (by simp [TypeName.toJson])
  simp [ofJson?, record, changeApplicator, extending]

theorem OnLoad.toJson_ne_null (onLoad : OnLoad) : onLoad.toJson ≠ .null := by
  cases onLoad <;> simp [toJson]

namespace ClassSpec

theorem ofJson?_toJson (s : ClassSpec) : ofJson? s.toJson = some s := by
  have record : Json.record? memberNames s.toJson = _ :=
    Json.record?_ofMembers (Json.Slots.nil |>.memberIfSome _ _ |>.memberIf _ _ _
      |>.memberIfSome _ _ |>.memberIfSome _ _ |>.member _ _ |>.member _ _ |>.memberIfSome _ _
      |>.memberIfSome _ _ |>.memberIfSome _ _ |>.member _ _ |>.memberIf _ _ _ |>.memberIf _ _ _
      |>.memberIfSome _ _ |>.member _ _ |>.member _ _) (by decide)
  generalize written : Json.present _ = members at record
  have name : Json.required members "name" TypeName.ofJson? = some s.name :=
    Json.required_eq (by simp [← written]) s.name.ofJson?_toJson
  have mode : Json.required members "mode" TransformMode.ofJson? = some s.mode :=
    Json.required_eq (by simp [← written]) s.mode.ofJson?_toJson
  have logical : Json.optional members "logical" LogicalDesignation.ofJson? = some s.logical :=
    Json.optional_eq (by simp [← written]) LogicalDesignation.ofJson?_toJson
      (by simp [LogicalDesignation.toJson, Json.ofMembers])
  have transientFields : Json.defaulted members "transientFields" .empty Json.textSet? =
      some s.transientFields :=
    Json.defaulted_eq (by simp [← written]) (Json.textSet?_ofSet s.transientFields)
      SortedMap.eq_empty_of_isEmpty
  have memberBehaviors : Json.defaulted members "memberBehaviors" .empty
      (Json.map? MemberBehavior.ofJson?) = some s.memberBehaviors :=
    Json.defaulted_eq (by simp [← written])
      (Json.map?_ofMap MemberBehavior.ofJson?_toJson s.memberBehaviors)
      SortedMap.eq_empty_of_isEmpty
  have construction : Json.defaulted members "construction" .defaultConstructor
      Construction.ofJson? = some s.construction :=
    Json.defaulted_of_some (by simp [← written]) s.construction.ofJson?_toJson
  have onLoad : Json.optional members "onLoad" OnLoad.ofJson? = some s.onLoad :=
    Json.optional_eq (by simp [← written]) OnLoad.ofJson?_toJson OnLoad.toJson_ne_null
  have preCreate : Json.optional members "preCreateMethod" Json.text? = some s.preCreate :=
    Json.optional_eq (by simp [← written]; rfl) (fun _ => rfl) (by simp)
  have postCreate : Json.optional members "postCreateMethod" Json.text? = some s.postCreate :=
    Json.optional_eq (by simp [← written]; rfl) (fun _ => rfl) (by simp)
  have preInstrumented : Json.defaulted members "preInstrumented" false Json.bool? =
      some s.preInstrumented := Json.defaulted_of_some (by simp [← written]; rfl) rfl
  have versionSpecific : Json.defaulted members "versionSpecific" false Json.bool? =
      some s.versionSpecific := Json.defaulted_of_some (by simp [← written]; rfl) rfl
  have honorTransient : Json.optional members "honorTransient" Json.bool? =
      some s.honorTransient :=
    Json.optional_eq (by simp [← written]; rfl) (fun _ => rfl) (by simp)
  have honorVolatile : Json.optional members "honorVolatile" Json.bool? =
      some s.honorVolatile :=
    Json.optional_eq (by simp [← written]; rfl) (fun _ => rfl) (by simp)
  have excludedMethods : Json.defaulted members "excludedMethods" .empty Json.textSet? =
      some s.excludedMethods :=
    Json.defaulted_eq (by simp [← written]) (Json.textSet?_ofSet s.excludedMethods)
      SortedMap.eq_empty_of_isEmpty
  have customRewriter : Json.optional members "customRewriter" Json.text? =
      some s.customRewriter :=
    Json.optional_eq (by simp [← written]; rfl) (fun _ => rfl) (by simp)
  rw [ofJson?, Json.bind_of_some record, Json.bind_of_some name, Json.bind_of_some mode,
    Json.bind_of_some logical, Json.bind_of_some transientFields,
    Json.bind_of_some memberBehaviors, Json.bind_of_some construction, Json.bind_of_some onLoad,
    Json.bind_of_some preCreate, Json.bind_of_some postCreate,
    Json.bind_of_some preInstrumented, Json.bind_of_some versionSpecific,
    Json.bind_of_some honorTransient, Json.bind_of_some honorVolatile,
    Json.bind_of_some excludedMethods, Json.bind_of_some customRewriter]
  rfl

end ClassSpec

/-! ### Documents without numbers -/

namespace Json

section Slots

variable (name : String) (value : Json) (slots : List Slot)

@[simp] theorem areTextual_nil : areTextualMembers (present []) = true := rfl

@[simp] theorem areTextual_member : areTextualMembers (present (member name value :: slots)) =
    (value.isTextual && areTextualMembers (present slots)) := rfl

@[simp] theorem areTextual_memberIfSome (value : Option Json) :
    areTextualMembers (present (memberIfSome name value :: slots)) =
      (value.all isTextual && areTextualMembers (present slots)) := by
  cases value <;> rfl

@[simp] theorem areTextual_memberIf (there : Bool) :
    areTextualMembers (present (memberIf there name value :: slots)) =
      ((!there || value.isTextual) && areTextualMembers (present slots)) := by
  cases there <;> rfl

end Slots

theorem isTextual_ofMembers (slots : List Slot) :
    (ofMembers slots).isTextual = areTextualMembers (present slots) := rfl

theorem areTextualItems_map {α : Type} {encode : α → Json}
    (each : ∀ a, (encode a).isTextual = true) (l : List α) :
    areTextualItems (l.map encode) = true := by
  induction l with
  | nil => rfl
  | cons a rest ih => rw [List.map_cons, areTextualItems, each, ih, Bool.and_true]

theorem isTextual_ofMap {α : Type} {encode : α → Json}
    (each : ∀ a, (encode a).isTextual = true) (m : SortedMap α) :
    (ofMap encode m).isTextual = true := by
  rw [ofMap, isTextual]
  induction m.entries with
  | nil => rfl
  | cons e rest ih => rw [List.map_cons, areTextualMembers, each, ih, Bool.and_true]

theorem isTextual_ofSet (s : SortedSet) : (ofSet s).isTextual = true :=
  areTextualItems_map (fun _ => (rfl : (Json.string _).isTextual = true)) _

theorem all_isTextual_map {α : Type} {encode : α → Json}
    (each : ∀ a, (encode a).isTextual = true) (value : Option α) :
    (value.map encode).all isTextual = true := by
  cases value with
  | none => rfl
  | some a => exact each a

end Json

theorem LogicalDesignation.isTextual_toJson (d : LogicalDesignation) :
    d.toJson.isTextual = true := by
  rw [toJson, Json.isTextual_ofMembers]
  simp [Json.all_isTextual_map, TypeName.toJson, Json.isTextual]

theorem MemberBehavior.isTextual_toJson (behavior : MemberBehavior) :
    behavior.toJson.isTextual = true := by
  cases behavior <;> rfl

theorem OnLoad.isTextual_toJson (onLoad : OnLoad) : onLoad.toJson.isTextual = true := by
  cases onLoad <;> rfl

theorem ClassSpec.isTextual_toJson (s : ClassSpec) : s.toJson.isTextual = true := by
  have construction : s.construction.toJson.isTextual = true := by
    cases s.construction <;> rfl
  have text (value : Option String) : (value.map Json.string).all Json.isTextual = true :=
    Json.all_isTextual_map (fun _ => rfl) value
  have bool (value : Option Bool) : (value.map Json.bool).all Json.isTextual = true :=
    Json.all_isTextual_map (fun _ => rfl) value
  rw [toJson, Json.isTextual_ofMembers]
  simp [Json.all_isTextual_map, Json.isTextual_ofSet, Json.isTextual_ofMap, construction, text,
    bool, LogicalDesignation.isTextual_toJson, MemberBehavior.isTextual_toJson,
    OnLoad.isTextual_toJson, TypeName.toJson, TransformMode.toJson, Json.isTextual]

/-! ### The dump -/

namespace Engine

open CommandLine

theorem specsText_read (specs : List ClassSpec) :
    (Json.parse? (specsText specs)).bind (Json.list? ClassSpec.ofJson?) = some specs := by
  have textual : (Json.array (specs.map ClassSpec.toJson)).isTextual = true :=
    Json.areTextualItems_map ClassSpec.isTextual_toJson specs
  have parsed : Json.parse? (specsText specs) = _ :=
    Json.parse?_pretty textual Json.lineFeed_gap
  rw [parsed, Option.bind_some, Json.list?_array ClassSpec.ofJson?_toJson]

/-- Every spec, however it was made and edited, is decoded from its document
and from either text of it. What a dump of the specs of an engine prints is
decoded to exactly the specs that the engine lists, in strict order of their
names. -/
theorem Reachable.specs_survive_encoding {e : Engine} (reached : Reachable e)
    (manifest : FileContent) :
    (∀ spec : ClassSpec, ClassSpec.ofJson? spec.toJson = some spec ∧
      (Json.parse? spec.toJson.compact).bind ClassSpec.ofJson? = some spec ∧
      (Json.parse? spec.toJson.pretty).bind ClassSpec.ofJson? = some spec) ∧
    ∃ (report : Report) (specs : List ClassSpec),
      Command.report manifest e .dumpSpecs = (.ok report, e) ∧
      e.perform (.allSpecs true) = (.ok specs, e) ∧
      (Json.parse? report.text).bind (Json.list? ClassSpec.ofJson?) = some specs ∧
      specs.Pairwise (fun a b => a.name.text < b.name.text) := by
  constructor
  · intro spec
    have compact := Json.parse?_compact spec.isTextual_toJson Json.empty_gap
    have pretty := Json.parse?_pretty spec.isTextual_toJson Json.empty_gap
    rw [String.append_empty] at compact pretty
    have decoded := spec.ofJson?_toJson
    exact ⟨decoded, by rw [compact, Option.bind_some, decoded],
      by rw [pretty, Option.bind_some, decoded]⟩
  · exact ⟨_, _, rfl, rfl, specsText_read _, reached.specs_filed.all_increasing true⟩

/-- An atlas with an action on load that is explicitly none, moved under the
logical type of books. -/
def atlas : ClassSpec :=
  ((ClassSpec.ofName (.ofString "a/Atlas")).editAll [.setOnLoad .none,
    .addMemberBehavior "index()" (.custom "sorted"),
    .moveToLogical (.ofApplicator (.ofString "a/Book") "a.Replay")]).1

def library : Engine := (ofOptions {}).run [
  ⟨.addSpec .live atlas⟩, ⟨.addSpec .inventory (.ofName (.ofString "a.Map"))⟩]

theorem library_specs_survive :
    Reachable library ∧ ClassSpec.ofJson? atlas.toJson = some atlas ∧
      ∃ report, Command.report .missing library .dumpSpecs = (.ok report, library) ∧
        ∃ specs, (Json.parse? report.text).bind (Json.list? ClassSpec.ofJson?) = some specs ∧
          specs.length = 2 := by
  have reached : Reachable library := (Reachable.fresh {}).run _
  obtain ⟨each, report, specs, printed, listed, decoded, -⟩ :=
    reached.specs_survive_encoding .missing
  refine ⟨reached, (each atlas).1, report, printed, specs, decoded, ?_⟩
  cases listed
  rw [SpecStore.all, List.length_mergeSort]
  decide +kernel

end Engine

end ClassPolicy
