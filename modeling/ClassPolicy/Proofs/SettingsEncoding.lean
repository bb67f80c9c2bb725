import ClassPolicy.Proofs.PlainDocuments
import ClassPolicy.Proofs.SettingsOverlay

/-!
# Settings survive their encoding

Settings that are encoded and decoded again are the same settings, whatever
they hold. Their document has no null, no name twice and little depth, so a
file with its text is read as the document, and what is laid over the defaults
says the same as it does alone.
-/

set_option autoImplicit false

namespace ClassPolicy

/-! ### The entries of the policy -/

theorem RuleKind.ofJson?_toJson (kind : RuleKind) : ofJson? kind.toJson = some kind := by
  cases kind <;> decide +kernel

theorem LoadAction.ofJson?_toJson (action : LoadAction) :
    ofJson? action.toJson = some action := by
  cases action <;>
    simp [toJson, ofJson?, Json.plainVariant?, Json.textVariant?, Json.variant?, List.lookup_cons]

theorem LoadAction.toJson_ne_null (action : LoadAction) : action.toJson ≠ .null := by
  cases action <;> simp [toJson]

theorem LockMode.ofJson?_toJson (mode : LockMode) : ofJson? mode.toJson = some mode := by
  cases mode <;> decide +kernel

theorem ClassEntry.ofJson?_toJson (e : ClassEntry) : ofJson? e.toJson = some e := by
  have record : Json.record?
      ["kind", "classExpression", "honorTransient", "honorVolatile", "onLoad"] e.toJson = _ :=
    Json.record?_ofMembers (Json.Slots.nil |>.memberIfSome _ _ |>.member _ _ |>.member _ _
      |>.member _ _ |>.member _ _) (by decide)
  generalize written : Json.present _ = members at record
  have kind : Json.defaulted members "kind" .inclusion RuleKind.ofJson? = some e.kind :=
    Json.defaulted_of_some (by simp [← written]) e.kind.ofJson?_toJson
  have expression : Json.required members "classExpression" Json.text? = some e.expression :=
    Json.required_text (by simp [← written])
  have honorTransient : Json.defaulted members "honorTransient" false Json.bool? =
      some e.honorTransient := Json.defaulted_bool (by simp [← written])
  have honorVolatile : Json.defaulted members "honorVolatile" false Json.bool? =
      some e.honorVolatile := Json.defaulted_bool (by simp [← written])
  have onLoad : Json.optional members "onLoad" LoadAction.ofJson? = some e.onLoad :=
    Json.optional_eq (by simp [← written]) LoadAction.ofJson?_toJson LoadAction.toJson_ne_null
  simp [ofJson?, record, kind, expression, honorTransient, honorVolatile, onLoad]

theorem LockEntry.ofJson?_toJson (e : LockEntry) : ofJson? e.toJson = some e := by
  have record : Json.record?
      ["methodExpression", "name", "level", "autoSynchronized", "provenance"] e.toJson = _ :=
    Json.record?_ofMembers (Json.Slots.nil |>.memberIfSome _ _ |>.member _ _ |>.member _ _
      |>.memberIfSome _ _ |>.member _ _) (by decide)
  generalize written : Json.present _ = members at record
  have expression : Json.required members "methodExpression" Json.text? = some e.expression :=
    Json.required_text (by simp [← written])
  have name : Json.optional members "name" Json.text? = some e.name :=
    Json.optional_text (by simp [← written])
  have mode : Json.required members "level" LockMode.ofJson? = some e.mode :=
    Json.required_eq (by simp [← written]) e.mode.ofJson?_toJson
  have autoSynchronized : Json.defaulted members "autoSynchronized" false Json.bool? =
      some e.autoSynchronized := Json.defaulted_bool (by simp [← written])
  have provenance : Json.optional members "provenance" Json.text? = some e.provenance :=
    Json.optional_text (by simp [← written])
  simp [ofJson?, record, expression, name, mode, autoSynchronized, provenance]

theorem RootEntry.ofJson?_toJson (e : RootEntry) : ofJson? e.toJson = some e := by
  have record : Json.record? ["field", "name", "final"] e.toJson = _ :=
    Json.record?_ofMembers (Json.Slots.nil |>.memberIfSome _ _ |>.memberIfSome _ _
      |>.member _ _) (by decide)
  generalize written : Json.present _ = members at record
  have field : Json.required members "field" Json.text? = some e.field :=
    Json.required_text (by simp [← written])
  have name : Json.optional members "name" Json.text? = some e.name :=
    Json.optional_text (by simp [← written])
  have isFinal : Json.optional members "final" Json.bool? = some e.isFinal :=
    Json.optional_eq (by simp [← written]; rfl) (fun _ => rfl) (by simp)
  simp [ofJson?, record, field, name, isFinal]

theorem DistributedEntry.ofJson?_toJson (e : DistributedEntry) : ofJson? e.toJson = some e := by
  have record : Json.record? ["methodExpression", "runOnAllNodes"] e.toJson = _ :=
    Json.record?_ofMembers (Json.Slots.nil |>.member _ _ |>.member _ _) (by decide)
  generalize written : Json.present _ = members at record
  have expression : Json.required members "methodExpression" Json.text? = some e.expression :=
    Json.required_text (by simp [← written])
  have runOnAllNodes : Json.defaulted members "runOnAllNodes" true Json.bool? =
      some e.runOnAllNodes := Json.defaulted_bool (by simp [← written])
  simp [ofJson?, record, expression, runOnAllNodes]

/-! ### The parts of the settings -/

theorem PolicySettings.ofJson?_toJson (p : PolicySettings) : ofJson? p.toJson = some p := by
  have record : Json.record? memberNames p.toJson = _ :=
    Json.record?_ofMembers (Json.Slots.nil |>.member _ _ |>.member _ _ |>.member _ _
      |>.member _ _ |>.member _ _ |>.member _ _ |>.member _ _ |>.member _ _ |>.member _ _
      |>.member _ _ |>.member _ _ |>.member _ _) (by decide)
  generalize written : Json.present _ = members at record
  have includeBuiltins : Json.defaulted members "includeBuiltins" true Json.bool? =
      some p.includeBuiltins := Json.defaulted_bool (by simp [← written])
  have allowDynamicSubtypes : Json.defaulted members "allowDynamicSubtypes" false Json.bool? =
      some p.allowDynamicSubtypes := Json.defaulted_bool (by simp [← written])
  have internalNamespaces :
      Json.defaulted members "internalNamespaces" defaultInternalNamespaces Json.texts? =
        some p.internalNamespaces :=
    Json.defaulted_of_some (by simp [← written]) (Json.texts?_ofStrings _)
  have instrumentedClasses :
      Json.defaulted members "instrumentedClasses" [] (Json.list? ClassEntry.ofJson?) =
        some p.instrumentedClasses :=
    Json.defaulted_of_some (by simp [← written]) (Json.list?_array ClassEntry.ofJson?_toJson _)
  have permanentExcludes : Json.defaulted members "permanentExcludes" [] Json.texts? =
      some p.permanentExcludes :=
    Json.defaulted_of_some (by simp [← written]) (Json.texts?_ofStrings _)
  have nonPortable : Json.defaulted members "nonPortable" [] Json.texts? = some p.nonPortable :=
    Json.defaulted_of_some (by simp [← written]) (Json.texts?_ofStrings _)
  have locks : Json.defaulted members "locks" [] (Json.list? LockEntry.ofJson?) = some p.locks :=
    Json.defaulted_of_some (by simp [← written]) (Json.list?_array LockEntry.ofJson?_toJson _)
  have autolockExcludes : Json.defaulted members "autolockExcludes" [] Json.texts? =
      some p.autolockExcludes :=
    Json.defaulted_of_some (by simp [← written]) (Json.texts?_ofStrings _)
  have roots : Json.defaulted members "roots" [] (Json.list? RootEntry.ofJson?) = some p.roots :=
    Json.defaulted_of_some (by simp [← written]) (Json.list?_array RootEntry.ofJson?_toJson _)
  have transientFields : Json.defaulted members "transientFields" [] Json.texts? =
      some p.transientFields :=
    Json.defaulted_of_some (by simp [← written]) (Json.texts?_ofStrings _)
  have distributedMethods :
      Json.defaulted members "distributedMethods" [] (Json.list? DistributedEntry.ofJson?) =
        some p.distributedMethods :=
    Json.defaulted_of_some (by simp [← written])
      (Json.list?_array DistributedEntry.ofJson?_toJson _)
  have customRewriters : Json.defaulted members "customRewriters" .empty (Json.map? Json.text?) =
      some p.customRewriters :=
    Json.defaulted_of_some (by simp [← written]) (Json.map?_ofMap Json.text?_string _)
  simp [ofJson?, record, includeBuiltins, allowDynamicSubtypes, internalNamespaces,
    instrumentedClasses, permanentExcludes, nonPortable, locks, autolockExcludes, roots,
    transientFields, distributedMethods, customRewriters]

theorem LoggingSettings.ofJson?_toJson (l : LoggingSettings) : ofJson? l.toJson = some l := by
  have record : Json.record? ["level", "json"] l.toJson = _ :=
    Json.record?_ofMembers (Json.Slots.nil |>.member _ _ |>.member _ _) (by decide)
  generalize written : Json.present _ = members at record
  have level : Json.defaulted members "level" "warn" Json.text? = some l.level :=
    Json.defaulted_of_some (by simp [← written]; rfl) rfl
  have json : Json.defaulted members "json" false Json.bool? = some l.json :=
    Json.defaulted_bool (by simp [← written])
  simp [ofJson?, record, level, json]

theorem InventorySettings.ofJson?_toJson (i : InventorySettings) :
    ofJson? i.toJson = some i := by
  have record : Json.record? ["manifestPath", "verifyOnStart"] i.toJson = _ :=
    Json.record?_ofMembers (Json.Slots.nil |>.member _ _ |>.memberIfSome _ _) (by decide)
  generalize written : Json.present _ = members at record
  have manifestPath : Json.optional members "manifestPath" Json.text? = some i.manifestPath :=
    Json.optional_text (by simp [← written])
  have verifyOnStart : Json.defaulted members "verifyOnStart" false Json.bool? =
      some i.verifyOnStart := Json.defaulted_bool (by simp [← written])
  simp [ofJson?, record, manifestPath, verifyOnStart]

theorem Settings.ofJson?_toJson (s : Settings) : ofJson? s.toJson = some s := by
  have record : Json.record? ["version", "logging", "policy", "inventory"] s.toJson = _ :=
    Json.record?_ofMembers (Json.Slots.nil |>.member _ _ |>.member _ _ |>.member _ _
      |>.member _ _) (by decide)
  generalize written : Json.present _ = members at record
  have version : Json.defaulted members "version" "0.1.0" Json.text? = some s.version :=
    Json.defaulted_of_some (by simp [← written]; rfl) rfl
  have logging : Json.defaulted members "logging" {} LoggingSettings.ofJson? = some s.logging :=
    Json.defaulted_of_some (by simp [← written]) s.logging.ofJson?_toJson
  have policy : Json.defaulted members "policy" {} PolicySettings.ofJson? = some s.policy :=
    Json.defaulted_of_some (by simp [← written]) s.policy.ofJson?_toJson
  have inventory : Json.defaulted members "inventory" {} InventorySettings.ofJson? =
      some s.inventory :=
    Json.defaulted_of_some (by simp [← written]) s.inventory.ofJson?_toJson
  simp [ofJson?, record, version, logging, policy, inventory]

/-! ### The document of the settings -/

section Plain

open Json (Plain PlainSlots)

variable (limit : ℕ)

theorem LoadAction.plain_toJson (action : LoadAction) : Plain (limit + 1) action.toJson := by
  cases action with
  | callConstructor => exact .string _
  | method name => exact .object (by simp) (by simp [Plain.string])
  | script source => exact .object (by simp) (by simp [Plain.string])

theorem ClassEntry.plain_toJson (e : ClassEntry) : Plain (limit + 2) e.toJson := by
  have kind : Plain (limit + 1) e.kind.toJson := by cases e.kind <;> exact .string _
  exact PlainSlots.nil
    |>.memberIfSome "onLoad" (LoadAction.plain_toJson limit) e.onLoad
    |>.member "honorVolatile" (.bool _)
    |>.member "honorTransient" (.bool _)
    |>.member "classExpression" (.string _)
    |>.member "kind" kind
    |>.ofMembers (by decide)

theorem LockEntry.plain_toJson (e : LockEntry) : Plain (limit + 1) e.toJson :=
  PlainSlots.nil
    |>.memberIfSome "provenance" .string e.provenance
    |>.member "autoSynchronized" (.bool _)
    |>.member "level" (.string _)
    |>.memberIfSome "name" .string e.name
    |>.member "methodExpression" (.string _)
    |>.ofMembers (by decide)

theorem RootEntry.plain_toJson (e : RootEntry) : Plain (limit + 1) e.toJson :=
  PlainSlots.nil
    |>.memberIfSome "final" .bool e.isFinal
    |>.memberIfSome "name" .string e.name
    |>.member "field" (.string _)
    |>.ofMembers (by decide)

theorem DistributedEntry.plain_toJson (e : DistributedEntry) : Plain (limit + 1) e.toJson :=
  PlainSlots.nil
    |>.member "runOnAllNodes" (.bool _)
    |>.member "methodExpression" (.string _)
    |>.ofMembers (by decide)

theorem PolicySettings.plain_toJson (p : PolicySettings) : Plain (limit + 4) p.toJson :=
  PlainSlots.nil
    |>.member "customRewriters" (.ofMap .string p.customRewriters)
    |>.member "distributedMethods" (.list (DistributedEntry.plain_toJson _) p.distributedMethods)
    |>.member "transientFields" (.ofStrings _)
    |>.member "roots" (.list (RootEntry.plain_toJson _) p.roots)
    |>.member "autolockExcludes" (.ofStrings _)
    |>.member "locks" (.list (LockEntry.plain_toJson _) p.locks)
    |>.member "nonPortable" (.ofStrings _)
    |>.member "permanentExcludes" (.ofStrings _)
    |>.member "instrumentedClasses" (.list (ClassEntry.plain_toJson _) p.instrumentedClasses)
    |>.member "internalNamespaces" (.ofStrings _)
    |>.member "allowDynamicSubtypes" (.bool _)
    |>.member "includeBuiltins" (.bool _)
    |>.ofMembers (by decide)

theorem LoggingSettings.plain_toJson (l : LoggingSettings) : Plain (limit + 1) l.toJson :=
  PlainSlots.nil
    |>.member "json" (.bool _)
    |>.member "level" (.string _)
    |>.ofMembers (by decide)

theorem InventorySettings.plain_toJson (i : InventorySettings) : Plain (limit + 1) i.toJson :=
  PlainSlots.nil
    |>.member "verifyOnStart" (.bool _)
    |>.memberIfSome "manifestPath" .string i.manifestPath
    |>.ofMembers (by decide)

theorem Settings.plain_toJson (s : Settings) : Plain (limit + 5) s.toJson :=
  PlainSlots.nil
    |>.member "inventory" (s.inventory.plain_toJson _)
    |>.member "policy" (s.policy.plain_toJson _)
    |>.member "logging" (s.logging.plain_toJson _)
    |>.member "version" (.string _)
    |>.ofMembers (by decide)

end Plain

/-! ### Settings files -/

namespace Settings

/-- A file whose text is the document of some settings, however it is laid out,
gives these settings. -/
theorem ofFile_of_parsed (s : Settings) {content : String}
    (parsed : Json.parse? content = some s.toJson) (path : String) :
    ofFile path (.text content) = .ok s := by
  have plain : Json.Plain Json.depthLimit s.toJson := s.plain_toJson _
  have laid : ofJson? (Json.overlay (toJson {}) s.toJson) = ofJson? s.toJson :=
    absorbs_default s.toJson plain.nullFree
  simp only [ofFile, plain.read?_eq parsed, laid, ofJson?_toJson]

/-- Settings are decoded from their document, alone and laid over the defaults,
and loaded from a file that holds its text in any layout, such as the compact
and the indented one. -/
theorem survive_encoding (s : Settings) (path : String) :
    ofJson? s.toJson = some s ∧
      ofJson? (Json.overlay (toJson {}) s.toJson) = some s ∧
      (∀ content, Json.parse? content = some s.toJson → ofFile path (.text content) = .ok s) ∧
      ofFile path (.text s.toJson.compact) = .ok s ∧
      ofFile path (.text s.toJson.pretty) = .ok s := by
  have plain : Json.Plain Json.depthLimit s.toJson := s.plain_toJson _
  have compact := Json.parse?_compact plain.textual Json.empty_gap
  have pretty := Json.parse?_pretty plain.textual Json.empty_gap
  rw [String.append_empty] at compact pretty
  refine ⟨s.ofJson?_toJson, ?_, fun content parsed => s.ofFile_of_parsed parsed path,
    s.ofFile_of_parsed compact path, s.ofFile_of_parsed pretty path⟩
  rw [absorbs_default s.toJson plain.nullFree, ofJson?_toJson]

end Settings

end ClassPolicy
