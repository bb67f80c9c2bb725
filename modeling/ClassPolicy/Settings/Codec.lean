import ClassPolicy.Settings.Basic

/-!
# Settings in JSON

Each part of the settings is written in full, optional values only when set.
When read, a member with a default may be missing, and one without is needed.
-/

set_option autoImplicit false

namespace ClassPolicy

namespace RuleKind

def toJson : RuleKind → Json
  | .inclusion => .string "include"
  | .exclusion => .string "exclude"

def ofJson? : Json → Option RuleKind :=
  Json.plainVariant? [("include", .inclusion), ("exclude", .exclusion)]

end RuleKind

namespace LoadAction

def toJson : LoadAction → Json
  | .callConstructor => .string "callConstructor"
  | .method name => .object [("method", .string name)]
  | .script source => .object [("script", .string source)]

def ofJson? (j : Json) : Option LoadAction :=
  Json.plainVariant? [("callConstructor", LoadAction.callConstructor)] j <|>
    Json.textVariant? [("method", .method), ("script", .script)] j

end LoadAction

namespace ClassEntry

def toJson (e : ClassEntry) : Json := Json.ofMembers [
  Json.member "kind" e.kind.toJson,
  Json.member "classExpression" (.string e.expression),
  Json.member "honorTransient" (.bool e.honorTransient),
  Json.member "honorVolatile" (.bool e.honorVolatile),
  Json.memberIfSome "onLoad" (e.onLoad.map LoadAction.toJson)]

def ofJson? (j : Json) : Option ClassEntry := do
  let members ←
    Json.record? ["kind", "classExpression", "honorTransient", "honorVolatile", "onLoad"] j
  let kind ← Json.defaulted members "kind" .inclusion RuleKind.ofJson?
  let expression ← Json.required members "classExpression" Json.text?
  let honorTransient ← Json.defaulted members "honorTransient" false Json.bool?
  let honorVolatile ← Json.defaulted members "honorVolatile" false Json.bool?
  let onLoad ← Json.optional members "onLoad" LoadAction.ofJson?
  return ⟨kind, expression, honorTransient, honorVolatile, onLoad⟩

end ClassEntry

namespace LockEntry

def toJson (e : LockEntry) : Json := Json.ofMembers [
  Json.member "methodExpression" (.string e.expression),
  Json.memberIfSome "name" (e.name.map .string),
  Json.member "level" e.mode.toJson,
  Json.member "autoSynchronized" (.bool e.autoSynchronized),
  Json.memberIfSome "provenance" (e.provenance.map .string)]

def ofJson? (j : Json) : Option LockEntry := do
  let members ←
    Json.record? ["methodExpression", "name", "level", "autoSynchronized", "provenance"] j
  let expression ← Json.required members "methodExpression" Json.text?
  let name ← Json.optional members "name" Json.text?
  let mode ← Json.required members "level" LockMode.ofJson?
  let autoSynchronized ← Json.defaulted members "autoSynchronized" false Json.bool?
  let provenance ← Json.optional members "provenance" Json.text?
  return ⟨expression, name, mode, autoSynchronized, provenance⟩

end LockEntry

namespace RootEntry

def toJson (e : RootEntry) : Json := Json.ofMembers [
  Json.member "field" (.string e.field),
  Json.memberIfSome "name" (e.name.map .string),
  Json.memberIfSome "final" (e.isFinal.map .bool)]

def ofJson? (j : Json) : Option RootEntry := do
  let members ← Json.record? ["field", "name", "final"] j
  let field ← Json.required members "field" Json.text?
  let name ← Json.optional members "name" Json.text?
  let isFinal ← Json.optional members "final" Json.bool?
  return ⟨field, name, isFinal⟩

end RootEntry

namespace DistributedEntry

def toJson (e : DistributedEntry) : Json := .object [
  ("methodExpression", .string e.expression),
  ("runOnAllNodes", .bool e.runOnAllNodes)]

def ofJson? (j : Json) : Option DistributedEntry := do
  let members ← Json.record? ["methodExpression", "runOnAllNodes"] j
  let expression ← Json.required members "methodExpression" Json.text?
  let runOnAllNodes ← Json.defaulted members "runOnAllNodes" true Json.bool?
  return ⟨expression, runOnAllNodes⟩

end DistributedEntry

namespace PolicySettings

def toJson (p : PolicySettings) : Json := .object [
  ("includeBuiltins", .bool p.includeBuiltins),
  ("allowDynamicSubtypes", .bool p.allowDynamicSubtypes),
  ("internalNamespaces", Json.ofStrings p.internalNamespaces),
  ("instrumentedClasses", .array (p.instrumentedClasses.map ClassEntry.toJson)),
  ("permanentExcludes", Json.ofStrings p.permanentExcludes),
  ("nonPortable", Json.ofStrings p.nonPortable),
  ("locks", .array (p.locks.map LockEntry.toJson)),
  ("autolockExcludes", Json.ofStrings p.autolockExcludes),
  ("roots", .array (p.roots.map RootEntry.toJson)),
  ("transientFields", Json.ofStrings p.transientFields),
  ("distributedMethods", .array (p.distributedMethods.map DistributedEntry.toJson)),
  ("customRewriters", Json.ofMap .string p.customRewriters)]

def memberNames : List String :=
  ["includeBuiltins", "allowDynamicSubtypes", "internalNamespaces", "instrumentedClasses",
    "permanentExcludes", "nonPortable", "locks", "autolockExcludes", "roots",
    "transientFields", "distributedMethods", "customRewriters"]

def ofJson? (j : Json) : Option PolicySettings := do
  let members ← Json.record? memberNames j
  let includeBuiltins ← Json.defaulted members "includeBuiltins" true Json.bool?
  let allowDynamicSubtypes ← Json.defaulted members "allowDynamicSubtypes" false Json.bool?
  let internalNamespaces ←
    Json.defaulted members "internalNamespaces" defaultInternalNamespaces Json.texts?
  let instrumentedClasses ←
    Json.defaulted members "instrumentedClasses" [] (Json.list? ClassEntry.ofJson?)
  let permanentExcludes ← Json.defaulted members "permanentExcludes" [] Json.texts?
  let nonPortable ← Json.defaulted members "nonPortable" [] Json.texts?
  let locks ← Json.defaulted members "locks" [] (Json.list? LockEntry.ofJson?)
  let autolockExcludes ← Json.defaulted members "autolockExcludes" [] Json.texts?
  let roots ← Json.defaulted members "roots" [] (Json.list? RootEntry.ofJson?)
  let transientFields ← Json.defaulted members "transientFields" [] Json.texts?
  let distributedMethods ←
    Json.defaulted members "distributedMethods" [] (Json.list? DistributedEntry.ofJson?)
  let customRewriters ← Json.defaulted members "customRewriters" .empty (Json.map? Json.text?)
  return ⟨includeBuiltins, allowDynamicSubtypes, internalNamespaces, instrumentedClasses,
    permanentExcludes, nonPortable, locks, autolockExcludes, roots, transientFields,
    distributedMethods, customRewriters⟩

end PolicySettings

namespace LoggingSettings

def toJson (l : LoggingSettings) : Json := .object [
  ("level", .string l.level), ("json", .bool l.json)]

def ofJson? (j : Json) : Option LoggingSettings := do
  let members ← Json.record? ["level", "json"] j
  let level ← Json.defaulted members "level" "warn" Json.text?
  let json ← Json.defaulted members "json" false Json.bool?
  return ⟨level, json⟩

end LoggingSettings

namespace InventorySettings

def toJson (i : InventorySettings) : Json := Json.ofMembers [
  Json.memberIfSome "manifestPath" (i.manifestPath.map .string),
  Json.member "verifyOnStart" (.bool i.verifyOnStart)]

def ofJson? (j : Json) : Option InventorySettings := do
  let members ← Json.record? ["manifestPath", "verifyOnStart"] j
  let manifestPath ← Json.optional members "manifestPath" Json.text?
  let verifyOnStart ← Json.defaulted members "verifyOnStart" false Json.bool?
  return ⟨manifestPath, verifyOnStart⟩

end InventorySettings

namespace Settings

def toJson (s : Settings) : Json := .object [
  ("version", .string s.version),
  ("logging", s.logging.toJson),
  ("policy", s.policy.toJson),
  ("inventory", s.inventory.toJson)]

def ofJson? (j : Json) : Option Settings := do
  let members ← Json.record? ["version", "logging", "policy", "inventory"] j
  let version ← Json.defaulted members "version" "0.1.0" Json.text?
  let logging ← Json.defaulted members "logging" {} LoggingSettings.ofJson?
  let policy ← Json.defaulted members "policy" {} PolicySettings.ofJson?
  let inventory ← Json.defaulted members "inventory" {} InventorySettings.ofJson?
  return ⟨version, logging, policy, inventory⟩

end Settings

end ClassPolicy
