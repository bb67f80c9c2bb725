import ClassPolicy.Proofs.Overlay
import ClassPolicy.Settings.Source

/-!
# Settings over the defaults

The defaults are known twice: to the reader, for what a file does not say, and
as the document that a file is laid over. They agree at every part of the
settings, so a file says the same laid over the defaults as read alone.
-/

set_option autoImplicit false

namespace ClassPolicy

open Json (Absorbs NullFreeValue Overlaid absorbs_record absorbs_of_not_object absorbs_empty)

theorem LoggingSettings.absorbs_default : Absorbs ofJson? (toJson {}) := by
  refine absorbs_record (by decide) fun own merged laid => ?_
  have level : Json.defaulted merged "level" "warn" Json.text? =
      Json.defaulted own "level" "warn" Json.text? :=
    laid.defaulted (by decide) rfl rfl (absorbs_of_not_object nofun)
  have json : Json.defaulted merged "json" false Json.bool? =
      Json.defaulted own "json" false Json.bool? :=
    laid.defaulted (by decide) rfl rfl (absorbs_of_not_object nofun)
  rw [level, json]

theorem InventorySettings.absorbs_default : Absorbs ofJson? (toJson {}) := by
  refine absorbs_record (by decide) fun own merged laid => ?_
  have manifestPath : Json.optional merged "manifestPath" Json.text? =
      Json.optional own "manifestPath" Json.text? := laid.optional (by decide) rfl
  have verifyOnStart : Json.defaulted merged "verifyOnStart" false Json.bool? =
      Json.defaulted own "verifyOnStart" false Json.bool? :=
    laid.defaulted (by decide) rfl rfl (absorbs_of_not_object nofun)
  rw [manifestPath, verifyOnStart]

theorem PolicySettings.absorbs_default : Absorbs ofJson? (toJson {}) := by
  refine absorbs_record (by decide) fun own merged laid => ?_
  have includeBuiltins : Json.defaulted merged "includeBuiltins" true Json.bool? =
      Json.defaulted own "includeBuiltins" true Json.bool? :=
    laid.defaulted (by decide) rfl rfl (absorbs_of_not_object nofun)
  have allowDynamicSubtypes : Json.defaulted merged "allowDynamicSubtypes" false Json.bool? =
      Json.defaulted own "allowDynamicSubtypes" false Json.bool? :=
    laid.defaulted (by decide) rfl rfl (absorbs_of_not_object nofun)
  have internalNamespaces :
      Json.defaulted merged "internalNamespaces" defaultInternalNamespaces Json.texts? =
      Json.defaulted own "internalNamespaces" defaultInternalNamespaces Json.texts? :=
    laid.defaulted (by decide) rfl rfl (absorbs_of_not_object nofun)
  have instrumentedClasses :
      Json.defaulted merged "instrumentedClasses" [] (Json.list? ClassEntry.ofJson?) =
      Json.defaulted own "instrumentedClasses" [] (Json.list? ClassEntry.ofJson?) :=
    laid.list (by decide) rfl
  have permanentExcludes : Json.defaulted merged "permanentExcludes" [] Json.texts? =
      Json.defaulted own "permanentExcludes" [] Json.texts? := laid.list (by decide) rfl
  have nonPortable : Json.defaulted merged "nonPortable" [] Json.texts? =
      Json.defaulted own "nonPortable" [] Json.texts? := laid.list (by decide) rfl
  have locks : Json.defaulted merged "locks" [] (Json.list? LockEntry.ofJson?) =
      Json.defaulted own "locks" [] (Json.list? LockEntry.ofJson?) := laid.list (by decide) rfl
  have autolockExcludes : Json.defaulted merged "autolockExcludes" [] Json.texts? =
      Json.defaulted own "autolockExcludes" [] Json.texts? := laid.list (by decide) rfl
  have roots : Json.defaulted merged "roots" [] (Json.list? RootEntry.ofJson?) =
      Json.defaulted own "roots" [] (Json.list? RootEntry.ofJson?) := laid.list (by decide) rfl
  have transientFields : Json.defaulted merged "transientFields" [] Json.texts? =
      Json.defaulted own "transientFields" [] Json.texts? := laid.list (by decide) rfl
  have distributedMethods :
      Json.defaulted merged "distributedMethods" [] (Json.list? DistributedEntry.ofJson?) =
      Json.defaulted own "distributedMethods" [] (Json.list? DistributedEntry.ofJson?) :=
    laid.list (by decide) rfl
  have customRewriters : Json.defaulted merged "customRewriters" .empty (Json.map? Json.text?) =
      Json.defaulted own "customRewriters" .empty (Json.map? Json.text?) :=
    laid.defaulted (by decide) rfl rfl absorbs_empty
  rw [includeBuiltins, allowDynamicSubtypes, internalNamespaces, instrumentedClasses,
    permanentExcludes, nonPortable, locks, autolockExcludes, roots, transientFields,
    distributedMethods, customRewriters]

theorem Settings.absorbs_default : Absorbs ofJson? (toJson {}) := by
  refine absorbs_record (by decide) fun own merged laid => ?_
  have version : Json.defaulted merged "version" "0.1.0" Json.text? =
      Json.defaulted own "version" "0.1.0" Json.text? :=
    laid.defaulted (by decide) rfl rfl (absorbs_of_not_object nofun)
  have logging : Json.defaulted merged "logging" {} LoggingSettings.ofJson? =
      Json.defaulted own "logging" {} LoggingSettings.ofJson? :=
    laid.defaulted (by decide) rfl rfl LoggingSettings.absorbs_default
  have policy : Json.defaulted merged "policy" {} PolicySettings.ofJson? =
      Json.defaulted own "policy" {} PolicySettings.ofJson? :=
    laid.defaulted (by decide) rfl rfl PolicySettings.absorbs_default
  have inventory : Json.defaulted merged "inventory" {} InventorySettings.ofJson? =
      Json.defaulted own "inventory" {} InventorySettings.ofJson? :=
    laid.defaulted (by decide) rfl rfl InventorySettings.absorbs_default
  rw [version, logging, policy, inventory]

namespace Settings

/-- A value without null is decoded over the document of the default settings
as it is decoded alone; so a file that holds it gives what it says by itself. -/
theorem ofJson?_over_defaults {v : Json} (value : v.value? = some v)
    (nullFree : v.isNullFree = true) :
    ofJson? (Json.overlay (toJson {}) v) = ofJson? v ∧
      ∀ path content, Json.read? content = some v →
        ofFile path (.text content) =
          match ofJson? v with
          | some settings => .ok settings
          | none => .error .malformed := by
  have same : ofJson? (Json.overlay (toJson {}) v) = ofJson? v :=
    absorbs_default v ⟨value, nullFree⟩
  refine ⟨same, fun path content read => ?_⟩
  simp only [ofFile, read, same]
  cases ofJson? v <;> rfl

/-- A partial document: an empty record, a record given as an array, a list
that replaces the default one, and entries of a map. -/
def partialDocument : Json := .object [
  ("logging", .object []),
  ("inventory", .array [.string "inventory.json", .bool true]),
  ("policy", .object [
    ("internalNamespaces", .array []),
    ("customRewriters", .object [("acme.Vault", .string "sealed")])])]

theorem partialDocument_over_defaults :
    ofJson? (Json.overlay (toJson {}) partialDocument) = some
      { inventory := { manifestPath := some "inventory.json", verifyOnStart := true }
        policy := {
          internalNamespaces := []
          customRewriters := .ofList [("acme.Vault", "sealed")] } } :=
  (ofJson?_over_defaults rfl rfl).1.trans rfl

end Settings

end ClassPolicy
