import ClassPolicy.Json.Record

/-!
# Adaptability

Whether a type may be transformed, with the reason that settled it.
-/

set_option autoImplicit false

namespace ClassPolicy

inductive Reason
  | internalNamespace
  | permanentlyExcluded
  | dynamicSubtypeRefused
  | nestedInLogicalType
  | declaresRoot
  | customRewriter
  | explicitSpec
  | includeRule
  | excludeRule
  | noMatchingRule
deriving DecidableEq, Repr, Inhabited

structure Adaptability where
  transformable : Bool
  reason : Reason
deriving DecidableEq, Repr

namespace Reason

def all : List Reason :=
  [.internalNamespace, .permanentlyExcluded, .dynamicSubtypeRefused, .nestedInLogicalType,
    .declaresRoot, .customRewriter, .explicitSpec, .includeRule, .excludeRule, .noMatchingRule]

def text : Reason → String
  | .internalNamespace => "internal namespace"
  | .permanentlyExcluded => "permanently excluded"
  | .dynamicSubtypeRefused => "dynamic subtype refused"
  | .nestedInLogicalType => "nested in logical type"
  | .declaresRoot => "declares root"
  | .customRewriter => "custom rewriter"
  | .explicitSpec => "explicit spec"
  | .includeRule => "include rule"
  | .excludeRule => "exclude rule"
  | .noMatchingRule => "no matching rule"

def name : Reason → String
  | .internalNamespace => "internalNamespace"
  | .permanentlyExcluded => "permanentlyExcluded"
  | .dynamicSubtypeRefused => "dynamicSubtypeRefused"
  | .nestedInLogicalType => "nestedInLogicalType"
  | .declaresRoot => "declaresRoot"
  | .customRewriter => "customRewriter"
  | .explicitSpec => "explicitSpec"
  | .includeRule => "includeRule"
  | .excludeRule => "excludeRule"
  | .noMatchingRule => "noMatchingRule"

def toJson (reason : Reason) : Json := .string reason.name

def ofJson? : Json → Option Reason :=
  Json.plainVariant? (all.map (fun reason => (reason.name, reason)))

end Reason

namespace Adaptability

def accept (reason : Reason) : Adaptability := ⟨true, reason⟩

def refuse (reason : Reason) : Adaptability := ⟨false, reason⟩

def toJson (a : Adaptability) : Json := .object [
  ("transformable", .bool a.transformable), ("reason", a.reason.toJson)]

end Adaptability

end ClassPolicy
