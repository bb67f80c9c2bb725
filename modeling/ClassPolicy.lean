import ClassPolicy.Text.Blank
import ClassPolicy.Text.Alphanumeric
import ClassPolicy.Text.Cut
import ClassPolicy.SortedMap
import ClassPolicy.Json.Basic
import ClassPolicy.Json.Number
import ClassPolicy.Json.Reader
import ClassPolicy.Json.Writer
import ClassPolicy.Json.Merge
import ClassPolicy.Json.Record
import ClassPolicy.TypeName
import ClassPolicy.Modifier
import ClassPolicy.Descriptor
import ClassPolicy.Pattern.Suffixes
import ClassPolicy.Pattern.Error
import ClassPolicy.Pattern.Glob
import ClassPolicy.Pattern.Size
import ClassPolicy.Pattern.TypePattern
import ClassPolicy.Pattern.MemberPattern
import ClassPolicy.Pattern.Cache
import ClassPolicy.Settings.Error
import ClassPolicy.Failure
import ClassPolicy.Rule
import ClassPolicy.TransformMode
import ClassPolicy.ClassSpec
import ClassPolicy.SpecStore
import ClassPolicy.SpecStore.Call
import ClassPolicy.FieldKey
import ClassPolicy.Root
import ClassPolicy.TransientFields
import ClassPolicy.Lock
import ClassPolicy.DistributedMethod
import ClassPolicy.ModeDecision
import ClassPolicy.Adaptability
import ClassPolicy.DecisionCache
import ClassPolicy.Inventory
import ClassPolicy.Settings.Basic
import ClassPolicy.Settings.Codec
import ClassPolicy.Settings.Validation
import ClassPolicy.Settings.Source
import ClassPolicy.Engine.Basic
import ClassPolicy.Engine.Decisions
import ClassPolicy.Engine.Registration
import ClassPolicy.Engine.Bundle
import ClassPolicy.Builtins
import ClassPolicy.Bootstrap
import ClassPolicy.Engine.Call
import ClassPolicy.CommandLine.Arguments
import ClassPolicy.CommandLine.Command
import ClassPolicy.CommandLine.Report
import ClassPolicy.CommandLine.Session
import ClassPolicy.Main
import ClassPolicy.Proofs.Step
import ClassPolicy.Proofs.RegistrationSteps
import ClassPolicy.Proofs.Run
import ClassPolicy.Proofs.CacheCoherence
import ClassPolicy.Proofs.FailedRegistration
import ClassPolicy.Proofs.BundleAgreement
import ClassPolicy.Proofs.PermanentExclusion
import ClassPolicy.Proofs.LogicalNesting
import ClassPolicy.Proofs.OneSpecMap
import ClassPolicy.Proofs.Stars
import ClassPolicy.Proofs.SegmentGlobs
import ClassPolicy.Proofs.TypePatternMeaning
import ClassPolicy.Proofs.Words
import ClassPolicy.Proofs.MemberForms
import ClassPolicy.Proofs.MemberPatternMeaning
import ClassPolicy.Proofs.InheritedMode
import ClassPolicy.Proofs.RootDominance
import ClassPolicy.Proofs.SettingsChecks
import ClassPolicy.Proofs.BootstrapOutcome
import ClassPolicy.Proofs.LockResolution
import ClassPolicy.Proofs.SettingsLocks
import ClassPolicy.Proofs.EngineSpecs
import ClassPolicy.Proofs.InventoryMerge
import ClassPolicy.Proofs.RecordFields
import ClassPolicy.Proofs.JsonText
import ClassPolicy.Proofs.SpecEncoding
import ClassPolicy.Proofs.Overlay
import ClassPolicy.Proofs.SettingsOverlay
import ClassPolicy.Proofs.Spelling
import ClassPolicy.Proofs.SpelledManifest
import ClassPolicy.Proofs.SpelledMembers
import ClassPolicy.Proofs.SpelledDecisions
import ClassPolicy.Proofs.SpelledEngine
import ClassPolicy.Proofs.SpelledPolicy
import ClassPolicy.Proofs.SpelledCalls
import ClassPolicy.Proofs.SpellingIndependence
import ClassPolicy.Proofs.ParameterCuts
import ClassPolicy.Proofs.PlainDocuments
import ClassPolicy.Proofs.SettingsEncoding
import ClassPolicy.Proofs.LockHistory
import ClassPolicy.Proofs.RegistrationOrder
import ClassPolicy.Proofs.ModeOrder
import ClassPolicy.Proofs.RuleOrder
import ClassPolicy.Proofs.IncludeAndLock
import ClassPolicy.Proofs.DecisionDirection
import ClassPolicy.Proofs.RootHistory
import ClassPolicy.Proofs.DecisionMemory
import ClassPolicy.Proofs.PatternMemory
import ClassPolicy.Proofs.TypePatternGrammar
import ClassPolicy.Proofs.LockLifecycle
import ClassPolicy.Proofs.OverlayPaths
import ClassPolicy.Proofs.PatternErrors
import ClassPolicy.Proofs.Journal
import ClassPolicy.Proofs.RefusalReports
import ClassPolicy.Proofs.MemberKeys
import ClassPolicy.Proofs.NullMembers
import ClassPolicy.Proofs.LogicalExtension
import ClassPolicy.Proofs.NameSpelling
import ClassPolicy.Proofs.MemberSpelling
