import JsEmitter.Cache.Artifact
import JsEmitter.Cache.Classes
import JsEmitter.Cache.Entry
import JsEmitter.Cache.Keyed
import JsEmitter.Cache.Modules
import JsEmitter.Cache.Session
import JsEmitter.Cache.SummaryJson
import JsEmitter.ClassIndex
import JsEmitter.CommandLine.Command
import JsEmitter.CommandLine.Files
import JsEmitter.CommandLine.Help
import JsEmitter.CommandLine.Options
import JsEmitter.CommandLine.Run
import JsEmitter.Config
import JsEmitter.Config.Form
import JsEmitter.Digest.Sha256
import JsEmitter.Double
import JsEmitter.Double.Shortest
import JsEmitter.Emission.Class
import JsEmitter.Emission.Module
import JsEmitter.Emission.PiecesJson
import JsEmitter.Emission.Versions
import JsEmitter.EmitError
import JsEmitter.Emitter
import JsEmitter.Emitter.OutlineJson
import JsEmitter.Emitter.Report
import JsEmitter.Emitter.ResultJson
import JsEmitter.HostRefs
import JsEmitter.Js.Outline
import JsEmitter.Js.Tree
import JsEmitter.Js.TreeJson
import JsEmitter.Js.TreeReading
import JsEmitter.Js.Walk
import JsEmitter.Json
import JsEmitter.Json.Number
import JsEmitter.Json.Reading
import JsEmitter.Json.Token
import JsEmitter.Json.Writing
import JsEmitter.Linked.Building
import JsEmitter.Linked.Class
import JsEmitter.Linked.ClassJson
import JsEmitter.Linked.Expr
import JsEmitter.Linked.ExprJson
import JsEmitter.Linked.Layout
import JsEmitter.Linked.Order
import JsEmitter.Linked.Program
import JsEmitter.Linked.ProgramJson
import JsEmitter.Linked.Validation
import JsEmitter.Lowering.Body
import JsEmitter.Lowering.Bootstrap
import JsEmitter.Lowering.ClassParts
import JsEmitter.Lowering.ClassSupport
import JsEmitter.Lowering.Context
import JsEmitter.Lowering.Identifier
import JsEmitter.Lowering.ModuleParts
import JsEmitter.Main
import JsEmitter.Name
import JsEmitter.Naming
import JsEmitter.Proofs.AcceptedPrograms
import JsEmitter.Proofs.AssumedNames
import JsEmitter.Proofs.BaseClasses
import JsEmitter.Proofs.BlockScopes
import JsEmitter.Proofs.BodyVariables
import JsEmitter.Proofs.CacheKeys
import JsEmitter.Proofs.CachesInStep
import JsEmitter.Proofs.CaptureFree
import JsEmitter.Proofs.Cells
import JsEmitter.Proofs.CheckedHeaders
import JsEmitter.Proofs.CheckedPrograms
import JsEmitter.Proofs.ClassForm
import JsEmitter.Proofs.ClassInStep
import JsEmitter.Proofs.ClassLayouts
import JsEmitter.Proofs.ClassLinkage
import JsEmitter.Proofs.ColdRequests
import JsEmitter.Proofs.CombinedVersions
import JsEmitter.Proofs.Comments
import JsEmitter.Proofs.Comparison
import JsEmitter.Proofs.Construction
import JsEmitter.Proofs.Coverage
import JsEmitter.Proofs.CoveredCode
import JsEmitter.Proofs.DefinedNames
import JsEmitter.Proofs.DefinitionHistory
import JsEmitter.Proofs.DependencyOrder
import JsEmitter.Proofs.DepthFirst
import JsEmitter.Proofs.EmittablePrograms
import JsEmitter.Proofs.EmittedBodies
import JsEmitter.Proofs.EmitterRuns
import JsEmitter.Proofs.Encoding
import JsEmitter.Proofs.ExactLinkage
import JsEmitter.Proofs.ExportVersions
import JsEmitter.Proofs.ExportedMembers
import JsEmitter.Proofs.ExprForm
import JsEmitter.Proofs.FailedLookups
import JsEmitter.Proofs.FaithfulHistory
import JsEmitter.Proofs.Fingerprints
import JsEmitter.Proofs.FirstRuns
import JsEmitter.Proofs.Footprints
import JsEmitter.Proofs.FreeNames
import JsEmitter.Proofs.GeneratedNodes
import JsEmitter.Proofs.HeaderCode
import JsEmitter.Proofs.HostNames
import JsEmitter.Proofs.ImportAssignments
import JsEmitter.Proofs.ImportVersions
import JsEmitter.Proofs.Incremental
import JsEmitter.Proofs.Independence
import JsEmitter.Proofs.IndexedPrograms
import JsEmitter.Proofs.InitializationOrder
import JsEmitter.Proofs.Issues
import JsEmitter.Proofs.JsonForms
import JsEmitter.Proofs.KeptHostNames
import JsEmitter.Proofs.KeptNames
import JsEmitter.Proofs.KeyedHistory
import JsEmitter.Proofs.Linkage
import JsEmitter.Proofs.LinkedModules
import JsEmitter.Proofs.LocalInvalidation
import JsEmitter.Proofs.LocalRevisions
import JsEmitter.Proofs.Lockstep
import JsEmitter.Proofs.MemberLayouts
import JsEmitter.Proofs.MethodLinkage
import JsEmitter.Proofs.ModuleAccount
import JsEmitter.Proofs.ModuleLayout
import JsEmitter.Proofs.ModuleOrder
import JsEmitter.Proofs.ModulePaths
import JsEmitter.Proofs.ModuleSubjects
import JsEmitter.Proofs.ModuleVariables
import JsEmitter.Proofs.NameRequests
import JsEmitter.Proofs.NoDivergence
import JsEmitter.Proofs.NodeRules
import JsEmitter.Proofs.NormalBlocks
import JsEmitter.Proofs.NumberRanges
import JsEmitter.Proofs.OrderIndependence
import JsEmitter.Proofs.OutputVariables
import JsEmitter.Proofs.OwnParameters
import JsEmitter.Proofs.PassInStep
import JsEmitter.Proofs.PieceHosts
import JsEmitter.Proofs.PieceVariables
import JsEmitter.Proofs.Pieces
import JsEmitter.Proofs.ProgramCells
import JsEmitter.Proofs.ProgramForm
import JsEmitter.Proofs.ReachableEmitters
import JsEmitter.Proofs.Rearrangement
import JsEmitter.Proofs.Renaming
import JsEmitter.Proofs.RequestCounts
import JsEmitter.Proofs.Requests
import JsEmitter.Proofs.Resumption
import JsEmitter.Proofs.RevisedCode
import JsEmitter.Proofs.RevisedEmission
import JsEmitter.Proofs.RevisedRequests
import JsEmitter.Proofs.Revisions
import JsEmitter.Proofs.RewiredThrowable
import JsEmitter.Proofs.SameAccounts
import JsEmitter.Proofs.SameCode
import JsEmitter.Proofs.SameEmission
import JsEmitter.Proofs.SameParts
import JsEmitter.Proofs.SamePasses
import JsEmitter.Proofs.SamePieces
import JsEmitter.Proofs.SameVersions
import JsEmitter.Proofs.SeparateSteps
import JsEmitter.Proofs.SessionInStep
import JsEmitter.Proofs.StableReemission
import JsEmitter.Proofs.Statistics
import JsEmitter.Proofs.Subjects
import JsEmitter.Proofs.Subterms
import JsEmitter.Proofs.SuperCalls
import JsEmitter.Proofs.TextRanges
import JsEmitter.Proofs.TrackedEmission
import JsEmitter.Proofs.TrackingIndependence
import JsEmitter.Proofs.TrackingModes
import JsEmitter.Proofs.TreeFunctions
import JsEmitter.Proofs.TreePositions
import JsEmitter.Proofs.UniqueDefinitions
import JsEmitter.Proofs.UnitOrder
import JsEmitter.Proofs.ValidPrograms
import JsEmitter.Proofs.Variables
import JsEmitter.Proofs.VersionParts
import JsEmitter.Proofs.VersionedPrograms
import JsEmitter.Proofs.Visits
import JsEmitter.Proofs.WrittenFunctions
import JsEmitter.Proofs.WrittenNames
import JsEmitter.SortedSet
import JsEmitter.Table
import JsEmitter.Text.Blank
import JsEmitter.Text.Quoted
import JsEmitter.Text.Unprinted
import JsEmitter.Toml
import JsEmitter.Version
