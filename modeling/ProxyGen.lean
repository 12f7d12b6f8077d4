import ProxyGen.Analysis
import ProxyGen.Catalog.Basic
import ProxyGen.Catalog.Descriptor
import ProxyGen.Catalog.Group
import ProxyGen.Catalog.Propagation
import ProxyGen.Catalog.Status
import ProxyGen.Code.Imports
import ProxyGen.Code.Printer
import ProxyGen.Code.Tree
import ProxyGen.CommandLine.Basic
import ProxyGen.CommandLine.Parser
import ProxyGen.CommandLine.Word
import ProxyGen.Description.Basic
import ProxyGen.Description.Encoding
import ProxyGen.Digest
import ProxyGen.Double
import ProxyGen.Error
import ProxyGen.Failure
import ProxyGen.FileSystem.Basic
import ProxyGen.FileSystem.Tree
import ProxyGen.Generation
import ProxyGen.Json.Basic
import ProxyGen.Json.Bounded
import ProxyGen.Json.Parser
import ProxyGen.Json.Printer
import ProxyGen.Json.Record
import ProxyGen.Json.Token
import ProxyGen.Kind
import ProxyGen.Lookup
import ProxyGen.Main
import ProxyGen.Method
import ProxyGen.Naming
import ProxyGen.OutputDir
import ProxyGen.Path
import ProxyGen.Proofs.Agreement
import ProxyGen.Proofs.AliasHistory
import ProxyGen.Proofs.Aliases
import ProxyGen.Proofs.Ambiguity
import ProxyGen.Proofs.Analyses
import ProxyGen.Proofs.Arguments
import ProxyGen.Proofs.Catalog
import ProxyGen.Proofs.ClaimHistory
import ProxyGen.Proofs.Claims
import ProxyGen.Proofs.Clearing
import ProxyGen.Proofs.Completeness
import ProxyGen.Proofs.Construction
import ProxyGen.Proofs.Delegation
import ProxyGen.Proofs.Directories
import ProxyGen.Proofs.Distances
import ProxyGen.Proofs.Edges
import ProxyGen.Proofs.Emission
import ProxyGen.Proofs.Evaluation
import ProxyGen.Proofs.Execution
import ProxyGen.Proofs.Exploration
import ProxyGen.Proofs.Flattening
import ProxyGen.Proofs.Forwarding
import ProxyGen.Proofs.Grounding
import ProxyGen.Proofs.Grounds
import ProxyGen.Proofs.Growth
import ProxyGen.Proofs.Identifiers
import ProxyGen.Proofs.Keywords
import ProxyGen.Proofs.LeastStatuses
import ProxyGen.Proofs.Legibility
import ProxyGen.Proofs.LocalNames
import ProxyGen.Proofs.Mentions
import ProxyGen.Proofs.MethodNames
import ProxyGen.Proofs.NameChains
import ProxyGen.Proofs.Nesting
import ProxyGen.Proofs.Operations
import ProxyGen.Proofs.Outcomes
import ProxyGen.Proofs.Ownership
import ProxyGen.Proofs.Passing
import ProxyGen.Proofs.Places
import ProxyGen.Proofs.Promotion
import ProxyGen.Proofs.Propagation
import ProxyGen.Proofs.Qualification
import ProxyGen.Proofs.Rearrangement
import ProxyGen.Proofs.Recognition
import ProxyGen.Proofs.Records
import ProxyGen.Proofs.References
import ProxyGen.Proofs.Refusal
import ProxyGen.Proofs.Regeneration
import ProxyGen.Proofs.Registration
import ProxyGen.Proofs.Reordering
import ProxyGen.Proofs.Returning
import ProxyGen.Proofs.Rewalking
import ProxyGen.Proofs.RoundTrip
import ProxyGen.Proofs.Routes
import ProxyGen.Proofs.Signatures
import ProxyGen.Proofs.Softness
import ProxyGen.Proofs.Spelling
import ProxyGen.Proofs.StoredValues
import ProxyGen.Proofs.Termination
import ProxyGen.Proofs.Threading
import ProxyGen.Proofs.Turns
import ProxyGen.Proofs.TypeTexts
import ProxyGen.Proofs.Units
import ProxyGen.Proofs.Unwrapping
import ProxyGen.Proofs.Upgrades
import ProxyGen.Proofs.ValueForms
import ProxyGen.Proofs.Variables
import ProxyGen.Proofs.WalkCatalogs
import ProxyGen.Proofs.WalkSteps
import ProxyGen.Proofs.Wrappable
import ProxyGen.Proofs.Wrapping
import ProxyGen.Proxy.Constructor
import ProxyGen.Proxy.Forwarding
import ProxyGen.Proxy.Plan
import ProxyGen.Proxy.Unit
import ProxyGen.Run
import ProxyGen.Settings
import ProxyGen.Sink
import ProxyGen.Summary
import ProxyGen.Text.Alphabetic
import ProxyGen.Text.Blank
import ProxyGen.Text.CaseMap
import ProxyGen.Text.Order
import ProxyGen.Text.Quoted
import ProxyGen.Text.Runs
import ProxyGen.Text.Split
import ProxyGen.Text.Uppercase
import ProxyGen.TypeExpr.Basic
import ProxyGen.TypeExpr.Parser
import ProxyGen.Universe.Basic
import ProxyGen.Universe.Building
import ProxyGen.Universe.Closure
import ProxyGen.Universe.MethodSet
import ProxyGen.Universe.Underlying
import ProxyGen.Universe.Unseen
import ProxyGen.UniverseFile
import ProxyGen.Walk.Basic
import ProxyGen.Walk.Classification
