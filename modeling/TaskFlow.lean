import TaskFlow.Binary64
import TaskFlow.Binary64.Text
import TaskFlow.Dependency
import TaskFlow.Workflow.Document
import TaskFlow.Instant
import TaskFlow.Engine
import TaskFlow.Engine.Operations
import TaskFlow.Engine.Readiness
import TaskFlow.Error
import TaskFlow.Workflow.File
import TaskFlow.Graph
import TaskFlow.Graph.Longest
import TaskFlow.Graph.Report
import TaskFlow.Graph.Search
import TaskFlow.Ident
import TaskFlow.Instant.Text
import TaskFlow.Kind
import TaskFlow.Lock.Contest
import TaskFlow.Lock.Registry
import TaskFlow.Lock.Session
import TaskFlow.Lock.Table
import TaskFlow.Naming
import TaskFlow.Prerequisite
import TaskFlow.Repository
import TaskFlow.Repository.Edges
import TaskFlow.Repository.Query
import TaskFlow.Repository.Walk
import TaskFlow.Roster
import TaskFlow.Settings
import TaskFlow.Settings.Layer
import TaskFlow.Settings.Load
import TaskFlow.Settings.Read
import TaskFlow.Settings.Text
import TaskFlow.Status
import TaskFlow.Text
import TaskFlow.Text.Lowercase
import TaskFlow.Wire.Codec
import TaskFlow.Wire.Errors
import TaskFlow.Wire.Records
import TaskFlow.Wire.Reports
import TaskFlow.Wire.Value
import TaskFlow.Wire.Workflow
import TaskFlow.Workflow.Cache
import TaskFlow.Workflow.Document.Text
import TaskFlow.Workflow.Spec
import TaskFlow.Workflow.Transition
import TaskFlow.Yaml.Glyph
import TaskFlow.Yaml.Node
import TaskFlow.Yaml.Node.Build
import TaskFlow.Yaml.Scalar
import TaskFlow.Yaml.Token
import TaskFlow.Yaml.Token.Scan
import TaskFlow.Proofs.ArcOrder
import TaskFlow.Proofs.CriticalPath
import TaskFlow.Proofs.Rosters
import TaskFlow.Proofs.Admission
import TaskFlow.Proofs.EdgeInvariant
import TaskFlow.Proofs.Runs
import TaskFlow.Proofs.Blockers
import TaskFlow.Proofs.Traversal
import TaskFlow.Proofs.Caching
import TaskFlow.Proofs.StatusChanges
import TaskFlow.Proofs.StatusHistory
import TaskFlow.Proofs.StatusNames
import TaskFlow.Proofs.DryRuns
import TaskFlow.Proofs.Workflows
import TaskFlow.Proofs.Transitions
import TaskFlow.Proofs.Passage
import TaskFlow.Proofs.Reopening
import TaskFlow.Proofs.Conclusion
import TaskFlow.Proofs.Locking
import TaskFlow.Proofs.Reached
import TaskFlow.Proofs.Starting
import TaskFlow.Proofs.Batches
import TaskFlow.Proofs.Contests
import TaskFlow.Proofs.Queues
import TaskFlow.Proofs.Registries
import TaskFlow.Proofs.Absence
import TaskFlow.Proofs.MutualExclusion
import TaskFlow.Proofs.LockTables
import TaskFlow.Proofs.Lists
import TaskFlow.Proofs.CacheRuns
import TaskFlow.Proofs.Documents
import TaskFlow.Proofs.Mirror
import TaskFlow.Proofs.Distances
import TaskFlow.Proofs.LongestWalks
import TaskFlow.Proofs.Groups
import TaskFlow.Proofs.WrittenForms
import TaskFlow.Proofs.WireForms
import TaskFlow.Proofs.WireRecords
import TaskFlow.Proofs.Redrawings
import TaskFlow.Proofs.Leniency
import TaskFlow.Proofs.Prerequisites
import TaskFlow.Proofs.Deletions
import TaskFlow.Proofs.StatusSpellings
import TaskFlow.Proofs.Neighbors
import TaskFlow.Proofs.Layers
import TaskFlow.Proofs.LockEntries
import TaskFlow.Proofs.Loading
import TaskFlow.Proofs.WorkLists
import TaskFlow.Proofs.Rounding
import TaskFlow.Proofs.DecimalText
import TaskFlow.Proofs.PrintedTexts
import TaskFlow.Proofs.TextSettings
