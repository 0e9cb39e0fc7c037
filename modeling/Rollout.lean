import Rollout.Command
import Rollout.Command.Linked
import Rollout.Command.Parser
import Rollout.CommandLine.Basic
import Rollout.CommandLine.Help
import Rollout.CommandLine.Options
import Rollout.Content
import Rollout.Context
import Rollout.Csv.Record
import Rollout.Database
import Rollout.Database.Script
import Rollout.Folder
import Rollout.Glob
import Rollout.Grammar.Basic
import Rollout.Grammar.Builtin
import Rollout.Grammar.Linked
import Rollout.Grammar.Outline
import Rollout.Layout
import Rollout.Location
import Rollout.Log.Entry
import Rollout.Log.Filter
import Rollout.Main
import Rollout.Name
import Rollout.Number.Binary
import Rollout.Number.Literal
import Rollout.Number.Shortest
import Rollout.ParseError
import Rollout.Path
import Rollout.Plan.Basic
import Rollout.Plan.Draft
import Rollout.Plan.Error
import Rollout.Plan.Expand
import Rollout.Plan.Objects
import Rollout.Plan.Planner
import Rollout.Plan.Seeds
import Rollout.Proofs.Command.Linked
import Rollout.Proofs.Command.Parser
import Rollout.Proofs.Command.Printed
import Rollout.Proofs.Command.RoundTrip
import Rollout.Proofs.Command.Twins
import Rollout.Proofs.Command.Understood
import Rollout.Proofs.Database.Audit
import Rollout.Proofs.Database.Calls
import Rollout.Proofs.Database.Flagged
import Rollout.Proofs.Database.Transactional
import Rollout.Proofs.Folder
import Rollout.Proofs.Glob
import Rollout.Proofs.Glob.Reading
import Rollout.Proofs.Grammar.Forest
import Rollout.Proofs.Grammar.Linked
import Rollout.Proofs.Grammar.Outline
import Rollout.Proofs.Grammar.Twins
import Rollout.Proofs.Keyword
import Rollout.Proofs.Layout
import Rollout.Proofs.Name
import Rollout.Proofs.Outcome
import Rollout.Proofs.Path
import Rollout.Proofs.Plan.Basic
import Rollout.Proofs.Plan.Draft
import Rollout.Proofs.Plan.Expand
import Rollout.Proofs.Plan.Objects
import Rollout.Proofs.Plan.Planner
import Rollout.Proofs.Plan.Seeds
import Rollout.Proofs.Plan.Shape
import Rollout.Proofs.Queue
import Rollout.Proofs.Session.Atomic
import Rollout.Proofs.Session.Audit
import Rollout.Proofs.Session.Context
import Rollout.Proofs.Session.Course
import Rollout.Proofs.Session.Effects
import Rollout.Proofs.Session.Frame
import Rollout.Proofs.Session.Nesting
import Rollout.Proofs.Session.Planning
import Rollout.Proofs.Session.Readable
import Rollout.Proofs.Session.Release
import Rollout.Proofs.Session.Run
import Rollout.Proofs.Session.Stages
import Rollout.Proofs.Session.StepCalls
import Rollout.Proofs.Session.Uses
import Rollout.Proofs.Source.Listed
import Rollout.Proofs.Sources
import Rollout.Proofs.Sqlite.Connection
import Rollout.Proofs.Sqlite.Contents
import Rollout.Proofs.Sqlite.Lock
import Rollout.Proofs.Sqlite.Statement
import Rollout.Proofs.Sqlite.Transaction
import Rollout.Proofs.Statement
import Rollout.Proofs.Step.Block
import Rollout.Proofs.Text
import Rollout.Proofs.Tree
import Rollout.Proofs.Word
import Rollout.Registry
import Rollout.Session.Basic
import Rollout.Session.Error
import Rollout.Session.Execute
import Rollout.Session.Plan
import Rollout.Session.Steps
import Rollout.Settings.Basic
import Rollout.Settings.Document
import Rollout.Shell.Basic
import Rollout.Shell.Escape
import Rollout.Shell.Run
import Rollout.Shell.Script
import Rollout.Source.Disk
import Rollout.Source.Error
import Rollout.Source.Revision
import Rollout.Sources
import Rollout.Sqlite.Basic
import Rollout.Sqlite.Bookkeeping
import Rollout.Sqlite.Catalog
import Rollout.Sqlite.Connection
import Rollout.Sqlite.Contents
import Rollout.Sqlite.Execute
import Rollout.Sqlite.Identifier
import Rollout.Sqlite.Load
import Rollout.Sqlite.Parser
import Rollout.Sqlite.Statement
import Rollout.Sqlite.Table
import Rollout.Sqlite.Token
import Rollout.Sqlite.Value
import Rollout.Statement
import Rollout.Step
import Rollout.Step.Document
import Rollout.Table
import Rollout.Text.Blank
import Rollout.Text.Json
import Rollout.Text.Ordered
import Rollout.Text.Pieces
import Rollout.Text.Position
import Rollout.Text.Shown
import Rollout.Text.Utf8
import Rollout.Tree
import Rollout.Word
import Rollout.Workspace
import Rollout.World
import Rollout.Yaml.Node
import Rollout.Yaml.Reader
import Rollout.Yaml.Scalar
import Rollout.Yaml.Writer
import Rollout.Proofs.Session.Agreement
import Rollout.Proofs.Session.DryRun
import Rollout.Proofs.Session.Foretold
import Rollout.Proofs.Plan.Refs
import Rollout.Proofs.Session.Requests
import Rollout.Proofs.Session.Revisions
import Rollout.Proofs.Statement.Literals
import Rollout.Proofs.Session.Batches
import Rollout.Proofs.Session.Exclusion
import Rollout.Proofs.Plan.Committed
import Rollout.Proofs.Plan.Owned
import Rollout.Proofs.Session.Automatic
import Rollout.Proofs.Plan.Attachments
import Rollout.Proofs.Plan.Confined
import Rollout.Proofs.Plan.Exact
import Rollout.Proofs.Plan.Emitted
import Rollout.Proofs.Plan.ForeignKeys
import Rollout.Proofs.Plan.Singular
import Rollout.Proofs.Plan.Filters
import Rollout.Proofs.Text.Ordered
import Rollout.Proofs.Plan.Answers
import Rollout.Proofs.Plan.Lands
import Rollout.Proofs.Plan.Names
import Rollout.Proofs.Plan.Depth
import Rollout.Proofs.Plan.Groups
import Rollout.Proofs.Plan.Cycles
import Rollout.Proofs.Plan.Readback
import Rollout.Proofs.Location
import Rollout.Proofs.Plan.Explicit
import Rollout.Proofs.Sqlite.Catalog
import Rollout.Proofs.Table
import Rollout.Proofs.Text.Position
import Rollout.Proofs.Word.Lossless
import Rollout.Proofs.Source.Confined
import Rollout.Proofs.Sqlite.Identifier
import Rollout.Proofs.Source.Repeated
