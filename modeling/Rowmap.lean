import Rowmap.Calendar
import Rowmap.Change
import Rowmap.Condition.Compile
import Rowmap.Condition.Leaf
import Rowmap.Condition.Rule
import Rowmap.Condition.Tree
import Rowmap.Database.Call
import Rowmap.Database.Checkout
import Rowmap.Database.Registry
import Rowmap.Database.Scripted
import Rowmap.Database.Source
import Rowmap.Declaration.Check
import Rowmap.Declaration.Description
import Rowmap.Declaration.Numeral
import Rowmap.Declaration.PoolSettings
import Rowmap.Declaration.RecordType
import Rowmap.Declaration.Reserved
import Rowmap.Exchange.Catalog
import Rowmap.Exchange.Json
import Rowmap.Exchange.Scalar
import Rowmap.Failure.Basic
import Rowmap.Failure.Chain
import Rowmap.Failure.Fault
import Rowmap.Failure.Issue
import Rowmap.Failure.Named
import Rowmap.Failure.Unknown
import Rowmap.FieldType
import Rowmap.LogEvent
import Rowmap.Logged
import Rowmap.Migration
import Rowmap.Number.Binary64
import Rowmap.Number.Decimal
import Rowmap.Number.Factored
import Rowmap.Number.Scientific
import Rowmap.Number.Shortest
import Rowmap.Query.Rows
import Rowmap.Query.Run
import Rowmap.Query.State
import Rowmap.Record.Attribute
import Rowmap.Record.Data
import Rowmap.Record.Find
import Rowmap.Record.Key
import Rowmap.Record.New
import Rowmap.Record.Persistence
import Rowmap.Record.State
import Rowmap.Rendition
import Rowmap.Select
import Rowmap.Select.Columns
import Rowmap.Select.OrderBy
import Rowmap.Session.Basic
import Rowmap.Session.Refresh
import Rowmap.Sql.Joined
import Rowmap.Sql.Placeholder
import Rowmap.Sql.Quoting
import Rowmap.Sql.Statement
import Rowmap.Stream.Pull
import Rowmap.Stream.State
import Rowmap.Table
import Rowmap.Text.Blank
import Rowmap.Text.CodeSet
import Rowmap.Text.Digit
import Rowmap.Text.Identifier
import Rowmap.Text.LowerCase
import Rowmap.Text.Printable
import Rowmap.Text.Quoted
import Rowmap.Text.Similarity
import Rowmap.Text.Whole
import Rowmap.Value.Basic
import Rowmap.Value.Entries
import Rowmap.Value.Equality
import Rowmap.Value.Iterate
import Rowmap.Value.Matching
import Rowmap.Value.Pairs
import Rowmap.Value.Printed
import Rowmap.Value.Sequence
import Rowmap.Value.Shorthand
import Rowmap.Value.Whole
import Rowmap.Vocabulary
import Rowmap.Proofs.Condition.Cases
import Rowmap.Proofs.Value.Parts
import Rowmap.Proofs.Condition.StandardLeaf
import Rowmap.Proofs.Condition.Reading
import Rowmap.Proofs.Condition.Tokens
import Rowmap.Proofs.Condition.Meaning
import Rowmap.Proofs.Sql.Numbering
import Rowmap.Proofs.Condition.Fragments
import Rowmap.Proofs.Condition.LeafNumbers
import Rowmap.Proofs.Condition.Placeholders
import Rowmap.Proofs.Condition.Columns
import Rowmap.Proofs.Condition.Succeeds
import Rowmap.Proofs.Condition.WellFormed
import Rowmap.Proofs.Condition.Accepts
import Rowmap.Proofs.Sql.Shifting
import Rowmap.Proofs.Condition.LeafShifts
import Rowmap.Proofs.Condition.Shifting
import Rowmap.Proofs.Session.Sends
import Rowmap.Proofs.Record.Writes
import Rowmap.Proofs.Value.Pairs
import Rowmap.Proofs.Record.History
import Rowmap.Proofs.Record.Update
import Rowmap.Proofs.Number.Rational
import Rowmap.Proofs.Value.Equality
import Rowmap.Proofs.Select.Equality
import Rowmap.Proofs.Query.Freshness
import Rowmap.Proofs.Session.Custody
import Rowmap.Proofs.Stream.Custody
import Rowmap.Proofs.Query.Custody
import Rowmap.Proofs.Failure.Timeout
import Rowmap.Proofs.Session.Deeds
import Rowmap.Proofs.Database.Checkout
import Rowmap.Proofs.Database.Transaction
import Rowmap.Proofs.Migration.Scripts
import Rowmap.Proofs.Migration.Journal
import Rowmap.Proofs.Migration.Course
import Rowmap.Proofs.Migration.Ledger
import Rowmap.Proofs.Migration.Memory
import Rowmap.Proofs.Migration.Once
import Rowmap.Proofs.Migration.Runner
import Rowmap.Proofs.Migration.Race
import Rowmap.Proofs.Record.Dirty
import Rowmap.Proofs.Record.Insert
import Rowmap.Proofs.Sql.Alike
import Rowmap.Proofs.Value.Alike
import Rowmap.Proofs.Condition.LeafAlike
import Rowmap.Proofs.Condition.Alike
import Rowmap.Proofs.Database.Discard
import Rowmap.Proofs.Failure.Spares
import Rowmap.Proofs.Condition.Spares
import Rowmap.Proofs.Session.Spares
import Rowmap.Proofs.Query.Agreement
import Rowmap.Proofs.Record.Private
import Rowmap.Proofs.Query.Private
import Rowmap.Proofs.Condition.Values
import Rowmap.Proofs.Condition.Marks
import Rowmap.Proofs.Record.Marks
import Rowmap.Proofs.Session.Additions
import Rowmap.Proofs.Stream.Closing
import Rowmap.Proofs.Stream.Passage
import Rowmap.Proofs.Record.Carried
import Rowmap.Proofs.Query.Shapes
import Rowmap.Proofs.Session.Retains
import Rowmap.Proofs.Query.Projection
import Rowmap.Proofs.Query.Retains
import Rowmap.Proofs.Query.Labels
import Rowmap.Proofs.Query.Refusals
import Rowmap.Proofs.Session.Logs
import Rowmap.Proofs.Stream.Drained
import Rowmap.Proofs.Stream.Sends
import Rowmap.Proofs.Query.Drained
import Rowmap.Proofs.Query.Passes
import Rowmap.Proofs.Value.Refreshed
import Rowmap.Proofs.Record.Twice
import Rowmap.Proofs.Condition.Reached
import Rowmap.Proofs.Condition.Lists
import Rowmap.Proofs.Condition.Blank
import Rowmap.Proofs.Condition.Spread
import Rowmap.Proofs.Condition.Widening
import Rowmap.Proofs.Condition.Recast
import Rowmap.Proofs.Condition.Defaults
import Rowmap.Proofs.Condition.Explicit
import Rowmap.Proofs.Sql.Lexemes
import Rowmap.Proofs.Sql.Renumbering
import Rowmap.Proofs.Sql.ReadBack
import Rowmap.Proofs.Sql.Tests
import Rowmap.Proofs.Condition.Complement
import Rowmap.Proofs.Record.Wrapped
import Rowmap.Proofs.Stream.Failing
import Rowmap.Proofs.Stream.Started
import Rowmap.Proofs.Condition.Registry
import Rowmap.Proofs.Record.Accessors
import Rowmap.Proofs.Failure.Search
import Rowmap.Proofs.Database.Disposal
import Rowmap.Proofs.Sql.Cuts
import Rowmap.Proofs.Condition.Naming
import Rowmap.Proofs.Record.Naming
import Rowmap.Proofs.Declaration.Inheritance
