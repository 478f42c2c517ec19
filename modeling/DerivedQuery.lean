import DerivedQuery.Text.Case
import DerivedQuery.Text.Blank
import DerivedQuery.Text.Base64
import DerivedQuery.Text.Uuid
import DerivedQuery.Json.Printer
import DerivedQuery.Json.Record
import DerivedQuery.Time.Instant
import DerivedQuery.Entity.Registry
import DerivedQuery.Document.Conversion
import DerivedQuery.Method.Parser
import DerivedQuery.Log.Line
import DerivedQuery.Config
import DerivedQuery.Metrics
import DerivedQuery.Page.Basic
import DerivedQuery.Predicate.Eval
import DerivedQuery.Plan.Explain
import DerivedQuery.Store.Memory
import DerivedQuery.Store.Recording
import DerivedQuery.Repository
import DerivedQuery.Main
import DerivedQuery.Proofs.Store.SkipToken
import DerivedQuery.Proofs.Page.Cut
import DerivedQuery.Proofs.Engine.Step
import DerivedQuery.Proofs.Engine.Planning
import DerivedQuery.Proofs.Engine.Walk
import DerivedQuery.Proofs.Engine.Paging
import DerivedQuery.Proofs.Collection.Entries
import DerivedQuery.Proofs.Store.Reachable
import DerivedQuery.Proofs.Json.Equality
import DerivedQuery.Proofs.Partition.Binding
import DerivedQuery.Proofs.Engine.Delete
import DerivedQuery.Proofs.Method.Phrase
import DerivedQuery.Proofs.Method.Clauses
import DerivedQuery.Proofs.Method.Humps
import DerivedQuery.Proofs.Method.CamelCase
import DerivedQuery.Proofs.Method.Spelling
import DerivedQuery.Proofs.Number.Rounding
import DerivedQuery.Proofs.Predicate.Order
import DerivedQuery.Proofs.Store.ResultOrder
import DerivedQuery.Proofs.Engine.Verbs
import DerivedQuery.Proofs.Store.Keys
import DerivedQuery.Proofs.Engine.Explain
import DerivedQuery.Proofs.Store.FailedUpsert
import DerivedQuery.Proofs.Engine.TokenProtocol
import DerivedQuery.Proofs.Engine.View
import DerivedQuery.Proofs.Engine.ForeignToken
import DerivedQuery.Proofs.Engine.StoreFailure
import DerivedQuery.Proofs.Engine.Fleet
import DerivedQuery.Proofs.Plan.Binding
import DerivedQuery.Proofs.Plan.Names
import DerivedQuery.Proofs.Plan.Shape
import DerivedQuery.Proofs.Plan.Reading
import DerivedQuery.Proofs.Plan.Mentions
import DerivedQuery.Proofs.Plan.Parameters
import DerivedQuery.Proofs.Plan.NameClash
import DerivedQuery.Proofs.Plan.Meaning
import DerivedQuery.Proofs.Method.Lookup
import DerivedQuery.Proofs.Engine.Stock
import DerivedQuery.Proofs.Engine.FindByIds
import DerivedQuery.Proofs.Text.Split
import DerivedQuery.Proofs.Entity.Declarations
import DerivedQuery.Proofs.Entity.Metadata
import DerivedQuery.Proofs.Document.Conversion
import DerivedQuery.Proofs.Document.Fields
import DerivedQuery.Proofs.Store.Entry
import DerivedQuery.Proofs.Store.Replay
import DerivedQuery.Proofs.Repository.Saved
import DerivedQuery.Proofs.Engine.Asks
import DerivedQuery.Proofs.Engine.Removals
import DerivedQuery.Proofs.Engine.Points
import DerivedQuery.Proofs.Engine.InOrder
import DerivedQuery.Proofs.Engine.Faulty
import DerivedQuery.Proofs.Repository.Batches
import DerivedQuery.Proofs.Engine.History
import DerivedQuery.Proofs.Method.Occurrence
import DerivedQuery.Proofs.Engine.Limits
import DerivedQuery.Proofs.Method.AllIgnoreCase
import DerivedQuery.Proofs.Method.Segments
import DerivedQuery.Proofs.Plan.Capability
import DerivedQuery.Proofs.Plan.Assembly
import DerivedQuery.Proofs.Store.Stability
import DerivedQuery.Proofs.Predicate.Integers
import DerivedQuery.Proofs.Text.Lowercase
import DerivedQuery.Proofs.Predicate.Operators
import DerivedQuery.Proofs.Predicate.IgnoreCase
import DerivedQuery.Proofs.Json.Quoted
import DerivedQuery.Proofs.Json.Numeral
import DerivedQuery.Proofs.Json.Reading
import DerivedQuery.Proofs.Log.Line
import DerivedQuery.Proofs.Text.Base64
import DerivedQuery.Proofs.Command.Answers
import DerivedQuery.Proofs.Command.Seeding
import DerivedQuery.Proofs.Command.Paging
import DerivedQuery.Proofs.Method.Search
import DerivedQuery.Proofs.Method.Nested
