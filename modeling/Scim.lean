import Scim.Action
import Scim.Bulk.Batch
import Scim.Bulk.Reference
import Scim.Bulk.Request
import Scim.Bulk.Result
import Scim.Bulk.Target
import Scim.Cli.Arguments
import Scim.Cli.Run
import Scim.Error
import Scim.Error.Response
import Scim.Filter.Basic
import Scim.Filter.Evaluation
import Scim.Filter.Parser
import Scim.Filter.Printer
import Scim.Filter.Token
import Scim.Filter.Value
import Scim.Http.Client
import Scim.Http.Session
import Scim.Json.Basic
import Scim.Json.Display
import Scim.Json.Equality
import Scim.Json.Printer
import Scim.Json.Reader
import Scim.Main
import Scim.Number.Double
import Scim.Number.Numeral
import Scim.Number.Power
import Scim.Number.Shortest
import Scim.Patch.Apply
import Scim.Patch.Change
import Scim.Patch.Edit
import Scim.Patch.Operation
import Scim.Patch.Probe
import Scim.Path.Location
import Scim.Proofs.Action
import Scim.Proofs.Bulk.Calls
import Scim.Proofs.Bulk.Failures
import Scim.Proofs.Bulk.References
import Scim.Proofs.Bulk.Sequence
import Scim.Proofs.Bulk.Settling
import Scim.Proofs.Bulk.Stopping
import Scim.Proofs.Crashes
import Scim.Proofs.Error.Changing
import Scim.Proofs.Error.Raising
import Scim.Proofs.Error.Refusing
import Scim.Proofs.Error.Responses
import Scim.Proofs.Failures
import Scim.Proofs.Filter.Bracketing
import Scim.Proofs.Filter.Canonical
import Scim.Proofs.Filter.Crashing
import Scim.Proofs.Filter.Grammar
import Scim.Proofs.Filter.Lexing
import Scim.Proofs.Filter.Locating
import Scim.Proofs.Filter.Nulls
import Scim.Proofs.Filter.Parsing
import Scim.Proofs.Filter.Paths
import Scim.Proofs.Filter.Patterns
import Scim.Proofs.Filter.Positions
import Scim.Proofs.Filter.Prefixing
import Scim.Proofs.Filter.Reading
import Scim.Proofs.Filter.Reprinting
import Scim.Proofs.Filter.Respelling
import Scim.Proofs.Filter.RoundTrip
import Scim.Proofs.Filter.Rows
import Scim.Proofs.Filter.Tiling
import Scim.Proofs.Filter.Tokens
import Scim.Proofs.Http.Throttling
import Scim.Proofs.Json.Alikeness
import Scim.Proofs.Json.Reflexivity
import Scim.Proofs.Json.Sameness
import Scim.Proofs.Json.Strings
import Scim.Proofs.Number.Numerals
import Scim.Proofs.Number.Rounding
import Scim.Proofs.Number.Shortest
import Scim.Proofs.Outcome
import Scim.Proofs.Patch.Absorbing
import Scim.Proofs.Patch.Carrying
import Scim.Proofs.Patch.Clearing
import Scim.Proofs.Patch.Commuting
import Scim.Proofs.Patch.Crashing
import Scim.Proofs.Patch.Decisions
import Scim.Proofs.Patch.Edits
import Scim.Proofs.Patch.Effects
import Scim.Proofs.Patch.Forwarding
import Scim.Proofs.Patch.Framing
import Scim.Proofs.Patch.Gathering
import Scim.Proofs.Patch.Homes
import Scim.Proofs.Patch.Matching
import Scim.Proofs.Patch.Merging
import Scim.Proofs.Patch.Naming
import Scim.Proofs.Patch.Plurals
import Scim.Proofs.Patch.ReadOnly
import Scim.Proofs.Patch.Repeating
import Scim.Proofs.Patch.Requests
import Scim.Proofs.Patch.Returning
import Scim.Proofs.Patch.Settling
import Scim.Proofs.Patch.Spelling
import Scim.Proofs.Patch.Tidiness
import Scim.Proofs.Patch.Undoing
import Scim.Proofs.Path.Dotting
import Scim.Proofs.Path.Emptying
import Scim.Proofs.Path.Forming
import Scim.Proofs.Path.Qualifying
import Scim.Proofs.Path.Reprinting
import Scim.Proofs.Path.Selecting
import Scim.Proofs.Path.Transparent
import Scim.Proofs.Query.ComplexSorting
import Scim.Proofs.Query.Concealing
import Scim.Proofs.Query.Copying
import Scim.Proofs.Query.Crashing
import Scim.Proofs.Query.Dropping
import Scim.Proofs.Query.Keeping
import Scim.Proofs.Query.Leftovers
import Scim.Proofs.Query.Ordering
import Scim.Proofs.Query.Parameters
import Scim.Proofs.Query.Parts
import Scim.Proofs.Query.Preorders
import Scim.Proofs.Query.PushDown
import Scim.Proofs.Query.Rearranging
import Scim.Proofs.Query.StableSorting
import Scim.Proofs.Query.Values
import Scim.Proofs.Resource.Agreement
import Scim.Proofs.Resource.Ambiguity
import Scim.Proofs.Resource.Attributes
import Scim.Proofs.Resource.Merging
import Scim.Proofs.Resource.Places
import Scim.Proofs.Resource.Primaries
import Scim.Proofs.Resource.Removal
import Scim.Proofs.Resource.Spellings
import Scim.Proofs.Service.Presenting
import Scim.Proofs.Service.Primaries
import Scim.Proofs.Service.Writing
import Scim.Proofs.Sorting.Arrangements
import Scim.Proofs.Sorting.Levels
import Scim.Proofs.Sorting.Merging
import Scim.Proofs.Sorting.Permuting
import Scim.Proofs.Sorting.Searching
import Scim.Proofs.Sorting.Stability
import Scim.Proofs.Store.Calls
import Scim.Proofs.Store.Entries
import Scim.Proofs.Store.Interleaving
import Scim.Proofs.Store.Keys
import Scim.Proofs.Store.Stamps
import Scim.Proofs.Store.Versions
import Scim.Proofs.Sync.Beside
import Scim.Proofs.Sync.Effects
import Scim.Proofs.Sync.Ending
import Scim.Proofs.Sync.Mirroring
import Scim.Proofs.Sync.Orphans
import Scim.Proofs.Sync.Paging
import Scim.Proofs.Sync.Passes
import Scim.Proofs.Sync.Repeats
import Scim.Proofs.Sync.Rounds
import Scim.Proofs.Sync.Walking
import Scim.Proofs.Sync.Watching
import Scim.Proofs.Text.Characters
import Scim.Proofs.Text.Splitting
import Scim.Proofs.Timestamp.Calendar
import Scim.Proofs.Timestamp.Instants
import Scim.Query.Projection
import Scim.Query.Result
import Scim.Query.Sorting
import Scim.Query.Spec
import Scim.Resource
import Scim.Schema.Basic
import Scim.Schema.Builtin
import Scim.Schema.Wire
import Scim.Service
import Scim.Sorting.Merge
import Scim.Sorting.Run
import Scim.Sorting.Schedule
import Scim.Sorting.Search
import Scim.Store.Adapter
import Scim.Store.Memory
import Scim.Store.Pool
import Scim.Store.Remote
import Scim.Store.Supply
import Scim.Sync.IdSet
import Scim.Sync.Reconciliation
import Scim.Sync.Walk
import Scim.Text.Case
import Scim.Text.CharClass
import Scim.Text.Part
import Scim.Text.Quoted
import Scim.Text.Span
import Scim.Text.Tables.Case
import Scim.Text.Tables.Sigma
import Scim.Text.Tables.Unprintable
import Scim.Text.Tables.Word
import Scim.Timestamp
