import CallGuard.Authorizer
import CallGuard.Backend
import CallGuard.Cache
import CallGuard.Cache.Shared
import CallGuard.Catalog
import CallGuard.Cel.Builtin
import CallGuard.Cel.Eval
import CallGuard.Cel.Evaluator
import CallGuard.Cel.Expr
import CallGuard.Cel.Fault
import CallGuard.Cel.Operator
import CallGuard.Cel.Reader
import CallGuard.Cel.Scope
import CallGuard.Cel.Token
import CallGuard.Cel.Value
import CallGuard.Check
import CallGuard.Config
import CallGuard.Context
import CallGuard.Decimal.Double
import CallGuard.Decimal.Fixed
import CallGuard.Decimal.Reader
import CallGuard.Decimal.Shortest
import CallGuard.Decision
import CallGuard.Deployment
import CallGuard.Error
import CallGuard.Evaluator
import CallGuard.Glob
import CallGuard.Http.CallTimeout
import CallGuard.Http.Guard
import CallGuard.Http.Headers
import CallGuard.Identity
import CallGuard.Interceptor
import CallGuard.Json.Basic
import CallGuard.Json.Number
import CallGuard.Json.Printer
import CallGuard.Json.Raw
import CallGuard.Json.Reader
import CallGuard.Keyed
import CallGuard.Lua.Chunk
import CallGuard.Lua.Eval
import CallGuard.Lua.Evaluator
import CallGuard.Lua.Format
import CallGuard.Lua.Heap
import CallGuard.Lua.Library
import CallGuard.Lua.Library.Arguments
import CallGuard.Lua.Library.Base
import CallGuard.Lua.Library.Maths
import CallGuard.Lua.Library.Packing
import CallGuard.Lua.Library.Strings
import CallGuard.Lua.Library.Tables
import CallGuard.Lua.Library.Views
import CallGuard.Lua.Machine
import CallGuard.Lua.Native
import CallGuard.Lua.Number
import CallGuard.Lua.Operation
import CallGuard.Lua.Options
import CallGuard.Lua.Pattern
import CallGuard.Lua.Random
import CallGuard.Lua.Reader
import CallGuard.Lua.Routine
import CallGuard.Lua.Scoping
import CallGuard.Lua.State
import CallGuard.Lua.Table
import CallGuard.Lua.Token
import CallGuard.Lua.Value
import CallGuard.Main
import CallGuard.Metadata
import CallGuard.Pool
import CallGuard.Pool.Shared
import CallGuard.Proofs.Cache.Sharing
import CallGuard.Proofs.Cache.Size
import CallGuard.Proofs.CacheCoherence
import CallGuard.Proofs.CachedRules
import CallGuard.Proofs.CatalogEntries
import CallGuard.Proofs.Cel.Breakdown
import CallGuard.Proofs.Cel.Operations
import CallGuard.Proofs.Cel.References
import CallGuard.Proofs.Cel.Scope
import CallGuard.Proofs.Cel.Wording
import CallGuard.Proofs.Cel.Written
import CallGuard.Proofs.CompiledAhead
import CallGuard.Proofs.Http.Bypass
import CallGuard.Proofs.Interception
import CallGuard.Proofs.Json.Spelling
import CallGuard.Proofs.Lua.Contained
import CallGuard.Proofs.Lua.Evaluation
import CallGuard.Proofs.Lua.Extends
import CallGuard.Proofs.Lua.Holding
import CallGuard.Proofs.Lua.Isolation
import CallGuard.Proofs.Lua.Library.Base
import CallGuard.Proofs.Lua.Library.Natives
import CallGuard.Proofs.Lua.Library.Strings
import CallGuard.Proofs.Lua.Library.Tables
import CallGuard.Proofs.Lua.Machine
import CallGuard.Proofs.Lua.Operations
import CallGuard.Proofs.Lua.Startup
import CallGuard.Proofs.Lua.Paired.Mentions
import CallGuard.Proofs.Lua.Paired.Pairing
import CallGuard.Proofs.Lua.Paired.Renaming
import CallGuard.Proofs.Lua.Within
import CallGuard.Proofs.Pool.Conservation
import CallGuard.Proofs.Pool.Wakeups
import CallGuard.Regex.Basic
import CallGuard.Regex.Reader
import CallGuard.RuleAuthorizer
import CallGuard.Selector
import CallGuard.Text.Blank
import CallGuard.Text.FoldCase
import CallGuard.Text.Quoted
import CallGuard.Text.Unprintable
import CallGuard.Text.Utf8
import CallGuard.Text.WordClass
import CallGuard.Time.Duration
import CallGuard.Time.Timestamp
import CallGuard.Proofs.Lua.Paired.Laws
import CallGuard.Proofs.Lua.Paired.Operations
import CallGuard.Proofs.Lua.Paired.Evaluation
import CallGuard.Proofs.Lua.Paired.Execution
import CallGuard.Proofs.Lua.Paired.Library.Base
import CallGuard.Proofs.Lua.Paired.Library.Strings
import CallGuard.Proofs.Lua.Paired.Library.Tables
import CallGuard.Proofs.Lua.Paired.Library.Natives
import CallGuard.Proofs.Lua.Paired.Machine
import CallGuard.Proofs.Lua.Views.Documents
import CallGuard.Proofs.Lua.Views.Constants
import CallGuard.Proofs.Lua.Views.Calls
import CallGuard.Proofs.Lua.Views.Laws
import CallGuard.Proofs.Lua.Views.Globals
import CallGuard.Proofs.Lua.Views.Beginning
import CallGuard.Proofs.Lua.Views.Reading
import CallGuard.Proofs.Json.Paths
import CallGuard.Proofs.Rules.Spelling
import CallGuard.Proofs.Cel.Lexing
import CallGuard.Proofs.Cel.Parsing
import CallGuard.Proofs.Cel.Documents
import CallGuard.Proofs.Lua.Accesses
import CallGuard.Proofs.Lua.Documents
import CallGuard.Proofs.Lua.Lexing
import CallGuard.Proofs.Lua.Parsing
import CallGuard.Proofs.Lua.Ready
import CallGuard.Proofs.Lua.Verdicts
import CallGuard.Proofs.Decimal.Doubles
import CallGuard.Proofs.Lua.Integers
import CallGuard.Proofs.Rules.Agreement
import CallGuard.Proofs.Lua.Additions.Beginning
import CallGuard.Proofs.Lua.Additions.Sessions
import CallGuard.Proofs.Chains
import CallGuard.Proofs.Http.Replies
import CallGuard.Proofs.Http.MediaType
import CallGuard.Proofs.Validation
import CallGuard.Proofs.Services
import CallGuard.Proofs.KeySpellings
import CallGuard.Proofs.Cel.Mentions
import CallGuard.Proofs.Cache.OneMap
import CallGuard.Proofs.Http.CallTimeout
import CallGuard.Proofs.Regex.Language
import CallGuard.Proofs.Globs
import CallGuard.Proofs.UnknownKeys
import CallGuard.Proofs.Lua.Pasted
import CallGuard.Proofs.Lua.Tails
import CallGuard.Proofs.Lua.Wrapping
import CallGuard.Proofs.Text.Cutting
import CallGuard.Proofs.Text.Encoding
import CallGuard.Proofs.Arrivals
import CallGuard.Proofs.Identities
import CallGuard.Proofs.Environment
import CallGuard.Proofs.Json.Numbers
import CallGuard.Proofs.Json.Printing
import CallGuard.Proofs.Configurations
