import BatchAuction.Abi.Format
import BatchAuction.Abi.Layout
import BatchAuction.AddressMap
import BatchAuction.Amount
import BatchAuction.Announcement
import BatchAuction.Auction
import BatchAuction.Binary64.Basic
import BatchAuction.Binary64.Shortest
import BatchAuction.BreakEven
import BatchAuction.Bytes
import BatchAuction.Clock.Calendar
import BatchAuction.Clock.Duration
import BatchAuction.Clock.Expiry
import BatchAuction.Clock.Span
import BatchAuction.Clock.Timestamp
import BatchAuction.CommandLine
import BatchAuction.Config
import BatchAuction.Contract.Call
import BatchAuction.Decimal.Integer
import BatchAuction.Decimal.Natural
import BatchAuction.Decimal.Scaled
import BatchAuction.Engine.Basic
import BatchAuction.Engine.Refusal
import BatchAuction.Hex
import BatchAuction.Http.Message
import BatchAuction.Http.Query
import BatchAuction.Json.Document
import BatchAuction.Json.Fault
import BatchAuction.Json.Number
import BatchAuction.Json.Printer
import BatchAuction.Json.Reader
import BatchAuction.Json.Token
import BatchAuction.Json.Value
import BatchAuction.Main
import BatchAuction.Metrics.Basic
import BatchAuction.Metrics.Exposition
import BatchAuction.Net.SocketAddress
import BatchAuction.Notification
import BatchAuction.Order
import BatchAuction.PostedAuction
import BatchAuction.Quote
import BatchAuction.QuoteResponse
import BatchAuction.Request
import BatchAuction.RequestId
import BatchAuction.Settlement
import BatchAuction.Solution
import BatchAuction.SolutionCache
import BatchAuction.Solver
import BatchAuction.Text.Blank
import BatchAuction.Text.Printable
import BatchAuction.Text.Quoted
import BatchAuction.Text.Utf8
import BatchAuction.Toml.Document
import BatchAuction.Toml.Lexeme
import BatchAuction.Toml.Scalar
import BatchAuction.Toml.Value
import BatchAuction.Wire.Alternative
import BatchAuction.Wire.Announcement
import BatchAuction.Wire.Auction
import BatchAuction.Wire.Codec
import BatchAuction.Wire.Decoder
import BatchAuction.Wire.Error
import BatchAuction.Wire.Notification
import BatchAuction.Wire.Quote
import BatchAuction.Wire.Request
import BatchAuction.Wire.Scalar
import BatchAuction.Proofs.PostedAuction
import BatchAuction.Proofs.Cache.Lookup
import BatchAuction.Proofs.Cache.Conservation
import BatchAuction.Proofs.Clock.Calendar
import BatchAuction.Proofs.Clock.Expiry
import BatchAuction.Proofs.Clock.Order
import BatchAuction.Proofs.Solver.Run
import BatchAuction.Proofs.Solver.Identifiers
import BatchAuction.Proofs.Solver.Reveal
import BatchAuction.Proofs.Solver.Interleaving
import BatchAuction.Proofs.Engine.Reveal
import BatchAuction.Proofs.Engine.Bookkeeping
import BatchAuction.Proofs.Engine.Footprint
import BatchAuction.Proofs.Engine.Statuses
import BatchAuction.Proofs.Decimal.Natural
import BatchAuction.Proofs.Amount
import BatchAuction.Proofs.Decimal.Canonical
import BatchAuction.Proofs.Decimal.Scaled
import BatchAuction.Proofs.Hex
import BatchAuction.Proofs.Hex.Grammar
import BatchAuction.Proofs.Clock.Timestamp
import BatchAuction.Proofs.Text.Utf8
import BatchAuction.Proofs.Json.Lexing
import BatchAuction.Proofs.Json.Reordering
import BatchAuction.Proofs.Json.Sorting
import BatchAuction.Proofs.Json.Spelling
import BatchAuction.Proofs.Json.Extension
import BatchAuction.Proofs.Wire.Outcome
import BatchAuction.Proofs.Wire.Alternative
import BatchAuction.Proofs.Wire.Table
import BatchAuction.Proofs.Wire.Restoration
import BatchAuction.Proofs.Wire.RoundTrip
import BatchAuction.Proofs.Wire.Stability
import BatchAuction.Proofs.Wire.Agreement
import BatchAuction.Proofs.Decimal.Integer
import BatchAuction.Proofs.Wire.Medium
import BatchAuction.Proofs.Wire.Members
import BatchAuction.Proofs.Wire.Recognition
import BatchAuction.Proofs.Wire.References
import BatchAuction.Proofs.Wire.Acceptance
import BatchAuction.Proofs.Wire.Records
import BatchAuction.Proofs.Wire.TokenTables
import BatchAuction.Proofs.Wire.Replacement
import BatchAuction.Proofs.Wire.Buffering
import BatchAuction.Proofs.Wire.Unions
import BatchAuction.Proofs.Wire.Undamaged
import BatchAuction.Proofs.Wire.Truncation
import BatchAuction.Proofs.Wire.Shape
import BatchAuction.Proofs.Wire.Overlooking
import BatchAuction.Proofs.Wire.Strangers
import BatchAuction.Proofs.Wire.Focus
import BatchAuction.Proofs.Wire.Location
import BatchAuction.Proofs.Wire.Nesting
import BatchAuction.Proofs.Engine.Refusals
import BatchAuction.Proofs.Engine.Notifications
import BatchAuction.Proofs.Wire.Values
import BatchAuction.Proofs.Abi.Format
import BatchAuction.Proofs.Contract.Call
import BatchAuction.Proofs.Settlement.Calldata
import BatchAuction.Proofs.Settlement.Tokens
import BatchAuction.Proofs.Settlement.Interactions
import BatchAuction.Proofs.Settlement.Prices
import BatchAuction.Proofs.Settlement.Announcement
import BatchAuction.Proofs.Settlement.Internalized
import BatchAuction.Proofs.Settlement.Hooks
import BatchAuction.Proofs.Settlement.Terms
import BatchAuction.Proofs.Solver.Atomicity
import BatchAuction.Proofs.Engine.BreakEven
import BatchAuction.Proofs.Quote.Exchange
import BatchAuction.Proofs.Engine.QuoteFormats
