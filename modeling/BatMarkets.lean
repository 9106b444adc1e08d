import BatMarkets.Transition.Basic
import BatMarkets.Interleaving.Prog
import BatMarkets.Interleaving.Join
import BatMarkets.Interleaving.Observe
import BatMarkets.Interleaving.Erases
import BatMarkets.Interleaving.Alone
import BatMarkets.Interleaving.Custody
import BatMarkets.Interleaving.Pool
import BatMarkets.Ordered.Map
import BatMarkets.Ordered.Window
import BatMarkets.Ordered.Coalesce
import BatMarkets.Ordered.Index
import BatMarkets.Core.Types
import BatMarkets.Core.Numeric
import BatMarkets.Core.Quantize
import BatMarkets.Text.Numeral
import BatMarkets.Core.DecimalText
import BatMarkets.Core.Arithmetic
import BatMarkets.Core.Products
import BatMarkets.Wire.Json
import BatMarkets.Core.Market
import BatMarkets.Core.Trade
import BatMarkets.Core.Command
import BatMarkets.Core.Health
import BatMarkets.Core.State
import BatMarkets.Core.Arrival
import BatMarkets.Core.LatestExecution
import BatMarkets.Core.Orphans
import BatMarkets.Core.Exact
import BatMarkets.Replication.CatchUp
import BatMarkets.Runtime.Shared
import BatMarkets.Runtime.Call
import BatMarkets.Runtime.Refresh
import BatMarkets.Runtime.Reconcile
import BatMarkets.Runtime.Repair
import BatMarkets.Runtime.Recovery
import BatMarkets.Runtime.Evidence
import BatMarkets.Runtime.PendingRace
import BatMarkets.Runtime.Publication
import BatMarkets.Runtime.Feed
import BatMarkets.Mexc.Values
import BatMarkets.Mexc.Orders
import BatMarkets.Commands.Classify
import BatMarkets.Commands.Call
import BatMarkets.Commands.Batch
import BatMarkets.Commands.Encode
import BatMarkets.Commands.Create
import BatMarkets.Commands.PostOnly
import BatMarkets.Commands.Manage
import BatMarkets.Commands.Outcome
import BatMarkets.Commands.Transport
import BatMarkets.Commands.Unproven
import BatMarkets.Commands.CancelAll
import BatMarkets.Commands.CancelOrders
import BatMarkets.Commands.AmendOrders
import BatMarkets.Commands.WebSocketOnly
import BatMarkets.Commands.Addressing
import BatMarkets.Commands.Misaddressed
import BatMarkets.Adapter.Values
import BatMarkets.Bybit.Private
import BatMarkets.Binance.Private
import BatMarkets.Mexc.Private
import BatMarkets.Mexc.Contracts
import BatMarkets.Interleaving.Answered
import BatMarkets.Mexc.Symbols
import BatMarkets.Adapter.PublicTrades
import BatMarkets.Adapter.OrderSnapshot
import BatMarkets.Binance.OrderRecords
import BatMarkets.Runtime.ClosedPositions
import BatMarkets.Runtime.MissingOrders
import BatMarkets.Runtime.Verdict
import BatMarkets.Runtime.PrivateRecords
import BatMarkets.Runtime.Snapshot
import BatMarkets.Interleaving.Fixed
import BatMarkets.Interleaving.RwLock
import BatMarkets.Mexc.Lookup
import BatMarkets.Runtime.Subscriptions
import BatMarkets.Runtime.Routes
import BatMarkets.Runtime.Refusals
import BatMarkets.Interleaving.Leases
import BatMarkets.Runtime.Leases
import BatMarkets.Commands.CancelVenue
import BatMarkets.Commands.CancelBatches
import BatMarkets.Commands.CancelRefines
import BatMarkets.Runtime.Streams
import BatMarkets.Runtime.PositionLegs
import BatMarkets.Ordered.Ledger
import BatMarkets.Binance.Fills
import BatMarkets.Runtime.Sequences
import BatMarkets.Bybit.Books
import BatMarkets.Runtime.Gaps
import BatMarkets.Binance.Sequences
import BatMarkets.Ordered.Keyed
import BatMarkets.Ordered.Levels
import BatMarkets.Commands.Recovery
import BatMarkets.Interleaving.Shows
import BatMarkets.Interleaving.Tally
import BatMarkets.Commands.Assembly
import BatMarkets.Commands.Parcels
import BatMarkets.Commands.Root
import BatMarkets.Commands.Accepted
import BatMarkets.Commands.Silent
import BatMarkets.Commands.Acknowledged
import BatMarkets.Commands.Tracked
import BatMarkets.Commands.Handles
import BatMarkets.Ordered.Pages
import BatMarkets.Calendar.Months
import BatMarkets.Core.Interval
import BatMarkets.Core.Candles
import BatMarkets.Runtime.Ohlcv
import BatMarkets.Runtime.OhlcvPages
import BatMarkets.Runtime.OhlcvWindow
import BatMarkets.Runtime.OhlcvComplete
import BatMarkets.Runtime.OhlcvPanics
import BatMarkets.Commands.Books
import BatMarkets.Commands.LostOutcomes
import BatMarkets.Binance.Public
import BatMarkets.Runtime.RepairWindow
import BatMarkets.Commands.OrderCheck
import BatMarkets.Commands.Parts
import BatMarkets.Ordered.Patches
import BatMarkets.Bybit.Tickers
import BatMarkets.Text.Notation
import BatMarkets.Decoding.Outcome
import BatMarkets.Mexc.Numbers
import BatMarkets.Mexc.Snapshots
import BatMarkets.Adapter.Klines
import BatMarkets.Mexc.Readings
import BatMarkets.Mexc.Public
import BatMarkets.Mexc.Exactness
import BatMarkets.Mexc.Decoding
import BatMarkets.Core.Independence
import BatMarkets.Runtime.Settled
import BatMarkets.Runtime.StreamTask
import BatMarkets.Runtime.Watches
import BatMarkets.Commands.Closing
import BatMarkets.Commands.Responses
import BatMarkets.Adapter.Metadata
import BatMarkets.Text.FormUrlencoded
import BatMarkets.Commands.Signing
import BatMarkets.Interleaving.Retry
import BatMarkets.Runtime.Metadata
import BatMarkets.Binance.OrderBook
import BatMarkets.Commands.Dialects
import BatMarkets.Commands.Echo
