import BatMarkets.Core.State
import BatMarkets.Interleaving.Prog

/-!
# The calls of the runtime

A runtime task (`runtime.rs`) is a program of the monad `RuntimeM`: between two of its calls any
other task may run and the venue may change.  The calls are the places where the source reads the
clock, takes a lock or waits for the network.

* A write is a list of operations on the engine state, carried out under one lock; what it
  publishes afterwards is the subject of `BatMarkets.Runtime.Shared`.
* A read names what it looks at, since tasks read different things at different moments.
* A signed request names the endpoint, the query and the decoder of the reply; its answer is the
  decoded reply, or the error of the transport, of the venue or of the decoder.
-/

namespace BatMarkets

open Interleaving Ordered

/-- A command whose outcome is not known. -/
structure PendingUnknownCommand where
  operation : CommandOperation
  instrumentId : InstrumentId
  orderId : Option OrderId
  clientOrderId : Option ClientOrderId
  recordedAt : TimestampMs
  deriving DecidableEq, Repr

/-- What a task reads from the engine state under one lock. -/
inductive StateRead
  /-- The health report. -/
  | health
  /-- All orders and executions, as evidence for pending commands. -/
  | ordersAndExecutions
  /-- The times of the latest order and of the latest execution of an instrument. -/
  | latestTimes (instrumentId : InstrumentId)
  /-- The instruments of the positions, open orders and executions. -/
  | repairInstruments
  deriving DecidableEq, Repr

/-- What a read of the engine state finds. -/
abbrev StateRead.Output : StateRead → Type
  | .health => HealthReport
  | .ordersAndExecutions => List Order × List Execution
  | .latestTimes _ => Option TimestampMs × Option TimestampMs
  | .repairInstruments => List InstrumentId

/-- What a read finds. -/
def StateRead.eval (s : EngineState) : (r : StateRead) → r.Output
  | .health => s.health
  | .ordersAndExecutions => (s.orders, s.executions)
  | .latestTimes instrumentId =>
    (s.latestOrderUpdateAt instrumentId, s.latestExecutionAt instrumentId)
  | .repairInstruments =>
    s.positions.map (·.instrumentId) ++ s.openOrders.map (·.instrumentId) ++
      s.executions.map (·.instrumentId)

/-- How a reply is decoded. -/
inductive Decoder
  /-- Binance account: balances and positions in one reply. -/
  | accountAndPositions
  | account
  /-- Bybit account info: the wallet account type. -/
  | accountContext
  | positions
  | openOrders
  /-- Binance conditional orders. -/
  | openAlgoOrders
  | order
  | orderHistory
  | executions
  deriving DecidableEq, Repr

/-- What a reply is decoded to. -/
abbrev Decoder.Output : Decoder → Type
  | .accountAndPositions => AccountSnapshot × List Position
  | .account => AccountSnapshot
  | .accountContext => String
  | .positions => List Position
  | .openOrders | .openAlgoOrders | .orderHistory => List Order
  | .order => Order
  | .executions => List Execution

/-- A signed GET request. -/
structure SignedGet where
  path : String
  query : List (String × String)
  operation : String
  deriving DecidableEq, Repr

/-- The calls of a runtime task. -/
inductive RuntimeCall
  /-- Read the clock. -/
  | timestampNowMs
  /-- Read the engine state. -/
  | read (what : StateRead)
  /-- Apply operations to the engine state under one lock. -/
  | write (ops : List EngineOp)
  /-- Look an instrument up in the catalog of the adapter. -/
  | resolveInstrument (instrumentId : InstrumentId)
  /-- Send a signed request and decode the reply. -/
  | signedGet (decoder : Decoder) (request : SignedGet)
  | cachedBybitAccountContext
  | cacheBybitAccountContext (walletAccountType : String)
  | pendingUnknownCommands
  | cachePendingUnknown (pending : PendingUnknownCommand)
  | replacePendingUnknownCommands (pending : List PendingUnknownCommand)

/-- What comes back from a call.  A request may fail in any way. -/
abbrev RuntimeReply : RuntimeCall → Type
  | .timestampNowMs => TimestampMs
  | .read what => what.Output
  | .resolveInstrument _ => Option InstrumentSpec
  | .signedGet decoder _ => Except MarketError decoder.Output
  | .cachedBybitAccountContext => Option String
  | .pendingUnknownCommands => List PendingUnknownCommand
  | .write _ | .cacheBybitAccountContext _ | .cachePendingUnknown _
  | .replacePendingUnknownCommands _ => Unit

/-- Runtime tasks. -/
abbrev RuntimeM := Prog RuntimeCall RuntimeReply

/-- Runtime tasks that may return an error. -/
abbrev RuntimeE := ExceptT MarketError RuntimeM

namespace RuntimeM

/-- The clock. -/
abbrev timestampNowMs : RuntimeM TimestampMs := .perform RuntimeCall.timestampNowMs

/-- A read of the engine state. -/
abbrev read (what : StateRead) : RuntimeM what.Output := .perform (RuntimeCall.read what)

/-- A write to the engine state, of some operations at once. -/
abbrev write (ops : List EngineOp) : RuntimeM Unit := .perform (RuntimeCall.write ops)

/-- The instrument with this id, if the adapter has it. -/
abbrev resolveInstrument (instrumentId : InstrumentId) : RuntimeM (Option InstrumentSpec) :=
  .perform (RuntimeCall.resolveInstrument instrumentId)

/-- Send a signed request; an error ends the task. -/
abbrev signedGet (decoder : Decoder) (path : String) (query : List (String × String))
    (operation : String) : RuntimeE decoder.Output :=
  ExceptT.mk (.perform (RuntimeCall.signedGet decoder ⟨path, query, operation⟩))

/-- The account type of Bybit that has been found out before. -/
abbrev cachedBybitAccountContext : RuntimeM (Option String) :=
  .perform RuntimeCall.cachedBybitAccountContext

/-- The account type of Bybit is kept. -/
abbrev cacheBybitAccountContext (walletAccountType : String) : RuntimeM Unit :=
  .perform (RuntimeCall.cacheBybitAccountContext walletAccountType)

/-- The list of the pending commands. -/
abbrev pendingUnknownCommands : RuntimeM (List PendingUnknownCommand) :=
  .perform RuntimeCall.pendingUnknownCommands

/-- A command is added to the list. -/
abbrev cachePendingUnknown (pending : PendingUnknownCommand) : RuntimeM Unit :=
  .perform (RuntimeCall.cachePendingUnknown pending)

/-- The list is replaced as a whole. -/
abbrev replacePendingUnknownCommands (pending : List PendingUnknownCommand) : RuntimeM Unit :=
  .perform (RuntimeCall.replacePendingUnknownCommands pending)

end RuntimeM

/-- The configuration a task runs with. -/
structure LiveContext where
  venue : Venue
  product : Product
  snapshotStaleAfterMs : UInt64
  deriving DecidableEq, Repr

/-! ### Tasks that run alone -/

/-- What the tasks share, and what they find outside: a clock, the catalog of the adapter and a
venue that answers requests. -/
structure LiveWorld where
  engine : EngineState
  pending : List PendingUnknownCommand := []
  bybitAccountContext : Option String := none
  clock : TimestampMs := 0
  catalog : InstrumentId → Option InstrumentSpec
  venueReply : (decoder : Decoder) → SignedGet → Except MarketError decoder.Output

/-- Add a pending command, unless it is there already. -/
def cachePending (commands : List PendingUnknownCommand) (pending : PendingUnknownCommand) :
    List PendingUnknownCommand :=
  if pending ∈ commands then commands else commands ++ [pending]

/-- The answer to a call, and the world after it, when nobody interferes. -/
def LiveWorld.reply : (q : RuntimeCall) → LiveWorld → RuntimeReply q × LiveWorld
  | .timestampNowMs, w => (w.clock, w)
  | .read what, w => (what.eval w.engine, w)
  | .write ops, w => ((), { w with engine := ops.foldl EngineState.apply w.engine })
  | .resolveInstrument instrumentId, w => (w.catalog instrumentId, w)
  | .signedGet decoder request, w => (w.venueReply decoder request, w)
  | .cachedBybitAccountContext, w => (w.bybitAccountContext, w)
  | .cacheBybitAccountContext walletAccountType, w =>
    ((), { w with bybitAccountContext := some walletAccountType })
  | .pendingUnknownCommands, w => (w.pending, w)
  | .cachePendingUnknown pending, w => ((), { w with pending := cachePending w.pending pending })
  | .replacePendingUnknownCommands pending, w => ((), { w with pending := pending })

/-- The call asks the adapter or the venue, and leaves what the tasks share as it is. -/
def RuntimeCall.AsksVenue : RuntimeCall → Prop
  | .resolveInstrument _ | .signedGet _ _ => True
  | _ => False

theorem LiveWorld.reply_of_asksVenue {q : RuntimeCall} (h : q.AsksVenue) (w : LiveWorld) :
    (LiveWorld.reply q w).2 = w := by
  cases q <;> first | rfl | exact h.elim

section Spec

variable {α : Type} {G : List (Event RuntimeCall RuntimeReply) → RuntimeCall → Prop}
  {Post : List (Event RuntimeCall RuntimeReply) → Except MarketError α → Prop}
  {τ : List (Event RuntimeCall RuntimeReply)}

/-- The rule for a signed request: an error ends the task. -/
theorem spec_signedGet {decoder : Decoder} {path : String} {query : List (String × String)}
    {operation : String} {f : decoder.Output → RuntimeE α}
    (hcall : G τ (.signedGet decoder ⟨path, query, operation⟩))
    (herror : ∀ e, Post (⟨.signedGet decoder ⟨path, query, operation⟩, .error e⟩ :: τ) (.error e))
    (hok : ∀ a, (f a).run.Spec G Post
      (⟨.signedGet decoder ⟨path, query, operation⟩, .ok a⟩ :: τ)) :
    (RuntimeM.signedGet decoder path query operation >>= f).run.Spec G Post τ := by
  refine Prog.spec_attempt ⟨hcall, fun r => ?_⟩
  cases r with
  | error e => exact herror e
  | ok a => exact hok a

end Spec

end BatMarkets
