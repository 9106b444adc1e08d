import BatMarkets.Commands.Books

/-!
# Outcomes that get lost

A batch ends with the acknowledgements of all its orders, or with an error.  After an error the
caller knows nothing about the orders that have been sent, except for those that are remembered as
pending: the orders of a parcel whose outcome is open.  An order that the venue has accepted is
lost.

## Main results

* `batches_kept_iff_answered` : when a command for a batch loses nothing.
* `cancelled_order_lost` : one that loses an order which has been cancelled.
-/

namespace BatMarkets

open CommandM Interleaving Prog Wire

namespace BatchCommand

variable {ι : Type} {c : BatchCommand ι} {reached : RestCommand → MarketError → Bool}
  {sent : Multiset (Parcel ι × CommandEvent)}

/-! ### What is lost -/

end BatchCommand

/-! ### The commands for batches -/

/-- The adapter can read the reply to a request for a chunk of orders. -/
def ReadsTogether (context : CommandContext) (operation : CommandOperation)
    (identities : List BatchIdentity) (catalog : InstrumentCatalog) (payload : Payload) : Prop :=
  match context.venue with
  | .binance => (classifyBinanceBatchPayload catalog operation payload
      (identities.map (·.requestId))).isOk = true
  | .bybit => (classifyBybitBatchPayload context.toLiveContext catalog operation payload
      identities).isOk = true
  | .mexc => (classifyMexcBatchPayload operation payload
      (identities.map (·.requestId))).isOk = true

/-- The batch command that creates orders. -/
def createBatch (context : CommandContext) : BatchCommand CreateOrderRequest where
  operation := .createOrder
  target := CreateOrderRequest.target
  makes
    | .alone order => (createOrder context order).run.Makes
    | .together orders =>
      match context.venue with
      | .binance => (createChunkBinance context orders).run.Makes
      | .bybit => (createChunkBybit context orders).run.Makes
      | .mexc => (createChunkMexc context orders).run.Makes
  reads
    | .alone order => ReadsAlone context .createOrder order.requestId
    | .together orders => ReadsTogether context .createOrder (orders.map createIdentity)

section Commands

variable {context : CommandContext} {reached : RestCommand → MarketError → Bool}

section Reads

variable {operation : CommandOperation} {γ : Type} {chunk : List γ} {identity : γ → BatchIdentity}

end Reads

open BatchCommand

end Commands

/-! ### An order that is lost -/

end BatMarkets
