import BatMarkets.Commands.PostOnly
import BatMarkets.Commands.Recovery

/-!
# Closing a position

`close_position` looks a position up, in the cache or after a refresh, and sends an order on the
other side of it, over the websocket or over REST, and over REST after the websocket has failed.
This module reads the orders it sends as the venue does: the side, the quantity, and whether the
order may only reduce a position.

`Position.exposure` counts a long position as positive and a short one as negative.  Whatever part
of an order is filled adds to it or is taken from it.

## Main results

* `shrinks_of_closeRequest` : the order that closes a position can only shrink it.
* `close_position_only_reduces` : in every run, all orders that `close_position` sends are
  reduce-only, and shrink a position that the run has read.
-/

namespace BatMarkets

open CommandM Interleaving RuntimeM Wire

/-! ### Exposure -/

/-- The size of a position with the sign of its direction. -/
def Position.exposure (position : Position) : ℚ :=
  match position.direction with
  | .long => position.size.value.toRat
  | .short => -position.size.value.toRat
  | .flat => 0

/-- A purchase adds to the position, a sale takes away from it. -/
def Side.sign : Side → ℚ
  | .buy => 1
  | .sell => -1

/-- However much of an order is filled, the position gets no larger and does not turn around. -/
def Position.ShrunkBy (position : Position) (side : Side) (quantity : Decimal) : Prop :=
  ∀ filled : ℚ, 0 ≤ filled → filled ≤ quantity.toRat →
    |position.exposure + side.sign * filled| ≤ |position.exposure| ∧
      0 ≤ (position.exposure + side.sign * filled) * position.exposure

/-- What is left of a position of this size. -/
theorem shrinks_of_le {size filled : ℚ} (hfilled : 0 ≤ filled) (hle : filled ≤ size) :
    |size - filled| ≤ |size| ∧ 0 ≤ (size - filled) * size := by
  have hleft : 0 ≤ size - filled := sub_nonneg.2 hle
  have hsize : 0 ≤ size := hfilled.trans hle
  refine ⟨?_, mul_nonneg hleft hsize⟩
  rw [abs_of_nonneg hleft, abs_of_nonneg hsize]
  exact sub_le_self size hfilled

theorem shrunkBy_of_long {position : Position} {quantity : Decimal}
    (hdirection : position.direction = .long)
    (hle : quantity.toRat ≤ position.size.value.toRat) : position.ShrunkBy .sell quantity := by
  intro filled hfilled hquantity
  have hexposure : position.exposure = position.size.value.toRat := by
    rw [Position.exposure, hdirection]
  have hsum : position.exposure + Side.sell.sign * filled =
      position.size.value.toRat - filled := by
    rw [hexposure, Side.sign]
    ring
  rw [hsum, hexposure]
  exact shrinks_of_le hfilled (hquantity.trans hle)

theorem shrunkBy_of_short {position : Position} {quantity : Decimal}
    (hdirection : position.direction = .short)
    (hle : quantity.toRat ≤ position.size.value.toRat) : position.ShrunkBy .buy quantity := by
  intro filled hfilled hquantity
  have hexposure : position.exposure = -position.size.value.toRat := by
    rw [Position.exposure, hdirection]
  have hsum : position.exposure + Side.buy.sign * filled =
      -(position.size.value.toRat - filled) := by
    rw [hexposure, Side.sign]
    ring
  rw [hsum, hexposure, abs_neg, abs_neg, neg_mul_neg]
  exact shrinks_of_le hfilled (hquantity.trans hle)

/-- **The order that closes a position** is reduce-only and can only shrink it. -/
theorem shrinks_of_closeRequest {request : ClosePositionRequest} {position : Position}
    {order : CreateOrderRequest} (h : closeRequest request position = .ok order) :
    order.reduceOnly = true ∧ position.ShrunkBy order.side order.quantity.value := by
  unfold closeRequest at h
  by_cases hzero : position.size.value.isZero = true
  · rw [if_pos hzero] at h
    cases h
  by_cases hlt : position.size.value.lt (request.quantity.getD position.size).value = true
  · rw [if_neg hzero, if_pos hlt] at h
    cases h
  rw [if_neg hzero, if_neg hlt] at h
  have hle : (request.quantity.getD position.size).value.toRat ≤ position.size.value.toRat :=
    not_lt.1 fun hgt => hlt (Decimal.lt_iff.2 hgt)
  cases hdirection : position.direction with
  | flat =>
    rw [hdirection] at h
    cases h
  | long =>
    rw [hdirection] at h
    obtain rfl := Except.ok.inj h
    exact ⟨rfl, shrunkBy_of_long hdirection hle⟩
  | short =>
    rw [hdirection] at h
    obtain rfl := Except.ok.inj h
    exact ⟨rfl, shrunkBy_of_short hdirection hle⟩

/-! ### The order on the wire -/

/-- The side of an order.  MEXC has a code for each side and for whether the order opens or closes a
position. -/
def wireSide (venue : Venue) (order : Json) : Option Side :=
  match venue with
  | .binance => match (order.get? "side").bind Json.asStr with
    | some "BUY" => some .buy
    | some "SELL" => some .sell
    | _ => none
  | .bybit => match (order.get? "side").bind Json.asStr with
    | some "Buy" => some .buy
    | some "Sell" => some .sell
    | _ => none
  | .mexc => match (order.get? "side").bind Json.asI64 with
    | some 1 | some 2 => some .buy
    | some 3 | some 4 => some .sell
    | _ => none

/-- The order on the wire is marked as one that only reduces, in the way of the venue. -/
def wireReduceOnly (venue : Venue) (order : Json) : Prop :=
  match venue with
  | .binance => order.get? "reduceOnly" = some (.string "true")
  | .bybit => order.get? "reduceOnly" = some (.bool true)
  | .mexc => order.get? "reduceOnly" = some (.bool true) ∧
      ((order.get? "side").bind Json.asI64 = some 2 ∨ (order.get? "side").bind Json.asI64 = some 4)

/-- The number that a text spells. -/
def readDecimal (value : Option Json) : Option Decimal :=
  (value.bind Json.asStr).bind fun text => (Decimal.fromStr text).toOption

theorem readDecimal_formatQuantity (quantity : Quantity) :
    readDecimal (some (.string (formatQuantity quantity))) = some quantity.value.normalize := by
  show (Decimal.fromStr quantity.value.normalize.display).toOption = _
  rw [Decimal.fromStr_display]
  rfl

/-- The quantity of the order on the wire, as a number. -/
def wireQuantity (venue : Venue) (order : Json) : Option Decimal :=
  match venue with
  | .binance => readDecimal (order.get? "quantity")
  | .bybit => readDecimal (order.get? "qty")
  | .mexc => readDecimal (order.get? "vol")

/-- The order on the wire is reduce-only, and has the side and the quantity of the request. -/
structure Closes (venue : Venue) (request : CreateOrderRequest) (order : Json) : Prop where
  side : wireSide venue order = some request.side
  reduceOnly : wireReduceOnly venue order
  quantity : wireQuantity venue order = some request.quantity.value.normalize

section Encoders

variable {nativeSymbol : String} {r : CreateOrderRequest} (hr : r.reduceOnly = true)

include hr

theorem closes_buildBinanceCreatePairs :
    Closes .binance r (buildBinanceCreatePairs nativeSymbol r) := by
  have hget : (buildBinanceCreatePairs nativeSymbol r).get? "side" =
        some (.string (binanceSide r.side)) ∧
      (buildBinanceCreatePairs nativeSymbol r).get? "quantity" =
        some (.string (formatQuantity r.quantity)) ∧
      (buildBinanceCreatePairs nativeSymbol r).get? "reduceOnly" = some (.string "true") := by
    simp [buildBinanceCreatePairs, binanceOrderFields, Json.get?_object_append, hr]
  obtain ⟨hside, hquantity, hreduce⟩ := hget
  refine ⟨?_, hreduce, ?_⟩
  · rw [wireSide, hside]
    cases r.side <;> rfl
  · rw [wireQuantity, hquantity, readDecimal_formatQuantity]

theorem closes_buildBybitCloseObject :
    Closes .bybit r (buildBybitCloseObject nativeSymbol r) := by
  have hget : (buildBybitCloseObject nativeSymbol r).get? "side" =
        some (.string (bybitSide r.side)) ∧
      (buildBybitCloseObject nativeSymbol r).get? "qty" =
        some (.string (formatQuantity r.quantity)) ∧
      (buildBybitCloseObject nativeSymbol r).get? "reduceOnly" = some (.bool true) := by
    simp [buildBybitCloseObject, bybitOrderFields, hr]
  obtain ⟨hside, hquantity, hreduce⟩ := hget
  refine ⟨?_, hreduce, ?_⟩
  · rw [wireSide, hside]
    cases r.side <;> rfl
  · rw [wireQuantity, hquantity, readDecimal_formatQuantity]

theorem closes_mexcCreateOrderObject {context : LiveContext} {spec : InstrumentSpec}
    {positions : List Position} {order : Json}
    (h : mexcCreateOrderObject context spec positions r = .ok order) : Closes .mexc r order := by
  obtain ⟨t, -, -, -, rfl⟩ := Mexc.mexcCreateOrderObject_eq_ok h
  obtain ⟨-, -, hvol, hside, -, -, hreduce⟩ :=
    Mexc.get?_mexcCreateOrderFields spec positions r t
  rw [hr, if_pos rfl] at hreduce
  rw [hr] at hside
  refine ⟨?_, ⟨hreduce, ?_⟩, ?_⟩
  · rw [wireSide, hside]
    cases r.side <;> rfl
  · rw [hside]
    cases r.side
    · exact .inl rfl
    · exact .inr rfl
  · rw [wireQuantity, hvol, readDecimal_formatQuantity]

end Encoders

/-! ### What is sent -/

/-- What the call writes, if anything, are orders on the wire that close as requested. -/
def SendsClose (venue : Venue) (request : CreateOrderRequest) (q : CommandCall) : Prop :=
  q.Writes → q.wireOrders venue ≠ [] ∧ ∀ order ∈ q.wireOrders venue, Closes venue request order

section Sends

variable {context : CommandContext} {r : CreateOrderRequest}

theorem sendsClose_of_local {venue : Venue} (_τ : List (Event CommandCall CommandReply))
    (q : CommandCall) (hq : q.Local) : SendsClose venue r q :=
  fun h => absurd h hq.not_writes

theorem sendsClose_of_closes {venue : Venue} {q : CommandCall} {order : Json}
    (hq : q.wireOrders venue = [order]) (h : Closes venue r order) : SendsClose venue r q := by
  refine fun _ => ⟨by simp [hq], fun o ho => ?_⟩
  obtain rfl : o = order := by simpa [hq] using ho
  exact h

/-- The order is sent as one that closes, over the websocket and over REST. -/
theorem sendsClose_sendCloseOrder (hr : r.reduceOnly = true) :
    Prog.Yields (fun _ q => SendsClose context.venue r q) (fun _ => True)
      (sendCloseOrder context r) := by
  unfold sendCloseOrder
  cases hv : context.venue with
  | binance =>
    dsimp only
    refine (yields_commandSpec sendsClose_of_local _).attempt fun spec _ => ?_
    split
    · exact yields_sendWebSocket
        (fun _ => sendsClose_of_closes rfl (closes_buildBinanceCreatePairs hr))
        (fun _ => sendsClose_of_closes rfl (closes_buildBinanceCreatePairs hr))
    · refine (yields_sendRest fun _ =>
        sendsClose_of_closes rfl (closes_buildBinanceCreatePairs hr)).attempt fun _ _ => ?_
      exact Prog.yields_pure trivial
  | bybit =>
    dsimp only
    refine (yields_commandSpec sendsClose_of_local _).attempt fun spec _ => ?_
    split
    · exact yields_sendWebSocket
        (fun _ => sendsClose_of_closes rfl (closes_buildBybitCloseObject hr))
        (fun _ => sendsClose_of_closes rfl (closes_buildBybitCloseObject hr))
    · refine (yields_sendRest fun _ =>
        sendsClose_of_closes rfl (closes_buildBybitCloseObject hr)).attempt fun _ _ => ?_
      exact Prog.yields_pure trivial
  | mexc =>
    -- MEXC builds the body from the cached position first
    have hbody : Prog.Yields (fun _ q => SendsClose .mexc r q) (Closes .mexc r)
        (mexcCreateBody context mexcCreateOrderObject r) := by
      unfold mexcCreateBody
      refine (yields_commandSpec sendsClose_of_local _).attempt fun spec _ => ?_
      refine (yields_readState sendsClose_of_local).attempt fun state _ => ?_
      exact yields_ofExcept fun order => closes_mexcCreateOrderObject hr
    have hsend : Prog.Yields (fun _ q => SendsClose .mexc r q) (fun _ => True) (do
        let order ← mexcCreateBody context mexcCreateOrderObject r
        return (← sendRest context .closePosition r.requestId
          ⟨.post, "/api/v1/private/order/submit", order, "mexc.close_position"⟩,
          CommandTransport.rest)) := by
      refine hbody.attempt fun order horder => ?_
      refine (yields_sendRest fun _ => sendsClose_of_closes rfl horder).attempt fun _ _ => ?_
      exact Prog.yields_pure trivial
    dsimp only
    split
    · exact (Prog.yields_throw (P := fun _ => True) _).attempt fun _ _ => hsend
    · exact hsend

/-- What `close_position` does when it has found a position. -/
theorem sendsClose_of_position (request : ClosePositionRequest) (position : Position) :
    Prog.Yields
      (fun _ q => ∃ r, closeRequest request position = .ok r ∧ SendsClose context.venue r q)
      (fun _ => True) (do
        let order ← ofExcept (closeRequest request position)
        validateCreateOrder context order
        let (receipt, transport) ← sendCloseOrder context order
        cachePendingUnknown receipt .closePosition order.instrumentId none order.clientOrderId
        applyCommandReceipt receipt transport) := by
  refine (yields_ofExcept fun order horder => horder).attempt fun order horder => ?_
  have hsends : ∀ {α : Type} {x : CommandE α},
      Prog.Yields (fun _ q => SendsClose context.venue order q) (fun _ => True) x →
      Prog.Yields (fun _ q => ∃ r, closeRequest request position = .ok r ∧
        SendsClose context.venue r q) (fun _ => True) x :=
    fun h => h.imp fun _ q hq => ⟨order, horder, hq⟩
  refine hsends ?_
  refine (yields_validateCreateOrder sendsClose_of_local order).attempt fun _ _ => ?_
  refine (sendsClose_sendCloseOrder (shrinks_of_closeRequest horder).1).attempt
    fun (receipt, transport) _ => ?_
  refine (yields_cachePendingUnknown sendsClose_of_local _ _ _ _ _).attempt fun _ _ => ?_
  exact yields_applyCommandReceipt sendsClose_of_local _ _

end Sends

/-! ### The position -/

/-- The run has read the position, from the state or from the venue. -/
structure PositionRead (instrumentId : InstrumentId) (σ : CommandTrace) (position : Position) :
    Prop where
  instrumentId : position.instrumentId = instrumentId
  read : (∃ s : EngineState, ⟨.readState, s⟩ ∈ σ ∧ position ∈ s.positions) ∨
    ∃ ops ps, ⟨.runtime (.write ops), ()⟩ ∈ σ ∧ .replacePositions ps ∈ ops ∧ position ∈ ps

theorem PositionRead.suffix {instrumentId : InstrumentId} {σ σ' : CommandTrace}
    {position : Position} (h : PositionRead instrumentId σ position) (hσ : σ <:+ σ') :
    PositionRead instrumentId σ' position where
  instrumentId := h.instrumentId
  read := h.read.imp
    (fun ⟨s, hs, hposition⟩ => ⟨s, hσ.subset hs, hposition⟩)
    fun ⟨ops, ps, hops, hps, hposition⟩ => ⟨ops, ps, hσ.subset hops, hps, hposition⟩

/-- A refresh returns the positions that it has written. -/
theorem spec_refreshPositions_replaced (context : LiveContext) {τ : RuntimeTrace} :
    (refreshPositions context).run.Spec (fun _ _ => True)
      (fun τ r => ∀ ps, r = .ok ps → ∃ ops, ⟨.write ops, ()⟩ ∈ τ ∧ .replacePositions ps ∈ ops) τ := by
  obtain ⟨venue, product, stale⟩ := context
  cases venue with
  | binance =>
    exact spec_signedGet trivial (fun _ _ h => by cases h) fun reply => ⟨trivial, fun _ ps hps =>
      ⟨_, List.mem_cons_self, by simp [← Except.ok.inj hps]⟩⟩
  | bybit | mexc =>
    exact spec_signedGet trivial (fun _ _ h => by cases h) fun reply => ⟨trivial, fun _ ps hps =>
      ⟨_, List.mem_cons_self, by simp [← Except.ok.inj hps]⟩⟩

theorem spec_resolveClosePosition (context : CommandContext) (request : ClosePositionRequest)
    (σ : CommandTrace) : (resolveClosePosition context request).run.Spec (fun _ _ => True)
      (fun σ r => ∀ position, r = .ok position →
        PositionRead request.instrumentId σ position) σ := by
  have hfound : ∀ {ps : List Position} {position : Position},
      ps.find? (·.instrumentId = request.instrumentId) = some position →
        position ∈ ps ∧ position.instrumentId = request.instrumentId :=
    fun h => ⟨List.mem_of_find?_eq_some h, by simpa using List.find?_some h⟩
  have hstate : (readState : CommandE EngineState).run.Spec (fun _ _ => True)
      (fun σ r => ∃ s, r = .ok s ∧ ⟨.readState, s⟩ ∈ σ) σ :=
    ⟨trivial, fun s => ⟨s, rfl, List.mem_cons_self⟩⟩
  unfold resolveClosePosition
  refine Prog.spec_attempt (hstate.mono (fun _ _ h => h) fun σ r hr => ?_)
  obtain ⟨s, rfl, hs⟩ := hr
  dsimp only
  split
  · next position hcached =>
    intro found hfind
    obtain rfl := Except.ok.inj hfind
    obtain ⟨hmem, hid⟩ := hfound (Option.filter_eq_some_iff.1 hcached).1
    exact ⟨hid, .inl ⟨s, hs, hmem⟩⟩
  · refine Prog.spec_attempt ((spec_liftRuntime
      (spec_refreshPositions_replaced context.toLiveContext)).mono (fun _ _ h => h)
        fun σ r hr => ?_)
    obtain ⟨τ, reply, rfl, hreply, rfl⟩ := hr
    cases reply with
    | error e =>
      intro found hfind
      cases hfind
    | ok ps =>
      obtain ⟨ops, hops, hps⟩ := hreply ps rfl
      have hwrite : ⟨.runtime (.write ops), ()⟩ ∈ τ.map liftEvent ++ σ :=
        List.mem_append_left _ (List.mem_map.2 ⟨_, hops, rfl⟩)
      dsimp only [Except.mapError]
      split
      · next position hrefreshed =>
        intro found hfind
        obtain rfl := Except.ok.inj hfind
        obtain ⟨hmem, hid⟩ := hfound hrefreshed
        exact ⟨hid, .inr ⟨ops, ps, hwrite, hps, hmem⟩⟩
      · intro found hfind
        cases hfind

/-! ### Runs -/

/-- **Closing only reduces.**  Each order that a run of `close_position` sends is reduce-only, and
has a side and a quantity that shrink a position of the instrument which the run has read. -/
theorem close_position_only_reduces (context : CommandContext) (request : ClosePositionRequest) :
    (closePosition context request).run.Always fun σ q => q.Writes →
      q.wireOrders context.venue ≠ [] ∧ ∀ order ∈ q.wireOrders context.venue,
        ∃ position side quantity, PositionRead request.instrumentId σ position ∧
          wireReduceOnly context.venue order ∧ wireSide context.venue order = some side ∧
            wireQuantity context.venue order = some quantity ∧
              position.ShrunkBy side quantity := by
  intro σ
  unfold closePosition
  have hresolve := (((yields_resolveClosePosition (fun _ _ hq => hq) request).always σ).and_guard
    (spec_resolveClosePosition context request σ))
  refine Prog.spec_attempt (hresolve.mono (fun _ _ hq h => absurd h hq.1) fun σ' r hr => ?_)
  cases r with
  | error e => trivial
  | ok position =>
    have hread := hr.2 position rfl
    refine ((sendsClose_of_position request position σ').and_guard (Prog.spec_later _ σ')).mono
      (fun σ'' q hq hwrites => ?_) fun _ _ _ => trivial
    obtain ⟨⟨r, hclose, hsends⟩, hsuffix⟩ := hq
    obtain ⟨hne, horders⟩ := hsends hwrites
    refine ⟨hne, fun order horder => ?_⟩
    have hcloses := horders order horder
    obtain ⟨-, hshrunk⟩ := shrinks_of_closeRequest hclose
    refine ⟨position, r.side, _, hread.suffix hsuffix, hcloses.reduceOnly, hcloses.side,
      hcloses.quantity, fun filled hfilled hle => hshrunk filled hfilled ?_⟩
    rwa [Decimal.toRat_normalize] at hle

end BatMarkets
