import BatMarkets.Mexc.Snapshots

/-!
# The order book of Binance over REST

What the runtime makes of a reply to its request for the order book of an instrument (the Binance
branch of `fetch_order_book` in `runtime.rs`).  The reply is decoded in the runtime and not by the
adapter, and a level is taken apart by position.

## Main results

* `mapM_eq_error_iff` : a list is refused for its first element that is.
* `Binance.orderBookOf_panics_iff` : a reply makes the decoder panic when the first level that it
  cannot read is too short.
-/

namespace BatMarkets

open Wire

/-- A list is refused for its first element that is. -/
theorem mapM_eq_error_iff {ε α β : Type} {f : α → Except ε β} {xs : List α} {e : ε} :
    xs.mapM f = .error e ↔
      ∃ before x after ys, xs = before ++ x :: after ∧ before.mapM f = .ok ys ∧ f x = .error e := by
  constructor
  · intro h
    induction xs with
    | nil => cases h
    | cons x xs ih =>
      rw [List.mapM_cons] at h
      cases hx : f x with
      | error e' =>
        rw [hx, except_error_bind] at h
        obtain rfl := Except.error.inj h
        exact ⟨[], x, xs, [], rfl, rfl, hx⟩
      | ok y =>
        rw [hx, except_ok_bind] at h
        cases hxs : xs.mapM f with
        | ok ys =>
          rw [hxs] at h
          cases h
        | error e' =>
          rw [hxs, except_error_bind] at h
          obtain rfl := Except.error.inj h
          obtain ⟨before, x', after, ys, rfl, hbefore, hx'⟩ := ih hxs
          refine ⟨x :: before, x', after, y :: ys, rfl, ?_, hx'⟩
          rw [List.mapM_cons, hx, hbefore]
          rfl
  · rintro ⟨before, x, after, ys, rfl, hbefore, hx⟩
    rw [List.mapM_append, hbefore, List.mapM_cons, hx]
    rfl

namespace Binance

/-- An entry of a level. -/
def bookEntry (side entry : String) (value : Json) : Except MarketError Decimal :=
  match value.asStr with
  | none =>
    .error (decodeFailure ("invalid " ++ side ++ " " ++ entry ++ " in binance order book snapshot"))
  | some raw => (Decimal.fromStr raw).mapError fun error =>
      decodeFailure ("invalid " ++ side ++ " " ++ entry ++ " decimal: " ++ error)

/-- A level; its entries are taken by position, whether there are that many or not. -/
def bookLevel (side : String) (level : Json) : Except Failure OrderBookLevel := do
  match level.asArray with
  | none => throw (.error (decodeFailure ("invalid " ++ side ++
      " level in binance order book snapshot")))
  | some [] => throw .panic
  | some (price :: rest) =>
    let price ← (bookEntry side "price" price).mapError .error
    match rest with
    | [] => throw .panic
    | quantity :: _ =>
      let quantity ← (bookEntry side "quantity" quantity).mapError .error
      return { price := ⟨price⟩, quantity := ⟨quantity⟩ }

/-- A level without a quantity, and without a price that could be refused before. -/
def TooShort (side : String) (level : Json) : Prop :=
  level.asArray = some [] ∨
    ∃ entry price, level.asArray = some [entry] ∧ bookEntry side "price" entry = .ok price

theorem bookLevel_panics_iff {side : String} {level : Json} :
    bookLevel side level = .error .panic ↔ TooShort side level := by
  unfold bookLevel TooShort
  cases level.asArray with
  | none => simp [throw, throwThe, MonadExceptOf.throw]
  | some entries =>
    cases entries with
    | nil => simp [throw, throwThe, MonadExceptOf.throw]
    | cons price rest =>
      cases hprice : bookEntry side "price" price with
      | error e => simp [hprice, Except.mapError, except_error_bind]
      | ok value =>
        cases rest with
        | nil => simp [hprice, Except.mapError, except_ok_bind, throw, throwThe,
            MonadExceptOf.throw]
        | cons quantity rest =>
          cases hquantity : bookEntry side "quantity" quantity with
          | error e =>
            simp [hprice, hquantity, Except.mapError, except_ok_bind]
          | ok value => simp [hprice, hquantity, Except.mapError, except_ok_bind, pure, Except.pure]

/-- The first level of a side that cannot be read is too short. -/
def CutShort (side : String) (levels : List Json) : Prop :=
  ∃ before level after read, levels = before ++ level :: after ∧
    before.mapM (bookLevel side) = .ok read ∧ TooShort side level

theorem bookLevels_panics_iff {side : String} {levels : List Json} :
    levels.mapM (bookLevel side) = .error .panic ↔ CutShort side levels := by
  rw [mapM_eq_error_iff]
  simp only [CutShort, bookLevel_panics_iff]

/-- The levels of a side. -/
def bookSide (snapshot : Json) (key : String) : Except MarketError (List Json) :=
  match (snapshot.get? key).bind Json.asArray with
  | some levels => .ok levels
  | none => .error (decodeFailure ("missing " ++ key ++ " in binance order book snapshot"))

/-- The order book of a reply; without an event time, it is of now. -/
def orderBookOf (spec : InstrumentSpec) (nowMs : TimestampMs) (payload : Payload) :
    Except Failure OrderBookSnapshot := do
  match payload.value? with
  | none => throw (.error (decodeFailure "failed to parse binance order book snapshot"))
  | some snapshot =>
    let bids ← (bookSide snapshot "bids").mapError .error
    let asks ← (bookSide snapshot "asks").mapError .error
    let bids ← bids.mapM (bookLevel "bid")
    let asks ← asks.mapM (bookLevel "ask")
    return {
      instrumentId := spec.instrumentId, bids, asks
      eventTime := ((snapshot.get? "E").bind Json.asInt64).getD nowMs }

/-- **A level that is too short makes the decoder panic**, if nothing before it is refused. -/
theorem orderBookOf_panics_iff {spec : InstrumentSpec} {nowMs : TimestampMs} {payload : Payload} :
    orderBookOf spec nowMs payload = .error .panic ↔
      ∃ snapshot bids asks, payload.value? = some snapshot ∧
        bookSide snapshot "bids" = .ok bids ∧ bookSide snapshot "asks" = .ok asks ∧
          (CutShort "bid" bids ∨
            ∃ read, bids.mapM (bookLevel "bid") = .ok read ∧ CutShort "ask" asks) := by
  unfold orderBookOf
  cases payload.value? with
  | none => simp [throw, throwThe, MonadExceptOf.throw]
  | some snapshot =>
    cases hbids : bookSide snapshot "bids" with
    | error e => simp [hbids, Except.mapError, except_error_bind]
    | ok bids =>
      cases hasks : bookSide snapshot "asks" with
      | error e => simp [hbids, hasks, Except.mapError, except_ok_bind, except_error_bind]
      | ok asks =>
        simp only [← bookLevels_panics_iff, hbids, hasks, Except.mapError, except_ok_bind]
        cases hread : bids.mapM (bookLevel "bid") with
        | error failure => cases failure <;> simp [hbids, hasks, hread, except_error_bind]
        | ok read =>
          cases hread' : asks.mapM (bookLevel "ask") with
          | error failure =>
            cases failure <;> simp [hbids, hasks, hread, hread', except_ok_bind]
          | ok read' =>
            simp [hbids, hasks, hread, hread', except_ok_bind, pure, Except.pure]

end Binance

end BatMarkets
