import BatMarkets.Binance.Private
import BatMarkets.Runtime.Gaps

/-!
# Trade ids on the private stream of Binance

A private stream passes the trade ids of its messages to a `SequenceTracker` (`runtime.rs`), which
ends the stream when one is behind the last one of its symbol.  A fill of the account is reported
twice, by an order update and by a short message about the trade.  Order updates that are not about
a fill have a trade id as well, which is zero, and it is not told apart.

## Main results

* `Binance.noError_iff_pairwise` : the stream goes on exactly when the trade ids of each symbol
  grow.
* `Binance.trade_ids_pass_iff` : where each kind of report is in order, exactly when they also grow
  from one kind of message to another.
* `Binance.trade_id_behind_stops` : an order that is placed after a fill, and a fill that is reported
  late.
-/

namespace BatMarkets

open Ordered Wire
open Bybit (SequenceStop)

namespace Binance

/-- Trade ids need not be consecutive. -/
def tradeObservation (symbol : String) (tradeId : Int64) : SequenceObservation :=
  { topic := "binance.private.trade." ++ symbol, value := tradeId, strictGap := false
    reset := false }

/-- What the tracker is told of a message. -/
def privateSequenceObservations (payload : Payload) :
    Except MarketError (List SequenceObservation) := do
  match ← parseNativePrivate payload with
  | .orderTradeUpdate order => return (order.tradeId.map (tradeObservation order.symbol)).toList
  | .tradeLite event => return [tradeObservation event.symbol event.tradeId]
  | .algoUpdate _ => return []
  | .accountUpdate _ => return []

/-- One message of the stream. -/
def observePrivate (tracker : SequenceTracker) (payload : Payload) :
    Except SequenceStop SequenceTracker :=
  match privateSequenceObservations payload with
  | .error e => .error (.undecodable e)
  | .ok observations => (observations.foldlM SequenceTracker.observe tracker).mapError .gap

/-- The messages of a stream yield no error. -/
def NoError (payloads : List Payload) : Prop :=
  ∃ tracker, payloads.foldlM observePrivate ∅ = .ok tracker

/-! ### Reports of fills -/

/-- Where the trade id of a message is from. -/
inductive TradeSource
  /-- An order update about a fill. -/
  | orderFill
  /-- A short message about a fill. -/
  | tradeLite
  /-- An order update that is not about a fill. -/
  | noFill
  deriving DecidableEq, Repr

/-- A message that may have a trade id. -/
structure TradeFrame where
  source : TradeSource
  symbol : String
  tradeId : Option Int64

/-- The payload is read as the message. -/
def TradeFrame.Carried (payload : Payload) (f : TradeFrame) : Prop :=
  match f.source with
  | .orderFill => ∃ order quantity,
    payload.value?.bind PrivateMessage.read = some (.orderTradeUpdate order) ∧
      order.symbol = f.symbol ∧ order.tradeId = f.tradeId ∧ f.tradeId.isSome ∧
      parseDecimal order.lastFilledQty = .ok quantity ∧ Decimal.lt 0 quantity
  | .tradeLite => ∃ event,
    payload.value?.bind PrivateMessage.read = some (.tradeLite event) ∧
      event.symbol = f.symbol ∧ some event.tradeId = f.tradeId
  | .noFill => ∃ order quantity,
    payload.value?.bind PrivateMessage.read = some (.orderTradeUpdate order) ∧
      order.symbol = f.symbol ∧ order.tradeId = f.tradeId ∧
      (f.tradeId = none ∨ f.tradeId = some 0) ∧
      parseDecimal order.lastFilledQty = .ok quantity ∧ quantity.isZero

/-- The messages of a source report the fills of each symbol in the order of their trade ids. -/
def ReportsInOrder (source : TradeSource) (fs : List TradeFrame) : Prop :=
  ∀ symbol, ((fs.filter (·.symbol = symbol)).filter (·.source = source)).Pairwise fun f g =>
    ∀ a ∈ f.tradeId, ∀ b ∈ g.tradeId, a < b

/-- No trade id is behind that of an earlier message of the symbol. -/
def NotBehind (f g : TradeFrame) : Prop := ∀ a ∈ f.tradeId, ∀ b ∈ g.tradeId, a ≤ b

/-- Where two messages of a symbol are of different sources, the later is not behind. -/
def SourcesInOrder (fs : List TradeFrame) : Prop :=
  ∀ symbol, (fs.filter (·.symbol = symbol)).Pairwise fun f g => f.source ≠ g.source → NotBehind f g

/-- What is observed of a trade message: its id, if it has one. -/
def TradeFrame.observations (f : TradeFrame) : List SequenceObservation :=
  (f.tradeId.map (tradeObservation f.symbol)).toList

theorem privateSequenceObservations_of_carried {payload : Payload} {f : TradeFrame}
    (h : f.Carried payload) : privateSequenceObservations payload = .ok f.observations := by
  obtain ⟨source, symbol, tradeId⟩ := f
  unfold privateSequenceObservations parseNativePrivate TradeFrame.observations
  cases source with
  | orderFill =>
    obtain ⟨order, quantity, hread, hsymbol, htrade, -⟩ := h
    rw [hread]
    dsimp only at hsymbol htrade
    subst hsymbol htrade
    rfl
  | tradeLite =>
    obtain ⟨event, hread, hsymbol, htrade⟩ := h
    rw [hread]
    dsimp only at hsymbol htrade
    subst hsymbol htrade
    rfl
  | noFill =>
    obtain ⟨order, quantity, hread, hsymbol, htrade, -⟩ := h
    rw [hread]
    dsimp only at hsymbol htrade
    subst hsymbol htrade
    rfl

/-- A run over the messages is one over their observations. -/
theorem foldlM_observePrivate {payloads : List Payload} {fs : List TradeFrame}
    (h : List.Forall₂ (fun payload f => TradeFrame.Carried payload f) payloads fs)
    (tracker : SequenceTracker) :
    payloads.foldlM observePrivate tracker =
      ((fs.flatMap TradeFrame.observations).foldlM SequenceTracker.observe tracker).mapError
        .gap := by
  induction h generalizing tracker with
  | nil => rfl
  | @cons payload f payloads fs hcarried _ ih =>
    rw [List.foldlM_cons, observePrivate, privateSequenceObservations_of_carried hcarried,
      List.flatMap_cons, List.foldlM_append]
    dsimp only
    cases f.observations.foldlM SequenceTracker.observe tracker with
    | error n => rfl
    | ok after => exact ih after

theorem topic_tradeObservation {symbol other : String} {tradeId : Int64} :
    (tradeObservation other tradeId).topic = "binance.private.trade." ++ symbol ↔
      other = symbol := String.append_right_inj _

theorem filter_observations (fs : List TradeFrame) (symbol : String) :
    (fs.flatMap TradeFrame.observations).filter
        (·.topic = "binance.private.trade." ++ symbol) =
      (fs.filter (·.symbol = symbol)).flatMap TradeFrame.observations := by
  induction fs with
  | nil => rfl
  | cons f fs ih =>
    rw [List.flatMap_cons, List.filter_append, ih]
    by_cases hsymbol : f.symbol = symbol
    · rw [List.filter_cons_of_pos (by simpa using hsymbol), List.flatMap_cons]
      refine congrArg (· ++ _) (List.filter_eq_self.2 fun o ho => ?_)
      obtain ⟨tradeId, -, rfl⟩ := Option.map_eq_some_iff.1 (Option.mem_toList.1 ho)
      exact decide_eq_true (topic_tradeObservation.2 hsymbol)
    · rw [List.filter_cons_of_neg (by simpa using hsymbol)]
      refine (congrArg (· ++ _) (List.filter_eq_nil_iff.2 fun o ho => ?_)).trans (List.nil_append _)
      obtain ⟨tradeId, -, rfl⟩ := Option.map_eq_some_iff.1 (Option.mem_toList.1 ho)
      intro htopic
      exact hsymbol (topic_tradeObservation.1 (of_decide_eq_true htopic))

theorem mem_observations {f : TradeFrame} {o : SequenceObservation} :
    o ∈ f.observations ↔ ∃ tradeId ∈ f.tradeId, tradeObservation f.symbol tradeId = o := by
  unfold TradeFrame.observations
  rw [Option.mem_toList]
  exact Option.map_eq_some_iff

theorem pairwise_observations (fs : List TradeFrame) :
    (fs.flatMap TradeFrame.observations).Pairwise (fun p q => p.value ≤ q.value) ↔
      fs.Pairwise NotBehind := by
  rw [List.pairwise_flatMap]
  have hown : ∀ f ∈ fs, f.observations.Pairwise fun p q => p.value ≤ q.value := by
    intro f _
    unfold TradeFrame.observations
    cases f.tradeId <;> simp
  rw [and_iff_right hown]
  refine iff_of_eq (congrArg (List.Pairwise · fs) (funext₂ fun f g => propext ?_))
  constructor
  · intro h a ha b hb
    exact h _ (mem_observations.2 ⟨a, ha, rfl⟩) _ (mem_observations.2 ⟨b, hb, rfl⟩)
  · intro h p hp q hq
    obtain ⟨a, ha, rfl⟩ := mem_observations.1 hp
    obtain ⟨b, hb, rfl⟩ := mem_observations.1 hq
    exact h a ha b hb

/-- Every observation is one of a symbol. -/
theorem filter_observations_of_ne {topic : String}
    (htopic : ∀ symbol, "binance.private.trade." ++ symbol ≠ topic) (fs : List TradeFrame) :
    (fs.flatMap TradeFrame.observations).filter (·.topic = topic) = [] := by
  refine List.filter_eq_nil_iff.2 fun o ho => ?_
  obtain ⟨f, -, ho⟩ := List.mem_flatMap.1 ho
  obtain ⟨tradeId, -, rfl⟩ := mem_observations.1 ho
  intro h
  exact htopic f.symbol (of_decide_eq_true h)

instance : Trans (fun p q : SequenceObservation => p.value ≤ q.value)
    (fun p q : SequenceObservation => p.value ≤ q.value)
    fun p q : SequenceObservation => p.value ≤ q.value where
  trans h h' := Int64.le_trans h h'

theorem noError_iff_pairwise {payloads : List Payload} {fs : List TradeFrame}
    (h : List.Forall₂ (fun payload f => TradeFrame.Carried payload f) payloads fs) :
    NoError payloads ↔ ∀ symbol, (fs.filter (·.symbol = symbol)).Pairwise NotBehind := by
  have hplain : ∀ o ∈ fs.flatMap TradeFrame.observations,
      o.reset = false ∧ o.strictGap = false := by
    intro o ho
    obtain ⟨f, -, ho⟩ := List.mem_flatMap.1 ho
    obtain ⟨tradeId, -, rfl⟩ := mem_observations.1 ho
    exact ⟨rfl, rfl⟩
  let last : String → Option SequenceObservation := fun _ => none
  have hempty : ∀ topic : String, (∅ : SequenceTracker)[topic]? =
      (last topic).map fun p => (⟨p.value, false⟩ : Watermark) := by
    intro topic
    simp [last]
  have hrun : NoError payloads ↔ ∃ after,
      (fs.flatMap TradeFrame.observations).foldlM SequenceTracker.observe ∅ = .ok after := by
    unfold NoError
    rw [foldlM_observePrivate h]
    cases (fs.flatMap TradeFrame.observations).foldlM SequenceTracker.observe ∅ with
    | error n => exact iff_of_false (fun h => nomatch h) fun h => nomatch h
    | ok after => exact iff_of_true ⟨after, rfl⟩ ⟨after, rfl⟩
  rw [hrun, foldlM_observe_iff hplain hempty]
  have hchain : ∀ topic (os : List SequenceObservation),
      ((last topic).toList ++ os).IsChain (fun p q => p.value ≤ q.value) ↔
        os.Pairwise fun p q => p.value ≤ q.value := by
    intro topic os
    exact List.isChain_iff_pairwise
  unfold KeyedChain
  simp only [hchain]
  constructor
  · intro hall symbol
    have hsymbol := hall ("binance.private.trade." ++ symbol)
    rwa [filter_observations, pairwise_observations] at hsymbol
  · intro hall topic
    by_cases htopic : ∃ symbol, "binance.private.trade." ++ symbol = topic
    · obtain ⟨symbol, rfl⟩ := htopic
      rw [filter_observations, pairwise_observations]
      exact hall symbol
    · rw [filter_observations_of_ne (not_exists.1 htopic)]
      exact List.Pairwise.nil

theorem exists_carried {payloads : List Payload} {fs : List TradeFrame}
    (h : List.Forall₂ (fun payload f => TradeFrame.Carried payload f) payloads fs) {f : TradeFrame}
    (hf : f ∈ fs) : ∃ payload, f.Carried payload := by
  induction h with
  | nil => cases hf
  | cons hcarried _ ih =>
    obtain rfl | hf := List.mem_cons.1 hf
    · exact ⟨_, hcarried⟩
    · exact ih hf

/-- The messages of a stream, on which either kind of report is in order. -/
structure PrivateFeeds (payloads : List Payload) (fs : List TradeFrame) : Prop where
  carried : List.Forall₂ (fun payload f => TradeFrame.Carried payload f) payloads fs
  updates : ReportsInOrder .orderFill fs
  trades : ReportsInOrder .tradeLite fs

/-- **When fills and other order updates yield no false gap.**  For reports of either kind in order,
with any order updates between them, the stream goes on exactly when also no trade id is behind that
of an earlier message of another source. -/
theorem trade_ids_pass_iff {payloads : List Payload} {fs : List TradeFrame}
    (h : PrivateFeeds payloads fs) : NoError payloads ↔ SourcesInOrder fs := by
  rw [noError_iff_pairwise h.carried]
  refine forall_congr' fun symbol => pairwise_iff_of_keys fun source => ?_
  have hle : ∀ source, ReportsInOrder source fs →
      ((fs.filter (·.symbol = symbol)).filter (·.source = source)).Pairwise NotBehind := by
    intro source hreports
    refine (hreports symbol).imp fun hlt a ha b hb => ?_
    exact Int64.le_of_lt (hlt a ha b hb)
  cases source with
  | orderFill => exact hle _ h.updates
  | tradeLite => exact hle _ h.trades
  | noFill =>
    have hzero : ∀ f ∈ fs, f.source = .noFill → ∀ a ∈ f.tradeId, a = 0 := by
      intro f hf hsource a ha
      obtain ⟨payload, hcarried⟩ := exists_carried h.carried hf
      unfold TradeFrame.Carried at hcarried
      rw [hsource] at hcarried
      obtain ⟨-, -, -, -, -, hnone | hsome, -⟩ := hcarried
      · rw [hnone] at ha
        cases ha
      · rw [hsome] at ha
        exact (Option.mem_some.1 ha).symm
    refine List.pairwise_of_forall_mem_list fun f hf g hg a ha b hb => ?_
    simp only [List.mem_filter, decide_eq_true_eq] at hf hg
    rw [hzero f hf.1.1 hf.2 a ha, hzero g hg.1.1 hg.2 b hb]
    exact Int64.le_refl 0

/-! ### A fill and what comes after it -/

/-- An order update of an order for one coin. -/
def orderUpdate (status lastFilledQty : String) (tradeId : Int) : Payload :=
  .json (.object [("e", .string "ORDER_TRADE_UPDATE"), ("o", .object [("s", .string "BTCUSDT"),
    ("c", .string "c1"), ("S", .string "BUY"), ("o", .string "LIMIT"), ("f", .string "GTC"),
    ("q", .string "1"), ("p", .string "70000"), ("x", .string "TRADE"), ("X", .string status),
    ("i", .integer 1), ("l", .string lastFilledQty), ("z", .string lastFilledQty),
    ("L", .string "70000"), ("T", .integer 0), ("t", .integer tradeId), ("R", .bool false)])])

/-- A short message about a fill of one coin. -/
def shortMessage (tradeId : Int) : Payload :=
  .json (.object [("e", .string "TRADE_LITE"), ("E", .integer 0), ("T", .integer 0),
    ("s", .string "BTCUSDT"), ("q", .string "1"), ("p", .string "70000"), ("m", .bool false),
    ("c", .string "c1"), ("S", .string "BUY"), ("L", .string "70000"), ("l", .string "1"),
    ("t", .integer tradeId), ("i", .integer 1)])

theorem carried_orderFill_five :
    TradeFrame.Carried (orderUpdate "FILLED" "1" 5) ⟨.orderFill, "BTCUSDT", some 5⟩ :=
  ⟨_, .ofNat 1, rfl, rfl, rfl, rfl, by decide +kernel, by decide⟩

theorem carried_orderFill_six :
    TradeFrame.Carried (orderUpdate "FILLED" "1" 6) ⟨.orderFill, "BTCUSDT", some 6⟩ :=
  ⟨_, .ofNat 1, rfl, rfl, rfl, rfl, by decide +kernel, by decide⟩

theorem carried_tradeLite_five :
    TradeFrame.Carried (shortMessage 5) ⟨.tradeLite, "BTCUSDT", some 5⟩ :=
  ⟨_, rfl, rfl, rfl⟩

theorem carried_noFill :
    TradeFrame.Carried (orderUpdate "NEW" "0" 0) ⟨.noFill, "BTCUSDT", some 0⟩ :=
  ⟨_, 0, rfl, rfl, rfl, .inr rfl, by decide +kernel, by decide⟩

theorem trade_ids_pass_iff_once :
    NoError [orderUpdate "NEW" "0" 0, orderUpdate "FILLED" "1" 5, shortMessage 5] ↔
      SourcesInOrder [⟨.noFill, "BTCUSDT", some 0⟩, ⟨.orderFill, "BTCUSDT", some 5⟩,
        ⟨.tradeLite, "BTCUSDT", some 5⟩] := by
  refine trade_ids_pass_iff ⟨.cons carried_noFill <| .cons carried_orderFill_five <|
    .cons carried_tradeLite_five .nil, fun symbol => ?_, fun symbol => ?_⟩
  · by_cases hsymbol : "BTCUSDT" = symbol <;> simp [hsymbol]
  · by_cases hsymbol : "BTCUSDT" = symbol <;> simp [hsymbol]

/-- An order that is placed after a fill has the trade id zero, and a fill that is reported after the
next one has the trade id before.  Either ends the stream. -/
theorem trade_id_behind_stops :
    (∃ payloads, PrivateFeeds payloads
        [⟨.orderFill, "BTCUSDT", some 5⟩, ⟨.noFill, "BTCUSDT", some 0⟩] ∧ ¬ NoError payloads) ∧
      ∃ payloads, PrivateFeeds payloads
        [⟨.orderFill, "BTCUSDT", some 5⟩, ⟨.orderFill, "BTCUSDT", some 6⟩,
          ⟨.tradeLite, "BTCUSDT", some 5⟩] ∧ ¬ NoError payloads := by
  have hzero : PrivateFeeds [orderUpdate "FILLED" "1" 5, orderUpdate "NEW" "0" 0]
      [⟨.orderFill, "BTCUSDT", some 5⟩, ⟨.noFill, "BTCUSDT", some 0⟩] := by
    refine ⟨.cons carried_orderFill_five <| .cons carried_noFill .nil, fun symbol => ?_,
      fun symbol => ?_⟩
    · by_cases hsymbol : "BTCUSDT" = symbol <;> simp [hsymbol]
    · by_cases hsymbol : "BTCUSDT" = symbol <;> simp [hsymbol]
  have hlate : PrivateFeeds
      [orderUpdate "FILLED" "1" 5, orderUpdate "FILLED" "1" 6, shortMessage 5]
      [⟨.orderFill, "BTCUSDT", some 5⟩, ⟨.orderFill, "BTCUSDT", some 6⟩,
        ⟨.tradeLite, "BTCUSDT", some 5⟩] := by
    refine ⟨.cons carried_orderFill_five <| .cons carried_orderFill_six <|
      .cons carried_tradeLite_five .nil, fun symbol => ?_, fun symbol => ?_⟩
    · by_cases hsymbol : "BTCUSDT" = symbol <;> simp [hsymbol]
    · by_cases hsymbol : "BTCUSDT" = symbol <;> simp [hsymbol]
  refine ⟨⟨_, hzero, ?_⟩, ⟨_, hlate, ?_⟩⟩
  · rw [noError_iff_pairwise hzero.carried]
    intro hall
    have hbehind := List.pairwise_cons.1 (hall "BTCUSDT") |>.1 ⟨.noFill, "BTCUSDT", some 0⟩
      (by simp) 5 rfl 0 rfl
    exact absurd hbehind (by decide)
  · rw [noError_iff_pairwise hlate.carried]
    intro hall
    have hrest := List.pairwise_cons.1 (List.pairwise_cons.1 (hall "BTCUSDT")).2
    have hbehind := hrest.1 ⟨.tradeLite, "BTCUSDT", some 5⟩ (by simp) 6 rfl 5 rfl
    exact absurd hbehind (by decide)

end Binance

end BatMarkets
