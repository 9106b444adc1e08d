import BatMarkets.Adapter.PublicTrades
import BatMarkets.Ordered.Keyed
import BatMarkets.Runtime.Subscriptions

/-!
# Sequence numbers of the order books of Bybit

A public stream passes the update ids of order-book messages to a `SequenceTracker` (`runtime.rs`),
which keeps the last one of each topic and ends the stream when one is missing.  Bybit has two
order-book feeds of a symbol, `orderbook.1` and `orderbook.50`, and each counts its updates on its
own.  The observation of a message is made under the symbol, not under the topic of the message, so
the tracker sees both feeds as one.

## Main results

* `Bybit.noGap_iff_keyedChain` : no gap is reported exactly when the messages of each symbol follow
  each other.
* `Bybit.no_gap_iff` : gapless feeds pass exactly when they also follow each other wherever the feed
  changes.
* `Bybit.two_feeds_report_gap` : a snapshot of one feed between two updates of the other.
-/

namespace BatMarkets

open Ordered Wire

/-! ### The tracker -/

/-- The last number that has been seen of a topic. -/
structure Watermark where
  value : Int64
  strictGap : Bool

/-- A number that has been observed, with what it says about the ones before. -/
structure SequenceObservation where
  topic : String
  value : Int64
  strictGap : Bool
  reset : Bool

/-- The watermarks of the topics. -/
abbrev SequenceTracker := BTreeMap String Watermark

/-- The tracker after an observation, or the number at which there is a gap. -/
def SequenceTracker.observe (tracker : SequenceTracker) (observation : SequenceObservation) :
    Except Int64 SequenceTracker :=
  let current : Watermark := ⟨observation.value, observation.strictGap⟩
  if observation.reset then .ok (tracker.insert observation.topic current)
  else match tracker[observation.topic]? with
    | none => .ok (tracker.insert observation.topic current)
    | some existing =>
      if observation.value = existing.value then .ok tracker
      else if observation.value < existing.value then .error observation.value
      else if existing.strictGap && existing.value + 1 < observation.value then
        .error (existing.value + 1)
      else .ok (tracker.insert observation.topic current)

/-! ### Numbers -/

section Next

variable {a b : Int64}

theorem not_lt_of_next (h : b.toInt = a.toInt + 1) : ¬ b < a := by
  rw [Int64.lt_iff_toInt_lt]
  omega

/-- The sum in the comparison does not overflow. -/
theorem not_gap_of_next (h : b.toInt = a.toInt + 1) : ¬ a + 1 < b := by
  have hlt : a < b := by
    rw [Int64.lt_iff_toInt_lt]
    omega
  rw [Int64.lt_iff_toInt_lt, toInt_add_one hlt]
  omega

theorem next_of_not_gap (hne : b ≠ a) (hlt : ¬ b < a) (hgap : ¬ a + 1 < b) :
    b.toInt = a.toInt + 1 := by
  have hne : b.toInt ≠ a.toInt := fun h => hne (Int64.toInt_inj.1 h)
  rw [Int64.lt_iff_toInt_lt] at hlt
  have hab : a < b := by
    rw [Int64.lt_iff_toInt_lt]
    omega
  rw [Int64.lt_iff_toInt_lt, toInt_add_one hab] at hgap
  omega

end Next

namespace Bybit

/-! ### Messages -/

/-- A message of the public stream of Bybit; the topic says what its data are. -/
structure PublicEnvelope where
  topic : String
  messageType : Option String
  ts : Int64
  data : Json

/-- The data of an order-book message, with its counters. -/
structure OrderBookData where
  symbol : String
  bids : List (String × String)
  asks : List (String × String)
  ts : Option Int64
  updateId : Option Int64
  seq : Option Int64
  cts : Option Int64

/-- A message may lack its type and its time. -/
def PublicEnvelope.read (value : Json) : Option PublicEnvelope := do
  let fields ← value.recordOf ["topic", "type", "ts", "data"] 4
  return {
    topic := ← Json.required fields "topic" Json.asStr
    messageType := ← Json.optional fields "type" Json.asStr
    ts := ← Json.defaulted fields "ts" Json.asInt64 0
    data := ← Json.required fields "data" some }

/-- An order-book message needs only its symbol and its two sides. -/
def OrderBookData.read (value : Json) : Option OrderBookData := do
  let fields ← value.record ["s", "b", "a", "ts", "u", "seq", "cts"]
  return {
    symbol := ← Json.required fields "s" Json.asStr
    bids := ← Json.required fields "b" (Json.each Json.asPair)
    asks := ← Json.required fields "a" (Json.each Json.asPair)
    ts := ← Json.optional fields "ts" Json.asInt64
    updateId := ← Json.optional fields "u" Json.asInt64
    seq := ← Json.optional fields "seq" Json.asInt64
    cts := ← Json.optional fields "cts" Json.asInt64 }

/-- The message, or an error that names the venue. -/
def parseNativePublic (payload : Payload) : Except MarketError PublicEnvelope :=
  match payload.value?.bind PublicEnvelope.read with
  | some envelope => .ok envelope
  | none => .error <| ((decodeFailure "failed to parse bybit public payload").withVenue
      .bybit .linearUsdt).withOperation "bybit.parse_native_public"

/-- What the tracker is told of a message. -/
def publicSequenceObservations (payload : Payload) :
    Except MarketError (List SequenceObservation) :=
  match parseNativePublic payload with
  | .error e => .error e
  | .ok envelope =>
    if envelope.topic.startsWith "orderbook." then
      match OrderBookData.read envelope.data with
      | none => .error <| (decodeFailure
          "failed to parse bybit orderbook sequence payload").withVenue .bybit .linearUsdt
      | some data => .ok <| data.updateId.toList.map fun updateId =>
          { topic := "bybit.public.orderbook." ++ data.symbol, value := updateId, strictGap := true
            reset := envelope.messageType == some "snapshot" }
    else .ok []

/-- Why the tracker ends a stream. -/
inductive SequenceStop
  | gap (number : Int64)
  | undecodable (error : MarketError)

/-- One message of the stream. -/
def observeMessage (tracker : SequenceTracker) (payload : Payload) :
    Except SequenceStop SequenceTracker :=
  match publicSequenceObservations payload with
  | .error e => .error (.undecodable e)
  | .ok observations => (observations.foldlM SequenceTracker.observe tracker).mapError .gap

/-- No gap is reported for the messages of a stream. -/
def NoGap (payloads : List Payload) : Prop :=
  ∃ tracker, payloads.foldlM observeMessage ∅ = .ok tracker

/-! ### Order-book feeds -/

/-- The feed of the best prices and that of fifty levels. -/
inductive BookFeed
  | bookTop
  | orderBook
  deriving DecidableEq, Repr

/-- The topic of the feed. -/
def BookFeed.topic (nativeSymbol : String) : BookFeed → String
  | bookTop => "orderbook.1." ++ nativeSymbol
  | orderBook => "orderbook.50." ++ nativeSymbol

/-- The order-book feeds of a subscription. -/
def bookFeeds (subscription : PublicSubscription) : List BookFeed :=
  (if subscription.bookTop then [.bookTop] else []) ++
    if subscription.orderBook then [.orderBook] else []

/-- A message of a feed. -/
structure BookMessage where
  feed : BookFeed
  symbol : String
  snapshot : Bool
  updateId : Int64

/-- The payload is read as the message, which is of a feed of the subscription. -/
def Carries (subscription : PublicSubscription) (payload : Payload) (m : BookMessage) : Prop :=
  m.feed ∈ bookFeeds subscription ∧
    ∃ envelope data, payload.value?.bind PublicEnvelope.read = some envelope ∧
      envelope.topic = m.feed.topic m.symbol ∧
      (envelope.messageType == some "snapshot") = m.snapshot ∧
      OrderBookData.read envelope.data = some data ∧ data.symbol = m.symbol ∧
      data.updateId = some m.updateId

/-- A message that may come after another one of its feed: a snapshot, the next update, or a
repetition. -/
def Follows (m m' : BookMessage) : Prop :=
  m'.snapshot = true ∨ m'.updateId = m.updateId ∨ m'.updateId.toInt = m.updateId.toInt + 1

/-- The messages of each feed of each symbol follow each other. -/
def GaplessFeeds (ms : List BookMessage) : Prop :=
  ∀ symbol feed,
    ((ms.filter (·.symbol = symbol)).filter (·.feed = feed)).IsChain Follows

/-- Wherever the feed of a symbol changes, the message follows the one before it. -/
def FollowsAcrossFeeds (ms : List BookMessage) : Prop :=
  ∀ symbol, (ms.filter (·.symbol = symbol)).IsChain fun m m' => m.feed ≠ m'.feed → Follows m m'

/-- What the runtime observes of the message, under a topic without the depth. -/
def BookMessage.observation (m : BookMessage) : SequenceObservation :=
  { topic := "bybit.public.orderbook." ++ m.symbol, value := m.updateId, strictGap := true
    reset := m.snapshot }

theorem startsWith_topic (m : BookMessage) :
    (m.feed.topic m.symbol).startsWith "orderbook." = true := by
  rw [String.startsWith_string_iff]
  cases m.feed with
  | bookTop =>
    refine ⟨"1.".toList ++ m.symbol.toList, ?_⟩
    rw [BookFeed.topic, String.toList_append, ← List.append_assoc]
    rfl
  | orderBook =>
    refine ⟨"50.".toList ++ m.symbol.toList, ?_⟩
    rw [BookFeed.topic, String.toList_append, ← List.append_assoc]
    rfl

theorem publicSequenceObservations_of_carries {subscription : PublicSubscription}
    {payload : Payload} {m : BookMessage} (h : Carries subscription payload m) :
    publicSequenceObservations payload = .ok [m.observation] := by
  obtain ⟨-, envelope, data, henvelope, htopic, hsnapshot, hdata, hsymbol, hid⟩ := h
  simp only [publicSequenceObservations, parseNativePublic, henvelope, htopic, hdata]
  rw [if_pos (startsWith_topic m), hid, hsymbol, hsnapshot]
  rfl

/-- The tracker keeps the last message of each symbol. -/
def Keeps (tracker : SequenceTracker) (last : String → Option BookMessage) : Prop :=
  ∀ symbol, tracker["bybit.public.orderbook." ++ symbol]? =
    (last symbol).map fun m => ⟨m.updateId, true⟩

theorem Keeps.insert {tracker : SequenceTracker} {last : String → Option BookMessage}
    (h : Keeps tracker last) (m : BookMessage) :
    Keeps (tracker.insert ("bybit.public.orderbook." ++ m.symbol) ⟨m.updateId, true⟩)
      (Function.update last m.symbol (some m)) := by
  intro symbol
  rw [lookup_insert]
  by_cases hsymbol : symbol = m.symbol
  · subst hsymbol
    rw [Function.update_self, if_pos rfl]
    rfl
  · have htopic : "bybit.public.orderbook." ++ m.symbol ≠ "bybit.public.orderbook." ++ symbol := by
      intro heq
      exact hsymbol ((String.append_right_inj _).1 heq).symm
    rw [Function.update_of_ne hsymbol, if_neg htopic]
    exact h symbol

/-- A repeated update id leaves the watermark as it is. -/
theorem Keeps.repeated {tracker : SequenceTracker} {last : String → Option BookMessage}
    (h : Keeps tracker last) {m p : BookMessage} (hlast : last m.symbol = some p)
    (hid : m.updateId = p.updateId) : Keeps tracker (Function.update last m.symbol (some m)) := by
  intro symbol
  rw [h symbol]
  by_cases hsymbol : symbol = m.symbol
  · subst hsymbol
    rw [Function.update_self, hlast, Option.map_some, Option.map_some, hid]
  · rw [Function.update_of_ne hsymbol]

/-- What the tracker does with a message that is not the first of its symbol. -/
theorem observe_of_last {tracker : SequenceTracker} {last : String → Option BookMessage}
    (h : Keeps tracker last) {m p : BookMessage} (hsnapshot : m.snapshot ≠ true)
    (hlast : last m.symbol = some p) :
    tracker.observe m.observation =
      if m.updateId = p.updateId then .ok tracker
      else if m.updateId < p.updateId then .error m.updateId
      else if p.updateId + 1 < m.updateId then .error (p.updateId + 1)
      else .ok (tracker.insert ("bybit.public.orderbook." ++ m.symbol) ⟨m.updateId, true⟩) := by
  have hlookup := h m.symbol
  rw [hlast, Option.map_some] at hlookup
  have hlookup : tracker[m.observation.topic]? = some ⟨p.updateId, true⟩ := hlookup
  have hreset : m.observation.reset = m.snapshot := rfl
  unfold SequenceTracker.observe
  rw [hreset, hlookup, if_neg hsnapshot]
  simp only [Bool.true_and, decide_eq_true_eq]
  rfl

/-- A message passes exactly when it follows the last one of its symbol, which it then is. -/
theorem observe_iff {tracker : SequenceTracker} {last : String → Option BookMessage}
    (h : Keeps tracker last) (m : BookMessage) :
    (∃ tracker', tracker.observe m.observation = .ok tracker' ∧
        Keeps tracker' (Function.update last m.symbol (some m))) ∧
        (∀ p ∈ last m.symbol, Follows p m) ∨
      (∃ number, tracker.observe m.observation = .error number) ∧
        ¬ ∀ p ∈ last m.symbol, Follows p m := by
  by_cases hsnapshot : m.snapshot = true
  · have hreset : m.observation.reset = true := hsnapshot
    refine .inl ⟨⟨_, ?_, h.insert m⟩, fun p _ => .inl hsnapshot⟩
    unfold SequenceTracker.observe
    rw [if_pos hreset]
    rfl
  · cases hlast : last m.symbol with
    | none =>
      have hlookup := h m.symbol
      rw [hlast, Option.map_none] at hlookup
      have hlookup : tracker[m.observation.topic]? = none := hlookup
      have hreset : m.observation.reset ≠ true := hsnapshot
      refine .inl ⟨⟨_, ?_, h.insert m⟩, fun p hp => (nomatch hp)⟩
      unfold SequenceTracker.observe
      rw [if_neg hreset, hlookup]
      rfl
    | some p =>
      rw [observe_of_last h hsnapshot hlast]
      -- the tracker compares with the last number: the same, a smaller one, one too great, the next
      by_cases hid : m.updateId = p.updateId
      · rw [if_pos hid]
        refine .inl ⟨⟨_, rfl, h.repeated hlast hid⟩, ?_⟩
        rintro q ⟨⟩
        exact .inr (.inl hid)
      · rw [if_neg hid]
        by_cases hlt : m.updateId < p.updateId
        · rw [if_pos hlt]
          refine .inr ⟨⟨_, rfl⟩, fun hfollows => ?_⟩
          obtain hs | hr | hn := hfollows p rfl
          · exact hsnapshot hs
          · exact hid hr
          · exact not_lt_of_next hn hlt
        · rw [if_neg hlt]
          by_cases hgap : p.updateId + 1 < m.updateId
          · rw [if_pos hgap]
            refine .inr ⟨⟨_, rfl⟩, fun hfollows => ?_⟩
            obtain hs | hr | hn := hfollows p rfl
            · exact hsnapshot hs
            · exact hid hr
            · exact not_gap_of_next hn hgap
          · rw [if_neg hgap]
            refine .inl ⟨⟨_, rfl, h.insert m⟩, ?_⟩
            rintro q ⟨⟩
            exact .inr (.inr (next_of_not_gap hid hlt hgap))

/-- A run passes exactly when the messages of each symbol follow each other. -/
theorem foldlM_observeMessage_iff {subscription : PublicSubscription} {payloads : List Payload}
    {ms : List BookMessage} (hpayloads : List.Forall₂ (Carries subscription) payloads ms)
    {tracker : SequenceTracker} {last : String → Option BookMessage} (h : Keeps tracker last) :
    (∃ tracker', payloads.foldlM observeMessage tracker = .ok tracker') ↔
      KeyedChain (·.symbol) Follows last ms := by
  induction hpayloads generalizing tracker last with
  | nil =>
    refine iff_of_true ⟨tracker, rfl⟩ fun symbol => ?_
    cases last symbol with
    | none => exact List.IsChain.nil
    | some p => exact List.IsChain.singleton p
  | @cons payload m payloads ms hcarries _ ih =>
    rw [keyedChain_cons, List.foldlM_cons, observeMessage,
      publicSequenceObservations_of_carries hcarries]
    obtain ⟨⟨tracker', hobserve, hkeeps⟩, hfollows⟩ | ⟨⟨number, hobserve⟩, hbroken⟩ :=
      observe_iff h m
    · simp only [List.foldlM_cons, List.foldlM_nil, hobserve]
      rw [and_iff_right hfollows]
      exact ih hkeeps
    · simp only [List.foldlM_cons, List.foldlM_nil, hobserve]
      refine iff_of_false ?_ fun hchain => hbroken hchain.1
      rintro ⟨tracker', ⟨⟩⟩

theorem noGap_iff_keyedChain {subscription : PublicSubscription} {payloads : List Payload}
    {ms : List BookMessage} (hpayloads : List.Forall₂ (Carries subscription) payloads ms) :
    NoGap payloads ↔ ∀ symbol, (ms.filter (·.symbol = symbol)).IsChain Follows := by
  have hempty : Keeps ∅ fun _ => none := fun symbol => by simp
  exact foldlM_observeMessage_iff hpayloads hempty

/-- **Two order-book feeds do not disturb each other, exactly.**  No gap is reported for gapless
feeds exactly when every message of a symbol that comes after one of the other feed is a snapshot,
or has the update id of that message or the next one. -/
theorem no_gap_iff {subscription : PublicSubscription} {payloads : List Payload}
    {ms : List BookMessage} (hpayloads : List.Forall₂ (Carries subscription) payloads ms)
    (hgapless : GaplessFeeds ms) : NoGap payloads ↔ FollowsAcrossFeeds ms := by
  rw [noGap_iff_keyedChain hpayloads]
  exact forall_congr' fun symbol => isChain_iff_of_keys (hgapless symbol)

/-! ### Two feeds -/

/-- An order-book message without price levels. -/
def bookPayload (topic kind symbol : String) (updateId : Int) : Payload :=
  .json (.object [("topic", .string topic), ("type", .string kind),
    ("data", .object [("s", .string symbol), ("b", .array []), ("a", .array []),
      ("u", .integer updateId)])])

/-- BTC with both of its feeds. -/
def twoFeeds : PublicSubscription :=
  { instrumentIds := [⟨"BTC/USDT:USDT"⟩], bookTop := true, orderBook := true }

/-- A snapshot of the best prices between two updates of the fifty levels. -/
def snapshotBetween (updateId : Int) : List Payload :=
  [bookPayload "orderbook.50.BTCUSDT" "snapshot" "BTCUSDT" 100,
    bookPayload "orderbook.1.BTCUSDT" "snapshot" "BTCUSDT" updateId,
    bookPayload "orderbook.50.BTCUSDT" "delta" "BTCUSDT" 101]

/-- A snapshot of the other feed between two messages of one feed. -/
def messagesBetween (updateId : Int64) : List BookMessage :=
  [⟨.orderBook, "BTCUSDT", true, 100⟩, ⟨.bookTop, "BTCUSDT", true, updateId⟩,
    ⟨.orderBook, "BTCUSDT", false, 101⟩]

theorem carries_snapshotBetween {n : Int} {updateId : Int64}
    (hid : Json.asInt64 (.integer n) = some updateId) :
    List.Forall₂ (Carries twoFeeds) (snapshotBetween n) (messagesBetween updateId) := by
  have hread : OrderBookData.read (.object [("s", .string "BTCUSDT"), ("b", .array []),
      ("a", .array []), ("u", .integer n)]) =
        some ⟨"BTCUSDT", [], [], none, some updateId, none, none⟩ := by
    have hu : Json.optional [("s", .string "BTCUSDT"), ("b", .array []), ("a", .array []),
        ("u", .integer n)] "u" Json.asInt64 = some (some updateId) := by
      have hmap := congrArg (Option.map some) hid
      exact hmap
    rw [OrderBookData.read]
    show (Json.optional [("s", .string "BTCUSDT"), ("b", .array []), ("a", .array []),
        ("u", .integer n)] "u" Json.asInt64).bind _ = _
    rw [hu]
    rfl
  have hfeed : BookFeed.bookTop ∈ bookFeeds twoFeeds := by decide
  exact .cons ⟨by decide, _, _, rfl, rfl, rfl, rfl, rfl, rfl⟩ <|
    .cons ⟨hfeed, _, _, rfl, rfl, rfl, hread, rfl, rfl⟩ <|
      .cons ⟨by decide, _, _, rfl, rfl, rfl, rfl, rfl, rfl⟩ .nil

theorem gaplessFeeds_messagesBetween (updateId : Int64) :
    GaplessFeeds (messagesBetween updateId) := by
  intro symbol feed
  by_cases hsymbol : "BTCUSDT" = symbol
  · cases feed with
    | bookTop => simp [messagesBetween, hsymbol]
    | orderBook =>
      have hnext : Follows ⟨.orderBook, "BTCUSDT", true, 100⟩ ⟨.orderBook, "BTCUSDT", false, 101⟩ :=
        .inr (.inr rfl)
      simpa [messagesBetween, hsymbol] using hnext
  · simp [messagesBetween, hsymbol]

theorem no_gap_iff_hundred :
    NoGap (snapshotBetween 100) ↔ FollowsAcrossFeeds (messagesBetween 100) :=
  no_gap_iff (carries_snapshotBetween rfl) (gaplessFeeds_messagesBetween 100)

/-- The snapshot of the best prices resets the watermark of the fifty levels to another count. -/
theorem two_feeds_report_gap :
    List.Forall₂ (Carries twoFeeds) (snapshotBetween 5) (messagesBetween 5) ∧
      GaplessFeeds (messagesBetween 5) ∧ ¬ NoGap (snapshotBetween 5) := by
  have hcarries : List.Forall₂ (Carries twoFeeds) (snapshotBetween 5) (messagesBetween 5) :=
    carries_snapshotBetween rfl
  refine ⟨hcarries, gaplessFeeds_messagesBetween 5, ?_⟩
  rw [noGap_iff_keyedChain hcarries]
  intro hchain
  have hfollows : Follows ⟨.bookTop, "BTCUSDT", true, 5⟩ ⟨.orderBook, "BTCUSDT", false, 101⟩ :=
    (List.isChain_cons_cons.1 (List.isChain_cons_cons.1 (hchain "BTCUSDT")).2).1
  obtain hs | hr | hn := hfollows
  · cases hs
  · exact absurd hr (by decide)
  · exact absurd hn (by decide)

end Bybit

end BatMarkets
