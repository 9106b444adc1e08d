import BatMarkets.Runtime.Routes
import BatMarkets.Runtime.Sequences
import BatMarkets.Runtime.Shared
import BatMarkets.Runtime.Streams

/-!
# The stream tasks

A stream task (`run_public_stream` and `run_private_stream` of `runtime.rs`) connects to the venue
and then runs the loop of the connection, one for each venue and lane (`run_binance_public_stream`
and its siblings), until the connection ends; when the error may pass it marks the stream as
disconnected and connects again.  The loops differ in what they look at before a frame is parsed and
in what they count as a sign of life, `StreamLoop`.

The loop is fed with the branches its `select!` takes, each with the time at which it runs, and a
text frame comes with what the adapter makes of it then.  In between, all other tasks write to the
engine state.  The frames a connection has received and what it has written are recorded, which the
code does not do.

## Main results

* `StreamTask.faithful_run` : in every run, a connection has applied the frames it has received, as
  a whole, in their order and without a gap; what is lost is lost at the end of a connection, and
  the next one begins with a mark.
-/

namespace BatMarkets

open Transition

/-! ### The lanes -/

namespace LiveStream

/-- The events of the stream. -/
abbrev Event : LiveStream → Type
  | publicStream => PublicLaneEvent
  | privateStream => PrivateLaneEvent

/-- The closure that applies events of the lane. -/
def batch : (stream : LiveStream) → List stream.Event → Closure
  | publicStream, events => .publicBatch events
  | privateStream, events => .privateBatch events

/-- The event that tells of a gap, with the number that was last seen if there is one. -/
def gapEvent : (stream : LiveStream) → Option SequenceNumber → stream.Event
  | publicStream, number => .divergence (.sequenceGap number)
  | privateStream, number => .divergence (.sequenceGap number)

/-- The closure that marks the end of a connection. -/
def markReconnect : LiveStream → Closure
  | publicStream => .mutate (modify fun s => s.markPublicDisconnect.markReconnect)
  | privateStream => .mutate (modify fun s => s.markPrivateDisconnect.markReconnect)

end LiveStream

/-! ### The loops of the venues -/

/-- What a loop depends on. -/
structure StreamLoop (stream : LiveStream) where
  venue : Venue
  /-- The name of the stream in errors. -/
  name : String
  /-- The message of the error when the venue closes the connection. -/
  closed : String
  /-- Acknowledgements and control messages are skipped. -/
  skipsControl : Bool
  tracksSequence : Bool
  /-- Any text frame is a sign of life, not only one that is applied. -/
  countsText : Bool
  /-- So is a ping, a pong or a binary frame. -/
  countsPings : Bool
  /-- The events of a frame that are applied. -/
  keeps : stream.Event → Bool
  wsIdleMs : UInt64
  snapshotStaleAfterMs : UInt64

/-- The parts of the configuration that the stream tasks read. -/
structure StreamConfig where
  wsIdleMs : UInt64
  snapshotStaleAfterMs : UInt64
  maxReconnectAttempts : Option UInt32

section Loops

variable (config : StreamConfig) (subscription : PublicSubscription)

/-- The read loop of the public stream of Binance. -/
def runBinancePublicStream : StreamLoop .publicStream where
  venue := .binance
  name := "binance.public_ws"
  closed := "binance public stream closed"
  skipsControl := true
  tracksSequence := true
  countsText := false
  countsPings := false
  keeps := subscription.retains
  wsIdleMs := config.wsIdleMs
  snapshotStaleAfterMs := config.snapshotStaleAfterMs

/-- The read loop of the private stream of Binance. -/
def runBinancePrivateStream : StreamLoop .privateStream where
  venue := .binance
  name := "binance.private_ws"
  closed := "binance private stream closed"
  skipsControl := false
  tracksSequence := true
  countsText := false
  countsPings := false
  keeps := fun _ => true
  wsIdleMs := config.wsIdleMs
  snapshotStaleAfterMs := config.snapshotStaleAfterMs

/-- The read loop of the public stream of Bybit. -/
def runBybitPublicStream : StreamLoop .publicStream where
  venue := .bybit
  name := "bybit.public_ws"
  closed := "bybit public stream closed"
  skipsControl := true
  tracksSequence := true
  countsText := true
  countsPings := true
  keeps := subscription.retains
  wsIdleMs := config.wsIdleMs
  snapshotStaleAfterMs := config.snapshotStaleAfterMs

/-- The read loop of the private stream of Bybit. -/
def runBybitPrivateStream : StreamLoop .privateStream where
  venue := .bybit
  name := "bybit.private_ws"
  closed := "bybit private stream closed"
  skipsControl := true
  tracksSequence := true
  countsText := true
  countsPings := true
  keeps := fun _ => true
  wsIdleMs := config.wsIdleMs
  snapshotStaleAfterMs := config.snapshotStaleAfterMs

/-- The read loop of the public stream of MEXC, which does not look at sequence numbers. -/
def runMexcPublicStream : StreamLoop .publicStream where
  venue := .mexc
  name := "mexc.public_ws"
  closed := "mexc public stream closed"
  skipsControl := false
  tracksSequence := false
  countsText := false
  countsPings := true
  keeps := subscription.retains
  wsIdleMs := config.wsIdleMs
  snapshotStaleAfterMs := config.snapshotStaleAfterMs

/-- The read loop of the private stream of MEXC, which does not look at sequence numbers. -/
def runMexcPrivateStream : StreamLoop .privateStream where
  venue := .mexc
  name := "mexc.private_ws"
  closed := "mexc private stream closed"
  skipsControl := false
  tracksSequence := false
  countsText := false
  countsPings := true
  keeps := fun _ => true
  wsIdleMs := config.wsIdleMs
  snapshotStaleAfterMs := config.snapshotStaleAfterMs

/-- The read loop of the public stream, by venue. -/
def publicLoop : Venue → StreamLoop .publicStream
  | .binance => runBinancePublicStream config subscription
  | .bybit => runBybitPublicStream config subscription
  | .mexc => runMexcPublicStream config subscription

/-- The read loop of the private stream, by venue. -/
def privateLoop : Venue → StreamLoop .privateStream
  | .binance => runBinancePrivateStream config
  | .bybit => runBybitPrivateStream config
  | .mexc => runMexcPrivateStream config

/-- The loop that a task of the lane runs for the venue. -/
def LiveStream.loop : (stream : LiveStream) → Venue → StreamLoop stream
  | publicStream => publicLoop config subscription
  | privateStream => privateLoop config

end Loops

/-- The error with which a connection ends at a gap. -/
def sequenceGapError (venue : Venue) (operation : String) (number : Option Int64) : MarketError :=
  let message := match number with
    | some number => "sequence gap detected near watermark " ++ toString number
    | none => "sequence gap detected from transport idle or reset"
  { kind := .transportError
    message
    context := {
      venue := some venue, product := some .linearUsdt, operation := some operation
      retriable := true } }

/-! ### Frames and branches -/

/-- A text frame, with what the adapter makes of it when it arrives. -/
structure TextFrame (ε : Type) where
  /-- It is an acknowledgement or a control message. -/
  control : Bool
  observations : Except MarketError (List SequenceObservation)
  events : Except Failure (List ε)

/-- What the socket yields. -/
inductive Message (ε : Type)
  | text (frame : TextFrame ε)
  /-- A ping, a pong or a binary frame. -/
  | ping
  | other

/-- The branch that `select!` takes. -/
inductive Branch (ε : Type)
  | shutdown
  /-- A ping is sent. -/
  | ping (sent : Except MarketError Unit)
  /-- The poll of the open interest, or the renewal of the listen key, whose results are dropped. -/
  | beside
  | maintenance
  /-- The next message, if there is one. -/
  | message (next : Option (Except MarketError (Message ε)))

/-- What a task writes to the engine state. -/
inductive StreamWrite (stream : LiveStream)
  /-- The events of a frame were applied. -/
  | frame (frame : TextFrame stream.Event)
  /-- The events of a frame were rejected, or applying them panicked. -/
  | rejected (frame : TextFrame stream.Event)
  | snapshotAge (ageMs : UInt64)
  | gap (number : Option SequenceNumber)
  | reconnect

/-- The events of a frame that are applied. -/
def TextFrame.kept {stream : LiveStream} (L : StreamLoop stream)
    (frame : TextFrame stream.Event) : List stream.Event :=
  (frame.events.toOption.getD []).filter L.keeps

/-- What runs under the lock. -/
def StreamWrite.closure {stream : LiveStream} (L : StreamLoop stream) :
    StreamWrite stream → Closure
  | .frame f | .rejected f => stream.batch (f.kept L)
  | .snapshotAge ageMs => .mutate (modify (·.markSnapshotAge ageMs L.snapshotStaleAfterMs))
  | .gap number => stream.batch [stream.gapEvent number]
  | .reconnect => stream.markReconnect

/-! ### One connection -/

/-- The state after a closure, whatever its result. -/
def Closure.after (s : EngineState) (c : Closure) : EngineState := stateAfter (c.body.run s)

/-- The variables of a loop, and what it has received and written. -/
structure Streaming (stream : LiveStream) where
  tracker : SequenceTracker := ∅
  lastFrameAt : ℕ
  received : List (TextFrame stream.Event) := []
  writes : List (StreamWrite stream) := []

/-- The engine state with all that has been written to it, by the task or by others. -/
structure Written (stream : LiveStream) where
  engine : EngineState
  history : List (StreamWrite stream ⊕ Closure) := []

/-- A loop in the middle of a branch; it has a result when the branch ends the connection. -/
structure LoopState (stream : LiveStream) extends Streaming stream, Written stream where
  result : Option (Except Failure Unit) := none

namespace StreamLoop

variable {stream : LiveStream} (L : StreamLoop stream)

/-- The loop writes to the shared state. -/
def write (w : StreamWrite stream) (s : LoopState stream) : LoopState stream :=
  { s with
    engine := (w.closure L).after s.engine
    history := s.history ++ [.inl w]
    writes := s.writes ++ [w] }

/-- The loop ends with an error. -/
def fail (e : Failure) (s : LoopState stream) : LoopState stream :=
  { s with result := some (.error e) }

/-- Mark a gap and end the connection. -/
def gap (operation : String) (number : Option Int64) (s : LoopState stream) : LoopState stream :=
  fail (.error (sequenceGapError L.venue (L.name ++ operation) number))
    (L.write (.gap (number.map fun n => (max n 0).toUInt64)) s)

/-- A text frame has arrived. -/
def seen (now : ℕ) (s : LoopState stream) : LoopState stream :=
  if L.countsText then { s with lastFrameAt := now } else s

/-- A text frame with data. -/
def receive (now : ℕ) (frame : TextFrame stream.Event) (s : LoopState stream) :
    LoopState stream :=
  let s := { s with received := s.received ++ [frame] }
  match if L.tracksSequence then frame.observations else .ok [] with
  | .error e => fail (.error e) s
  | .ok observations =>
    match observations.foldlM SequenceTracker.observe s.tracker with
    | .error number => L.gap ".sequence" (some number) s
    | .ok tracker =>
      let s := { s with tracker }
      match frame.events with
      | .error e => fail e s
      | .ok events =>
        match resultOf ((stream.batch (events.filter L.keeps)).body.run s.engine) with
        | .ok () => { L.write (.frame frame) s with lastFrameAt := now }
        | .error e => fail e (L.write (.rejected frame) s)

/-- A text frame is received, unless it is skipped. -/
def text (now : ℕ) (frame : TextFrame stream.Event) (s : LoopState stream) : LoopState stream :=
  if L.skipsControl && frame.control then L.seen now s
  else L.receive now frame (L.seen now s)

/-- The regular check: a connection that has been silent for too long ends. -/
def maintain (now : ℕ) (s : LoopState stream) : LoopState stream :=
  if max L.wsIdleMs.toNat 1 ≤ now - s.lastFrameAt then L.gap ".idle" none s
  else match stream with
    | .publicStream => s
    | .privateStream => L.write (.snapshotAge (.ofNat (min (now - s.lastFrameAt) (2 ^ 64 - 1)))) s

/-- A ping, a pong or a binary frame. -/
def pinged (now : ℕ) (s : LoopState stream) : LoopState stream :=
  if L.countsPings then { s with lastFrameAt := now } else s

/-- The body of a branch.  The tasks that a branch waits for, and whose results it drops, are other
tasks here. -/
def branch (now : ℕ) (s : LoopState stream) : Branch stream.Event → LoopState stream
  | .shutdown => { s with result := some (.ok ()) }
  | .ping (.ok ()) | .beside => s
  | .ping (.error e) => fail (.error e) s
  | .maintenance => L.maintain now s
  | .message none => fail (.error { kind := .transportError, message := L.closed }) s
  | .message (some (.error e)) => fail (.error e) s
  | .message (some (.ok (.text frame))) => L.text now frame s
  | .message (some (.ok .ping)) => L.pinged now s
  | .message (some (.ok .other)) => s

end StreamLoop

/-! ### The task -/

/-- What happens to a task. -/
inductive TaskInput (stream : LiveStream)
  /-- Another task writes to the engine state. -/
  | others (closure : Closure)
  /-- The task connects and subscribes, or fails to. -/
  | connect (now : ℕ) (result : Except MarketError Unit)
  | branch (now : ℕ) (branch : Branch stream.Event)

/-- A stream task: the connections that have ended, the one there is, and the result of the task
when it has ended. -/
structure StreamTask (stream : LiveStream) extends Written stream where
  reconnectAttempt : UInt32 := 0
  past : List (Streaming stream) := []
  current : Option (Streaming stream) := none
  result : Option (Except Failure Unit) := none

namespace StreamTask

variable {stream : LiveStream} (L : StreamLoop stream) (maxReconnectAttempts : Option UInt32)

/-- The task when the loop of a connection has ended. -/
def disconnected (t : StreamTask stream) (v : Streaming stream) (result : Except Failure Unit) :
    StreamTask stream :=
  let ended := { t with past := t.past ++ [v], current := none, result := some result }
  match result with
  | .error (.error e) =>
    if shouldReconnect maxReconnectAttempts t.reconnectAttempt e then
      { t with
        engine := stream.markReconnect.after t.engine
        history := t.history ++ [.inl .reconnect]
        reconnectAttempt := t.reconnectAttempt + 1
        past := t.past ++ [{ v with writes := v.writes ++ [.reconnect] }]
        current := none }
    else ended
  | _ => ended

/-- One step of a task; an input it does not wait for changes nothing. -/
def next (t : StreamTask stream) : TaskInput stream → StreamTask stream
  | .others c => { t with engine := c.after t.engine, history := t.history ++ [.inr c] }
  | .connect now result =>
    match t.result, t.current with
    | none, none =>
      match result with
      | .ok () => { t with current := some { lastFrameAt := now } }
      | .error e => disconnected maxReconnectAttempts t { lastFrameAt := now } (.error (.error e))
    | _, _ => t
  | .branch now b =>
    match t.result, t.current with
    | none, some v =>
      let s := L.branch now { v, t with result := none } b
      let t := { t with engine := s.engine, history := s.history }
      match s.result with
      | none => { t with current := some s.toStreaming }
      | some result => disconnected maxReconnectAttempts t s.toStreaming result
    | _, _ => t

end StreamTask

/-! ### What a connection should have done -/

/-- The frames that were applied. -/
def framesOf {stream : LiveStream} (ws : List (StreamWrite stream)) :
    List (TextFrame stream.Event) :=
  ws.filterMap fun
    | .frame f => some f
    | _ => none

/-- The write is one of a connection that goes on. -/
def StreamWrite.Plain {stream : LiveStream} : StreamWrite stream → Prop
  | .frame _ | .snapshotAge _ => True
  | .rejected _ | .gap _ | .reconnect => False

section Faithful

variable {stream : LiveStream} (L : StreamLoop stream)

/-- What the tracker of a loop is told of a frame. -/
def StreamLoop.observations (frame : TextFrame stream.Event) :
    Except MarketError (List SequenceObservation) :=
  if L.tracksSequence then frame.observations else .ok []

/-- The frames can be read, and their sequence numbers pass a new tracker. -/
structure GapFree (frames : List (TextFrame stream.Event)) (tracker : SequenceTracker) : Prop where
  events : ∀ f ∈ frames, ∃ events, f.events = .ok events
  passes : ∃ observations, frames.mapM L.observations = .ok observations ∧
    observations.flatten.foldlM SequenceTracker.observe ∅ = .ok tracker

/-- A connection that goes on: it has applied all the frames it has received, and nothing else but
the age of the snapshot. -/
structure Streaming.Open (v : Streaming stream) : Prop where
  received : v.received = framesOf v.writes
  gapFree : GapFree L v.received v.tracker
  plain : ∀ w ∈ v.writes, w.Plain

/-- Why a frame was not applied: it cannot be read, there is a gap before it that is marked, or its
events were rejected. -/
inductive Lost (tracker : SequenceTracker) (ending : List (StreamWrite stream))
    (f : TextFrame stream.Event) : Prop
  | unread {e : MarketError} : L.observations f = .error e → Lost tracker ending f
  | gap {observations : List SequenceObservation} {number : Int64} :
      L.observations f = .ok observations →
      observations.foldlM SequenceTracker.observe tracker = .error number →
      .gap (some (max number 0).toUInt64) ∈ ending → Lost tracker ending f
  | undecoded {e : Failure} : f.events = .error e → Lost tracker ending f
  | rejected : .rejected f ∈ ending → Lost tracker ending f

/-- A connection that has ended: it has applied all the frames it has received but possibly the
last. -/
structure Streaming.Closed (v : Streaming stream) : Prop where
  intro ::
  exists_ending : ∃ body ending tracker, v.writes = body ++ ending ∧ (∀ w ∈ body, w.Plain) ∧
    (∀ w ∈ ending, ¬ w.Plain) ∧ GapFree L (framesOf body) tracker ∧
    (v.received = framesOf body ∨
      ∃ f, v.received = framesOf body ++ [f] ∧ Lost L tracker ending f)

variable {L}

theorem GapFree.nil : GapFree L [] ∅ := ⟨fun _ h => absurd h List.not_mem_nil, [], rfl, rfl⟩

/-- One more frame. -/
theorem GapFree.concat {frames : List (TextFrame stream.Event)} {tracker after : SequenceTracker}
    {f : TextFrame stream.Event} {observations : List SequenceObservation}
    {events : List stream.Event} (h : GapFree L frames tracker)
    (hobservations : L.observations f = .ok observations)
    (hpasses : observations.foldlM SequenceTracker.observe tracker = .ok after)
    (hevents : f.events = .ok events) : GapFree L (frames ++ [f]) after := by
  obtain ⟨told, hmap, htold⟩ := h.passes
  refine ⟨fun g hg => ?_, told ++ [observations], ?_, ?_⟩
  · rcases List.mem_append.1 hg with hg | hg
    · exact h.events g hg
    · rw [List.mem_singleton.1 hg]
      exact ⟨events, hevents⟩
  · rw [List.mapM_append, hmap]
    simp [hobservations, bind, Except.bind, pure, Except.pure]
  · rw [List.flatten_append, List.foldlM_append, htold]
    simpa [bind, Except.bind] using hpasses

theorem framesOf_append (ws ws' : List (StreamWrite stream)) :
    framesOf (ws ++ ws') = framesOf ws ++ framesOf ws' := List.filterMap_append

/-- A connection that ends without another write. -/
theorem Streaming.Open.closed {v : Streaming stream} (h : v.Open L) : v.Closed L :=
  ⟨v.writes, [], v.tracker, (List.append_nil _).symm, h.plain, fun _ h => absurd h List.not_mem_nil,
    h.received ▸ h.gapFree, .inl h.received⟩

end Faithful

/-! ### One branch -/

section Branch

variable {stream : LiveStream} {L : StreamLoop stream} (now : ℕ) {s s' : LoopState stream}

/-- The loop has made some writes. -/
def WritesOn (L : StreamLoop stream) (s s' : LoopState stream) : Prop :=
  ∃ ws, s'.writes = s.writes ++ ws ∧ s'.history = s.history ++ ws.map .inl ∧
    s'.engine = ws.foldl (fun e w => (w.closure L).after e) s.engine

/-- The connection goes on as it should, or has ended as it should. -/
structure Goes (L : StreamLoop stream) (s s' : LoopState stream) : Prop where
  writes : WritesOn L s s'
  goesOn : s'.result = none → s'.toStreaming.Open L
  ends : s'.result.isSome → s'.toStreaming.Closed L

theorem WritesOn.none (hwrites : s'.writes = s.writes) (hhistory : s'.history = s.history)
    (hengine : s'.engine = s.engine) : WritesOn L s s' :=
  ⟨[], by rw [hwrites, List.append_nil], by rw [hhistory, List.map_nil, List.append_nil], hengine⟩

/-- A branch that writes nothing and goes on. -/
theorem Goes.on (h : s'.toStreaming.Open L) (hwrites : WritesOn L s s') (hr : s'.result = none) :
    Goes L s s' where
  writes := hwrites
  goesOn _ := h
  ends hended := by
    rw [hr] at hended
    cases hended

/-- A branch that ends the connection. -/
theorem Goes.ended {r : Except Failure Unit} (h : s'.toStreaming.Closed L)
    (hwrites : WritesOn L s s') (hr : s'.result = some r) : Goes L s s' where
  writes := hwrites
  goesOn hon := by
    rw [hr] at hon
    cases hon
  ends _ := h

/-- What a marked write leaves of a connection, with the frame that was lost, if one was. -/
theorem closed_of_marked {v v' : Streaming stream} (h : v.Open L) {w : StreamWrite stream}
    (hw : ¬ w.Plain) (hwrites : v'.writes = v.writes ++ [w])
    (hreceived : v'.received = v.received ∨
      ∃ f, v'.received = v.received ++ [f] ∧ Lost L v.tracker [w] f) : v'.Closed L := by
  refine ⟨v.writes, [w], v.tracker, hwrites, h.plain, List.forall_mem_singleton.2 hw,
    h.received ▸ h.gapFree, ?_⟩
  rw [← h.received]
  exact hreceived

/-- What a failure leaves of a connection that has just received a frame it cannot read. -/
theorem closed_of_lost {v v' : Streaming stream} (h : v.Open L) {f : TextFrame stream.Event}
    (hwrites : v'.writes = v.writes) (hreceived : v'.received = v.received ++ [f])
    (hlost : Lost L v.tracker [] f) : v'.Closed L := by
  refine ⟨v.writes, [], v.tracker, by rw [hwrites, List.append_nil], h.plain,
    fun _ h => absurd h List.not_mem_nil, h.received ▸ h.gapFree, .inr ⟨f, ?_, hlost⟩⟩
  rw [hreceived, h.received]

/-- The age of the snapshot is no frame. -/
theorem Streaming.Open.plain_append {v v' : Streaming stream} (h : v.Open L)
    {w : StreamWrite stream} (hw : w.Plain) (hframes : framesOf [w] = [])
    (hwrites : v'.writes = v.writes ++ [w]) (hreceived : v'.received = v.received)
    (htracker : v'.tracker = v.tracker) : v'.Open L where
  received := by rw [hreceived, hwrites, framesOf_append, hframes, List.append_nil, h.received]
  gapFree := by
    rw [hreceived, htracker]
    exact h.gapFree
  plain := by
    rw [hwrites]
    exact List.forall_mem_append.2 ⟨h.plain, List.forall_mem_singleton.2 hw⟩

theorem WritesOn.one (w : StreamWrite stream) (s : LoopState stream) : WritesOn L s (L.write w s) :=
  ⟨[w], rfl, rfl, rfl⟩

/-- **A text frame** is applied as a whole, or ends the connection. -/
theorem goes_receive (h : s.toStreaming.Open L) (hr : s.result = none)
    (frame : TextFrame stream.Event) : Goes L s (L.receive now frame s) := by
  unfold StreamLoop.receive
  cases hobservations : L.observations frame with
  | error e =>
    have hif : (if L.tracksSequence then frame.observations else .ok []) = .error e := hobservations
    simp only [hif]
    exact .ended (closed_of_lost h rfl rfl (.unread hobservations)) (.none rfl rfl rfl) rfl
  | ok observations =>
    have hif : (if L.tracksSequence then frame.observations else .ok []) = .ok observations :=
      hobservations
    simp only [hif]
    cases hpasses : observations.foldlM SequenceTracker.observe s.tracker with
    | error number =>
      refine .ended (closed_of_marked h (w := .gap (some (max number 0).toUInt64)) id rfl
        (.inr ⟨frame, rfl, .gap hobservations hpasses List.mem_cons_self⟩)) ⟨[_], rfl, rfl, rfl⟩ rfl
    | ok tracker =>
      cases hevents : frame.events with
      | error e =>
        exact .ended (closed_of_lost h rfl rfl (.undecoded hevents)) (.none rfl rfl rfl) rfl
      | ok events =>
        dsimp only
        cases hrun : resultOf ((stream.batch (events.filter L.keeps)).body.run s.engine) with
        | error e =>
          exact .ended (closed_of_marked h (w := .rejected frame) id rfl
            (.inr ⟨frame, rfl, .rejected List.mem_cons_self⟩)) ⟨[_], rfl, rfl, rfl⟩ rfl
        | ok =>
          refine .on ⟨?_, ?_, ?_⟩ ⟨[.frame frame], rfl, rfl, rfl⟩ hr
          · exact (congrArg (· ++ [frame]) h.received).trans
              (framesOf_append s.writes [.frame frame]).symm
          · exact h.gapFree.concat hobservations hpasses hevents
          · exact List.forall_mem_append.2 ⟨h.plain, List.forall_mem_singleton.2 trivial⟩

/-- The time of the last frame is not part of what a connection should do. -/
theorem open_seen (h : s.toStreaming.Open L) : (L.seen now s).toStreaming.Open L ∧
    (L.seen now s).result = s.result ∧ WritesOn L s (L.seen now s) := by
  unfold StreamLoop.seen
  split
  · exact ⟨⟨h.received, h.gapFree, h.plain⟩, rfl, .none rfl rfl rfl⟩
  · exact ⟨h, rfl, .none rfl rfl rfl⟩

theorem WritesOn.trans {s'' : LoopState stream} (h : WritesOn L s s') (h' : WritesOn L s' s'') :
    WritesOn L s s'' := by
  obtain ⟨ws, hwrites, hhistory, hengine⟩ := h
  obtain ⟨ws', hwrites', hhistory', hengine'⟩ := h'
  refine ⟨ws ++ ws', ?_, ?_, ?_⟩
  · rw [hwrites', hwrites, List.append_assoc]
  · rw [hhistory', hhistory, List.map_append, List.append_assoc]
  · rw [hengine', hengine, List.foldl_append]

theorem goes_text (h : s.toStreaming.Open L) (hr : s.result = none)
    (frame : TextFrame stream.Event) : Goes L s (L.text now frame s) := by
  obtain ⟨hopen, hresult, hon⟩ := open_seen now h
  unfold StreamLoop.text
  split
  · exact .on hopen hon (hresult.trans hr)
  · have hgoes := goes_receive now hopen (hresult.trans hr) frame
    exact ⟨hon.trans hgoes.writes, hgoes.goesOn, hgoes.ends⟩

theorem goes_maintain (h : s.toStreaming.Open L) (hr : s.result = none) :
    Goes L s (L.maintain now s) := by
  unfold StreamLoop.maintain
  split
  · exact .ended (closed_of_marked h (w := .gap none) id rfl (.inl rfl)) ⟨[.gap none], rfl, rfl, rfl⟩
      rfl
  · cases stream with
    | publicStream => exact .on h (.none rfl rfl rfl) hr
    | privateStream =>
      exact .on (h.plain_append (w := .snapshotAge _) trivial rfl rfl rfl rfl) (.one _ s) hr

theorem goes_pinged (h : s.toStreaming.Open L) (hr : s.result = none) :
    Goes L s (L.pinged now s) := by
  unfold StreamLoop.pinged
  split
  · exact .on ⟨h.received, h.gapFree, h.plain⟩ (.none rfl rfl rfl) hr
  · exact .on h (.none rfl rfl rfl) hr

/-- **One branch** of the loop. -/
theorem goes_branch (h : s.toStreaming.Open L) (hr : s.result = none)
    (b : Branch stream.Event) : Goes L s (L.branch now s b) := by
  have hend : ∀ r, Goes L s { s with result := some r } := fun r =>
    .ended (h.closed : Streaming.Closed L s.toStreaming) (.none rfl rfl rfl) rfl
  have hstay : Goes L s s := .on h (.none rfl rfl rfl) hr
  cases b with
  | shutdown => exact hend _
  | beside => exact hstay
  | ping sent =>
    cases sent with
    | ok => exact hstay
    | error e => exact hend _
  | maintenance => exact goes_maintain now h hr
  | message next =>
    cases next with
    | none => exact hend _
    | some message =>
      cases message with
      | error e => exact hend _
      | ok message =>
        cases message with
        | text frame => exact goes_text now h hr frame
        | ping => exact goes_pinged now h hr
        | other => exact hstay

end Branch

/-! ### Whole runs -/

section Runs

variable {stream : LiveStream} {L : StreamLoop stream} {maxReconnectAttempts : Option UInt32}
  {start : EngineState} {t : StreamTask stream}

/-- The closure of an entry of the history. -/
def entryClosure (L : StreamLoop stream) : StreamWrite stream ⊕ Closure → Closure
  | .inl w => w.closure L
  | .inr c => c

/-- The state after a history. -/
def replayHistory (L : StreamLoop stream) (start : EngineState)
    (history : List (StreamWrite stream ⊕ Closure)) : EngineState :=
  history.foldl (fun s x => (entryClosure L x).after s) start

/-- What a task has done is what it should have done. -/
structure StreamTask.Faithful (L : StreamLoop stream) (start : EngineState)
    (t : StreamTask stream) : Prop where
  /-- The engine state is what has been written to it. -/
  engine : t.engine = replayHistory L start t.history
  /-- What the task has written, its connections have, one after the other. -/
  own : t.history.filterMap Sum.getLeft? = (t.past ++ t.current.toList).flatMap (·.writes)
  past : ∀ v ∈ t.past, v.Closed L
  current : ∀ v ∈ t.current, v.Open L
  /-- After the last write of a connection, and before the next one, the stream is marked as
  disconnected. -/
  marked : ∀ i v, t.past[i]? = some v → (i + 1 < t.past.length ∨ t.result = none) →
    v.writes.getLast? = some .reconnect
  ended : t.result.isSome → t.current = none

theorem replayHistory_append (start : EngineState)
    (history history' : List (StreamWrite stream ⊕ Closure)) :
    replayHistory L start (history ++ history') =
      replayHistory L (replayHistory L start history) history' := List.foldl_append

theorem replayHistory_inl (start : EngineState) (ws : List (StreamWrite stream)) :
    replayHistory L start (ws.map .inl) =
      ws.foldl (fun e w => (w.closure L).after e) start := List.foldl_map

theorem getLeft_inl (ws : List (StreamWrite stream)) :
    (ws.map (Sum.inl : _ → StreamWrite stream ⊕ Closure)).filterMap Sum.getLeft? = ws := by
  rw [List.filterMap_map]
  exact List.filterMap_some

/-- The mark of a connection that is followed by another. -/
theorem Streaming.Closed.reconnect {v : Streaming stream} (h : v.Closed L) :
    Streaming.Closed L { v with writes := v.writes ++ [.reconnect] } := by
  obtain ⟨body, ending, tracker, hwrites, hbody, hending, hgap, hlost⟩ := h
  refine ⟨body, ending ++ [.reconnect], tracker, ?_, hbody, ?_, hgap, hlost.imp id ?_⟩
  · rw [hwrites, List.append_assoc]
  · exact List.forall_mem_append.2 ⟨hending, List.forall_mem_singleton.2 id⟩
  · rintro ⟨f, hreceived, hf⟩
    refine ⟨f, hreceived, ?_⟩
    cases hf with
    | unread h => exact .unread h
    | gap h h' hmem => exact .gap h h' (List.mem_append_left _ hmem)
    | undecoded h => exact .undecoded h
    | rejected hmem => exact .rejected (List.mem_append_left _ hmem)

/-- A task whose connection `v` has just ended. -/
structure Disconnecting (L : StreamLoop stream) (start : EngineState) (t : StreamTask stream)
    (v : Streaming stream) : Prop where
  engine : t.engine = replayHistory L start t.history
  own : t.history.filterMap Sum.getLeft? = t.past.flatMap (·.writes) ++ v.writes
  past : ∀ v ∈ t.past, v.Closed L
  marked : ∀ v ∈ t.past, v.writes.getLast? = some .reconnect
  closed : v.Closed L

theorem Disconnecting.faithful {v : Streaming stream} (h : Disconnecting L start t v)
    (maxReconnectAttempts : Option UInt32) (result : Except Failure Unit) :
    (t.disconnected maxReconnectAttempts v result).Faithful L start := by
  have hended : StreamTask.Faithful L start
      { t with past := t.past ++ [v], current := none, result := some result } := by
    refine ⟨h.engine, ?_, List.forall_mem_append.2 ⟨h.past, List.forall_mem_singleton.2 h.closed⟩,
      by simp, ?_, fun _ => rfl⟩
    · simp only [Option.toList_none, List.append_nil, List.flatMap_append, List.flatMap_singleton]
      exact h.own
    · rintro i w hi (hlast | hnone)
      · rw [List.length_append, List.length_singleton, Nat.add_lt_add_iff_right] at hlast
        rw [List.getElem?_append_left hlast] at hi
        exact h.marked w (List.mem_of_getElem? hi)
      · cases hnone
  unfold StreamTask.disconnected
  cases result with
  | ok => exact hended
  | error e =>
    cases e with
    | panic => exact hended
    | error e =>
      dsimp only
      split
      · refine ⟨?_, ?_, List.forall_mem_append.2
          ⟨h.past, List.forall_mem_singleton.2 h.closed.reconnect⟩,
          by simp, ?_, fun _ => rfl⟩
        · rw [replayHistory_append, ← h.engine]
          rfl
        · simp only [Option.toList_none, List.append_nil, List.flatMap_append,
            List.flatMap_singleton, List.filterMap_append, h.own, List.append_assoc]
          rfl
        · intro i w hi _
          rcases List.mem_append.1 (List.mem_of_getElem? hi) with hw | hw
          · exact h.marked w hw
          · rw [List.mem_singleton.1 hw]
            exact List.getLast?_concat
      · exact hended

/-- All connections of a task that waits for the next one are marked. -/
theorem StreamTask.Faithful.disconnecting (h : t.Faithful L start) (hresult : t.result = none)
    {t' : StreamTask stream} {v v' : Streaming stream} (ws : List (StreamWrite stream))
    (hcurrent : t.current.toList.flatMap (·.writes) = v.writes) (hpast : t'.past = t.past)
    (hhistory : t'.history = t.history ++ ws.map .inl)
    (hengine : t'.engine = ws.foldl (fun e w => (w.closure L).after e) t.engine)
    (hwrites : v'.writes = v.writes ++ ws) (hclosed : v'.Closed L) :
    Disconnecting L start t' v' where
  engine := by rw [hengine, hhistory, replayHistory_append, ← h.engine, replayHistory_inl]
  own := by
    rw [hhistory, List.filterMap_append, h.own, getLeft_inl, hpast, List.flatMap_append, hcurrent,
      hwrites, List.append_assoc]
  past := hpast ▸ h.past
  marked w hw := by
    rw [hpast] at hw
    obtain ⟨i, hi⟩ := List.mem_iff_getElem?.1 hw
    exact h.marked i w hi (.inr hresult)
  closed := hclosed

/-- **One step** of a task. -/
theorem StreamTask.Faithful.next (h : t.Faithful L start) (x : TaskInput stream) :
    (t.next L maxReconnectAttempts x).Faithful L start := by
  cases x with
  | others c =>
    refine ⟨?_, ?_, h.past, h.current, h.marked, h.ended⟩
    · show c.after t.engine = replayHistory L start (t.history ++ [Sum.inr c])
      rw [replayHistory_append, ← h.engine]
      rfl
    · show (t.history ++ [Sum.inr c]).filterMap Sum.getLeft? = _
      rw [List.filterMap_append, h.own]
      exact List.append_nil _
  | connect now result =>
    cases hresult : t.result with
    | some r => simpa only [StreamTask.next, hresult] using h
    | none =>
      cases hcurrent : t.current with
      | some v => simpa only [StreamTask.next, hresult, hcurrent] using h
      | none =>
        -- a new connection has read nothing
        have hopen : Streaming.Open L { lastFrameAt := now } :=
          ⟨rfl, .nil, fun _ hw => absurd hw List.not_mem_nil⟩
        cases result with
        | ok =>
          simp only [StreamTask.next, hresult, hcurrent]
          refine ⟨h.engine, ?_, h.past, ?_, fun i v hi _ => h.marked i v hi (.inr hresult), ?_⟩
          · simpa [hcurrent] using h.own
          · rintro v ⟨⟩
            exact hopen
          · rintro ⟨⟩
        | error e =>
          simp only [StreamTask.next, hresult, hcurrent]
          refine (h.disconnecting hresult (v := { lastFrameAt := now }) []
            ?_ rfl ?_ rfl rfl hopen.closed).faithful maxReconnectAttempts _
          · rw [hcurrent]
            rfl
          · exact (List.append_nil _).symm
  | branch now b =>
    cases hresult : t.result with
    | some r => simpa only [StreamTask.next, hresult] using h
    | none =>
      cases hcurrent : t.current with
      | none => simpa only [StreamTask.next, hresult, hcurrent] using h
      | some v =>
        -- a branch writes what its frames say, and then goes on or ends the connection
        have hgoes := goes_branch now
          (s := { v, t with result := (none : Option (Except Failure Unit)) })
          (h.current v hcurrent) rfl b
        obtain ⟨ws, hwrites, hhistory, hengine⟩ := hgoes.writes
        simp only [StreamTask.next, hresult, hcurrent]
        cases hr : (L.branch now { v, t with result := none } b).result with
        | none =>
          refine ⟨?_, ?_, h.past, ?_, fun i v hi _ => h.marked i v hi (.inr hresult), ?_⟩
          · dsimp only
            rw [hengine, hhistory, replayHistory_append, ← h.engine, replayHistory_inl]
          · dsimp only
            rw [hhistory, List.filterMap_append, h.own, getLeft_inl, hcurrent]
            simp [hwrites]
          · rintro w ⟨⟩
            exact hgoes.goesOn hr
          · rintro ⟨⟩
        | some result =>
          -- the connection has ended: it is marked, and the task tries again or ends
          have hdisconnecting : Disconnecting L start
              { t with
                engine := (L.branch now { v, t with result := none } b).engine
                history := (L.branch now { v, t with result := none } b).history }
              (L.branch now { v, t with result := none } b).toStreaming :=
            h.disconnecting hresult (v := v) ws (by rw [hcurrent]; simp) rfl hhistory hengine
              hwrites (hgoes.ends (by rw [hr]; rfl))
          have hfaithful := hdisconnecting.faithful maxReconnectAttempts result
          simpa only [hresult, hcurrent] using hfaithful

/-- **Whole runs** of a task, from the state in which it is started. -/
theorem StreamTask.faithful_run (config : StreamConfig) (subscription : PublicSubscription)
    (stream : LiveStream) (venue : Venue) (start : EngineState) (inputs : List (TaskInput stream)) :
    (run (StreamTask.next (stream.loop config subscription venue) config.maxReconnectAttempts)
      { engine := start } inputs).Faithful (stream.loop config subscription venue) start := by
  have hfresh : StreamTask.Faithful (stream.loop config subscription venue) start
      { engine := start } :=
    ⟨rfl, rfl, fun _ hv => absurd hv List.not_mem_nil, fun _ hv => absurd hv (by simp),
      fun _ _ hv => absurd hv (by simp), fun _ => rfl⟩
  exact (visited_run _ inputs).invariant (fun _ x h => h.next x) hfresh

end Runs

end BatMarkets
