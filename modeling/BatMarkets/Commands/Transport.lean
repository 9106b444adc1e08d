import BatMarkets.Commands.Create
import BatMarkets.Interleaving.Custody
import BatMarkets.Interleaving.Observe
import BatMarkets.Ordered.Map
import BatMarkets.Transition.Basic

/-!
# Requests over the command websocket

`CommandTransportHub` (`transport.rs`) keeps one session to the venue, which all requests share.
`request_text` takes the session, or connects one, puts its command into the channel of the task of
the session and waits for a response.  If the task has ended before, the request is `Unavailable`,
and is made once more; whatever happens later leaves it `Uncertain`.

A run interleaves the steps of any number of calls and session tasks in any order.  The lock of the
hub is held while a session is looked up or connected, so that this is one step; what a task does
with the websocket takes two, since it waits while it writes.  A frame whose write fails may have
been written.

## Main results

* `TransportInv.step` : every command is in one place, and only after its call has handed it over.
* `command_written_at_most_once` : no frame is written twice, that of an `Unavailable` request is
  never written, and a create reaches the venue once at most.
-/

namespace BatMarkets

open CommandM Interleaving Ordered Prog Std Transition Wire

/-! ### Responses -/

/-- An id that a venue may write as a text or as a number. -/
def valueToId : Json → Option String
  | .string value => some value
  | .number value => some value.display
  | _ => none

/-- The id that a frame responds to, under the key of the venue. -/
def extractResponseId (venue : Venue) (payload : Payload) : Option String := do
  let value ← payload.value?
  match venue with
  | .binance => (value.get? "id").bind valueToId
  | .bybit => ((value.get? "reqId").or (value.get? "req_id")).bind valueToId
  | .mexc => ((value.get? "id").or (value.get? "reqId")).bind valueToId

/-! ### The state -/

/-- The arguments of `request_text`. -/
structure WsRequest where
  id : String
  operation : String
  payload : String

/-- What a call of the command websocket gets. -/
abbrev WsResult := Except CommandWsRequestError Payload

/-- The error for a request that the command websocket could not handle. -/
def commandWsError (venue : Venue) (operation message : String) : MarketError :=
  let error : MarketError := { kind := .transportError, message, context.retriable := true }
  (error.withVenue venue .linearUsdt).withOperation operation

/-- The error for a response that did not come in time. -/
def timeoutError (venue : Venue) (operation message : String) : MarketError :=
  let error : MarketError := { kind := .timeout, message, context.retriable := true }
  (error.withVenue venue .linearUsdt).withOperation operation

/-- Why a session is closed, or cannot be read. -/
inductive SessionClose
  | ended
  | readFailed (error : String)
  | closedByPeer

/-- The text of the error that the waiting calls get. -/
def SessionClose.message : SessionClose → String
  | ended => "command websocket closed while requests were in flight"
  | readFailed error => "command websocket read failed: " ++ error
  | closedByPeer => "command websocket connection closed by remote peer"

/-- The channel on which a call waits for its response. -/
inductive Oneshot
  | pending
  /-- The sender has been dropped. -/
  | closed
  | sent (result : WsResult)

/-- Where a call of `request_text` is, with its attempt and its session. -/
inductive CallPhase
  | idle
  /-- It is about to ask for the session. -/
  | acquiring (attempt : ℕ)
  /-- It is about to send its command to the task of the session. -/
  | requesting (attempt session : ℕ)
  /-- It waits for the response. -/
  | waiting (attempt session : ℕ)
  /-- It is about to invalidate the session. -/
  | failed (attempt session : ℕ) (error : CommandWsRequestError)
  | done (result : WsResult)
  /-- The caller has dropped it. -/
  | dropped

/-- The task of a session.  A command is named by its call. -/
structure CommandWsSession where
  running : Bool := false
  /-- The channel. -/
  queue : List ℕ := []
  /-- The command whose frame is being written. -/
  sending : Option ℕ := none
  /-- The commands that have been written, by their ids. -/
  pending : BTreeMap String ℕ := ∅

/-- The hub, its sessions and its calls. -/
structure TransportState where
  /-- What the lock of the hub protects. -/
  session : Option ℕ := none
  /-- The sessions that have been connected, by number. -/
  sessions : ℕ → CommandWsSession := fun _ => {}
  connected : ℕ := 0
  calls : ℕ → CallPhase := fun _ => .idle
  oneshots : ℕ → Oneshot := fun _ => .pending
  /-- The commands whose frames have been written to a websocket, or may have been. -/
  written : List ℕ := []

namespace TransportState

/-- The call is in another phase. -/
def setCall (s : TransportState) (n : ℕ) (phase : CallPhase) : TransportState :=
  { s with calls := Function.update s.calls n phase }

/-- The session is in another state. -/
def setSession (s : TransportState) (k : ℕ) (session : CommandWsSession) : TransportState :=
  { s with sessions := Function.update s.sessions k session }

/-- The senders of these calls are dropped. -/
def dropSenders (s : TransportState) (calls : List ℕ) : TransportState :=
  { s with oneshots := fun n => match s.oneshots n with
    | .pending => if n ∈ calls then .closed else .pending
    | oneshot => oneshot }

/-- A result is sent to a call. -/
def respond (s : TransportState) (n : ℕ) (result : WsResult) : TransportState :=
  { s with oneshots := fun m => match s.oneshots m with
    | .pending => if m = n then .sent result else .pending
    | oneshot => oneshot }

/-- A session is connected (`connect_session`). -/
def connect (s : TransportState) : TransportState :=
  { s.setSession s.connected { running := true } with
    session := some s.connected, connected := s.connected + 1 }

/-- The hub forgets the session, unless it has a newer one. -/
def invalidateSession (s : TransportState) (k : ℕ) : TransportState :=
  { s with session := if s.session = some k then none else s.session }

/-- The task ends; its channel and its map are dropped. -/
def endSession (s : TransportState) (k : ℕ) : TransportState :=
  let session := s.sessions k
  (s.dropSenders (session.sending.toList ++ session.queue ++ vals session.pending)).setSession k {}

/-- The frame is on the websocket. -/
def write (s : TransportState) (n : ℕ) : TransportState := { s with written := s.written ++ [n] }

end TransportState

/-- What follows the invalidation of the session. -/
def afterFailure (attempt : ℕ) : CommandWsRequestError → CallPhase
  | .unavailable error =>
    if attempt = 0 then .acquiring 1 else .done (.error (.unavailable error))
  | .uncertain error => .done (.error (.uncertain error))

/-- The call has a handle of the session. -/
def CallPhase.Uses (k : ℕ) : CallPhase → Prop
  | .requesting _ session | .waiting _ session | .failed _ session _ => session = k
  | .idle | .acquiring _ | .done _ | .dropped => False

/-! ### The steps -/

section Steps

variable (venue : Venue) (requests : ℕ → WsRequest)

/-- A frame has been written, and its command waits for the response. -/
def TransportState.sent (s : TransportState) (k n : ℕ) : TransportState :=
  let session := s.sessions k
  -- an older command with the same id is forgotten
  (((s.write n).dropSenders session.pending[(requests n).id]?.toList).setSession k
    { session with sending := none, pending := session.pending.insert (requests n).id n })

/-- All commands that have been written are uncertain. -/
def TransportState.failPending (s : TransportState) (k : ℕ) (message : String) : TransportState :=
  (vals (s.sessions k).pending).foldl (fun s n => s.respond n
    (.error (.uncertain (commandWsError venue (requests n).operation message)))) s

/-- A text is read from the websocket. -/
def TransportState.text (s : TransportState) (k : ℕ) (payload : Payload) : TransportState :=
  let session := s.sessions k
  match extractResponseId venue payload with
  | none => s
  | some id =>
    match session.pending[id]? with
    | none => s
    | some n => (s.respond n (.ok payload)).setSession k
        { session with pending := session.pending.erase id }

/-- The steps of the calls and of the tasks of the sessions. -/
inductive TransportStep : TransportState → TransportState → Prop
  /-- `request_text` is called. -/
  | call {s n} (h : s.calls n = .idle) : TransportStep s (s.setCall n (.acquiring 0))
  /-- There is a session. -/
  | reuse {s n a k} (h : s.calls n = .acquiring a) (hsession : s.session = some k) :
      TransportStep s (s.setCall n (.requesting a k))
  | connect {s n a} (h : s.calls n = .acquiring a) (hsession : s.session = none) :
      TransportStep s (s.connect.setCall n (.requesting a s.connected))
  /-- Credentials are missing, or the connection or the authentication fails. -/
  | connectFails {s n a} (error : MarketError) (h : s.calls n = .acquiring a)
      (hsession : s.session = none) :
      TransportStep s (s.setCall n (.done (.error (.unavailable error))))
  /-- The command is in the channel of the task. -/
  | send {s n a k} (h : s.calls n = .requesting a k) (hrunning : (s.sessions k).running = true) :
      TransportStep s ((s.setSession k
        { s.sessions k with queue := (s.sessions k).queue ++ [n] }).setCall n (.waiting a k))
  /-- The task has ended, and its channel is closed. -/
  | sendFails {s n a k} (h : s.calls n = .requesting a k)
      (hrunning : (s.sessions k).running = false) :
      TransportStep s (s.setCall n (.failed a k (.unavailable (commandWsError venue
        (requests n).operation "command websocket session is not running"))))
  | receiveOk {s n a k payload} (h : s.calls n = .waiting a k)
      (hsent : s.oneshots n = .sent (.ok payload)) :
      TransportStep s (s.setCall n (.done (.ok payload)))
  | receiveError {s n a k error} (h : s.calls n = .waiting a k)
      (hsent : s.oneshots n = .sent (.error error)) :
      TransportStep s (s.setCall n (.failed a k error))
  | receiveClosed {s n a k} (h : s.calls n = .waiting a k) (hclosed : s.oneshots n = .closed) :
      TransportStep s (s.setCall n (.failed a k (.uncertain (commandWsError venue
        (requests n).operation "command websocket closed before response was delivered"))))
  | timeout {s n a k} (h : s.calls n = .waiting a k) :
      TransportStep s (s.setCall n (.failed a k (.uncertain (timeoutError venue
        (requests n).operation "command websocket response timed out"))))
  | invalidate {s n a k error} (h : s.calls n = .failed a k error) :
      TransportStep s ((s.invalidateSession k).setCall n (afterFailure a error))
  | cancel {s n} (h : ∀ result, s.calls n ≠ .done result) : TransportStep s (s.setCall n .dropped)
  /-- The task takes a command out of its channel. -/
  | receive {s k n rest} (hrunning : (s.sessions k).running = true)
      (hsending : (s.sessions k).sending = none) (hqueue : (s.sessions k).queue = n :: rest) :
      TransportStep s (s.setSession k { s.sessions k with queue := rest, sending := some n })
  | sent {s k n} (hrunning : (s.sessions k).running = true)
      (hsending : (s.sessions k).sending = some n) : TransportStep s (s.sent requests k n)
  /-- The write fails, or the task is aborted while it writes.  The frame may be on the websocket
  nevertheless. -/
  | writeFails {s k n} (hrunning : (s.sessions k).running = true)
      (hsending : (s.sessions k).sending = some n) (reached : Bool) :
      TransportStep s ((if reached then s.write n else s).endSession k)
  /-- A ping or a pong cannot be sent, or the task is aborted. -/
  | ends {s k} (hrunning : (s.sessions k).running = true)
      (hsending : (s.sessions k).sending = none) : TransportStep s (s.endSession k)
  /-- The channel is empty, and nobody has a handle of the session any more. -/
  | noSenders {s k} (hrunning : (s.sessions k).running = true)
      (hsending : (s.sessions k).sending = none) (hqueue : (s.sessions k).queue = [])
      (hsession : s.session ≠ some k) (hcalls : ∀ n, ¬ (s.calls n).Uses k) :
      TransportStep s (s.endSession k)
  | closes {s k} (hrunning : (s.sessions k).running = true)
      (hsending : (s.sessions k).sending = none) (close : SessionClose) :
      TransportStep s ((s.failPending venue requests k close.message).endSession k)
  | text {s k} (hrunning : (s.sessions k).running = true)
      (hsending : (s.sessions k).sending = none) (payload : Payload) :
      TransportStep s (s.text venue k payload)

/-- The hub, its calls and its sessions. -/
def commandTransport : System TransportState Unit where
  init s := s = {}
  step s _ s' := TransportStep venue requests s s'

end Steps

/-! ### The invariant -/

namespace TransportState

/-- The commands that wait to be written, by session, and those that have been. -/
def custody (s : TransportState) : Custody ℕ ℕ where
  line := fun k => (s.sessions k).sending.toList ++ (s.sessions k).queue
  passed := s.written

end TransportState

/-- The call has not handed over its command. -/
def CallPhase.Unsent : CallPhase → Prop
  | .idle | .acquiring _ | .requesting _ _ | .failed _ _ (.unavailable _)
  | .done (.error (.unavailable _)) => True
  | .waiting _ _ | .failed _ _ (.uncertain _) | .done _ | .dropped => False

/-- A response to the request, or an error that leaves it uncertain. -/
def AnswersRequest (venue : Venue) (request : WsRequest) : WsResult → Prop
  | .ok payload => extractResponseId venue payload = some request.id
  | .error (.uncertain _) => True
  | .error (.unavailable _) => False

section Invariant

variable {venue : Venue} {requests : ℕ → WsRequest} {s s' : TransportState} {n k : ℕ}

/-- Every command is in one place, and only after its call has handed it over; and a response goes
to the call whose request it answers. -/
structure TransportInv (venue : Venue) (requests : ℕ → WsRequest) (s : TransportState) : Prop where
  once : s.custody.Once
  unsent : ∀ n, (s.calls n).Unsent → ¬ s.custody.Holds n
  answers : ∀ n result, s.oneshots n = .sent result → AnswersRequest venue (requests n) result
  pending : ∀ k (id : String) n, (s.sessions k).pending[id]? = some n → (requests n).id = id
  done : ∀ n payload, s.calls n = .done (.ok payload) →
    extractResponseId venue payload = some (requests n).id

theorem transportInv_init : TransportInv venue requests {} where
  once := ⟨fun _ => List.nodup_nil, fun _ _ _ h => (by cases h), fun _ _ h => (by cases h),
    List.nodup_nil⟩
  unsent := by
    rintro n - (h | ⟨k, h⟩) <;> cases h
  answers := fun _ _ h => by cases h
  pending := fun _ _ _ h => by simp at h
  done := fun _ _ h => by cases h

/-- A step of a call that touches nothing but the call. -/
theorem TransportInv.setCall (h : TransportInv venue requests s) {phase : CallPhase}
    (hunsent : phase.Unsent → ¬ s.custody.Holds n)
    (hdone : ∀ payload, phase = .done (.ok payload) →
      extractResponseId venue payload = some (requests n).id) :
    TransportInv venue requests (s.setCall n phase) where
  once := h.once
  unsent := by
    intro m hm
    by_cases heq : m = n
    · subst heq
      exact hunsent (by simpa [TransportState.setCall] using hm)
    · exact h.unsent m (by simpa [TransportState.setCall, heq] using hm)
  answers := h.answers
  pending := h.pending
  done := by
    intro m payload hm
    by_cases heq : m = n
    · subst heq
      exact hdone payload (by simpa [TransportState.setCall] using hm)
    · exact h.done m payload (by simpa [TransportState.setCall, heq] using hm)

/-- A step of the task of a session. -/
theorem TransportInv.session (h : TransportInv venue requests s) (hcalls : s'.calls = s.calls)
    (honce : s'.custody.Once) (hholds : ∀ n, s'.custody.Holds n → s.custody.Holds n)
    (hanswers : ∀ n result, s'.oneshots n = .sent result → AnswersRequest venue (requests n) result)
    (hpending : ∀ k (id : String) n,
      (s'.sessions k).pending[id]? = some n → (requests n).id = id) :
    TransportInv venue requests s' where
  once := honce
  unsent := by
    intro n hn hheld
    rw [hcalls] at hn
    exact h.unsent n hn (hholds n hheld)
  answers := hanswers
  pending := hpending
  done := by
    intro n payload hn
    rw [hcalls] at hn
    exact h.done n payload hn

theorem oneshots_dropSenders {calls : List ℕ} {result : WsResult}
    (h : (s.dropSenders calls).oneshots n = .sent result) : s.oneshots n = .sent result := by
  unfold TransportState.dropSenders at h
  dsimp only at h
  split at h
  · split at h <;> cases h
  · exact h

theorem oneshots_respond {m : ℕ} {r result : WsResult}
    (h : (s.respond m r).oneshots n = .sent result) :
    s.oneshots n = .sent result ∨ n = m ∧ result = r := by
  unfold TransportState.respond at h
  dsimp only at h
  split at h
  · split at h
    · next heq =>
      cases h
      exact .inr ⟨heq, rfl⟩
    · cases h
  · exact .inl h

/-- The lines after the session of a task has changed. -/
theorem custody_setSession (s : TransportState) (k : ℕ) (session : CommandWsSession) :
    (s.setSession k session).custody = { s.custody with
      line := Function.update s.custody.line k (session.sending.toList ++ session.queue) } := by
  unfold TransportState.custody TransportState.setSession
  congr 1
  funext k'
  by_cases h : k' = k
  · subst h
    simp
  · simp [h]

theorem custody_setSession_of_line {session : CommandWsSession}
    (h : session.sending.toList ++ session.queue =
      (s.sessions k).sending.toList ++ (s.sessions k).queue) :
    (s.setSession k session).custody = s.custody := by
  rw [custody_setSession, h]
  have hline : Function.update s.custody.line k
      ((s.sessions k).sending.toList ++ (s.sessions k).queue) = s.custody.line :=
    Function.update_eq_self k s.custody.line
  rw [hline]

theorem custody_endSession (s : TransportState) (k : ℕ) :
    (s.endSession k).custody = s.custody.clear k := by
  unfold TransportState.endSession
  dsimp only
  rw [custody_setSession]
  rfl

/-- The pending commands after the session of a task has changed. -/
theorem pending_setSession {session : CommandWsSession} {k' : ℕ} {id : String}
    (h : ((s.setSession k session).sessions k').pending[id]? = some n) :
    k' = k ∧ session.pending[id]? = some n ∨ (s.sessions k').pending[id]? = some n := by
  unfold TransportState.setSession at h
  by_cases hk : k' = k
  · subst hk
    exact .inl ⟨rfl, by simpa using h⟩
  · exact .inr (by simpa [hk] using h)

theorem TransportInv.endSession (h : TransportInv venue requests s) (k : ℕ) :
    TransportInv venue requests (s.endSession k) := by
  refine h.session rfl ?_ (fun n hn => ?_) (fun n result hn => ?_) fun k' id n hn => ?_
  · rw [custody_endSession]
    exact h.once.clear
  · rw [custody_endSession] at hn
    exact hn.of_clear
  · exact h.answers n result (oneshots_dropSenders hn)
  · rcases pending_setSession hn with ⟨-, hn⟩ | hn
    · simp at hn
    · exact h.pending k' id n hn

theorem TransportInv.respond (h : TransportInv venue requests s) {result : WsResult}
    (hresult : AnswersRequest venue (requests n) result) :
    TransportInv venue requests (s.respond n result) := by
  refine h.session rfl h.once (fun _ hn => hn) (fun m r hm => ?_) h.pending
  rcases oneshots_respond hm with hm | ⟨rfl, rfl⟩
  · exact h.answers m r hm
  · exact hresult

theorem TransportInv.failPending (h : TransportInv venue requests s) (k : ℕ) (message : String) :
    TransportInv venue requests (s.failPending venue requests k message) := by
  unfold TransportState.failPending
  generalize vals (s.sessions k).pending = ns
  induction ns generalizing s with
  | nil => exact h
  | cons n ns ih => exact ih (h.respond trivial)

/-- The frame of the command that is being written is on the websocket. -/
theorem custody_write_clear (hsending : (s.sessions k).sending = some n) :
    (s.write n).custody.clear k = (s.custody.pass k).clear k := by
  unfold TransportState.write TransportState.custody Custody.pass Custody.clear
  simp [hsending]

theorem custody_sent (hsending : (s.sessions k).sending = some n) :
    (s.sent requests k n).custody = s.custody.pass k := by
  unfold TransportState.sent
  dsimp only
  rw [custody_setSession]
  unfold TransportState.write TransportState.dropSenders TransportState.custody Custody.pass
  simp [hsending]

theorem TransportInv.sent (h : TransportInv venue requests s)
    (hsending : (s.sessions k).sending = some n) :
    TransportInv venue requests (s.sent requests k n) := by
  refine h.session rfl ?_ (fun m hm => ?_) (fun m result hm => ?_) fun k' id m hm => ?_
  · rw [custody_sent hsending]
    exact h.once.pass
  · rw [custody_sent hsending] at hm
    exact hm.of_pass
  · exact h.answers m result (oneshots_dropSenders hm)
  · rcases pending_setSession hm with ⟨-, hm⟩ | hm
    · dsimp only at hm
      rw [lookup_insert] at hm
      split at hm
      · next heq =>
        cases hm
        exact heq
      · exact h.pending k id m hm
    · exact h.pending k' id m hm

theorem TransportInv.text (h : TransportInv venue requests s) (k : ℕ) (payload : Payload) :
    TransportInv venue requests (s.text venue k payload) := by
  unfold TransportState.text
  dsimp only
  cases hid : extractResponseId venue payload with
  | none => exact h
  | some id =>
    dsimp only
    cases hn : (s.sessions k).pending[id]? with
    | none => exact h
    | some n =>
      dsimp only
      have hanswers : AnswersRequest venue (requests n) (.ok payload) := by
        show extractResponseId venue payload = some (requests n).id
        rw [hid, h.pending k id n hn]
      have hresponded := h.respond hanswers
      have hcustody : ((s.respond n (.ok payload)).setSession k { s.sessions k with
          pending := (s.sessions k).pending.erase id }).custody = s.custody :=
        custody_setSession_of_line rfl
      refine hresponded.session rfl ?_ (fun m hm => ?_) hresponded.answers fun k' id' m hm => ?_
      · rw [hcustody]
        exact h.once
      · rwa [hcustody] at hm
      · rcases pending_setSession hm with ⟨-, hm⟩ | hm
        · dsimp only at hm
          rw [lookup_erase] at hm
          split at hm
          · cases hm
          · exact h.pending k id' m hm
        · exact h.pending k' id' m hm

theorem TransportInv.connect (h : TransportInv venue requests s) :
    TransportInv venue requests s.connect := by
  have hcustody : s.connect.custody = s.custody.clear s.connected := custody_setSession s _ _
  refine h.session rfl ?_ (fun m hm => ?_) h.answers fun k' id m hm => ?_
  · rw [hcustody]
    exact h.once.clear
  · rw [hcustody] at hm
    exact hm.of_clear
  · rcases pending_setSession hm with ⟨-, hm⟩ | hm
    · simp at hm
    · exact h.pending k' id m hm

/-- A call hands over its command. -/
theorem TransportInv.enqueue (h : TransportInv venue requests s) (hfresh : ¬ s.custody.Holds n)
    (hsent : ¬ (s.calls n).Unsent) :
    TransportInv venue requests
      (s.setSession k { s.sessions k with queue := (s.sessions k).queue ++ [n] }) := by
  have hcustody : (s.setSession k
      { s.sessions k with queue := (s.sessions k).queue ++ [n] }).custody =
        s.custody.enter k n := by
    rw [custody_setSession, ← List.append_assoc]
    rfl
  refine ⟨?_, fun m hm hheld => ?_, h.answers, fun k' id m hm => ?_, h.done⟩
  · rw [hcustody]
    exact h.once.enter hfresh
  · rw [hcustody, Custody.holds_enter] at hheld
    rcases hheld with hheld | rfl
    · exact h.unsent m hm hheld
    · exact hsent hm
  · rcases pending_setSession hm with ⟨-, hm⟩ | hm
    · exact h.pending k id m hm
    · exact h.pending k' id m hm

theorem TransportInv.writeFails (h : TransportInv venue requests s)
    (hsending : (s.sessions k).sending = some n) :
    TransportInv venue requests ((s.write n).endSession k) := by
  refine h.session rfl ?_ (fun m hm => ?_) (fun m result hm => ?_) fun k' id m hm => ?_
  · rw [custody_endSession, custody_write_clear hsending]
    exact h.once.pass.clear
  · rw [custody_endSession, custody_write_clear hsending] at hm
    exact hm.of_clear.of_pass
  · exact h.answers m result (oneshots_dropSenders hm)
  · rcases pending_setSession hm with ⟨-, hm⟩ | hm
    · simp at hm
    · exact h.pending k' id m hm

theorem TransportInv.invalidate (h : TransportInv venue requests s) (k : ℕ) :
    TransportInv venue requests (s.invalidateSession k) :=
  h.session rfl h.once (fun _ hm => hm) h.answers h.pending

theorem unsent_of_afterFailure {a : ℕ} {error : CommandWsRequestError}
    (h : (afterFailure a error).Unsent) : ∃ e, error = .unavailable e := by
  cases error with
  | unavailable e => exact ⟨e, rfl⟩
  | uncertain e => exact h.elim

theorem afterFailure_ne_ok {a : ℕ} {error : CommandWsRequestError} {payload : Payload} :
    afterFailure a error ≠ .done (.ok payload) := by
  intro h
  cases error with
  | unavailable e =>
    unfold afterFailure at h
    dsimp only at h
    split at h <;> cases h
  | uncertain e => cases h

/-- **One step.** -/
theorem TransportInv.step (h : TransportInv venue requests s)
    (hstep : TransportStep venue requests s s') : TransportInv venue requests s' := by
  cases hstep with
  | call hcall =>
    refine h.setCall (fun _ => h.unsent _ ?_) fun _ hdone => by cases hdone
    rw [hcall]
    trivial
  | reuse hcall hsession =>
    refine h.setCall (fun _ => h.unsent _ ?_) fun _ hdone => by cases hdone
    rw [hcall]
    trivial
  | connect hcall hsession =>
    refine h.connect.setCall (fun _ => h.connect.unsent _ ?_) fun _ hdone => by cases hdone
    show (s.calls _).Unsent
    rw [hcall]
    trivial
  | connectFails error hcall hsession =>
    refine h.setCall (fun _ => h.unsent _ ?_) fun _ hdone => by cases hdone
    rw [hcall]
    trivial
  | @send n a k hcall hrunning =>
    -- the request is new to the custody of all sessions, so that it is there once
    have hfresh : ¬ s.custody.Holds n := by
      refine h.unsent n ?_
      rw [hcall]
      trivial
    have hwaiting : TransportInv venue requests (s.setCall n (.waiting a k)) :=
      h.setCall (fun hunsent => by cases hunsent) fun _ hdone => by cases hdone
    have hphase : ¬ ((s.setCall n (.waiting a k)).calls n).Unsent := by
      show ¬ (Function.update s.calls n (.waiting a k) n).Unsent
      rw [Function.update_self]
      exact fun hunsent => by cases hunsent
    exact hwaiting.enqueue hfresh hphase
  | sendFails hcall hrunning =>
    refine h.setCall (fun _ => h.unsent _ ?_) fun _ hdone => by cases hdone
    rw [hcall]
    trivial
  | receiveOk hcall hsent =>
    refine h.setCall (fun hunsent => by cases hunsent) fun payload hdone => ?_
    cases hdone
    exact h.answers _ _ hsent
  | @receiveError _ a k error hcall hsent =>
    refine h.setCall (fun hunsent => ?_) fun _ hdone => by cases hdone
    have hanswers := h.answers _ _ hsent
    cases error with
    | unavailable error => exact hanswers.elim
    | uncertain error => exact hunsent.elim
  | receiveClosed hcall hclosed =>
    exact h.setCall (fun hunsent => by cases hunsent) fun _ hdone => by cases hdone
  | timeout hcall =>
    exact h.setCall (fun hunsent => by cases hunsent) fun _ hdone => by cases hdone
  -- only a request that has not been sent is tried again
  | @invalidate n a k error hcall =>
    refine (h.invalidate k).setCall (fun hunsent => ?_) fun _ hdone =>
      absurd hdone afterFailure_ne_ok
    obtain ⟨e, rfl⟩ := unsent_of_afterFailure hunsent
    refine h.unsent n ?_
    rw [hcall]
    trivial
  | cancel hcall =>
    exact h.setCall (fun hunsent => by cases hunsent) fun _ hdone => by cases hdone
  | @receive k n rest hrunning hsending hqueue =>
    -- from the queue to the socket the request stays in custody
    have hcustody : (s.setSession k
        { s.sessions k with queue := rest, sending := some n }).custody = s.custody := by
      refine custody_setSession_of_line ?_
      rw [hsending, hqueue]
      rfl
    refine h.session rfl ?_ (fun m hm => ?_) h.answers fun k' id m hm => ?_
    · rw [hcustody]
      exact h.once
    · rwa [hcustody] at hm
    · rcases pending_setSession hm with ⟨-, hm⟩ | hm
      · exact h.pending k id m hm
      · exact h.pending k' id m hm
  | sent hrunning hsending => exact h.sent hsending
  | writeFails hrunning hsending reached =>
    cases reached with
    | false => exact h.endSession _
    | true => exact h.writeFails hsending
  | ends hrunning hsending => exact h.endSession _
  | noSenders hrunning hsending hqueue hsession hcalls => exact h.endSession _
  | closes hrunning hsending close => exact (h.failPending _ _).endSession _
  | text hrunning hsending payload => exact h.text _ payload

end Invariant

/-! ### Creating an order -/

/-- An order that is sent to the venue. -/
inductive Delivery
  | rest
  | ws (result : WsResult)

/-- The request went over HTTP. -/
def Delivery.isRest : Delivery → Bool
  | rest => true
  | ws _ => false

/-- How a call of a command reached the venue, if it wrote something. -/
def delivery : Event CommandCall CommandReply → Option Delivery
  | ⟨.rest request, _⟩ => if request.method = .get then none else some .rest
  | ⟨.ws _, reply⟩ => some (.ws reply.1)
  | _ => none

/-- The order is sent once, and over REST after the websocket only if that was unavailable. -/
def SentOnce (os : List Delivery) : Prop :=
  os = [] ∨ os = [.rest] ∨ (∃ result, os = [.ws result]) ∨
    ∃ error, os = [.rest, .ws (.error (.unavailable error))]

section Create

variable {context : CommandContext} {operation : CommandOperation} {requestId : Option RequestId}
  {frame : WsCommand} {request : RestCommand} {unsupported : String} {α : Type}

theorem quiet_of_yields {P : α → Prop} {x : CommandE α}
    (h : Yields (fun _ q => ¬ q.Writes) P x) : x.run.Quiet delivery := by
  refine quiet_of_always (h.always.mono fun _ q hq r => ?_)
  cases q with
  | rest request => exact if_pos (not_not.1 hq)
  | ws frame => exact absurd trivial hq
  | _ => rfl

theorem quiet_classify {catalog : InstrumentCatalog} {payload : Option Payload} :
    (classify context operation catalog payload requestId).run.Quiet delivery :=
  quiet_of_yields (yields_ofExcept (P := fun _ => True) fun _ _ => trivial)

theorem reports_sendRest_delivery (hmethod : request.method ≠ .get) :
    (sendRest context operation requestId request).run.Reports delivery
      fun os _ => os = [.rest] := by
  refine reports_perform fun (reply, catalog) => ?_
  have hrest : delivery ⟨.rest request, (reply, catalog)⟩ = some .rest := if_neg hmethod
  rw [hrest]
  cases reply with
  | ok payload => exact quiet_classify.mono fun os r hos => by rw [hos]; rfl
  | error e =>
    dsimp only
    split
    · exact quiet_classify.mono fun os r hos => by rw [hos]; rfl
    · exact reports_ret rfl

theorem reports_restSent (hmethod : request.method ≠ .get) :
    (do return (← sendRest context operation requestId request, CommandTransport.rest) :
      CommandE (CommandReceipt × CommandTransport)).run.Reports delivery
        fun os _ => os = [.rest] :=
  (reports_sendRest_delivery hmethod).map_ok fun _ _ hos => hos

theorem reports_sendRestOnly_delivery (hmethod : request.method ≠ .get) :
    (sendRestOnly context unsupported operation requestId request).run.Reports delivery
      fun os _ => SentOnce os := by
  unfold sendRestOnly
  split
  · exact reports_ret (.inl rfl)
  · exact (reports_restSent hmethod).mono fun os _ hos => .inr (.inl hos)

theorem reports_sendWebSocket_delivery {strict : Bool} (hmethod : request.method ≠ .get) :
    (sendWebSocket context strict operation requestId frame request).run.Reports delivery
      fun os _ => SentOnce os := by
  refine reports_perform fun (reply, catalog) => ?_
  show Reports delivery (fun os _ => SentOnce (os ++ [.ws reply])) _
  have hone : SentOnce [.ws reply] := .inr (.inr (.inl ⟨reply, rfl⟩))
  cases reply with
  | ok payload =>
    refine Reports.map_ok quiet_classify fun os r hos => ?_
    rw [hos]
    exact hone
  | error e =>
    cases e with
    | uncertain error =>
      refine Reports.map_ok quiet_classify fun os r hos => ?_
      rw [hos]
      exact hone
    | unavailable error =>
      dsimp only
      split
      · exact reports_ret hone
      · refine (reports_restSent hmethod).mono fun os _ hos => ?_
        rw [hos]
        exact .inr (.inr (.inr ⟨error, rfl⟩))

theorem reports_sendCommand_delivery (hmethod : request.method ≠ .get) :
    (sendCommand context unsupported operation requestId frame request).run.Reports delivery
      fun os _ => SentOnce os := by
  unfold sendCommand
  split
  · exact reports_sendWebSocket_delivery hmethod
  · exact reports_sendRestOnly_delivery hmethod

theorem quiet_commandSpec_delivery (instrumentId : InstrumentId) :
    (commandSpec context instrumentId).run.Quiet delivery :=
  quiet_of_yields (yields_commandSpec (fun _ _ hq => hq.not_writes) instrumentId)

theorem reports_sendCreateOrder_delivery (order : CreateOrderRequest) :
    (sendCreateOrder context order).run.Reports delivery fun os _ => SentOnce os := by
  unfold sendCreateOrder
  split
  · refine Reports.quiet_attempt (quiet_commandSpec_delivery _) (fun spec => ?_) fun _ => .inl rfl
    dsimp only
    split
    · exact reports_sendRestOnly_delivery (by simp)
    · exact reports_sendCommand_delivery (by simp)
  · refine Reports.quiet_attempt (quiet_commandSpec_delivery _) (fun spec => ?_) fun _ => .inl rfl
    exact reports_sendCommand_delivery (by simp)
  · split
    · exact reports_ret (.inl rfl)
    · have hbody : Yields (fun _ q => ¬ q.Writes) (fun _ => True)
          (mexcCreateBody context mexcCreateOrderObject order) := by
        unfold mexcCreateBody
        refine (yields_commandSpec (fun _ _ hq => hq.not_writes) _).attempt fun spec _ => ?_
        refine (yields_readState fun _ _ hq => hq.not_writes).attempt fun state _ => ?_
        exact yields_ofExcept fun _ _ => trivial
      refine Reports.quiet_attempt (quiet_of_yields hbody) (fun body => ?_) fun _ => .inl rfl
      exact (reports_restSent (by simp)).mono fun os _ hos => .inr (.inl hos)

/-- A create sends its order once. -/
theorem reports_createOrder_delivery (order : CreateOrderRequest) :
    (createOrder context order).run.Reports delivery fun os _ => SentOnce os := by
  have hvalidate : Yields (fun _ q => ¬ q.Writes) (fun _ => True)
      (validateCreateOrder context order) := by
    refine (yields_commandSpec (fun _ _ hq => hq.not_writes) _).attempt fun _ _ => ?_
    exact fun _ _ _ => trivial
  unfold createOrder
  refine Reports.quiet_attempt (quiet_of_yields hvalidate) (fun _ => ?_) fun _ => .inl rfl
  refine Reports.attempt (reports_sendCreateOrder_delivery order) (fun os sent hos => ?_)
    fun os _ hos => hos
  have hfinish : Yields (fun _ q => ¬ q.Writes) (fun _ => True) (do
      cachePendingUnknown (hydrateCreateReceipt sent.1 order) .createOrder order.instrumentId none
        order.clientOrderId
      applyCommandReceipt (hydrateCreateReceipt sent.1 order) sent.2) :=
    (yields_cachePendingUnknown (fun _ _ hq => hq.not_writes) _ _ _ _ _).attempt fun _ _ =>
      yields_applyCommandReceipt (fun _ _ hq => hq.not_writes) _ _
  refine (quiet_of_yields hfinish).mono fun os' _ hos' => ?_
  rw [hos']
  exact hos

end Create

/-! ### At most once -/

section AtMostOnce

variable {venue : Venue} {requests : ℕ → WsRequest} {s s' : TransportState} {n : ℕ}

theorem transportInv_of_reachable (h : (commandTransport venue requests).Reachable s) :
    TransportInv venue requests s := by
  refine System.ReachableWhen.invariant h ?_ fun s _ s' hs _ hstep => hs.step hstep
  rintro s rfl
  exact transportInv_init

/-- The step of another call. -/
theorem done_setCall {m : ℕ} {phase : CallPhase} {result : WsResult} (h : s.calls n = .done result)
    (hm : ∀ result, s.calls m ≠ .done result) : (s.setCall m phase).calls n = .done result := by
  have hne : n ≠ m := by
    rintro rfl
    exact hm result h
  show Function.update s.calls m phase n = _
  rw [Function.update_of_ne hne, h]

theorem calls_failPending (s : TransportState) (k : ℕ) (message : String) :
    (s.failPending venue requests k message).calls = s.calls := by
  unfold TransportState.failPending
  generalize vals (s.sessions k).pending = ns
  induction ns generalizing s with
  | nil => rfl
  | cons n ns ih => exact ih _

theorem calls_text (s : TransportState) (k : ℕ) (payload : Payload) :
    (s.text venue k payload).calls = s.calls := by
  unfold TransportState.text
  dsimp only
  split
  · rfl
  · split <;> rfl

/-- A call that is over stays so. -/
theorem done_of_step {result : WsResult} (h : s.calls n = .done result)
    (hstep : TransportStep venue requests s s') : s'.calls n = .done result := by
  cases hstep with
  | call hcall | reuse hcall _ | connectFails _ hcall _ | sendFails hcall _ | receiveOk hcall _
  | receiveError hcall _ | receiveClosed hcall _ | timeout hcall =>
    exact done_setCall h fun _ hdone => by rw [hcall] at hdone; cases hdone
  | connect hcall _ | send hcall _ | invalidate hcall =>
    refine done_setCall ?_ fun _ hdone => ?_
    · exact h
    · have hdone : s.calls _ = .done _ := hdone
      rw [hcall] at hdone
      cases hdone
  | cancel hcall => exact done_setCall h hcall
  | receive _ _ _ | sent _ _ | ends _ _ | noSenders _ _ _ _ _ => exact h
  | writeFails _ _ reached => cases reached <;> exact h
  | closes _ _ close =>
    show (s.failPending venue requests _ close.message).calls n = _
    rw [calls_failPending, h]
  | text _ _ payload => rw [calls_text, h]

theorem done_of_steps {result : WsResult} (h : s.calls n = .done result)
    (hsteps : Relation.ReflTransGen (TransportStep venue requests) s s') :
    s'.calls n = .done result := by
  induction hsteps with
  | refl => exact h
  | tail _ hstep ih => exact done_of_step ih hstep

theorem reachable_of_steps (h : (commandTransport venue requests).Reachable s)
    (hsteps : Relation.ReflTransGen (TransportStep venue requests) s s') :
    (commandTransport venue requests).Reachable s' := by
  induction hsteps with
  | refl => exact h
  | tail _ hstep ih => exact ih.step (l := ()) hstep

theorem count_written_le (h : TransportInv venue requests s) : s.written.count n ≤ 1 :=
  List.nodup_iff_count_le_one.1 h.once.passed n

theorem count_written_of_unsent (h : TransportInv venue requests s) (hn : (s.calls n).Unsent) :
    s.written.count n = 0 :=
  List.count_eq_zero.2 fun hmem => h.unsent n hn (.inl hmem)

/-- Call `n` is the one by which the command has made its websocket request, if it has made one. -/
def CarriedBy (s : TransportState) (n : ℕ) (os : List Delivery) : Prop :=
  (∀ result, .ws result ∈ os →
    s.calls n = .done result ∨ s.calls n = .idle ∧ ∃ error, result = .error (.unavailable error)) ∧
    ((∀ result, .ws result ∉ os) → s.calls n = .idle)

theorem copies_le {os : List Delivery} (h : TransportInv venue requests s) (hos : SentOnce os)
    (hcarried : CarriedBy s n os) : s.written.count n + os.countP Delivery.isRest ≤ 1 := by
  obtain ⟨hcall, hnone⟩ := hcarried
  have hle := count_written_le (n := n) h
  rcases hos with rfl | rfl | ⟨result, rfl⟩ | ⟨error, rfl⟩
  · exact hle
  · have hidle : s.calls n = .idle := hnone (by simp)
    have hzero : s.written.count n = 0 := count_written_of_unsent h (by rw [hidle]; trivial)
    simp [hzero, Delivery.isRest]
  · simpa [Delivery.isRest] using hle
  · have hunsent : (s.calls n).Unsent := by
      have hws : .ws (.error (.unavailable error)) ∈
          [Delivery.rest, .ws (.error (.unavailable error))] := by simp
      rcases hcall _ hws with hdone | ⟨hidle, -⟩
      · rw [hdone]
        trivial
      · rw [hidle]
        trivial
    rw [count_written_of_unsent h hunsent]
    exact Nat.le_refl 1

/-- **A command is written at most once.**  In every state of the transport, for every call: its
frame has been written once at most; an `Unavailable` one has not been and never will be; a response
has the id of the request; and an order that is created with the call has been sent to the venue
once at most, over the websocket and over REST together. -/
theorem command_written_at_most_once (h : (commandTransport venue requests).Reachable s) (n : ℕ) :
    s.written.count n ≤ 1 ∧
      (∀ error s', s.calls n = .done (.error (.unavailable error)) →
        Relation.ReflTransGen (TransportStep venue requests) s s' → n ∉ s'.written) ∧
      (∀ payload, s.calls n = .done (.ok payload) →
        extractResponseId venue payload = some (requests n).id) ∧
      ∀ context order τ r, (createOrder context order).run.Ends [] τ r →
        CarriedBy s n (τ.filterMap delivery) →
        s.written.count n + (τ.filterMap delivery).countP Delivery.isRest ≤ 1 := by
  have hinv := transportInv_of_reachable h
  refine ⟨count_written_le hinv, fun error s' hdone hsteps => ?_, hinv.done n,
    fun context order τ r hends hcarried => ?_⟩
  · have hinv' := transportInv_of_reachable (reachable_of_steps h hsteps)
    have hunsent : (s'.calls n).Unsent := by
      rw [done_of_steps hdone hsteps]
      trivial
    exact fun hmem => hinv'.unsent n hunsent (.inl hmem)
  · exact copies_le hinv ((reports_createOrder_delivery order).of_ends hends) hcarried

end AtMostOnce

/-! ### One request -/

/-- A request to place an order. -/
def placeOrder : WsRequest := ⟨"binance-1", "binance.create_order_ws", "order.place"⟩

/-- The request has been called, and a session connected for it. -/
def requestedOrder : TransportState :=
  let s : TransportState := ({} : TransportState).setCall 0 (.acquiring 0)
  s.connect.setCall 0 (.requesting 0 s.connected)

/-- Its command is in the channel of the session. -/
def enqueuedOrder : TransportState :=
  (requestedOrder.setSession 0 { requestedOrder.sessions 0 with queue := [0] }).setCall 0
    (.waiting 0 0)

/-- Its frame has been written. -/
def placedOrder : TransportState :=
  (enqueuedOrder.setSession 0
    { enqueuedOrder.sessions 0 with queue := [], sending := some 0 }).sent (fun _ => placeOrder) 0 0

theorem reachable_placedOrder :
    (commandTransport .binance fun _ => placeOrder).Reachable placedOrder := by
  have hinit : (commandTransport .binance fun _ => placeOrder).Reachable {} := .init rfl
  have hcall : TransportStep .binance (fun _ => placeOrder) {} _ := .call (n := 0) rfl
  have hconnect : TransportStep .binance (fun _ => placeOrder) _ requestedOrder :=
    .connect (n := 0) (a := 0) rfl rfl
  have hsend : TransportStep .binance (fun _ => placeOrder) requestedOrder enqueuedOrder :=
    .send (n := 0) (a := 0) (k := 0) rfl rfl
  have hreceive : TransportStep .binance (fun _ => placeOrder) enqueuedOrder _ :=
    .receive (n := 0) (k := 0) rfl rfl rfl
  have hsent : TransportStep .binance (fun _ => placeOrder) _ placedOrder :=
    .sent (n := 0) (k := 0) rfl rfl
  exact ((((hinit.step (l := ()) hcall).step (l := ()) hconnect).step (l := ()) hsend).step
    (l := ()) hreceive).step (l := ()) hsent

/-- A request whose frame has been written. -/
theorem command_written_at_most_once_placed :
    placedOrder.written.count 0 ≤ 1 ∧
      (∀ error s', placedOrder.calls 0 = .done (.error (.unavailable error)) →
        Relation.ReflTransGen (TransportStep .binance fun _ => placeOrder) placedOrder s' →
          0 ∉ s'.written) ∧
      (∀ payload, placedOrder.calls 0 = .done (.ok payload) →
        extractResponseId .binance payload = some placeOrder.id) ∧
      ∀ context order τ r, (createOrder context order).run.Ends [] τ r →
        CarriedBy placedOrder 0 (τ.filterMap delivery) →
        placedOrder.written.count 0 + (τ.filterMap delivery).countP Delivery.isRest ≤ 1 :=
  command_written_at_most_once reachable_placedOrder 0

end BatMarkets
