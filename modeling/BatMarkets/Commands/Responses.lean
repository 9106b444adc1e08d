import BatMarkets.Commands.Transport

/-!
# Calls that wait for a response

A call of `request_text` that has handed its command to the task of a session waits on a oneshot
whose sender the task holds, with the command in its channel, with the one it is writing, or in its
map `pending`.  Here no call is forgotten: as long as nothing has been sent to a waiting call and
its sender has not been dropped, the task of its session runs and holds the command.  A task that
ends, in whichever of its ways, lets go of every sender it holds.  So a call never has to wait for
its timeout because of a session that is over; the timeout is only there for a venue that does not
respond on a session which runs.

## Main results

* `ResponseInv.step` : a step keeps every waiting call with the task of its session.
* `waiting_call_is_kept` : in every run of calls and tasks, a waiting call is with a task that runs
  or has been answered, and a session that has ended never runs again.
-/

namespace BatMarkets

open CommandM Ordered Std Transition Wire

section Responses

variable {venue : Venue} {requests : ℕ → WsRequest} {s s' : TransportState} {n k : ℕ}

/-- The task holds the sender of the call. -/
def CommandWsSession.Has (requests : ℕ → WsRequest) (session : CommandWsSession) (n : ℕ) : Prop :=
  session.sending = some n ∨ n ∈ session.queue ∨ session.pending[(requests n).id]? = some n

/-- The session is connected, and its task holds the sender of the call. -/
def TransportState.Keeps (requests : ℕ → WsRequest) (s : TransportState) (k n : ℕ) : Prop :=
  (s.sessions k).running = true ∧ (s.sessions k).Has requests n

/-- Sessions are used once they have been connected, and a call that waits for its response is with
the task of its session. -/
structure ResponseInv (requests : ℕ → WsRequest) (s : TransportState) : Prop where
  current : ∀ k, s.session = some k → k < s.connected
  uses : ∀ n k, (s.calls n).Uses k → k < s.connected
  kept : ∀ n a k, s.calls n = .waiting a k → s.oneshots n = .pending → s.Keeps requests k n

theorem responseInv_init : ResponseInv requests {} where
  current := fun _ h => by cases h
  uses := fun _ _ h => h.elim
  kept := fun _ _ _ h => by cases h

/-! ### The oneshots -/

/-- Nothing has been sent to a call to which nothing has been sent later, and its sender has not
been dropped. -/
theorem pending_of_dropSenders {calls : List ℕ} (h : (s.dropSenders calls).oneshots n = .pending) :
    s.oneshots n = .pending ∧ n ∉ calls := by
  unfold TransportState.dropSenders at h
  dsimp only at h
  split at h
  · next hpending =>
    split at h
    · cases h
    · next hmem => exact ⟨hpending, hmem⟩
  · next hpending => exact absurd h hpending

theorem pending_of_respond {m : ℕ} {result : WsResult}
    (h : (s.respond m result).oneshots n = .pending) : s.oneshots n = .pending ∧ n ≠ m := by
  unfold TransportState.respond at h
  dsimp only at h
  split at h
  · next hpending =>
    split at h
    · cases h
    · next hne => exact ⟨hpending, hne⟩
  · next hpending => exact absurd h hpending

theorem sessions_failPending (s : TransportState) (k : ℕ) (message : String) :
    (s.failPending venue requests k message).sessions = s.sessions := by
  unfold TransportState.failPending
  generalize vals (s.sessions k).pending = ns
  induction ns generalizing s with
  | nil => rfl
  | cons m ns ih => exact ih _

theorem connected_failPending (s : TransportState) (k : ℕ) (message : String) :
    (s.failPending venue requests k message).connected = s.connected := by
  unfold TransportState.failPending
  generalize vals (s.sessions k).pending = ns
  induction ns generalizing s with
  | nil => rfl
  | cons m ns ih => exact ih _

/-- What a task that ends lets go of. -/
theorem CommandWsSession.Has.mem_dropped {session : CommandWsSession} (h : session.Has requests n) :
    n ∈ session.sending.toList ++ session.queue ++ vals session.pending := by
  rcases h with h | h | h
  · simp [h]
  · simp [h]
  · exact List.mem_append_right _ (mem_vals.2 ⟨_, h⟩)

/-! ### The tasks -/

theorem keeps_setSession_of_ne {session : CommandWsSession} {k' : ℕ} (hne : k' ≠ k)
    (h : s.Keeps requests k' n) : (s.setSession k session).Keeps requests k' n := by
  unfold TransportState.Keeps TransportState.setSession
  dsimp only
  rw [Function.update_of_ne hne]
  exact h

theorem keeps_setSession_self {session : CommandWsSession} (hrunning : session.running = true)
    (h : session.Has requests n) : (s.setSession k session).Keeps requests k n := by
  unfold TransportState.Keeps TransportState.setSession
  dsimp only
  rw [Function.update_self]
  exact ⟨hrunning, h⟩

/-- The session of a task changes, but not the calls it holds. -/
theorem keeps_setSession {session : CommandWsSession} {k' : ℕ} (hrunning : session.running = true)
    (hhas : (s.sessions k).Has requests n → session.Has requests n)
    (h : s.Keeps requests k' n) : (s.setSession k session).Keeps requests k' n := by
  by_cases heq : k' = k
  · subst heq
    exact keeps_setSession_self hrunning (hhas h.2)
  · exact keeps_setSession_of_ne heq h

/-- A call to which a task that has ended could have answered was not with that task. -/
theorem keeps_endSession {k' : ℕ} (hpending : (s.endSession k).oneshots n = .pending)
    (h : s.Keeps requests k' n) : (s.endSession k).Keeps requests k' n := by
  obtain ⟨-, hmem⟩ := pending_of_dropSenders hpending
  have hne : k' ≠ k := by
    rintro rfl
    exact hmem h.2.mem_dropped
  exact keeps_setSession_of_ne hne h

/-- The frame of a command is on the websocket, and its call is with the task still. -/
theorem keeps_sent {m k' : ℕ} (hrunning : (s.sessions k).running = true)
    (hsending : (s.sessions k).sending = some m)
    (hpending : (s.sent requests k m).oneshots n = .pending) (h : s.Keeps requests k' n) :
    (s.sent requests k m).Keeps requests k' n := by
  obtain ⟨-, hmem⟩ := pending_of_dropSenders hpending
  refine keeps_setSession hrunning (fun hhas => ?_) h
  by_cases heq : n = m
  · subst heq
    refine .inr (.inr ?_)
    rw [lookup_insert, if_pos rfl]
  · have hhas : (s.sessions k).Has requests n := hhas
    rcases hhas with hhas | hhas | hhas
    · rw [hsending] at hhas
      exact absurd (Option.some.inj hhas).symm heq
    · exact .inr (.inl hhas)
    · refine .inr (.inr ?_)
      -- were the ids the same, the older command would have been forgotten
      have hids : (requests m).id ≠ (requests n).id := by
        intro hids
        refine hmem ?_
        rw [hids, hhas]
        exact List.mem_singleton_self n
      rw [lookup_insert, if_neg hids]
      exact hhas

theorem keeps_text {k' : ℕ} {payload : Payload} (hrunning : (s.sessions k).running = true)
    (hpending : (s.text venue k payload).oneshots n = .pending) (h : s.Keeps requests k' n) :
    (s.text venue k payload).Keeps requests k' n := by
  unfold TransportState.text at hpending ⊢
  dsimp only at hpending ⊢
  cases hid : extractResponseId venue payload with
  | none => exact h
  | some id =>
    rw [hid] at hpending
    dsimp only at hpending ⊢
    cases hm : (s.sessions k).pending[id]? with
    | none => exact h
    | some m =>
      rw [hm] at hpending
      dsimp only at hpending ⊢
      have hne : n ≠ m := (pending_of_respond hpending).2
      refine keeps_setSession (s := s.respond m (.ok payload)) hrunning (fun hhas => ?_) h
      rcases hhas with hhas | hhas | hhas
      · exact .inl hhas
      · exact .inr (.inl hhas)
      · refine .inr (.inr ?_)
        have hhas : (s.sessions k).pending[(requests n).id]? = some n := hhas
        have hids : id ≠ (requests n).id := by
          rintro rfl
          rw [hhas] at hm
          exact hne (Option.some.inj hm)
        dsimp only
        rw [lookup_erase, if_neg hids]
        exact hhas

theorem pending_of_text {payload : Payload}
    (h : (s.text venue k payload).oneshots n = .pending) : s.oneshots n = .pending := by
  unfold TransportState.text at h
  dsimp only at h
  split at h
  · exact h
  · split at h
    · exact h
    · exact (pending_of_respond h).1

/-! ### One step -/

/-- A step of a call that touches nothing but the call, which does not begin to wait. -/
theorem ResponseInv.setCall (h : ResponseInv requests s) {phase : CallPhase}
    (huses : ∀ k, phase.Uses k → k < s.connected) (hphase : ∀ a k, phase ≠ .waiting a k) :
    ResponseInv requests (s.setCall n phase) where
  current := h.current
  uses := by
    intro m k hm
    by_cases heq : m = n
    · subst heq
      exact huses k (by simpa [TransportState.setCall] using hm)
    · exact h.uses m k (by simpa [TransportState.setCall, heq] using hm)
  kept := by
    intro m a k hm hpending
    by_cases heq : m = n
    · subst heq
      exact absurd (by simpa [TransportState.setCall] using hm) (hphase a k)
    · exact h.kept m a k (by simpa [TransportState.setCall, heq] using hm) hpending

/-- A call stops waiting, or is about to use the session it has. -/
theorem ResponseInv.leave (h : ResponseInv requests s) {phase : CallPhase}
    (huses : ∀ k, phase.Uses k → (s.calls n).Uses k) (hphase : ∀ a k, phase ≠ .waiting a k) :
    ResponseInv requests (s.setCall n phase) :=
  h.setCall (fun k hk => h.uses n k (huses k hk)) hphase

/-- A step of the task of a session. -/
theorem ResponseInv.task (h : ResponseInv requests s) (hcalls : s'.calls = s.calls)
    (hsession : s'.session = s.session) (hconnected : s'.connected = s.connected)
    (hpending : ∀ n, s'.oneshots n = .pending → s.oneshots n = .pending)
    (hkeeps : ∀ n k, s'.oneshots n = .pending → s.Keeps requests k n → s'.Keeps requests k n) :
    ResponseInv requests s' where
  current := by
    rw [hsession, hconnected]
    exact h.current
  uses := by
    rw [hcalls, hconnected]
    exact h.uses
  kept := by
    intro n a k hn hopen
    rw [hcalls] at hn
    exact hkeeps n k hopen (h.kept n a k hn (hpending n hopen))

theorem ResponseInv.endSession (h : ResponseInv requests s) (k : ℕ) :
    ResponseInv requests (s.endSession k) :=
  h.task rfl rfl rfl (fun _ hn => (pending_of_dropSenders hn).1) fun _ _ => keeps_endSession

theorem ResponseInv.failPending (h : ResponseInv requests s) (k : ℕ) (message : String) :
    ResponseInv requests (s.failPending venue requests k message) := by
  unfold TransportState.failPending
  generalize vals (s.sessions k).pending = ns
  induction ns generalizing s with
  | nil => exact h
  | cons m ns ih =>
    exact ih (h.task rfl rfl rfl (fun _ hn => (pending_of_respond hn).1) fun _ _ _ hk => hk)

theorem ResponseInv.text (h : ResponseInv requests s) (hrunning : (s.sessions k).running = true)
    (payload : Payload) : ResponseInv requests (s.text venue k payload) := by
  have hsame : (s.text venue k payload).session = s.session ∧
      (s.text venue k payload).connected = s.connected := by
    unfold TransportState.text
    dsimp only
    split
    · exact ⟨rfl, rfl⟩
    · split <;> exact ⟨rfl, rfl⟩
  exact h.task (calls_text s k payload) hsame.1 hsame.2 (fun _ hn => pending_of_text hn)
    fun _ _ => keeps_text hrunning

/-- A session is connected under a number that no call and no task has used. -/
theorem ResponseInv.connect (h : ResponseInv requests s) : ResponseInv requests s.connect where
  current := by
    intro k hk
    cases hk
    exact Nat.lt_succ_self _
  uses := fun n k hk => Nat.lt_succ_of_lt (h.uses n k hk)
  kept := by
    intro n a k hn hpending
    have hn : s.calls n = .waiting a k := hn
    have hlt : k < s.connected := by
      refine h.uses n k ?_
      rw [hn]
      rfl
    exact keeps_setSession_of_ne hlt.ne (h.kept n a k hn hpending)

theorem ResponseInv.invalidate (h : ResponseInv requests s) (k : ℕ) :
    ResponseInv requests (s.invalidateSession k) where
  current := by
    intro k' hk'
    unfold TransportState.invalidateSession at hk'
    dsimp only at hk'
    split at hk'
    · cases hk'
    · exact h.current k' hk'
  uses := h.uses
  kept := h.kept

/-- A call hands over its command, and begins to wait. -/
theorem ResponseInv.send {a : ℕ} (h : ResponseInv requests s)
    (hcall : s.calls n = .requesting a k) (hrunning : (s.sessions k).running = true) :
    ResponseInv requests ((s.setSession k
      { s.sessions k with queue := (s.sessions k).queue ++ [n] }).setCall n (.waiting a k)) := by
  have hqueued : ResponseInv requests (s.setSession k
      { s.sessions k with queue := (s.sessions k).queue ++ [n] }) := by
    refine h.task rfl rfl rfl (fun _ hm => hm) fun m k' _ => keeps_setSession hrunning fun hhas => ?_
    rcases hhas with hhas | hhas | hhas
    · exact .inl hhas
    · exact .inr (.inl (List.mem_append_left _ hhas))
    · exact .inr (.inr hhas)
  refine ⟨hqueued.current, fun m k' hm => ?_, fun m a' k' hm hpending => ?_⟩
  · by_cases heq : m = n
    · subst heq
      have hk : k = k' := by simpa [TransportState.setCall, CallPhase.Uses] using hm
      refine h.uses m k' ?_
      rw [hcall]
      exact hk
    · exact hqueued.uses m k' (by simpa [TransportState.setCall, heq] using hm)
  · by_cases heq : m = n
    · subst heq
      have hm : CallPhase.waiting a k = .waiting a' k' := by
        simpa [TransportState.setCall] using hm
      cases hm
      exact keeps_setSession_self hrunning (.inr (.inl (by simp)))
    · exact hqueued.kept m a' k' (by simpa [TransportState.setCall, heq] using hm) hpending

theorem not_uses_afterFailure (a : ℕ) (error : CommandWsRequestError) :
    ¬ (afterFailure a error).Uses k := by
  cases error with
  | unavailable e =>
    unfold afterFailure
    dsimp only
    split <;> exact fun huses => huses
  | uncertain e => exact fun huses => huses

/-- **One step.** -/
theorem ResponseInv.step (h : ResponseInv requests s)
    (hstep : TransportStep venue requests s s') : ResponseInv requests s' := by
  cases hstep with
  | call hcall => exact h.leave (fun _ hk => hk.elim) fun _ _ hphase => by cases hphase
  | @reuse n a k hcall hsession =>
    refine h.setCall (fun k' hk' => ?_) fun _ _ hphase => by cases hphase
    cases hk'
    exact h.current k hsession
  | connect hcall hsession =>
    refine h.connect.setCall (fun k' hk' => ?_) fun _ _ hphase => by cases hphase
    cases hk'
    exact Nat.lt_succ_self _
  | connectFails error hcall hsession =>
    exact h.leave (fun _ hk => hk.elim) fun _ _ hphase => by cases hphase
  | send hcall hrunning => exact h.send hcall hrunning
  | sendFails hcall hrunning =>
    exact h.leave (fun _ hk => by rw [hcall]; exact hk) fun _ _ hphase => by cases hphase
  | receiveOk hcall hsent => exact h.leave (fun _ hk => hk.elim) fun _ _ hphase => by cases hphase
  | receiveError hcall hsent | receiveClosed hcall hclosed | timeout hcall =>
    exact h.leave (fun _ hk => by rw [hcall]; exact hk) fun _ _ hphase => by cases hphase
  | @invalidate n a k error hcall =>
    refine (h.invalidate k).leave (fun _ hk => (not_uses_afterFailure a error hk).elim) ?_
    intro a' k' hphase
    -- a call that tries again uses no session yet
    have huses : (afterFailure a error).Uses k' := by
      rw [hphase]
      rfl
    exact not_uses_afterFailure a error huses
  | cancel hcall => exact h.leave (fun _ hk => hk.elim) fun _ _ hphase => by cases hphase
  | @receive k n rest hrunning hsending hqueue =>
    refine h.task rfl rfl rfl (fun _ hm => hm) fun m k' _ =>
      keeps_setSession hrunning fun hhas => ?_
    -- the call is still in the session: it has gone from the queue to the socket
    rcases hhas with hhas | hhas | hhas
    · rw [hsending] at hhas
      cases hhas
    · rw [hqueue] at hhas
      rcases List.mem_cons.1 hhas with rfl | hrest
      · exact .inl rfl
      · exact .inr (.inl hrest)
    · exact .inr (.inr hhas)
  | sent hrunning hsending =>
    exact h.task rfl rfl rfl (fun _ hm => (pending_of_dropSenders hm).1) fun _ _ =>
      keeps_sent hrunning hsending
  | @writeFails k n hrunning hsending reached =>
    have hreached : ResponseInv requests (if reached then s.write n else s) := by
      cases reached with
      | false => exact h
      | true => exact ⟨h.current, h.uses, h.kept⟩
    exact hreached.endSession k
  | ends hrunning hsending => exact h.endSession _
  | noSenders hrunning hsending hqueue hsession hcalls => exact h.endSession _
  | closes hrunning hsending close => exact (h.failPending _ _).endSession _
  | text hrunning hsending payload => exact h.text hrunning payload

/-! ### Sessions that have ended -/

/-- A session that has been connected, and whose task has ended. -/
def TransportState.Ended (s : TransportState) (k : ℕ) : Prop :=
  k < s.connected ∧ (s.sessions k).running = false

theorem ended_setSession {session : CommandWsSession} {k' : ℕ} (h : s.Ended k)
    (hrunning : k' = k → session.running = false) : (s.setSession k' session).Ended k := by
  refine ⟨h.1, ?_⟩
  unfold TransportState.setSession
  dsimp only
  by_cases heq : k = k'
  · subst heq
    rw [Function.update_self]
    exact hrunning rfl
  · rw [Function.update_of_ne heq]
    exact h.2

/-- A task that runs changes its session. -/
theorem ended_setSession_of_running {session : CommandWsSession} {k' : ℕ} (h : s.Ended k)
    (hrunning : (s.sessions k').running = true) : (s.setSession k' session).Ended k := by
  refine ended_setSession h ?_
  rintro rfl
  exact absurd (h.2.symm.trans hrunning) Bool.false_ne_true

theorem ended_endSession {k' : ℕ} (h : s.Ended k) : (s.endSession k').Ended k :=
  ended_setSession (s := s.dropSenders _) h fun _ => rfl

/-- A task that has ended stays so; a new session has a new number. -/
theorem ended_of_step (h : s.Ended k) (hstep : TransportStep venue requests s s') :
    s'.Ended k := by
  cases hstep with
  | call _ | reuse _ _ | connectFails _ _ _ | sendFails _ _ | receiveOk _ _ | receiveError _ _
  | receiveClosed _ _ | timeout _ | invalidate _ | cancel _ => exact h
  | connect hcall hsession =>
    refine ⟨Nat.lt_succ_of_lt h.1, ?_⟩
    show (Function.update s.sessions s.connected _ k).running = false
    rw [Function.update_of_ne h.1.ne]
    exact h.2
  | send hcall hrunning => exact ended_setSession_of_running h hrunning
  | receive hrunning _ _ => exact ended_setSession_of_running h hrunning
  | @sent k' n hrunning _ =>
    exact ended_setSession_of_running
      (s := (s.write n).dropSenders (s.sessions k').pending[(requests n).id]?.toList) h hrunning
  | writeFails _ _ reached => cases reached <;> exact ended_endSession h
  | ends _ _ | noSenders _ _ _ _ _ => exact ended_endSession h
  | @closes k' _ _ close =>
    have hfailed : (s.failPending venue requests k' close.message).Ended k := by
      refine ⟨?_, ?_⟩
      · rw [connected_failPending]
        exact h.1
      · rw [sessions_failPending]
        exact h.2
    exact ended_endSession hfailed
  | @text k' hrunning _ payload =>
    unfold TransportState.text
    dsimp only
    split
    · exact h
    · split
      · exact h
      · exact ended_setSession_of_running (s := s.respond _ _) h hrunning

theorem ended_of_steps (h : s.Ended k)
    (hsteps : Relation.ReflTransGen (TransportStep venue requests) s s') : s'.Ended k := by
  induction hsteps with
  | refl => exact h
  | tail _ hstep ih => exact ended_of_step ih hstep

/-! ### Every run -/

theorem responseInv_of_reachable (h : (commandTransport venue requests).Reachable s) :
    ResponseInv requests s := by
  refine System.ReachableWhen.invariant h ?_ fun s _ s' hs _ hstep => hs.step hstep
  rintro s rfl
  exact responseInv_init

/-- What has been sent to a call is a response to its request, or leaves it uncertain; where nothing
has been sent, the sender has been dropped. -/
theorem answered_of_not_pending (h : (commandTransport venue requests).Reachable s)
    (hn : s.oneshots n ≠ .pending) :
    s.oneshots n = .closed ∨
      ∃ result, s.oneshots n = .sent result ∧ AnswersRequest venue (requests n) result := by
  cases hresult : s.oneshots n with
  | pending => exact absurd hresult hn
  | closed => exact .inl rfl
  | sent result => exact .inr ⟨result, rfl, (transportInv_of_reachable h).answers n result hresult⟩

/-- **No waiting call is forgotten.**  A call that waits on a session either is with the task of the
session, which runs, or its sender has been dropped, or it has been sent what its request is due.  A
session that has ended never runs again; so from its end on, every call that waits on it has its
answer without the timeout. -/
theorem waiting_call_is_kept (h : (commandTransport venue requests).Reachable s) :
    (∀ n a k, s.calls n = .waiting a k →
      s.Keeps requests k n ∨ s.oneshots n = .closed ∨
        ∃ result, s.oneshots n = .sent result ∧ AnswersRequest venue (requests n) result) ∧
    ∀ k, k < s.connected → (s.sessions k).running = false →
      ∀ s', Relation.ReflTransGen (TransportStep venue requests) s s' →
        (s'.sessions k).running = false ∧
          ∀ n a, s'.calls n = .waiting a k → s'.oneshots n ≠ .pending := by
  have hinv := responseInv_of_reachable h
  refine ⟨fun n a k hwaiting => ?_, fun k hlt hrunning s' hsteps => ?_⟩
  · by_cases hpending : s.oneshots n = .pending
    · exact .inl (hinv.kept n a k hwaiting hpending)
    · exact .inr (answered_of_not_pending h hpending)
  · have hended : s'.Ended k := ended_of_steps ⟨hlt, hrunning⟩ hsteps
    refine ⟨hended.2, fun n a hn hpending => ?_⟩
    have hkept := (responseInv_of_reachable (reachable_of_steps h hsteps)).kept n a k hn hpending
    exact absurd (hended.2.symm.trans hkept.1) Bool.false_ne_true

/-- The peer closes the connection on which the response is awaited. -/
def disconnectedOrder : TransportState :=
  (placedOrder.failPending .binance (fun _ => placeOrder) 0
    SessionClose.closedByPeer.message).endSession 0

theorem reachable_disconnectedOrder :
    (commandTransport .binance fun _ => placeOrder).Reachable disconnectedOrder := by
  have hcloses : TransportStep .binance (fun _ => placeOrder) placedOrder disconnectedOrder :=
    .closes (k := 0) rfl rfl .closedByPeer
  exact reachable_placedOrder.step (l := ()) hcloses

/-- The call of a request whose frame has been written, before and after the connection is
closed. -/
theorem waiting_call_is_kept_placed :
    (placedOrder.calls 0 = .waiting 0 0 ∧
      (placedOrder.Keeps (fun _ => placeOrder) 0 0 ∨ placedOrder.oneshots 0 = .closed ∨
        ∃ result, placedOrder.oneshots 0 = .sent result ∧
          AnswersRequest .binance placeOrder result)) ∧
    disconnectedOrder.calls 0 = .waiting 0 0 ∧
      ∀ s', Relation.ReflTransGen (TransportStep .binance fun _ => placeOrder)
        disconnectedOrder s' →
          (s'.sessions 0).running = false ∧
            ∀ n a, s'.calls n = .waiting a 0 → s'.oneshots n ≠ .pending :=
  ⟨⟨rfl, (waiting_call_is_kept reachable_placedOrder).1 0 0 0 rfl⟩, rfl,
    (waiting_call_is_kept reachable_disconnectedOrder).2 0 (by decide) rfl⟩

end Responses

end BatMarkets
