import BatMarkets.Interleaving.Pool
import BatMarkets.Interleaving.Tickets
import BatMarkets.Runtime.Shared

/-!
# Publication by concurrent calls

Any number of calls of the shared state run concurrently.  Each compares the health report before
and after its closure and picks its events under the lock, but sends them after the lock is
released, so the sends of two calls can come in the opposite order of their closures.

`publicationSystem` runs any calls over the shared state together with ghost state: the events
applied so far, and how many closures have run.  The count in which a call runs its closure is its
turn; what all calls have left to send is a queue in the order of their turns.

## Main results

* `publication_follows_application` : in the runs in which sends of one kind are made in the order
  of the closures (`SendsInTurn`), whenever no call is in progress, the health watch agrees with
  the state, and exactly the events applied have been published, in order.
* `writers_publish_in_opposite_order` : two writes leave a stale report in the watch.
-/

namespace BatMarkets

open Interleaving Transition SharedM

/-! ### The calls, as sequences of sends -/

/-- The calls that run concurrently. -/
inductive SharedTask
  | write (f : EngineM Unit)
  | applyPublicEvents (events : List PublicLaneEvent)
  | applyPrivateEvents (events : List PrivateLaneEvent)

/-- The program of the call, whose result does not matter here. -/
def SharedTask.prog : SharedTask → SharedM Unit
  | .write f => do let _ ← BatMarkets.write (.mutate f); return ()
  | .applyPublicEvents events => do let _ ← BatMarkets.applyPublicEvents events; return ()
  | .applyPrivateEvents events => do let _ ← BatMarkets.applyPrivateEvents events; return ()

/-- The sends of a call, one after the other. -/
def sendAll : List Send → SharedM Unit
  | [] => .ret ()
  | x :: xs => .call (.send x) fun _ => sendAll xs

/-- What is sent when the health report changes. -/
def healthSends (before after : HealthReport) : List Send :=
  if shouldPublishHealthChange before after then [.health after, .notifyHealth ⟨before, after⟩]
  else []

namespace Closure

/-- The events that are sent when the closure succeeds. -/
def eventSends : Closure → List Send
  | .mutate _ => []
  | .publicBatch events => events.map .publicEvent
  | .privateBatch events => events.map .privateEvent

/-- What is sent after the closure has run. -/
def sends (c : Closure) : SharedReply (.locked c) → List Send
  | (before, after, .ok ()) => healthSends before after ++ c.eventSends
  | (before, after, .error (.error _)) => healthSends before after
  | (_, _, .error .panic) => []

/-- The program of a call: run the closure, then send. -/
def call (c : Closure) : SharedM Unit := .call (.locked c) fun r => sendAll (c.sends r)

end Closure

theorem sendAll_bind (xs ys : List Send) :
    (sendAll xs >>= fun _ => sendAll ys) = sendAll (xs ++ ys) := by
  induction xs with
  | nil => rfl
  | cons x xs ih => simp only [sendAll, Prog.call_bind, ih, List.cons_append]

theorem forM_send {ε : Type} (f : ε → Send) (events : List ε) :
    (forM events fun event => send (f event)) = sendAll (events.map f) := by
  induction events with
  | nil => rfl
  | cons event events ih =>
    simp only [List.forM_cons, List.map_cons, sendAll, Prog.perform_bind, ih]

theorem publishHealth_eq (before after : HealthReport) :
    publishHealth before after = sendAll (healthSends before after) := by
  unfold publishHealth healthSends
  split <;> rfl

/-- A write followed by the events of its closure, if it succeeds, is the call of the closure. -/
theorem write_bind (c : Closure) {g : Except Failure Unit → SharedM Unit}
    (hok : g (.ok ()) = sendAll c.eventSends) (herror : ∀ e, g (.error e) = sendAll []) :
    (write c >>= g) = c.call := by
  simp only [write, locked, Closure.call, Prog.perform_bind, Prog.call_bind, Prog.call.injEq,
    heq_eq_eq, true_and]
  refine funext fun outcome => ?_
  obtain ⟨before, after, result⟩ := outcome
  cases result with
  | ok u =>
    simp only [Prog.pure_eq, publishHealth_eq, Prog.ret_bind, LawfulMonad.bind_assoc, hok]
    exact sendAll_bind _ _
  | error failure =>
    cases failure with
    | error e =>
      simp only [Prog.pure_eq, publishHealth_eq, Prog.ret_bind, LawfulMonad.bind_assoc, herror]
      exact (sendAll_bind _ _).trans (by rw [List.append_nil]; rfl)
    | panic => exact herror .panic

/-- A call sends nothing at all, or runs its closure and sends what goes with the result. -/
theorem SharedTask.prog_cases (task : SharedTask) :
    task.prog = sendAll [] ∨ ∃ c : Closure, task.prog = c.call := by
  cases task with
  | write f => exact .inr ⟨.mutate f, write_bind _ rfl fun _ => rfl⟩
  | applyPublicEvents events =>
    by_cases hne : events = []
    · exact .inl (by simp only [prog, BatMarkets.applyPublicEvents, hne, ↓reduceIte]; rfl)
    · refine .inr ⟨.publicBatch events, ?_⟩
      simp only [prog, BatMarkets.applyPublicEvents, hne, ↓reduceIte, LawfulMonad.bind_assoc]
      refine write_bind _ ?_ fun _ => rfl
      simp only [forM_send, LawfulMonad.bind_assoc]
      exact (sendAll_bind _ []).trans (by rw [List.append_nil]; rfl)
  | applyPrivateEvents events =>
    by_cases hne : events = []
    · exact .inl (by simp only [prog, BatMarkets.applyPrivateEvents, hne, ↓reduceIte]; rfl)
    · refine .inr ⟨.privateBatch events, ?_⟩
      simp only [prog, BatMarkets.applyPrivateEvents, hne, ↓reduceIte, LawfulMonad.bind_assoc]
      refine write_bind _ ?_ fun _ => rfl
      simp only [forM_send, LawfulMonad.bind_assoc]
      exact (sendAll_bind _ []).trans (by rw [List.append_nil]; rfl)

/-! ### The runs -/

/-- The shared state, the events applied so far, and how many closures have run. -/
structure PublishingState extends SharedState where
  appliedPublic : List PublicLaneEvent := []
  appliedPrivate : List PrivateLaneEvent := []
  closures : ℕ := 0

/-- The events a fold applies before one of them fails. -/
def appliedBefore (s : EngineState) : List PublicLaneEvent → List PublicLaneEvent
  | [] => []
  | event :: events =>
    match (EngineState.applyPublicEvent event).run s with
    | .ok _ s' => event :: appliedBefore s' events
    | .error _ _ => []

namespace Closure

/-- The public events a closure applies. A batch that returns an error applies none, and one that
panics those before the panic. -/
def appliedPublic (s : EngineState) : Closure → List PublicLaneEvent
  | .publicBatch events =>
    match (applyPublicBatch events).run s with
    | .error (.error _) _ => []
    | _ => appliedBefore s events
  | _ => []

/-- The private events a closure applies. -/
def appliedPrivate : Closure → List PrivateLaneEvent
  | .privateBatch events => events
  | _ => []

end Closure

/-- The answer to a step, and what it leaves. -/
def PublishingState.reply : (q : SharedCall) → PublishingState → SharedReply q × PublishingState
  | .locked c, w =>
    let answer := SharedState.reply (.locked c) w.toSharedState
    (answer.1, { w with
      toSharedState := answer.2
      appliedPublic := w.appliedPublic ++ c.appliedPublic w.state
      appliedPrivate := w.appliedPrivate ++ c.appliedPrivate
      closures := w.closures + 1 })
  | .send x, w => ((), { w with toSharedState := w.toSharedState.publish x })

/-- Concurrent calls of the shared state. -/
def publicationInterpretation :
    Interpretation PublishingState SharedCall SharedReply Unit where
  start t := ∃ task : SharedTask, t = task.prog
  serve w q r w' := PublishingState.reply q w = (r, w')
  env _ _ := False

/-- Calls over the state and its channels. -/
abbrev PublicationPool := Pool PublishingState SharedCall SharedReply Unit

/-- At first the watch holds the health report of the state, and no event has been applied or
published. -/
structure PublishingState.Fresh (w : PublishingState) : Prop where
  healthWatch : w.healthWatch = w.state.health
  publicEvents : w.publicEvents = []
  privateEvents : w.privateEvents = []
  appliedPublic : w.appliedPublic = []
  appliedPrivate : w.appliedPrivate = []

/-- The runs of any number of calls, from a state whose health has just been published. -/
abbrev publicationSystem : System PublicationPool Action :=
  publicationInterpretation.system PublishingState.Fresh

/-! ### Sends in turn -/

/-- The fields of a health report whose change is published. -/
def HealthReport.published (h : HealthReport) :=
  (h.status, h.restOk, h.wsPublicOk, h.wsPrivateOk, h.clockSkewMs, h.reconnectCount,
    h.stateDivergence, h.degradedReason)

theorem shouldPublishHealthChange_eq_false {before after : HealthReport} :
    shouldPublishHealthChange before after = false ↔ before.published = after.published := by
  simp [shouldPublishHealthChange, HealthReport.published, and_assoc]

/-- What is left to send of a call whose closure has run. -/
def outstanding : SharedM Unit → List Send
  | .ret _ => []
  | .call (.locked _) _ => []
  | .call (.send x) k => x :: outstanding (k ())

@[simp] theorem outstanding_sendAll (xs : List Send) : outstanding (sendAll xs) = xs := by
  induction xs with
  | nil => rfl
  | cons x xs ih => rw [sendAll, outstanding, ih]

/-- The turn of a call: how many closures had run before its own. -/
def closureTurn : List (PublishingState × Event SharedCall SharedReply) → ℕ
  | [] => 0
  | (w, ⟨.locked _, _⟩) :: _ => w.closures
  | (_, ⟨.send _, _⟩) :: log => closureTurn log

/-- The health report that is sent, if it is one. -/
def Send.toReport : Send → Option HealthReport
  | .health report => some report
  | _ => none

/-- The public event that is sent, if it is one. -/
def Send.toPublicEvent : Send → Option PublicLaneEvent
  | .publicEvent event => some event
  | _ => none

/-- The private event that is sent, if it is one. -/
def Send.toPrivateEvent : Send → Option PrivateLaneEvent
  | .privateEvent event => some event
  | _ => none

/-- A send is made in turn, given what is left to calls of earlier and of later turns: no earlier
call has an event of the same lane left; and no earlier call has a health report left, or a later
one has, which will replace them all.  Notifications may come in any order. -/
def Send.InTurn (earlier later : List Send) : Send → Prop
  | .health _ => (∀ x ∈ earlier, x.toReport = none) ∨ ∃ x ∈ later, x.toReport.isSome
  | .notifyHealth _ => True
  | .publicEvent _ => ∀ x ∈ earlier, x.toPublicEvent = none
  | .privateEvent _ => ∀ x ∈ earlier, x.toPrivateEvent = none

/-- What the calls have left to send whose closures ran before the given turn. -/
def leftEarlier (p : PublicationPool) (turn : ℕ) : List Send :=
  (p.threads.filter (closureTurn ·.log < turn)).flatMap (outstanding ·.prog)

/-- What the calls have left to send whose closures ran after the given turn. -/
def leftLater (p : PublicationPool) (turn : ℕ) : List Send :=
  (p.threads.filter (turn < closureTurn ·.log)).flatMap (outstanding ·.prog)

/-- A closure that panics has applied no event and changed no published field. -/
def Closure.PanicsQuietly (s : EngineState) (c : Closure) : Prop :=
  resultOf (c.body.run s) = .error .panic → c.appliedPublic s = [] ∧
    s.health.published = (stateAfter (c.body.run s)).health.published

/-- The schedule under which publication follows application: sends are made in turn, and a closure
that panics leaves nothing to be published. -/
def SendsInTurn (p : PublicationPool) : Action → Prop
  | .run i =>
    match p.threads[i]? with
    | some ⟨_, .call (.locked c) _⟩ => c.PanicsQuietly p.world.state
    | some ⟨log, .call (.send x) _⟩ =>
      x.InTurn (leftEarlier p (closureTurn log)) (leftLater p (closureTurn log))
    | _ => True
  | _ => True

theorem Send.InTurn.mono {earlier earlier' later later' : List Send} {x : Send}
    (h : x.InTurn earlier later) (hearlier : earlier' ⊆ earlier) (hlater : later ⊆ later') :
    x.InTurn earlier' later' := by
  cases x with
  | health report =>
    refine h.imp (fun h x hx => h x (hearlier hx)) ?_
    rintro ⟨x, hx, hsome⟩
    exact ⟨x, hlater hx, hsome⟩
  | notifyHealth notification => trivial
  | publicEvent event => exact fun x hx => h x (hearlier hx)
  | privateEvent event => exact fun x hx => h x (hearlier hx)

/-! ### How far publication is behind -/

/-- Publication is behind application by a queue of sends: with their events the published ones
are the applied ones, and with their last health report the watch agrees with the state. -/
structure Behind (w : PublishingState) (queue : List Send) : Prop where
  health : ((queue.filterMap Send.toReport).getLast?.getD w.healthWatch).published =
    w.state.health.published
  publicEvents : w.appliedPublic = w.publicEvents ++ queue.filterMap Send.toPublicEvent
  privateEvents : w.appliedPrivate = w.privateEvents ++ queue.filterMap Send.toPrivateEvent

/-- Publication has caught up with application. -/
structure CaughtUp (w : PublishingState) : Prop where
  health : w.healthWatch.published = w.state.health.published
  publicEvents : w.publicEvents = w.appliedPublic
  privateEvents : w.privateEvents = w.appliedPrivate

theorem Behind.caughtUp {w : PublishingState} (h : Behind w []) : CaughtUp w :=
  ⟨h.health, by simpa using h.publicEvents.symm, by simpa using h.privateEvents.symm⟩

section Sent

variable {ε : Type} {kind : Send → Option ε} {front back : List Send} {x : Send}

/-- A send of another kind leaves the events of a kind that are left as they were. -/
theorem filterMap_of_other (hx : kind x = none) :
    (front ++ x :: back).filterMap kind = (front ++ back).filterMap kind := by
  rw [List.filterMap_append, List.filterMap_append, List.filterMap_cons_none hx]

/-- A send with no earlier one of its kind is the first of those left. -/
theorem filterMap_of_first {event : ε} (hx : kind x = some event)
    (hfront : ∀ y ∈ front, kind y = none) :
    (front ++ x :: back).filterMap kind = event :: (front ++ back).filterMap kind := by
  rw [List.filterMap_append, List.filterMap_append, List.filterMap_eq_nil_iff.2 hfront,
    List.filterMap_cons_some hx, List.nil_append, List.nil_append]

/-- The last of a kind that is left does not change when an earlier one is sent. -/
theorem getLast?_of_later (hback : ∃ y ∈ back, (kind y).isSome) :
    ((front ++ x :: back).filterMap kind).getLast? =
      ((front ++ back).filterMap kind).getLast? := by
  obtain ⟨y, hy, hsome⟩ := hback
  obtain ⟨event, hevent⟩ := Option.isSome_iff_exists.1 hsome
  have hmem : event ∈ back.filterMap kind := List.mem_filterMap.2 ⟨y, hy, hevent⟩
  have hne : back.filterMap kind ≠ [] := List.ne_nil_of_mem hmem
  rw [List.filterMap_append, List.filterMap_append, List.getLast?_append_of_ne_nil _ hne]
  cases hx : kind x with
  | none => rw [List.filterMap_cons_none hx, List.getLast?_append_of_ne_nil _ hne]
  | some e =>
    rw [List.filterMap_cons_some hx, List.getLast?_append_of_ne_nil _ (List.cons_ne_nil _ _),
      ← List.singleton_append, List.getLast?_append_of_ne_nil _ hne]

/-- A send in turn takes publication one step further. -/
theorem Behind.send {w : PublishingState} (h : Behind w (front ++ x :: back))
    (hturn : x.InTurn front back) :
    Behind (PublishingState.reply (.send x) w).2 (front ++ back) := by
  obtain ⟨h₁, h₂, h₃⟩ := h
  cases x with
  | health report =>
    rw [filterMap_of_other (by rfl)] at h₂ h₃
    refine ⟨?_, h₂, h₃⟩
    -- a report counts only if no later one waits; if none does, it is the next one
    by_cases hlater : ∃ y ∈ back, y.toReport.isSome
    · obtain ⟨y, hy, hsome⟩ := hlater
      rw [getLast?_of_later ⟨y, hy, hsome⟩] at h₁
      obtain ⟨later, hreport⟩ := Option.isSome_iff_exists.1 hsome
      have hne : (front ++ back).filterMap Send.toReport ≠ [] :=
        List.ne_nil_of_mem
          (List.mem_filterMap.2 ⟨y, List.mem_append_right _ hy, hreport⟩)
      rw [List.getLast?_eq_some_getLast hne] at h₁ ⊢
      exact h₁
    · have hfront := hturn.resolve_right hlater
      have hnone : (front ++ back).filterMap Send.toReport = [] := by
        refine List.filterMap_eq_nil_iff.2 fun y hy => ?_
        rcases List.mem_append.1 hy with hy | hy
        · exact hfront y hy
        · exact Option.not_isSome_iff_eq_none.1 fun hsome => hlater ⟨y, hy, hsome⟩
      rw [filterMap_of_first (by rfl) hfront, hnone] at h₁
      rw [hnone]
      exact h₁
  | notifyHealth notification =>
    rw [filterMap_of_other (by rfl)] at h₁ h₂ h₃
    exact ⟨h₁, h₂, h₃⟩
  | publicEvent event =>
    rw [filterMap_of_other (by rfl)] at h₁ h₃
    rw [filterMap_of_first (by rfl) hturn, List.append_cons] at h₂
    exact ⟨h₁, h₂, h₃⟩
  | privateEvent event =>
    rw [filterMap_of_other (by rfl)] at h₁ h₂
    rw [filterMap_of_first (by rfl) hturn, List.append_cons] at h₃
    exact ⟨h₁, h₂, h₃⟩

end Sent

/-! ### What a closure leaves to send -/

/-- A fold that succeeds has applied all events. -/
theorem appliedBefore_of_ok {s s' : EngineState} {events : List PublicLaneEvent}
    (h : (forM events EngineState.applyPublicEvent).run s = .ok () s') :
    appliedBefore s events = events := by
  induction events generalizing s with
  | nil => rfl
  | cons event events ih =>
    rw [List.forM_cons, EStateM.run_bind] at h
    rw [appliedBefore]
    cases hr : (EngineState.applyPublicEvent event).run s with
    | ok u s₁ =>
      rw [hr] at h
      simp only [ih h]
    | error e s₁ =>
      rw [hr] at h
      cases h

theorem appliedPublic_of_ok {s s' : EngineState} {events : List PublicLaneEvent}
    (h : (applyPublicBatch events).run s = .ok () s') :
    (Closure.publicBatch events).appliedPublic s = events := by
  have hknown : ∀ event ∈ events, ¬ event.NamesUnknown s := by
    intro event hevent hunknown
    obtain ⟨e, he⟩ := applyPublicBatch_run_of_unknown ⟨event, hevent, hunknown⟩
    rw [he] at h
    cases h
  simp only [Closure.appliedPublic, h]
  rw [applyPublicBatch_run_of_known hknown] at h
  exact appliedBefore_of_ok h

theorem filterMap_healthSends {ε : Type} (kind : Send → Option ε)
    (hhealth : ∀ r, kind (.health r) = none) (hnotify : ∀ n, kind (.notifyHealth n) = none)
    (before after : HealthReport) : (healthSends before after).filterMap kind = [] := by
  unfold healthSends
  split <;> simp [hhealth, hnotify]

/-- The report that is sent, if any, is the new one; if none is, nothing published has changed. -/
theorem toReport_healthSends (before after : HealthReport) (watch : HealthReport)
    (h : watch.published = before.published) :
    (((healthSends before after).filterMap Send.toReport).getLast?.getD watch).published =
      after.published := by
  unfold healthSends
  split
  · rfl
  · next hsame => exact h.trans (shouldPublishHealthChange_eq_false.1 (by simpa using hsame))

theorem filterMap_map_none {α β γ : Type} {f : α → β} {kind : β → Option γ}
    (h : ∀ x, kind (f x) = none) (xs : List α) : (xs.map f).filterMap kind = [] := by
  refine List.filterMap_eq_nil_iff.2 fun y hy => ?_
  obtain ⟨x, -, rfl⟩ := List.mem_map.1 hy
  exact h x

namespace Closure

theorem toReport_eventSends (c : Closure) : c.eventSends.filterMap Send.toReport = [] := by
  cases c with
  | mutate f => rfl
  | publicBatch events => exact filterMap_map_none (fun _ => rfl) events
  | privateBatch events => exact filterMap_map_none (fun _ => rfl) events

theorem toPrivateEvent_eventSends (c : Closure) :
    c.eventSends.filterMap Send.toPrivateEvent = c.appliedPrivate := by
  cases c with
  | mutate f => rfl
  | publicBatch events => exact filterMap_map_none (fun _ => rfl) events
  | privateBatch events =>
    rw [eventSends, List.filterMap_map]
    exact List.filterMap_some

/-- The events a closure sends when it succeeds are those it applied. -/
theorem toPublicEvent_eventSends {c : Closure} {s s' : EngineState}
    (h : c.body.run s = .ok () s') :
    c.eventSends.filterMap Send.toPublicEvent = c.appliedPublic s := by
  cases c with
  | mutate f => rfl
  | publicBatch events =>
    rw [appliedPublic_of_ok h, eventSends, List.filterMap_map]
    exact List.filterMap_some
  | privateBatch events => exact filterMap_map_none (fun _ => rfl) events

/-- A closure that fails has applied no private event. -/
theorem appliedPrivate_of_error {c : Closure} {s s' : EngineState} {failure : Failure}
    (h : c.body.run s = .error failure s') : c.appliedPrivate = [] := by
  cases c with
  | mutate f => rfl
  | publicBatch events => rfl
  | privateBatch events => cases h

/-- A closure that returns an error has applied no public event. -/
theorem appliedPublic_of_error {c : Closure} {s s' : EngineState} {e : MarketError}
    (h : c.body.run s = .error (.error e) s') : c.appliedPublic s = [] := by
  cases c with
  | mutate f => rfl
  | publicBatch events =>
    have hrun : (applyPublicBatch events).run s = .error (.error e) s' := h
    simp only [appliedPublic, hrun]
  | privateBatch events => rfl

end Closure

theorem sends_of_panic {c : Closure} {w : PublishingState}
    (h : resultOf (c.body.run w.state) = .error .panic) :
    c.sends (PublishingState.reply (.locked c) w).1 = [] := by
  simp only [PublishingState.reply, SharedState.reply, h, Closure.sends]

/-- What the call of a closure leaves to send: the events it applied, and a health report if it
changed. -/
structure LeavesToSend (c : Closure) (s : EngineState) (xs : List Send) : Prop where
  health : ∀ watch : HealthReport, watch.published = s.health.published →
    ((xs.filterMap Send.toReport).getLast?.getD watch).published =
      (stateAfter (c.body.run s)).health.published
  publicEvents : xs.filterMap Send.toPublicEvent = c.appliedPublic s
  privateEvents : xs.filterMap Send.toPrivateEvent = c.appliedPrivate

theorem leavesToSend {c : Closure} {w : PublishingState} (h : c.PanicsQuietly w.state) :
    LeavesToSend c w.state (c.sends (PublishingState.reply (.locked c) w).1) := by
  have hpublic := filterMap_healthSends Send.toPublicEvent (fun _ => rfl) fun _ => rfl
  have hprivate := filterMap_healthSends Send.toPrivateEvent (fun _ => rfl) fun _ => rfl
  cases hr : c.body.run w.state with
  | ok u s' =>
    have hsends : c.sends (PublishingState.reply (.locked c) w).1 =
        healthSends w.state.health s'.health ++ c.eventSends := by
      simp only [PublishingState.reply, SharedState.reply, hr, Closure.sends, resultOf, stateAfter]
    rw [hsends]
    refine ⟨fun watch hwatch => ?_, ?_, ?_⟩
    · rw [hr, List.filterMap_append, c.toReport_eventSends, List.append_nil]
      exact toReport_healthSends _ _ watch hwatch
    · rw [List.filterMap_append, hpublic, List.nil_append, Closure.toPublicEvent_eventSends hr]
    · rw [List.filterMap_append, hprivate, List.nil_append, c.toPrivateEvent_eventSends]
  | error failure s' =>
    have hnoPrivate := Closure.appliedPrivate_of_error hr
    cases failure with
    | error e =>
      have hsends : c.sends (PublishingState.reply (.locked c) w).1 =
          healthSends w.state.health s'.health := by
        simp only [PublishingState.reply, SharedState.reply, hr, Closure.sends, resultOf,
          stateAfter]
      rw [hsends]
      refine ⟨fun watch hwatch => ?_, ?_, ?_⟩
      · rw [hr]
        exact toReport_healthSends _ _ watch hwatch
      · rw [hpublic, Closure.appliedPublic_of_error hr]
      · rw [hprivate, hnoPrivate]
    | panic =>
      have hpanic : resultOf (c.body.run w.state) = .error .panic := by rw [hr]; rfl
      obtain ⟨hnone, hsame⟩ := h hpanic
      rw [sends_of_panic hpanic]
      exact ⟨fun watch hwatch => hwatch.trans hsame, hnone.symm, hnoPrivate.symm⟩

/-- A closure leaves publication behind by what its call has left to send. -/
theorem Behind.locked {w : PublishingState} {queue xs : List Send} {c : Closure}
    (h : Behind w queue) (hleaves : LeavesToSend c w.state xs) :
    Behind (PublishingState.reply (.locked c) w).2 (queue ++ xs) := by
  refine ⟨?_, ?_, ?_⟩
  · have hlast := hleaves.health _ h.health
    rw [List.filterMap_append, List.getLast?_append]
    show (Option.getD _ w.healthWatch).published = _
    rw [Option.getD_or]
    exact hlast
  · show w.appliedPublic ++ c.appliedPublic w.state = _
    rw [List.filterMap_append, hleaves.publicEvents, h.publicEvents, List.append_assoc]
    rfl
  · show w.appliedPrivate ++ c.appliedPrivate = _
    rw [List.filterMap_append, hleaves.privateEvents, h.privateEvents, List.append_assoc]
    rfl

/-! ### One step -/

theorem prog_of_residual {task : SharedTask} {t : SharedM Unit} (h : task.prog.Residual t) :
    (∃ c : Closure, t = c.call) ∨ ∃ xs, t = sendAll xs := by
  induction h with
  | refl =>
    rcases task.prog_cases with hnil | hcall
    · exact .inr ⟨[], hnil⟩
    · exact .inl hcall
  | call r _ ih =>
    rcases ih with ⟨c, hc⟩ | ⟨xs, hxs⟩
    · cases hc
      exact .inr ⟨_, rfl⟩
    · cases xs with
      | nil => cases hxs
      | cons x xs =>
        cases hxs
        exact .inr ⟨xs, rfl⟩

/-- A thread is about to run its closure, or sends what is left. -/
theorem prog_of_reachable {p : PublicationPool} (hp : publicationSystem.Reachable p)
    {θ : Thread PublishingState SharedCall SharedReply Unit} (hθ : θ ∈ p.threads) :
    (∃ c : Closure, θ.prog = c.call) ∨ ∃ xs, θ.prog = sendAll xs := by
  obtain ⟨_, ⟨task, rfl⟩, hleft⟩ := residual_of_reachable hp θ hθ
  exact prog_of_residual hleft

/-- What thread `i` has left to send. -/
def leftToSend (p : PublicationPool) : ℕ → List Send := p.readAt (fun θ => outstanding θ.prog) []

/-- The turn of thread `i`. -/
def turnOf (p : PublicationPool) : ℕ → ℕ := p.readAt (fun θ => closureTurn θ.log) 0

section Threads

variable {p : PublicationPool} {turn i : ℕ}
  {θ : Thread PublishingState SharedCall SharedReply Unit}

theorem leftToSend_of_thread (hi : p.threads[i]? = some θ) : leftToSend p i = outstanding θ.prog :=
  readAt_of_thread hi

theorem turnOf_of_thread (hi : p.threads[i]? = some θ) : turnOf p i = closureTurn θ.log :=
  readAt_of_thread hi

theorem leftToSend_run (hi : p.threads[i]? = some θ) (w : PublishingState)
    (log : List (PublishingState × Event SharedCall SharedReply)) (xs : List Send) :
    leftToSend ⟨w, p.threads.set i ⟨log, sendAll xs⟩⟩ = Function.update (leftToSend p) i xs := by
  conv_rhs => rw [← outstanding_sendAll xs]
  exact readAt_run hi w _

theorem turnOf_run (hi : p.threads[i]? = some θ) (w : PublishingState)
    (log : List (PublishingState × Event SharedCall SharedReply)) (t : SharedM Unit) :
    turnOf ⟨w, p.threads.set i ⟨log, t⟩⟩ = Function.update (turnOf p) i (closureTurn log) :=
  readAt_run hi w _

theorem mem_leftEarlier {x : Send} (hx : x ∈ leftToSend p i) (hturn : turnOf p i < turn) :
    x ∈ leftEarlier p turn := by
  obtain ⟨θ, hi, -⟩ := exists_thread_of_readAt (List.ne_nil_of_mem hx)
  rw [leftToSend_of_thread hi] at hx
  rw [turnOf_of_thread hi] at hturn
  exact List.mem_flatMap.2
    ⟨θ, List.mem_filter.2 ⟨List.mem_of_getElem? hi, decide_eq_true hturn⟩, hx⟩

theorem exists_of_mem_leftLater {x : Send} (hx : x ∈ leftLater p turn) :
    ∃ i, turn < turnOf p i ∧ x ∈ leftToSend p i := by
  obtain ⟨θ, hθ, hx⟩ := List.mem_flatMap.1 hx
  obtain ⟨hmem, hturn⟩ := List.mem_filter.1 hθ
  obtain ⟨i, hi⟩ := List.mem_iff_getElem?.1 hmem
  refine ⟨i, ?_, ?_⟩
  · rw [turnOf_of_thread hi]
    exact of_decide_eq_true hturn
  · rwa [leftToSend_of_thread hi]

theorem leftToSend_of_idle (hp : p.Idle) (i : ℕ) : leftToSend p i = [] := by
  by_contra hne
  obtain ⟨θ, hi, -⟩ := exists_thread_of_readAt hne
  obtain ⟨a, ha⟩ := hp θ (List.mem_of_getElem? hi)
  exact hne (by rw [leftToSend_of_thread hi, ha]; rfl)

end Threads

/-- Publication is behind by what the calls have left to send, in the order of their closures. -/
def InQueue (p : PublicationPool) : Prop :=
  ∃ queue, Queued (turnOf p) (leftToSend p) p.world.closures queue ∧
    Behind p.world (queue.map Prod.snd)

/-- The step that runs a closure. -/
theorem inQueue_locked {p : PublicationPool} {i : ℕ} {c : Closure}
    {log : List (PublishingState × Event SharedCall SharedReply)}
    (hi : p.threads[i]? = some ⟨log, c.call⟩) (h : InQueue p)
    (hquiet : c.PanicsQuietly p.world.state) :
    InQueue ⟨(PublishingState.reply (.locked c) p.world).2, p.threads.set i
      ⟨(p.world, ⟨.locked c, (PublishingState.reply (.locked c) p.world).1⟩) :: log,
        sendAll (c.sends (PublishingState.reply (.locked c) p.world).1)⟩⟩ := by
  obtain ⟨queue, hqueued, hbehind⟩ := h
  have hleaves := leavesToSend hquiet
  generalize c.sends (PublishingState.reply (.locked c) p.world).1 = xs at hleaves ⊢
  refine ⟨queue ++ xs.map (i, ·), ?_, ?_⟩
  · rw [leftToSend_run hi, turnOf_run hi]
    exact hqueued.draw (leftToSend_of_thread hi) xs
  · have hmap : (xs.map (i, ·)).map Prod.snd = xs := by simp
    rw [List.map_append, hmap]
    exact hbehind.locked hleaves

/-- The step that sends. -/
theorem inQueue_send {p : PublicationPool} {i : ℕ} {x : Send} {xs : List Send}
    {log : List (PublishingState × Event SharedCall SharedReply)}
    (hi : p.threads[i]? = some ⟨log, sendAll (x :: xs)⟩) (h : InQueue p)
    (hturn : x.InTurn (leftEarlier p (closureTurn log)) (leftLater p (closureTurn log))) :
    InQueue ⟨(PublishingState.reply (.send x) p.world).2,
      p.threads.set i ⟨(p.world, ⟨.send x, ()⟩) :: log, sendAll xs⟩⟩ := by
  obtain ⟨queue, hqueued, hbehind⟩ := h
  have hlog : turnOf p i = closureTurn log := turnOf_of_thread hi
  obtain ⟨front, back, rfl, hfront, hrest⟩ :=
    hqueued.take ((leftToSend_of_thread hi).trans (outstanding_sendAll _))
  refine ⟨front ++ back, ?_, ?_⟩
  · have hsame : Function.update (turnOf p) i (closureTurn log) = turnOf p := by
      rw [← hlog, Function.update_eq_self]
    rw [leftToSend_run hi, turnOf_run hi]
    exact hsame.symm ▸ hrest
  · rw [List.map_append, List.map_cons] at hbehind
    rw [List.map_append]
    refine hbehind.send (hturn.mono ?_ ?_)
    · intro y hy
      obtain ⟨a, ha, rfl⟩ := List.mem_map.1 hy
      obtain ⟨hearlier, hmem⟩ := hfront a ha
      exact mem_leftEarlier hmem (hlog ▸ hearlier)
    · intro y hy
      obtain ⟨j, hlater, hmem⟩ := exists_of_mem_leftLater hy
      have hback := hqueued.mem_back (hlog ▸ hlater) hmem fun a ha => (hfront a ha).1
      exact List.mem_map.2 ⟨_, hback, rfl⟩

/-- **One step** in turn leaves publication behind by no more than the calls have left to send. -/
theorem inQueue_step {p p' : PublicationPool} {a : Action} (hp : publicationSystem.Reachable p)
    (hst : publicationSystem.step p a p') (hturn : SendsInTurn p a) (h : InQueue p) :
    InQueue p' := by
  cases hst with
  | start ht =>
    obtain ⟨task, rfl⟩ := ht
    obtain ⟨queue, hqueued, hbehind⟩ := h
    have hnone : outstanding task.prog = [] := by
      rcases task.prog_cases with hnil | ⟨c, hc⟩
      · rw [hnil, outstanding_sendAll]
      · rw [hc]
        rfl
    have hleft : leftToSend ⟨p.world, p.threads ++ [Thread.fresh task.prog]⟩ = leftToSend p :=
      readAt_start hnone p
    have hsame : turnOf ⟨p.world, p.threads ++ [Thread.fresh task.prog]⟩ = turnOf p :=
      readAt_start rfl p
    exact ⟨queue, by rwa [hleft, hsame], hbehind⟩
  | env he => exact he.elim
  | @run i log q k r w' hi hs =>
    simp only [SendsInTurn, hi] at hturn
    rcases prog_of_reachable hp (List.mem_of_getElem? hi) with ⟨c, hc⟩ | ⟨xs, hxs⟩
    · cases hc
      obtain ⟨rfl, rfl⟩ := Prod.mk.inj hs
      exact inQueue_locked hi h hturn
    · cases xs with
      | nil => cases hxs
      | cons x xs =>
        cases hxs
        obtain ⟨rfl, rfl⟩ := Prod.mk.inj hs
        exact inQueue_send hi h hturn

/-! ### Whole runs -/

theorem inQueue_init {p : PublicationPool} (hp : publicationSystem.init p) : InQueue p := by
  obtain ⟨⟨hwatch, hpublic, hprivate, happublic, happrivate⟩, hthreads⟩ := hp
  refine ⟨[], .nil fun i => ?_, ?_, ?_, ?_⟩
  · rw [leftToSend, Pool.readAt, hthreads]
    rfl
  · exact congrArg HealthReport.published hwatch
  · rw [hpublic, happublic]
    rfl
  · rw [hprivate, happrivate]
    rfl

theorem inQueue_of_reachable {p : PublicationPool}
    (hp : publicationSystem.ReachableWhen SendsInTurn p) : InQueue p := by
  induction hp with
  | init hinit => exact inQueue_init hinit
  | step hp hturn hst ih => exact inQueue_step hp.reachable hst hturn ih

/-- **Publication follows application.**  In every run of concurrent calls whose steps keep to the
schedule, whenever no call is in progress, publication has caught up. -/
theorem publication_follows_application {p : PublicationPool}
    (hp : publicationSystem.ReachableWhen SendsInTurn p) (hidle : p.Idle) : CaughtUp p.world := by
  obtain ⟨queue, hqueued, hbehind⟩ := inQueue_of_reachable hp
  obtain rfl := hqueued.eq_nil (leftToSend_of_idle hidle)
  exact hbehind.caughtUp

/-- A Bybit engine whose health report has just been published. -/
def freshlyPublished : PublishingState where
  state := EngineState.new .bybit .linearUsdt ⟨16, 16⟩ []
  healthWatch := (EngineState.new .bybit .linearUsdt ⟨16, 16⟩ []).health

/-- Two batches run their closures, the first finds that health has changed, and then each sends
what it has. -/
def overlappingMoves : List (Move SharedCall SharedReply Unit) :=
  [.start (SharedTask.applyPrivateEvents [.order (.unit "1" "BTC" .new 5)]).prog,
    .start (SharedTask.applyPrivateEvents [.order (.unit "1" "BTC" .filled 6)]).prog,
    .run 0, .run 1, .run 0, .run 0, .run 0, .run 1]

theorem publication_follows_application_overlapping :
    CaughtUp (overlappingMoves.foldl (Pool.move PublishingState.reply)
      ⟨freshlyPublished, []⟩).world := by
  refine publication_follows_application (reachableWhen_moves (fun q w => rfl) (fun t ht => ?_)
    (.init ⟨⟨rfl, rfl, rfl, rfl, rfl⟩, rfl⟩) ?_) (Pool.idle_of_ended (by decide))
  · simp only [overlappingMoves, List.mem_cons, Move.start.injEq, reduceCtorEq, or_false,
      List.not_mem_nil] at ht
    rcases ht with rfl | rfl
    · exact ⟨_, rfl⟩
    · exact ⟨_, rfl⟩
  · -- no send overtakes one of its kind: nothing is ever left to an earlier call
    have hreports : ∀ x ∈ ([] : List Send), x.toReport = none :=
      List.forall_mem_nil _
    have hevents : ∀ x ∈ ([] : List Send), x.toPrivateEvent = none :=
      List.forall_mem_nil _
    exact ⟨trivial, trivial, nofun, nofun, .inl hreports, trivial, hevents, hevents, trivial⟩

/-! ### Two calls that cross -/

/-- The first call runs its closure, the second runs from start to end, then the first sends. -/
def crossed (first second : SharedTask) : PublicationPool :=
  List.foldl (Pool.move PublishingState.reply) ⟨freshlyPublished, []⟩
    ([.start first.prog, .start second.prog, .run 0] ++ List.replicate 4 (.run 1) ++
      List.replicate 4 (.run 0))

theorem exists_runOf_crossed (first second : SharedTask) :
    ∃ steps, publicationSystem.RunOf steps (crossed first second) := by
  refine System.Reachable.exists_runOf (reachable_moves (fun q w => rfl) (fun t ht => ?_)
    (.init ⟨⟨rfl, rfl, rfl, rfl, rfl⟩, rfl⟩))
  simp only [List.mem_append, List.mem_cons, List.mem_replicate, Move.start.injEq,
    reduceCtorEq, and_false, or_false, List.not_mem_nil] at ht
  rcases ht with rfl | rfl
  · exact ⟨first, rfl⟩
  · exact ⟨second, rfl⟩

/-- Two writes leave a stale report in the watch, and two batches are published in the opposite
order. -/
theorem writers_publish_in_opposite_order :
    (¬ ∀ steps (p : PublicationPool), publicationSystem.RunOf steps p → p.Idle →
      p.world.healthWatch.published = p.world.state.health.published) ∧
    ¬ ∀ steps (p : PublicationPool), publicationSystem.RunOf steps p → p.Idle →
      p.world.privateEvents = p.world.appliedPrivate := by
  constructor
  · intro h
    obtain ⟨steps, hrun⟩ := exists_runOf_crossed (.write (modify (·.markReconnect)))
      (.write (modify (·.markRestSuccess none)))
    have hsame := shouldPublishHealthChange_eq_false.2
      (h _ _ hrun (Pool.idle_of_ended (by decide)))
    exact absurd hsame (by decide)
  · intro h
    obtain ⟨steps, hrun⟩ := exists_runOf_crossed
      (.applyPrivateEvents [.order (.unit "1" "BTC" .new 5)])
      (.applyPrivateEvents [.order (.unit "1" "BTC" .filled 6)])
    exact absurd (h _ _ hrun (Pool.idle_of_ended (by decide))) (by decide)

end BatMarkets
