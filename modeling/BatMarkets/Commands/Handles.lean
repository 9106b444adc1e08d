import BatMarkets.Commands.Tracked

/-!
# Lifecycle events find their handle

The events about a command carry its acknowledgement, and a handle takes an event for its own if it
has the same acknowledgement, with the time at which it was made.  A handle that is made from the
acknowledgement of the runtime has it; a handle that is made from a receipt has one of its own, with
a time that is read later.

## Main results

* `ackLogic_shows` : what the commands for orders show are the events of the acknowledgements that
  they return, each once.
* `events_found_iff` : the events of a command find the handles that it returns exactly when, if it
  makes its handle from a receipt, the clock stands still between the two readings.
-/

namespace BatMarkets

open CommandM Interleaving Prog Wire

/-! ### What an observer of the handles notes -/

/-- An event about a command, or a recovery that is started. -/
inductive HandleNote
  | event (event : CommandLifecycleEvent)
  | recovery (ack : CommandAck)
  deriving DecidableEq

/-- What a call means for the handle of a command. -/
def handleNote : Event CommandCall CommandReply → Option HandleNote
  | ⟨.emitCommandEvent (.lifecycle event), _⟩ => some (.event event)
  | ⟨.spawnReconcile ack, _⟩ => some (.recovery ack)
  | _ => none

/-- What an acknowledgement shows, the latest first. -/
def CommandAck.notes (ack : CommandAck) : List HandleNote :=
  if ack.receipt.status = .unknownExecution then
    [.recovery ack, .event (.recoveryScheduled ack), .event (.ack ack)]
  else [.event (.ack ack)]

theorem quiet_of_silently {α : Type} {P : α → Prop} {x : CommandE α} (hx : Silently P x) :
    x.run.Quiet handleNote := by
  refine quiet_of_always (hx.always.mono fun _ q hq r => ?_)
  cases q with
  | emitCommandEvent event => exact hq.elim
  | spawnReconcile ack => exact hq.elim
  | _ => rfl

theorem shows_cacheAndApply {operation : CommandOperation} {target : OrderTarget}
    {receipt : CommandReceipt} {transport : CommandTransport} :
    Shows handleNote (fun ack => (ack.notes : Multiset HandleNote))
      (cacheAndApply operation target receipt transport) := by
  have hcache : (cachePendingUnknown receipt operation target.instrumentId target.orderId
      target.clientOrderId).run.Quiet handleNote := by
    unfold cachePendingUnknown
    split
    · exact quiet_call (fun _ => rfl) fun _ => quiet_call (fun _ => rfl) fun _ => quiet_ret _
    · exact quiet_ret _
  refine Shows.after_quiet hcache fun _ => ?_
  refine reports_perform fun acknowledgedAt => ?_
  refine reports_perform fun _ => reports_perform fun _ => reports_perform fun _ => ?_
  by_cases hs : receipt.status = .unknownExecution
  · simp only [hs, if_true]
    refine reports_call fun _ => reports_call fun _ => reports_ret fun ack hack => ?_
    obtain rfl := Except.ok.inj hack
    rw [CommandAck.notes, if_pos hs]
    rfl
  · simp only [hs, if_false]
    refine reports_ret fun ack hack => ?_
    obtain rfl := Except.ok.inj hack
    rw [CommandAck.notes, if_neg hs]
    rfl

/-- The notes of a run are those of the acknowledgements, and there is one for each item. -/
structure ShowsAcks (α : Type) (acks : α → List CommandAck) (items : List OrderTarget)
    (x : CommandE α) : Prop where
  shows : Shows handleNote (fun a => showAll (fun ack => (ack.notes : Multiset HandleNote)) (acks a)) x
  counts : Yields (fun _ _ => True) (fun a => (acks a).length = items.length) x

theorem length_flatMap_of_forall₂ {α γ : Type} {acks : α → List CommandAck}
    {items : γ → List OrderTarget} {cs : List γ} {as : List α}
    (h : List.Forall₂ (fun c a => (acks a).length = (items c).length) cs as) :
    (as.flatMap acks).length = (cs.flatMap items).length := by
  induction h with
  | nil => rfl
  | cons hac _ ih => simp only [List.flatMap_cons, List.length_append, hac, ih]

/-- The commands for orders show the events of what they return. -/
theorem ackLogic_shows (operation : CommandOperation) : AckLogic operation ShowsAcks where
  fail := fun e => ⟨shows_throw e, yields_throw e⟩
  silent := by
    intro α β P x f acks items hx hf
    have hP : Yields (fun _ _ => True) P x := hx.imp fun _ _ _ => trivial
    exact ⟨Shows.after_quiet_yields (quiet_of_silently hx) hP fun a ha => (hf a ha).shows,
      hP.attempt fun a ha => (hf a ha).counts⟩
  single := by
    intro target receipt transport hnames
    refine ⟨?_, fun τ => (spec_suffix _ τ).mono (fun _ _ h => h) fun _ _ _ _ _ => rfl⟩
    refine Reports.mono shows_cacheAndApply fun os r hr ack hack => ?_
    simpa using hr ack hack
  inRow := by
    intro α γ acks items f cs h
    refine ⟨?_, (Yields.mapM fun c hc => (h c hc).counts).mono fun as has =>
      length_flatMap_of_forall₂ has⟩
    simp only [showAll_flatMap]
    exact Shows.mapM fun c hc => (h c hc).shows
  sideBySide := by
    intro α γ acks items f cs h
    refine ⟨?_, (yields_tryJoinAll_map (fun _ _ _ => trivial) (fun _ _ _ hq => hq)
      fun c hc => (h c hc).counts).mono fun as has => length_flatMap_of_forall₂ has⟩
    simp only [showAll_flatMap]
    refine Shows.after_quiet (quiet_call (fun _ => rfl) fun _ => quiet_ret _) fun schedule => ?_
    refine Shows.tryJoin schedule fun t ht => ?_
    obtain ⟨c, hc, rfl⟩ := by simpa using ht
    exact (h c hc).shows
  value := by
    intro α β P acks acks' items x g hx hP hg
    constructor
    · refine Reports.attempt (Reports.and_yields hx.shows hP) (fun os a ha => ?_)
        fun os e _ b hb => nomatch hb
      cases hb : g a with
      | error e => exact reports_ret fun b hb => nomatch hb
      | ok b =>
        refine reports_ret fun b' hb' => ?_
        obtain rfl := Except.ok.inj hb'
        have hperm : (acks' b).Perm (acks a) := hg a b (ha.2 a rfl) hb
        show (os : Multiset HandleNote) = showAll _ (acks' b)
        rw [showAll_perm hperm]
        exact ha.1 a rfl
    · refine Yields.attempt (P := fun a => P a ∧ (acks a).length = items.length) ?_
        fun a ha => yields_ofExcept fun b hb => ?_
      · exact fun τ => ((hP τ).and (hx.counts τ)).mono (fun _ _ h => h)
          fun _ _ hr a ha => ⟨hr.1 a ha, hr.2 a ha⟩
      · rw [(hg a b ha.1 hb).length_eq, ha.2]
  perm := fun hperm hx => ⟨hx.shows, hx.counts.mono fun _ ha => ha.trans hperm.length_eq⟩

/-! ### Events and handles -/

/-- The events about a command find the handles that it returns. -/
structure EventsFound (τ : CommandTrace) (handles : List PendingCommandHandle) : Prop where
  /-- Each event that is emitted is for one of the handles. -/
  emitted : ∀ event, ⟨.emitCommandEvent (.lifecycle event), ()⟩ ∈ τ →
    ∃ handle ∈ handles, matchesLifecycle handle.ack event = true
  /-- So is the end of a recovery that is started. -/
  completed : ∀ ack, ⟨.spawnReconcile ack, ()⟩ ∈ τ → ∀ report,
    ∃ handle ∈ handles, matchesLifecycle handle.ack (.recoveryCompleted ack report) = true
  /-- A handle that waits is resolved once the recovery that is started for it has ended. -/
  resolves : ∀ handle ∈ handles, handle.ack.receipt.status = .unknownExecution →
    ∃ ack, ⟨.spawnReconcile ack, ()⟩ ∈ τ ∧ ∀ report events,
      .lifecycle (.recoveryCompleted ack report) ∈ events → (handle.resolved events).isSome
  /-- No event with another acknowledgement is taken for one of the command. -/
  others : ∀ handle ∈ handles, ∀ ack, ack ≠ handle.ack →
    matchesLifecycle handle.ack (.ack ack) = false ∧
      matchesLifecycle handle.ack (.recoveryScheduled ack) = false ∧
      ∀ report, matchesLifecycle handle.ack (.recoveryCompleted ack report) = false

theorem mem_notes_iff {τ : CommandTrace} {event : CommandLifecycleEvent} :
    ⟨.emitCommandEvent (.lifecycle event), ()⟩ ∈ τ ↔ .event event ∈ τ.filterMap handleNote := by
  rw [List.mem_filterMap]
  constructor
  · exact fun he => ⟨_, he, rfl⟩
  · rintro ⟨⟨q, r⟩, he, hq⟩
    cases q with
    | emitCommandEvent lane =>
      cases lane with
      | receipt receipt => cases hq
      | lifecycle event' =>
        obtain rfl := HandleNote.event.inj (Option.some.inj hq)
        exact he
    | spawnReconcile ack => cases hq
    | _ => cases hq

theorem mem_notes_recovery_iff {τ : CommandTrace} {ack : CommandAck} :
    ⟨.spawnReconcile ack, ()⟩ ∈ τ ↔ .recovery ack ∈ τ.filterMap handleNote := by
  rw [List.mem_filterMap]
  constructor
  · exact fun he => ⟨_, he, rfl⟩
  · rintro ⟨⟨q, r⟩, he, hq⟩
    cases q with
    | emitCommandEvent lane => cases lane <;> cases hq
    | spawnReconcile ack' =>
      obtain rfl := HandleNote.recovery.inj (Option.some.inj hq)
      exact he
    | _ => cases hq

@[simp] theorem matchesLifecycle_ack {ack other : CommandAck} :
    matchesLifecycle ack (.ack other) = decide (ack = other) := rfl

@[simp] theorem matchesLifecycle_recoveryScheduled {ack other : CommandAck} :
    matchesLifecycle ack (.recoveryScheduled other) = decide (ack = other) := rfl

@[simp] theorem matchesLifecycle_recoveryCompleted {ack other : CommandAck}
    {report : ReconcileReport} :
    matchesLifecycle ack (.recoveryCompleted other report) = decide (ack = other) := rfl

/-- What a handle resolves to, when a recovery of its command has ended. -/
theorem PendingCommandHandle.isSome_resolved {handle : PendingCommandHandle}
    {report : ReconcileReport} {events : List CommandLaneEvent}
    (h : .lifecycle (.recoveryCompleted handle.ack report) ∈ events) :
    (handle.resolved events).isSome := by
  unfold PendingCommandHandle.resolved
  split
  · rfl
  · exact handle.isSome_recovered (by simp) h

/-- Where the notes are those of the acknowledgements of the handles, the events find them. -/
theorem eventsFound_of_notes {τ : CommandTrace} {handles : List PendingCommandHandle}
    (h : ∀ n, n ∈ τ.filterMap handleNote ↔ ∃ handle ∈ handles, n ∈ handle.ack.notes) :
    EventsFound τ handles := by
  -- an acknowledgement leaves one event, and two notes more if its outcome is unknown
  have hnote : ∀ {ack : CommandAck} {n : HandleNote}, n ∈ ack.notes →
      n = .event (.ack ack) ∨ n = .event (.recoveryScheduled ack) ∨ n = .recovery ack := by
    intro ack n hn
    unfold CommandAck.notes at hn
    split at hn
    · simp at hn
      tauto
    · simp at hn
      exact .inl hn
  constructor
  · intro event hevent
    obtain ⟨handle, hhandle, hn⟩ := (h _).1 (mem_notes_iff.1 hevent)
    refine ⟨handle, hhandle, ?_⟩
    rcases hnote hn with hn | hn | hn
    · obtain rfl := HandleNote.event.inj hn
      simp
    · obtain rfl := HandleNote.event.inj hn
      simp
    · cases hn
  · intro ack hack report
    obtain ⟨handle, hhandle, hn⟩ := (h _).1 (mem_notes_recovery_iff.1 hack)
    refine ⟨handle, hhandle, ?_⟩
    rcases hnote hn with hn | hn | hn
    · cases hn
    · cases hn
    · obtain rfl := HandleNote.recovery.inj hn
      simp
  · intro handle hhandle hunknown
    refine ⟨handle.ack, mem_notes_recovery_iff.2 ((h _).2 ⟨handle, hhandle, ?_⟩), ?_⟩
    · rw [CommandAck.notes, if_pos hunknown]
      simp
    · exact fun report events hmem => handle.isSome_resolved hmem
  · intro handle _ ack hne
    simp [hne.symm]

/-! ### The clock -/

/-- The readings of the clock, the latest first. -/
def clockReadings (τ : CommandTrace) : List TimestampMs :=
  τ.filterMap fun
    | ⟨.runtime .timestampNowMs, now⟩ => some now
    | _ => none

/-- The clock stood still between its two latest readings. -/
def ClockStands (τ : CommandTrace) : Prop := ∃ now rest, clockReadings τ = now :: now :: rest

/-- What an observer notes who also looks at the clock. -/
def clockNote : Event CommandCall CommandReply → Option (HandleNote ⊕ TimestampMs)
  | ⟨.runtime .timestampNowMs, now⟩ => some (.inr now)
  | e => (handleNote e).map .inl

theorem filterMap_handleNote (τ : CommandTrace) :
    τ.filterMap handleNote = (τ.filterMap clockNote).filterMap Sum.getLeft? := by
  rw [List.filterMap_filterMap]
  congr 1
  funext ⟨q, r⟩
  cases q with
  | runtime q => cases q <;> rfl
  | emitCommandEvent event => cases event <;> rfl
  | _ => rfl

theorem clockReadings_eq (τ : CommandTrace) :
    clockReadings τ = (τ.filterMap clockNote).filterMap Sum.getRight? := by
  rw [clockReadings, List.filterMap_filterMap]
  congr 1
  funext ⟨q, r⟩
  cases q with
  | runtime q => cases q <;> rfl
  | emitCommandEvent event => cases event <;> rfl
  | _ => rfl

theorem quietClock_of_silently {α : Type} {P : α → Prop} {x : CommandE α} (hx : Silently P x) :
    x.run.Quiet clockNote := by
  refine quiet_of_always (hx.always.mono fun _ q hq r => ?_)
  cases q with
  | runtime q =>
    cases q with
    | timestampNowMs => exact hq.elim
    | _ => rfl
  | emitCommandEvent event => exact hq.elim
  | spawnReconcile ack => exact hq.elim
  | _ => rfl

/-- A command has been acknowledged at one time, and its handle has been made at another. -/
def HandledTwice (os : List (HandleNote ⊕ TimestampMs)) (handles : List PendingCommandHandle) :
    Prop :=
  ∃ receipt acknowledgedAt handledAt,
    os = .inr handledAt :: (CommandAck.notes ⟨receipt, .rest, acknowledgedAt⟩).map .inl ++
      [.inr acknowledgedAt] ∧
    handles = [.fromAck ⟨receipt, .rest, handledAt⟩]

/-- A command that passes its receipt on. -/
def PassesOn (x : CommandE CommandReceipt) : Prop :=
  x.run.Reports clockNote fun os r => ∀ receipt, r = .ok receipt → ∃ acknowledgedAt,
    os = (CommandAck.notes ⟨receipt, .rest, acknowledgedAt⟩).map .inl ++ [.inr acknowledgedAt]

theorem PassesOn.after {α : Type} {P : α → Prop} {x : CommandE α} {f : α → CommandE CommandReceipt}
    (hx : Silently P x) (hf : ∀ a, PassesOn (f a)) : PassesOn (x >>= f) :=
  Reports.quiet_attempt (quietClock_of_silently hx) hf fun _ _ h => nomatch h

theorem passesOn_finishReceipt (receipt : CommandReceipt) : PassesOn (finishReceipt receipt) := by
  refine Reports.attempt (Φ := fun os r => ∀ ack, r = .ok ack → ∃ acknowledgedAt,
    os = (CommandAck.notes ⟨receipt, .rest, acknowledgedAt⟩).map .inl ++ [.inr acknowledgedAt]) ?_
    (fun os ack hos => reports_ret fun receipt' hreceipt => ?_) fun os e _ _ h => nomatch h
  · refine reports_perform fun acknowledgedAt => ?_
    refine reports_perform fun _ => reports_perform fun _ => reports_perform fun _ => ?_
    by_cases hs : receipt.status = .unknownExecution
    · simp only [hs, if_true]
      refine reports_call fun _ => reports_call fun _ => reports_ret fun _ _ => ?_
      exact ⟨acknowledgedAt, by simp [clockNote, handleNote, CommandAck.notes, hs]⟩
    · simp only [hs, if_false]
      refine reports_ret fun _ _ => ?_
      exact ⟨acknowledgedAt, by simp [clockNote, handleNote, CommandAck.notes, hs]⟩
  · obtain rfl := Except.ok.inj hreceipt
    exact hos ack rfl

theorem PassesOn.handled {x : CommandE CommandReceipt} (hx : PassesOn x) :
    (RootCommand.ofReceipt x).run.Reports clockNote fun os r =>
      ∀ handles, r = .ok handles → HandledTwice os handles := by
  refine Reports.attempt hx (fun os receipt hos => ?_) fun os e _ _ h => nomatch h
  obtain ⟨acknowledgedAt, rfl⟩ := hos receipt rfl
  refine reports_call fun handledAt => reports_ret fun handles hhandles => ?_
  obtain rfl := Except.ok.inj hhandles
  exact ⟨receipt, acknowledgedAt, handledAt, rfl, rfl⟩

/-- The events find the handle exactly when it has the time of the acknowledgement. -/
theorem HandledTwice.found_iff {τ : CommandTrace} {handles : List PendingCommandHandle}
    (h : HandledTwice (τ.filterMap clockNote) handles) :
    EventsFound τ handles ↔ ClockStands τ := by
  obtain ⟨receipt, acknowledgedAt, handledAt, hos, rfl⟩ := h
  have hnotes : τ.filterMap handleNote = CommandAck.notes ⟨receipt, .rest, acknowledgedAt⟩ := by
    rw [filterMap_handleNote, hos]
    simp [List.filterMap_cons, Function.comp_def]
  have hclock : clockReadings τ = [handledAt, acknowledgedAt] := by
    rw [clockReadings_eq, hos]
    simp
  constructor
  · intro hfound
    have hack : .event (.ack ⟨receipt, .rest, acknowledgedAt⟩) ∈ τ.filterMap handleNote := by
      rw [hnotes, CommandAck.notes]
      split <;> simp
    obtain ⟨handle, hhandle, hmatch⟩ := hfound.emitted _ (mem_notes_iff.2 hack)
    obtain rfl := List.mem_singleton.1 hhandle
    have htime : handledAt = acknowledgedAt := by
      simpa [PendingCommandHandle.fromAck] using hmatch
    exact ⟨acknowledgedAt, [], by rw [hclock, htime]⟩
  · rintro ⟨now, rest, hnow⟩
    rw [hclock] at hnow
    obtain ⟨rfl, hnow⟩ := List.cons.inj hnow
    obtain ⟨rfl, -⟩ := List.cons.inj hnow
    exact eventsFound_of_notes fun n => by rw [hnotes]; simp [PendingCommandHandle.fromAck]

/-! ### The commands -/

section Commands

variable {context : CommandContext} {τ : CommandTrace} {handles : List PendingCommandHandle}

/-- The handles made from the acknowledgements of a batch, if there is a receiver for each. -/
theorem found_ofAcks {x : CommandE (List CommandAck)} {items : List OrderTarget} {receivers : ℕ}
    (hx : ShowsAcks _ id items x) (hreceivers : items.length = receivers)
    (hrun : (RootCommand.ofAcks x receivers).run.Ends [] τ (.ok handles)) :
    EventsFound τ handles := by
  have hreport : (RootCommand.ofAcks x receivers).run.Reports handleNote fun os r =>
      ∀ handles, r = .ok handles →
        (os : Multiset HandleNote) = showAll (fun handle => handle.ack.notes) handles := by
    refine Reports.map_ok (Reports.and_yields hx.shows hx.counts) fun os r hr handles hhandles => ?_
    cases r with
    | error e => cases hhandles
    | ok acks =>
      obtain rfl := Except.ok.inj hhandles
      have hlength : acks.length = items.length := hr.2 acks rfl
      have hmap : commandHandlesFromAcks acks receivers = acks.map .fromAck := by
        unfold commandHandlesFromAcks
        rw [List.take_of_length_le (by omega)]
      have hnotes : (os : Multiset HandleNote) = showAll (fun ack => ack.notes) acks :=
        hr.1 acks rfl
      dsimp only
      rw [hnotes, hmap]
      simp [showAll, Function.comp_def, PendingCommandHandle.fromAck]
  have hnotes := hreport.of_ends hrun handles rfl
  refine eventsFound_of_notes fun n => ?_
  rw [← Multiset.mem_coe, hnotes, mem_showAll]
  simp

theorem found_ofAck {x : CommandE CommandAck} {target : OrderTarget}
    (hx : ShowsAcks _ (fun ack => [ack]) [target] x)
    (hrun : (RootCommand.ofAck x).run.Ends [] τ (.ok handles)) : EventsFound τ handles := by
  have hlist : ShowsAcks _ id [target] (do return [← x]) :=
    (ackLogic_shows .createOrder).assembly.list hx
  have hofAcks : RootCommand.ofAck x = RootCommand.ofAcks (do return [← x]) 1 := by
    simp only [RootCommand.ofAck, RootCommand.ofAcks, LawfulMonad.bind_assoc,
      LawfulMonad.pure_bind]
    rfl
  rw [hofAcks] at hrun
  exact found_ofAcks hlist rfl hrun

theorem passesOn_cancelAllOrders (request : CancelAllOrdersRequest) :
    PassesOn (cancelAllOrders context request) := by
  have hsend : PassesOn (do finishReceipt (← sendCancelAllOrders context request)) :=
    .after (silently_sendCancelAllOrders request) passesOn_finishReceipt
  unfold cancelAllOrders
  split
  · exact .after (P := fun _ => True) (yields_throw _) fun _ => hsend
  · exact hsend

theorem passesOn_validateOrder (request : ValidateOrderRequest) :
    PassesOn (validateOrder context request) :=
  .after (preparing_validateCreateOrder _).silently fun _ => .after (silently_commandSpec _) fun spec =>
    .after (silently_sendValidateOrder spec _) fun _ => passesOn_finishReceipt _

theorem passesOn_setLeverage (request : SetLeverageRequest) :
    PassesOn (setLeverage context request) :=
  .after (silently_commandSpec _) fun spec =>
    .after (silently_sendSetLeverage spec request) passesOn_finishReceipt

theorem passesOn_setMarginMode (request : SetMarginModeRequest) :
    PassesOn (setMarginMode context request) := by
  refine .after (silently_sendSetMarginMode request) fun receipt => ?_
  split
  · exact .after (silently_call (q := .invalidateBybitAccountContext) trivial)
      fun _ => passesOn_finishReceipt receipt
  · exact passesOn_finishReceipt receipt

theorem passesOn_setPositionMode (request : SetPositionModeRequest) :
    PassesOn (setPositionMode context request) :=
  .after (silently_sendSetPositionMode request) passesOn_finishReceipt

/-- The command makes its handle from a receipt. -/
def RootCommand.RebuildsAck : RootCommand → Prop
  | .cancelAllOrders _ | .validateOrder _ | .setLeverage _ | .setMarginMode _
  | .setPositionMode _ => True
  | .createOrder _ | .createOrders _ | .editOrder _ | .editOrders _ | .cancelOrder _
  | .cancelOrders _ | .closePosition _ | .webSocketOnly _ => False

/-- The events of a command whose handles are made from acknowledgements find them. -/
theorem found_of_acks {command : RootCommand} (h : ¬ command.RebuildsAck)
    (hrun : (command.run context).run.Ends [] τ (.ok handles)) : EventsFound τ handles := by
  cases command with
  | createOrder request => exact found_ofAck ((ackLogic_shows _).createOrder request) hrun
  | createOrders request =>
    exact found_ofAcks ((ackLogic_shows _).createOrders request) (by simp) hrun
  | editOrder request => exact found_ofAck ((ackLogic_shows _).amendOrder request) hrun
  | editOrders request =>
    exact found_ofAcks ((ackLogic_shows _).amendOrders request) (by simp) hrun
  | cancelOrder request => exact found_ofAck ((ackLogic_shows _).cancelOrder request) hrun
  | cancelOrders request => exact found_ofAcks ((ackLogic_shows _).cancelOrders request) rfl hrun
  | closePosition request => exact found_ofAck ((ackLogic_shows _).closePosition request) hrun
  | cancelAllOrders request => exact absurd trivial h
  | validateOrder request => exact absurd trivial h
  | setLeverage request => exact absurd trivial h
  | setMarginMode request => exact absurd trivial h
  | setPositionMode request => exact absurd trivial h
  | webSocketOnly command =>
    have hrun : (command.run context).run.Ends [] τ (.ok handles) := hrun
    rw [command.run_eq] at hrun
    cases command with
    | createOrder request => exact found_ofAck ((ackLogic_shows _).createOrder request) hrun
    | createOrders request =>
      exact found_ofAcks ((ackLogic_shows _).createOrders request) (by simp) hrun
    | editOrder request => exact found_ofAck ((ackLogic_shows _).amendOrder request) hrun
    | editOrders request =>
      exact found_ofAcks ((ackLogic_shows _).amendOrders request) (by simp) hrun
    | cancelOrder request => exact found_ofAck ((ackLogic_shows _).cancelOrder request) hrun
    | cancelOrders request =>
      exact found_ofAcks ((ackLogic_shows _).cancelOrders request) rfl hrun
    | cancelAllOrders request =>
      -- the command is refused, so it returns no handle
      cases hrun

/-- **Events find their handle, exactly.**  In every run of a command that returns handles, the
events about the command find them exactly when, if the handle is made from a receipt, the clock
stands still between the acknowledgement and the handle. -/
theorem events_found_iff (command : RootCommand)
    (hrun : (command.run context).run.Ends [] τ (.ok handles)) :
    EventsFound τ handles ↔ (command.RebuildsAck → ClockStands τ) := by
  by_cases hrebuilds : command.RebuildsAck
  · have hhandled : HandledTwice (τ.filterMap clockNote) handles := by
      cases command with
      | cancelAllOrders request =>
        exact (passesOn_cancelAllOrders request).handled.of_ends hrun handles rfl
      | validateOrder request =>
        exact (passesOn_validateOrder request).handled.of_ends hrun handles rfl
      | setLeverage request =>
        exact (passesOn_setLeverage request).handled.of_ends hrun handles rfl
      | setMarginMode request =>
        exact (passesOn_setMarginMode request).handled.of_ends hrun handles rfl
      | setPositionMode request =>
        exact (passesOn_setPositionMode request).handled.of_ends hrun handles rfl
      | _ => exact hrebuilds.elim
    rw [hhandled.found_iff]
    exact ⟨fun h _ => h, fun h => h hrebuilds⟩
  · exact ⟨fun _ h => absurd h hrebuilds, fun _ => found_of_acks hrebuilds hrun⟩

end Commands

/-! ### A clock that ticks -/

/-- The writes of the account are lost, and every reading of the clock is a millisecond later. -/
def tickingClock : (q : CommandCall) → TimestampMs → CommandReply q × TimestampMs
  | .runtime .timestampNowMs, now => (now, now + 1)
  | q, now => ((lostWrites q ()).1, now)

/-- A run of the command with a clock that goes on at every reading. -/
def tickingTrace : CommandTrace :=
  execTrace tickingClock (leverageCommand.run (restContext .bybit)).run 0 []

/-- The handle of the command. -/
def tickingHandle : PendingCommandHandle := .fromAck { leverageAck with acknowledgedAt := 1 }

theorem ends_tickingTrace :
    (leverageCommand.run (restContext .bybit)).run.Ends [] tickingTrace (.ok [tickingHandle]) :=
  ends_exec _

theorem events_found_iff_leverage :
    EventsFound tickingTrace [tickingHandle] ↔
      (leverageCommand.RebuildsAck → ClockStands tickingTrace) :=
  events_found_iff leverageCommand ends_tickingTrace

/-- The change of the leverage is recovered, and its handle takes no event about that for its own. -/
theorem ticking_clock_loses_events :
    (leverageCommand.run (restContext .bybit)).run.Ends [] tickingTrace (.ok [tickingHandle]) ∧
      spawned tickingTrace = [leverageAck] ∧ ¬ EventsFound tickingTrace [tickingHandle] ∧
      ∀ report, tickingHandle.resolved [.lifecycle (.ack leverageAck),
        .lifecycle (.recoveryScheduled leverageAck),
        .lifecycle (.recoveryCompleted leverageAck report)] = none := by
  have hspawned : spawned tickingTrace = [leverageAck] := rfl
  have hne : tickingHandle.ack ≠ leverageAck := by decide
  refine ⟨ends_tickingTrace, hspawned, fun hfound => ?_, fun report => ?_⟩
  · have hspawn : ⟨.spawnReconcile leverageAck, ()⟩ ∈ tickingTrace :=
      mem_spawned_iff.1 (by rw [hspawned]; simp)
    obtain ⟨handle, hhandle, hmatch⟩ := hfound.completed _ hspawn
      { trigger := .unknownExecution, outcome := .synchronized, repairedAt := 2, note := none }
    obtain rfl := List.mem_singleton.1 hhandle
    exact hne (by simpa using hmatch)
  · have hwaits : tickingHandle.ack.receipt.status = .unknownExecution := rfl
    unfold PendingCommandHandle.resolved PendingCommandHandle.recovered
    simp [hwaits, PendingCommandHandle.nextLifecycle, hne]

end BatMarkets
