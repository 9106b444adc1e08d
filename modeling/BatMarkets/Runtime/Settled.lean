import BatMarkets.Core.Independence
import BatMarkets.Runtime.Snapshot

/-!
# Repairs of an account that is settled

The engine may have got out of step with the venue in any way: events were lost, a late snapshot
was written, the state diverged.  Once the positions and orders of the venue no longer change, and
the events that are still under way tell how they are now, the refreshes and reconciles of the
runtime (`runtime.rs`) repair it, whatever its state is, in any number and any interleaving.

`EngineOp.Truthful` says that what an operation writes is what the venue has.  A truthful operation
repairs the slots it is about and leaves the others alone, so a slot that was repaired once stays
repaired.

## Main results

* `always_reconcilePrivate_of` : of a reconcile, only its refresh of the open orders lists open
  orders.
* `shows_of_wrote` : a slot some task has written shows what the venue has.
* `engine_agrees_of_repaired` : after a repair of the positions and one of the orders, the engine
  agrees with the venue.
-/

namespace BatMarkets

open Interleaving Ordered RuntimeM Transition

/-! ### Truthful operations -/

/-- The open orders of the list are those of the venue. -/
structure VenueState.ListsOrders (v : VenueState) (os : List Order) : Prop where
  sound : ∀ o ∈ os, v.ShowsOrder o
  complete : v.ListsOpen (fun _ => True) os

/-- What the operation writes to positions and orders is what the venue has. -/
def EngineOp.Truthful (v : VenueState) : EngineOp → Prop
  | .applyPrivateEvent (.position p) => p.view.shown = v.shows (.position p.instrumentId)
  | .applyPrivateEvent (.order o) => v.ShowsOrder o
  | .replacePositions ps => v.ListsPositions ps
  | .replaceOpenOrders os => v.ListsOrders os
  | .mergeOrderHistory os => ∀ o ∈ os, v.ShowsOrder o
  | .applyPrivateSnapshot snapshot =>
    v.ListsPositions snapshot.positions ∧ v.ListsOrders snapshot.openOrders
  | _ => True

/-- The cell that decides what a slot shows. -/
def Slot.cell : Slot → Cell
  | .position i => .position i
  | .order id => .order id

section Truthful

variable {v : VenueState} {s s' : EngineState} {k : Slot} {op : EngineOp}

theorem shows_of_content (h : s.content k.cell = s'.content k.cell) : s.shows k = s'.shows k := by
  cases k with
  | position i => exact congrArg (Option.bind · (·.view.shown)) h
  | order id => exact congrArg (Option.bind · (·.view.shown)) h

/-- A truthful operation repairs the slots it is about. -/
theorem shows_apply_of_truthful (hleg : v.OneLeg) (h : op.Truthful v)
    (hk : op.concerns k.cell = true) : (s.apply op).shows k = v.shows k := by
  -- only what is written of the slot matters, and that is what the venue has
  cases op with
  | applyPrivateEvent event =>
    cases event with
    | position p =>
      cases k with
      | position i =>
        obtain rfl : p.instrumentId = i := of_decide_eq_true hk
        refine Eq.trans ?_ h
        simp [EngineState.apply, EngineState.applyPrivateEvent, EngineState.shows,
          Index.get?_insert]
      | order => cases hk
    | order o =>
      cases k with
      | order id =>
        obtain rfl : o.orderId = id := of_decide_eq_true hk
        refine Eq.trans ?_ h
        simp [EngineState.apply, EngineState.applyPrivateEvent, EngineState.shows,
          Index.get?_insert]
      | position => cases hk
    | balance | execution | divergence => cases k <;> cases hk
  | replacePositions ps =>
    cases k with
    | position i => exact (s.shows_replacePositions ps (.position i)).trans (h.shows hleg i)
    | order => cases hk
  | replaceOpenOrders os =>
    cases k with
    | order id =>
      exact (s.shows_replaceOpenOrders os (.order id)).trans (h.complete.shows h.sound trivial)
    | position => cases hk
  | mergeOrderHistory os =>
    cases k with
    | order id =>
      have hlisted : ∃ o ∈ os, o.orderId = id := by simpa [EngineOp.concerns, Slot.cell] using hk
      obtain ⟨o, ho, hid⟩ := hlisted
      cases hl : lastOf Order.orderId id os with
      | none => exact absurd hid (lastOf_eq_none.1 hl o ho)
      | some o =>
        refine (s.shows_mergeOrderHistory os (.order id)).trans ?_
        simp only [hl]
        exact VenueState.shows_of_lastOf h hl
    | position => cases hk
  | applyPrivateSnapshot snapshot =>
    cases k with
    | position i =>
      refine (EngineState.shows_replaceOpenOrders _ (.position i)).trans ?_
      exact (EngineState.shows_replacePositions _ (.position i)).trans (h.1.shows hleg i)
    | order id =>
      exact (EngineState.shows_replaceOpenOrders _ (.order id)).trans
        (h.2.complete.shows h.2.sound trivial)
  | applyPublicEvent | applyCommandReceipt | replaceInstruments | replaceAccountSnapshot
  | mergeExecutions | applyReconcileReport | markRestSuccess | markPublicDisconnect
  | markPrivateDisconnect | markReconnect | markSnapshotAge => cases k <;> cases hk

/-- What truthful operations do to a slot. -/
theorem shows_run_of_truthful (hleg : v.OneLeg) {ops : List EngineOp}
    (h : ∀ op ∈ ops, op.Truthful v)
    (hk : s.shows k = v.shows k ∨ ∃ op ∈ ops, op.concerns k.cell = true) :
    (ops.foldl EngineState.apply s).shows k = v.shows k := by
  induction ops generalizing s with
  | nil => exact hk.resolve_right (by simp)
  | cons op ops ih =>
    rw [List.forall_mem_cons] at h
    refine ih h.2 ?_
    cases hop : op.concerns k.cell with
    | true => exact .inl (shows_apply_of_truthful hleg h.1 hop)
    | false =>
      refine hk.imp (fun hs => ?_) fun hex => ?_
      · exact (shows_of_content (EngineState.content_apply_of_skip hop)).trans hs
      · obtain ⟨op', hmem, hop'⟩ := hex
        rcases List.mem_cons.1 hmem with rfl | hmem
        · rw [hop] at hop'
          cases hop'
        · exact ⟨op', hmem, hop'⟩

end Truthful

/-! ### Requests for open orders -/

/-- The request lists open orders. -/
def RuntimeCall.listsOpen : RuntimeCall → Bool
  | .signedGet .openOrders _ | .signedGet .openAlgoOrders _ => true
  | _ => false

section Requests

variable {context : LiveContext} {G : SnapshotTrace → RuntimeCall → Prop}
  (hG : ∀ τ q, q.listsOpen = false → G τ q)

include hG

theorem always_signedGet {decoder : Decoder} {path : String} {query : List (String × String)}
    {operation : String} (h : ∀ request, (RuntimeCall.signedGet decoder request).listsOpen = false) :
    (signedGet decoder path query operation).run.Always G :=
  fun _ => ⟨hG _ _ (h _), fun _ => trivial⟩

/-- The rule for a write after a reading. -/
theorem always_write {ops : List EngineOp} {α : Type} {a : α} :
    (do RuntimeM.write ops; return a : RuntimeE α).run.Always G :=
  fun _ => ⟨hG _ _ rfl, fun _ => trivial⟩

theorem always_requireSpec_of (i : InstrumentId) : (requireSpec context i).run.Always G := by
  refine fun τ => ⟨hG _ _ rfl, fun spec => ?_⟩
  cases spec <;> trivial

theorem always_fetchBalance_of : (fetchBalance context).run.Always G := by
  obtain ⟨venue, product, stale⟩ := context
  cases venue with
  | binance => exact (always_signedGet hG fun _ => rfl).attempt fun _ => always_write hG
  | bybit =>
    refine Prog.Always.attempt ?_ fun _ =>
      (always_signedGet hG fun _ => rfl).attempt fun _ => always_write hG
    refine fun τ => ⟨hG _ _ rfl, fun cached => ?_⟩
    cases cached with
    | some cached => trivial
    | none =>
      exact spec_signedGet (hG _ _ rfl) (fun _ => trivial) fun _ =>
        ⟨hG _ _ rfl, fun _ => trivial⟩
  | mexc => exact (always_signedGet hG fun _ => rfl).attempt fun _ => always_write hG

theorem always_refreshPositions_of : (refreshPositions context).run.Always G := by
  obtain ⟨venue, product, stale⟩ := context
  cases venue with
  | binance | bybit | mexc =>
    exact (always_signedGet hG fun _ => rfl).attempt fun _ => always_write hG

theorem always_getOrder_of (request : GetOrderRequest) :
    (getOrder context request).run.Always G := by
  refine (always_requireSpec_of hG _).attempt fun spec => ?_
  cases orderLookup context spec request with
  | error e => exact fun τ => trivial
  | ok lookup =>
    exact (always_signedGet hG fun _ => rfl).attempt fun _ _ =>
      ⟨hG _ _ rfl, fun _ => ⟨hG _ _ rfl, fun _ => trivial⟩⟩

theorem always_repairTimeWindow_of (i : InstrumentId) (pending : List PendingUnknownCommand) :
    (liftM (repairTimeWindow i pending) : RuntimeE _).run.Always G :=
  fun _ => ⟨hG _ _ rfl, fun _ => ⟨hG _ _ rfl, fun _ => ⟨hG _ _ rfl, fun _ => trivial⟩⟩⟩

theorem always_refreshRecentOrderHistory_of (i : InstrumentId)
    (pending : List PendingUnknownCommand) :
    (refreshRecentOrderHistory context i pending).run.Always G :=
  (always_requireSpec_of hG i).attempt fun _ =>
    (always_repairTimeWindow_of hG i pending).attempt fun _ => always_signedGet hG fun _ => rfl

theorem always_refreshRecentExecutionHistory_of (i : InstrumentId)
    (pending : List PendingUnknownCommand) :
    (refreshRecentExecutionHistory context i pending).run.Always G :=
  (always_repairTimeWindow_of hG i pending).attempt fun _ =>
    (always_requireSpec_of hG i).attempt fun _ => always_signedGet hG fun _ => rfl

theorem always_refreshExecutionsOfGroups_of
    (groups : List (InstrumentId × List PendingUnknownCommand)) :
    (refreshExecutionsOfGroups context groups).run.Always G := by
  induction groups with
  | nil => exact fun _ => trivial
  | cons group groups ih =>
    refine fun τ => ⟨hG _ _ rfl, fun spec => ?_⟩
    cases spec with
    | none => exact ih _
    | some spec =>
      refine (always_refreshRecentExecutionHistory_of hG group.1 group.2).attempt ?_ _
      exact fun executions τ => ⟨hG _ _ rfl, fun _ => ih _⟩

theorem always_resolvePendingFromLocalState_of (pending : List PendingUnknownCommand) :
    (liftM (resolvePendingFromLocalState pending) : RuntimeE _).run.Always G := by
  unfold resolvePendingFromLocalState
  split
  · exact fun _ => trivial
  · exact fun _ => ⟨hG _ _ rfl, fun _ => trivial⟩

theorem always_lookupOrders_of (pending : List PendingUnknownCommand) :
    (lookupOrders context pending).run.Always G := by
  induction pending with
  | nil => exact fun _ => trivial
  | cons command pending ih =>
    suffices hlookup : (lookupOrder context command).run.Always G by
      refine hlookup.attempt fun resolved => ih.attempt fun unresolved => ?_
      exact fun _ => trivial
    unfold lookupOrder
    rw [ExceptT.run_mk]
    split
    · refine (always_getOrder_of hG command.orderRequest).bind fun r => ?_
      cases r with
      | ok o => exact fun _ => trivial
      | error e =>
        dsimp only
        split <;> exact fun _ => trivial
    · exact fun _ => trivial

theorem always_resolveGroups_of {ρ : Type}
    {refresh : InstrumentId → List PendingUnknownCommand → RuntimeE (List ρ)}
    {merge : List ρ → EngineOp}
    {unresolvedAfter : List PendingUnknownCommand → List ρ → List PendingUnknownCommand}
    (hrefresh : ∀ i commands, (refresh i commands).run.Always G)
    (groups : List (InstrumentId × List PendingUnknownCommand)) :
    (resolveGroups refresh merge unresolvedAfter groups).run.Always G := by
  induction groups with
  | nil => exact fun _ => trivial
  | cons group groups ih =>
    refine (hrefresh group.1 group.2).attempt fun records τ => ⟨hG _ _ rfl, fun _ => ?_⟩
    refine ih.attempt (fun unresolved => ?_) _
    exact fun _ => trivial

theorem always_resolvePendingUnknownCommands_of :
    (resolvePendingUnknownCommands context).run.Always G := by
  have hreplace : ∀ (pending : List PendingUnknownCommand) (n : ℕ),
      (do replacePendingUnknownCommands pending; return n : RuntimeE ℕ).run.Always G :=
    fun _ _ _ => ⟨hG _ _ rfl, fun _ => trivial⟩
  refine Prog.Always.attempt (fun _ => ⟨hG _ _ rfl, fun _ => trivial⟩) fun pending => ?_
  refine (always_resolvePendingFromLocalState_of hG pending).attempt fun pending => ?_
  split
  · exact fun _ => trivial
  · refine (always_lookupOrders_of hG pending).attempt fun unresolved => ?_
    refine (always_resolvePendingFromLocalState_of hG unresolved).attempt fun unresolved => ?_
    split
    · exact hreplace [] 0
    · refine Prog.Always.attempt
        (always_resolveGroups_of hG (always_refreshRecentOrderHistory_of hG) _) fun unresolved => ?_
      split
      · exact hreplace [] 0
      · exact (always_resolveGroups_of hG (always_refreshRecentExecutionHistory_of hG) _).attempt
          fun unresolved => hreplace unresolved _

/-- **Only the refresh of the open orders lists open orders**: what permits all other calls, and
those of the refresh, permits a reconcile. -/
theorem always_reconcilePrivate_of (hopen : (refreshOpenOrders context none).run.Always G)
    (trigger : ReconcileTrigger) : (reconcilePrivate context trigger).run.Always G := by
  have hsteps : ∀ mode, (reconcileSteps context trigger mode).run.Always G := by
    intro mode
    refine Prog.Always.attempt
      ((always_fetchBalance_of hG).attempt fun _ _ => trivial) fun _ => ?_
    refine (always_refreshPositions_of hG).attempt fun _ => hopen.attempt fun _ => ?_
    cases mode with
    | snapshotOnly => exact fun _ => trivial
    | recentHistoryRepair =>
      refine Prog.Always.attempt (x := (liftM (read .health) : RuntimeE HealthReport))
        (fun _ => ⟨hG _ _ rfl, fun _ => trivial⟩) fun health => ?_
      cases executionRepairScope trigger health with
      | localEvidence =>
        refine Prog.Always.attempt (fun _ => ⟨hG _ _ rfl, fun _ => ⟨hG _ _ rfl, fun _ =>
          always_refreshExecutionsOfGroups_of hG _ _⟩⟩) fun _ => ?_
        exact always_resolvePendingUnknownCommands_of hG
      | pendingUnknownOnly => exact always_resolvePendingUnknownCommands_of hG
  refine Prog.Always.bind (fun _ => ⟨hG _ _ rfl, fun _ => trivial⟩) fun repairedAt => ?_
  refine Prog.Always.bind ?_ fun mode => (hsteps mode).bind fun result => fun τ =>
    ⟨hG _ _ rfl, fun _ => trivial⟩
  cases trigger with
  | periodic => exact fun _ => ⟨hG _ _ rfl, fun _ => ⟨hG _ _ rfl, fun _ => trivial⟩⟩
  | manual | reconnect | sequenceGap | unknownExecution => exact fun _ => trivial

end Requests

/-! ### What the tasks ask for and write -/

/-- A request for open orders is one for all of them. -/
def RuntimeCall.AsksForAll : RuntimeCall → Prop
  | .signedGet .openOrders request | .signedGet .openAlgoOrders request => request.AsksForAll
  | _ => True

theorem asksForAll_of_listsOpen {q : RuntimeCall} (h : q.listsOpen = false) : q.AsksForAll := by
  cases q with
  | signedGet decoder request => cases decoder <;> trivial
  | _ => trivial

/-- The task has written something about the slot. -/
def Wrote (k : Slot) (τ : SnapshotTrace) : Prop :=
  ∃ ops, ⟨.write ops, ()⟩ ∈ τ ∧ ∃ op ∈ ops, op.concerns k.cell = true

section Writes

variable {context : LiveContext} {τ : SnapshotTrace} {α : Type} {k : Slot}

theorem always_refreshOpenOrders_asksForAll :
    (refreshOpenOrders context none).run.Always fun _ q => q.AsksForAll := by
  refine Prog.Always.attempt ?_ fun os => always_write fun _ _ => asksForAll_of_listsOpen
  obtain ⟨venue, product, stale⟩ := context
  have hask : ∀ {decoder : Decoder} {path : String} {query : List (String × String)}
      {operation : String}, (RuntimeCall.signedGet decoder ⟨path, query, operation⟩).AsksForAll →
      (signedGet decoder path query operation).run.Always fun _ q => q.AsksForAll :=
    fun h _ => ⟨h, fun _ => trivial⟩
  cases venue with
  | binance =>
    refine (hask (by simp [RuntimeCall.AsksForAll, SignedGet.AsksForAll])).attempt fun os => ?_
    refine (hask (by simp [RuntimeCall.AsksForAll, SignedGet.AsksForAll])).attempt fun os' => ?_
    exact fun _ => trivial
  | bybit => exact hask (by simp [RuntimeCall.AsksForAll, SignedGet.AsksForAll])
  | mexc => exact hask (by simp [RuntimeCall.AsksForAll, SignedGet.AsksForAll])

/-- What was written stays written. -/
theorem spec_of_wrote (h : Wrote k τ) (t : RuntimeM α) :
    t.Spec (fun _ _ => True) (fun τ' _ => Wrote k τ') τ := by
  refine (Prog.spec_suffix t τ).mono (fun _ _ h => h) fun τ' _ hsuffix => ?_
  obtain ⟨ops, hmem, hop⟩ := h
  exact ⟨ops, hsuffix.subset hmem, hop⟩

theorem spec_trivial (t : RuntimeM α) : t.Spec (fun _ _ => True) (fun _ _ => True) τ :=
  (Prog.spec_suffix t τ).mono (fun _ _ h => h) fun _ _ _ => trivial

/-- A refresh of the positions that succeeds has written about all positions. -/
theorem spec_refreshPositions (i : InstrumentId) :
    (refreshPositions context).run.Spec (fun _ _ => True)
      (fun τ r => ∀ ps, r = .ok ps → Wrote (.position i) τ) τ := by
  obtain ⟨venue, product, stale⟩ := context
  cases venue with
  | binance =>
    exact spec_signedGet trivial (fun _ _ h => by cases h) fun reply => ⟨trivial, fun _ _ _ =>
      ⟨_, List.mem_cons_self, .replacePositions reply.2, by simp, rfl⟩⟩
  | bybit | mexc =>
    exact spec_signedGet trivial (fun _ _ h => by cases h) fun ps => ⟨trivial, fun _ _ _ =>
      ⟨_, List.mem_cons_self, .replacePositions ps, by simp, rfl⟩⟩

/-- A refresh of the open orders that succeeds has written about all orders. -/
theorem spec_refreshOpenOrders (request : Option ListOpenOrdersRequest) (id : OrderId) :
    (refreshOpenOrders context request).run.Spec (fun _ _ => True)
      (fun τ r => ∀ os, r = .ok os → Wrote (.order id) τ) τ := by
  refine Prog.spec_attempt ((spec_trivial _).mono (fun _ _ h => h) fun τ r _ => ?_)
  cases r with
  | error e =>
    intro os h
    cases h
  | ok os =>
    exact ⟨trivial, fun _ _ _ =>
      ⟨_, List.mem_cons_self, .replaceOpenOrders os, by simp, rfl⟩⟩

/-- The steps of a reconcile that succeed have written about everything. -/
theorem spec_reconcileSteps_wrote (trigger : ReconcileTrigger) (mode : PrivateReconcileMode)
    (k : Slot) : (reconcileSteps context trigger mode).run.Spec (fun _ _ => True)
      (fun τ r => ∀ n, r = .ok n → Wrote k τ) τ := by
  have hwrote : ∀ {β : Type} {τ : SnapshotTrace} {t : RuntimeE β}, Wrote k τ →
      t.run.Spec (fun _ _ => True) (fun τ r => ∀ n, r = .ok n → Wrote k τ) τ :=
    fun h => (spec_of_wrote h _).mono (fun _ _ h => h) fun _ _ h _ _ => h
  have herror : ∀ {β : Type} {τ : SnapshotTrace} (e : MarketError),
      ∀ n : β, (Except.error e : Except MarketError β) = .ok n → Wrote k τ := by
    intro β τ e n h
    cases h
  refine Prog.spec_attempt ((spec_trivial _).mono (fun _ _ h => h) fun τ r _ => ?_)
  cases r with
  | error e => exact herror e
  | ok summary =>
    cases k with
    | position i =>
      refine Prog.spec_attempt ((spec_refreshPositions i).mono (fun _ _ h => h) fun τ r hr => ?_)
      cases r with
      | error e => exact herror e
      | ok ps => exact hwrote (hr ps rfl)
    | order id =>
      refine Prog.spec_attempt ((spec_trivial _).mono (fun _ _ h => h) fun τ r _ => ?_)
      cases r with
      | error e => exact herror e
      | ok ps =>
        refine Prog.spec_attempt
          ((spec_refreshOpenOrders none id).mono (fun _ _ h => h) fun τ r hr => ?_)
        cases r with
        | error e => exact herror e
        | ok os => exact hwrote (hr os rfl)

/-- A reconcile that succeeds has written about everything. -/
theorem spec_reconcilePrivate_wrote (trigger : ReconcileTrigger) (k : Slot) :
    (reconcilePrivate context trigger).run.Spec (fun _ _ => True)
      (fun τ r => ∀ report, r = .ok report → Wrote k τ) τ := by
  refine Prog.spec_bind.2 ⟨trivial, fun repairedAt => Prog.spec_bind.2 ?_⟩
  refine (spec_trivial _).mono (fun _ _ h => h) fun τ mode _ => Prog.spec_bind.2 ?_
  refine (spec_reconcileSteps_wrote trigger mode k).mono (fun _ _ h => h) fun τ result hresult => ?_
  refine ⟨trivial, fun _ report hreport => ?_⟩
  cases result with
  | error e => cases hreport
  | ok n =>
    obtain ⟨ops, hmem, hop⟩ := hresult n rfl
    exact ⟨ops, List.mem_cons_of_mem _ hmem, hop⟩

end Writes

/-! ### The runs -/

/-- The tasks that read positions and orders over REST, all of them or one order.  A refresh of the
open orders of one instrument is not among them. -/
inductive RepairTask
  | fetchBalance
  | refreshPositions
  | refreshOpenOrders
  | getOrder (request : GetOrderRequest)
  | reconcilePrivate (trigger : ReconcileTrigger)

namespace RepairTask

/-- A task that succeeds ends with itself. -/
def prog (context : LiveContext) (task : RepairTask) : RuntimeM (Except MarketError RepairTask) :=
  match task with
  | .fetchBalance => (do
      let _ ← BatMarkets.fetchBalance context
      return task : RuntimeE RepairTask).run
  | .refreshPositions => (do
      let _ ← BatMarkets.refreshPositions context
      return task : RuntimeE RepairTask).run
  | .refreshOpenOrders => (do
      let _ ← BatMarkets.refreshOpenOrders context none
      return task : RuntimeE RepairTask).run
  | .getOrder request => (do
      let _ ← BatMarkets.getOrder context request
      return task : RuntimeE RepairTask).run
  | .reconcilePrivate trigger => (do
      let _ ← BatMarkets.reconcilePrivate context trigger
      return task : RuntimeE RepairTask).run

/-- A task that succeeds has repaired the slot. -/
def Repairs : RepairTask → Slot → Prop
  | .refreshPositions, .position _ => True
  | .refreshOpenOrders, .order _ => True
  | .reconcilePrivate _, _ => True
  | _, _ => False

end RepairTask

/-- The meaning of the calls, when the positions and orders of the venue are `v`. -/
def serveSettled (context : LiveContext) (v : VenueState) (s : EngineState) :
    (q : RuntimeCall) → RuntimeReply q → EngineState → Prop
  | .write ops, _, s' => s' = ops.foldl EngineState.apply s
  | .read what, r, s' => r = what.eval s ∧ s' = s
  | .signedGet decoder request, r, s' =>
    Answers context v ⟨.signedGet decoder request, r⟩ ∧ s' = s
  | _, _, s' => s' = s

/-- Tasks over a settled account; everything else that is applied to the engine state meanwhile is
truthful about it. -/
def settledInterpretation (context : LiveContext) (v : VenueState) :
    Interpretation EngineState RuntimeCall RuntimeReply (Except MarketError RepairTask) where
  start t := ∃ task : RepairTask, t = task.prog context
  serve := serveSettled context v
  env s s' := ∃ op : EngineOp, op.Truthful v ∧ s' = s.apply op

/-- Repairs over the engine state. -/
abbrev SettledPool := Pool EngineState RuntimeCall RuntimeReply (Except MarketError RepairTask)

/-- The runs from any engine state. -/
abbrev settledSystem (context : LiveContext) (v : VenueState) : System SettledPool Action :=
  (settledInterpretation context v).system fun _ => True

section Runs

variable {context : LiveContext} {v : VenueState} {p : SettledPool}

/-- What a task may do. -/
def RepairCall (context : LiveContext) (τ : SnapshotTrace) (q : RuntimeCall) : Prop :=
  WritesReadings context τ q ∧ q.AsksForAll

theorem always_repairTask (task : RepairTask) :
    (task.prog context).Always (RepairCall context) := by
  have hasks : ∀ (τ : SnapshotTrace) (q : RuntimeCall), q.listsOpen = false → q.AsksForAll :=
    fun _ _ => asksForAll_of_listsOpen
  have hend : ∀ {β : Type} {t : RuntimeE β}, t.run.Always (WritesReadings context) →
      t.run.Always (fun _ q => q.AsksForAll) →
      (do let _ ← t; return task : RuntimeE RepairTask).run.Always (RepairCall context) :=
    fun h h' => (h.and h').attempt fun _ _ => trivial
  cases task with
  | fetchBalance => exact hend always_fetchBalance (always_fetchBalance_of hasks)
  | refreshPositions => exact hend always_refreshPositions (always_refreshPositions_of hasks)
  | refreshOpenOrders =>
    exact hend (always_refreshOpenOrders none) always_refreshOpenOrders_asksForAll
  | getOrder request => exact hend (always_getOrder request) (always_getOrder_of hasks request)
  | reconcilePrivate trigger =>
    exact hend (always_reconcilePrivate trigger)
      (always_reconcilePrivate_of hasks always_refreshOpenOrders_asksForAll trigger)

/-- A task that has succeeded has written about the slots it repairs. -/
theorem spec_repairTask (task : RepairTask) (k : Slot) :
    (task.prog context).Spec (fun _ _ => True)
      (fun τ r => ∀ done, r = .ok done → done.Repairs k → Wrote k τ) [] := by
  -- the result of a call is dropped, so only its writes are looked at
  have hend : ∀ {β : Type} {t : RuntimeE β},
      t.run.Spec (fun _ _ => True) (fun τ r => ∀ a, r = .ok a → task.Repairs k → Wrote k τ) [] →
      (do let _ ← t; return task : RuntimeE RepairTask).run.Spec (fun _ _ => True)
        (fun τ r => ∀ done, r = .ok done → done.Repairs k → Wrote k τ) [] := by
    intro β t h
    refine Prog.spec_attempt (h.mono (fun _ _ h => h) fun τ r hr => ?_)
    cases r with
    | error e =>
      intro done hdone
      cases hdone
    | ok a =>
      intro done hdone
      obtain rfl := Except.ok.inj hdone
      exact hr a rfl
  -- a call that repairs nothing has nothing to show
  have hnone : ∀ {β : Type} {t : RuntimeE β}, ¬ task.Repairs k →
      t.run.Spec (fun _ _ => True) (fun τ r => ∀ a, r = .ok a → task.Repairs k → Wrote k τ) [] :=
    fun h => (spec_trivial _).mono (fun _ _ h => h) fun _ _ _ _ _ hrepairs => absurd hrepairs h
  cases task with
  | fetchBalance => exact hend (hnone fun h => h)
  | getOrder request => exact hend (hnone fun h => h)
  | refreshPositions =>
    cases k with
    | position i =>
      exact hend ((spec_refreshPositions i).mono (fun _ _ h => h) fun _ _ h a ha _ => h a ha)
    | order id => exact hend (hnone fun h => h)
  | refreshOpenOrders =>
    cases k with
    | position i => exact hend (hnone fun h => h)
    | order id =>
      exact hend ((spec_refreshOpenOrders none id).mono (fun _ _ h => h)
        fun _ _ h a ha _ => h a ha)
  | reconcilePrivate trigger =>
    exact hend ((spec_reconcilePrivate_wrote trigger k).mono (fun _ _ h => h)
      fun _ _ h a ha _ => h a ha)

/-- What is backed by the answers of the venue is truthful. -/
theorem truthful_of_backed {readings : SnapshotTrace} {op : EngineOp}
    (hdecoded : ∀ id, v.DecodedAlike context id) (h : Backed context readings op)
    (hanswers : ∀ e ∈ readings, Answers context v e)
    (hasks : ∀ e ∈ readings, e.1.AsksForAll) : op.Truthful v := by
  have hshows : ∀ {o : Order}, v.HasOrder context o → v.ShowsOrder o :=
    fun h => h.shows (hdecoded _)
  cases h with
  | other hleaves => cases op <;> trivial
  | accountAndPositions he => exact (hanswers _ he).records
  | positions he => exact (hanswers _ he).records
  | @openOrders request os hvenue he =>
    have hall : v.ListsOpen (RegularId context) os :=
      (hanswers _ he).complete (not_not.2 (hasks _ he))
    exact ⟨fun o ho => hshows ((hanswers _ he).records o ho).1,
      fun q hq hopen _ => hall q hq hopen fun hb => absurd hb hvenue⟩
  | @openAndAlgoOrders request request' os os' hvenue he he' =>
    have hall : v.ListsOpen (RegularId context) os :=
      (hanswers _ he).complete (not_not.2 (hasks _ he))
    have hall' : v.ListsOpen (¬ RegularId context ·) os' :=
      (hanswers _ he').complete (not_not.2 (hasks _ he'))
    refine ⟨fun o ho => ?_, fun q hq hopen _ => ?_⟩
    · rcases List.mem_append.1 ho with ho | ho
      · exact hshows ((hanswers _ he).records o ho).1
      · exact hshows ((hanswers _ he').records o ho).1
    · by_cases hid : RegularId context q.orderId
      · obtain ⟨o, ho, heq⟩ := hall q hq hopen hid
        exact ⟨o, List.mem_append_left _ ho, heq⟩
      · obtain ⟨o, ho, heq⟩ := hall' q hq hopen hid
        exact ⟨o, List.mem_append_right _ ho, heq⟩
  | order he => exact hshows (hanswers _ he).records
  | orderHistory he => exact fun o ho => hshows ((hanswers _ he).records o ho)

/-- The answers a task has got are those of the venue. -/
theorem answers_of_reachable (hp : (settledSystem context v).Reachable p) :
    ∀ θ ∈ p.threads, ∀ e ∈ θ.trace, Answers context v e := by
  intro θ hθ e he
  obtain ⟨x, hx, rfl⟩ := List.mem_map.1 he
  refine log_of_reachable (J := fun _ e _ => Answers context v e) (fun s q r s' hs => ?_)
    (fun _ _ _ _ h _ => h) hp θ hθ x hx
  cases q with
  | signedGet decoder request => exact hs.1
  | _ => exact ⟨trivial, fun _ => trivial⟩

/-- The operations a task is about to write are truthful. -/
theorem truthful_of_reachable (hdecoded : ∀ id, v.DecodedAlike context id)
    (hp : (settledSystem context v).Reachable p)
    {θ : Thread EngineState RuntimeCall RuntimeReply (Except MarketError RepairTask)}
    (hθ : θ ∈ p.threads) {ops : List EngineOp} {k} (hprog : θ.prog = .call (.write ops) k) :
    ∀ op ∈ ops, op.Truthful v := by
  have halways : ∀ t, (settledInterpretation context v).start t → t.Always (RepairCall context) := by
    rintro t ⟨task, rfl⟩
    exact always_repairTask task
  have hspec := spec_of_reachable (fun t ht => halways t ht []) hp θ hθ
  rw [hprog] at hspec
  have hpast := pastMeets_of_reachable halways hp θ hθ
  intro op hop
  have hreadings : ∀ {e}, e ∈ sinceWrite θ.trace → e ∈ θ.trace :=
    fun h => (List.takeWhile_sublist _).subset h
  exact truthful_of_backed hdecoded (hspec.1.1 op hop)
    (fun e he => answers_of_reachable hp θ hθ e (hreadings he))
    fun e he => hpast.forall_mem (fun _ _ h => h.2) e (hreadings he)

theorem wrote_cons {e : Event RuntimeCall RuntimeReply} {τ : SnapshotTrace} {k : Slot} :
    Wrote k (e :: τ) ↔
      (∃ ops, e = ⟨.write ops, ()⟩ ∧ ∃ op ∈ ops, op.concerns k.cell = true) ∨ Wrote k τ := by
  unfold Wrote
  constructor
  · rintro ⟨ops, hmem, hop⟩
    rcases List.mem_cons.1 hmem with rfl | hmem
    · exact .inl ⟨ops, rfl, hop⟩
    · exact .inr ⟨ops, hmem, hop⟩
  · rintro (⟨ops, rfl, hop⟩ | ⟨ops, hmem, hop⟩)
    · exact ⟨ops, List.mem_cons_self, hop⟩
    · exact ⟨ops, List.mem_cons_of_mem _ hmem, hop⟩

/-- Only writes change the engine state. -/
theorem world_of_not_write {s s' : EngineState} {q : RuntimeCall} {r : RuntimeReply q}
    (hq : q.isWrite = false) (hs : serveSettled context v s q r s') : s' = s := by
  cases q with
  | write ops => cases hq
  | signedGet | read => exact hs.2
  | _ => exact hs

/-- What a slot shows after a task has written about it. -/
def Repaired (v : VenueState) (p : SettledPool) : Prop :=
  ∀ θ ∈ p.threads, ∀ k, Wrote k θ.trace → p.world.shows k = v.shows k

/-- **One step** keeps repaired slots as they are. -/
theorem Repaired.step {p' : SettledPool} {a : Action} (hleg : v.OneLeg)
    (hdecoded : ∀ id, v.DecodedAlike context id) (hp : (settledSystem context v).Reachable p)
    (h : Repaired v p) (hst : (settledSystem context v).step p a p') : Repaired v p' := by
  cases hst with
  | start _ =>
    intro θ hθ k hk
    rcases List.mem_append.1 hθ with hθ | hθ
    · exact h θ hθ k hk
    · rw [List.mem_singleton.1 hθ] at hk
      obtain ⟨ops, hmem, -⟩ := hk
      cases hmem
  | env hmove =>
    obtain ⟨op, hop, rfl⟩ := hmove
    intro θ hθ k hk
    exact shows_run_of_truthful hleg (List.forall_mem_singleton.2 hop) (.inl (h θ hθ k hk))
  | @run i log q f r s' hi hs =>
    have hmem := List.mem_of_getElem? hi
    intro θ hθ k hk
    -- what the thread, or another one, had written about before the step
    have hold : θ ∈ p.threads ∨ θ.trace = ⟨q, r⟩ :: Thread.trace ⟨log, .call q f⟩ :=
      (mem_threads_set hθ).imp_right fun heq => by rw [heq]; rfl
    cases hq : q.isWrite with
    | false =>
      rw [show s' = p.world from world_of_not_write hq hs]
      rcases hold with hold | hold
      · exact h θ hold k hk
      · rw [hold, wrote_cons] at hk
        refine hk.elim (fun ⟨ops, heq, _⟩ => ?_) (h _ hmem k)
        obtain rfl : q = .write ops := congrArg Sigma.fst heq
        cases hq
    | true =>
      obtain ⟨ops, rfl⟩ : ∃ ops, q = .write ops := by
        cases q with
        | write ops => exact ⟨ops, rfl⟩
        | _ => cases hq
      obtain rfl : s' = _ := hs
      refine shows_run_of_truthful hleg (truthful_of_reachable hdecoded hp hmem rfl) ?_
      rcases hold with hold | hold
      · exact .inl (h θ hold k hk)
      · rw [hold, wrote_cons] at hk
        refine hk.elim (fun ⟨ops', heq, hop⟩ => .inr ?_) fun hk => .inl (h _ hmem k hk)
        obtain rfl : ops = ops' := RuntimeCall.write.inj (congrArg Sigma.fst heq)
        exact hop

/-- A slot some task has written about shows what the venue has. -/
theorem shows_of_wrote (hleg : v.OneLeg) (hdecoded : ∀ id, v.DecodedAlike context id)
    (hp : (settledSystem context v).Reachable p) : Repaired v p := by
  have hinv : (settledSystem context v).Reachable p ∧ Repaired v p := by
    refine hp.invariant (I := fun p => (settledSystem context v).Reachable p ∧ Repaired v p)
      (fun p hinit => ⟨.init hinit, fun θ hθ => ?_⟩) fun p a p' hinv _ hst =>
        ⟨hinv.1.step hst, hinv.2.step hleg hdecoded hinv.1 hst⟩
    rw [hinit.2] at hθ
    cases hθ
  exact hinv.2

/-- **Repairs converge.**  Whatever the engine state was at first, and however the tasks and the
other operations interleave: once for each slot some task that repairs it has succeeded, the engine
agrees with the venue, and it does so from then on.  The venue has no conditional order that the
adapter decodes differently from a reply and from the stream. -/
theorem engine_agrees_of_repaired (hleg : v.OneLeg) (hdecoded : ∀ id, v.DecodedAlike context id)
    (hp : (settledSystem context v).Reachable p)
    (hdone : ∀ k, ∃ θ ∈ p.threads, ∃ task : RepairTask,
      θ.prog = .ret (.ok task) ∧ task.Repairs k) : p.world.Agrees v := by
  refine agrees_iff.2 ⟨hleg, funext fun k => ?_⟩
  obtain ⟨θ, hθ, task, hprog, hrepairs⟩ := hdone k
  have hstart : ∀ t, (settledInterpretation context v).start t → t.Spec (fun _ _ => True)
      (fun τ r => ∀ done : RepairTask, r = .ok done → done.Repairs k → Wrote k τ) [] := by
    rintro t ⟨task, rfl⟩
    exact spec_repairTask task k
  have hspec := spec_of_reachable hstart hp θ hθ
  rw [hprog] at hspec
  exact shows_of_wrote hleg hdecoded hp θ hθ k (hspec task rfl hrepairs)

end Runs

/-- An order that is open. -/
def openOrder : Order := .unit "1" "BTC/USDT:USDT" .new 5

/-- An account with two contracts and an open order. -/
def settledAccount : VenueState := ⟨.collect [twoContracts], .collect [openOrder]⟩

theorem decodedAlike_of_bybit (v : VenueState) (id : OrderId) :
    v.DecodedAlike bybitContext id := by
  intro q _
  have hregular : RegularId bybitContext q.orderId := nofun
  rw [Order.restView, if_pos hregular]

/-- The engine has one contract and knows of no order; two refreshes bring it into agreement. -/
theorem engine_agrees_of_repaired_refreshed :
    let positions := [.replacePositions [twoContracts], .markRestSuccess none]
    let orders := [.replaceOpenOrders [openOrder], .markRestSuccess none]
    ((positions ++ orders).foldl EngineState.apply agreeing.engine).Agrees settledAccount := by
  have hpositions : ∀ request : SignedGet,
      Answers bybitContext settledAccount ⟨.signedGet .positions request, .ok [twoContracts]⟩ :=
    fun request => ⟨⟨by decide +kernel, by decide +kernel⟩, fun _ => trivial⟩
  have horders : ∀ request : SignedGet,
      Answers bybitContext settledAccount ⟨.signedGet .openOrders request, .ok [openOrder]⟩ := by
    refine fun request => ⟨List.forall_mem_singleton.2 ⟨⟨openOrder, rfl, rfl⟩, nofun⟩, fun _ => ?_⟩
    intro q hq _ _
    exact ⟨openOrder, List.mem_singleton_self _, by rw [List.mem_singleton.1 hq]⟩
  have hinit : (settledSystem bybitContext settledAccount).Reachable ⟨agreeing.engine, []⟩ :=
    .init ⟨trivial, rfl⟩
  have hstarted := (hinit.step (.start ⟨.refreshPositions, rfl⟩)).step
    (.start ⟨.refreshOpenOrders, rfl⟩)
  have hread := (hstarted.step (.run (i := 0) rfl ⟨hpositions _, rfl⟩)).step
    (.run (i := 1) rfl ⟨horders _, rfl⟩)
  have hwritten := (hread.step (.run (i := 0) (r := ()) rfl rfl)).step
    (.run (i := 1) (r := ()) rfl rfl)
  have hleg : settledAccount.OneLeg := by
    intro p hp q hq _ _ _
    exact (List.mem_singleton.1 hp).trans (List.mem_singleton.1 hq).symm
  refine engine_agrees_of_repaired hleg (decodedAlike_of_bybit _) hwritten fun k => ?_
  cases k with
  | position i => exact ⟨_, List.mem_cons_self, .refreshPositions, rfl, trivial⟩
  | order id =>
    exact ⟨_, List.mem_cons_of_mem _ List.mem_cons_self, .refreshOpenOrders, rfl, trivial⟩

end BatMarkets
