import BatMarkets.Core.State
import BatMarkets.Ordered.Window

/-!
# Repeated and reordered deliveries

Executions and orders reach the engine state on several ways: the private stream, the answer to a
request for one order and the history of an instrument.  So the same execution may arrive many
times, and the updates of an order may arrive in any order.

The stored executions are a window without repetitions (`Ordered.offer`), in which an execution is
known as long as it is retained.  The stored order is the update delivered last, whatever the
venue's time of the update.

## Main results

* `merge_executions_replay` : the stored executions are a window in every state, and merging a list
  a second time changes nothing when the list fits into the window.
* `stored_order_delivered_last` : the update of an order that is delivered last is stored, so two
  deliveries of the same updates leave the same order exactly when they end with the same update.
-/

namespace BatMarkets

open Ordered Transition

/-! ### Executions -/

/-- The executions a call delivers. -/
def EngineOp.executions : EngineOp → List Execution
  | .applyPrivateEvent (.execution execution) => [execution]
  | .mergeExecutions executions => executions
  | _ => []

namespace EngineState

/-- The stored executions and the capacity for them. -/
def executionWindow (s : EngineState) : List Execution × ℕ :=
  (s.executions, s.statePolicy.executionCapacity)

variable {s : EngineState}

theorem executionWindow_pushExecution (s : EngineState) (execution : Execution) :
    (s.pushExecution execution).executionWindow =
      (offer Execution.executionId s.statePolicy.executionCapacity s.executions execution,
        s.statePolicy.executionCapacity) := by
  unfold pushExecution offer
  split <;> rfl

theorem executionWindow_observeLatest (s : EngineState) (timestamp : Option TimestampMs) :
    (s.observeLatest timestamp).executionWindow = s.executionWindow := by
  cases timestamp <;> rfl

theorem executionWindow_foldl_pushExecution (s : EngineState) (executions : List Execution) :
    (executions.foldl pushExecution s).executionWindow =
      (executions.foldl (offer Execution.executionId s.statePolicy.executionCapacity) s.executions,
        s.statePolicy.executionCapacity) := by
  induction executions generalizing s with
  | nil => rfl
  | cons execution executions ih =>
    have hpush := executionWindow_pushExecution s execution
    simp only [executionWindow, Prod.mk.injEq] at hpush
    rw [List.foldl_cons, ih, hpush.1, hpush.2, List.foldl_cons]

theorem executionWindow_applyPublicEvent (s : EngineState) (event : PublicLaneEvent) :
    (stateAfter ((applyPublicEvent event).run s)).executionWindow = s.executionWindow := by
  cases event with
  | ticker | bookTop | kline | markPrice | liquidation =>
    exact stateAfter_applyFast (P := fun t => t.executionWindow = s.executionWindow) rfl
      fun _ _ _ _ => rfl
  | trade =>
    refine stateAfter_applyFast (P := fun t => t.executionWindow = s.executionWindow) rfl
      fun _ _ _ _ => ?_
    unfold pushTrade
    dsimp only
    split <;> rfl
  | orderBookDelta | fundingRate | openInterest => rfl
  | divergence d => cases d <;> rfl

/-- **What a call does to the stored executions**: it admits those it delivers. -/
theorem executionWindow_apply (s : EngineState) (op : EngineOp) :
    (s.apply op).executionWindow =
      (op.executions.foldl (offer Execution.executionId s.statePolicy.executionCapacity)
        s.executions, s.statePolicy.executionCapacity) := by
  cases op with
  | applyPublicEvent event => exact executionWindow_applyPublicEvent s event
  | applyPrivateEvent event =>
    cases event with
    | execution execution => exact executionWindow_pushExecution _ execution
    | divergence d => cases d <;> rfl
    | _ => rfl
  | mergeExecutions executions =>
    exact (executionWindow_observeLatest _ _).trans (executionWindow_foldl_pushExecution s _)
  | applyCommandReceipt receipt =>
    rw [apply, applyCommandReceipt]
    cases receipt.status <;> rfl
  | applyReconcileReport report =>
    rw [apply, applyReconcileReport]
    cases report.outcome <;> rfl
  | replaceAccountSnapshot snapshot => exact executionWindow_observeLatest _ _
  | replacePositions positions => exact executionWindow_observeLatest _ _
  | replaceOpenOrders openOrders => exact executionWindow_observeLatest _ _
  | mergeOrderHistory orders => exact executionWindow_observeLatest _ _
  | applyPrivateSnapshot snapshot =>
    rw [apply, applyPrivateSnapshot]
    refine (executionWindow_observeLatest _ _).trans ?_
    refine (executionWindow_observeLatest _ _).trans ?_
    cases snapshot.account with
    | none => rfl
    | some account => exact executionWindow_observeLatest _ _
  | _ => rfl

/-- In every state the stored executions are a window without repetitions. -/
theorem isWindow_of_visited {s₀ : EngineState} {ops : List EngineOp}
    (h : Visited EngineState.apply s₀ ops s) (hnil : s₀.executions = []) :
    IsWindow Execution.executionId s₀.statePolicy.executionCapacity s.executions ∧
      s.statePolicy.executionCapacity = s₀.statePolicy.executionCapacity := by
  refine h.invariant (I := fun t =>
    IsWindow Execution.executionId s₀.statePolicy.executionCapacity t.executions ∧
      t.statePolicy.executionCapacity = s₀.statePolicy.executionCapacity) (fun t op ht => ?_) ?_
  · have happly := executionWindow_apply t op
    simp only [executionWindow, Prod.mk.injEq] at happly
    rw [happly.1, happly.2, ht.2]
    exact ⟨ht.1.foldl_offer _, rfl⟩
  · rw [hnil]
    exact ⟨isWindow_nil, rfl⟩

theorem executions_mergeExecutions (s : EngineState) (executions : List Execution) :
    (s.mergeExecutions executions).executionWindow =
      (executions.foldl (offer Execution.executionId s.statePolicy.executionCapacity) s.executions,
        s.statePolicy.executionCapacity) :=
  executionWindow_apply s (.mergeExecutions executions)

/-- Merging the executions a second time leaves the stored ones as they are. -/
def ReplayHarmless (s : EngineState) (executions : List Execution) : Prop :=
  ((s.mergeExecutions executions).mergeExecutions executions).executions =
    (s.mergeExecutions executions).executions

/-- While the executions are merged, none of them is dropped from the stored ones. -/
def KeepsMerged (s : EngineState) (executions : List Execution) : Prop :=
  StepsMeet (offer Execution.executionId s.statePolicy.executionCapacity)
    (DropsNone Execution.executionId s.statePolicy.executionCapacity executions) s.executions
    executions

/-- The new executions of the list fit into the capacity, and those stored that they push out are
not in the list. -/
def FitsExecutions (s : EngineState) (executions : List Execution) : Prop :=
  FitsInto Execution.executionId s.statePolicy.executionCapacity s.executions executions

end EngineState

/-- **Replayed executions.**  In every state the stored executions have distinct ids and are at most
the capacity.  Merging a list drops none of its executions exactly when the list fits into the
stored ones, and then merging it a second time changes nothing. -/
theorem merge_executions_replay {venue : Venue} {product : Product} {policy : StatePolicy}
    {instruments : List InstrumentSpec} {ops : List EngineOp} {s : EngineState}
    (hcap : 1 ≤ policy.executionCapacity)
    (h : Visited EngineState.apply (.new venue product policy instruments) ops s) :
    (s.executions.map (·.executionId)).Nodup ∧ s.executions.length ≤ policy.executionCapacity ∧
      ∀ executions, (s.FitsExecutions executions → s.ReplayHarmless executions) ∧
        (s.FitsExecutions executions ↔ s.KeepsMerged executions) := by
  obtain ⟨hwindow, hpolicy⟩ := EngineState.isWindow_of_visited h rfl
  have hwindow' : IsWindow Execution.executionId s.statePolicy.executionCapacity s.executions := by
    rw [hpolicy]
    exact hwindow
  have hcap' : 0 < s.statePolicy.executionCapacity := by
    rw [hpolicy]
    exact hcap
  refine ⟨hwindow.nodup, hwindow.length_le, fun executions => ⟨fun hfits => ?_, ?_⟩⟩
  · have hmerge := EngineState.executions_mergeExecutions s executions
    have hagain := EngineState.executions_mergeExecutions (s.mergeExecutions executions) executions
    simp only [EngineState.executionWindow, Prod.mk.injEq] at hmerge hagain
    rw [EngineState.ReplayHarmless, hagain.1, hmerge.1, hmerge.2]
    exact foldl_offer_twice hwindow' hcap' hfits
  · exact fitsInto_iff_stepsMeet hwindow' hcap'

/-- An execution of one unit. -/
def Execution.unit (executionId : String) : Execution where
  executionId := ⟨executionId⟩
  orderId := ⟨"1"⟩
  clientOrderId := none
  instrumentId := ⟨"BTC"⟩
  side := .buy
  quantity := ⟨.ofNat 1 Decimal.one_fits⟩
  price := ⟨.ofNat 1 Decimal.one_fits⟩
  fee := none
  feeAsset := none
  liquidity := none
  executedAt := 0

/-- An engine with room for two executions, which holds `a` and `b`. -/
def EngineState.fullWindow : EngineState :=
  run EngineState.apply (.new .bybit .linearUsdt ⟨16, 2⟩ [])
    [.mergeExecutions [.unit "a", .unit "b"]]

/-- The window holds `a` and `b`, and `b` and `c` arrive twice. -/
theorem merge_executions_replay_fits :
    EngineState.fullWindow.ReplayHarmless [.unit "b", .unit "c"] := by
  have hvisited : Visited EngineState.apply (.new .bybit .linearUsdt ⟨16, 2⟩ [])
      [.mergeExecutions [.unit "a", .unit "b"]] EngineState.fullWindow := visited_run _ _
  have hcap : 1 ≤ (⟨16, 2⟩ : StatePolicy).executionCapacity := by decide
  have hreplay := merge_executions_replay hcap hvisited
  exact (hreplay.2.2 [.unit "b", .unit "c"]).1 (fitsInto_iff.2 (by decide +kernel))

/-- The window holds `a` and `b`, and `a` and `c` arrive twice: `c` pushes `a` out, which is
admitted again and pushes `b` out. -/
theorem replay_pushes_out :
    ¬ ∀ (venue : Venue) (product : Product) (policy : StatePolicy)
      (instruments : List InstrumentSpec) (ops : List EngineOp) (s : EngineState),
      1 ≤ policy.executionCapacity →
      Visited EngineState.apply (.new venue product policy instruments) ops s →
        (s.executions.map (·.executionId)).Nodup ∧
          s.executions.length ≤ policy.executionCapacity ∧
          ∀ executions, s.ReplayHarmless executions := by
  intro h
  have hvisited : Visited EngineState.apply (.new .bybit .linearUsdt ⟨16, 2⟩ [])
      [.mergeExecutions [.unit "a", .unit "b"]] EngineState.fullWindow := visited_run _ _
  have hcap : 1 ≤ (⟨16, 2⟩ : StatePolicy).executionCapacity := by decide
  have hharmless : EngineState.fullWindow.ReplayHarmless [.unit "a", .unit "c"] :=
    (h _ _ _ _ _ _ hcap hvisited).2.2 _
  have hpushed : ¬ ((EngineState.fullWindow.mergeExecutions [.unit "a", .unit "c"]).mergeExecutions
      [.unit "a", .unit "c"]).executions =
        (EngineState.fullWindow.mergeExecutions [.unit "a", .unit "c"]).executions := by
    decide +kernel
  exact hpushed hharmless

/-! ### Orders -/

/-- A delivery of order updates. -/
inductive OrderDelivery
  | event (order : Order)
  | history (orders : List Order)

namespace OrderDelivery

/-- The call a delivery makes. -/
def op : OrderDelivery → EngineOp
  | .event order => .applyPrivateEvent (.order order)
  | .history orders => .mergeOrderHistory orders

/-- The updates of a delivery, in the order in which they are stored. -/
def orders : OrderDelivery → List Order
  | .event order => [order]
  | .history orders => orders

/-- The updates of one order, in the order of delivery. -/
def updates (k : OrderId) (deliveries : List OrderDelivery) : List Order :=
  (deliveries.flatMap orders).filter (·.orderId = k)

end OrderDelivery

namespace EngineState

/-- The order stored after some deliveries. -/
def storedAfter (s : EngineState) (k : OrderId) (deliveries : List OrderDelivery) : Option Order :=
  (run EngineState.apply s (deliveries.map OrderDelivery.op)).ordersById.get? k

theorem get?_ordersById_delivery (s : EngineState) (k : OrderId) (d : OrderDelivery) :
    (s.apply d.op).ordersById.get? k =
      (lastOf Order.orderId k d.orders).or (s.ordersById.get? k) := by
  cases d with
  | event order =>
    have hinsert := Index.get?_insert s.ordersById order k
    refine hinsert.trans ?_
    rw [OrderDelivery.orders, lastOf_cons, lastOf_nil, Option.none_or]
    split <;> rfl
  | history orders =>
    have hobserve : (s.mergeOrderHistory orders).ordersById = s.ordersById.insertAll orders :=
      ordersById_observeLatest _ _
    exact (congrArg (·.get? k) hobserve).trans (Index.get?_insertAll _ _ _)

/-- **The update delivered last is stored.** -/
theorem storedAfter_eq (s : EngineState) (k : OrderId) (deliveries : List OrderDelivery) :
    s.storedAfter k deliveries =
      (OrderDelivery.updates k deliveries).getLast?.or (s.ordersById.get? k) := by
  have hlast : s.storedAfter k deliveries =
      (lastOf Order.orderId k (deliveries.flatMap OrderDelivery.orders)).or
        (s.ordersById.get? k) := by
    induction deliveries generalizing s with
    | nil => rfl
    | cons d deliveries ih =>
      refine (ih (s.apply d.op)).trans ?_
      rw [get?_ordersById_delivery, List.flatMap_cons, lastOf_append, Option.or_assoc]
  rw [hlast, lastOf_eq_getLast?_filter]
  rfl

end EngineState

/-- **Updates of one order.**  The update delivered last is stored, and without updates the order
stays as it was.  So two deliveries of the same updates leave the same order exactly when they end
with the same update; the latest update by the time of the venue is stored exactly when it is
delivered last; and an update opens an order that is stored with a terminal status, however old the
update is, exactly when it is delivered last. -/
theorem stored_order_delivered_last (s : EngineState) (k : OrderId)
    {deliveries deliveries' : List OrderDelivery}
    (hperm : (OrderDelivery.updates k deliveries).Perm (OrderDelivery.updates k deliveries')) :
    (∀ delivered, s.storedAfter k delivered =
      (OrderDelivery.updates k delivered).getLast?.or (s.ordersById.get? k)) ∧
    (s.storedAfter k deliveries = s.storedAfter k deliveries' ↔
      (OrderDelivery.updates k deliveries).getLast? =
        (OrderDelivery.updates k deliveries').getLast?) ∧
    (∀ o ∈ OrderDelivery.updates k deliveries,
      (∀ u ∈ OrderDelivery.updates k deliveries, u ≠ o → u.updatedAt < o.updatedAt) →
        (s.storedAfter k deliveries = some o ↔
          (OrderDelivery.updates k deliveries).getLast? = some o)) ∧
    ∀ o u, s.ordersById.get? k = some o → o.status.isOpen = false → u.status.isOpen = true →
      (s.storedAfter k deliveries = some u ↔
        (OrderDelivery.updates k deliveries).getLast? = some u) := by
  refine ⟨EngineState.storedAfter_eq s k, ?_⟩
  simp only [EngineState.storedAfter_eq]
  generalize OrderDelivery.updates k deliveries = updates at *
  generalize OrderDelivery.updates k deliveries' = updates' at *
  cases updates with
  | nil =>
    have hnil : updates' = [] := hperm.nil_eq.symm
    rw [hnil]
    refine ⟨iff_of_true rfl rfl, fun o ho => absurd ho List.not_mem_nil, ?_⟩
    rintro o u hstored hterminal hopen
    refine iff_of_false (fun hu => ?_) nofun
    obtain rfl : o = u := Option.some.inj (hstored.symm.trans hu)
    rw [hterminal] at hopen
    cases hopen
  | cons u updates =>
    cases updates' with
    | nil => exact absurd hperm.eq_nil (List.cons_ne_nil u updates)
    | cons u' updates' =>
      simp only [List.getLast?_cons, Option.some_or, implies_true, and_self]

/-- A canceled order whose creation is reported again. -/
def reopening : List OrderDelivery :=
  [.history [.unit "1" "BTC" .canceled 2], .event (.unit "1" "BTC" .new 1)]

/-- The same updates in the order of their times. -/
def canceling : List OrderDelivery :=
  [.event (.unit "1" "BTC" .new 1), .history [.unit "1" "BTC" .canceled 2]]

theorem updates_reopening : OrderDelivery.updates ⟨"1"⟩ reopening =
    [.unit "1" "BTC" .canceled 2, .unit "1" "BTC" .new 1] := by decide +kernel

theorem updates_canceling : OrderDelivery.updates ⟨"1"⟩ canceling =
    [.unit "1" "BTC" .new 1, .unit "1" "BTC" .canceled 2] := by decide +kernel

/-- In the order of their times, the updates leave the canceled order. -/
theorem stored_order_delivered_last_sorted :
    (EngineState.new .bybit .linearUsdt ⟨16, 2⟩ []).storedAfter ⟨"1"⟩ canceling =
      some (.unit "1" "BTC" .canceled 2) := by
  have hdelivered := stored_order_delivered_last (.new .bybit .linearUsdt ⟨16, 2⟩ []) ⟨"1"⟩
    (List.Perm.refl (OrderDelivery.updates ⟨"1"⟩ canceling))
  have hlatest := hdelivered.2.2.1 (.unit "1" "BTC" .canceled 2)
  rw [updates_canceling] at hlatest
  exact (hlatest (by decide) (by decide)).2 rfl

/-- A stale update that arrives last opens a canceled order again. -/
theorem stale_update_reopens_order :
    ¬ ∀ (s : EngineState) (k : OrderId) (deliveries deliveries' : List OrderDelivery),
      (OrderDelivery.updates k deliveries).Perm (OrderDelivery.updates k deliveries') →
      ((OrderDelivery.updates k deliveries).map (·.updatedAt)).Nodup →
        s.storedAfter k deliveries = s.storedAfter k deliveries' ∧
          ∀ o ∈ OrderDelivery.updates k deliveries,
            (∀ u ∈ OrderDelivery.updates k deliveries, u.updatedAt ≤ o.updatedAt) →
              s.storedAfter k deliveries = some o := by
  intro h
  have hsame := h (.new .bybit .linearUsdt ⟨16, 2⟩ []) ⟨"1"⟩ reopening canceling
  rw [EngineState.storedAfter_eq, EngineState.storedAfter_eq, updates_reopening,
    updates_canceling] at hsame
  have hnew := (hsame (List.Perm.swap _ _ _) (by decide)).1
  have hne : Order.unit "1" "BTC" .new 1 ≠ Order.unit "1" "BTC" .canceled 2 := by decide
  exact hne (Option.some.inj hnew)

end BatMarkets
