import BatMarkets.Interleaving.Pool
import BatMarkets.Runtime.Evidence

/-!
# Pending commands and concurrent reconciles

Command tasks add to the list of pending commands, and reconciles read the list, wait for replies
and write a list back.  Reading and writing back are two separate accesses, so the list written
back may be the answer to an older one.

`pendingInterpretation` runs any number of command tasks and reconciles over the list; all other
calls may be answered by anything.

## Main results

* `removal_iff` : a step removes only commands of which some reconcile has found evidence exactly
  when it is no late write-back (`WritesBackInTime`).
* `removals_justified_iff` : the same for all the steps of a run.
* `late_write_back_loses_command` : a command cached while a reconcile waits for the venue is lost.
-/

namespace BatMarkets

open Interleaving Transition RuntimeM

/-- A command whose outcome is unknown: it is cached, then its receipt is applied. -/
def commandTask (command : PendingUnknownCommand) (receipt : CommandReceipt) : RuntimeM Unit := do
  cachePendingUnknown command
  write [.applyCommandReceipt receipt]

/-- A reconcile, whose result does not matter here. -/
def reconcileTask (context : LiveContext) (trigger : ReconcileTrigger) : RuntimeM Unit := do
  let _ ← (reconcilePrivate context trigger).run
  return ()

/-- The meaning of the calls for the list of pending commands. -/
def servePending (pending : List PendingUnknownCommand) :
    (q : RuntimeCall) → RuntimeReply q → List PendingUnknownCommand → Prop
  | .pendingUnknownCommands, snapshot, pending' => snapshot = pending ∧ pending' = pending
  | .cachePendingUnknown command, _, pending' => pending' = cachePending pending command
  | .replacePendingUnknownCommands unresolved, _, pending' => pending' = unresolved
  | _, _, pending' => pending' = pending

/-- Command tasks and reconciles over the list of pending commands. -/
def pendingInterpretation (context : LiveContext) :
    Interpretation (List PendingUnknownCommand) RuntimeCall RuntimeReply Unit where
  start t := (∃ command receipt, t = commandTask command receipt) ∨
    ∃ trigger, t = reconcileTask context trigger
  serve := servePending
  env _ _ := False

/-- Tasks over the list of the pending commands. -/
abbrev PendingPool := Pool (List PendingUnknownCommand) RuntimeCall RuntimeReply Unit

/-- The runs that start with no pending command. -/
abbrev pendingSystem (context : LiveContext) : System PendingPool Action :=
  (pendingInterpretation context).system (· = [])

/-- Some task has examined this very command, one of the list it read, and its replies gave grounds
to resolve it. -/
def EvidenceFound (p : PendingPool) (c : PendingUnknownCommand) : Prop :=
  ∃ θ ∈ p.threads, (grounds c θ.trace).isSome = true

/-- From `p` to `p'`, only commands for which evidence was found leave the list. -/
def RemovesJustified (p p' : PendingPool) : Prop :=
  ∀ c ∈ p.world, c ∉ p'.world → EvidenceFound p' c

/-- When the step is a write-back, each command of the list is one of those the task read, or some
task has found evidence for it. -/
def WritesBackInTime (p : PendingPool) : Action → Prop
  | .run i =>
    match p.threads[i]? with
    | some ⟨log, .call (.replacePendingUnknownCommands _) _⟩ =>
      ∀ c ∈ p.world, c ∈ snapshotOf (log.map Prod.snd) ∨ EvidenceFound p c
    | _ => True
  | _ => True

variable {context : LiveContext}

/-! ### What the tasks do -/

/-- A list that is written back accounts for the list the task read. -/
def WritesBackAccounted (τ : RuntimeTrace) : RuntimeCall → Prop
  | .replacePendingUnknownCommands unresolved => Accounted τ unresolved
  | _ => True

theorem spec_reconcileTask (trigger : ReconcileTrigger) :
    (reconcileTask context trigger).Spec WritesBackAccounted (fun _ _ => True) [] := by
  refine Prog.spec_bind.2 ((spec_reconcilePrivate trigger []).mono (fun τ q hq => ?_)
    fun _ _ _ => trivial)
  cases q <;> trivial

theorem spec_of_start {t : RuntimeM Unit} (h : (pendingInterpretation context).start t) :
    t.Spec WritesBackAccounted (fun _ _ => True) [] := by
  rcases h with ⟨command, receipt, rfl⟩ | ⟨trigger, rfl⟩
  · exact ⟨trivial, fun _ => ⟨trivial, fun _ => trivial⟩⟩
  · exact spec_reconcileTask trigger

theorem accounted_of_reachable {p : PendingPool} (hp : (pendingSystem context).Reachable p)
    {i : ℕ} {log : List (List PendingUnknownCommand × Event RuntimeCall RuntimeReply)}
    {unresolved : List PendingUnknownCommand} {k : Unit → RuntimeM Unit}
    (hi : p.threads[i]? = some ⟨log, .call (.replacePendingUnknownCommands unresolved) k⟩) :
    Accounted (log.map Prod.snd) unresolved :=
  (spec_of_reachable (fun _ => spec_of_start) hp _ (List.mem_of_getElem? hi)).1

/-! ### One step -/

/-- Only a write-back removes commands. -/
theorem mem_of_servePending {pending pending' : List PendingUnknownCommand} {q : RuntimeCall}
    {r : RuntimeReply q} (h : servePending pending q r pending')
    (hq : ∀ U, q ≠ .replacePendingUnknownCommands U) {c : PendingUnknownCommand}
    (hc : c ∈ pending) : c ∈ pending' := by
  cases q with
  | pendingUnknownCommands => rwa [h.2]
  | cachePendingUnknown command =>
    rw [show pending' = cachePending pending command from h, cachePending]
    split
    · exact hc
    · exact List.mem_append_left _ hc
  | replacePendingUnknownCommands U => exact absurd rfl (hq U)
  | timestampNowMs => rwa [show pending' = pending from h]
  | read what => rwa [show pending' = pending from h]
  | write ops => rwa [show pending' = pending from h]
  | resolveInstrument i => rwa [show pending' = pending from h]
  | signedGet decoder request => rwa [show pending' = pending from h]
  | cachedBybitAccountContext => rwa [show pending' = pending from h]
  | cacheBybitAccountContext a => rwa [show pending' = pending from h]

/-- A write-back gives no grounds. -/
theorem grounds_replace {τ : RuntimeTrace} {U : List PendingUnknownCommand} {r : Unit}
    {c : PendingUnknownCommand} :
    grounds c (⟨.replacePendingUnknownCommands U, r⟩ :: τ) = grounds c τ :=
  grounds_cons_of_leftOf (q := .replacePendingUnknownCommands U) nofun
    (List.filter_eq_self.2 fun _ _ => rfl) c

theorem evidenceFound_replace_iff {p : PendingPool} {i : ℕ}
    {log : List (List PendingUnknownCommand × Event RuntimeCall RuntimeReply)}
    {U : List PendingUnknownCommand} {k : Unit → RuntimeM Unit} {r : Unit}
    (hi : p.threads[i]? = some ⟨log, .call (.replacePendingUnknownCommands U) k⟩)
    {world : List PendingUnknownCommand} {c : PendingUnknownCommand} :
    EvidenceFound ⟨world, p.threads.set i
        ⟨(p.world, ⟨.replacePendingUnknownCommands U, r⟩) :: log, k r⟩⟩ c ↔
      EvidenceFound p c := by
  have hsame : ∀ θ : Thread (List PendingUnknownCommand) RuntimeCall RuntimeReply Unit,
      θ = ⟨(p.world, ⟨.replacePendingUnknownCommands U, r⟩) :: log, k r⟩ →
      grounds c θ.trace = grounds c (log.map Prod.snd) := by
    rintro _ rfl
    rw [Thread.trace_cons, grounds_replace]
    rfl
  have hlt : i < p.threads.length := (List.getElem?_eq_some_iff.1 hi).1
  constructor
  · rintro ⟨θ, hθ, hfound⟩
    rcases mem_threads_set hθ with hθ | heq
    · exact ⟨θ, hθ, hfound⟩
    · rw [hsame θ heq] at hfound
      exact ⟨_, List.mem_of_getElem? hi, hfound⟩
  · rintro ⟨θ, hθ, hfound⟩
    by_cases heq : θ = ⟨log, .call (.replacePendingUnknownCommands U) k⟩
    · subst heq
      refine ⟨_, List.mem_set hlt _, ?_⟩
      rw [hsame _ rfl]
      exact hfound
    · obtain ⟨j, hj⟩ := List.mem_iff_getElem?.1 hθ
      have hne : i ≠ j := by
        rintro rfl
        exact heq (Option.some.inj (hj.symm.trans hi))
      refine ⟨θ, List.mem_iff_getElem?.2 ⟨j, ?_⟩, hfound⟩
      rw [List.getElem?_set_ne hne]
      exact hj

/-- **One step**: what it removes is justified exactly when it is no late write-back. -/
theorem removal_iff {p p' : PendingPool} {a : Action} (hp : (pendingSystem context).Reachable p)
    (hst : (pendingSystem context).step p a p') :
    RemovesJustified p p' ↔ WritesBackInTime p a := by
  cases hst with
  | start ht => exact iff_of_true (fun c hc hc' => absurd hc hc') trivial
  | env he => exact he.elim
  | @run i log q k r world hi hs =>
    by_cases hq : ∃ U, q = .replacePendingUnknownCommands U
    · obtain ⟨U, rfl⟩ := hq
      obtain rfl : world = U := hs
      have hacc := accounted_of_reachable hp hi
      simp only [RemovesJustified, WritesBackInTime, hi, evidenceFound_replace_iff hi]
      refine forall₂_congr fun c hc => ⟨fun h => ?_, fun h hU => ?_⟩
      · by_cases hU : c ∈ world
        · exact .inl (mem_snapshotOf (hacc.perm.mem_iff.1 hU))
        · exact .inr (h hU)
      · rcases h with hsnap | hfound
        · rw [hacc.perm.mem_iff] at hU
          exact ⟨_, List.mem_of_getElem? hi, isSome_grounds_iff.2 ⟨hsnap, hU⟩⟩
        · exact hfound
    · simp only [not_exists] at hq
      refine iff_of_true (fun c hc hc' => absurd (mem_of_servePending hs hq hc) hc') ?_
      simp only [WritesBackInTime, hi]
      split
      · next heq => exact absurd (by cases heq; rfl) (hq _)
      · trivial

/-- **No command is lost, exactly.**  In every run, all steps remove only commands for which some
task has found evidence exactly when all write-backs come in time. -/
theorem removals_justified_iff (context : LiveContext)
    {steps : List (PendingPool × Action × PendingPool)} {p : PendingPool}
    (hrun : (pendingSystem context).RunOf steps p) :
    (∀ x ∈ steps, RemovesJustified x.1 x.2.2) ↔
      ∀ x ∈ steps, WritesBackInTime x.1 x.2.1 :=
  hrun.forall_iff WritesBackInTime RemovesJustified fun _ _ _ hp hst => removal_iff hp hst

/-! ### A lost command -/

/-- A Bybit account without positions or open orders, whose venue knows every order it is asked
for. -/
def everyOrderKnown : LiveWorld where
  engine := EngineState.new .bybit .linearUsdt ⟨16, 16⟩ []
  bybitAccountContext := some "UNIFIED"
  catalog _ := some (.active .bybit "BTC" "BTCUSDT" 2 3)
  venueReply
    | .account, _ => .ok ⟨[], none⟩
    | .positions, _ => .ok []
    | .openOrders, _ => .ok []
    | .order, _ => .ok (.unit "1" "BTC" .filled 5)
    | _, _ => .error { kind := .transportError, message := "unavailable" }

/-- The answers of that account, for a list of pending commands. -/
def knownReply (q : RuntimeCall) (pending : List PendingUnknownCommand) :
    RuntimeReply q × List PendingUnknownCommand :=
  let answer := LiveWorld.reply q { everyOrderKnown with pending }
  (answer.1, answer.2.pending)

theorem servePending_knownReply (q : RuntimeCall) (pending : List PendingUnknownCommand) :
    servePending pending q (knownReply q pending).1 (knownReply q pending).2 := by
  cases q <;> first | rfl | exact ⟨rfl, rfl⟩

/-- A create of an order, recorded at a time. -/
def pendingCreate (clientOrderId : String) (recordedAt : TimestampMs) : PendingUnknownCommand :=
  ⟨.createOrder, ⟨"BTC"⟩, none, some ⟨clientOrderId⟩, recordedAt⟩

/-- The receipt of such a create. -/
def createReceipt (clientOrderId : String) : CommandReceipt where
  operation := .createOrder
  status := .unknownExecution
  venue := .bybit
  product := .linearUsdt
  instrumentId := some ⟨"BTC"⟩
  orderId := none
  clientOrderId := some ⟨clientOrderId⟩
  requestId := none
  message := none
  nativeCode := none
  retriable := true

/-- A first create is cached, a reconcile reads the list, a second create is cached, and the
reconcile asks for the order of the first. -/
def lateWriteBack : List (Move RuntimeCall RuntimeReply Unit) :=
  [.start (commandTask (pendingCreate "a" 1) (createReceipt "a")), .run 0,
    .start (reconcileTask ⟨.bybit, .linearUsdt, 5000⟩ .unknownExecution)] ++
    List.replicate 10 (.run 1) ++
    [.start (commandTask (pendingCreate "b" 2) (createReceipt "b")), .run 2] ++
    List.replicate 5 (.run 1)

/-- The pool after these moves: the reconcile is about to write back. -/
def beforeWriteBack : PendingPool := lateWriteBack.foldl (Pool.move knownReply) ⟨[], []⟩

theorem reachable_beforeWriteBack :
    (pendingSystem ⟨.bybit, .linearUsdt, 5000⟩).Reachable beforeWriteBack := by
  refine reachable_moves (fun q w => servePending_knownReply q w) (fun t ht => ?_)
    (.init ⟨rfl, rfl⟩)
  simp only [lateWriteBack, List.mem_append, List.mem_cons, List.mem_replicate, Move.start.injEq,
    reduceCtorEq, and_false, or_false, false_or, List.not_mem_nil] at ht
  rcases ht with (rfl | rfl) | rfl
  · exact .inl ⟨_, _, rfl⟩
  · exact .inr ⟨_, rfl⟩
  · exact .inl ⟨_, _, rfl⟩

theorem step_writeBack : (pendingSystem ⟨.bybit, .linearUsdt, 5000⟩).step beforeWriteBack (.run 1)
    (beforeWriteBack.move knownReply (.run 1)) :=
  step_of_canRun (fun q w => servePending_knownReply q w) (by decide)

/-- The second create leaves the list, though no task has read it. -/
theorem not_removesJustified_writeBack :
    ¬ RemovesJustified beforeWriteBack (beforeWriteBack.move knownReply (.run 1)) := by
  intro h
  obtain ⟨θ, hθ, hfound⟩ := h (pendingCreate "b" 2) (by decide) (by decide)
  have hunread : ∀ θ ∈ (beforeWriteBack.move knownReply (.run 1)).threads,
      pendingCreate "b" 2 ∉ snapshotOf θ.trace := by decide
  exact hunread θ hθ (isSome_grounds_iff.1 hfound).1

/-- A command cached while a reconcile waits for the venue is lost. -/
theorem late_write_back_loses_command :
    ¬ ∀ (context : LiveContext) (steps : List (PendingPool × Action × PendingPool))
      (p : PendingPool), (pendingSystem context).RunOf steps p →
        ∀ x ∈ steps, RemovesJustified x.1 x.2.2 := by
  intro h
  obtain ⟨steps, hsteps⟩ := reachable_beforeWriteBack.exists_runOf
  exact not_removesJustified_writeBack
    (h _ _ _ (hsteps.step step_writeBack) _ List.mem_cons_self)

/-- That write-back comes too late. -/
theorem removals_justified_iff_late : ∃ steps p,
    (pendingSystem ⟨.bybit, .linearUsdt, 5000⟩).RunOf steps p ∧
      ¬ ∀ x ∈ steps, WritesBackInTime x.1 x.2.1 := by
  obtain ⟨steps, hsteps⟩ := reachable_beforeWriteBack.exists_runOf
  have hrun := hsteps.step step_writeBack
  refine ⟨_, _, hrun, fun hmeet => ?_⟩
  exact not_removesJustified_writeBack
    ((removals_justified_iff ⟨.bybit, .linearUsdt, 5000⟩ hrun).2 hmeet _ List.mem_cons_self)

end BatMarkets
