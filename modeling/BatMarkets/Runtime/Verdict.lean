import BatMarkets.Interleaving.Erases
import BatMarkets.Interleaving.Observe
import BatMarkets.Runtime.MissingOrders

/-!
# The verdict of a recovery

The recovery of the pending commands reads their list, looks for evidence of each, writes the list
of those left back, and returns their number (`resolve_pending_unknown_commands` of `runtime.rs`).
It has five exits, and one of them writes nothing back.

`consult` is the recovery with notes: it makes the same calls, and returns besides the number what
it has consulted.

## Main results

* `resolvePendingUnknownCommands_eq_consult` : the recovery is `consult` without its notes.
* `verdict_agrees_iff` : when the number, the list written back and the evidence agree.
* `resolved_locally_stays_pending` : a list that the local state resolves is not written back.
-/

namespace BatMarkets

open Interleaving Ordered Prog RuntimeM

/-! ### The notes -/

/-- The orders and executions of the local state, when they are looked at. -/
abbrev StateLook := List (List Order × List Execution)

/-- What a recovery has consulted. -/
structure Consulted where
  /-- The list, when it was read. -/
  pending : List PendingUnknownCommand
  /-- The local state, looked at before the venue is asked. -/
  first : StateLook
  /-- The commands of the list, each with whether the venue gave an order for it. -/
  commands : List (PendingUnknownCommand × Bool)
  /-- The local state, looked at after the lookups. -/
  second : StateLook := []
  /-- The recent orders of the instruments that were asked for. -/
  orders : List (InstrumentId × List Order) := []
  executions : List (InstrumentId × List Execution) := []

/-- A record of the local state is about the command. -/
def StateLook.shows (look : StateLook) (command : PendingUnknownCommand) : Bool :=
  look.any fun state => state.1.any (orderMatchesPending · command) ||
    state.2.any (executionMatchesPending · command)

/-- A record in the history of its instrument is about the command. -/
def historyShows {ρ : Type} (isAbout : ρ → PendingUnknownCommand → Bool)
    (history : List (InstrumentId × List ρ)) (command : PendingUnknownCommand) : Bool :=
  history.any fun (instrumentId, records) =>
    instrumentId = command.instrumentId && records.any (isAbout · command)

/-- The commands for which none of the evidence matched. -/
def Consulted.unmatched (E : Consulted) : List PendingUnknownCommand :=
  (E.commands.filter fun (command, found) =>
    !(found || E.first.shows command || E.second.shows command ||
      historyShows orderMatchesPending E.orders command ||
      historyShows executionMatchesPending E.executions command)).map (·.1)

/-- The commands that the local state leaves. -/
def StateLook.leaves (look : StateLook) (pending : List PendingUnknownCommand) :
    List PendingUnknownCommand :=
  look.foldl (fun pending state => unresolvedPendingAfterState pending state.1 state.2) pending

/-- The commands for which the venue gave no order. -/
def notFound (asked : List (PendingUnknownCommand × Bool)) : List PendingUnknownCommand :=
  (asked.filter (!·.2)).map (·.1)

/-- The recent records that were asked for, for some commands of an instrument. -/
abbrev GroupAnswers (ρ : Type) := List ((InstrumentId × List PendingUnknownCommand) × List ρ)

variable (context : LiveContext)

/-- The first look, with a note of what was found. -/
def consultState (pending : List PendingUnknownCommand) : RuntimeM StateLook := do
  if pending.isEmpty then return []
  else return [← read .ordersAndExecutions]

/-- The second look, with a note of which orders were found. -/
def askOrders (pending : List PendingUnknownCommand) :
    RuntimeE (List (PendingUnknownCommand × Bool)) :=
  pending.mapM fun command => return (command, ← lookupOrder context command)

/-- The look at a history, with a note of its records. -/
def askHistory {ρ : Type}
    (refresh : InstrumentId → List PendingUnknownCommand → RuntimeE (List ρ))
    (merge : List ρ → EngineOp) (pending : List PendingUnknownCommand) :
    RuntimeE (GroupAnswers ρ) :=
  (pendingByInstrument pending).toList.mapM fun group => do
    let records ← refresh group.1 group.2
    writeHistory merge records
    return (group, records)

/-- The records of each instrument. -/
def GroupAnswers.history {ρ : Type} (answers : GroupAnswers ρ) : List (InstrumentId × List ρ) :=
  answers.map fun a => (a.1.1, a.2)

/-- The commands that the recent records leave. -/
def GroupAnswers.leaves {ρ : Type} (isAbout : ρ → PendingUnknownCommand → Bool)
    (answers : GroupAnswers ρ) : List PendingUnknownCommand :=
  answers.flatMap fun a => a.1.2.filter fun command => !a.2.any (isAbout · command)

/-- The recovery of the pending commands, with what it has consulted. -/
def consult : RuntimeE (ℕ × Consulted) := do
  let pending ← pendingUnknownCommands
  let first ← consultState pending
  let E : Consulted := { pending, first, commands := pending.map (·, false) }
  let left := first.leaves pending
  if left.isEmpty then return (0, E)
  else
    let asked ← askOrders context left
    let E := { E with commands := (pending.filter first.shows).map (·, false) ++ asked }
    let second ← consultState (notFound asked)
    let E := { E with second }
    let left := second.leaves (notFound asked)
    if left.isEmpty then
      replacePendingUnknownCommands []
      return (0, E)
    else
      let orders ← askHistory (refreshRecentOrderHistory context) .mergeOrderHistory left
      let E := { E with orders := orders.history }
      let left := orders.leaves orderMatchesPending
      if left.isEmpty then
        replacePendingUnknownCommands []
        return (0, E)
      else
        let executions ← askHistory (refreshRecentExecutionHistory context) .mergeExecutions left
        let E := { E with executions := executions.history }
        let left := executions.leaves executionMatchesPending
        replacePendingUnknownCommands left
        return (left.length, E)

/-! ### The recovery without its notes -/

section Erasure

theorem erases_consultState (pending : List PendingUnknownCommand) :
    Erases (·.leaves pending) (consultState pending : RuntimeE StateLook)
      (resolvePendingFromLocalState pending) := by
  unfold consultState resolvePendingFromLocalState Erases
  split
  · rfl
  · rfl

theorem erases_askOrders (pending : List PendingUnknownCommand) :
    Erases notFound (askOrders context pending) (lookupOrders context pending) := by
  induction pending with
  | nil => exact erases_pure notFound []
  | cons command pending ih =>
    unfold askOrders
    rw [List.mapM_cons, lookupOrders, LawfulMonad.bind_assoc]
    refine (erases_refl (lookupOrder context command)).bind fun resolved => ?_
    rw [LawfulMonad.pure_bind]
    refine ih.bind fun asked => ?_
    unfold Erases
    cases resolved <;> rfl

theorem erases_askHistory {ρ : Type}
    {refresh : InstrumentId → List PendingUnknownCommand → RuntimeE (List ρ)}
    {merge : List ρ → EngineOp} {isAbout : ρ → PendingUnknownCommand → Bool}
    (pending : List PendingUnknownCommand) :
    Erases (GroupAnswers.leaves isAbout) (askHistory refresh merge pending)
      (resolveGroups refresh merge
        (fun commands records => commands.filter fun c => !records.any (isAbout · c))
        (pendingByInstrument pending).toList) := by
  unfold askHistory
  induction (pendingByInstrument pending).toList with
  | nil => exact erases_pure _ []
  | cons group groups ih =>
    obtain ⟨instrumentId, commands⟩ := group
    rw [List.mapM_cons, resolveGroups]
    simp only [LawfulMonad.bind_assoc]
    refine (erases_refl _).bind fun records => (erases_refl _).bind fun _ => ?_
    rw [LawfulMonad.pure_bind]
    exact ih.bind fun answers => erases_pure _ _

/-- **The recovery is `consult` without its notes.** -/
theorem resolvePendingUnknownCommands_eq_consult :
    Erases Prod.fst (consult context) (resolvePendingUnknownCommands context) := by
  unfold consult resolvePendingUnknownCommands
  refine (erases_refl _).bind fun pending => ?_
  refine (erases_consultState pending).bind fun first => ?_
  refine erases_ite (fun _ => erases_pure _ _) fun _ => ?_
  refine (erases_askOrders context _).bind fun asked => ?_
  refine (erases_consultState _).bind fun second => erases_ite (fun _ => ?_) fun _ => ?_
  · exact (erases_refl _).bind fun _ => erases_pure _ _
  refine (erases_askHistory _).bind fun orders => erases_ite (fun _ => ?_) fun _ => ?_
  · exact (erases_refl _).bind fun _ => erases_pure _ _
  refine (erases_askHistory _).bind fun executions => ?_
  exact (erases_refl _).bind fun _ => erases_pure _ _

end Erasure

/-! ### The commands for which nothing matched -/

section Unmatched

theorem leaves_eq_filter (look : StateLook) (pending : List PendingUnknownCommand) :
    look.leaves pending = pending.filter fun command => !look.shows command := by
  unfold StateLook.leaves StateLook.shows
  induction look generalizing pending with
  | nil => simp
  | cons state look ih =>
    rw [List.foldl_cons, ih]
    unfold unresolvedPendingAfterState unresolvedPendingAfterExecutions unresolvedPendingAfterOrders
    rw [List.filter_filter, List.filter_filter]
    refine List.filter_congr fun command _ => ?_
    rw [List.any_cons, Bool.not_or, Bool.not_or]
    cases state.1.any (orderMatchesPending · command) <;>
      cases state.2.any (executionMatchesPending · command) <;> simp

/-- The answers are about the groups of the commands. -/
def GroupAnswers.About {ρ : Type} (answers : GroupAnswers ρ)
    (pending : List PendingUnknownCommand) : Prop :=
  answers.map (·.1) = (pendingByInstrument pending).toList

/-- The histories leave, in another order, the commands about which they show nothing. -/
theorem GroupAnswers.About.perm_leaves {ρ : Type} {answers : GroupAnswers ρ}
    {pending : List PendingUnknownCommand} (h : answers.About pending)
    (isAbout : ρ → PendingUnknownCommand → Bool) :
    (answers.leaves isAbout).Perm
      (pending.filter fun command => !historyShows isAbout answers.history command) := by
  have hkeys : (answers.map (·.1.1)).Nodup := by
    have hkeys : (answers.map (·.1)).map (·.1) = (pendingByInstrument pending).keys := by
      rw [h, Std.ExtTreeMap.map_fst_toList_eq_keys]
    rw [List.map_map] at hkeys
    rw [show answers.map (·.1.1) = _ from hkeys]
    exact Std.ExtTreeMap.nodup_keys
  have hgroups : answers.leaves isAbout = (answers.flatMap (·.1.2)).filter fun command =>
      !historyShows isAbout answers.history command := by
    unfold GroupAnswers.leaves
    rw [List.filter_flatMap]
    refine List.flatMap_congr fun a ha => List.filter_congr fun command hcommand => ?_
    have hgroup : a.1 ∈ (pendingByInstrument pending).toList := h ▸ List.mem_map_of_mem ha
    have hinstrument := ((mem_group_iff hgroup).1 hcommand).2
    -- only the answer about the instrument of the command is looked at
    congr 1
    rw [Bool.eq_iff_iff]
    unfold historyShows GroupAnswers.history
    simp only [List.any_map, List.any_eq_true, Function.comp_apply, Bool.and_eq_true,
      decide_eq_true_eq]
    constructor
    · intro hshows
      exact ⟨a, ha, hinstrument.symm, hshows⟩
    · rintro ⟨b, hb, hkey, hshows⟩
      obtain rfl := List.inj_on_of_nodup_map hkeys hb ha (hkey.trans hinstrument)
      exact hshows
  rw [hgroups]
  refine List.Perm.filter _ ?_
  have hflat : answers.flatMap (·.1.2) = (pendingByInstrument pending).toList.flatMap (·.2) := by
    rw [← h, List.flatMap_map]
  rw [hflat]
  exact perm_groupBy _ _

/-- The commands that were asked about are those the local state left. -/
theorem perm_commands {first : StateLook} {pending : List PendingUnknownCommand}
    {asked : List (PendingUnknownCommand × Bool)}
    (hasked : asked.map (·.1) = first.leaves pending) :
    (((pending.filter first.shows).map (·, false) ++ asked).map (·.1)).Perm pending := by
  rw [List.map_append, hasked, leaves_eq_filter, List.map_map]
  have hfirst : (pending.filter first.shows).map ((fun c => c.1) ∘ fun c => (c, false)) =
      pending.filter first.shows := List.map_id _
  rw [hfirst]
  exact List.filter_append_perm _ _

/-- What is unmatched has not been found, and neither the second look nor a history shows it. -/
theorem unmatched_eq {E : Consulted} {asked : List (PendingUnknownCommand × Bool)}
    (hcommands : E.commands = (E.pending.filter E.first.shows).map (·, false) ++ asked)
    (hasked : asked.map (·.1) = E.first.leaves E.pending) :
    E.unmatched = (E.second.leaves (notFound asked)).filter fun command =>
      !(historyShows orderMatchesPending E.orders command ||
        historyShows executionMatchesPending E.executions command) := by
  have hdropped : ((E.pending.filter E.first.shows).map (·, false)).filter
      (fun (command, found) => !(found || E.first.shows command || E.second.shows command ||
        historyShows orderMatchesPending E.orders command ||
        historyShows executionMatchesPending E.executions command)) = [] := by
    rw [List.filter_eq_nil_iff]
    intro p hp
    obtain ⟨command, hcommand, rfl⟩ := List.mem_map.1 hp
    simp [(List.mem_filter.1 hcommand).2]
  have hleft : ∀ p ∈ asked, E.first.shows p.1 = false := by
    intro p hp
    have hmem : p.1 ∈ E.first.leaves E.pending := hasked ▸ List.mem_map_of_mem hp
    rw [leaves_eq_filter] at hmem
    simpa using (List.mem_filter.1 hmem).2
  unfold Consulted.unmatched
  rw [hcommands, List.filter_append, hdropped, List.nil_append, leaves_eq_filter, notFound,
    List.filter_map, List.filter_map, List.filter_filter, List.filter_filter]
  congr 1
  refine List.filter_congr fun p hp => ?_
  simp only [hleft p hp, Function.comp_apply, Bool.or_false, Bool.not_or]
  cases p.2 <;> cases E.second.shows p.1 <;> simp

/-- Nothing is unmatched when the local state leaves nothing. -/
theorem unmatched_nil {E : Consulted} (hleft : E.first.leaves E.pending = [])
    (hcommands : E.commands = E.pending.map (·, false)) : E.unmatched = [] := by
  rw [leaves_eq_filter, List.filter_eq_nil_iff] at hleft
  unfold Consulted.unmatched
  rw [List.map_eq_nil_iff, List.filter_eq_nil_iff, hcommands]
  intro p hp
  obtain ⟨command, hcommand, rfl⟩ := List.mem_map.1 hp
  have hshown : E.first.shows command = true := by simpa using hleft command hcommand
  simp [hshown]

end Unmatched

/-! ### The list after the recovery -/

/-- The list of pending commands, when it is read or written. -/
def notePending : Event RuntimeCall RuntimeReply → Option (List PendingUnknownCommand)
  | ⟨.pendingUnknownCommands, pending⟩ => some pending
  | ⟨.replacePendingUnknownCommands unresolved, _⟩ => some unresolved
  | _ => none

/-- The list of pending commands after these calls, when nobody else changes it: as it was read or
written last. -/
def storedAfter (τ : RuntimeTrace) : List PendingUnknownCommand :=
  (τ.filterMap notePending).head?.getD []

/-- The number, the list and the evidence agree. -/
structure VerdictAgrees (τ : RuntimeTrace) (n : ℕ) (E : Consulted) : Prop where
  count : (storedAfter τ).length = n
  part : (storedAfter τ).Subperm E.pending
  exact : (storedAfter τ).Perm E.unmatched

/-- The recovery ends with this number, and has consulted this. -/
def Consults (τ : RuntimeTrace) (n : ℕ) (E : Consulted) : Prop :=
  (consult context).run.Ends [] τ (.ok (n, E))

section Run

variable {context : LiveContext}

/-- What is left of a run when it ends: the list is as it was, or what is left has been written. -/
inductive RunEnd (os : List (List PendingUnknownCommand)) (n : ℕ) (E : Consulted) : Prop
  | locally (hos : os = [E.pending]) (hn : n = 0) (hleft : E.first.leaves E.pending = [])
      (hunmatched : E.unmatched = [])
  | written (U : List PendingUnknownCommand) (hos : os = [U, E.pending]) (hn : n = U.length)
      (hU : U.Perm E.unmatched) (hleft : E.first.leaves E.pending ≠ [])

/-- The calls that do not concern the list are not noted. -/
theorem notePending_eq_none {q : RuntimeCall} (h : ¬ q.OnPending) (r : RuntimeReply q) :
    notePending ⟨q, r⟩ = none := by
  cases q <;> first | rfl | exact absurd trivial h

theorem quiet_of_aside {α : Type} {t : RuntimeM α} (h : Aside t) : t.Quiet notePending :=
  quiet_of_always (h.mono fun _ _ hq => notePending_eq_none hq)

theorem quietly_consultState (pending : List PendingUnknownCommand) :
    Quietly notePending (fun _ => True) (consultState pending : RuntimeE StateLook) := by
  unfold consultState
  split
  · exact quietly_pure trivial
  · exact (quiet_perform fun _ => rfl).quietly.bind fun _ _ => quietly_pure trivial

theorem aside_getOrder (request : GetOrderRequest) : Aside (getOrder context request).run := by
  refine fun τ => spec_requireSpec id (fun _ => trivial) fun spec => ?_
  cases orderLookup context spec request with
  | error e => trivial
  | ok lookup =>
    exact ((aside_signedGet _ _ _ _).attempt fun _ => (aside_write _).attempt fun _ =>
      (aside_write _).attempt fun _ => aside_return _) _

theorem aside_lookupOrder (command : PendingUnknownCommand) :
    Aside (lookupOrder context command).run := by
  unfold lookupOrder
  rw [ExceptT.run_mk]
  split
  · refine Always.bind (aside_getOrder _) fun r => ?_
    cases r <;> exact fun _ => trivial
  · exact fun _ => trivial

theorem aside_refreshRecentOrderHistory (i : InstrumentId)
    (commands : List PendingUnknownCommand) :
    Aside (refreshRecentOrderHistory context i commands).run := by
  refine fun τ => spec_requireSpec id (fun _ => trivial) fun spec => ?_
  exact ⟨id, fun _ => ⟨id, fun _ => ⟨id, fun _ => ⟨id, fun _ => trivial⟩⟩⟩⟩

theorem quietly_askOrders (pending : List PendingUnknownCommand) :
    Quietly notePending (fun asked => asked.map (·.1) = pending) (askOrders context pending) := by
  refine quietly_mapM fun command _ => ?_
  exact (quiet_of_aside (aside_lookupOrder command)).quietly.bind fun _ _ => quietly_pure rfl

theorem quietly_askHistory {ρ : Type}
    {refresh : InstrumentId → List PendingUnknownCommand → RuntimeE (List ρ)}
    {merge : List ρ → EngineOp} (hrefresh : ∀ i commands, Aside (refresh i commands).run)
    (pending : List PendingUnknownCommand) :
    Quietly notePending (·.About pending) (askHistory refresh merge pending) := by
  refine quietly_mapM fun group _ => ?_
  refine (quiet_of_aside (hrefresh _ _)).quietly.bind fun records _ => ?_
  exact (quiet_of_aside (aside_write _)).quietly.bind fun _ _ => quietly_pure rfl

theorem reports_consult :
    (consult context).run.Reports notePending fun os r =>
      ∀ n E, r = .ok (n, E) → RunEnd os n E ∧ (E.commands.map (·.1)).Perm E.pending := by
  unfold consult
  refine reports_perform fun pending => ?_
  refine (quietly_consultState pending).attempt (fun first _ => ?_) fun e n E hE => by cases hE
  dsimp only
  split
  next hempty =>
    -- everything is known locally, and nothing is written back
    have hleft : first.leaves pending = [] := List.isEmpty_iff.1 hempty
    refine reports_ret fun n E hE => ?_
    obtain ⟨rfl, rfl⟩ := Prod.mk.inj (Except.ok.inj hE)
    refine ⟨.locally rfl rfl hleft (unmatched_nil hleft rfl), ?_⟩
    show ((pending.map (·, false)).map (·.1)).Perm pending
    rw [List.map_map]
    exact .of_eq (List.map_id _)
  next hempty =>
  have hleft : first.leaves pending ≠ [] := fun h => hempty (List.isEmpty_iff.2 h)
  -- then the orders are asked for, and the state is looked at again
  refine (quietly_askOrders _).attempt (fun asked hasked => ?_) fun e n E hE => by cases hE
  have hcommands := perm_commands hasked
  refine (quietly_consultState _).attempt (fun second _ => ?_) fun e n E hE => by cases hE
  split
  next hempty =>
    refine reports_perform fun _ => reports_ret fun n E hE => ?_
    obtain ⟨rfl, rfl⟩ := Prod.mk.inj (Except.ok.inj hE)
    refine ⟨.written [] rfl rfl ?_ hleft, hcommands⟩
    rw [unmatched_eq rfl hasked]
    show List.Perm [] ((second.leaves (notFound asked)).filter _)
    rw [List.isEmpty_iff.1 hempty]
    exact .refl _
  next =>
  refine (quietly_askHistory (fun i c => aside_refreshRecentOrderHistory i c) _).attempt
    (fun orders horders => ?_) fun e n E hE => by cases hE
  -- the groups are by instrument, so what they leave is a reordering
  have hperm := horders.perm_leaves orderMatchesPending
  split
  next hempty =>
    refine reports_perform fun _ => reports_ret fun n E hE => ?_
    obtain ⟨rfl, rfl⟩ := Prod.mk.inj (Except.ok.inj hE)
    refine ⟨.written [] rfl rfl ?_ hleft, hcommands⟩
    rw [unmatched_eq rfl hasked]
    rw [List.isEmpty_iff.1 hempty] at hperm
    refine hperm.trans (.of_eq (List.filter_congr fun command _ => ?_))
    exact congrArg not (Bool.or_false _).symm
  next =>
  refine (quietly_askHistory (fun i c => aside_refreshRecentExecutionHistory context i c) _).attempt
    (fun executions hexecutions => ?_) fun e n E hE => by cases hE
  have hperm' := (hexecutions.perm_leaves executionMatchesPending).trans (hperm.filter _)
  refine reports_perform fun _ => reports_ret fun n E hE => ?_
  obtain ⟨rfl, rfl⟩ := Prod.mk.inj (Except.ok.inj hE)
  refine ⟨.written _ rfl rfl ?_ hleft, hcommands⟩
  rw [unmatched_eq rfl hasked]
  refine hperm'.trans (.of_eq ?_)
  rw [List.filter_filter]
  refine List.filter_congr fun command _ => ?_
  rw [Bool.not_or, Bool.and_comm]

/-- **The verdict of a recovery.** -/
theorem verdict_agrees_iff {τ : RuntimeTrace} {n : ℕ}
    (hrun : (resolvePendingUnknownCommands context).run.Ends [] τ (.ok n)) :
    (∃ E, Consults context τ n E) ∧ ∀ E, Consults context τ n E →
      (E.commands.map (·.1)).Perm E.pending ∧
        (VerdictAgrees τ n E ↔ E.pending = [] ∨ E.first.leaves E.pending ≠ []) := by
  refine ⟨?_, fun E hconsults => ?_⟩
  · obtain ⟨⟨_, E⟩, hE, rfl⟩ := (resolvePendingUnknownCommands_eq_consult context).ends hrun
    exact ⟨E, hE⟩
  obtain ⟨hend, hcommands⟩ := reports_consult.of_ends hconsults n E rfl
  refine ⟨hcommands, ?_⟩
  cases hend with
  | locally hos hn hleft hunmatched =>
    have hstored : storedAfter τ = E.pending := by rw [storedAfter, hos]; rfl
    constructor
    · intro h
      have hlength := h.count
      rw [hstored, hn] at hlength
      exact .inl (List.eq_nil_of_length_eq_zero hlength)
    · intro h
      have hnil : E.pending = [] := h.resolve_right (not_not.2 hleft)
      rw [hnil] at hstored
      refine ⟨?_, ?_, ?_⟩
      · rw [hstored, hn]
        rfl
      · rw [hstored]
        exact List.nil_subperm
      · rw [hstored, hunmatched]
  -- what is written back is what the replies leave
  | written U hos hn hU hleft =>
    have hstored : storedAfter τ = U := by rw [storedAfter, hos]; rfl
    refine iff_of_true ⟨?_, ?_, ?_⟩ (.inr hleft)
    · rw [hstored, hn]
    · have hsub : (E.unmatched).Subperm (E.commands.map (·.1)) :=
        (List.filter_sublist.map _).subperm
      rw [hstored]
      exact hU.subperm.trans (hsub.trans hcommands.subperm)
    · rw [hstored]
      exact hU

end Run

/-! ### Two runs -/

/-- The answer of Binance for an order it does not know. -/
def noSuchOrder : MarketError where
  kind := .exchangeReject
  message := "Order does not exist."

/-- Two creates that the venue knows nothing of are left, and counted. -/
theorem verdict_agrees_iff_creates : ∃ E,
    Consults ⟨.binance, .linearUsdt, 5000⟩ (createsTrace .binance noSuchOrder) 2 E ∧
      VerdictAgrees (createsTrace .binance noSuchOrder) 2 E := by
  have hrun : (resolvePendingUnknownCommands ⟨.binance, .linearUsdt, 5000⟩).run.Ends []
      (createsTrace .binance noSuchOrder) (.ok 2) := ends_exec _
  let E : Consulted :=
    { pending := twoCreates, first := [([], [])], commands := twoCreates.map (·, false)
      second := [([], [])], orders := [(⟨"BTC"⟩, [])], executions := [(⟨"BTC"⟩, [])] }
  have hconsults : Consults ⟨.binance, .linearUsdt, 5000⟩ (createsTrace .binance noSuchOrder) 2
      E := by
    have htrace : createsTrace .binance noSuchOrder =
        (consult ⟨.binance, .linearUsdt, 5000⟩).run.execTrace LiveWorld.reply
          (withoutOrders .binance noSuchOrder) [] := rfl
    have hresult : ((consult ⟨.binance, .linearUsdt, 5000⟩).run.exec LiveWorld.reply
        (withoutOrders .binance noSuchOrder)).1 = .ok (2, E) := rfl
    rw [Consults, htrace, ← hresult]
    exact ends_exec _
  exact ⟨E, hconsults, (((verdict_agrees_iff hrun).2 E hconsults).2).2 (.inr (by decide))⟩

/-- A cancel is pending. -/
def oneCancel : List PendingUnknownCommand := [⟨.cancelOrder, ⟨"BTC"⟩, some ⟨"1"⟩, none, 5⟩]

/-- Its order is in the local state, so that the recovery returns 0, but the cancel stays. -/
theorem resolved_locally_stays_pending :
    ¬ ∀ (context : LiveContext) (τ : RuntimeTrace) (n : ℕ) (E : Consulted),
      (resolvePendingUnknownCommands context).run.Ends [] τ (.ok n) → Consults context τ n E →
        VerdictAgrees τ n E := by
  intro h
  let look : List Order × List Execution := ([Order.unit "1" "BTC" .new 5], [])
  let τ : RuntimeTrace :=
    [⟨.read .ordersAndExecutions, look⟩, ⟨.pendingUnknownCommands, oneCancel⟩]
  have hrun : (resolvePendingUnknownCommands ⟨.binance, .linearUsdt, 5000⟩).run.Ends [] τ
      (.ok 0) := by
    refine ends_call.2 ⟨oneCancel, ends_call.2 ⟨look, ?_⟩⟩
    exact .ret _ τ
  have hconsults : Consults ⟨.binance, .linearUsdt, 5000⟩ τ 0
      { pending := oneCancel, first := [look], commands := oneCancel.map (·, false) } := by
    refine ends_call.2 ⟨oneCancel, ends_call.2 ⟨look, ?_⟩⟩
    exact .ret _ τ
  have hcount := (h _ τ 0 _ hrun hconsults).count
  cases hcount

end BatMarkets
