import BatMarkets.Commands.Unproven

/-!
# Commands of several parts

On MEXC the leverage and the margin mode of an instrument are changed by one request for each cached
position, or by two if there is none.  The requests are sent one after the other until one of them
is an error, and the receipts are merged into one (`mexc_merge_command_receipts`, `runtime.rs`): the
first that is a rejection, else the first to recover from, else the last.

`ReportsWhole` is what the result should say about the parts.

## Main results

* `parts_reported_iff` : the runs in which the result says so.
* `rejected_part_hides_uncertain_one` : one in which it does not.
-/

namespace BatMarkets

open CommandM Interleaving Prog Wire

/-! ### Parts -/

/-- The commands that change a setting in several parts. -/
inductive LeverageCommand
  | setLeverage (request : SetLeverageRequest)
  | setMarginMode (request : SetMarginModeRequest)

namespace LeverageCommand

/-- The instrument whose leverage or margin mode is changed. -/
def instrumentId : LeverageCommand → InstrumentId
  | setLeverage request => request.instrumentId
  | setMarginMode request => request.instrumentId

/-- What the command does. -/
def operation : LeverageCommand → CommandOperation
  | setLeverage _ => .setLeverage
  | setMarginMode _ => .setMarginMode

/-- The id that the caller gave the request. -/
def requestId : LeverageCommand → Option RequestId
  | setLeverage request => request.requestId
  | setMarginMode request => request.requestId

/-- The program of the command. -/
def program (context : CommandContext) : LeverageCommand → CommandE CommandReceipt
  | setLeverage request => BatMarkets.setLeverage context request
  | setMarginMode request => BatMarkets.setMarginMode context request

end LeverageCommand

/-- How many parts a command has: one for each cached position, or two if there is none. -/
def mexcPartCount (positions : List Position) (instrumentId : InstrumentId) : ℕ :=
  let cached := positions.countP fun position =>
    position.instrumentId == instrumentId && position.positionId.asStr != "0"
  if cached = 0 then 2 else cached

/-- What an observer notes of the parts of a command. -/
inductive PartSign
  /-- The engine state has been read, and there are so many parts by it. -/
  | planned (count : ℕ)
  | outcome (outcome : WriteOutcome)
  deriving DecidableEq

namespace LeverageCommand

variable (command : LeverageCommand)

/-- The sign that a call and its reply leave. -/
def partSign : Event CommandCall CommandReply → Option PartSign
  | ⟨.readState, state⟩ => some (.planned (mexcPartCount state.positions command.instrumentId))
  | ⟨.rest request, reply⟩ =>
    if request.method = .get then none
    else some (.outcome (match reply with
      | (.ok payload, catalog) =>
        replyOutcome .mexc command.operation command.requestId catalog payload
      | (.error e, _) => if isUncertainCommandError e then .uncertain else .refused))
  | _ => none

/-- The signs of a run, the first one first. -/
def partSigns (τ : List (Event CommandCall CommandReply)) : List PartSign :=
  (τ.filterMap command.partSign).reverse

end LeverageCommand

/-- The outcomes among the signs. -/
def outcomesOf (signs : List PartSign) : List WriteOutcome :=
  signs.filterMap fun
    | .outcome o => some o
    | .planned _ => none

/-- The number of parts, by the last look at the engine state. -/
def plannedCount (signs : List PartSign) : ℕ :=
  (signs.filterMap fun
    | .planned n => some n
    | .outcome _ => none).getLast?.getD 0

/-- What the result of a command of so many parts is to say about the outcomes of the parts that
have been sent. -/
structure ReportsWhole (count : ℕ) (outcomes : List WriteOutcome)
    (result : Except Failure CommandReceipt) : Prop where
  accepted : ∀ receipt, result = .ok receipt → receipt.status = .accepted →
    outcomes = List.replicate count .accepted
  uncertain : .uncertain ∈ outcomes →
    ∃ receipt, result = .ok receipt ∧ receipt.status = .unknownExecution
  /-- A rejection, or an error, means that nothing may have been executed. -/
  refused : (∀ receipt, result = .ok receipt → receipt.status = .rejected) →
    .accepted ∉ outcomes ∧ .uncertain ∉ outcomes ∧ .undecodable ∉ outcomes

/-- Every reply can be decoded, and no part is turned down when another one is, or may be,
accepted. -/
def AllAgree (outcomes : List WriteOutcome) : Prop :=
  .undecodable ∉ outcomes ∧
    (.accepted ∈ outcomes ∨ .uncertain ∈ outcomes → .rejected ∉ outcomes ∧ .refused ∉ outcomes)

/-! ### Merging -/

/-- The status of a whole whose parts have these outcomes and none of them is an error. -/
def mergedStatus (outcomes : List WriteOutcome) : CommandStatus :=
  if .rejected ∈ outcomes then .rejected
  else if .uncertain ∈ outcomes then .unknownExecution
  else .accepted

/-- The parts have been sent until one of them was an error, and the result says which receipts they
gave. -/
def SentUntilError (count : ℕ) (outcomes : List WriteOutcome) :
    Except Failure (List CommandReceipt) → Prop
  | .ok receipts => outcomes.length = count ∧
      List.Forall₂ (fun o receipt => o.verdict true = some receipt.status) outcomes receipts
  | .error _ => ∃ o ∈ outcomes, o.verdict true = none ∧ o ≠ .notWritten

section Merge

variable {context : CommandContext} {operation : CommandOperation} {requestId : Option RequestId}
  {outcomes : List WriteOutcome} {receipts : List CommandReceipt}

theorem verdict_eq_some_iff {o : WriteOutcome} {status : CommandStatus} :
    o.verdict true = some status ↔ (o = .uncertain ∧ status = .unknownExecution) ∨
      (o = .rejected ∧ status = .rejected) ∨ (o = .accepted ∧ status = .accepted) := by
  cases o <;> cases status <;> simp [WriteOutcome.verdict]

/-- The receipts have a status exactly if the outcomes have one that calls for it. -/
theorem exists_status_iff (h : List.Forall₂ (fun o receipt =>
      WriteOutcome.verdict true o = some receipt.status) outcomes receipts)
    {o : WriteOutcome} {status : CommandStatus}
    (ho : ∀ o', o'.verdict true = some status ↔ o' = o) :
    (∃ receipt ∈ receipts, receipt.status = status) ↔ o ∈ outcomes := by
  induction h with
  | nil => simp
  | @cons o' receipt outcomes receipts hfirst hrest ih =>
    have hhere : receipt.status = status ↔ o = o' := by
      rw [eq_comm (a := o), ← ho o', hfirst, Option.some.injEq]
    simp only [List.mem_cons, or_and_right, exists_or, exists_eq_left, ih, hhere]

/-- Every receipt has a status that some outcome calls for. -/
theorem exists_outcome (h : List.Forall₂ (fun o receipt =>
      WriteOutcome.verdict true o = some receipt.status) outcomes receipts)
    {receipt : CommandReceipt} (hmem : receipt ∈ receipts) :
    ∃ o ∈ outcomes, o.verdict true = some receipt.status := by
  induction h with
  | nil => cases hmem
  | cons hfirst hrest ih =>
    obtain rfl | hmem := List.mem_cons.1 hmem
    · exact ⟨_, List.mem_cons_self, hfirst⟩
    · obtain ⟨o, ho, hstatus⟩ := ih hmem
      exact ⟨o, List.mem_cons_of_mem _ ho, hstatus⟩

/-- The merged receipt has the status that the outcomes call for. -/
theorem status_merge (h : List.Forall₂ (fun o receipt =>
      WriteOutcome.verdict true o = some receipt.status) outcomes receipts) :
    (mexcMergeCommandReceipts context operation requestId receipts).status =
      mergedStatus outcomes := by
  have hrejected := exists_status_iff h
    (fun o' => show o'.verdict true = some .rejected ↔ o' = .rejected by
      cases o' <;> simp [WriteOutcome.verdict])
  have huncertain := exists_status_iff h
    (fun o' => show o'.verdict true = some .unknownExecution ↔ o' = .uncertain by
      cases o' <;> simp [WriteOutcome.verdict])
  unfold mexcMergeCommandReceipts mergedStatus
  cases hr : receipts.find? (·.status = .rejected) with
  | some receipt =>
    have hstatus : receipt.status = .rejected := by simpa using List.find?_some hr
    rw [if_pos (hrejected.1 ⟨receipt, List.mem_of_find?_eq_some hr, hstatus⟩)]
    exact hstatus
  | none =>
    have hnone : ¬ ∃ receipt ∈ receipts, receipt.status = .rejected := by simpa using hr
    rw [if_neg (mt hrejected.2 hnone)]
    cases hu : receipts.find? (·.status = .unknownExecution) with
    | some receipt =>
      have hstatus : receipt.status = .unknownExecution := by simpa using List.find?_some hu
      rw [if_pos (huncertain.1 ⟨receipt, List.mem_of_find?_eq_some hu, hstatus⟩)]
      exact hstatus
    | none =>
      have hnone' : ¬ ∃ receipt ∈ receipts, receipt.status = .unknownExecution := by
        simpa using hu
      rw [if_neg (mt huncertain.2 hnone')]
      -- what is neither rejected nor unknown has been accepted
      cases hlast : receipts.getLast? with
      | none => rfl
      | some receipt =>
        have hmem := List.mem_of_getLast? hlast
        obtain ⟨o, -, hverdict⟩ := exists_outcome h hmem
        obtain ⟨-, hstatus⟩ | ⟨-, hstatus⟩ | ⟨-, hstatus⟩ := verdict_eq_some_iff.1 hverdict
        · exact absurd ⟨receipt, hmem, hstatus⟩ hnone'
        · exact absurd ⟨receipt, hmem, hstatus⟩ hnone
        · exact hstatus

/-- Outcomes that call for a status are all accepted if none is uncertain and none rejected. -/
theorem eq_replicate (hverdict : ∀ o ∈ outcomes, o.verdict true ≠ none)
    (huncertain : .uncertain ∉ outcomes) (hrejected : .rejected ∉ outcomes) :
    outcomes = List.replicate outcomes.length .accepted := by
  refine List.eq_replicate_of_mem fun o ho => ?_
  have hsome := hverdict o ho
  cases o with
  | accepted => rfl
  | uncertain => exact absurd ho huncertain
  | rejected => exact absurd ho hrejected
  | notWritten | refused | undecodable => exact absurd rfl hsome

theorem mergedStatus_eq_accepted_iff :
    mergedStatus outcomes = .accepted ↔ .rejected ∉ outcomes ∧ .uncertain ∉ outcomes := by
  unfold mergedStatus
  split_ifs <;> simp_all

theorem mergedStatus_eq_rejected_iff : mergedStatus outcomes = .rejected ↔ .rejected ∈ outcomes := by
  unfold mergedStatus
  split_ifs <;> simp_all

theorem mergedStatus_eq_unknown_iff :
    mergedStatus outcomes = .unknownExecution ↔ .rejected ∉ outcomes ∧ .uncertain ∈ outcomes := by
  unfold mergedStatus
  split_ifs <;> simp_all

/-- An error reports the whole if it is that of the only part that may have had an effect. -/
theorem reportsWhole_error_iff {count : ℕ} {e : Failure} {last : WriteOutcome}
    (hmem : last ∈ outcomes) (hlast : last.verdict true = none) (hwritten : last ≠ .notWritten) :
    ReportsWhole count outcomes (.error e) ↔ AllAgree outcomes := by
  constructor
  · intro h
    obtain ⟨haccepted, huncertain, hundecodable⟩ := h.refused (by simp)
    exact ⟨hundecodable, fun hor => absurd hor (by simp [haccepted, huncertain])⟩
  · rintro ⟨hundecodable, hagree⟩
    have hrefused : .refused ∈ outcomes := by
      cases last with
      | refused => exact hmem
      | undecodable => exact absurd hmem hundecodable
      | notWritten => exact absurd rfl hwritten
      | uncertain | rejected | accepted => cases hlast
    have hnone : ¬ (.accepted ∈ outcomes ∨ .uncertain ∈ outcomes) := fun hor =>
      (hagree hor).2 hrefused
    rw [not_or] at hnone
    exact ⟨by simp, fun h => absurd h hnone.2, fun _ => ⟨hnone.1, hnone.2, hundecodable⟩⟩

/-- The receipt of a whole without an error reports it if it does not hide an acceptance behind a
rejection. -/
theorem reportsWhole_ok_iff {receipt : CommandReceipt}
    (hstatus : receipt.status = mergedStatus outcomes)
    (hverdict : ∀ o ∈ outcomes, o.verdict true ≠ none) :
    ReportsWhole outcomes.length outcomes (.ok receipt) ↔ AllAgree outcomes := by
  have hundecodable : .undecodable ∉ outcomes := fun h => hverdict _ h rfl
  have hrefused : .refused ∉ outcomes := fun h => hverdict _ h rfl
  constructor
  · intro h
    refine ⟨hundecodable, fun hor => ⟨fun hrejected => ?_, hrefused⟩⟩
    have hmerged := mergedStatus_eq_rejected_iff.2 hrejected
    obtain ⟨haccepted, huncertain, -⟩ := h.refused fun receipt' hreceipt' => by
      rw [← Except.ok.inj hreceipt', hstatus, hmerged]
    exact hor.elim haccepted huncertain
  · rintro ⟨-, hagree⟩
    refine ⟨fun receipt' hreceipt' haccepted => ?_, fun huncertain => ⟨receipt, rfl, ?_⟩,
      fun hrejected => ?_⟩
    · rw [← Except.ok.inj hreceipt', hstatus, mergedStatus_eq_accepted_iff] at haccepted
      exact eq_replicate hverdict haccepted.2 haccepted.1
    · rw [hstatus, mergedStatus_eq_unknown_iff]
      exact ⟨(hagree (.inr huncertain)).1, huncertain⟩
    · have hmem := hrejected receipt rfl
      rw [hstatus, mergedStatus_eq_rejected_iff] at hmem
      have hnone : ¬ (.accepted ∈ outcomes ∨ .uncertain ∈ outcomes) := fun hor =>
        (hagree hor).1 hmem
      rw [not_or] at hnone
      exact ⟨hnone.1, hnone.2, hundecodable⟩

theorem verdict_ne_none (h : List.Forall₂ (fun o receipt =>
      WriteOutcome.verdict true o = some receipt.status) outcomes receipts) :
    ∀ o ∈ outcomes, o.verdict true ≠ none := by
  induction h with
  | nil => simp
  | cons hfirst hrest ih =>
    intro o ho
    obtain rfl | ho := List.mem_cons.1 ho
    · simp [hfirst]
    · exact ih o ho

/-- The merged result of parts that were sent until one was an error reports the whole exactly if
the parts agree. -/
theorem reportsWhole_iff {count : ℕ} {sent : Except Failure (List CommandReceipt)}
    (hsent : SentUntilError count outcomes sent) :
    ReportsWhole count outcomes (sent.map (mexcMergeCommandReceipts context operation requestId)) ↔
      AllAgree outcomes := by
  cases sent with
  | error e =>
    obtain ⟨last, hmem, hlast, hwritten⟩ := hsent
    exact reportsWhole_error_iff hmem hlast hwritten
  | ok receipts =>
    obtain ⟨rfl, hall⟩ := hsent
    exact reportsWhole_ok_iff (status_merge hall) (verdict_ne_none hall)

/-- A command that fails before it sends anything reports the whole. -/
theorem reportsWhole_nothing {count : ℕ} {e : Failure} : ReportsWhole count [] (.error e) :=
  ⟨by simp, by simp, by simp⟩

theorem allAgree_nil : AllAgree [] := by simp [AllAgree]

end Merge

/-! ### What the runs show -/

section Runs

variable {context : CommandContext} {command : LeverageCommand}

theorem quiet_commandSpec (i : InstrumentId) :
    (commandSpec context i).run.Quiet command.partSign := by
  refine quiet_call (fun _ => rfl) fun reply => ?_
  cases reply <;> exact quiet_ret _

theorem quiet_ofExcept {α : Type} (x : Except MarketError α) :
    (ofExcept x).run.Quiet command.partSign := by
  cases x <;> exact quiet_ret _

theorem quiet_restText {request : RestCommand} (hmethod : request.method = .get) :
    (restText request).run.Quiet command.partSign := by
  refine quiet_call (fun reply => by simp [LeverageCommand.partSign, hmethod]) fun reply => ?_
  obtain ⟨reply, catalog⟩ := reply
  cases reply <;> exact quiet_ret _

/-- What the adapter makes of the reply to a part is the verdict on the reply. -/
theorem verdict_classify (hvenue : context.venue = .mexc) (catalog : InstrumentCatalog)
    (payload : Payload) :
    statusOf (·.status) (classifyCommand context.venue catalog command.operation (some payload)
        command.requestId) =
      (replyOutcome .mexc command.operation command.requestId catalog payload).verdict true := by
  unfold replyOutcome
  rw [hvenue]
  cases hr : classifyCommand .mexc catalog command.operation (some payload) command.requestId with
  | error e => rfl
  | ok receipt =>
    rcases decided_classifyCommand hr with hs | hs <;>
      simp [statusOf, Except.toOption, WriteOutcome.verdict, hs]

theorem reports_classify {catalog : InstrumentCatalog} {payload : Option Payload} :
    (classify context command.operation catalog payload command.requestId).run.Reports
      command.partSign fun signs r => signs = [] ∧ statusOf (·.status) r =
        statusOf (·.status) (classifyCommand context.venue catalog command.operation payload
          command.requestId) := by
  unfold classify
  cases classifyCommand context.venue catalog command.operation payload command.requestId with
  | error e => exact reports_ret ⟨rfl, rfl⟩
  | ok receipt => exact reports_ret ⟨rfl, rfl⟩

/-- The outcome of a part is the verdict on its request. -/
theorem reports_part (hvenue : context.venue = .mexc) {request : RestCommand}
    (hmethod : request.method ≠ .get) :
    (sendRest context command.operation command.requestId request).run.Reports command.partSign
      fun signs r => ∃ o : WriteOutcome, o ≠ .notWritten ∧ signs = [.outcome o] ∧
        statusOf (·.status) r = o.verdict true := by
  refine reports_perform fun reply => ?_
  obtain ⟨reply, catalog⟩ := reply
  cases reply with
  | ok payload =>
    refine reports_classify.mono fun signs r hr => ?_
    exact ⟨_, replyOutcome_ne_notWritten, by simp [hr.1, LeverageCommand.partSign, hmethod],
      hr.2.trans (verdict_classify hvenue catalog payload)⟩
  | error e =>
    dsimp only
    by_cases hu : isUncertainCommandError e = true
    · rw [if_pos hu]
      refine reports_classify.mono fun signs r hr => ?_
      refine ⟨.uncertain, by simp, by simp [hr.1, LeverageCommand.partSign, hmethod, hu], ?_⟩
      rw [hr.2]
      rfl
    · rw [if_neg hu]
      exact reports_ret ⟨.refused, by simp, by simp [LeverageCommand.partSign, hmethod, hu], rfl⟩

/-- The parts are sent until one of them is an error. -/
theorem reports_parts (hvenue : context.venue = .mexc) {bodies : List Json}
    {request : Json → RestCommand} (hmethod : ∀ body, (request body).method ≠ .get) :
    (bodies.mapM fun body => sendRest context command.operation command.requestId
        (request body)).run.Reports command.partSign
      fun signs r => ∃ outcomes, signs.reverse = outcomes.map .outcome ∧
        SentUntilError bodies.length outcomes r := by
  induction bodies with
  | nil => exact reports_ret ⟨[], rfl, rfl, .nil⟩
  | cons body bodies ih =>
    rw [List.mapM_cons]
    refine Reports.attempt (reports_part hvenue (hmethod body)) (fun signs receipt hr => ?_)
      fun signs e he => ?_
    · obtain ⟨o, hwritten, rfl, hverdict⟩ := hr
      refine Reports.map_ok ih fun signs r hr => ?_
      obtain ⟨outcomes, hsigns, hsent⟩ := hr
      refine ⟨o :: outcomes, by simp [hsigns], ?_⟩
      cases r with
      | error e =>
        obtain ⟨last, hmem, hlast⟩ := hsent
        exact ⟨last, List.mem_cons_of_mem o hmem, hlast⟩
      | ok receipts =>
        obtain ⟨hlength, hall⟩ := hsent
        exact ⟨by simp [hlength], .cons hverdict.symm hall⟩
    · obtain ⟨o, hwritten, rfl, hverdict⟩ := he
      exact ⟨[o], rfl, o, List.mem_singleton_self o, hverdict.symm, hwritten⟩

/-! ### Whole commands -/

/-- What the signs of a run and its result are to satisfy. -/
def ReportedIff (signs : List PartSign) (r : Except Failure CommandReceipt) : Prop :=
  ReportsWhole (plannedCount signs) (outcomesOf signs) r ↔ AllAgree (outcomesOf signs)

/-- Signs of a command that has not sent anything yet. -/
def OnlyPlans (signs : List PartSign) : Prop := outcomesOf signs = []

@[simp] theorem outcomesOf_append (signs signs' : List PartSign) :
    outcomesOf (signs ++ signs') = outcomesOf signs ++ outcomesOf signs' := List.filterMap_append

@[simp] theorem outcomesOf_map (outcomes : List WriteOutcome) :
    outcomesOf (outcomes.map .outcome) = outcomes := by
  simp [outcomesOf, List.filterMap_map]

@[simp] theorem plannedCount_append_map (signs : List PartSign) (outcomes : List WriteOutcome) :
    plannedCount (signs ++ outcomes.map .outcome) = plannedCount signs := by
  simp [plannedCount, List.filterMap_append, List.filterMap_map]

@[simp] theorem plannedCount_append_planned (signs : List PartSign) (count : ℕ) :
    plannedCount (signs ++ [.planned count]) = count := by
  simp [plannedCount, List.filterMap_append]

/-- A command that has failed before it sent anything. -/
theorem reportedIff_of_onlyPlans {signs : List PartSign} {e : Failure} (h : OnlyPlans signs) :
    ReportedIff signs (.error e) := by
  unfold ReportedIff
  rw [h]
  exact iff_of_true reportsWhole_nothing allAgree_nil

/-- Before its first part a command plans as many parts as it has bodies. -/
def PlansParts (signs : List PartSign) (r : Except Failure (List Json)) : Prop :=
  OnlyPlans signs.reverse ∧
    ∀ bodies, r = .ok bodies → ∃ earlier, signs = .planned bodies.length :: earlier

theorem length_mexcLeverageBodies (spec : InstrumentSpec) (positions : List Position)
    (i : InstrumentId) (leverage : Json) (marginMode : Option MarginMode) :
    (mexcLeverageBodies spec positions i leverage marginMode).length =
      mexcPartCount positions i := by
  unfold mexcLeverageBodies mexcPartCount
  simp only [List.countP_eq_length_filter]
  split <;> simp_all

variable (context command) in
theorem reports_mexcChangeLeverageBodies (leverage : String) (marginMode : Option MarginMode) :
    (mexcChangeLeverageBodies context command.instrumentId leverage marginMode).run.Reports
      command.partSign PlansParts := by
  refine Reports.quiet_attempt (quiet_commandSpec _) (fun spec => ?_) fun e => ⟨rfl, by simp⟩
  refine Reports.quiet_attempt (quiet_ofExcept _) (fun leverage => ?_) fun e => ⟨rfl, by simp⟩
  refine reports_perform fun state => reports_ret ⟨rfl, fun bodies hbodies => ?_⟩
  rw [← Except.ok.inj hbodies, length_mexcLeverageBodies]
  exact ⟨[], rfl⟩

theorem reports_mexcFetchCurrentLeverage :
    (mexcFetchCurrentLeverage context command.instrumentId).run.Reports command.partSign
      fun signs _ => OnlyPlans signs.reverse := by
  refine reports_perform fun state => ?_
  split
  · exact reports_ret rfl
  · refine Reports.quiet_attempt (quiet_commandSpec _) (fun spec => ?_) fun e => rfl
    refine Reports.quiet_attempt (quiet_restText rfl) (fun reply => ?_) fun e => rfl
    refine (quiet_ofExcept _).mono fun signs r hr => ?_
    rw [hr]
    rfl

/-- The parts are sent, and the merged receipt is passed on. -/
theorem reports_changeLeverage (hvenue : context.venue = .mexc) (command : LeverageCommand)
    (name : String) {x : CommandE (List Json)} (hx : x.run.Reports command.partSign PlansParts) :
    (x >>= fun bodies => mexcChangeLeverage context command.operation command.requestId name bodies
        >>= finishReceipt).run.Reports command.partSign
      fun signs r => ReportedIff signs.reverse r := by
  refine Reports.attempt hx (fun signs bodies hplans => ?_) fun signs e hplans =>
    reportedIff_of_onlyPlans hplans.1
  have hmerged : (mexcChangeLeverage context command.operation command.requestId name
      bodies).run.Reports command.partSign fun signs' r =>
        ReportedIff (signs' ++ signs).reverse r := by
    refine Reports.map_ok (reports_parts hvenue fun _ => by simp) fun signs' r hr => ?_
    obtain ⟨outcomes, hsigns, hsent⟩ := hr
    obtain ⟨earlier, hplanned⟩ := hplans.2 bodies rfl
    have hcount : plannedCount signs.reverse = bodies.length := by simp [hplanned]
    unfold ReportedIff
    rw [List.reverse_append, hsigns, plannedCount_append_map, outcomesOf_append, outcomesOf_map,
      hplans.1, hcount, List.nil_append]
    exact reportsWhole_iff hsent
  refine Reports.attempt hmerged (fun signs' receipt hr => ?_) fun signs' e he => he
  refine (reports_finishReceipt (by rintro q r (_ | _ | _ | _) <;> rfl)).mono fun signs'' r hr' => ?_
  rw [hr'.1, hr'.2]
  exact hr

variable (context command) in
/-- The leverage is looked up before the parts are planned. -/
theorem reports_marginModeBodies (marginMode : Option MarginMode) :
    (mexcFetchCurrentLeverage context command.instrumentId >>= fun leverage =>
        mexcChangeLeverageBodies context command.instrumentId leverage marginMode).run.Reports
      command.partSign PlansParts := by
  refine Reports.attempt reports_mexcFetchCurrentLeverage (fun signs leverage hplans => ?_)
    fun signs e hplans => ⟨hplans, by simp⟩
  refine (reports_mexcChangeLeverageBodies context command leverage marginMode).mono
    fun signs' r hr => ⟨?_, fun bodies hbodies => ?_⟩
  · unfold OnlyPlans at *
    rw [List.reverse_append, outcomesOf_append, hplans, hr.1]
    rfl
  · obtain ⟨earlier, hsigns⟩ := hr.2 bodies hbodies
    exact ⟨earlier ++ signs, by simp [hsigns]⟩

/-- What is shown of a command shows whether its result reports the whole. -/
theorem reports_program (hvenue : context.venue = .mexc) :
    (command.program context).run.Reports command.partSign
      fun signs r => ReportedIff signs.reverse r := by
  cases command with
  | setLeverage request =>
    have hparts := reports_changeLeverage hvenue (.setLeverage request) "mexc.set_leverage"
      (reports_mexcChangeLeverageBodies context _ request.leverage.value.normalize.display none)
    refine Reports.quiet_attempt (quiet_commandSpec _) (fun spec => ?_) fun e =>
      reportedIff_of_onlyPlans rfl
    unfold sendSetLeverage
    rw [hvenue]
    simp only [LawfulMonad.bind_assoc]
    exact hparts
  | setMarginMode request =>
    have hbybit : context.venue ≠ .bybit := by simp [hvenue]
    have hparts := reports_changeLeverage hvenue (.setMarginMode request) "mexc.set_margin_mode"
      (reports_marginModeBodies context _ (some request.marginMode))
    show (setMarginMode context request).run.Reports _ _
    unfold setMarginMode sendSetMarginMode
    simp only [if_neg hbybit]
    rw [hvenue]
    simp only [LawfulMonad.bind_assoc] at hparts ⊢
    exact hparts

/-- **Commands of several parts, exactly.**  In a run of such a command, wherever it ends, the
result says what became of the whole exactly if the parts that have been sent agree. -/
theorem parts_reported_iff (hvenue : context.venue = .mexc) (command : LeverageCommand)
    {τ : List (Event CommandCall CommandReply)} {result : Except Failure CommandReceipt}
    (hrun : (command.program context).run.Ends [] τ result) :
    ReportsWhole (plannedCount (command.partSigns τ)) (outcomesOf (command.partSigns τ)) result ↔
      AllAgree (outcomesOf (command.partSigns τ)) :=
  (reports_program hvenue).of_ends hrun

end Runs

/-! ### Two parts -/

/-- A perpetual on MEXC. -/
def mexcPerpetual : InstrumentSpec := .active .mexc "BTC/USDT:USDT" "BTC_USDT" 1 0

/-- An environment that answers the requests one after the other, and has nothing cached. -/
def scriptedReply : (q : CommandCall) → List (Except MarketError Payload) →
    CommandReply q × List (Except MarketError Payload)
  | .rest _, answers =>
    ((answers.headD (.error { kind := .timeout, message := "no reply" }), .new [mexcPerpetual]),
      answers.tail)
  | q, answers =>
    ((staticReply mexcPerpetual (.error { kind := .timeout, message := "no reply" }) q ()).1,
      answers)

/-- MEXC accepts a part. -/
def acceptedPart : Except MarketError Payload :=
  .ok (.json (.object [("success", .bool true), ("code", .integer 0)]))

/-- MEXC rejects a part. -/
def rejectedPart : Except MarketError Payload :=
  .ok (.json (.object [("success", .bool false), ("code", .integer 2019)]))

/-- A part is not answered. -/
def lostPart : Except MarketError Payload := .error { kind := .timeout, message := "timed out" }

/-- Change the leverage of an instrument without a position to ten. -/
def tenfold : LeverageCommand := .setLeverage {
  requestId := none
  instrumentId := ⟨"BTC/USDT:USDT"⟩
  leverage := ⟨.literal 10 0⟩ }

/-- The run in which the parts are answered so. -/
def tenfoldTrace (answers : List (Except MarketError Payload)) :
    List (Event CommandCall CommandReply) :=
  execTrace scriptedReply (tenfold.program (restContext .mexc)).run answers []

/-- How that run ends. -/
def tenfoldResult (answers : List (Except MarketError Payload)) : Except Failure CommandReceipt :=
  (exec scriptedReply (tenfold.program (restContext .mexc)).run answers).1

theorem ends_tenfoldTrace (answers : List (Except MarketError Payload)) :
    (tenfold.program (restContext .mexc)).run.Ends [] (tenfoldTrace answers)
      (tenfoldResult answers) := ends_exec _

/-- Both parts are accepted. -/
theorem parts_reported_iff_accepted :
    outcomesOf (tenfold.partSigns (tenfoldTrace [acceptedPart, acceptedPart])) =
        [.accepted, .accepted] ∧
      ReportsWhole 2 [.accepted, .accepted] (tenfoldResult [acceptedPart, acceptedPart]) := by
  have houtcomes : outcomesOf (tenfold.partSigns (tenfoldTrace [acceptedPart, acceptedPart])) =
      [.accepted, .accepted] := by decide +kernel
  have hcount : plannedCount (tenfold.partSigns (tenfoldTrace [acceptedPart, acceptedPart])) = 2 := by
    decide +kernel
  have hwhole := parts_reported_iff rfl tenfold (ends_tenfoldTrace [acceptedPart, acceptedPart])
  rw [houtcomes, hcount] at hwhole
  exact ⟨houtcomes, hwhole.2 (by simp [AllAgree])⟩

/-- The first part may have been executed and the second is rejected: the command is rejected. -/
theorem rejected_part_hides_uncertain_one :
    ¬ ∀ (context : CommandContext) (command : LeverageCommand)
      (τ : List (Event CommandCall CommandReply)) (result : Except Failure CommandReceipt),
      context.venue = .mexc → (command.program context).run.Ends [] τ result →
        ReportsWhole (plannedCount (command.partSigns τ)) (outcomesOf (command.partSigns τ))
          result := by
  intro h
  have hwhole := h _ tenfold _ _ rfl (ends_tenfoldTrace [lostPart, rejectedPart])
  have houtcomes : outcomesOf (tenfold.partSigns (tenfoldTrace [lostPart, rejectedPart])) =
      [.uncertain, .rejected] := by decide +kernel
  have hstatus : (tenfoldResult [lostPart, rejectedPart]).toOption.map (·.status) =
      some .rejected := by decide +kernel
  rw [houtcomes] at hwhole
  obtain ⟨receipt, hreceipt, hunknown⟩ := hwhole.uncertain (by simp)
  rw [hreceipt] at hstatus
  simp [Except.toOption, hunknown] at hstatus

end BatMarkets
