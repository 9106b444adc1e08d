import BatMarkets.Commands.Manage
import BatMarkets.Interleaving.Observe

/-!
# What the outcome of a request proves

A request that changes something at the venue has one of the outcomes of `WriteOutcome`.  The
outcomes of a command, the lookups of an instrument that fail and the recoveries it schedules are
the `Sign`s of a run.

## Main results

* `judged_sendRest`, `judged_sendCommand`, `judged_sendRestOrFail` : the ways to send a request end
  with the status that its outcome calls for.
* `Prepares.judged` : what a command does before it sends does not matter to its verdict.
* `delivers_applyCommandReceipt` : a receipt of unknown execution starts a recovery.
-/

namespace BatMarkets

open CommandM Interleaving Prog Wire

/-- What became of a request that changes something at the venue. -/
inductive WriteOutcome
  /-- It has not been written. -/
  | notWritten
  /-- It was refused, before it was written or by the venue, and not for an error of the server. -/
  | refused
  /-- There is no reply, or an error of the server. -/
  | uncertain
  /-- The adapter cannot decode the reply. -/
  | undecodable
  | rejected
  | accepted
  deriving DecidableEq

/-- What an observer notes of a run. -/
inductive Sign
  | write (outcome : WriteOutcome)
  /-- A websocket reply reports an error of the server, and the adapter, which does not look at the
  status of a reply, takes it for a receipt with this status or cannot decode it. -/
  | serverError (read : Option CommandStatus)
  /-- The adapter does not know an instrument. -/
  | unknownInstrument
  /-- A reconcile has been started for the acknowledged command. -/
  | recovery (ack : CommandAck)
  deriving DecidableEq

/-- The outcome of a request that was replied to, by the adapter. -/
def replyOutcome (venue : Venue) (operation : CommandOperation) (requestId : Option RequestId)
    (catalog : InstrumentCatalog) (payload : Payload) : WriteOutcome :=
  match classifyCommand venue catalog operation (some payload) requestId with
  | .error _ => .undecodable
  | .ok receipt => if receipt.status = .rejected then .rejected else .accepted

/-- A websocket reply of Binance has a status; from 500 to 599 it is an error of the server. -/
def reportsServerError (venue : Venue) (payload : Payload) : Bool :=
  venue = .binance && (payload.value?.bind (·.get? "status")).any fun status =>
    status.asInt64.any fun code => 500 ≤ code && code < 600

/-- The status that the adapter gives a request that was replied to. -/
def readStatus (venue : Venue) (operation : CommandOperation) (requestId : Option RequestId)
    (catalog : InstrumentCatalog) (payload : Payload) : Option CommandStatus :=
  (classifyCommand venue catalog operation (some payload) requestId).toOption.map (·.status)

/-- The sign that a call and its reply leave. -/
def signOf (venue : Venue) (operation : CommandOperation) (requestId : Option RequestId) :
    Event CommandCall CommandReply → Option Sign
  | ⟨.rest request, reply⟩ =>
    if request.method = .get then none
    else some (.write (match reply with
      | (.ok payload, catalog) => replyOutcome venue operation requestId catalog payload
      | (.error e, _) => if isUncertainCommandError e then .uncertain else .refused))
  | ⟨.ws _, reply⟩ => some (match reply with
      | (.ok payload, catalog) =>
        if reportsServerError venue payload then
          .serverError (readStatus venue operation requestId catalog payload)
        else .write (replyOutcome venue operation requestId catalog payload)
      | (.error (.uncertain _), _) => .write .uncertain
      | (.error (.unavailable _), _) => .write .notWritten)
  | ⟨.runtime (.resolveInstrument _), none⟩ => some .unknownInstrument
  | ⟨.spawnReconcile ack, _⟩ => some (.recovery ack)
  | _ => none

/-! ### Verdicts -/

/-- The status a command ends with, if it ends with one, is the one its signs call for.  A command
that is not `tolerant` fails on an outcome that is not certain. -/
structure Judges (tolerant : Bool) (os : List Sign) (status : Option CommandStatus) : Prop where
  undecodable : .write .undecodable ∈ os → status = none
  refused : .write .refused ∈ os ∨ .unknownInstrument ∈ os → status = none
  intolerant : tolerant = false → .write .uncertain ∈ os → status = none
  failed : status = none → .write .undecodable ∈ os ∨
    (.write .refused ∈ os ∨ .unknownInstrument ∈ os) ∨
    (tolerant = false ∧ .write .uncertain ∈ os) ∨ (∃ read, .serverError read ∈ os) ∨
    ∀ o, .write o ∈ os → o = .notWritten
  serverError : ∀ read, .serverError read ∈ os → status ≠ some .unknownExecution
  uncertain : .write .uncertain ∈ os → ∀ s, status = some s →
    (s = .unknownExecution ↔ .write .rejected ∉ os)

/-- Recoveries do not matter to a verdict. -/
theorem Judges.congr {tolerant : Bool} {os os' : List Sign} {status : Option CommandStatus}
    (h : Judges tolerant os status) (hwrite : ∀ o, .write o ∈ os' ↔ .write o ∈ os)
    (hserver : ∀ read, .serverError read ∈ os' ↔ .serverError read ∈ os)
    (hunknown : .unknownInstrument ∈ os' ↔ .unknownInstrument ∈ os) :
    Judges tolerant os' status := by
  obtain ⟨h1, h2, h3, h4, h5, h6⟩ := h
  constructor <;> simpa only [hwrite, hserver, hunknown]

/-- A command that writes nothing may fail. -/
theorem judges_of_no_write {tolerant : Bool} {os : List Sign} (h : ∀ o, .write o ∉ os) :
    Judges tolerant os none where
  undecodable := fun _ => rfl
  refused := fun _ => rfl
  intolerant := fun _ _ => rfl
  failed := fun _ => .inr (.inr (.inr (.inr fun o ho => absurd ho (h o))))
  serverError := fun _ _ => nofun
  uncertain := fun ho => absurd ho (h _)

/-- The status that one outcome calls for. -/
def WriteOutcome.verdict (tolerant : Bool) : WriteOutcome → Option CommandStatus
  | .notWritten | .refused | .undecodable => none
  | .uncertain => if tolerant then some .unknownExecution else none
  | .rejected => some .rejected
  | .accepted => some .accepted

theorem judges_single {tolerant : Bool} {o : WriteOutcome} {os : List Sign}
    (hos : os = [.write o] ∨ os = [.write o, .write .notWritten]) :
    Judges tolerant os (o.verdict tolerant) := by
  have hwrite : ∀ o', .write o' ∈ os ↔
      o' = o ∨ os = [.write o, .write .notWritten] ∧ o' = .notWritten := by
    intro o'
    rcases hos with rfl | rfl <;> simp
  have hserver : ∀ read, .serverError read ∉ os := by
    intro read
    rcases hos with rfl | rfl <;> simp
  have hunknown : .unknownInstrument ∉ os := by
    rcases hos with rfl | rfl <;> simp
  cases o <;> cases tolerant <;> constructor <;>
    simp [hwrite, hserver, hunknown, WriteOutcome.verdict]

/-- The verdict on a reply that reports an error of the server is what the adapter reads. -/
theorem judges_serverError {tolerant : Bool} {status : Option CommandStatus}
    (h : status ≠ some .unknownExecution) :
    Judges tolerant [.serverError status] status := by
  constructor <;> simp [h]

/-! ### Steps that write nothing -/

section Steps

variable {Q : Type} {R : Q → Type} {ε α β : Type} {obs : Event Q R → Option Sign} {tolerant : Bool}

/-- The step writes nothing, and shows nothing unless it fails. -/
def Prepares (obs : Event Q R → Option Sign) (x : ExceptT ε (Prog Q R) α) : Prop :=
  x.run.Reports obs fun os r => (∀ o, .write o ∉ os) ∧ ∀ a, r = .ok a → os = []

/-- The status of the value, if there is one. -/
def statusOf (status : α → CommandStatus) (r : Except ε α) : Option CommandStatus :=
  r.toOption.map status

/-- The program, whose values have a status, ends as its signs call for. -/
def Judged (obs : Event Q R → Option Sign) (tolerant : Bool) (status : α → CommandStatus)
    (x : ExceptT ε (Prog Q R) α) : Prop :=
  x.run.Reports obs fun os r => Judges tolerant os (statusOf status r)

variable {status : β → CommandStatus}

theorem Prepares.of_quiet {x : ExceptT ε (Prog Q R) α} (h : x.run.Quiet obs) : Prepares obs x :=
  h.mono fun os r hos => ⟨fun o ho => by simp [hos] at ho, fun _ _ => hos⟩

theorem Prepares.judged {x : ExceptT ε (Prog Q R) α} {f : α → ExceptT ε (Prog Q R) β}
    (hx : Prepares obs x) (hf : ∀ a, Judged obs tolerant status (f a)) :
    Judged obs tolerant status (x >>= f) := by
  unfold Judged
  refine Reports.attempt hx (fun os a ha => ?_) fun os e he => ?_
  · rw [ha.2 a rfl]
    simp only [List.append_nil]
    exact hf a
  · exact judges_of_no_write he.1

theorem Prepares.attempt {x : ExceptT ε (Prog Q R) α} {f : α → ExceptT ε (Prog Q R) β}
    (hx : Prepares obs x) (hf : ∀ a, Prepares obs (f a)) : Prepares obs (x >>= f) := by
  unfold Prepares
  refine Reports.attempt hx (fun os a ha => ?_) fun os e he => ?_
  · rw [ha.2 a rfl]
    simp only [List.append_nil]
    exact hf a
  · exact ⟨he.1, fun b hb => by cases hb⟩

theorem prepares_pure (a : α) : Prepares obs (pure a : ExceptT ε (Prog Q R) α) :=
  .of_quiet (quiet_ret _)

theorem prepares_throw (e : ε) : Prepares obs (throw e : ExceptT ε (Prog Q R) α) :=
  .of_quiet (quiet_ret _)

theorem prepares_perform {q : Q} (hq : ∀ r, obs ⟨q, r⟩ = none) :
    Prepares obs (ExceptT.lift (.perform q) : ExceptT ε (Prog Q R) (R q)) :=
  .of_quiet (quiet_perform hq)

theorem judged_throw (e : ε) : Judged obs tolerant status (throw e : ExceptT ε (Prog Q R) β) :=
  reports_ret (judges_of_no_write fun o ho => by cases ho)

/-- A step whose value is only passed on. -/
theorem Judged.map_ok {status' : α → CommandStatus} {x : ExceptT ε (Prog Q R) α} {g : α → β}
    (h : Judged obs tolerant status' x) (hg : ∀ a, status (g a) = status' a) :
    Judged obs tolerant status (x >>= fun a => pure (g a)) := by
  refine Reports.map_ok h fun os r hr => ?_
  cases r with
  | ok a => simpa only [statusOf, Except.map, Except.toOption, Option.map, hg] using hr
  | error e => exact hr

end Steps

/-! ### Tasks of the runtime -/

section Runtime

/-- The sign that a call of a runtime task leaves. -/
def runtimeSign : Event RuntimeCall RuntimeReply → Option Sign
  | ⟨.resolveInstrument _, none⟩ => some .unknownInstrument
  | _ => none

variable {context : CommandContext} {venue : Venue} {operation : CommandOperation}
  {requestId : Option RequestId} {α : Type}

theorem signOf_runtime (q : RuntimeCall) (r : RuntimeReply q) :
    signOf venue operation requestId ⟨.runtime q, r⟩ = runtimeSign ⟨q, r⟩ := by
  cases q with
  | resolveInstrument i => cases r <;> rfl
  | _ => rfl

theorem prepares_liftRuntime {task : RuntimeE α} (h : Prepares runtimeSign task) :
    Prepares (signOf venue operation requestId) (liftRuntime task) := by
  have hrun : (task.run.mapCalls CommandCall.runtime fun _ r => r).Reports
      (signOf venue operation requestId) _ := Reports.mapCalls signOf_runtime h
  refine hrun.bind fun os r hr => reports_ret ⟨hr.1, fun a ha => ?_⟩
  cases r with
  | ok b => exact hr.2 b rfl
  | error e => cases ha

theorem prepares_requireSpec (instrumentId : InstrumentId) :
    Prepares runtimeSign (requireSpec context.toLiveContext instrumentId) := by
  refine reports_call fun reply => ?_
  cases reply with
  | none => exact reports_ret ⟨by simp [runtimeSign], fun a ha => by cases ha⟩
  | some spec => exact reports_ret ⟨by simp [runtimeSign], fun _ _ => rfl⟩

theorem prepares_signedGet {decoder : Decoder} {path : String} {query : List (String × String)}
    {name : String} : Prepares runtimeSign (RuntimeM.signedGet decoder path query name) :=
  .of_quiet (quiet_call (fun _ => rfl) fun _ => quiet_ret _)

theorem prepares_runtimeCall {q : RuntimeCall} (hq : ∀ r, runtimeSign ⟨q, r⟩ = none) :
    Prepares runtimeSign (liftM (Prog.perform q) : RuntimeE (RuntimeReply q)) :=
  .of_quiet (quiet_call hq fun _ => quiet_ret _)

theorem prepares_getOrder (request : GetOrderRequest) :
    Prepares runtimeSign (getOrder context.toLiveContext request) := by
  unfold getOrder
  refine (prepares_requireSpec _).attempt fun spec => ?_
  cases orderLookup context.toLiveContext spec request with
  | error e => exact prepares_throw e
  | ok lookup =>
    refine prepares_signedGet.attempt fun order => ?_
    refine (prepares_runtimeCall fun _ => rfl).attempt fun _ => ?_
    exact (prepares_runtimeCall fun _ => rfl).attempt fun _ => prepares_pure order

theorem prepares_refreshPositions :
    Prepares runtimeSign (refreshPositions context.toLiveContext) := by
  unfold refreshPositions
  cases hv : context.venue <;> dsimp only
  all_goals
    refine prepares_signedGet.attempt fun _ => ?_
    exact (prepares_runtimeCall fun _ => rfl).attempt fun _ => prepares_pure _

theorem prepares_commandSpec (instrumentId : InstrumentId) :
    Prepares (signOf venue operation requestId) (commandSpec context instrumentId) :=
  prepares_liftRuntime (prepares_requireSpec instrumentId)

theorem prepares_ofExcept (x : Except MarketError α) :
    Prepares (signOf venue operation requestId) (ofExcept x) := by
  cases x with
  | ok a => exact prepares_pure a
  | error e => exact prepares_throw _

theorem prepares_readState : Prepares (signOf venue operation requestId) readState :=
  prepares_perform fun _ => rfl

end Runtime

/-! ### Sending -/

section Send

variable {context : CommandContext} {operation : CommandOperation} {requestId : Option RequestId}
  {obs : Event CommandCall CommandReply → Option Sign} {request : RestCommand} {frame : WsCommand}
  {unsupported : String}

theorem replyOutcome_ne_notWritten {venue : Venue} {catalog : InstrumentCatalog}
    {payload : Payload} : replyOutcome venue operation requestId catalog payload ≠ .notWritten := by
  unfold replyOutcome
  split
  · nofun
  · split <;> nofun

theorem readStatus_eq_verdict {venue : Venue} {tolerant : Bool} {catalog : InstrumentCatalog}
    {payload : Payload} : readStatus venue operation requestId catalog payload =
      (replyOutcome venue operation requestId catalog payload).verdict tolerant := by
  unfold readStatus replyOutcome
  cases hr : classifyCommand venue catalog operation (some payload) requestId with
  | error e => rfl
  | ok receipt =>
    rcases decided_classifyCommand hr with hs | hs <;>
      simp [Except.toOption, WriteOutcome.verdict, hs]

/-- No reply is read as a receipt of unknown execution. -/
theorem readStatus_ne_unknownExecution {venue : Venue} {catalog : InstrumentCatalog}
    {payload : Payload} :
    readStatus venue operation requestId catalog payload ≠ some .unknownExecution := by
  unfold readStatus
  cases hr : classifyCommand venue catalog operation (some payload) requestId with
  | error e => nofun
  | ok receipt =>
    rcases decided_classifyCommand hr with hs | hs <;> simp [Except.toOption, hs]

/-- The verdict on a reply is what the adapter says. -/
theorem reports_classify_some (tolerant : Bool) {catalog : InstrumentCatalog} {payload : Payload} :
    (classify context operation catalog (some payload) requestId).run.Reports obs fun os r =>
      os = [] ∧ statusOf (·.status) r =
        (replyOutcome context.venue operation requestId catalog payload).verdict tolerant := by
  rw [← readStatus_eq_verdict]
  unfold classify readStatus
  cases classifyCommand context.venue catalog operation (some payload) requestId <;>
    exact reports_ret ⟨rfl, rfl⟩

theorem reports_classify_none {catalog : InstrumentCatalog} :
    (classify context operation catalog none requestId).run.Reports obs fun os r =>
      os = [] ∧ statusOf (·.status) r = some .unknownExecution :=
  reports_ret ⟨rfl, rfl⟩

/-- One request has been made, and the value is the verdict on its outcome. -/
def SingleVerdict (tolerant : Bool) (os : List Sign) (r : Except Failure CommandReceipt) : Prop :=
  ∃ o : WriteOutcome, o ≠ .notWritten ∧ os = [.write o] ∧
    statusOf (·.status) r = o.verdict tolerant

theorem SingleVerdict.judges {tolerant : Bool} {os : List Sign} {r : Except Failure CommandReceipt}
    (h : SingleVerdict tolerant os r) : Judges tolerant os (statusOf (·.status) r) := by
  obtain ⟨o, -, rfl, hr⟩ := h
  rw [hr]
  exact judges_single (.inl rfl)

theorem reports_sendRest (hmethod : request.method ≠ .get) :
    (sendRest context operation requestId request).run.Reports
      (signOf context.venue operation requestId) (SingleVerdict true) := by
  refine reports_perform fun (reply, catalog) => ?_
  cases reply with
  | ok payload =>
    refine (reports_classify_some true).mono fun os r hr => ?_
    exact ⟨_, replyOutcome_ne_notWritten, by simp [hr.1, signOf, hmethod], hr.2⟩
  | error e =>
    dsimp only
    by_cases hu : isUncertainCommandError e = true
    · rw [if_pos hu]
      refine reports_classify_none.mono fun os r hr => ?_
      exact ⟨.uncertain, nofun, by simp [hr.1, signOf, hmethod, hu], hr.2⟩
    · rw [if_neg hu]
      exact reports_ret ⟨.refused, nofun, by simp [signOf, hmethod, hu], rfl⟩

theorem reports_sendRestOrFail (hmethod : request.method ≠ .get) :
    (sendRestOrFail context operation requestId request).run.Reports
      (signOf context.venue operation requestId) (SingleVerdict false) := by
  refine reports_perform fun (reply, catalog) => ?_
  cases reply with
  | ok payload =>
    refine (reports_classify_some false).mono fun os r hr => ?_
    exact ⟨_, replyOutcome_ne_notWritten, by simp [hr.1, signOf, hmethod], hr.2⟩
  | error e =>
    by_cases hu : isUncertainCommandError e = true
    · exact reports_ret ⟨.uncertain, nofun, by simp [signOf, hmethod, hu], rfl⟩
    · exact reports_ret ⟨.refused, nofun, by simp [signOf, hmethod, hu], rfl⟩

theorem judged_sendRest (hmethod : request.method ≠ .get) :
    Judged (signOf context.venue operation requestId) true (·.status)
      (sendRest context operation requestId request) :=
  (reports_sendRest hmethod).mono fun _ _ h => h.judges

theorem judged_sendRestOrFail (hmethod : request.method ≠ .get) :
    Judged (signOf context.venue operation requestId) false (·.status)
      (sendRestOrFail context operation requestId request) :=
  (reports_sendRestOrFail hmethod).mono fun _ _ h => h.judges

/-- The way of a request does not matter to its verdict. -/
theorem judged_withTransport {tolerant : Bool} {x : CommandE CommandReceipt}
    {transport : CommandTransport} (h : Judged obs tolerant (·.status) x) :
    Judged obs tolerant (·.1.status) (do return (← x, transport)) :=
  h.map_ok fun _ => rfl

theorem judged_sendWebSocket {strict : Bool} (hmethod : request.method ≠ .get) :
    Judged (signOf context.venue operation requestId) true (·.1.status)
      (sendWebSocket context strict operation requestId frame request) := by
  refine reports_perform fun (reply, catalog) => ?_
  cases reply with
  | ok payload =>
    refine Reports.map_ok (reports_classify_some true) fun os r hr => ?_
    obtain ⟨rfl, hr⟩ := hr
    have hstatus : statusOf (·.1.status) (r.map fun receipt => (receipt, CommandTransport.webSocket)) =
        statusOf (·.status) r := by cases r <;> rfl
    rw [hstatus, hr]
    by_cases hserver : reportsServerError context.venue payload = true
    · have hsign : signOf context.venue operation requestId ⟨.ws frame, (.ok payload, catalog)⟩ =
          some (.serverError (readStatus context.venue operation requestId catalog payload)) := by
        simp [signOf, hserver]
      rw [hsign, ← readStatus_eq_verdict]
      exact judges_serverError readStatus_ne_unknownExecution
    · have hsign : signOf context.venue operation requestId ⟨.ws frame, (.ok payload, catalog)⟩ =
          some (.write (replyOutcome context.venue operation requestId catalog payload)) := by
        simp [signOf, hserver]
      rw [hsign]
      exact judges_single (.inl rfl)
  | error e =>
    cases e with
    | uncertain e => exact reports_ret (judges_single (o := .uncertain) (.inl rfl))
    | unavailable e =>
      dsimp only
      by_cases hs : (strict && context.websocketOnly) = true
      · rw [if_pos hs]
        exact reports_ret (judges_single (o := .notWritten) (.inl rfl))
      · rw [if_neg hs]
        refine Reports.map_ok (reports_sendRest hmethod) fun os r hr => ?_
        obtain ⟨o, -, rfl, hr⟩ := hr
        have hstatus : statusOf (·.1.status) (r.map fun receipt => (receipt, CommandTransport.rest)) =
            statusOf (·.status) r := by cases r <;> rfl
        rw [hstatus, hr]
        exact judges_single (.inr rfl)

theorem judged_sendRestOnly (hmethod : request.method ≠ .get) :
    Judged (signOf context.venue operation requestId) true (·.1.status)
      (sendRestOnly context unsupported operation requestId request) := by
  unfold sendRestOnly
  by_cases h : context.websocketOnly = true
  · simp only [h, if_true]
    exact (prepares_throw _).judged fun _ => judged_withTransport (judged_sendRest hmethod)
  · simp only [h]
    exact judged_withTransport (judged_sendRest hmethod)

theorem judged_sendCommand (hmethod : request.method ≠ .get) :
    Judged (signOf context.venue operation requestId) true (·.1.status)
      (sendCommand context unsupported operation requestId frame request) := by
  unfold sendCommand
  split
  · exact judged_sendWebSocket hmethod
  · exact judged_sendRestOnly hmethod

/-! ### What is done with a receipt -/

/-- The program ends with a value that has the receipt, and starts a recovery if the receipt says
that the execution is unknown. -/
def Delivers {α : Type} (obs : Event CommandCall CommandReply → Option Sign)
    (receiptOf : α → CommandReceipt) (receipt : CommandReceipt) (x : CommandE α) : Prop :=
  x.run.Reports obs fun os r => ∃ a, r = .ok a ∧ receiptOf a = receipt ∧
    ∃ ack : CommandAck, ack.receipt = receipt ∧
      os = if receipt.status = .unknownExecution then [.recovery ack] else []

variable {venue : Venue} {receipt : CommandReceipt} {transport : CommandTransport}

theorem delivers_applyCommandReceipt :
    Delivers (signOf venue operation requestId) (·.receipt) receipt
      (applyCommandReceipt receipt transport) := by
  refine reports_perform fun acknowledgedAt => ?_
  refine reports_perform fun _ => reports_perform fun _ => reports_perform fun _ => ?_
  let ack : CommandAck := ⟨receipt, transport, acknowledgedAt⟩
  by_cases hs : receipt.status = .unknownExecution
  · simp only [hs, if_true]
    refine reports_call fun _ => reports_call fun _ => reports_ret ?_
    exact ⟨ack, rfl, rfl, ack, rfl, by simp [signOf, ack]⟩
  · simp only [hs, if_false]
    exact reports_ret ⟨ack, rfl, rfl, ack, rfl, by simp [signOf]⟩

/-- The calls by which a receipt is passed on. -/
inductive CommandCall.Delivers : CommandCall → Prop
  | time : Delivers (.runtime .timestampNowMs)
  | write (ops : List EngineOp) : Delivers (.runtime (.write ops))
  | emit (event : CommandLaneEvent) : Delivers (.emitCommandEvent event)
  | recover (ack : CommandAck) : Delivers (.spawnReconcile ack)

/-- A receipt is passed on as it is, whatever is noted of other calls. -/
theorem reports_finishReceipt {O : Type} {obs : Event CommandCall CommandReply → Option O}
    {receipt : CommandReceipt} (hobs : ∀ q r, q.Delivers → obs ⟨q, r⟩ = none) :
    (finishReceipt receipt).run.Reports obs fun os r => os = [] ∧ r = .ok receipt := by
  have hack : (applyCommandReceipt receipt .rest).run.Reports obs
      fun os r => os = [] ∧ ∃ ack, r = .ok ack := by
    refine reports_perform fun acknowledgedAt => ?_
    refine reports_perform fun _ => reports_perform fun _ => reports_perform fun _ => ?_
    rw [hobs _ _ (.emit _), hobs _ _ (.emit _), hobs _ _ (.write _), hobs _ _ .time]
    by_cases hs : receipt.status = .unknownExecution
    · simp only [hs, if_true]
      refine reports_perform fun _ => reports_perform fun _ => reports_ret ?_
      rw [hobs _ _ (.recover _), hobs _ _ (.emit _)]
      exact ⟨rfl, _, rfl⟩
    · simp only [hs, if_false]
      exact reports_ret ⟨rfl, _, rfl⟩
  refine Reports.map_ok hack fun os r hr => ?_
  obtain ⟨rfl, ack, rfl⟩ := hr
  exact ⟨rfl, rfl⟩

end Send

end BatMarkets
