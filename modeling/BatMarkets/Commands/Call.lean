import BatMarkets.Commands.Classify
import BatMarkets.Interleaving.Join
import BatMarkets.Runtime.Refresh

/-!
# The calls of a command

A command (`runtime.rs`) is a program like the other tasks of the runtime, which in addition sends
orders to the venue: over REST, or over a websocket session (`transport.rs`).  A reply comes with
the instruments the adapter knows when it arrives, since the adapter classifies it by them.

`sendRest` and `sendWebSocket` are the ways in which the commands send a request and take the
outcome; what an outcome shows is the subject of `BatMarkets.Commands.Outcome`.

## Main results

* `always_liftRuntime` : a task of the runtime that a command runs writes nothing at the venue.
* `yields_sendRest`, `yields_sendCommand` : what a command sends is what it is told to send.
-/

namespace BatMarkets

open Interleaving Wire

/-- The method of a REST request. -/
inductive HttpMethod
  | get
  | post
  | put
  | delete
  deriving DecidableEq

/-- A signed REST request.  Binance takes the fields of the body as parameters of the query, with
the JSON text of a value that is not a string. -/
structure RestCommand where
  method : HttpMethod
  path : String
  body : Json
  operation : String

/-- A request over the websocket session, without its envelope. -/
structure WsCommand where
  method : String
  params : Json
  operation : String

/-- Why a websocket request has no reply. -/
inductive CommandWsRequestError
  /-- The request has not been written. -/
  | unavailable (error : MarketError)
  /-- The request may have been written. -/
  | uncertain (error : MarketError)

/-- The calls of a command. -/
inductive CommandCall
  /-- A call that the other tasks of the runtime make too. -/
  | runtime (q : RuntimeCall)
  /-- Read the engine state. -/
  | readState
  | rest (request : RestCommand)
  | ws (request : WsCommand)
  | emitCommandEvent (event : CommandLaneEvent)
  /-- Start a reconcile that completes the recovery of the acknowledged command. -/
  | spawnReconcile (ack : CommandAck)
  | invalidateBybitAccountContext
  /-- The order in which commands that run side by side get their replies. -/
  | schedule

/-- What comes back from a call.  A reply of the venue comes with the instruments that the adapter
knows when it arrives. -/
abbrev CommandReply : CommandCall → Type
  | .runtime q => RuntimeReply q
  | .readState => EngineState
  | .rest _ => Except MarketError Payload × InstrumentCatalog
  | .ws _ => Except CommandWsRequestError Payload × InstrumentCatalog
  | .schedule => List ℕ
  | .emitCommandEvent _ | .spawnReconcile _ | .invalidateBybitAccountContext => Unit

/-- Programs over the calls of a command. -/
abbrev CommandM := Prog CommandCall CommandReply

/-- Commands that may return an error, or panic. -/
abbrev CommandE := ExceptT Failure CommandM

/-- The configuration a command runs with. -/
structure CommandContext extends LiveContext where
  /-- The adapter can send orders over the websocket. -/
  wsOrderEntry : Bool
  /-- The transport mode allows nothing but the websocket. -/
  websocketOnly : Bool

/-- A configuration with REST only. -/
def restContext (venue : Venue) : CommandContext where
  venue := venue
  product := .linearUsdt
  snapshotStaleAfterMs := 5000
  wsOrderEntry := false
  websocketOnly := false

namespace CommandM

/-- The engine state as it is now. -/
abbrev readState : CommandE EngineState := ExceptT.lift (.perform CommandCall.readState)

/-- A request over HTTP. -/
abbrev rest (request : RestCommand) : CommandE (Except MarketError Payload × InstrumentCatalog) :=
  ExceptT.lift (.perform (CommandCall.rest request))

/-- A request over the command websocket. -/
abbrev ws (request : WsCommand) :
    CommandE (Except CommandWsRequestError Payload × InstrumentCatalog) :=
  ExceptT.lift (.perform (CommandCall.ws request))

/-- An event on the channel of the commands. -/
abbrev emitCommandEvent (event : CommandLaneEvent) : CommandE Unit :=
  ExceptT.lift (.perform (CommandCall.emitCommandEvent event))

/-- The task that recovers an uncertain command. -/
abbrev spawnReconcile (ack : CommandAck) : CommandE Unit :=
  ExceptT.lift (.perform (CommandCall.spawnReconcile ack))

/-- A task of the runtime, run by a command. -/
def liftRuntime {α : Type} (task : RuntimeE α) : CommandE α :=
  ExceptT.mk ((task.run.mapCalls CommandCall.runtime fun _ r => r) >>=
    fun r => .ret (r.mapError .error))

/-- A call of the runtime, made by a command. -/
def liftCall (q : RuntimeCall) : CommandE (RuntimeReply q) :=
  ExceptT.lift (.perform (CommandCall.runtime q))

/-- The value, or the failure of the command. -/
def ofExcept {α : Type} : Except MarketError α → CommandE α
  | .ok a => pure a
  | .error e => throw (.error e)

/-- Run the commands side by side, until one fails. -/
def tryJoinAll {α : Type} (commands : List (CommandE α)) : CommandE (List α) := do
  let schedule ← ExceptT.lift (.perform CommandCall.schedule)
  ExceptT.mk (Prog.tryJoin schedule (commands.map fun c => c.run))

end CommandM

open CommandM

variable (context : CommandContext)

/-- The instrument of a command. -/
def commandSpec (instrumentId : InstrumentId) : CommandE InstrumentSpec :=
  liftRuntime (requireSpec context.toLiveContext instrumentId)

/-- The error for a command that has no websocket request. -/
def unsupportedWsCommand (operation : String) : MarketError :=
  MarketError.withVenue
    { kind := .unsupported
      message := operation ++ " requires websocket command transport for this venue/path" }
    context.venue context.product

/-- The errors after which a request may have been carried out. -/
def isUncertainCommandError (error : MarketError) : Bool :=
  error.kind ∈ [.transportError, .timeout, .temporaryUnavailable]

/-- The receipt for a reply, or the error of the adapter. -/
def classify (operation : CommandOperation) (catalog : InstrumentCatalog)
    (payload : Option Payload) (requestId : Option RequestId) : CommandE CommandReceipt :=
  ofExcept (classifyCommand context.venue catalog operation payload requestId)

/-- Send over REST; an outcome that is not certain is one to recover from. -/
def sendRest (operation : CommandOperation) (requestId : Option RequestId)
    (request : RestCommand) : CommandE CommandReceipt := do
  match ← rest request with
  | (.ok payload, catalog) => classify context operation catalog (some payload) requestId
  | (.error e, catalog) =>
    if isUncertainCommandError e then classify context operation catalog none requestId
    else throw (.error e)

/-- Send over REST; an outcome that is not certain is an error. -/
def sendRestOrFail (operation : CommandOperation) (requestId : Option RequestId)
    (request : RestCommand) : CommandE CommandReceipt := do
  match ← rest request with
  | (.ok payload, catalog) => classify context operation catalog (some payload) requestId
  | (.error e, _) => throw (.error e)

/-- Send over the websocket, and over REST if the request has not been written.  Commands that are
`strict` do not fall back when only the websocket is allowed. -/
def sendWebSocket (strict : Bool) (operation : CommandOperation) (requestId : Option RequestId)
    (frame : WsCommand) (request : RestCommand) : CommandE (CommandReceipt × CommandTransport) := do
  match ← ws frame with
  | (.ok payload, catalog) =>
    return (← classify context operation catalog (some payload) requestId, .webSocket)
  | (.error (.uncertain _), catalog) =>
    return (← classify context operation catalog none requestId, .webSocket)
  | (.error (.unavailable e), _) =>
    if strict && context.websocketOnly then throw (.error e)
    else return (← sendRest context operation requestId request, .rest)

/-- Send over REST, unless only the websocket is allowed. -/
def sendRestOnly (unsupported : String) (operation : CommandOperation)
    (requestId : Option RequestId) (request : RestCommand) :
    CommandE (CommandReceipt × CommandTransport) := do
  if context.websocketOnly then throw (.error (unsupportedWsCommand context unsupported))
  return (← sendRest context operation requestId request, .rest)

/-- Send over the websocket if the adapter can, and over REST otherwise. -/
def sendCommand (unsupported : String) (operation : CommandOperation) (requestId : Option RequestId)
    (frame : WsCommand) (request : RestCommand) : CommandE (CommandReceipt × CommandTransport) :=
  if context.wsOrderEntry then sendWebSocket context true operation requestId frame request
  else sendRestOnly context unsupported operation requestId request

/-- The time of the acknowledgement is read, the receipt is applied to the state, and if its
outcome is open a recovery is started. -/
def applyCommandReceipt (receipt : CommandReceipt) (transport : CommandTransport) :
    CommandE CommandAck := do
  let acknowledgedAt ← liftCall .timestampNowMs
  let ack : CommandAck := ⟨receipt, transport, acknowledgedAt⟩
  liftCall (.write [.applyCommandReceipt receipt])
  emitCommandEvent (.lifecycle (.ack ack))
  emitCommandEvent (.receipt receipt)
  if receipt.status = .unknownExecution then
    emitCommandEvent (.lifecycle (.recoveryScheduled ack))
    spawnReconcile ack
  return ack

/-- Remember a command whose outcome is not known. -/
def cachePendingUnknown (receipt : CommandReceipt) (operation : CommandOperation)
    (instrumentId : InstrumentId) (orderId : Option OrderId)
    (clientOrderId : Option ClientOrderId) : CommandE Unit := do
  if receipt.status = .unknownExecution then
    let recordedAt ← liftCall .timestampNowMs
    liftCall (.cachePendingUnknown ⟨operation, instrumentId, orderId, clientOrderId, recordedAt⟩)

/-- An environment that knows one instrument, has nothing cached and answers all requests alike. -/
def staticReply (spec : InstrumentSpec) (answer : Except MarketError Payload) :
    (q : CommandCall) → Unit → CommandReply q × Unit
  | .runtime (.resolveInstrument _), _ => (some spec, ())
  | .runtime .timestampNowMs, _ => (0, ())
  | .runtime (.read what), _ => (what.eval (.new spec.venue .linearUsdt ⟨0, 0⟩ [spec]), ())
  | .runtime (.signedGet _ _), _ => (.error { kind := .timeout, message := "no reply" }, ())
  | .runtime .cachedBybitAccountContext, _ => (none, ())
  | .runtime .pendingUnknownCommands, _ => ([], ())
  | .readState, _ => (.new spec.venue .linearUsdt ⟨0, 0⟩ [spec], ())
  | .rest _, _ => ((answer, .new [spec]), ())
  | .ws _, _ => ((answer.mapError .uncertain, .new [spec]), ())
  | .schedule, _ => ([], ())
  | .runtime (.write _), _ | .runtime (.cacheBybitAccountContext _), _
  | .runtime (.cachePendingUnknown _), _ | .runtime (.replacePendingUnknownCommands _), _
  | .emitCommandEvent _, _ | .spawnReconcile _, _ | .invalidateBybitAccountContext, _ => ((), ())

/-! ### Calls that write -/

/-- The call sends nothing to the venue. -/
def CommandCall.Local : CommandCall → Prop
  | .rest _ | .ws _ | .runtime (.signedGet _ _) => False
  | _ => True

/-- The call may change something at the venue. -/
def CommandCall.Writes : CommandCall → Prop
  | .rest request => request.method ≠ .get
  | .ws _ => True
  | _ => False

theorem CommandCall.Local.not_writes {q : CommandCall} (h : q.Local) : ¬ q.Writes := by
  cases q with
  | rest request => exact h.elim
  | ws frame => exact h.elim
  | _ => exact id

theorem run_commandSpec_bind {α : Type} {f : InstrumentSpec → CommandE α} (i : InstrumentId) :
    (commandSpec context i >>= f).run = .call (.runtime (.resolveInstrument i)) fun reply =>
      match reply with
      | some spec => (f spec).run
      | none => .ret (.error (.error (MarketError.withVenue
          { kind := .unsupported, message := "unknown instrument " ++ i.asStr }
          context.venue context.product))) := by
  show Prog.call _ _ = _
  congr 1
  funext reply
  cases reply <;> rfl

/-- What a command does with the specification of an instrument, it does with any. -/
theorem always_of_commandSpec {α : Type} {K : CommandCall → Prop} {i : InstrumentId}
    {f : InstrumentSpec → CommandE α}
    (h : (commandSpec context i >>= f).run.Always fun _ q => K q) (spec : InstrumentSpec) :
    (f spec).run.Always fun _ q => K q := by
  rw [run_commandSpec_bind] at h
  exact Prog.Always.residual (fun _ _ _ hq => hq) h (some spec)

section Yields

variable {context} {α β : Type} {G : List (Event CommandCall CommandReply) → CommandCall → Prop}

/-- A task of the runtime that a command runs writes nothing. -/
theorem always_liftRuntime (hG : ∀ τ q, ¬ q.Writes → G τ q) (task : RuntimeE α) :
    (liftRuntime task).run.Always G := by
  refine Prog.Always.bind (Prog.Always.mapCalls (fun τ q => hG τ _ id) _) fun r => ?_
  exact fun _ => trivial

/-- What holds of the calls of a task of the runtime holds of them in a command. -/
theorem always_liftRuntime_of {K : CommandCall → Prop} {task : RuntimeE α}
    (h : task.run.Always fun _ q => K (.runtime q)) :
    (liftRuntime task).run.Always fun _ q => K q :=
  Prog.Always.bind (Prog.Always.mapCalls_of h) fun _ _ => trivial

@[simp] theorem liftRuntime_pure (a : α) :
    liftRuntime (pure a : RuntimeE α) = (pure a : CommandE α) := rfl

theorem liftRuntime_bind (task : RuntimeE α) (f : α → RuntimeE β) :
    liftRuntime (task >>= f) = liftRuntime task >>= fun a => liftRuntime (f a) := by
  refine ExceptT.ext ?_
  simp only [liftRuntime, ExceptT.run_mk, ExceptT.run_bind, Prog.mapCalls_bind,
    LawfulMonad.bind_assoc]
  congr 1
  funext r
  cases r with
  | ok a => rfl
  | error e => rfl

variable (hG : ∀ τ q, q.Local → G τ q)

include hG

theorem yields_commandSpec (instrumentId : InstrumentId) :
    Prog.Yields G (fun _ => True) (commandSpec context instrumentId) := by
  refine .of_always fun τ => ⟨hG τ _ (by trivial), fun reply => ?_⟩
  cases reply <;> trivial

theorem yields_readState : Prog.Yields G (fun _ => True) readState :=
  Prog.yields_perform (fun τ => hG τ _ (by trivial)) fun _ => trivial

omit hG in
theorem yields_ofExcept {x : Except MarketError α} {P : α → Prop} (h : ∀ a, x = .ok a → P a) :
    Prog.Yields G P (ofExcept x) := by
  cases x with
  | ok a => exact Prog.yields_pure (h a rfl)
  | error e => exact Prog.yields_throw _

/-- What is done with a receipt writes nothing, and acknowledges this receipt. -/
theorem yields_ack (receipt : CommandReceipt) (transport : CommandTransport) :
    Prog.Yields G (fun ack => ack.receipt = receipt ∧ ack.transport = transport)
      (applyCommandReceipt receipt transport) := by
  have hcall : ∀ q : CommandCall, q.Local →
      Prog.Yields G (fun _ => True)
        (ExceptT.lift (.perform q) : CommandE (CommandReply q)) :=
    fun q hq => Prog.yields_perform (fun τ => hG τ q hq) fun _ => trivial
  unfold applyCommandReceipt
  refine (hcall _ (by trivial)).attempt fun _ _ => ?_
  refine (hcall _ (by trivial)).attempt fun _ _ => ?_
  refine (hcall _ (by trivial)).attempt fun _ _ => ?_
  refine (hcall _ (by trivial)).attempt fun _ _ => ?_
  split
  · refine (hcall _ (by trivial)).attempt fun _ _ => ?_
    refine (hcall _ (by trivial)).attempt fun _ _ => ?_
    exact Prog.yields_pure ⟨rfl, rfl⟩
  · exact Prog.yields_pure ⟨rfl, rfl⟩

theorem yields_applyCommandReceipt (receipt : CommandReceipt) (transport : CommandTransport) :
    Prog.Yields G (fun _ => True) (applyCommandReceipt receipt transport) :=
  (yields_ack hG receipt transport).mono fun _ _ => trivial

theorem yields_cachePendingUnknown (receipt : CommandReceipt) (operation : CommandOperation)
    (instrumentId : InstrumentId) (orderId : Option OrderId)
    (clientOrderId : Option ClientOrderId) :
    Prog.Yields G (fun _ => True)
      (cachePendingUnknown receipt operation instrumentId orderId clientOrderId) := by
  unfold cachePendingUnknown
  split
  · refine (Prog.yields_perform (fun τ => hG τ _ (by trivial)) fun _ => trivial).attempt fun _ _ => ?_
    exact Prog.yields_perform (fun τ => hG τ _ (by trivial)) fun _ => trivial
  · exact Prog.yields_pure trivial

/-- Commands that run side by side make the calls they make alone, and yield what they yield
alone. -/
theorem yields_tryJoinAll_map (hshift : ∀ τ τ' q, G τ q → G τ' q) {γ : Type} {P : γ → α → Prop}
    {cs : List γ} {f : γ → CommandE α} (h : ∀ c ∈ cs, Prog.Yields G (P c) (f c)) :
    Prog.Yields G (List.Forall₂ P cs) (tryJoinAll (cs.map f)) := by
  unfold tryJoinAll
  refine (Prog.yields_perform (fun τ => hG τ _ (by trivial)) fun _ => trivial).attempt
    fun schedule _ => ?_
  refine Prog.Yields.tryJoin hshift schedule ?_
  rw [List.map_map, List.forall₂_map_right_iff]
  exact List.forall₂_same.2 h

theorem yields_tryJoinAll (hshift : ∀ τ τ' q, G τ q → G τ' q) {commands : List (CommandE α)}
    (h : ∀ c ∈ commands, c.run.Always G) :
    Prog.Yields G (fun _ => True) (tryJoinAll commands) := by
  have hmap := yields_tryJoinAll_map hG hshift (P := fun _ _ => True) (f := id)
    fun c hc => Prog.Yields.of_always (h c hc)
  rw [List.map_id] at hmap
  exact hmap.mono fun _ _ => trivial

omit hG

/-! ### Ways to send -/

variable {operation : CommandOperation} {requestId : Option RequestId} {request : RestCommand}
  {frame : WsCommand} {unsupported : String}

theorem yields_sendRest (h : ∀ τ, G τ (.rest request)) :
    Prog.Yields G (fun _ => True) (sendRest context operation requestId request) := by
  unfold sendRest
  refine (Prog.yields_perform h fun _ => trivial).attempt fun (reply, catalog) _ => ?_
  cases reply with
  | ok payload => exact yields_ofExcept fun _ _ => trivial
  | error e =>
    by_cases hu : isUncertainCommandError e = true
    · simp only [hu, if_true]
      exact yields_ofExcept fun _ _ => trivial
    · simp only [hu]
      exact Prog.yields_throw _

theorem yields_sendRestOrFail (h : ∀ τ, G τ (.rest request)) :
    Prog.Yields G (fun _ => True) (sendRestOrFail context operation requestId request) := by
  unfold sendRestOrFail
  refine (Prog.yields_perform h fun _ => trivial).attempt fun (reply, catalog) _ => ?_
  cases reply with
  | ok payload => exact yields_ofExcept fun _ _ => trivial
  | error e => exact Prog.yields_throw _

theorem yields_sendWebSocket {strict : Bool} (hws : ∀ τ, G τ (.ws frame))
    (hrest : ∀ τ, G τ (.rest request)) :
    Prog.Yields G (fun _ => True)
      (sendWebSocket context strict operation requestId frame request) := by
  unfold sendWebSocket
  refine (Prog.yields_perform hws fun _ => trivial).attempt fun (reply, catalog) _ => ?_
  cases reply with
  | ok payload => exact (yields_ofExcept fun _ _ => trivial).attempt fun _ _ =>
      Prog.yields_pure trivial
  | error e =>
    cases e with
    | uncertain e => exact (yields_ofExcept fun _ _ => trivial).attempt fun _ _ =>
        Prog.yields_pure trivial
    | unavailable e =>
      by_cases hs : (strict && context.websocketOnly) = true
      · simp only [hs, if_true]
        exact Prog.yields_throw _
      · simp only [hs]
        exact (yields_sendRest hrest).attempt fun _ _ => Prog.yields_pure trivial

theorem yields_sendRestOnly (hrest : ∀ τ, G τ (.rest request)) :
    Prog.Yields G (fun _ => True)
      (sendRestOnly context unsupported operation requestId request) := by
  unfold sendRestOnly
  by_cases h : context.websocketOnly = true
  · simp only [h, if_true]
    exact (Prog.yields_throw (P := fun _ => True) _).attempt fun _ _ =>
      (yields_sendRest hrest).attempt fun _ _ => Prog.yields_pure trivial
  · simp only [h]
    exact (yields_sendRest hrest).attempt fun _ _ => Prog.yields_pure trivial

theorem yields_sendCommand (hws : ∀ τ, G τ (.ws frame)) (hrest : ∀ τ, G τ (.rest request)) :
    Prog.Yields G (fun _ => True)
      (sendCommand context unsupported operation requestId frame request) := by
  unfold sendCommand
  split
  · exact yields_sendWebSocket hws hrest
  · exact yields_sendRestOnly hrest

end Yields

end BatMarkets
