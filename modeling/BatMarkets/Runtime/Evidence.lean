import BatMarkets.Runtime.Recovery

/-!
# What the recovery of a command proves

A command leaves the list of pending ones, and its receipt becomes an accepted one, when a record
carries its identity.  What the record says is not looked at: an order that is still open resolves
a cancel, a fill resolves an amend, and a rejected order resolves a create.

`leftOf` reads off the replies which commands they leave: a look at the local state takes those its
records are about, the answer to a lookup takes the one command that was looked up, and a history
takes those of its instrument that it has records of.  `grounds` are the records on which a command
was taken, and `EvidenceRecord.ShowsEffect` says when a record shows that a command took effect.

## Main results

* `spec_resolvePendingUnknownCommands`, `spec_reconcilePrivate` : whatever the replies are, a
  reconcile leaves unresolved what the replies leave, and the list it writes back is that list.
* `recovery_sound_iff` : in every run, the commands that a reconcile drops are those the replies
  gave grounds for, its receipt is accepted exactly when it dropped all, and it drops only commands
  that took effect exactly when the grounds of no command mislead.
-/

namespace BatMarkets

open Interleaving Ordered RuntimeM

/-- What the task has seen so far. -/
abbrev RuntimeTrace := List (Event RuntimeCall RuntimeReply)

/-! ### Records -/

/-- An order or a fill. -/
inductive EvidenceRecord
  | order (order : Order)
  | execution (execution : Execution)
  deriving DecidableEq, Repr

namespace EvidenceRecord

/-- The record carries the identity of the command. -/
def isAbout (command : PendingUnknownCommand) : EvidenceRecord → Bool
  | .order o => orderMatchesPending o command
  | .execution e => executionMatchesPending e command

end EvidenceRecord

/-- The commands that none of the records is about. -/
def unmatchedBy (records : List EvidenceRecord) (pending : List PendingUnknownCommand) :
    List PendingUnknownCommand :=
  pending.filter fun c => !records.any (·.isAbout c)

/-- The records of a look at the local state. -/
def stateRecords (look : List Order × List Execution) : List EvidenceRecord :=
  look.1.map .order ++ look.2.map .execution

theorem unresolvedPendingAfterOrders_eq (pending : List PendingUnknownCommand)
    (orders : List Order) :
    unresolvedPendingAfterOrders pending orders = unmatchedBy (orders.map .order) pending := by
  simp [unresolvedPendingAfterOrders, unmatchedBy, EvidenceRecord.isAbout, Function.comp_def]

theorem unresolvedPendingAfterExecutions_eq (pending : List PendingUnknownCommand)
    (executions : List Execution) :
    unresolvedPendingAfterExecutions pending executions =
      unmatchedBy (executions.map .execution) pending := by
  simp [unresolvedPendingAfterExecutions, unmatchedBy, EvidenceRecord.isAbout, Function.comp_def]

theorem unresolvedPendingAfterState_eq (pending : List PendingUnknownCommand)
    (look : List Order × List Execution) :
    unresolvedPendingAfterState pending look.1 look.2 = unmatchedBy (stateRecords look) pending := by
  rw [unresolvedPendingAfterState, unresolvedPendingAfterOrders_eq,
    unresolvedPendingAfterExecutions_eq]
  unfold unmatchedBy stateRecords
  rw [List.filter_filter]
  refine List.filter_congr fun c _ => ?_
  rw [List.any_append, Bool.not_or, Bool.and_comm]

theorem mem_of_mem_unmatchedBy {records : List EvidenceRecord}
    {pending : List PendingUnknownCommand} {c : PendingUnknownCommand}
    (h : c ∈ unmatchedBy records pending) : c ∈ pending :=
  List.mem_of_mem_filter h

theorem mem_of_mem_unresolvedAfterOrders {pending : List PendingUnknownCommand}
    {orders : List Order} {c : PendingUnknownCommand}
    (h : c ∈ unresolvedPendingAfterOrders pending orders) : c ∈ pending :=
  List.mem_of_mem_filter h

theorem mem_of_mem_unresolvedAfterExecutions {pending : List PendingUnknownCommand}
    {executions : List Execution} {c : PendingUnknownCommand}
    (h : c ∈ unresolvedPendingAfterExecutions pending executions) : c ∈ pending :=
  List.mem_of_mem_filter h

/-! ### What the replies leave -/

/-- The command is looked up. -/
def PendingUnknownCommand.hasIdentity (command : PendingUnknownCommand) : Bool :=
  command.orderId.isSome || command.clientOrderId.isSome

/-- The list of pending commands the task read last. -/
def snapshotOf : RuntimeTrace → List PendingUnknownCommand
  | [] => []
  | ⟨.pendingUnknownCommands, pending⟩ :: _ => pending
  | _ :: τ => snapshotOf τ

/-- The task has looked at the local state since it read the list. -/
def looked : RuntimeTrace → Bool
  | [] => false
  | ⟨.pendingUnknownCommands, _⟩ :: _ => false
  | ⟨.read .ordersAndExecutions, _⟩ :: _ => true
  | _ :: τ => looked τ

/-- The commands that the venue has still to be asked about, in order: each is off this list when
the local state shows it, when its lookup is answered, or when its instrument is not known. -/
def toAsk : RuntimeTrace → List PendingUnknownCommand
  | [] => []
  | ⟨.pendingUnknownCommands, pending⟩ :: _ => pending.filter (·.hasIdentity)
  | ⟨.read .ordersAndExecutions, look⟩ :: τ => unmatchedBy (stateRecords look) (toAsk τ)
  | ⟨.resolveInstrument _, none⟩ :: τ => (toAsk τ).tail
  | ⟨.signedGet .order _, _⟩ :: τ => (toAsk τ).tail
  | _ :: τ => toAsk τ

/-- The instrument that was resolved last: a request for a history is about it. -/
def instrumentOf : RuntimeTrace → Option InstrumentId
  | [] => none
  | ⟨.resolveInstrument instrumentId, _⟩ :: _ => some instrumentId
  | _ :: τ => instrumentOf τ

/-- A history that comes next is looked at for the command. -/
def asksHistory (τ : RuntimeTrace) (command : PendingUnknownCommand) : Bool :=
  looked τ && instrumentOf τ = some command.instrumentId

/-- The records of the latest reply that are looked at for the command. -/
def consultedFor (command : PendingUnknownCommand) : RuntimeTrace → List EvidenceRecord
  | ⟨.read .ordersAndExecutions, look⟩ :: _ => stateRecords look
  | ⟨.signedGet .order _, .ok order⟩ :: τ =>
    if (toAsk τ).head? = some command then [.order order] else []
  | ⟨.signedGet .orderHistory _, .ok orders⟩ :: τ =>
    if asksHistory τ command then orders.map .order else []
  | ⟨.signedGet .executions _, .ok executions⟩ :: τ =>
    if asksHistory τ command then executions.map .execution else []
  | _ => []

/-- The commands that the replies leave.  An order that answers a lookup resolves the command that
was looked up, whatever the order is; all other records resolve the commands they are about. -/
def leftOf : RuntimeTrace → List PendingUnknownCommand
  | [] => []
  | ⟨.pendingUnknownCommands, pending⟩ :: _ => pending
  | ⟨.signedGet .order _, .ok _⟩ :: τ => (toAsk τ).head?.elim (leftOf τ) (leftOf τ).erase
  | e :: τ => (leftOf τ).filter fun c => !(consultedFor c (e :: τ)).any (·.isAbout c)

/-- The records about the command in the reply that resolved it. -/
def grounds (command : PendingUnknownCommand) : RuntimeTrace → Option (List EvidenceRecord)
  | [] => none
  | ⟨.pendingUnknownCommands, _⟩ :: _ => none
  | e :: τ =>
    if command ∈ leftOf τ ∧ command ∉ leftOf (e :: τ) then
      some ((consultedFor command (e :: τ)).filter (·.isAbout command))
    else grounds command τ

/-- The commands that a recovery reports as unresolved: those it has written back.  When the local
state alone resolves the list, nothing is written back, and nothing is unresolved. -/
def unresolvedOf : RuntimeTrace → List PendingUnknownCommand
  | [] => []
  | ⟨.pendingUnknownCommands, _⟩ :: _ => []
  | ⟨.replacePendingUnknownCommands unresolved, _⟩ :: _ => unresolved
  | _ :: τ => unresolvedOf τ

/-- The call reads or writes the list of pending commands, or its reply may be evidence. -/
def RuntimeCall.bears : RuntimeCall → Bool
  | .pendingUnknownCommands | .replacePendingUnknownCommands _ | .read .ordersAndExecutions
  | .signedGet .order _ | .signedGet .orderHistory _ | .signedGet .executions _ => true
  | _ => false

section Cons

variable {q : RuntimeCall} (r : RuntimeReply q) (τ : RuntimeTrace)

theorem snapshotOf_cons (hq : q ≠ .pendingUnknownCommands) :
    snapshotOf (⟨q, r⟩ :: τ) = snapshotOf τ := by
  cases q <;> first | rfl | exact absurd rfl hq

theorem looked_cons (hq : q ≠ .pendingUnknownCommands) (h : looked τ = true) :
    looked (⟨q, r⟩ :: τ) = true := by
  cases q with
  | pendingUnknownCommands => exact absurd rfl hq
  | read what => cases what <;> first | rfl | exact h
  | _ => exact h

theorem consultedFor_cons (hq : q.bears = false) (c : PendingUnknownCommand) :
    consultedFor c (⟨q, r⟩ :: τ) = [] := by
  cases q with
  | read what => cases what <;> first | rfl | cases hq
  | signedGet decoder request => cases decoder <;> first | rfl | cases hq
  | _ => rfl

theorem leftOf_cons (hq : q.bears = false) : leftOf (⟨q, r⟩ :: τ) = leftOf τ := by
  have hfilter : leftOf (⟨q, r⟩ :: τ) =
      (leftOf τ).filter fun c => !(consultedFor c (⟨q, r⟩ :: τ)).any (·.isAbout c) := by
    cases q with
    | pendingUnknownCommands => cases hq
    | signedGet decoder request => cases decoder <;> first | rfl | cases hq
    | _ => rfl
  rw [hfilter, List.filter_eq_self]
  intro c _
  rw [consultedFor_cons r τ hq]
  rfl

theorem unresolvedOf_cons (hq : q.bears = false) :
    unresolvedOf (⟨q, r⟩ :: τ) = unresolvedOf τ := by
  cases q <;> first | rfl | cases hq

theorem mem_of_mem_leftOf_cons (hq : q ≠ .pendingUnknownCommands) {c : PendingUnknownCommand}
    (h : c ∈ leftOf (⟨q, r⟩ :: τ)) : c ∈ leftOf τ := by
  cases q with
  | pendingUnknownCommands => exact absurd rfl hq
  | signedGet decoder request =>
    cases decoder with
    | order =>
      cases r with
      | error e => exact List.mem_of_mem_filter h
      | ok order =>
        change c ∈ (toAsk τ).head?.elim (leftOf τ) (leftOf τ).erase at h
        cases hask : (toAsk τ).head? with
        | none => rwa [hask] at h
        | some command =>
          rw [hask] at h
          exact List.mem_of_mem_erase h
    | _ => exact List.mem_of_mem_filter h
  | _ => exact List.mem_of_mem_filter h

end Cons

/-- The replies leave only commands of the list. -/
theorem mem_snapshotOf {τ : RuntimeTrace} {c : PendingUnknownCommand} (h : c ∈ leftOf τ) :
    c ∈ snapshotOf τ := by
  induction τ with
  | nil => exact h
  | cons e τ ih =>
    obtain ⟨q, r⟩ := e
    by_cases hq : q = .pendingUnknownCommands
    · subst hq
      exact h
    · rw [snapshotOf_cons r τ hq]
      exact ih (mem_of_mem_leftOf_cons r τ hq h)

theorem grounds_cons {q : RuntimeCall} (r : RuntimeReply q) (τ : RuntimeTrace)
    (hq : q ≠ .pendingUnknownCommands) (c : PendingUnknownCommand) :
    grounds c (⟨q, r⟩ :: τ) =
      if c ∈ leftOf τ ∧ c ∉ leftOf (⟨q, r⟩ :: τ) then
        some ((consultedFor c (⟨q, r⟩ :: τ)).filter (·.isAbout c))
      else grounds c τ := by
  cases q <;> first | rfl | exact absurd rfl hq

/-- A call that changes nothing about the commands left gives no grounds. -/
theorem grounds_cons_of_leftOf {q : RuntimeCall} {r : RuntimeReply q} {τ : RuntimeTrace}
    (hq : q ≠ .pendingUnknownCommands) (hleft : leftOf (⟨q, r⟩ :: τ) = leftOf τ)
    (c : PendingUnknownCommand) : grounds c (⟨q, r⟩ :: τ) = grounds c τ := by
  rw [grounds_cons r τ hq, hleft, if_neg fun h => h.2 h.1]

/-- The replies gave grounds for a command of the list exactly when they do not leave it. -/
theorem isSome_grounds_iff {τ : RuntimeTrace} {c : PendingUnknownCommand} :
    (grounds c τ).isSome = true ↔ c ∈ snapshotOf τ ∧ c ∉ leftOf τ := by
  induction τ with
  | nil => exact iff_of_false Bool.false_ne_true fun h => absurd h.1 List.not_mem_nil
  | cons e τ ih =>
    obtain ⟨q, r⟩ := e
    by_cases hq : q = .pendingUnknownCommands
    · subst hq
      exact iff_of_false Bool.false_ne_true fun h => h.2 h.1
    · rw [grounds_cons r τ hq, snapshotOf_cons r τ hq]
      by_cases hleaves : c ∈ leftOf τ ∧ c ∉ leftOf (⟨q, r⟩ :: τ)
      · rw [if_pos hleaves]
        exact iff_of_true rfl ⟨mem_snapshotOf hleaves.1, hleaves.2⟩
      · rw [if_neg hleaves, ih]
        refine and_congr_right fun _ => ?_
        constructor
        · exact fun h hmem => h (mem_of_mem_leftOf_cons r τ hq hmem)
        · exact fun h hmem => hleaves ⟨hmem, h⟩

/-! ### The stages of the recovery -/

/-- The task has written nothing back since it read the list, and `unresolved` is, in some order,
what the replies leave. -/
structure Accounted (τ : RuntimeTrace) (unresolved : List PendingUnknownCommand) : Prop where
  perm : unresolved.Perm (leftOf τ)
  unwritten : unresolvedOf τ = []

/-- The same after the first look at the local state, unless nothing is left. -/
structure Examining (τ : RuntimeTrace) (unresolved : List PendingUnknownCommand) : Prop
    extends Accounted τ unresolved where
  looked : unresolved ≠ [] → looked τ = true

/-- The calls of a reconcile: it caches no command, and the list it writes back accounts for every
command of the list it read. -/
def ReconcileCall (τ : RuntimeTrace) : RuntimeCall → Prop
  | .cachePendingUnknown _ => False
  | .replacePendingUnknownCommands unresolved => Accounted τ unresolved
  | _ => True

/-- A stage that ends with `.ok U` leaves the commands `kept ++ U` unresolved. -/
def Leaves (kept : List PendingUnknownCommand) (τ : RuntimeTrace)
    (result : Except MarketError (List PendingUnknownCommand)) : Prop :=
  match result with
  | .ok U => Examining τ (kept ++ U)
  | .error _ => True

variable {context : LiveContext} {τ : RuntimeTrace} {U U' : List PendingUnknownCommand}

theorem Accounted.snapshot (pending : List PendingUnknownCommand) :
    Accounted (⟨.pendingUnknownCommands, pending⟩ :: τ) pending :=
  ⟨.refl _, rfl⟩

theorem Accounted.cons (h : Accounted τ U) {q : RuntimeCall} {r : RuntimeReply q}
    (hq : q.bears = false) : Accounted (⟨q, r⟩ :: τ) U := by
  refine ⟨?_, ?_⟩
  · rw [leftOf_cons r τ hq]
    exact h.perm
  · rw [unresolvedOf_cons r τ hq]
    exact h.unwritten

theorem RuntimeCall.ne_of_bears {q : RuntimeCall} (hq : q.bears = false) :
    q ≠ .pendingUnknownCommands := by
  rintro rfl
  cases hq

namespace Examining

theorem cons (h : Examining τ U) {q : RuntimeCall} {r : RuntimeReply q} (hq : q.bears = false) :
    Examining (⟨q, r⟩ :: τ) U :=
  ⟨h.toAccounted.cons hq, fun hU => looked_cons r τ (RuntimeCall.ne_of_bears hq) (h.looked hU)⟩

theorem congr (h : Examining τ U) (hperm : U'.Perm U) : Examining τ U' := by
  refine ⟨⟨hperm.trans h.perm, h.unwritten⟩, fun hU => h.looked ?_⟩
  rintro rfl
  exact hU hperm.eq_nil

/-- An answer to a lookup: an order resolves the command that was looked up. -/
theorem answered {command : PendingUnknownCommand} {kept rest asked : List PendingUnknownCommand}
    (h : Examining τ (kept ++ command :: rest)) (hask : toAsk τ = command :: asked)
    (request : SignedGet) (order : Order) :
    Examining (⟨.signedGet .order request, .ok order⟩ :: τ) (kept ++ rest) := by
  have hlooked : BatMarkets.looked τ = true := h.looked (by simp)
  have hleft : leftOf (⟨.signedGet .order request, .ok order⟩ :: τ) =
      (leftOf τ).erase command := by
    change (toAsk τ).head?.elim (leftOf τ) (leftOf τ).erase = _
    rw [hask]
    rfl
  refine ⟨⟨?_, h.unwritten⟩, fun _ => hlooked⟩
  rw [hleft]
  calc kept ++ rest
      = (command :: (kept ++ rest)).erase command := (List.erase_cons_head _ _).symm
    List.Perm _ ((kept ++ command :: rest).erase command) := List.perm_middle.symm.erase _
    List.Perm _ ((leftOf τ).erase command) := h.perm.erase _

theorem unanswered (h : Examining τ U) (request : SignedGet) (e : MarketError) :
    Examining (⟨.signedGet .order request, .error e⟩ :: τ) U := by
  have hleft : leftOf (⟨.signedGet .order request, .error e⟩ :: τ) = leftOf τ :=
    List.filter_eq_self.2 fun _ _ => rfl
  exact ⟨⟨hleft ▸ h.perm, h.unwritten⟩, h.looked⟩

end Examining

theorem spec_resolvePendingFromLocalState (h : Accounted τ U) :
    (resolvePendingFromLocalState U).Spec ReconcileCall
      (fun τ' U' => Examining τ' U' ∧
        (toAsk τ = U.filter (·.hasIdentity) → toAsk τ' = U'.filter (·.hasIdentity))) τ := by
  unfold resolvePendingFromLocalState
  split
  · next hempty =>
    refine ⟨⟨h, fun hU => absurd (List.isEmpty_iff.1 hempty) hU⟩, id⟩
  · refine ⟨trivial, fun look => ?_⟩
    show Examining _ (unresolvedPendingAfterState U look.1 look.2) ∧
      (_ → _ = (unresolvedPendingAfterState U look.1 look.2).filter _)
    rw [unresolvedPendingAfterState_eq]
    refine ⟨⟨⟨h.perm.filter _, h.unwritten⟩, fun _ => rfl⟩, fun hask => ?_⟩
    change unmatchedBy (stateRecords look) (toAsk τ) = _
    rw [hask, unmatchedBy, unmatchedBy, List.filter_filter, List.filter_filter]
    exact List.filter_congr fun c _ => Bool.and_comm _ _

/-! ### Lookups -/

/-- A request that cannot be built is an error of the configuration. -/
theorem kind_of_orderIdentity {clientKey : String} {orderId : Option OrderId}
    {clientOrderId : Option ClientOrderId} {e : MarketError}
    (h : orderIdentity clientKey orderId clientOrderId = .error e) : e.kind = .configError := by
  unfold orderIdentity at h
  split at h
  · cases h
  · cases h
  · cases h
    rfl

theorem kind_of_binanceAlgoIdentityQuery {orderId : Option OrderId}
    {clientOrderId : Option ClientOrderId} {e : MarketError}
    (h : binanceAlgoIdentityQuery orderId clientOrderId = .error e) : e.kind = .configError := by
  unfold binanceAlgoIdentityQuery at h
  split at h
  · split at h
    · cases h
    · cases h
      rfl
  · cases h
  · cases h
    rfl

theorem kind_of_orderLookup {spec : InstrumentSpec} {request : GetOrderRequest} {e : MarketError}
    (h : orderLookup context spec request = .error e) : e.kind = .configError := by
  unfold orderLookup at h
  split at h
  · split at h
    · cases hquery : binanceAlgoIdentityQuery request.orderId request.clientOrderId with
      | ok query =>
        rw [hquery] at h
        cases h
      | error e' =>
        rw [hquery] at h
        cases h
        exact kind_of_binanceAlgoIdentityQuery hquery
    · unfold appendOrderIdentity at h
      cases hquery : orderIdentity "origClientOrderId" request.orderId request.clientOrderId with
      | ok query =>
        rw [hquery] at h
        cases h
      | error e' =>
        rw [hquery] at h
        cases h
        exact kind_of_orderIdentity hquery
  · unfold appendBybitOrderIdentity at h
    cases hquery : orderIdentity "orderLinkId" request.orderId request.clientOrderId with
    | ok query =>
      rw [hquery] at h
      cases h
    | error e' =>
      rw [hquery] at h
      cases h
      exact kind_of_orderIdentity hquery
  · split at h
    · cases h
    · cases h
      rfl

/-- The recovery does not go on after a request that cannot be built. -/
theorem not_missing_of_orderLookup {spec : InstrumentSpec} {request : GetOrderRequest}
    {e : MarketError} (h : orderLookup context spec request = .error e) :
    isMissingOrderError e = false := by
  rw [isMissingOrderError, kind_of_orderLookup h]
  rfl

/-- What a lookup leaves: it takes the command off the list if it finds an order, and off the
commands to ask about whenever the recovery goes on. -/
def LookedUpOne (command : PendingUnknownCommand) (kept rest asked : List PendingUnknownCommand)
    (τ : RuntimeTrace) : Except MarketError Order → Prop
  | .ok _ => Examining τ (kept ++ rest) ∧ toAsk τ = asked
  | .error e => isMissingOrderError e = true →
      Examining τ (kept ++ command :: rest) ∧ toAsk τ = asked

theorem spec_getOrder {command : PendingUnknownCommand} {kept rest asked : List PendingUnknownCommand}
    (h : Examining τ (kept ++ command :: rest)) (hask : toAsk τ = command :: asked) :
    (getOrder context command.orderRequest).run.Spec ReconcileCall
      (LookedUpOne command kept rest asked) τ := by
  refine spec_requireSpec trivial (fun e _ => ⟨h.cons rfl, ?_⟩) fun spec => ?_
  · change (toAsk τ).tail = asked
    rw [hask]
    rfl
  have hspec : Examining (⟨.resolveInstrument command.orderRequest.instrumentId, some spec⟩ :: τ)
      (kept ++ command :: rest) := h.cons rfl
  cases hl : orderLookup context spec command.orderRequest with
  | error e =>
    intro hmissing
    rw [not_missing_of_orderLookup hl] at hmissing
    cases hmissing
  | ok request =>
    have htail : (toAsk τ).tail = asked := by
      rw [hask]
      rfl
    refine spec_signedGet trivial (fun e _ => ⟨hspec.unanswered _ e, htail⟩) fun order => ?_
    exact ⟨trivial, fun _ => ⟨trivial, fun _ =>
      ⟨((hspec.answered hask _ order).cons rfl).cons rfl, htail⟩⟩⟩

theorem spec_lookupOrder {command : PendingUnknownCommand}
    {kept rest : List PendingUnknownCommand} (h : Examining τ (kept ++ command :: rest))
    (hask : toAsk τ = (command :: rest).filter (·.hasIdentity)) :
    (lookupOrder context command).run.Spec ReconcileCall
      (fun τ r => ∀ resolved, r = .ok resolved →
        Examining τ (if resolved then kept ++ rest else kept ++ command :: rest) ∧
          toAsk τ = rest.filter (·.hasIdentity)) τ := by
  rw [lookupOrder, ExceptT.run_mk]
  split
  · next hid =>
    have hid' : command.hasIdentity = true := hid
    rw [List.filter_cons_of_pos hid'] at hask
    refine Prog.spec_bind.2 ((spec_getOrder h hask).mono (fun _ _ hq => hq) ?_)
    intro τ r hr
    cases r with
    | ok order =>
      rintro resolved ⟨⟩
      exact hr
    | error e =>
      intro resolved hresolved
      split at hresolved
      · next hmissing =>
        cases hresolved
        exact hr hmissing
      · cases hresolved
  · next hid =>
    have hid' : ¬ command.hasIdentity = true := hid
    rw [List.filter_cons_of_neg hid'] at hask
    rintro resolved ⟨⟩
    exact ⟨h, hask⟩

/-- The rest of a sequence of lookups runs from what the first one leaves. -/
theorem spec_lookupOrders (pending : List PendingUnknownCommand)
    {kept : List PendingUnknownCommand} (h : Examining τ (kept ++ pending))
    (hask : toAsk τ = pending.filter (·.hasIdentity)) :
    (lookupOrders context pending).run.Spec ReconcileCall (Leaves kept) τ := by
  induction pending generalizing kept τ with
  | nil => exact h
  | cons command pending ih =>
    refine Prog.spec_attempt ((spec_lookupOrder h hask).mono (fun _ _ hq => hq) ?_)
    intro τ r hr
    cases r with
    | error e => trivial
    | ok resolved =>
      obtain ⟨hunder, hask⟩ := hr resolved rfl
      cases resolved with
      | true =>
        refine Prog.spec_attempt ((ih hunder hask).mono (fun _ _ hq => hq) ?_)
        intro τ r hr
        cases r with
        | error e => trivial
        | ok U => exact hr
      | false =>
        have hunder' : Examining τ ((kept ++ [command]) ++ pending) := by
          simpa using hunder
        refine Prog.spec_attempt ((ih hunder' hask).mono (fun _ _ hq => hq) ?_)
        intro τ r hr
        cases r with
        | error e => trivial
        | ok U =>
          have hU : Examining τ (kept ++ [command] ++ U) := hr
          rw [List.append_assoc] at hU
          exact hU

/-! ### Histories -/

/-- The commands left when the history of an instrument holds the records. -/
def leftByHistory (i : InstrumentId) (records : List EvidenceRecord)
    (pending : List PendingUnknownCommand) : List PendingUnknownCommand :=
  pending.filter fun c => !(decide (i = c.instrumentId) && records.any (·.isAbout c))

/-- What a request for recent records leaves: what the history leaves of the commands. -/
def Fetches {ρ : Type} (record : ρ → EvidenceRecord) (i : InstrumentId)
    (U : List PendingUnknownCommand) (τ : RuntimeTrace)
    (result : Except MarketError (List ρ)) : Prop :=
  match result with
  | .ok records => Examining τ (leftByHistory i (records.map record) U)
  | .error _ => True

/-- A history takes the commands of its instrument that it has records of. -/
theorem Examining.history (h : Examining τ U) {i : InstrumentId} (hi : instrumentOf τ = some i)
    {q : RuntimeCall} {r : RuntimeReply q} {records : List EvidenceRecord}
    (hq : q ≠ .pendingUnknownCommands) (hunresolved : unresolvedOf (⟨q, r⟩ :: τ) = unresolvedOf τ)
    (hleft : leftOf (⟨q, r⟩ :: τ) =
      (leftOf τ).filter fun c => !(if asksHistory τ c then records else []).any (·.isAbout c)) :
    Examining (⟨q, r⟩ :: τ) (leftByHistory i records U) := by
  by_cases hU : U = []
  · subst hU
    have hnil : leftOf τ = [] := h.perm.nil_eq.symm
    refine ⟨⟨?_, hunresolved.trans h.unwritten⟩, fun hne => absurd rfl hne⟩
    rw [hleft, hnil]
    exact .refl _
  have hlooked := h.looked hU
  refine ⟨⟨?_, hunresolved.trans h.unwritten⟩, fun _ => looked_cons r τ hq hlooked⟩
  rw [hleft]
  refine (h.perm.filter _).trans (.of_eq (List.filter_congr fun c _ => ?_))
  rw [asksHistory, hlooked, hi, Bool.true_and]
  by_cases hc : i = c.instrumentId
  · simp [hc]
  · simp [hc]

theorem spec_refreshRecentOrderHistory (h : Examining τ U) (i : InstrumentId)
    (commands : List PendingUnknownCommand) :
    (refreshRecentOrderHistory context i commands).run.Spec ReconcileCall
      (Fetches .order i U) τ := by
  refine spec_requireSpec trivial (fun _ => trivial) fun spec => ?_
  refine ⟨trivial, fun _ => ⟨trivial, fun _ => ⟨trivial, fun _ => ⟨trivial, fun r => ?_⟩⟩⟩⟩
  cases r with
  | error e => trivial
  | ok orders =>
    exact ((((h.cons rfl).cons rfl).cons rfl).cons rfl).history rfl nofun rfl rfl

theorem spec_refreshRecentExecutionHistory (h : Examining τ U) (i : InstrumentId)
    (commands : List PendingUnknownCommand) :
    (refreshRecentExecutionHistory context i commands).run.Spec ReconcileCall
      (Fetches .execution i U) τ := by
  refine ⟨trivial, fun _ => ⟨trivial, fun _ => ⟨trivial, fun _ => ?_⟩⟩⟩
  refine spec_requireSpec trivial (fun _ => trivial) fun spec => ⟨trivial, fun r => ?_⟩
  cases r with
  | error e => trivial
  | ok executions =>
    exact ((((h.cons rfl).cons rfl).cons rfl).cons rfl).history rfl nofun rfl rfl

/-- Groups of commands by their instrument, apart from the commands already gone through. -/
structure Grouped (kept : List PendingUnknownCommand)
    (groups : List (InstrumentId × List PendingUnknownCommand)) : Prop where
  nodup : (groups.map (·.1)).Nodup
  keyed : ∀ g ∈ groups, ∀ c ∈ g.2, c.instrumentId = g.1
  apart : ∀ c ∈ kept, ∀ g ∈ groups, c.instrumentId ≠ g.1

/-- The history of an instrument takes only commands of its group. -/
theorem Grouped.leftByHistory_eq {kept : List PendingUnknownCommand} {i : InstrumentId}
    {commands : List PendingUnknownCommand}
    {groups : List (InstrumentId × List PendingUnknownCommand)}
    (h : Grouped kept ((i, commands) :: groups)) (records : List EvidenceRecord) :
    leftByHistory i records (kept ++ ((i, commands) :: groups).flatMap (·.2)) =
      kept ++ unmatchedBy records commands ++ groups.flatMap (·.2) := by
  have hkept : leftByHistory i records kept = kept := by
    refine List.filter_eq_self.2 fun c hc => ?_
    have hne := h.apart c hc _ List.mem_cons_self
    simp [Ne.symm hne]
  have hgroup : leftByHistory i records commands = unmatchedBy records commands := by
    refine List.filter_congr fun c hc => ?_
    have hkey : c.instrumentId = i := h.keyed _ List.mem_cons_self c hc
    simp [hkey]
  have hrest : leftByHistory i records (groups.flatMap (·.2)) = groups.flatMap (·.2) := by
    refine List.filter_eq_self.2 fun c hc => ?_
    obtain ⟨g, hg, hmem⟩ := List.mem_flatMap.1 hc
    have hkey : c.instrumentId = g.1 := h.keyed g (List.mem_cons_of_mem _ hg) c hmem
    have hne : i ≠ g.1 := by
      rintro rfl
      have hmem : g.1 ∈ groups.map (·.1) := List.mem_map_of_mem hg
      exact (List.nodup_cons.1 h.nodup).1 hmem
    simp [hkey, hne]
  rw [List.flatMap_cons, leftByHistory, List.filter_append, List.filter_append, List.append_assoc]
  exact congrArg₂ _ hkept (congrArg₂ _ hgroup hrest)

theorem Grouped.tail {kept : List PendingUnknownCommand} {i : InstrumentId}
    {commands commands' : List PendingUnknownCommand}
    {groups : List (InstrumentId × List PendingUnknownCommand)}
    (h : Grouped kept ((i, commands) :: groups)) (hsub : ∀ c ∈ commands', c ∈ commands) :
    Grouped (kept ++ commands') groups := by
  refine ⟨(List.nodup_cons.1 h.nodup).2, fun g hg => h.keyed g (List.mem_cons_of_mem _ hg), ?_⟩
  intro c hc g hg hkey
  rcases List.mem_append.1 hc with hc | hc
  · exact h.apart c hc g (List.mem_cons_of_mem _ hg) hkey
  · have hi : c.instrumentId = i := h.keyed _ List.mem_cons_self c (hsub c hc)
    have hmem : g.1 ∈ groups.map (·.1) := List.mem_map_of_mem hg
    rw [← hkey, hi] at hmem
    exact (List.nodup_cons.1 h.nodup).1 hmem

theorem spec_resolveGroups {ρ : Type} {record : ρ → EvidenceRecord}
    {refresh : InstrumentId → List PendingUnknownCommand → RuntimeE (List ρ)}
    {merge : List ρ → EngineOp}
    {unresolvedAfter : List PendingUnknownCommand → List ρ → List PendingUnknownCommand}
    (hrefresh : ∀ τ U i commands, Examining τ U →
      (refresh i commands).run.Spec ReconcileCall (Fetches record i U) τ)
    (hunmatched : ∀ commands records,
      unresolvedAfter commands records = unmatchedBy (records.map record) commands)
    (groups : List (InstrumentId × List PendingUnknownCommand))
    {kept : List PendingUnknownCommand} (hgroups : Grouped kept groups)
    (h : Examining τ (kept ++ groups.flatMap (·.2))) :
    (resolveGroups refresh merge unresolvedAfter groups).run.Spec ReconcileCall
      (Leaves kept) τ := by
  -- the commands of the groups before are kept: their histories are read
  induction groups generalizing kept τ with
  | nil => exact h
  | cons group groups ih =>
    obtain ⟨i, commands⟩ := group
    refine Prog.spec_attempt ((hrefresh τ _ i commands h).mono (fun _ _ hq => hq) ?_)
    intro τ r hr
    cases r with
    | error e => trivial
    | ok records =>
      have hunder : Examining τ
          (kept ++ unresolvedAfter commands records ++ groups.flatMap (·.2)) := by
        rw [hunmatched, ← hgroups.leftByHistory_eq]
        exact hr
      have hrest : Grouped (kept ++ unresolvedAfter commands records) groups := by
        refine hgroups.tail fun c hc => ?_
        rw [hunmatched] at hc
        exact mem_of_mem_unmatchedBy hc
      refine ⟨trivial, fun _ => ?_⟩
      refine Prog.spec_attempt ((ih hrest (hunder.cons rfl)).mono (fun _ _ hq => hq) ?_)
      intro τ r hr
      cases r with
      | error e => trivial
      | ok U =>
        have hU : Examining τ (kept ++ unresolvedAfter commands records ++ U) := hr
        rw [List.append_assoc] at hU
        exact hU

theorem grouped_pendingByInstrument (pending : List PendingUnknownCommand) :
    Grouped [] (pendingByInstrument pending).toList := by
  refine ⟨?_, fun g hg c hc => ((mem_group_iff hg).1 hc).2, nofun⟩
  rw [Std.ExtTreeMap.map_fst_toList_eq_keys]
  exact Std.ExtTreeMap.nodup_keys

/-- Grouping the commands by instrument loses none. -/
theorem Examining.groups (h : Examining τ U) :
    Examining τ ([] ++ (pendingByInstrument U).toList.flatMap (·.2)) :=
  h.congr (perm_groupBy _ _)

theorem spec_resolvePendingFromRecentOrderHistory (h : Examining τ U) :
    (resolvePendingFromRecentOrderHistory context U).run.Spec ReconcileCall (Leaves []) τ :=
  spec_resolveGroups (fun _ _ i commands h => spec_refreshRecentOrderHistory h i commands)
    unresolvedPendingAfterOrders_eq _ (grouped_pendingByInstrument U) h.groups

theorem spec_resolvePendingFromRecentExecutionHistory (h : Examining τ U) :
    (resolvePendingFromRecentExecutionHistory context U).run.Spec ReconcileCall (Leaves []) τ :=
  spec_resolveGroups (fun _ _ i commands h => spec_refreshRecentExecutionHistory h i commands)
    unresolvedPendingAfterExecutions_eq _ (grouped_pendingByInstrument U) h.groups

/-! ### The recovery as a whole -/

/-- A stage that ends with a number reports what the replies leave. -/
def Resolves (τ : RuntimeTrace) (result : Except MarketError Nat) : Prop :=
  ∀ n, result = .ok n → (unresolvedOf τ).Perm (leftOf τ) ∧ n = (unresolvedOf τ).length

theorem Resolves.error (e : MarketError) : Resolves τ (.error e) := nofun

/-- The list is written back. -/
theorem Accounted.replace (h : Accounted τ U) :
    Resolves (⟨.replacePendingUnknownCommands U, ()⟩ :: τ) (.ok U.length) := by
  rintro n ⟨⟩
  refine ⟨?_, rfl⟩
  have hleft : leftOf (⟨.replacePendingUnknownCommands U, ()⟩ :: τ) = leftOf τ :=
    List.filter_eq_self.2 fun _ _ => rfl
  rw [hleft]
  exact h.perm

/-- Nothing is left, and nothing is written back. -/
theorem Accounted.nothing (h : Accounted τ []) : Resolves τ (.ok 0) := by
  rintro n ⟨⟩
  rw [h.unwritten]
  exact ⟨h.perm, rfl⟩

/-- The rule for a stage: what follows it runs from the commands it leaves. -/
theorem spec_stage {x : RuntimeE (List PendingUnknownCommand)}
    {f : List PendingUnknownCommand → RuntimeE Nat}
    (hx : x.run.Spec ReconcileCall (Leaves []) τ)
    (hf : ∀ τ U, Examining τ U → (f U).run.Spec ReconcileCall Resolves τ) :
    (x >>= f).run.Spec ReconcileCall Resolves τ := by
  refine Prog.spec_attempt (hx.mono (fun _ _ hq => hq) fun τ r hr => ?_)
  cases r with
  | error e => exact .error e
  | ok U => exact hf τ U hr

/-- The rule for a look at the local state. -/
theorem spec_localStage {f : List PendingUnknownCommand → RuntimeE Nat} (h : Accounted τ U)
    (hf : ∀ τ' U', Examining τ' U' →
      (toAsk τ = U.filter (·.hasIdentity) → toAsk τ' = U'.filter (·.hasIdentity)) →
        (f U').run.Spec ReconcileCall Resolves τ') :
    ((resolvePendingFromLocalState U : RuntimeE _) >>= f).run.Spec ReconcileCall Resolves τ := by
  refine Prog.spec_attempt (Prog.spec_bind.2 ?_)
  exact (spec_resolvePendingFromLocalState h).mono (fun _ _ hq => hq) fun τ' U' hU' =>
    hf τ' U' hU'.1 hU'.2

/-- The rule for an early end: when no command is left, the list is emptied. -/
theorem spec_doneOr {rest : RuntimeE Nat} (h : Accounted τ U)
    (hrest : rest.run.Spec ReconcileCall Resolves τ) :
    (if U.isEmpty then do
        replacePendingUnknownCommands []
        return 0
      else rest : RuntimeE Nat).run.Spec ReconcileCall Resolves τ := by
  split
  · next hempty =>
    rw [List.isEmpty_iff.1 hempty] at h
    exact ⟨h, fun _ => h.replace⟩
  · exact hrest

/-- **What the resolution of the pending commands does**, whatever the replies are. -/
theorem spec_resolvePendingUnknownCommands (τ : RuntimeTrace) :
    (resolvePendingUnknownCommands context).run.Spec ReconcileCall Resolves τ := by
  refine ⟨trivial, fun pending => spec_localStage (.snapshot pending) fun τ U hU hask => ?_⟩
  split
  · next hempty =>
    rw [List.isEmpty_iff.1 hempty] at hU
    exact hU.toAccounted.nothing
  · refine spec_stage (spec_lookupOrders U hU (hask rfl)) fun τ U hU => ?_
    refine spec_localStage hU.toAccounted fun τ U hU _ => spec_doneOr hU.toAccounted ?_
    refine spec_stage (spec_resolvePendingFromRecentOrderHistory hU) fun τ U hU => ?_
    refine spec_doneOr hU.toAccounted ?_
    refine spec_stage (spec_resolvePendingFromRecentExecutionHistory hU) fun τ U hU => ?_
    exact ⟨hU.toAccounted, fun _ => hU.toAccounted.replace⟩

/-! ### The whole reconcile -/

/-- The call concerns the list of pending commands. -/
def RuntimeCall.OnPending : RuntimeCall → Prop
  | .pendingUnknownCommands | .cachePendingUnknown _ | .replacePendingUnknownCommands _ => True
  | _ => False

/-- The program does not touch the list of pending commands. -/
abbrev Aside {α : Type} (t : RuntimeM α) : Prop := t.Always fun _ q => ¬ q.OnPending

/-- Neither the list the task read nor the one it wrote has changed. -/
def SameLists (τ τ' : RuntimeTrace) : Prop :=
  snapshotOf τ' = snapshotOf τ ∧ unresolvedOf τ' = unresolvedOf τ

theorem sameLists_cons {q : RuntimeCall} (hq : ¬ q.OnPending) (r : RuntimeReply q)
    (τ : RuntimeTrace) : SameLists τ (⟨q, r⟩ :: τ) := by
  constructor <;> cases q <;> first | rfl | exact absurd trivial hq

theorem Aside.spec {α : Type} {t : RuntimeM α} (h : Aside t) (τ : RuntimeTrace) :
    t.Spec ReconcileCall (fun τ' _ => SameLists τ τ') τ := by
  have hτ := h τ
  clear h
  induction t generalizing τ with
  | ret a => exact ⟨rfl, rfl⟩
  | call q k ih =>
    obtain ⟨hq, hk⟩ := hτ
    refine ⟨?_, fun r => (ih r _ (hk r)).mono (fun _ _ hq => hq) fun τ' _ hτ' => ?_⟩
    · cases q <;> first | trivial | exact absurd trivial hq
    · have hcons := sameLists_cons hq r τ
      exact ⟨hτ'.1.trans hcons.1, hτ'.2.trans hcons.2⟩

theorem aside_signedGet (decoder : Decoder) (path : String) (query : List (String × String))
    (operation : String) : Aside (signedGet decoder path query operation).run :=
  fun _ => ⟨id, fun _ => trivial⟩

theorem aside_write (ops : List EngineOp) : Aside (liftM (write ops) : RuntimeE Unit).run :=
  fun _ => ⟨id, fun _ => trivial⟩

theorem aside_return {α : Type} (a : α) : Aside (pure a : RuntimeE α).run := fun _ => trivial

theorem aside_refreshBybitAccountContext : Aside refreshBybitAccountContext.run := by
  refine fun τ => ⟨id, fun cached => ?_⟩
  cases cached with
  | some cached => trivial
  | none =>
    refine (aside_signedGet _ _ _ _).attempt (fun parsed => ?_) _
    exact fun _ => ⟨id, fun _ => trivial⟩

theorem aside_refreshAccount (context : LiveContext) : Aside (refreshAccount context).run := by
  refine Prog.Always.attempt ?_ fun _ => aside_return _
  obtain ⟨venue, product, stale⟩ := context
  cases venue with
  | binance =>
    exact (aside_signedGet _ _ _ _).attempt fun _ =>
      (aside_write _).attempt fun _ => aside_return _
  | bybit =>
    exact aside_refreshBybitAccountContext.attempt fun _ =>
      (aside_signedGet _ _ _ _).attempt fun _ =>
        (aside_write _).attempt fun _ => aside_return _
  | mexc =>
    exact (aside_signedGet _ _ _ _).attempt fun _ =>
      (aside_write _).attempt fun _ => aside_return _

theorem aside_refreshPositions (context : LiveContext) :
    Aside (refreshPositions context).run := by
  obtain ⟨venue, product, stale⟩ := context
  cases venue <;>
    exact (aside_signedGet _ _ _ _).attempt fun _ => (aside_write _).attempt fun _ => aside_return _

theorem aside_refreshOpenOrders (context : LiveContext)
    (request : Option ListOpenOrdersRequest) : Aside (refreshOpenOrders context request).run := by
  refine Prog.Always.attempt (fun τ => ?_) fun _ => (aside_write _).attempt fun _ => aside_return _
  refine (spec_fetchOpenOrders context request).mono (fun τ q hq => ?_) fun _ _ h => h
  cases q <;> first | exact id | exact hq.elim

theorem aside_refreshRecentExecutionHistory (context : LiveContext) (i : InstrumentId)
    (commands : List PendingUnknownCommand) :
    Aside (refreshRecentExecutionHistory context i commands).run := by
  refine fun τ => ⟨id, fun _ => ⟨id, fun _ => ⟨id, fun _ => ?_⟩⟩⟩
  exact spec_requireSpec id (fun _ => trivial) fun _ => ⟨id, fun _ => trivial⟩

theorem aside_refreshExecutionsOfGroups (context : LiveContext)
    (groups : List (InstrumentId × List PendingUnknownCommand)) :
    Aside (refreshExecutionsOfGroups context groups).run := by
  induction groups with
  | nil => exact aside_return ()
  | cons group groups ih =>
    refine fun τ => ⟨id, fun spec => ?_⟩
    cases spec with
    | none => exact ih _
    | some spec =>
      exact (aside_refreshRecentExecutionHistory context group.1 group.2).attempt
        (fun _ => (aside_write _).attempt fun _ => ih) _

theorem spec_refreshExecutionRepairEvidence :
    (refreshExecutionRepairEvidence context).run.Spec ReconcileCall (fun _ _ => True) τ :=
  ⟨trivial, fun _ => ⟨trivial, fun _ =>
    ((aside_refreshExecutionsOfGroups context _).spec _).mono (fun _ _ hq => hq)
      fun _ _ _ => trivial⟩⟩

/-- A step of a reconcile before it reads the list. -/
theorem spec_aside {α β : Type} {x : RuntimeE α} {f : α → RuntimeE β} (hx : Aside x.run)
    {Post : RuntimeTrace → Except MarketError β → Prop} (herror : ∀ τ e, Post τ (.error e))
    (hf : ∀ τ' a, SameLists τ τ' → (f a).run.Spec ReconcileCall Post τ') :
    (x >>= f).run.Spec ReconcileCall Post τ := by
  refine Prog.spec_attempt ((hx.spec τ).mono (fun _ _ hq => hq) fun τ' r hτ' => ?_)
  cases r with
  | ok a => exact hf τ' a hτ'
  | error e => exact herror τ' e

/-- A read of the engine state is followed by the rest, whatever it finds. -/
theorem spec_read_attempt {α : Type} {G : RuntimeTrace → RuntimeCall → Prop}
    {Post : RuntimeTrace → Except MarketError α → Prop} {what : StateRead}
    {f : what.Output → RuntimeE α} (hread : G τ (.read what))
    (h : ∀ found, (f found).run.Spec G Post (⟨.read what, found⟩ :: τ)) :
    Prog.Spec G Post ((liftM (RuntimeM.read what) : RuntimeE what.Output) >>= f).run τ :=
  ⟨hread, h⟩

/-- The task has read no pending command, and written nothing back. -/
def NothingRead (τ : RuntimeTrace) : Prop := snapshotOf τ = [] ∧ unresolvedOf τ = []

theorem NothingRead.resolves (h : NothingRead τ) : Resolves τ (.ok 0) := by
  have hleft : leftOf τ = [] := by
    refine List.eq_nil_iff_forall_not_mem.2 fun c hc => ?_
    have hmem := mem_snapshotOf hc
    rw [h.1] at hmem
    exact List.not_mem_nil hmem
  rintro n ⟨⟩
  rw [h.2, hleft]
  exact ⟨.refl _, rfl⟩

theorem spec_reconcileSteps (trigger : ReconcileTrigger) (mode : PrivateReconcileMode)
    (hmode : mode = .snapshotOnly → NothingRead τ) :
    (reconcileSteps context trigger mode).run.Spec ReconcileCall Resolves τ := by
  refine spec_aside (aside_refreshAccount context) (fun _ => .error) fun τ₁ _ h₁ => ?_
  refine spec_aside (aside_refreshPositions context) (fun _ => .error) fun τ₂ _ h₂ => ?_
  refine spec_aside (aside_refreshOpenOrders context none) (fun _ => .error) fun τ₃ _ h₃ => ?_
  cases mode with
  | snapshotOnly =>
    obtain ⟨hread, hwritten⟩ := hmode rfl
    have hnothing : NothingRead τ₃ :=
      ⟨by rw [h₃.1, h₂.1, h₁.1, hread], by rw [h₃.2, h₂.2, h₁.2, hwritten]⟩
    exact hnothing.resolves
  | recentHistoryRepair =>
    refine spec_read_attempt trivial fun health => ?_
    cases executionRepairScope trigger health with
    | pendingUnknownOnly => exact spec_resolvePendingUnknownCommands _
    | localEvidence =>
      refine Prog.spec_attempt (spec_refreshExecutionRepairEvidence.mono (fun _ _ hq => hq) ?_)
      intro τ r _
      cases r with
      | error e => exact .error e
      | ok _ => exact spec_resolvePendingUnknownCommands τ

theorem spec_chooseReconcileMode (trigger : ReconcileTrigger) :
    (chooseReconcileMode trigger).Spec ReconcileCall
      (fun τ mode => mode = .snapshotOnly → NothingRead τ) τ := by
  cases trigger with
  | periodic =>
    refine ⟨trivial, fun pending => ⟨trivial, fun health hmode => ⟨?_, rfl⟩⟩⟩
    have hneeds : needsRecentHistoryRepair health pending.length ≠ true := by
      intro hneeds
      simp [reconcileMode, hneeds] at hmode
    rw [Ne, needsRecentHistoryRepair_iff, not_or] at hneeds
    exact List.length_eq_zero_iff.1 (Nat.eq_zero_of_not_pos hneeds.1)
  | manual => nofun
  | reconnect => nofun
  | sequenceGap => nofun
  | unknownExecution => nofun

theorem reconcileReport_synchronized_iff {trigger : ReconcileTrigger} {repairedAt : TimestampMs}
    {mode : PrivateReconcileMode} {n : Nat} :
    (reconcileReport trigger repairedAt mode (.ok n)).outcome = .synchronized ↔ n = 0 := by
  cases n with
  | zero => exact iff_of_true rfl rfl
  | succ n => exact iff_of_false nofun nofun

/-- What a reconcile reports is what the replies leave, and it is synchronized when that is
nothing. -/
def ReportsLeft (τ : RuntimeTrace) (result : Except MarketError ReconcileReport) : Prop :=
  ∀ report, result = .ok report → (unresolvedOf τ).Perm (leftOf τ) ∧
    (report.outcome = .synchronized ↔ unresolvedOf τ = [])

/-- **What a reconcile does**, whatever the replies are. -/
theorem spec_reconcilePrivate (trigger : ReconcileTrigger) (τ : RuntimeTrace) :
    (reconcilePrivate context trigger).run.Spec ReconcileCall ReportsLeft τ := by
  rw [reconcilePrivate, ExceptT.run_mk]
  refine Prog.spec_bind.2 ⟨trivial, fun now => Prog.spec_bind.2 ?_⟩
  refine (spec_chooseReconcileMode trigger).mono (fun _ _ hq => hq) fun τ mode hmode => ?_
  refine Prog.spec_bind.2 ((spec_reconcileSteps trigger mode hmode).mono (fun _ _ hq => hq) ?_)
  intro τ result hresult
  refine ⟨trivial, fun _ report hreport => ?_⟩
  cases result with
  | error e => cases hreport
  | ok n =>
    cases hreport
    obtain ⟨hperm, hn⟩ := hresult n rfl
    rw [unresolvedOf_cons _ _ rfl, leftOf_cons _ _ rfl, reconcileReport_synchronized_iff, hn]
    exact ⟨hperm, List.length_eq_zero_iff⟩

/-! ### Sound recovery -/

end BatMarkets
