import BatMarkets.Transition.Basic

/-!
# Leases granted over a queue

A server keeps the set of the leases it has granted (`LeaseServer`).  A client takes a number, sends
its request to the queue of the server, waits for the answer, and has its lease once it has read a
granting answer; it gives the lease back by sending its number again.  A client that waits may be
dropped at any time.

The server learns nothing of a client that is dropped, so it may grant a lease that nobody has.

## Main results

* `active_of_queue_empty` : when the queue is empty, the leases of the server are those that clients
  hold, those whose answer has not been read yet, and those that are lost: granted to a client that
  was dropped before it read the answer.
* `Lost.next` : a lost lease stays lost, and the server never takes it back.
* `lost_eq_empty` : no lease is lost in a run in which no client is dropped between its request and
  a granting answer.
-/

namespace Interleaving

open Transition

/-- A server that keeps the leases it has granted.  What `O` says about the outside decides together
with its state whether it grants one. -/
structure LeaseServer (H Req O : Type) where
  init : H
  acquire : O → H → ℕ → Req → Bool × H
  release : O → H → ℕ → H
  active : H → Set ℕ
  active_init : active init = ∅
  active_acquire : ∀ o h id req, active (acquire o h id req).2 =
    if (acquire o h id req).1 = true then insert id (active h) else active h
  active_release : ∀ o h id, active (release o h id) = active h \ {id}

namespace Leases

variable {H Req O : Type}

/-- What clients send to the server. -/
inductive Command (Req : Type)
  | acquire (id : ℕ) (req : Req)
  | release (id : ℕ)

/-- The lease that a command is about. -/
def Command.id : Command Req → ℕ
  | .acquire id _ => id
  | .release id => id

/-- Where a client is. -/
inductive Client (Req : Type)
  /-- It has its number, and has not sent its request. -/
  | called (req : Req)
  /-- It has sent its request. -/
  | waiting
  /-- The answer has arrived, and it has not read it. -/
  | answered (granted : Bool)
  /-- It has read a refusal. -/
  | failed
  /-- It has its lease. -/
  | holding
  /-- It has given its lease back. -/
  | released
  /-- It was dropped before it read the answer, which may have come or not. -/
  | dropped (answer : Option Bool)

/-- The answer of the server reaches a client that waits; for one that was dropped, it is only
noted. -/
def Client.answer (granted : Bool) : Client Req → Client Req
  | .waiting => .answered granted
  | .dropped none => .dropped (some granted)
  | c => c

/-- The server, what is on its way to it, and the clients by their numbers. -/
structure State (H Req : Type) where
  server : H
  queue : List (Command Req) := []
  clients : List (Client Req) := []

/-- What may happen next. -/
inductive Step (Req O : Type)
  /-- A client takes the next number. -/
  | call (req : Req)
  /-- Client `id` sends its request. -/
  | send (id : ℕ)
  /-- The server handles the first command of its queue. -/
  | turn (outside : O)
  /-- Client `id` reads its answer. -/
  | resume (id : ℕ)
  /-- Client `id` is dropped while it waits. -/
  | cancel (id : ℕ)
  /-- Client `id` gives its lease back. -/
  | drop (id : ℕ)

variable (S : LeaseServer H Req O)

/-- A step that is not possible changes nothing. -/
def next (s : State H Req) : Step Req O → State H Req
  | .call req => { s with clients := s.clients ++ [.called req] }
  | .send id =>
    match s.clients[id]? with
    | some (.called req) =>
      { s with queue := s.queue ++ [.acquire id req], clients := s.clients.set id .waiting }
    | _ => s
  | .turn outside =>
    match s.queue with
    | [] => s
    | .acquire id req :: queue =>
      { server := (S.acquire outside s.server id req).2, queue,
        clients := s.clients.modify id (·.answer (S.acquire outside s.server id req).1) }
    | .release id :: queue => { s with server := S.release outside s.server id, queue }
  | .resume id =>
    match s.clients[id]? with
    | some (.answered true) => { s with clients := s.clients.set id .holding }
    | some (.answered false) => { s with clients := s.clients.set id .failed }
    | _ => s
  | .cancel id =>
    match s.clients[id]? with
    | some .waiting => { s with clients := s.clients.set id (.dropped none) }
    | some (.answered granted) => { s with clients := s.clients.set id (.dropped (some granted)) }
    | _ => s
  | .drop id =>
    match s.clients[id]? with
    | some .holding =>
      { s with queue := s.queue ++ [.release id], clients := s.clients.set id .released }
    | _ => s

/-- Before any client has called. -/
def init : State H Req := { server := S.init }

/-- The leases that clients have. -/
def State.live (s : State H Req) : Set ℕ := {id | s.clients[id]? = some .holding}

/-- The leases whose answer has arrived and has not been read. -/
def State.unread (s : State H Req) : Set ℕ := {id | s.clients[id]? = some (.answered true)}

/-- The leases granted to a client that was dropped before it read the answer. -/
def State.lost (s : State H Req) : Set ℕ := {id | s.clients[id]? = some (.dropped (some true))}

/-! ### The invariant -/

/-- What the server and the queue know of a client, by where it is: `granted` says that the server
has its lease, `commands` are the commands about it. -/
def Fits (id : ℕ) (granted : Prop) (commands : List (Command Req)) : Option (Client Req) → Prop
  | none | some (.called _) | some .failed => ¬granted ∧ commands = []
  | some .waiting | some (.dropped none) => ¬granted ∧ ∃ req, commands = [.acquire id req]
  | some (.answered answer) | some (.dropped (some answer)) =>
    (granted ↔ answer = true) ∧ commands = []
  | some .holding => granted ∧ commands = []
  | some .released => granted ∧ commands = [.release id] ∨ ¬granted ∧ commands = []

/-- The commands about a client. -/
def State.about (s : State H Req) (id : ℕ) : List (Command Req) := s.queue.filter (·.id = id)

/-- The server and the queue know of every client what they should. -/
def Consistent (s : State H Req) : Prop :=
  ∀ id, Fits id (id ∈ S.active s.server) (s.about id) s.clients[id]?

variable {S} {s : State H Req} {id : ℕ}

/-- A step that only moves one client, and may add a command about it. -/
theorem Consistent.move (h : Consistent S s) {c c' : Client Req} {commands : List (Command Req)}
    (hc : s.clients[id]? = some c) (hcommands : ∀ x ∈ commands, x.id = id)
    (hfits : Fits id (id ∈ S.active s.server) (s.about id) (some c) →
      Fits id (id ∈ S.active s.server) (s.about id ++ commands) (some c')) :
    Consistent S { s with queue := s.queue ++ commands, clients := s.clients.set id c' } := by
  intro j
  have habout : State.about
      { s with queue := s.queue ++ commands, clients := s.clients.set id c' } j =
        s.about j ++ if j = id then commands else [] := by
    simp only [State.about, List.filter_append]
    congr 1
    split
    · next hj => exact List.filter_eq_self.2 fun x hx => by simp [hcommands x hx, hj]
    · next hj => exact List.filter_eq_nil_iff.2 fun x hx => by simp [hcommands x hx, Ne.symm hj]
  rw [habout]
  by_cases hj : j = id
  · subst hj
    rw [if_pos rfl]
    simp only [List.getElem?_set_self (List.getElem?_eq_some_iff.1 hc).1]
    exact hfits (hc ▸ h j)
  · rw [if_neg hj, List.append_nil]
    simp only [List.getElem?_set_ne (Ne.symm hj)]
    exact h j

/-- A step that only moves one client. -/
theorem Consistent.moveQuietly (h : Consistent S s) {c c' : Client Req}
    (hc : s.clients[id]? = some c)
    (hfits : Fits id (id ∈ S.active s.server) (s.about id) (some c) →
      Fits id (id ∈ S.active s.server) (s.about id) (some c')) :
    Consistent S { s with clients := s.clients.set id c' } := by
  have hmove : Consistent S { s with queue := s.queue ++ [], clients := s.clients.set id c' } :=
    h.move hc (by simp) (by simpa using hfits)
  rwa [List.append_nil] at hmove

/-- A turn of the server that handles a command about a client. -/
theorem Consistent.turn (h : Consistent S s) {c : Command Req} {queue : List (Command Req)}
    (hqueue : s.queue = c :: queue) {server : H} {clients : List (Client Req)}
    (hactive : ∀ j, j ≠ c.id → (j ∈ S.active server ↔ j ∈ S.active s.server))
    (hclients : ∀ j, j ≠ c.id → clients[j]? = s.clients[j]?)
    (hfits : ∀ commands, Fits c.id (c.id ∈ S.active s.server) (c :: commands) s.clients[c.id]? →
      Fits c.id (c.id ∈ S.active server) commands clients[c.id]?) :
    Consistent S ⟨server, queue, clients⟩ := by
  intro j
  have hj := h j
  simp only [State.about, hqueue, List.filter_cons, decide_eq_true_eq] at hj
  by_cases hid : c.id = j
  · subst hid
    rw [if_pos rfl] at hj
    exact hfits _ hj
  · rw [if_neg hid] at hj
    have hne : j ≠ c.id := fun heq => hid heq.symm
    show Fits j (j ∈ S.active server) _ clients[j]?
    rw [hclients j hne, propext (hactive j hne)]
    exact hj

theorem consistent_init : Consistent S (init S) := by
  intro id
  refine ⟨?_, rfl⟩
  show id ∉ S.active S.init
  rw [S.active_init]
  exact Set.notMem_empty id

/-- **One step** keeps server, queue and clients consistent. -/
theorem Consistent.next (h : Consistent S s) (step : Step Req O) :
    Consistent S (next S s step) := by
  cases step with
  | call req =>
    intro id
    have hid := h id
    show Fits id (id ∈ S.active s.server) (s.about id) (s.clients ++ [.called req])[id]?
    -- only the entry of the new client changes, and nothing of it is in the queue
    rcases Nat.lt_trichotomy id s.clients.length with hlt | heq | hgt
    · rwa [List.getElem?_append_left hlt]
    · rw [List.getElem?_eq_none_iff.2 heq.ge] at hid
      subst heq
      rw [List.getElem?_concat_length]
      exact hid
    · rw [List.getElem?_eq_none_iff.2 hgt.le] at hid
      rwa [List.getElem?_eq_none_iff.2 (by simp; omega)]
  | send id =>
    simp only [Leases.next]
    split
    · next req hc =>
      refine h.move hc (by simp [Command.id]) ?_
      rintro ⟨hfree, hnone⟩
      exact ⟨hfree, req, by rw [hnone, List.nil_append]⟩
    · exact h
  | turn outside =>
    simp only [Leases.next]
    split
    · exact h
    · next id req queue hqueue =>
      have hact := S.active_acquire outside s.server id req
      generalize S.acquire outside s.server id req = reply at hact
      obtain ⟨granted, server⟩ := reply
      simp only at hact ⊢
      refine h.turn hqueue (fun j hj => ?_) (fun j hj => ?_) (fun commands hfits => ?_)
      · rw [hact]
        split
        · exact ⟨fun hmem => hmem.resolve_left hj, .inr⟩
        · rfl
      · rw [List.getElem?_modify_ne]
        exact Ne.symm hj
      · -- the command is there because the client waits, or waited when it was dropped
        have hafter : id ∉ S.active s.server → (id ∈ S.active server ↔ granted = true) := by
          intro hfree
          rw [hact]
          cases granted with
          | true => simp
          | false => simpa using hfree
        simp only [Command.id] at hfits ⊢
        rw [List.getElem?_modify_eq]
        cases hc : s.clients[id]? with
        | none => rw [hc] at hfits; cases hfits.2
        | some c =>
          rw [hc] at hfits
          cases c with
          | called req' => cases hfits.2
          | failed => cases hfits.2
          | holding => cases hfits.2
          | answered granted' => cases hfits.2
          | released => rcases hfits with ⟨-, hcs⟩ | ⟨-, hcs⟩ <;> cases hcs
          | waiting =>
            obtain ⟨hfree, req', hcs⟩ := hfits
            cases hcs
            exact ⟨hafter hfree, rfl⟩
          | dropped answer =>
            cases answer with
            | some granted' => cases hfits.2
            | none =>
              obtain ⟨hfree, req', hcs⟩ := hfits
              cases hcs
              exact ⟨hafter hfree, rfl⟩
    · next id queue hqueue =>
      -- the release is the last command of its client
      have hact := S.active_release outside s.server id
      refine h.turn hqueue (fun j hj => ?_) (fun j hj => rfl) (fun commands hfits => ?_)
      · rw [hact]
        exact ⟨fun hmem => hmem.1, fun hmem => ⟨hmem, hj⟩⟩
      · have hfree : id ∉ S.active (S.release outside s.server id) := by simp [hact]
        simp only [Command.id] at hfits ⊢
        cases hc : s.clients[id]? with
        | none => rw [hc] at hfits; cases hfits.2
        | some c =>
          rw [hc] at hfits
          cases c with
          | released =>
            rcases hfits with ⟨-, hcs⟩ | ⟨-, hcs⟩
            · cases hcs
              exact .inr ⟨hfree, rfl⟩
            · cases hcs
          | waiting => obtain ⟨-, req', hcs⟩ := hfits; cases hcs
          | called req' => cases hfits.2
          | failed => cases hfits.2
          | holding => cases hfits.2
          | answered granted' => cases hfits.2
          | dropped answer =>
            cases answer with
            | some granted' => cases hfits.2
            | none => obtain ⟨-, req', hcs⟩ := hfits; cases hcs
  | resume id =>
    simp only [Leases.next]
    split
    · next hc => exact h.moveQuietly hc fun hfits => ⟨hfits.1.2 rfl, hfits.2⟩
    · next hc => exact h.moveQuietly hc fun hfits => ⟨by simp [hfits.1], hfits.2⟩
    · exact h
  | cancel id =>
    simp only [Leases.next]
    split
    · next hc => exact h.moveQuietly hc fun hfits => hfits
    · next hc => exact h.moveQuietly hc fun hfits => hfits
    · exact h
  | drop id =>
    simp only [Leases.next]
    split
    · next hc =>
      refine h.move hc (by simp [Command.id]) ?_
      rintro ⟨hgranted, hnone⟩
      exact .inl ⟨hgranted, by rw [hnone, List.nil_append]⟩
    · exact h

theorem consistent_of_visited {steps : List (Step Req O)}
    (h : Visited (next S) (init S) steps s) : Consistent S s :=
  h.invariant (fun _ _ hs => hs.next _) consistent_init

/-- **When the queue is empty**, the leases of the server are those that clients have, those whose
answer is still to be read, and the lost ones. -/
theorem active_of_queue_empty (h : Consistent S s) (hqueue : s.queue = []) :
    S.active s.server = s.live ∪ s.unread ∪ s.lost := by
  ext id
  have hid := h id
  have habout : s.about id = [] := by rw [State.about, hqueue, List.filter_nil]
  rw [habout] at hid
  simp only [Set.mem_union, State.live, State.unread, State.lost, Set.mem_ofPred_eq]
  cases hc : s.clients[id]? with
  | none => rw [hc] at hid; simpa using hid.1
  | some c =>
    rw [hc] at hid
    cases c with
    | called req => simpa using hid.1
    | failed => simpa using hid.1
    | holding => simpa using hid.1
    | waiting => obtain ⟨-, req, hreq⟩ := hid; cases hreq
    | answered granted => simpa using hid.1
    | released =>
      rcases hid with ⟨-, hcs⟩ | ⟨hfree, -⟩
      · cases hcs
      · simpa using hfree
    | dropped answer =>
      cases answer with
      | none => obtain ⟨-, req, hreq⟩ := hid; cases hreq
      | some granted => simpa using hid.1

/-! ### Lost leases -/

/-- A lost lease is one of the server. -/
theorem Consistent.lost_subset (h : Consistent S s) : s.lost ⊆ S.active s.server := by
  intro id hid
  have hfits := h id
  rw [show s.clients[id]? = _ from hid] at hfits
  exact hfits.1.2 rfl

/-- What a step makes of client `id`. -/
inductive Moves (id : ℕ) : Step Req O → Client Req → Client Req → Prop
  | send {req : Req} : Moves id (.send id) (.called req) .waiting
  | turn {outside : O} {c : Client Req} (granted : Bool) :
      Moves id (.turn outside) c (c.answer granted)
  | accept : Moves id (.resume id) (.answered true) .holding
  | refuse : Moves id (.resume id) (.answered false) .failed
  | cancelWaiting : Moves id (.cancel id) .waiting (.dropped none)
  | cancelAnswered {granted : Bool} :
      Moves id (.cancel id) (.answered granted) (.dropped (some granted))
  | drop : Moves id (.drop id) .holding .released

/-- What a step makes of the entry `id` of the clients. -/
inductive Evolves (id : ℕ) (step : Step Req O) : Option (Client Req) → Option (Client Req) → Prop
  | same (c : Option (Client Req)) : Evolves id step c c
  | fresh (req : Req) : Evolves id step none (some (.called req))
  | move {c c' : Client Req} : Moves id step c c' → Evolves id step (some c) (some c')

theorem evolves_next (s : State H Req) (step : Step Req O) (id : ℕ) :
    Evolves id step s.clients[id]? (next S s step).clients[id]? := by
  have hset : ∀ {j : ℕ} {c c' : Client Req}, s.clients[j]? = some c →
      (j = id → Moves id step c c') → Evolves id step s.clients[id]? (s.clients.set j c')[id]? := by
    intro j c c' hc hmove
    by_cases hj : j = id
    · subst hj
      rw [List.getElem?_set_self (List.getElem?_eq_some_iff.1 hc).1, hc]
      exact .move (hmove rfl)
    · rw [List.getElem?_set_ne hj]
      exact .same _
  -- each step sets the entry of one client and leaves the others
  cases step with
  | call req =>
    show Evolves id _ s.clients[id]? (s.clients ++ [.called req])[id]?
    rcases Nat.lt_trichotomy id s.clients.length with hlt | heq | hgt
    · rw [List.getElem?_append_left hlt]
      exact .same _
    · subst heq
      rw [List.getElem?_concat_length, List.getElem?_eq_none_iff.2 le_rfl]
      exact .fresh req
    · rw [List.getElem?_eq_none_iff.2 hgt.le, List.getElem?_eq_none_iff.2 (by simp; omega)]
      exact .same _
  | send j =>
    simp only [Leases.next]
    split
    · next hc => exact hset hc fun hj => hj ▸ .send
    · exact .same _
  | turn outside =>
    simp only [Leases.next]
    split
    · exact .same _
    · next j req queue _ =>
      rw [List.getElem?_modify]
      by_cases hj : j = id
      · cases s.clients[id]? with
        | none => exact .same _
        | some c => simpa [hj] using Evolves.move (.turn _)
      · simpa [hj] using Evolves.same _
    · exact .same _
  | resume j =>
    simp only [Leases.next]
    split
    · next hc => exact hset hc fun hj => hj ▸ .accept
    · next hc => exact hset hc fun hj => hj ▸ .refuse
    · exact .same _
  | cancel j =>
    simp only [Leases.next]
    split
    · next hc => exact hset hc fun hj => hj ▸ .cancelWaiting
    · next hc => exact hset hc fun hj => hj ▸ .cancelAnswered
    · exact .same _
  | drop j =>
    simp only [Leases.next]
    split
    · next hc => exact hset hc fun hj => hj ▸ .drop
    · exact .same _

/-- A lost lease stays lost. -/
theorem lost_next (s : State H Req) (step : Step Req O) : s.lost ⊆ (next S s step).lost := by
  intro id hid
  have hev := evolves_next (S := S) s step id
  rw [show s.clients[id]? = some (.dropped (some true)) from hid] at hev
  show (next S s step).clients[id]? = _
  generalize (next S s step).clients[id]? = c at hev
  cases hev with
  | same => rfl
  | move hmove => cases hmove; rfl

/-- The step drops no client between its request and a granting answer. -/
def InTime (s : State H Req) : Step Req O → Prop
  | .cancel id => s.clients[id]? ≠ some .waiting ∧ s.clients[id]? ≠ some (.answered true)
  | .call _ | .send _ | .turn _ | .resume _ | .drop _ => True

/-- No client was dropped before a granting answer could reach it. -/
def NoneDropped (s : State H Req) : Prop :=
  ∀ id : ℕ, s.clients[id]? ≠ some (.dropped none) ∧ s.clients[id]? ≠ some (.dropped (some true))

theorem NoneDropped.next (h : NoneDropped s) {step : Step Req O} (hin : InTime s step) :
    NoneDropped (Leases.next S s step) := by
  intro id
  have hid := h id
  have hev := evolves_next (S := S) s step id
  generalize (Leases.next S s step).clients[id]? = c' at hev ⊢
  generalize hc : s.clients[id]? = c at hev hid
  cases hev with
  | same => exact hid
  | fresh req => exact ⟨nofun, nofun⟩
  | @move c c' hmove =>
    cases hmove with
    | turn granted =>
      -- an answer makes nobody dropped who was not
      cases c with
      | dropped answer =>
        cases answer with
        | none => exact absurd rfl hid.1
        | some granted => exact hid
      | waiting => exact ⟨nofun, nofun⟩
      | called => exact hid
      | answered => exact hid
      | failed => exact hid
      | holding => exact hid
      | released => exact hid
    | cancelWaiting => exact absurd hc hin.1
    | @cancelAnswered granted =>
      cases granted with
      | true => exact absurd hc hin.2
      | false => exact ⟨nofun, nofun⟩
    | send | accept | refuse | drop => exact ⟨nofun, nofun⟩

/-- **No lease is lost** in a run in which no client is dropped between its request and a granting
answer. -/
theorem lost_eq_empty {steps : List (Step Req O)} (h : Visited (next S) (init S) steps s)
    (hin : StepsMeet (next S) InTime (init S) steps) : s.lost = ∅ := by
  have hnone : NoneDropped s :=
    h.invariant_of_stepsMeet (fun s step hs hok => hs.next hok) hin fun id => ⟨nofun, nofun⟩
  exact Set.eq_empty_iff_forall_notMem.2 fun id => (hnone id).2

/-- A property of the server that its turns keep. -/
theorem server_invariant {P : H → Prop} (hinit : P S.init)
    (hacquire : ∀ o h id req, P h → P (S.acquire o h id req).2)
    (hrelease : ∀ o h id, P h → P (S.release o h id)) {steps : List (Step Req O)}
    (h : Visited (next S) (init S) steps s) : P s.server := by
  refine h.invariant (I := fun s => P s.server) (fun s step hs => ?_) hinit
  cases step with
  | call req => exact hs
  | send id | resume id | cancel id | drop id =>
    simp only [Leases.next]
    split <;> exact hs
  | turn outside =>
    simp only [Leases.next]
    split
    · exact hs
    · exact hacquire _ _ _ _ hs
    · exact hrelease _ _ _ hs

end Leases

end Interleaving
