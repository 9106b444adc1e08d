import BatMarkets.Interleaving.Leases
import BatMarkets.Runtime.Subscriptions

/-!
# The leases of the subscription hubs

`acquire` (`subscriptions.rs`) takes a lease number, sends a command to the queue of the hub and
waits for the answer; only then is there a lease value, whose `drop` sends the release.  Both hubs
are servers in the sense of `Interleaving.LeaseServer`, and any number of clients may call them.

A future that is dropped between its command and the answer leaves no lease value behind, and the
hub ignores that its answer was not received.

## Main results

* `no_leaked_lease` : in a run in which no such future is dropped, when the queue is empty and every
  answer has been read, the hub has exactly the leases that are alive, and a stream runs only for
  one of them.
* `dropped_acquire_leaks_lease` : a future dropped after its command leaves a lease, and a stream,
  that nobody has.
-/

namespace BatMarkets

open Interleaving Interleaving.Leases Ordered Std Transition

/-! ### The private hub -/

/-- The hub of the private stream, which runs as long as there is a lease. -/
structure PrivateHub where
  active : BTreeSet ℕ := ∅
  currentStream : Option ℕ := none
  tasks : StreamTasks := {}

namespace PrivateHub

/-- `spawn` is the error with which `spawn_private_stream` ends, if it does. -/
def acquire (spawn : Option MarketError) (hub : PrivateHub) (leaseId : ℕ) :
    Except MarketError Unit × PrivateHub :=
  match hub.currentStream with
  | some _ => (.ok (), { hub with active := hub.active.insert leaseId })
  | none =>
    match spawn with
    | some error => (.error error, hub)
    | none =>
      (.ok (),
        { active := hub.active.insert leaseId
          currentStream := some hub.tasks.spawned
          tasks := { hub.tasks with spawned := hub.tasks.spawned + 1 } })

/-- A lease is given back; the last one ends the stream. -/
def release (hub : PrivateHub) (leaseId : ℕ) : PrivateHub :=
  if leaseId ∈ hub.active then
    let active := hub.active.erase leaseId
    if active.isEmpty then
      match hub.currentStream with
      | some stream => { active, currentStream := none, tasks := hub.tasks.abort stream }
      | none => { hub with active }
    else { hub with active }
  else hub

theorem acquire_cases (spawn : Option MarketError) (hub : PrivateHub) (leaseId : ℕ) :
    (∃ stream tasks, hub.acquire spawn leaseId =
        (.ok (), ⟨hub.active.insert leaseId, some stream, tasks⟩)) ∨
      ∃ error, hub.acquire spawn leaseId = (.error error, hub) := by
  simp only [acquire]
  cases hstream : hub.currentStream with
  | some stream => exact .inl ⟨stream, _, rfl⟩
  | none =>
    cases spawn with
    | none => exact .inl ⟨_, _, rfl⟩
    | some error => exact .inr ⟨error, rfl⟩

theorem mem_active_release (hub : PrivateHub) (leaseId id : ℕ) :
    id ∈ (hub.release leaseId).active ↔ id ∈ hub.active ∧ id ≠ leaseId := by
  have herase : id ∈ hub.active.erase leaseId ↔ id ∈ hub.active ∧ id ≠ leaseId := by
    rw [mem_erase_set, and_comm, ne_comm]
  simp only [release]
  split
  · split
    · split <;> exact herase
    · exact herase
  · next hmem => exact ⟨fun hid => ⟨hid, fun heq => hmem (heq ▸ hid)⟩, And.left⟩

/-- The private stream runs while there is a lease. -/
def RunsForLeases (hub : PrivateHub) : Prop := hub.currentStream.isSome ↔ ∃ id, id ∈ hub.active

theorem runsForLeases_new : RunsForLeases {} := by
  refine iff_of_false nofun ?_
  rintro ⟨id, hid⟩
  simp at hid

theorem runsForLeases_acquire {hub : PrivateHub} (h : hub.RunsForLeases)
    (spawn : Option MarketError) (leaseId : ℕ) : (hub.acquire spawn leaseId).2.RunsForLeases := by
  rcases acquire_cases spawn hub leaseId with ⟨stream, tasks, heq⟩ | ⟨error, heq⟩
  · rw [heq]
    exact iff_of_true rfl ⟨leaseId, ExtTreeSet.mem_insert_self⟩
  · rw [heq]
    exact h

theorem runsForLeases_release {hub : PrivateHub} (h : hub.RunsForLeases) (leaseId : ℕ) :
    (hub.release leaseId).RunsForLeases := by
  simp only [release]
  split
  · next hmem =>
    split
    · next hempty =>
      have hnone : ¬∃ id, id ∈ hub.active.erase leaseId := by
        rintro ⟨id, hid⟩
        rw [ExtTreeSet.isEmpty_iff.1 hempty] at hid
        simp at hid
      split
      · exact iff_of_false nofun hnone
      · next hstream => exact iff_of_false (by simp [hstream]) hnone
    · next hempty =>
      have hsome : hub.currentStream.isSome := h.2 ⟨leaseId, hmem⟩
      refine iff_of_true hsome ?_
      by_contra hnone
      push Not at hnone
      refine hempty (ExtTreeSet.isEmpty_iff.2 (ExtTreeSet.ext_mem fun id => ?_))
      exact iff_of_false (hnone id) (by simp)
  · exact h

end PrivateHub

/-! ### The hubs as servers of leases -/

/-- The answer grants the lease. -/
def granted : Except MarketError Unit → Bool
  | .ok _ => true
  | .error _ => false

/-- The hub of the private stream as a server of leases. -/
def privateServer : LeaseServer PrivateHub Unit (Option MarketError) where
  init := {}
  acquire spawn hub leaseId _ :=
    (granted (hub.acquire spawn leaseId).1, (hub.acquire spawn leaseId).2)
  release _ hub leaseId := hub.release leaseId
  active hub := {id | id ∈ hub.active}
  active_init := by
    ext id
    simp
  active_acquire spawn hub leaseId _ := by
    rcases PrivateHub.acquire_cases spawn hub leaseId with ⟨stream, tasks, heq⟩ | ⟨error, heq⟩
    · rw [heq]
      ext id
      exact mem_insert_set.trans (or_congr_left eq_comm)
    · rw [heq]
      rfl
  active_release _ hub leaseId := by
    ext id
    exact hub.mem_active_release leaseId id

/-- The hub of the public streams as a server of leases. -/
def publicServer (venue : Venue) : LeaseServer PublicHub PublicSubscription SpawnOutcome where
  init := {}
  acquire spawn hub leaseId subscription :=
    let answer := hub.handle venue spawn
      (.acquire leaseId (normalizePublicSubscription subscription))
    (answer.1.any granted, answer.2)
  release spawn hub leaseId := (hub.handle venue spawn (.release leaseId)).2
  active hub := {id | id ∈ hub.active}
  active_init := by
    ext id
    simp
  active_acquire spawn hub leaseId subscription := by
    rcases PublicHub.handle_acquire_cases venue spawn hub leaseId
      (normalizePublicSubscription subscription) with ⟨hub', heq, hactive⟩ | ⟨error, tasks, heq⟩
    · rw [heq]
      ext id
      show id ∈ hub'.active ↔ _
      rw [hactive]
      exact mem_insert_iff.trans (or_congr_left eq_comm)
    · rw [heq]
      rfl
  active_release spawn hub leaseId := by
    ext id
    exact PublicHub.mem_active_release venue spawn hub leaseId id

/-! ### Streams run for leases -/

namespace PublicHub

variable {venue : Venue} {hub : PublicHub}

/-- Without leases there is no plan. -/
def IdleEmpty (hub : PublicHub) : Prop := (∀ id, id ∉ hub.active) → hub.currentSubscriptions = ∅

theorem idleEmpty_acquire (h : hub.IdleEmpty) (spawn : SpawnOutcome) (leaseId : ℕ)
    (subscription : PublicSubscription) :
    (hub.handle venue spawn (.acquire leaseId subscription)).2.IdleEmpty := by
  rcases handle_acquire_cases venue spawn hub leaseId subscription with
    ⟨hub', heq, hactive⟩ | ⟨error, tasks, heq⟩
  · rw [heq]
    intro hnone
    exact absurd (hactive ▸ ExtTreeMap.mem_insert_self) (hnone leaseId)
  · rw [heq]
    exact h

theorem idleEmpty_release (h : hub.IdleEmpty) (spawn : SpawnOutcome) (leaseId : ℕ) :
    (hub.handle venue spawn (.release leaseId)).2.IdleEmpty := by
  simp only [handle]
  split
  · intro hnone
    simp only [switchPublicStream_active] at hnone
    have hempty : routePublicSubscriptions venue (vals (hub.active.erase leaseId)) = ∅ := by
      have hmerge : mergePublicSubscriptions (vals (hub.active.erase leaseId)) = none := by
        rw [mergePublicSubscriptions_eq_none]
        rintro ⟨s, hs, -⟩
        obtain ⟨k, hk⟩ := mem_vals.1 hs
        exact hnone k (ExtTreeMap.mem_iff_isSome_getElem?.2 (by rw [hk]; rfl))
      simp only [routePublicSubscriptions, hmerge]
    rw [hempty]
    exact switchPublicStream_empty _ _
  · exact h

/-- A stream runs only while there is a lease. -/
theorem exists_active_of_stream (hinv : Inv venue hub) (hidle : hub.IdleEmpty)
    {route : PublicStreamRoute} (hroute : route ∈ hub.currentStreams) :
    ∃ id, id ∈ hub.active := by
  by_contra hnone
  push Not at hnone
  rw [hinv.sameRoutes, hidle hnone] at hroute
  simp at hroute

end PublicHub

/-! ### Runs -/

section Runs

variable {H Req O : Type}

/-- The steps lead to the state, and no acquire future is dropped between its command and a granting
answer. -/
def TimelyRun (S : LeaseServer H Req O) (steps : List (Leases.Step Req O))
    (s : Leases.State H Req) : Prop :=
  Visited (Leases.next S) (Leases.init S) steps s ∧
    StepsMeet (Leases.next S) Leases.InTime (Leases.init S) steps

theorem TimelyRun.active_eq_live {S : LeaseServer H Req O} {steps : List (Leases.Step Req O)}
    {s : Leases.State H Req} (h : TimelyRun S steps s) (hqueue : s.queue = [])
    (hread : s.unread = ∅) : S.active s.server = s.live := by
  rw [active_of_queue_empty (consistent_of_visited h.1) hqueue, hread, lost_eq_empty h.1 h.2,
    Set.union_empty, Set.union_empty]

/-- A lost lease is never given back. -/
theorem lost_forever (S : LeaseServer H Req O) {steps : List (Leases.Step Req O)}
    {s : Leases.State H Req} (h : Visited (Leases.next S) (Leases.init S) steps s) {id : ℕ}
    (hid : id ∈ s.lost) (later : List (Leases.Step Req O)) :
    id ∈ S.active (run (Leases.next S) s later).server := by
  have hlater : Consistent S (run (Leases.next S) s later) ∧
      id ∈ (run (Leases.next S) s later).lost :=
    (visited_run s later).invariant (I := fun t => Consistent S t ∧ id ∈ t.lost)
      (fun t step ht => ⟨ht.1.next step, lost_next t step ht.2⟩) ⟨consistent_of_visited h, hid⟩
  exact hlater.1.lost_subset hlater.2

theorem publicHub_of_visited {venue : Venue}
    {steps : List (Leases.Step PublicSubscription SpawnOutcome)}
    {s : Leases.State PublicHub PublicSubscription}
    (h : Visited (Leases.next (publicServer venue)) (Leases.init (publicServer venue)) steps s) :
    PublicHub.Inv venue s.server ∧ s.server.IdleEmpty :=
  server_invariant (P := fun hub => PublicHub.Inv venue hub ∧ hub.IdleEmpty)
    ⟨PublicHub.inv_new venue, fun _ => rfl⟩
    (fun spawn _ id _ hh =>
      ⟨hh.1.next (.acquire id _, spawn), PublicHub.idleEmpty_acquire hh.2 spawn id _⟩)
    (fun spawn _ id hh =>
      ⟨hh.1.next (.release id, spawn), PublicHub.idleEmpty_release hh.2 spawn id⟩) h

theorem privateHub_of_visited {steps : List (Leases.Step Unit (Option MarketError))}
    {s : Leases.State PrivateHub Unit}
    (h : Visited (Leases.next privateServer) (Leases.init privateServer) steps s) :
    s.server.RunsForLeases :=
  server_invariant (P := PrivateHub.RunsForLeases) PrivateHub.runsForLeases_new
    (fun spawn _ id _ hh => PrivateHub.runsForLeases_acquire hh spawn id)
    (fun _ _ id hh => PrivateHub.runsForLeases_release hh id) h

end Runs

/-- **No leaked lease.**  In a run in which no acquire future is dropped between its command and a
granting answer, whenever the queue of a hub is empty and every answer has been read, the hub has
exactly the leases that are alive, and its streams run only if one is. -/
theorem no_leaked_lease (venue : Venue) :
    (∀ steps s, TimelyRun (publicServer venue) steps s → s.queue = [] → s.unread = ∅ →
      {id | id ∈ s.server.active} = s.live ∧
        ((∃ route, route ∈ s.server.currentStreams) → s.live.Nonempty)) ∧
    (∀ steps s, TimelyRun privateServer steps s → s.queue = [] → s.unread = ∅ →
      {id | id ∈ s.server.active} = s.live ∧
        (s.server.currentStream.isSome ↔ s.live.Nonempty)) := by
  constructor
  · intro steps s hrun hqueue hread
    have hlive : {id | id ∈ s.server.active} = s.live := hrun.active_eq_live hqueue hread
    obtain ⟨hinv, hidle⟩ := publicHub_of_visited hrun.1
    refine ⟨hlive, ?_⟩
    rintro ⟨route, hroute⟩
    rw [← hlive]
    exact PublicHub.exists_active_of_stream hinv hidle hroute
  · intro steps s hrun hqueue hread
    have hlive : {id | id ∈ s.server.active} = s.live := hrun.active_eq_live hqueue hread
    refine ⟨hlive, ?_⟩
    rw [← hlive]
    exact privateHub_of_visited hrun.1

/-- A future that is dropped after its command leaves a lease that nobody has. -/
theorem dropped_acquire_leaks_lease :
    ¬∀ steps s, Visited (Leases.next privateServer) (Leases.init privateServer) steps s →
      s.queue = [] → {id | id ∈ s.server.active} = s.live := by
  intro h
  have hleak := h [.call (), .send 0, .cancel 0, .turn none]
    (run (Leases.next privateServer) (Leases.init privateServer)
      [.call (), .send 0, .cancel 0, .turn none]) (visited_run _ _) rfl
  have hmem : (0 : ℕ) ∈ (run (Leases.next privateServer) (Leases.init privateServer)
      [.call (), .send 0, .cancel 0, .turn none]).live := by
    rw [← hleak]
    exact ExtTreeSet.mem_insert_self
  cases hmem

end BatMarkets
