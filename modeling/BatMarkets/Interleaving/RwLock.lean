import BatMarkets.Interleaving.Fixed

/-!
# A lock with readers and writers

An `RwLock` keeps a value behind guards: any number of read guards, or one writer.  A writer first
asks for the lock and then waits until no guard is left; while it waits, no new read guard is given.
So a thread that reads a second time before it has released its first guard may wait for a writer
that waits for that guard.

`Bracketed` programs take and release their guards in order.  In every interleaving of bracketed
programs the lock counts the guards and the waiting writers correctly (`Accounts`), and

* `Accounts.of_stuck` : they are stuck only when one thread waits to write and another reads again
  under a guard it holds.
* `not_stuck_of_reads_idle` : programs that never do so are never stuck.
* `exists_stuck` : conversely, a thread that reads again under its guard, while a writer is still to
  come, can be stuck, whatever the other threads do.
-/

namespace Interleaving

open Transition

/-- The lock: its value, the read guards given out, the writers that wait, and whether a writer has
it. -/
structure RwLock (D : Type) where
  data : D
  guards : ℕ := 0
  waiting : ℕ := 0
  held : Bool := false
  deriving DecidableEq

namespace RwLock

variable {D α : Type}

/-- What a thread may do with the lock.  `request` and `acquire` are the two halves of taking it for
writing. -/
inductive Call (D : Type)
  | read
  | release
  | request
  | acquire
  | write (d : D)
  | unlock

/-- Reading gives the value, the other calls give nothing. -/
abbrev Call.Reply : Call D → Type
  | .read => D
  | .release | .request | .acquire | .write _ | .unlock => Unit

/-- The reply to a call and the lock after it, or nothing when the call has to wait. -/
def answer (l : RwLock D) : (q : Call D) → Option (q.Reply × RwLock D)
  | .read =>
    if l.held = false ∧ l.waiting = 0 then some (l.data, { l with guards := l.guards + 1 })
    else none
  | .release => some ((), { l with guards := l.guards - 1 })
  | .request => some ((), { l with waiting := l.waiting + 1 })
  | .acquire =>
    if l.held = false ∧ l.guards = 0 then
      some ((), { l with waiting := l.waiting - 1, held := true })
    else none
  | .write d => some ((), { l with data := d })
  | .unlock => some ((), { l with held := false })

/-- Programs over the lock. -/
abbrev Code (D α : Type) := Prog (Call D) Call.Reply α

namespace Code

/-- Read, as a step of a program. -/
def read : Code D D := .call .read .ret

/-- Give a read lock back. -/
def release : Code D Unit := .call .release .ret

/-- Ask for the write lock. -/
def request : Code D Unit := .call .request .ret

/-- Take the write lock. -/
def acquire : Code D Unit := .call .acquire .ret

/-- Write under the lock. -/
def write (d : D) : Code D Unit := .call (.write d) .ret

/-- Give the write lock back. -/
def unlock : Code D Unit := .call .unlock .ret

end Code

/-- Threads over the lock. -/
abbrev Threads (D α : Type) := Pool (RwLock D) (Call D) Call.Reply α

/-- Nothing but the threads changes the lock. -/
def calls (D α : Type) : Interpretation (RwLock D) (Call D) Call.Reply α where
  start _ := False
  serve l q r l' := l.answer q = some (r, l')
  env _ _ := False

/-- The runs of the programs `ts` over a lock with the value `d`. -/
abbrev runs (d : D) (ts : List (Code D α)) : System (Threads D α) ℕ :=
  (calls D α).fixed { data := d } ts

/-! ### What a thread holds -/

/-- What a thread has of the lock: nothing, `n + 1` guards under the last of which it has read `d`,
a place among the waiting writers, or the lock. -/
inductive Hold (D : Type)
  | idle
  | reading (n : ℕ) (d : D)
  | waiting
  | writing

namespace Hold

/-- The read locks that are held. -/
def guards : Hold D → ℕ
  | .reading n _ => n + 1
  | .idle | .waiting | .writing => 0

/-- The requests for the write lock. -/
def waits : Hold D → ℕ
  | .waiting => 1
  | .idle | .reading _ _ | .writing => 0

/-- The write locks that are held. -/
def writes : Hold D → ℕ
  | .writing => 1
  | .idle | .reading _ _ | .waiting => 0

/-- The calls that a thread which keeps to the protocol may make next. -/
def Allows : Hold D → Call D → Prop
  | .idle, .read | .idle, .request => True
  | .reading _ _, .read | .reading _ _, .release => True
  | .waiting, .acquire => True
  | .writing, .write _ | .writing, .unlock => True
  | _, _ => False

/-- What a thread has after a call. -/
def next : Hold D → (q : Call D) → q.Reply → Hold D
  | .idle, .read, d => .reading 0 d
  | .reading n _, .read, d => .reading (n + 1) d
  | .reading 0 _, .release, _ => .idle
  | .reading (n + 1) d, .release, _ => .reading n d
  | .idle, .request, _ => .waiting
  | .waiting, .acquire, _ => .writing
  | .writing, .unlock, _ => .idle
  | h, _, _ => h

end Hold

/-- What a thread has after the calls of a trace. -/
def holdOf (τ : List (Event (Call D) Call.Reply)) : Hold D :=
  τ.foldr (fun e h => h.next e.1 e.2) .idle

@[simp] theorem holdOf_nil : holdOf ([] : List (Event (Call D) Call.Reply)) = .idle := rfl

@[simp] theorem holdOf_cons (q : Call D) (r : q.Reply) (τ : List (Event (Call D) Call.Reply)) :
    holdOf (⟨q, r⟩ :: τ) = (holdOf τ).next q r := rfl

/-- The program makes its calls in order, and has nothing of the lock at its end. -/
def InOrder (τ : List (Event (Call D) Call.Reply)) (t : Code D α) : Prop :=
  t.Spec (fun τ q => (holdOf τ).Allows q) (fun τ _ => holdOf τ = .idle) τ

/-- A program that keeps to the protocol. -/
def Bracketed (t : Code D α) : Prop := InOrder [] t

/-! ### The lock counts correctly -/

/-- The sum of a quantity of what the threads have. -/
def tally (f : Hold D → ℕ) (p : Threads D α) : ℕ :=
  (p.threads.map fun θ => f (holdOf θ.trace)).sum

/-- The lock knows what its threads have, and what they read under their guards is its value. -/
structure Accounts (p : Threads D α) : Prop where
  guards : p.world.guards = tally Hold.guards p
  waiting : p.world.waiting = tally Hold.waits p
  held : p.world.held.toNat = tally Hold.writes p
  exclusive : p.world.held = true → p.world.guards = 0
  read : ∀ θ ∈ p.threads, ∀ n d, holdOf θ.trace = .reading n d → d = p.world.data

variable {p : Threads D α} {θ : Thread (RwLock D) (Call D) Call.Reply α}

theorem le_tally (f : Hold D → ℕ) (hθ : θ ∈ p.threads) : f (holdOf θ.trace) ≤ tally f p :=
  List.le_sum_of_mem (List.mem_map.2 ⟨θ, hθ, rfl⟩)

theorem exists_of_tally {f : Hold D → ℕ} (h : 0 < tally f p) :
    ∃ θ ∈ p.threads, 0 < f (holdOf θ.trace) := by
  by_contra hnone
  push Not at hnone
  have hzero : tally f p = 0 := by
    refine List.sum_eq_zero fun n hn => ?_
    obtain ⟨θ, hθ, rfl⟩ := List.mem_map.1 hn
    exact Nat.le_zero.1 (hnone θ hθ)
  omega

theorem tally_set (f : Hold D → ℕ) {i : ℕ} (hi : p.threads[i]? = some θ) (l : RwLock D)
    (θ' : Thread (RwLock D) (Call D) Call.Reply α) :
    tally f ⟨l, p.threads.set i θ'⟩ + f (holdOf θ.trace) = tally f p + f (holdOf θ'.trace) :=
  sum_map_set (fun θ : Thread (RwLock D) (Call D) Call.Reply α => f (holdOf θ.trace)) hi θ'

theorem accounts_fresh (d : D) (ts : List (Code D α)) :
    Accounts (Pool.fresh { data := d } ts : Threads D α) := by
  have hidle : ∀ θ ∈ (Pool.fresh { data := d } ts : Threads D α).threads,
      holdOf θ.trace = .idle := by
    intro θ hθ
    obtain ⟨t, -, rfl⟩ := List.mem_map.1 hθ
    rfl
  have hzero : ∀ f : Hold D → ℕ, f .idle = 0 →
      tally f (Pool.fresh { data := d } ts : Threads D α) = 0 := by
    intro f hf
    refine List.sum_eq_zero fun n hn => ?_
    obtain ⟨θ, hθ, rfl⟩ := List.mem_map.1 hn
    rw [hidle θ hθ, hf]
  refine ⟨(hzero _ rfl).symm, (hzero _ rfl).symm, (hzero _ rfl).symm, fun h => rfl, ?_⟩
  intro θ hθ n e he
  rw [hidle θ hθ] at he
  cases he

/-- The lock and what one thread has change together. -/
structure Balanced (h h' : Hold D) (l l' : RwLock D) : Prop where
  guards : l'.guards + h.guards = l.guards + h'.guards
  waiting : l'.waiting + h.waits = l.waiting + h'.waits
  held : l'.held.toNat + h.writes = l.held.toNat + h'.writes
  exclusive : (l.held = true → l.guards = 0) → l'.held = true → l'.guards = 0
  data : l'.data = l.data ∨ h = .writing
  read : (∀ n d, h = .reading n d → d = l.data) → ∀ n d, h' = .reading n d → d = l'.data

/-- **One call.**  A thread that keeps to the protocol changes the lock as much as what it has. -/
theorem balanced_of_answer {h : Hold D} {q : Call D} {r : q.Reply} {l l' : RwLock D}
    (hq : h.Allows q) (hl : l.answer q = some (r, l')) (hg : h.guards ≤ l.guards)
    (hw : h.waits ≤ l.waiting) (hx : h.writes ≤ l.held.toNat) : Balanced h (h.next q r) l l' := by
  -- each call is allowed in one state of the holder only, except that guards may nest
  cases q with
  | read =>
    simp only [answer, Option.ite_none_right_eq_some, Option.some.injEq, Prod.mk.injEq] at hl
    obtain ⟨⟨hheld, -⟩, rfl, rfl⟩ := hl
    cases h with
    | idle =>
      refine ⟨rfl, rfl, rfl, fun _ hb => absurd hb (by simp [hheld]), .inl rfl, ?_⟩
      rintro - n d hd
      cases hd
      rfl
    | reading n d =>
      refine ⟨?_, rfl, rfl, fun _ hb => absurd hb (by simp [hheld]), .inl rfl, ?_⟩
      · simp only [Hold.guards, Hold.next]
        omega
      · rintro - n' d' hd
        cases hd
        rfl
    | waiting | writing => exact hq.elim
  | release =>
    simp only [answer, Option.some.injEq, Prod.mk.injEq] at hl
    obtain ⟨-, rfl⟩ := hl
    cases h with
    | reading n d =>
      cases n with
      | zero =>
        refine ⟨?_, rfl, rfl, fun hex hb => ?_, .inl rfl, nofun⟩
        · simp only [Hold.guards, Hold.next] at hg ⊢
          omega
        · simp [hex hb]
      | succ n =>
        refine ⟨?_, rfl, rfl, fun hex hb => ?_, .inl rfl, fun hread n' d' hd => ?_⟩
        · simp only [Hold.guards, Hold.next] at hg ⊢
          omega
        · simp [hex hb]
        · cases hd
          exact hread _ _ rfl
    | idle | waiting | writing => exact hq.elim
  | request =>
    simp only [answer, Option.some.injEq, Prod.mk.injEq] at hl
    obtain ⟨-, rfl⟩ := hl
    cases h with
    | idle => exact ⟨rfl, rfl, rfl, fun hex hb => hex hb, .inl rfl, nofun⟩
    | reading | waiting | writing => exact hq.elim
  | acquire =>
    simp only [answer, Option.ite_none_right_eq_some, Option.some.injEq, Prod.mk.injEq] at hl
    obtain ⟨⟨hheld, hguards⟩, -, rfl⟩ := hl
    cases h with
    | waiting =>
      refine ⟨rfl, ?_, ?_, fun _ _ => hguards, .inl rfl, nofun⟩
      · simp only [Hold.waits, Hold.next] at hw ⊢
        omega
      · simp [hheld, Hold.writes, Hold.next]
    | idle | reading | writing => exact hq.elim
  | write d =>
    simp only [answer, Option.some.injEq, Prod.mk.injEq] at hl
    obtain ⟨-, rfl⟩ := hl
    cases h with
    | writing => exact ⟨rfl, rfl, rfl, fun hex hb => hex hb, .inr rfl, nofun⟩
    | idle | reading | waiting => exact hq.elim
  | unlock =>
    simp only [answer, Option.some.injEq, Prod.mk.injEq] at hl
    obtain ⟨-, rfl⟩ := hl
    cases h with
    | writing =>
      have hheld : l.held = true := by
        by_contra hfree
        simp [Bool.eq_false_of_not_eq_true hfree, Hold.writes] at hx
      refine ⟨rfl, rfl, ?_, nofun, .inl rfl, nofun⟩
      simp [hheld, Hold.writes, Hold.next]
    | idle | reading | waiting => exact hq.elim

/-- While a writer has the lock, nobody reads. -/
theorem Accounts.not_reading (h : Accounts p) (hheld : p.world.held = true) (hθ : θ ∈ p.threads)
    (n : ℕ) (d : D) : holdOf θ.trace ≠ .reading n d := by
  intro hd
  have hle := le_tally Hold.guards hθ
  rw [hd, ← h.guards, h.exclusive hheld] at hle
  exact absurd hle (by simp [Hold.guards])

/-- Who writes has the lock. -/
theorem Accounts.held_of_writing (h : Accounts p) (hθ : θ ∈ p.threads)
    (hw : holdOf θ.trace = .writing) : p.world.held = true := by
  have hle := le_tally Hold.writes hθ
  rw [hw, ← h.held] at hle
  by_contra hfree
  simp [Bool.eq_false_of_not_eq_true hfree, Hold.writes] at hle

/-- **One step** of a thread that keeps to the protocol leaves the lock in order. -/
theorem Accounts.step (h : Accounts p) {i : ℕ} {log : List (RwLock D × Event (Call D) Call.Reply)}
    {q : Call D} {k : q.Reply → Code D α} {r : q.Reply} {l : RwLock D}
    (hi : p.threads[i]? = some ⟨log, .call q k⟩)
    (hq : (holdOf (log.map Prod.snd)).Allows q) (hl : p.world.answer q = some (r, l)) :
    Accounts (⟨l, p.threads.set i ⟨(p.world, ⟨q, r⟩) :: log, k r⟩⟩ : Threads D α) := by
  have hmem := List.mem_of_getElem? hi
  have hset := fun f => tally_set f hi l ⟨(p.world, ⟨q, r⟩) :: log, k r⟩
  have hle := fun f => le_tally f hmem
  have hb : Balanced _ _ p.world l := balanced_of_answer hq hl (h.guards ▸ hle Hold.guards)
    (h.waiting ▸ hle Hold.waits) (h.held ▸ hle Hold.writes)
  refine ⟨?_, ?_, ?_, hb.exclusive h.exclusive, ?_⟩
  · have hsum := hset Hold.guards
    have hbooks := hb.guards
    rw [h.guards] at hbooks
    simp only [Thread.trace, List.map_cons, holdOf_cons] at hsum
    show l.guards = _
    omega
  · have hsum := hset Hold.waits
    have hbooks := hb.waiting
    rw [h.waiting] at hbooks
    simp only [Thread.trace, List.map_cons, holdOf_cons] at hsum
    show l.waiting = _
    omega
  · have hsum := hset Hold.writes
    have hbooks := hb.held
    rw [h.held] at hbooks
    simp only [Thread.trace, List.map_cons, holdOf_cons] at hsum
    show l.held.toNat = _
    omega
  · intro θ hθ n d hd
    rcases mem_threads_set hθ with hθ | rfl
    · rcases hb.data with hdata | hwriting
      · rw [show (_ : RwLock D).data = _ from hdata]
        exact h.read θ hθ n d hd
      · exact absurd hd (h.not_reading (h.held_of_writing hmem hwriting) hθ n d)
    · exact hb.read (fun n d hd => h.read _ hmem n d hd) n d hd

variable {d : D} {ts : List (Code D α)}

theorem inOrder_of_reachable (hts : ∀ t ∈ ts, Bracketed t) (hp : (runs d ts).Reachable p)
    (hθ : θ ∈ p.threads) : InOrder θ.trace θ.prog :=
  spec_of_fixed hts hp hθ

/-- **The lock counts correctly** in every interleaving of programs that keep to the protocol. -/
theorem accounts_of_reachable (hts : ∀ t ∈ ts, Bracketed t) (hp : (runs d ts).Reachable p) :
    Accounts p := by
  have hboth : Accounts p ∧ ∀ θ ∈ p.threads, InOrder θ.trace θ.prog := by
    refine invariant_of_fixed
      (J := fun p => Accounts p ∧ ∀ θ ∈ p.threads, InOrder θ.trace θ.prog) ?_ ?_ hp
    · refine ⟨accounts_fresh d ts, fun θ hθ => ?_⟩
      obtain ⟨t, ht, rfl⟩ := List.mem_map.1 hθ
      exact hts t ht
    · rintro p i log q k r l ⟨haccounts, horder⟩ hi hl
      have hspec := horder _ (List.mem_of_getElem? hi)
      refine ⟨haccounts.step hi hspec.1 hl, fun θ hθ => ?_⟩
      rcases mem_threads_set hθ with hθ | rfl
      · exact horder θ hθ
      · exact hspec.2 r
  exact hboth.1

/-- The value of the lock is the first one, or one that a thread has written. -/
theorem data_of_reachable (hp : (runs d ts).Reachable p) :
    p.world.data = d ∨ ∃ θ ∈ p.threads, ⟨.write p.world.data, ()⟩ ∈ θ.trace := by
  refine invariant_of_fixed
    (J := fun p => p.world.data = d ∨ ∃ θ ∈ p.threads, ⟨.write p.world.data, ()⟩ ∈ θ.trace)
    (.inl rfl) ?_ hp
  rintro p i log q k r l hdata hi hl
  have hkeep : l.data = p.world.data → (l.data = d ∨ ∃ θ ∈ p.threads.set i
      ⟨(p.world, ⟨q, r⟩) :: log, k r⟩, ⟨.write l.data, ()⟩ ∈ θ.trace) := by
    intro heq
    rw [heq]
    refine hdata.imp id ?_
    rintro ⟨θ, hθ, hw⟩
    obtain ⟨j, hj⟩ := List.getElem?_of_mem hθ
    rcases eq_or_ne i j with rfl | hne
    · obtain rfl : _ = θ := by simpa [hi] using hj
      exact ⟨_, List.mem_set (List.getElem?_eq_some_iff.1 hi).1 _, List.mem_cons_of_mem _ hw⟩
    · exact ⟨θ, List.mem_of_getElem? ((List.getElem?_set_ne hne).trans hj), hw⟩
  cases q with
  | write d' =>
    simp only [calls, answer, Option.some.injEq, Prod.mk.injEq] at hl
    obtain ⟨-, rfl⟩ := hl
    exact .inr ⟨_, List.mem_set (List.getElem?_eq_some_iff.1 hi).1 _, List.mem_cons_self⟩
  | read | acquire =>
    simp only [calls, answer, Option.ite_none_right_eq_some, Option.some.injEq, Prod.mk.injEq] at hl
    obtain ⟨-, -, rfl⟩ := hl
    exact hkeep rfl
  | release | request | unlock =>
    simp only [calls, answer, Option.some.injEq, Prod.mk.injEq] at hl
    obtain ⟨-, rfl⟩ := hl
    exact hkeep rfl

/-! ### Stuck threads -/

/-- A stuck thread waits to read or to write. -/
theorem waits_of_stuck (h : p.Stuck (calls D α)) (hθ : θ ∈ p.threads) :
    (∃ a, θ.prog = .ret a) ∨ (∃ k, θ.prog = .call .read k) ∨ ∃ k, θ.prog = .call .acquire k := by
  cases hprog : θ.prog with
  | ret a => exact .inl ⟨a, rfl⟩
  | call q k =>
    have hwait := fun r l => h.not_serve hθ hprog r l
    cases q with
    | read => exact .inr (.inl ⟨k, rfl⟩)
    | acquire => exact .inr (.inr ⟨k, rfl⟩)
    | release | request | write | unlock => exact absurd rfl (hwait () _)

/-- **When threads are stuck**: one waits to write, and one reads again under a guard it holds,
where it has read the value of the lock. -/
theorem Accounts.of_stuck (h : Accounts p) (hin : ∀ θ ∈ p.threads, InOrder θ.trace θ.prog)
    (hstuck : p.Stuck (calls D α)) :
    (∃ θ ∈ p.threads, ∃ k, θ.prog = .call .acquire k) ∧
      ∃ θ ∈ p.threads, ∃ k n,
        θ.prog = .call .read k ∧ holdOf θ.trace = .reading n p.world.data := by
  -- what a stuck thread has, it has while it waits to read or to write
  have hhold : ∀ θ ∈ p.threads, holdOf θ.trace = .idle ∨
      ((∃ k, θ.prog = .call .read k) ∧ ∃ n d, holdOf θ.trace = .reading n d) ∨
      ((∃ k, θ.prog = .call .acquire k) ∧ holdOf θ.trace = .waiting) := by
    intro θ hθ
    have horder := hin θ hθ
    rcases waits_of_stuck hstuck hθ with ⟨a, ha⟩ | ⟨k, hk⟩ | ⟨k, hk⟩
    · rw [ha] at horder
      exact .inl horder
    · rw [hk] at horder
      have hallows : (holdOf θ.trace).Allows .read := horder.1
      cases hold : holdOf θ.trace with
      | idle => exact .inl rfl
      | reading n d => exact .inr (.inl ⟨⟨k, hk⟩, n, d, rfl⟩)
      | waiting | writing => rw [hold] at hallows; exact hallows.elim
    · rw [hk] at horder
      have hallows : (holdOf θ.trace).Allows .acquire := horder.1
      cases hold : holdOf θ.trace with
      | waiting => exact .inr (.inr ⟨⟨k, hk⟩, rfl⟩)
      | idle | reading | writing => rw [hold] at hallows; exact hallows.elim
  have hfree : p.world.held = false := by
    by_contra hheld
    have hpos : 0 < tally Hold.writes p := by
      rw [← h.held, Bool.eq_true_of_not_eq_false hheld]
      exact Nat.one_pos
    obtain ⟨θ, hθ, hw⟩ := exists_of_tally hpos
    rcases hhold θ hθ with hold | ⟨-, n, d, hold⟩ | ⟨-, hold⟩ <;> simp [hold, Hold.writes] at hw
  have hwriter : ∃ θ ∈ p.threads, ∃ k, θ.prog = .call .acquire k := by
    by_contra hnone
    have hwait : p.world.waiting = 0 := by
      by_contra hpos
      rw [h.waiting] at hpos
      obtain ⟨θ, hθ, hw⟩ := exists_of_tally (Nat.pos_of_ne_zero hpos)
      rcases hhold θ hθ with hold | ⟨-, n, d, hold⟩ | ⟨hacquire, -⟩
      · simp [hold, Hold.waits] at hw
      · simp [hold, Hold.waits] at hw
      · exact hnone ⟨θ, hθ, hacquire⟩
    -- so whoever wants to read may, and nobody waits at all
    refine hstuck.1 fun θ hθ => ?_
    rcases waits_of_stuck hstuck hθ with hret | ⟨k, hk⟩ | hacquire
    · exact hret
    · exact absurd (if_pos ⟨hfree, hwait⟩) (hstuck.not_serve hθ hk _ _)
    · exact absurd ⟨θ, hθ, hacquire⟩ hnone
  refine ⟨hwriter, ?_⟩
  obtain ⟨θ, hθ, k, hk⟩ := hwriter
  have hguards : 0 < tally Hold.guards p := by
    rw [← h.guards]
    by_contra hzero
    exact absurd (if_pos ⟨hfree, by omega⟩) (hstuck.not_serve hθ hk () _)
  obtain ⟨θ', hθ', hg⟩ := exists_of_tally hguards
  rcases hhold θ' hθ' with hold | ⟨⟨k', hk'⟩, n, d, hold⟩ | ⟨-, hold⟩
  · simp [hold, Hold.guards] at hg
  · exact ⟨θ', hθ', k', n, hk', by rw [hold, h.read θ' hθ' n d hold]⟩
  · simp [hold, Hold.guards] at hg

/-- Programs that read only when they hold no guard are never stuck. -/
theorem not_stuck_of_reads_idle (hts : ∀ t ∈ ts, Bracketed t)
    (hidle : ∀ t ∈ ts, t.Spec (fun τ q => q = .read → holdOf τ = .idle) (fun _ _ => True) [])
    (hp : (runs d ts).Reachable p) : ¬p.Stuck (calls D α) := by
  intro hstuck
  obtain ⟨-, θ, hθ, k, n, hk, hold⟩ := (accounts_of_reachable hts hp).of_stuck
    (fun θ hθ => inOrder_of_reachable hts hp hθ) hstuck
  have hspec := spec_of_fixed hidle hp hθ
  rw [hk] at hspec
  have hnone := hspec.1 rfl
  rw [hold] at hnone
  cases hnone

/-- What is left of the thread can be made to wait: it has ended, reads, or takes the lock for
writing. -/
inductive Stoppable : Code D α → Prop
  | ret (a : α) : Stoppable (.ret a)
  | read (k : D → Code D α) : Stoppable (.call .read k)
  | request (k : Unit → Code D α) : Stoppable (.call .request fun _ => .call .acquire k)
  | acquire (k : Unit → Code D α) : Stoppable (.call .acquire k)

/-- One for a thread that is about to ask for the lock. -/
def asks : Code D α → ℕ
  | .call .request _ => 1
  | _ => 0

theorem total_asks_pos {i : ℕ} (hi : p.threads[i]? = some θ) (hasks : 0 < asks θ.prog) :
    0 < p.total asks :=
  hasks.trans_le (List.le_sum_of_mem (List.mem_map.2 ⟨θ, List.mem_of_getElem? hi, rfl⟩))

/-- **How threads get stuck.**  If nobody but a reader under its guard goes on, and a writer is
there or still to come, then the writers can all ask for the lock before the reader reads again. -/
theorem exists_stuck (hp : (runs d ts).Reachable p) (hguards : 0 < p.world.guards)
    (hfree : p.world.held = false) (hstop : ∀ θ ∈ p.threads, Stoppable θ.prog)
    (hread : ∃ θ ∈ p.threads, ∃ k, θ.prog = .call .read k)
    (hwriter : 0 < p.world.waiting ∨ 0 < p.total asks) :
    ∃ p', (runs d ts).Reachable p' ∧ p'.Stuck (calls D α) := by
  -- by induction on the number of writers that have not asked yet
  induction hn : p.total asks generalizing p with
  | zero =>
    have hwait : 0 < p.world.waiting := by omega
    refine ⟨p, hp, fun hidle => ?_, fun i p' hst => ?_⟩
    · obtain ⟨θ, hθ, k, hk⟩ := hread
      obtain ⟨a, ha⟩ := hidle θ hθ
      rw [hk] at ha
      cases ha
    · obtain ⟨log, q, k, r, l, hi, hl, -⟩ := step_run_iff.1 hst
      have hmem := List.mem_of_getElem? hi
      have hasks : asks (.call q k) = 0 := by
        have hle : asks (.call q k) ≤ p.total asks :=
          List.le_sum_of_mem (List.mem_map.2 ⟨_, hmem, rfl⟩)
        omega
      cases hstop _ hmem with
      | read => simp [calls, answer, hwait.ne'] at hl
      | request => cases hasks
      | acquire => simp [calls, answer, hguards.ne'] at hl
  | succ n ih =>
    obtain ⟨θ, hθ, hpos⟩ : ∃ θ ∈ p.threads, 0 < asks θ.prog := by
      by_contra hnone
      push Not at hnone
      have hzero : p.total asks = 0 := by
        refine List.sum_eq_zero fun m hm => ?_
        obtain ⟨θ, hθ, rfl⟩ := List.mem_map.1 hm
        exact Nat.le_zero.1 (hnone θ hθ)
      omega
    obtain ⟨i, hi⟩ := List.getElem?_of_mem hθ
    obtain ⟨log, prog⟩ := θ
    cases hstop _ hθ with
    | ret | read | acquire => exact absurd hpos (Nat.lt_irrefl 0)
    | request k =>
      have htotal := total_run asks hi { p.world with waiting := p.world.waiting + 1 }
        ⟨(p.world, ⟨.request, ()⟩) :: log, .call .acquire k⟩
      simp only [asks] at htotal
      refine ih (hp.step (.run hi rfl)) hguards hfree ?_ ?_ (.inl (Nat.succ_pos _)) ?_
      · intro θ hθ
        rcases mem_threads_set hθ with hθ | rfl
        · exact hstop θ hθ
        · exact .acquire k
      · obtain ⟨θ, hθ, k', hk'⟩ := hread
        obtain ⟨j, hj⟩ := List.getElem?_of_mem hθ
        have hne : i ≠ j := by
          rintro rfl
          rw [hi] at hj
          cases hj
          cases hk'
        exact ⟨θ, List.mem_of_getElem? ((List.getElem?_set_ne hne).trans hj), k', hk'⟩
      · show Pool.total asks _ = n
        omega

end RwLock

end Interleaving
