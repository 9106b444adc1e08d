import BatMarkets.Interleaving.Prog
import BatMarkets.Transition.Basic

/-!
# Interleavings of programs over a shared world

A `Pool` is a shared world and a list of threads, each a program and the log of the calls it has
made.  One step lets one thread make its next call, starts a new thread, or lets the environment
change the world; so a run is an arbitrary interleaving of any number of programs.  The log is
ghost state: it records with each call the reply and the world in which the call was served.

## Main results

* `spec_of_reachable` : in every run, what is left of each thread satisfies the specification
  proved of its program, from the trace the thread has left behind.
* `pastMeets_of_reachable` : in every run, the calls a thread has made satisfied the guard proved of
  its program.
* `residual_of_reachable` : in every run, what is left of each thread is left of a program that was
  started.
* `reachableWhen_moves` : the runs of a scheduler are runs, and keep to the guard its choices meet.
* `log_of_reachable` : a relation between a served call and the current world that holds when the
  call is served, and that no later change of the world breaks, holds of the whole log of every
  thread.
-/

namespace Interleaving

open Transition

/-- A running program and the calls it has made, latest first, each with the world it was served
in. -/
structure Thread (W Q : Type) (R : Q → Type) (α : Type) where
  /-- The calls made so far. -/
  log : List (W × Event Q R)
  /-- What is left to run. -/
  prog : Prog Q R α

/-- The calls and replies of a thread, latest first. -/
def Thread.trace {W Q : Type} {R : Q → Type} {α : Type} (θ : Thread W Q R α) :
    List (Event Q R) := θ.log.map Prod.snd

/-- A thread that is about to start. -/
def Thread.fresh {W Q : Type} {R : Q → Type} {α : Type} (t : Prog Q R α) : Thread W Q R α :=
  ⟨[], t⟩

/-- A shared world and the threads that run over it. -/
structure Pool (W Q : Type) (R : Q → Type) (α : Type) where
  /-- The shared world. -/
  world : W
  /-- The threads, in the order they were started. -/
  threads : List (Thread W Q R α)

/-- The meaning of the calls, the programs that may be started, and what else may happen. -/
structure Interpretation (W Q : Type) (R : Q → Type) (α : Type) where
  /-- The programs that may be started. -/
  start : Prog Q R α → Prop
  /-- `serve w q r w'` : in the world `w` the call `q` may be answered by `r`, leaving `w'`. -/
  serve : W → (q : Q) → R q → W → Prop
  /-- The changes of the world that no thread makes. -/
  env : W → W → Prop

/-- The steps of a pool. -/
inductive Action
  /-- A program is started. -/
  | start
  /-- Thread `i` makes its next call. -/
  | run (i : ℕ)
  /-- The environment changes the world. -/
  | env
  deriving DecidableEq

variable {W Q : Type} {R : Q → Type} {α : Type} (I : Interpretation W Q R α)

/-- One step of a pool. -/
inductive Pool.Step : Pool W Q R α → Action → Pool W Q R α → Prop
  | start {p : Pool W Q R α} {t : Prog Q R α} : I.start t →
      Step p .start ⟨p.world, p.threads ++ [Thread.fresh t]⟩
  | run {p : Pool W Q R α} {i : ℕ} {log : List (W × Event Q R)} {q : Q}
      {k : R q → Prog Q R α} {r : R q} {w' : W} :
      p.threads[i]? = some ⟨log, .call q k⟩ → I.serve p.world q r w' →
      Step p (.run i) ⟨w', p.threads.set i ⟨(p.world, ⟨q, r⟩) :: log, k r⟩⟩
  | env {p : Pool W Q R α} {w' : W} : I.env p.world w' → Step p .env ⟨w', p.threads⟩

/-- The runs of an interpretation: no thread runs at first, and the world is an initial one. -/
def Interpretation.system (initial : W → Prop) : System (Pool W Q R α) Action where
  init p := initial p.world ∧ p.threads = []
  step := Pool.Step I

/-- The world changes in one step. -/
def Interpretation.Changes (w w' : W) : Prop := I.env w w' ∨ ∃ q r, I.serve w q r w'

/-- No thread is in the middle of its program. -/
def Pool.Idle (p : Pool W Q R α) : Prop := ∀ θ ∈ p.threads, ∃ a, θ.prog = .ret a

variable {I} {initial : W → Prop}

theorem Thread.trace_cons {w : W} {e : Event Q R} {log : List (W × Event Q R)}
    {t : Prog Q R α} : Thread.trace ⟨(w, e) :: log, t⟩ = e :: Thread.trace ⟨log, t⟩ := rfl

theorem mem_threads_set {ts : List (Thread W Q R α)} {i : ℕ} {θ θ' : Thread W Q R α}
    (h : θ ∈ ts.set i θ') : θ ∈ ts ∨ θ = θ' := List.mem_or_eq_of_mem_set h

/-- **Threads keep to their specification** in every interleaving. -/
theorem spec_of_reachable {G : List (Event Q R) → Q → Prop} {Post : List (Event Q R) → α → Prop}
    (hstart : ∀ t, I.start t → t.Spec G Post []) {p : Pool W Q R α}
    (hp : (I.system initial).Reachable p) : ∀ θ ∈ p.threads, θ.prog.Spec G Post θ.trace := by
  refine System.ReachableWhen.invariant
    (I := fun p => ∀ θ ∈ p.threads, θ.prog.Spec G Post θ.trace) hp ?_ ?_
  · rintro p ⟨-, hts⟩ θ hθ
    rw [hts] at hθ
    cases hθ
  · rintro p a p' ih - hst θ hθ
    cases hst with
    | start ht =>
      rcases List.mem_append.1 hθ with hθ | hθ
      · exact ih θ hθ
      · rw [List.mem_singleton.1 hθ]
        exact hstart _ ht
    | run hi _ =>
      rcases mem_threads_set hθ with hθ | rfl
      · exact ih θ hθ
      · exact (ih _ (List.mem_of_getElem? hi)).2 _
    | env _ => exact ih θ hθ

/-- The calls a thread has made satisfied the guard when they were made. -/
theorem pastMeets_of_reachable {G : List (Event Q R) → Q → Prop}
    (hstart : ∀ t, I.start t → t.Always G) {p : Pool W Q R α}
    (hp : (I.system initial).Reachable p) : ∀ θ ∈ p.threads, Prog.PastMeets G θ.trace := by
  have hboth : ∀ θ ∈ p.threads,
      θ.prog.Spec G (fun _ _ => True) θ.trace ∧ Prog.PastMeets G θ.trace := by
    refine System.ReachableWhen.invariant (I := fun p => ∀ θ ∈ p.threads,
      θ.prog.Spec G (fun _ _ => True) θ.trace ∧ Prog.PastMeets G θ.trace) hp ?_ ?_
    · rintro p ⟨-, hts⟩ θ hθ
      rw [hts] at hθ
      cases hθ
    · rintro p a p' ih - hst θ hθ
      cases hst with
      | start ht =>
        rcases List.mem_append.1 hθ with hθ | hθ
        · exact ih θ hθ
        · rw [List.mem_singleton.1 hθ]
          exact ⟨hstart _ ht [], trivial⟩
      | run hi _ =>
        rcases mem_threads_set hθ with hθ | rfl
        · exact ih θ hθ
        · obtain ⟨hspec, hpast⟩ := ih _ (List.mem_of_getElem? hi)
          exact ⟨hspec.2 _, hspec.1, hpast⟩
      | env _ => exact ih θ hθ
  exact fun θ hθ => (hboth θ hθ).2

/-- What is left of a thread is left of a program that was started. -/
theorem residual_of_reachable {p : Pool W Q R α} (hp : (I.system initial).Reachable p) :
    ∀ θ ∈ p.threads, ∃ t, I.start t ∧ t.Residual θ.prog := by
  refine System.ReachableWhen.invariant
    (I := fun p => ∀ θ ∈ p.threads, ∃ t, I.start t ∧ t.Residual θ.prog) hp ?_ ?_
  · rintro p ⟨-, hts⟩ θ hθ
    rw [hts] at hθ
    cases hθ
  · rintro p a p' ih - hst θ hθ
    cases hst with
    | start ht =>
      rcases List.mem_append.1 hθ with hθ | hθ
      · exact ih θ hθ
      · rw [List.mem_singleton.1 hθ]
        exact ⟨_, ht, .refl⟩
    | run hi _ =>
      rcases mem_threads_set hθ with hθ | rfl
      · exact ih θ hθ
      · obtain ⟨t, ht, hleft⟩ := ih _ (List.mem_of_getElem? hi)
        exact ⟨t, ht, hleft.call _⟩
    | env _ => exact ih θ hθ

/-- **Facts about served calls.**  If `J` holds of a call, the world it was served in and the
world it left, and no later change of the world breaks it, then it holds of every call in the log
of every thread and the current world. -/
theorem log_of_reachable {J : W → Event Q R → W → Prop}
    (hserve : ∀ w q r w', I.serve w q r w' → J w ⟨q, r⟩ w')
    (hstable : ∀ w e v v', J w e v → I.Changes v v' → J w e v') {p : Pool W Q R α}
    (hp : (I.system initial).Reachable p) :
    ∀ θ ∈ p.threads, ∀ x ∈ θ.log, J x.1 x.2 p.world := by
  refine System.ReachableWhen.invariant
    (I := fun p => ∀ θ ∈ p.threads, ∀ x ∈ θ.log, J x.1 x.2 p.world) hp ?_ ?_
  · rintro p ⟨-, hts⟩ θ hθ
    rw [hts] at hθ
    cases hθ
  · rintro p a p' ih - hst θ hθ x hx
    cases hst with
    | start _ =>
      rcases List.mem_append.1 hθ with hθ | hθ
      · exact ih θ hθ x hx
      · rw [List.mem_singleton.1 hθ] at hx
        cases hx
    | run hi hs =>
      rcases mem_threads_set hθ with hθ | rfl
      · exact hstable _ _ _ _ (ih θ hθ x hx) (.inr ⟨_, _, hs⟩)
      · rcases List.mem_cons.1 hx with rfl | hx
        · exact hserve _ _ _ _ hs
        · exact hstable _ _ _ _ (ih _ (List.mem_of_getElem? hi) x hx) (.inr ⟨_, _, hs⟩)
    | env he => exact hstable _ _ _ _ (ih θ hθ x hx) (.inl he)

/-! ### Quantities of a pool -/

/-- A quantity of what is left of a thread, over all threads. -/
def Pool.total (f : Prog Q R α → ℕ) (p : Pool W Q R α) : ℕ :=
  (p.threads.map fun θ => f θ.prog).sum

theorem sum_map_set {β : Type} (f : β → ℕ) {l : List β} {i : ℕ} {x : β} (hi : l[i]? = some x)
    (y : β) : ((l.set i y).map f).sum + f x = (l.map f).sum + f y := by
  induction l generalizing i with
  | nil => cases hi
  | cons z l ih =>
    cases i with
    | zero =>
      obtain rfl : z = x := by simpa using hi
      simp only [List.set_cons_zero, List.map_cons, List.sum_cons]
      omega
    | succ i =>
      have htail := ih (by simpa using hi)
      simp only [List.set_cons_succ, List.map_cons, List.sum_cons]
      omega

theorem total_run (f : Prog Q R α → ℕ) {p : Pool W Q R α} {i : ℕ} {θ : Thread W Q R α}
    (hi : p.threads[i]? = some θ) (w : W) (θ' : Thread W Q R α) :
    Pool.total f ⟨w, p.threads.set i θ'⟩ + f θ.prog = p.total f + f θ'.prog :=
  sum_map_set (fun θ : Thread W Q R α => f θ.prog) hi θ'

/-- A reading of thread `i`, and `d` when there is none. -/
def Pool.readAt {β : Type} (f : Thread W Q R α → β) (d : β) (p : Pool W Q R α) (i : ℕ) : β :=
  p.threads[i]?.elim d f

theorem readAt_start {β : Type} {f : Thread W Q R α → β} {d : β} {t : Prog Q R α}
    (ht : f (Thread.fresh t) = d) (p : Pool W Q R α) :
    Pool.readAt f d ⟨p.world, p.threads ++ [Thread.fresh t]⟩ = p.readAt f d := by
  funext i
  simp only [Pool.readAt]
  rcases Nat.lt_trichotomy i p.threads.length with hlt | rfl | hgt
  · rw [List.getElem?_append_left hlt]
  · rw [List.getElem?_concat_length, List.getElem?_eq_none (Nat.le_refl _)]
    exact ht
  · rw [List.getElem?_eq_none (by simp only [List.length_append, List.length_singleton]; omega),
      List.getElem?_eq_none hgt.le]

theorem readAt_run {β : Type} {f : Thread W Q R α → β} {d : β} {p : Pool W Q R α} {i : ℕ}
    {θ : Thread W Q R α} (hi : p.threads[i]? = some θ) (w : W) (θ' : Thread W Q R α) :
    Pool.readAt f d ⟨w, p.threads.set i θ'⟩ = Function.update (p.readAt f d) i (f θ') := by
  funext j
  simp only [Pool.readAt]
  by_cases hj : j = i
  · subst hj
    rw [List.getElem?_set_self (List.getElem?_eq_some_iff.1 hi).1, Function.update_self]
    rfl
  · rw [List.getElem?_set_ne (Ne.symm hj), Function.update_of_ne hj]
    rfl

theorem readAt_of_thread {β : Type} {f : Thread W Q R α → β} {d : β} {p : Pool W Q R α} {i : ℕ}
    {θ : Thread W Q R α} (hi : p.threads[i]? = some θ) : p.readAt f d i = f θ := by
  rw [Pool.readAt, hi]
  rfl

/-- A reading that is not the default is that of a thread. -/
theorem exists_thread_of_readAt {β : Type} {f : Thread W Q R α → β} {d : β} {p : Pool W Q R α}
    {i : ℕ} (h : p.readAt f d i ≠ d) :
    ∃ θ, p.threads[i]? = some θ ∧ p.readAt f d i = f θ := by
  cases hi : p.threads[i]? with
  | none => exact absurd (by rw [Pool.readAt, hi]; rfl) h
  | some θ => exact ⟨θ, rfl, readAt_of_thread hi⟩

/-! ### Scheduled runs -/

/-- The choices of a scheduler. -/
inductive Move (Q : Type) (R : Q → Type) (α : Type)
  /-- Start a program. -/
  | start (t : Prog Q R α)
  /-- Let thread `i` make its next call. -/
  | run (i : ℕ)

/-- Make a choice, with `reply` answering the calls; a thread that is not there, or has ended,
makes none. -/
def Pool.move (reply : (q : Q) → W → R q × W) (p : Pool W Q R α) : Move Q R α → Pool W Q R α
  | .start t => ⟨p.world, p.threads ++ [Thread.fresh t]⟩
  | .run i =>
    match p.threads[i]? with
    | some ⟨log, .call q k⟩ =>
      ⟨(reply q p.world).2,
        p.threads.set i ⟨(p.world, ⟨q, (reply q p.world).1⟩) :: log, k (reply q p.world).1⟩⟩
    | _ => p

/-- The program of a thread has ended. -/
def Thread.ended (θ : Thread W Q R α) : Bool :=
  match θ.prog with
  | .ret _ => true
  | .call _ _ => false

theorem Pool.idle_of_ended {p : Pool W Q R α} (h : ∀ θ ∈ p.threads, θ.ended = true) : p.Idle := by
  intro θ hθ
  have hended := h θ hθ
  unfold Thread.ended at hended
  split at hended
  · next a ha => exact ⟨a, ha⟩
  · cases hended

/-- Thread `i` is in the middle of its program. -/
def Pool.canRun (p : Pool W Q R α) (i : ℕ) : Bool :=
  match p.threads[i]? with
  | some ⟨_, .call _ _⟩ => true
  | _ => false

theorem step_of_canRun {reply : (q : Q) → W → R q × W}
    (hreply : ∀ q w, I.serve w q (reply q w).1 (reply q w).2) {p : Pool W Q R α} {i : ℕ}
    (h : p.canRun i = true) : Pool.Step I p (.run i) (p.move reply (.run i)) := by
  unfold Pool.canRun at h
  unfold Pool.move
  split at h
  · next log q k hi =>
    simp only [hi]
    exact .run hi (hreply q p.world)
  · cases h

/-- The step that a choice makes. -/
def Move.action : Move Q R α → Action
  | .start _ => .start
  | .run i => .run i

/-- The choices of a schedule all meet a guard. -/
def Pool.MovesMeet (ok : Pool W Q R α → Action → Prop) (reply : (q : Q) → W → R q × W)
    (p : Pool W Q R α) : List (Move Q R α) → Prop
  | [] => True
  | m :: moves => ok p m.action ∧ MovesMeet ok reply (p.move reply m) moves

/-- A scheduled run stays within the runs of the interpretation, and within the guard its choices
meet. -/
theorem reachableWhen_moves {ok : Pool W Q R α → Action → Prop} {reply : (q : Q) → W → R q × W}
    (hreply : ∀ q w, I.serve w q (reply q w).1 (reply q w).2) {moves : List (Move Q R α)}
    (hstart : ∀ t, .start t ∈ moves → I.start t) {p : Pool W Q R α}
    (hp : (I.system initial).ReachableWhen ok p) (hmeet : p.MovesMeet ok reply moves) :
    (I.system initial).ReachableWhen ok (moves.foldl (Pool.move reply) p) := by
  induction moves generalizing p with
  | nil => exact hp
  | cons m moves ih =>
    obtain ⟨hok, hmeet⟩ := hmeet
    refine ih (fun t ht => hstart t (List.mem_cons_of_mem m ht)) ?_ hmeet
    cases m with
    | start t => exact hp.step hok (.start (hstart t List.mem_cons_self))
    | run i =>
      simp only [Pool.move]
      split
      · next log q k hi => exact hp.step hok (.run hi (hreply q p.world))
      · exact hp

theorem reachable_moves {reply : (q : Q) → W → R q × W}
    (hreply : ∀ q w, I.serve w q (reply q w).1 (reply q w).2) {moves : List (Move Q R α)}
    (hstart : ∀ t, .start t ∈ moves → I.start t) {p : Pool W Q R α}
    (hp : (I.system initial).Reachable p) :
    (I.system initial).Reachable (moves.foldl (Pool.move reply) p) := by
  refine reachableWhen_moves hreply hstart hp ?_
  clear hp hstart
  induction moves generalizing p with
  | nil => trivial
  | cons m moves ih => exact ⟨trivial, ih⟩

end Interleaving
