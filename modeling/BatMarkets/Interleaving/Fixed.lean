import BatMarkets.Interleaving.Pool

/-!
# Interleavings of a given list of programs

In the runs of `Pool` any number of programs may be started.  Here the programs are given: each of
them is started once, and no other, so that what may happen is a function of the list.  A pool is
`Stuck` when some program has not ended and none can make its next call.

## Main results

* `after_of_fixed` : in every run, thread `i` is what is left of program `i` after the calls of its
  log.
* `After.spec`, `After.of_mem` : what is left of a program satisfies the specification of the
  program, and so did every call it has made.
-/

namespace Interleaving

open Transition

variable {W Q : Type} {R : Q → Type} {α : Type}

namespace Prog

variable {t u : Prog Q R α} {τ : List (Event Q R)}

/-- `u` is left of `t` after the calls and replies of `τ`, latest first. -/
inductive After (t : Prog Q R α) : List (Event Q R) → Prog Q R α → Prop
  | refl : After t [] t
  | call {τ : List (Event Q R)} {q : Q} {k : R q → Prog Q R α} (r : R q) :
      After t τ (.call q k) → After t (⟨q, r⟩ :: τ) (k r)

theorem After.spec {G : List (Event Q R) → Q → Prop} {Post : List (Event Q R) → α → Prop}
    (h : t.After τ u) (ht : t.Spec G Post []) : u.Spec G Post τ := by
  induction h with
  | refl => exact ht
  | call r _ ih => exact ih.2 r

/-- Every call a program has made was one that its specification allows. -/
theorem After.of_mem {G : List (Event Q R) → Q → Prop} {Post : List (Event Q R) → α → Prop}
    (h : t.After τ u) (ht : t.Spec G Post []) {e : Event Q R} (he : e ∈ τ) : ∃ τ', G τ' e.1 := by
  induction h with
  | refl => cases he
  | call r h ih =>
    rcases List.mem_cons.1 he with rfl | he
    · exact ⟨_, (h.spec ht).1⟩
    · exact ih he

end Prog

/-- The pool in which the programs `ts` are about to start. -/
def Pool.fresh (w : W) (ts : List (Prog Q R α)) : Pool W Q R α := ⟨w, ts.map Thread.fresh⟩

variable (I : Interpretation W Q R α)

/-- The runs of the programs `ts`, over a world that only they change. -/
def Interpretation.fixed (w : W) (ts : List (Prog Q R α)) : System (Pool W Q R α) ℕ where
  init p := p = .fresh w ts
  step p i p' := Pool.Step I p (.run i) p'

/-- Some program has not ended, and none can make its next call. -/
def Pool.Stuck (p : Pool W Q R α) : Prop := ¬p.Idle ∧ ∀ i p', ¬Pool.Step I p (.run i) p'

variable {I} {w : W} {ts : List (Prog Q R α)} {p p' : Pool W Q R α}

/-- What a step of thread `i` does. -/
theorem step_run_iff {i : ℕ} :
    Pool.Step I p (.run i) p' ↔ ∃ log q k r w', p.threads[i]? = some ⟨log, .call q k⟩ ∧
      I.serve p.world q r w' ∧ p' = ⟨w', p.threads.set i ⟨(p.world, ⟨q, r⟩) :: log, k r⟩⟩ := by
  constructor
  · rintro (_ | ⟨hi, hserve⟩)
    exact ⟨_, _, _, _, _, hi, hserve, rfl⟩
  · rintro ⟨log, q, k, r, w', hi, hserve, rfl⟩
    exact .run hi hserve

/-- No call that a thread of a stuck pool makes next can be answered. -/
theorem Pool.Stuck.not_serve (h : p.Stuck I) {θ : Thread W Q R α} (hθ : θ ∈ p.threads) {q : Q}
    {k : R q → Prog Q R α} (hk : θ.prog = .call q k) (r : R q) (w' : W) :
    ¬I.serve p.world q r w' := by
  intro hserve
  obtain ⟨i, hi⟩ := List.getElem?_of_mem hθ
  obtain ⟨log, prog⟩ := θ
  obtain rfl : prog = .call q k := hk
  exact h.2 i _ (.run hi hserve)

/-- An invariant of the pool is proved of one call of one thread. -/
theorem invariant_of_fixed {J : Pool W Q R α → Prop} (hinit : J (.fresh w ts))
    (hstep : ∀ (p : Pool W Q R α) (i : ℕ) log q k r w', J p →
      p.threads[i]? = some ⟨log, .call q k⟩ → I.serve p.world q r w' →
      J ⟨w', p.threads.set i ⟨(p.world, ⟨q, r⟩) :: log, k r⟩⟩)
    (hp : (I.fixed w ts).Reachable p) : J p := by
  refine System.ReachableWhen.invariant hp ?_ ?_
  · rintro _ rfl
    exact hinit
  · rintro p i p' hJ - hst
    obtain ⟨log, q, k, r, w', hi, hserve, rfl⟩ := step_run_iff.1 hst
    exact hstep p i log q k r w' hJ hi hserve

/-- Thread `i` is what is left of program `i`. -/
theorem after_of_fixed (hp : (I.fixed w ts).Reachable p) {i : ℕ} {θ : Thread W Q R α}
    (hi : p.threads[i]? = some θ) : ∃ t, ts[i]? = some t ∧ t.After θ.trace θ.prog := by
  refine invariant_of_fixed
    (J := fun p => ∀ i θ, p.threads[i]? = some θ → ∃ t, ts[i]? = some t ∧ t.After θ.trace θ.prog)
    ?_ ?_ hp i θ hi
  · intro i θ hi
    simp only [Pool.fresh, List.getElem?_map, Option.map_eq_some_iff] at hi
    obtain ⟨t, ht, rfl⟩ := hi
    exact ⟨t, ht, .refl⟩
  · intro p i log q k r w' hJ hi _ j θ hj
    rcases eq_or_ne i j with rfl | hne
    · have hlt := (List.getElem?_eq_some_iff.1 hi).1
      rw [List.getElem?_set_self hlt] at hj
      cases hj
      obtain ⟨t, ht, hafter⟩ := hJ i _ hi
      exact ⟨t, ht, hafter.call r⟩
    · rw [List.getElem?_set_ne hne] at hj
      exact hJ j θ hj

/-- Each thread satisfies what every program satisfies. -/
theorem spec_of_fixed {G : List (Event Q R) → Q → Prop} {Post : List (Event Q R) → α → Prop}
    (hts : ∀ t ∈ ts, t.Spec G Post []) (hp : (I.fixed w ts).Reachable p) {θ : Thread W Q R α}
    (hθ : θ ∈ p.threads) : θ.prog.Spec G Post θ.trace := by
  obtain ⟨i, hi⟩ := List.getElem?_of_mem hθ
  obtain ⟨t, ht, hafter⟩ := after_of_fixed hp hi
  exact hafter.spec (hts t (List.mem_of_getElem? ht))

/-! ### One thread running alone -/

/-- From the world `w` the program `t` may get to `u`, leaving the world `w'`, if no other thread
takes a step. -/
inductive RunsTo (I : Interpretation W Q R α) (w' : W) (u : Prog Q R α) : W → Prog Q R α → Prop
  | refl : RunsTo I w' u w' u
  | call {w v : W} {q : Q} {k : R q → Prog Q R α} {r : R q} : I.serve w q r v →
      RunsTo I w' u v (k r) → RunsTo I w' u w (.call q k)

/-- A scheduler may let one thread run alone. -/
theorem reachable_of_runsTo {w v v' : W} {ts : List (Prog Q R α)} {t u : Prog Q R α}
    {θs : List (Thread W Q R α)} {i : ℕ} (hlt : i < θs.length) (h : RunsTo I v' u v t)
    {log : List (W × Event Q R)} (hp : (I.fixed w ts).Reachable ⟨v, θs.set i ⟨log, t⟩⟩) :
    ∃ log', (I.fixed w ts).Reachable ⟨v', θs.set i ⟨log', u⟩⟩ := by
  induction h generalizing log with
  | refl => exact ⟨log, hp⟩
  | @call v₀ v q k r hserve _ ih =>
    have hst := hp.step (.run (List.getElem?_set_self hlt) hserve)
    rw [List.set_set] at hst
    exact ih hst

end Interleaving
