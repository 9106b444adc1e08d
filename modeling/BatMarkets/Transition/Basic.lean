import Mathlib

/-!
# Transition systems, guarded runs and exact guards

A `System` is a labelled transition system with initial states.  These notions of run are used.

* `System.Reachable` : the states of all runs.
* `System.ReachableWhen ok` : the states of the runs whose steps all meet the guard `ok`, a
  condition on the state before the step and on its label.
* `System.RunOf` : the runs with the list of their steps.
* `Visited` and `StepsMeet` : for a step *function*, the states a list of labels visits, and the
  condition that every step of that list meets the guard.

## Main results

* `System.ReachableWhen.invariant` : a predicate that holds initially and is kept by every guarded
  step holds in every state of the guarded runs.
* `System.RunOf.forall_iff` : if a step has a property exactly when it meets the guard, then all
  steps of a run have it exactly when all meet the guard.
* `run_iff_setAndKept` : a property that a step sets, keeps or ends holds after a run according to
  the last step that sets it.
* `forall_visited_iff_stepsMeet` : if, from good states, one step keeps a property exactly when it
  meets the guard, then a run keeps the property in all the states it visits exactly when all its
  steps meet the guard.  This turns the one-step analysis of an operation into the exact condition
  under which whole runs are correct.
-/

namespace Transition

/-- A labelled transition system with states `S`, labels `L` and initial states. -/
structure System (S L : Type*) where
  /-- The states a run may start in. -/
  init : S → Prop
  /-- `step s l s'` : the system can move from `s` to `s'` performing `l`. -/
  step : S → L → S → Prop

namespace System

variable {S L : Type*} (A : System S L)

/-- The states of the runs all of whose steps meet the guard `ok`. -/
inductive ReachableWhen (ok : S → L → Prop) : S → Prop
  | init {s : S} : A.init s → ReachableWhen ok s
  | step {s s' : S} {l : L} : ReachableWhen ok s → ok s l → A.step s l s' → ReachableWhen ok s'

/-- The states of all runs. -/
def Reachable (s : S) : Prop := A.ReachableWhen (fun _ _ => True) s

variable {A}

/-- A predicate that holds initially and is kept by every guarded step holds along every guarded
run. -/
theorem ReachableWhen.invariant {ok : S → L → Prop} {I : S → Prop} {s : S}
    (h : A.ReachableWhen ok s) (hinit : ∀ s, A.init s → I s)
    (hstep : ∀ s l s', I s → ok s l → A.step s l s' → I s') : I s := by
  induction h with
  | init hs => exact hinit _ hs
  | step _ hok hst ih => exact hstep _ _ _ ih hok hst

theorem ReachableWhen.mono {ok ok' : S → L → Prop} (himp : ∀ s l, ok s l → ok' s l) {s : S}
    (h : A.ReachableWhen ok s) : A.ReachableWhen ok' s := by
  induction h with
  | init hs => exact .init hs
  | step _ hok hst ih => exact .step ih (himp _ _ hok) hst

/-- Guarded runs are runs. -/
theorem ReachableWhen.reachable {ok : S → L → Prop} {s : S} (h : A.ReachableWhen ok s) :
    A.Reachable s :=
  h.mono fun _ _ _ => trivial

variable (A) in
/-- The runs: the steps made, the latest first, and the state they lead to. -/
inductive RunOf : List (S × L × S) → S → Prop
  | init {s : S} : A.init s → RunOf [] s
  | step {s s' : S} {l : L} {steps : List (S × L × S)} :
      RunOf steps s → A.step s l s' → RunOf ((s, l, s') :: steps) s'

theorem Reachable.init {s : S} (h : A.init s) : A.Reachable s := ReachableWhen.init h

theorem Reachable.step {s s' : S} {l : L} (h : A.Reachable s) (hst : A.step s l s') :
    A.Reachable s' :=
  ReachableWhen.step h trivial hst

theorem RunOf.reachable {steps : List (S × L × S)} {s : S} (h : A.RunOf steps s) :
    A.Reachable s := by
  induction h with
  | init hs => exact .init hs
  | step _ hst ih => exact ih.step hst

theorem Reachable.exists_runOf {s : S} (h : A.Reachable s) : ∃ steps, A.RunOf steps s := by
  induction h with
  | init hs => exact ⟨[], .init hs⟩
  | step _ _ hst ih =>
    obtain ⟨steps, hsteps⟩ := ih
    exact ⟨_, hsteps.step hst⟩

/-- **Exact guards, for relations.**  If from reachable states a step has the property `P` exactly
when it meets the guard, then all steps of a run have it exactly when all meet the guard. -/
theorem RunOf.forall_iff (ok : S → L → Prop) (P : S → S → Prop)
    (hP : ∀ s l s', A.Reachable s → A.step s l s' → (P s s' ↔ ok s l))
    {steps : List (S × L × S)} {s : S} (h : A.RunOf steps s) :
    (∀ x ∈ steps, P x.1 x.2.2) ↔ ∀ x ∈ steps, ok x.1 x.2.1 := by
  induction h with
  | init hs => exact iff_of_true nofun nofun
  | step hrun hst ih =>
    simp only [List.forall_mem_cons, ih]
    exact and_congr_left' (hP _ _ _ hrun.reachable hst)

end System

/-! ### Runs of a step function -/

section Functional

variable {S L : Type*} (next : S → L → S)

/-- The state a list of labels leads to. -/
def run (s : S) (ls : List L) : S := ls.foldl next s

/-- `t` is one of the states the run of `ls` from `s` visits, the first and the last included. -/
def Visited (s : S) (ls : List L) (t : S) : Prop := ∃ pre, pre <+: ls ∧ t = run next s pre

/-- Every step of the run of `ls` from `s` meets the guard in the state before it. -/
def StepsMeet (ok : S → L → Prop) : S → List L → Prop
  | _, [] => True
  | s, l :: ls => ok s l ∧ StepsMeet ok (next s l) ls

variable {next}

@[simp] theorem run_nil (s : S) : run next s [] = s := rfl

@[simp] theorem run_cons (s : S) (l : L) (ls : List L) :
    run next s (l :: ls) = run next (next s l) ls := rfl

theorem run_append (s : S) (ls ls' : List L) :
    run next s (ls ++ ls') = run next (run next s ls) ls' := by
  simp [run]

theorem visited_nil {s t : S} : Visited next s [] t ↔ t = s := by
  simp [Visited]

theorem visited_cons {s t : S} {l : L} {ls : List L} :
    Visited next s (l :: ls) t ↔ t = s ∨ Visited next (next s l) ls t := by
  constructor
  · rintro ⟨pre, hpre, rfl⟩
    rcases List.prefix_cons_iff.1 hpre with rfl | ⟨pre', rfl, hpre'⟩
    · exact .inl rfl
    · exact .inr ⟨pre', hpre', rfl⟩
  · rintro (rfl | ⟨pre, hpre, rfl⟩)
    · exact ⟨[], List.nil_prefix, rfl⟩
    · exact ⟨l :: pre, List.cons_prefix_cons.2 ⟨rfl, hpre⟩, rfl⟩

theorem visited_run (s : S) (ls : List L) : Visited next s ls (run next s ls) :=
  ⟨ls, List.prefix_rfl, rfl⟩

/-- A predicate kept by every step holds in every state a run visits. -/
theorem Visited.invariant {I : S → Prop} (hstep : ∀ s l, I s → I (next s l)) {s t : S}
    {ls : List L} (h : Visited next s ls t) (hs : I s) : I t := by
  induction ls generalizing s with
  | nil => rw [visited_nil.1 h]; exact hs
  | cons l ls ih =>
    rcases visited_cons.1 h with rfl | h
    · exact hs
    · exact ih h (hstep s l hs)

theorem StepsMeet.of_prefix {ok : S → L → Prop} {s : S} {ls ls' : List L}
    (h : StepsMeet next ok s ls') (hpre : ls <+: ls') : StepsMeet next ok s ls := by
  induction ls generalizing s ls' with
  | nil => trivial
  | cons l ls ih =>
    obtain ⟨rest, rfl⟩ := hpre
    exact ⟨h.1, ih h.2 ⟨rest, rfl⟩⟩

/-- A step of the run meets the guard in the state before it. -/
theorem StepsMeet.getElem? {ok : S → L → Prop} {s : S} {ls : List L} (h : StepsMeet next ok s ls)
    {i : ℕ} {l : L} (hl : ls[i]? = some l) : ok (run next s (ls.take i)) l := by
  induction ls generalizing s i with
  | nil => cases hl
  | cons l' ls ih =>
    cases i with
    | zero =>
      obtain rfl : l' = l := by simpa using hl
      exact h.1
    | succ i => exact ih h.2 (by simpa using hl)

/-- A predicate kept by every step that meets the guard holds in every state of a run whose steps
all do. -/
theorem Visited.invariant_of_stepsMeet {ok : S → L → Prop} {I : S → Prop}
    (hstep : ∀ s l, I s → ok s l → I (next s l)) {s t : S} {ls : List L}
    (h : Visited next s ls t) (hok : StepsMeet next ok s ls) (hs : I s) : I t := by
  induction ls generalizing s with
  | nil => rw [visited_nil.1 h]; exact hs
  | cons l ls ih =>
    rcases visited_cons.1 h with rfl | h
    · exact hs
    · exact ih h hok.2 (hstep s l hs hok.1)

/-- **Exact guards.**  If from the states satisfying `I` and `P` one step keeps `P` exactly when
it meets `ok`, then a run keeps `P` in all the states it visits exactly when all its steps meet
`ok`. -/
theorem forall_visited_iff_stepsMeet {ok : S → L → Prop} {I P : S → Prop}
    (hI : ∀ s l, I s → I (next s l)) (hP : ∀ s l, I s → P s → (P (next s l) ↔ ok s l))
    {s : S} {ls : List L} (hs : I s) (hPs : P s) :
    (∀ t, Visited next s ls t → P t) ↔ StepsMeet next ok s ls := by
  induction ls generalizing s with
  | nil => simp [visited_nil, StepsMeet, hPs]
  | cons l ls ih =>
    simp only [visited_cons, StepsMeet]
    constructor
    · intro h
      have hnext : P (next s l) := h _ (.inr ⟨[], List.nil_prefix, rfl⟩)
      exact ⟨(hP s l hs hPs).1 hnext, (ih (hI s l hs) hnext).1 fun t ht => h t (.inr ht)⟩
    · rintro ⟨hok, hrest⟩ t (rfl | ht)
      · exact hPs
      · exact (ih (hI s l hs) ((hP s l hs hPs).2 hok)).2 hrest t ht

/-- A label of the list sets the property, and all those after it keep it. -/
def SetAndKept (next : S → L → S) (sets keeps : S → L → Prop) (s : S) (ls : List L) : Prop :=
  ∃ before l after, ls = before ++ l :: after ∧ sets (run next s before) l ∧
    StepsMeet next keeps (next (run next s before) l) after

theorem setAndKept_cons {sets keeps : S → L → Prop} {s : S} {l : L} {ls : List L} :
    SetAndKept next sets keeps s (l :: ls) ↔
      (sets s l ∧ StepsMeet next keeps (next s l) ls) ∨
        SetAndKept next sets keeps (next s l) ls := by
  constructor
  · rintro ⟨before, l', after, heq, hset, hkept⟩
    cases before with
    | nil =>
      obtain ⟨rfl, rfl⟩ := List.cons.inj heq
      exact .inl ⟨hset, hkept⟩
    | cons b before =>
      obtain ⟨rfl, rfl⟩ := List.cons.inj heq
      exact .inr ⟨before, l', after, rfl, hset, hkept⟩
  · rintro (⟨hset, hkept⟩ | ⟨before, l', after, rfl, hset, hkept⟩)
    · exact ⟨[], l, ls, rfl, hset, hkept⟩
    · exact ⟨l :: before, l', after, rfl, hset, hkept⟩

/-- **The last label that decides.**  If a property holds after a step exactly when the step sets it
or it held before and the step keeps it, then it holds at the end of a run exactly when it holds at
the start and all steps keep it, or some step sets it and all later ones keep it. -/
theorem run_iff_setAndKept {sets keeps : S → L → Prop} {P : S → Prop}
    (hstep : ∀ s l, P (next s l) ↔ sets s l ∨ P s ∧ keeps s l) {s : S} {ls : List L} :
    P (run next s ls) ↔
      (P s ∧ StepsMeet next keeps s ls) ∨ SetAndKept next sets keeps s ls := by
  induction ls generalizing s with
  | nil => simp [StepsMeet, SetAndKept]
  | cons l ls ih =>
    rw [run_cons, ih, hstep, setAndKept_cons, StepsMeet]
    tauto

end Functional

end Transition
