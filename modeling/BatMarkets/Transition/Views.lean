import BatMarkets.Transition.Basic

/-!
# Views of a state

A view is a part of the state of a step function.  It is confined to some of the labels when the
steps of all others leave it alone, and when what it becomes in a step depends on nothing but
itself and the label.  Then what a run does to the view can be read off the labels it is confined
to, whatever stands between them.

A system whose steps leave a view alone or move it by a step function makes the view run.

## Main results

* `Confined.run_filter` : the other labels may be left out.
* `Confined.run_congr` : two runs with the same labels of the view, from states in which it is the
  same, leave it the same.
* `System.ReachableWhen.exists_run` : what a view has become is where a run of its step function
  leads.
-/

namespace Transition

variable {S L V : Type*}

/-- The labels outside `concerns` leave the view alone, and after the others it depends only on
what it was. -/
structure Confined (next : S → L → S) (view : S → V) (concerns : L → Bool) : Prop where
  skip : ∀ s l, concerns l = false → view (next s l) = view s
  congr : ∀ s s' l, concerns l = true → view s = view s' → view (next s l) = view (next s' l)

namespace Confined

variable {next : S → L → S} {view : S → V} {concerns : L → Bool} {s s' : S} {ls ls' : List L}

/-- **The other labels may be left out.** -/
theorem run_filter (h : Confined next view concerns) (hs : view s = view s') :
    view (run next s ls) = view (run next s' (ls.filter concerns)) := by
  induction ls generalizing s s' with
  | nil => exact hs
  | cons l ls ih =>
    cases hl : concerns l with
    | false =>
      rw [List.filter_cons_of_neg (by simp [hl])]
      exact ih ((h.skip s l hl).trans hs)
    | true =>
      rw [List.filter_cons_of_pos hl]
      exact ih (h.congr s s' l hl hs)

/-- **The labels of a view decide what becomes of it.** -/
theorem run_congr (h : Confined next view concerns) (hs : view s = view s')
    (hls : ls.filter concerns = ls'.filter concerns) :
    view (run next s ls) = view (run next s' ls') :=
  calc view (run next s ls)
    _ = view (run next s' (ls.filter concerns)) := h.run_filter hs
    _ = view (run next s' (ls'.filter concerns)) := by rw [hls]
    _ = view (run next s' ls') := (h.run_filter rfl).symm

end Confined

/-! ### The run of a view -/

/-- One more label. -/
theorem StepsMeet.concat {next : S → L → S} {ok : S → L → Prop} {s : S} {ls : List L} {l : L}
    (h : StepsMeet next ok s ls) (hl : ok (run next s ls) l) : StepsMeet next ok s (ls ++ [l]) := by
  induction ls generalizing s with
  | nil => exact ⟨hl, trivial⟩
  | cons l' ls ih => exact ⟨h.1, ih h.2 hl⟩

/-- **The view of a run is a run of the view**, when each guarded step leaves the view alone or is a
good step of it. -/
theorem System.ReachableWhen.exists_run {A : System S L} {ok : S → L → Prop} {view : S → V}
    {M : Type*} {next : V → M → V} {good : V → M → Prop} {v : V} {s : S}
    (h : A.ReachableWhen ok s) (hinit : ∀ s, A.init s → view s = v)
    (hstep : ∀ s l s', A.ReachableWhen ok s → ok s l → A.step s l s' →
      view s' = view s ∨ ∃ m, good (view s) m ∧ view s' = next (view s) m) :
    ∃ ms, StepsMeet next good v ms ∧ view s = run next v ms := by
  induction h with
  | init hs => exact ⟨[], trivial, hinit _ hs⟩
  | @step s s' l hs hok hst ih =>
    obtain ⟨ms, hms, hview⟩ := ih
    rcases hstep _ _ _ hs hok hst with hsame | ⟨m, hm, hnext⟩
    · exact ⟨ms, hms, hsame.trans hview⟩
    · refine ⟨ms ++ [m], hms.concat (hview ▸ hm), ?_⟩
      rw [hnext, hview, run_append]
      rfl

end Transition
