import Mathlib

/-!
# Replicas that catch up

A source shows at most one value in each slot, and changes one slot at a time.  A replica applies
the changes in order, some time after the source, and now and then overwrites some of its slots
with what the source showed there at some moment.

`CatchesUp start cs d s` says that the replica shows `s`, has applied the first `d` of the changes
`cs` that the source has made since it showed `start`, and will show what the source shows once it
has applied the others.

## Main results

* `CatchesUp.change`, `CatchesUp.deliver` : a change of the source, and its application, keep it.
* `CatchesUp.overwrite` : so does an overwrite of slots with what the source showed after `r`
  changes, as long as no later change of these slots has been applied yet.
* `CatchesUp.eq` : a replica that has applied all the changes shows what the source shows.
-/

namespace Replication

/-- A slot shows a value from now on, or nothing. -/
structure Change (κ ν : Type*) where
  slot : κ
  value : Option ν

variable {κ ν : Type*} [DecidableEq κ]

/-- What is shown after a change. -/
def Change.apply (s : κ → Option ν) (c : Change κ ν) : κ → Option ν :=
  Function.update s c.slot c.value

/-- What is shown after a list of changes. -/
def replay (s : κ → Option ν) (cs : List (Change κ ν)) : κ → Option ν := cs.foldl Change.apply s

@[simp] theorem replay_nil (s : κ → Option ν) : replay s [] = s := rfl

@[simp] theorem replay_cons (s : κ → Option ν) (c : Change κ ν) (cs : List (Change κ ν)) :
    replay s (c :: cs) = replay (c.apply s) cs := rfl

theorem replay_append (s : κ → Option ν) (cs cs' : List (Change κ ν)) :
    replay s (cs ++ cs') = replay (replay s cs) cs' := List.foldl_append

section Slot

variable {s s' : κ → Option ν} {cs : List (Change κ ν)} {k : κ}

/-- A slot that no change is about shows what it showed. -/
theorem replay_of_forall_ne (h : ∀ c ∈ cs, c.slot ≠ k) : replay s cs k = s k := by
  induction cs generalizing s with
  | nil => rfl
  | cons c cs ih =>
    rw [List.forall_mem_cons] at h
    rw [replay_cons, ih h.2, Change.apply, Function.update_of_ne h.1.symm]

/-- What a slot shows after the changes depends on what it showed before. -/
theorem replay_congr (h : s k = s' k) : replay s cs k = replay s' cs k := by
  induction cs generalizing s s' with
  | nil => exact h
  | cons c cs ih =>
    refine ih ?_
    simp only [Change.apply, Function.update_apply, h]

/-- A slot that is changed shows the same afterwards, whatever it showed before. -/
theorem replay_eq_of_exists (h : ∃ c ∈ cs, c.slot = k) : replay s cs k = replay s' cs k := by
  induction cs generalizing s s' with
  | nil =>
    obtain ⟨c, hc, -⟩ := h
    cases hc
  | cons c cs ih =>
    by_cases hcs : ∃ c ∈ cs, c.slot = k
    · exact ih hcs
    · have hc : c.slot = k := by
        obtain ⟨d, hd, hk⟩ := h
        rcases List.mem_cons.1 hd with rfl | hd
        · exact hk
        · exact absurd ⟨d, hd, hk⟩ hcs
      rw [replay_cons, replay_cons]
      refine replay_congr ?_
      simp only [Change.apply, hc, Function.update_self]

end Slot

/-- The replica, which shows `s` and has applied the first `d` changes, will show what the source
shows. -/
def CatchesUp (start : κ → Option ν) (cs : List (Change κ ν)) (d : ℕ) (s : κ → Option ν) : Prop :=
  replay s (cs.drop d) = replay start cs

namespace CatchesUp

variable {start s s' : κ → Option ν} {cs : List (Change κ ν)} {d : ℕ}

theorem initial (start : κ → Option ν) : CatchesUp start [] 0 start := rfl

/-- The source makes a change. -/
theorem change (h : CatchesUp start cs d s) (hd : d ≤ cs.length) (c : Change κ ν) :
    CatchesUp start (cs ++ [c]) d s := by
  rw [CatchesUp, List.drop_append_of_le_length hd, replay_append, replay_append, h]

/-- The replica applies its next change. -/
theorem deliver (h : CatchesUp start cs d s) {c : Change κ ν} (hc : cs[d]? = some c) :
    CatchesUp start cs (d + 1) (c.apply s) := by
  obtain ⟨hd, rfl⟩ := List.getElem?_eq_some_iff.1 hc
  rwa [CatchesUp, List.drop_eq_getElem_cons hd, replay_cons] at h

/-- The replica overwrites slots with what the source showed after some number of changes, of which
later ones about the same slot have not been applied yet. -/
theorem overwrite (h : CatchesUp start cs d s) (hs : ∀ k, s' k = s k ∨
      ∃ r, s' k = replay start (cs.take r) k ∧ ∀ c ∈ (cs.take d).drop r, c.slot ≠ k) :
    CatchesUp start cs d s' := by
  funext k
  by_cases hk : ∃ c ∈ cs.drop d, c.slot = k
  · exact (replay_eq_of_exists hk).trans (congrFun h k)
  · have hleft : ∀ c ∈ cs.drop d, c.slot ≠ k := fun c hc heq => hk ⟨c, hc, heq⟩
    rcases hs k with heq | ⟨r, heq, happlied⟩
    · rw [replay_congr heq]
      exact congrFun h k
    · -- no change about the slot has been made after the first `r`
      have hlate : ∀ c ∈ cs.drop r, c.slot ≠ k := by
        intro c hc
        rw [← List.take_append_drop d cs, List.drop_append] at hc
        rcases List.mem_append.1 hc with hc | hc
        · exact happlied c hc
        · exact hleft c (List.mem_of_mem_drop hc)
      rw [replay_of_forall_ne hleft, heq, ← List.take_append_drop r cs, replay_append,
        replay_of_forall_ne hlate, List.take_append_drop]

/-- A replica that has applied all the changes shows what the source shows. -/
theorem eq (h : CatchesUp start cs d s) (hd : cs.length ≤ d) : s = replay start cs := by
  rwa [CatchesUp, List.drop_eq_nil_of_le hd] at h

end CatchesUp

end Replication
