import Mathlib

/-!
# Price levels

One side of a book has a quantity at some of the prices.  A change lists levels: a quantity of zero
removes the level of its price, any other one sets it.  The best level is one with no better price.

## Main results

* `setLevels_of_mem`, `setLevels_of_not_mem` : what a change does at each price.
* `isBest_setLevels_cons_iff` : when the first level of a change is the best one after it.
-/

namespace Ordered

section Levels

variable {κ ν : Type*}

/-- The quantity at each price that has one. -/
abbrev Levels (κ ν : Type*) := κ → Option ν

/-- The level is there, and no level has a better price. -/
structure IsBest (better : κ → κ → Prop) (side : Levels κ ν) (p : κ) (q : ν) : Prop where
  level : side p = some q
  best : ∀ p', better p' p → side p' = none

variable [DecidableEq κ] [DecidableEq ν] [Zero ν]

/-- What a level of a change leaves at its price. -/
def levelOf (q : ν) : Option ν := if q = 0 then none else some q

/-- The level is set at its price. -/
def setLevel (side : Levels κ ν) (level : κ × ν) : Levels κ ν :=
  Function.update side level.1 (levelOf level.2)

/-- The levels are set one after the other. -/
def setLevels (side : Levels κ ν) (levels : List (κ × ν)) : Levels κ ν :=
  levels.foldl setLevel side

variable {side : Levels κ ν} {levels : List (κ × ν)} {p : κ} {q : ν}

/-- A price that is not listed keeps its level. -/
theorem setLevels_of_not_mem (h : p ∉ levels.map (·.1)) : setLevels side levels p = side p := by
  induction levels generalizing side with
  | nil => rfl
  | cons level levels ih =>
    rw [List.map_cons, List.mem_cons, not_or] at h
    have hset : setLevel side level p = side p := Function.update_of_ne h.1 _ _
    exact (ih h.2).trans hset

/-- A price that is listed has the level that is listed for it. -/
theorem setLevels_of_mem (hnodup : (levels.map (·.1)).Nodup) (h : (p, q) ∈ levels) :
    setLevels side levels p = levelOf q := by
  induction levels generalizing side with
  | nil => cases h
  | cons level levels ih =>
    obtain ⟨hlevel, hnodup⟩ := List.nodup_cons.1 hnodup
    rcases List.mem_cons.1 h with rfl | h
    · have hset : setLevel side (p, q) p = levelOf q := Function.update_self _ _ _
      exact (setLevels_of_not_mem hlevel).trans hset
    · exact ih hnodup h

theorem levelOf_eq_none : levelOf q = none ↔ q = 0 := by
  unfold levelOf
  split
  next h => exact iff_of_true rfl h
  next h => exact iff_of_false (fun hsome => by cases hsome) h

theorem levelOf_eq_some : levelOf q = some q ↔ q ≠ 0 := by
  unfold levelOf
  split
  next h => exact iff_of_false (fun hnone => by cases hnone) (not_not.2 h)
  next h => exact iff_of_true rfl h

/-- The change leaves nothing at the price. -/
theorem setLevels_eq_none_iff (hnodup : (levels.map (·.1)).Nodup) :
    setLevels side levels p = none ↔
      (∀ q, (p, q) ∈ levels → q = 0) ∧ (side p ≠ none → (p, 0) ∈ levels) := by
  by_cases hp : p ∈ levels.map (·.1)
  · obtain ⟨⟨_, q⟩, hq, rfl⟩ := List.mem_map.1 hp
    rw [setLevels_of_mem hnodup hq, levelOf_eq_none]
    constructor
    · rintro rfl
      refine ⟨fun q' hq' => ?_, fun _ => hq⟩
      have hsame := List.inj_on_of_nodup_map hnodup hq' hq rfl
      exact congrArg Prod.snd hsame
    · intro h
      exact h.1 q hq
  · rw [setLevels_of_not_mem hp]
    constructor
    · intro h
      exact ⟨fun q hq => absurd (List.mem_map_of_mem hq) hp, fun hsome => absurd h hsome⟩
    · intro h
      by_contra hsome
      exact hp (List.mem_map_of_mem (h.2 hsome))

/-- The first level of a change is the best one after it exactly when it is no removal, and the
change removes every better one. -/
theorem isBest_setLevels_cons_iff {better : κ → κ → Prop} (hirrefl : ∀ p, ¬ better p p)
    (hnodup : (((p, q) :: levels).map (·.1)).Nodup) :
    IsBest better (setLevels side ((p, q) :: levels)) p q ↔
      q ≠ 0 ∧ ∀ p', better p' p → (∀ q', (p', q') ∈ levels → q' = 0) ∧
        (side p' ≠ none → (p', 0) ∈ levels) := by
  have hfirst : setLevels side ((p, q) :: levels) p = levelOf q :=
    setLevels_of_mem hnodup List.mem_cons_self
  -- a better price is not that of the first level
  have hrest : ∀ p' q', better p' p → ((p', q') ∈ (p, q) :: levels ↔ (p', q') ∈ levels) := by
    intro p' q' hbetter
    rw [List.mem_cons]
    refine or_iff_right fun heq => hirrefl p ?_
    rwa [(Prod.mk.inj heq).1] at hbetter
  have hbetter : ∀ p', better p' p → (setLevels side ((p, q) :: levels) p' = none ↔
      (∀ q', (p', q') ∈ levels → q' = 0) ∧ (side p' ≠ none → (p', 0) ∈ levels)) := by
    intro p' h
    rw [setLevels_eq_none_iff hnodup]
    simp only [hrest p' _ h]
  constructor
  · intro h
    refine ⟨?_, fun p' h' => (hbetter p' h').1 (h.best p' h')⟩
    have hlevel := h.level
    rw [hfirst] at hlevel
    exact levelOf_eq_some.1 hlevel
  · rintro ⟨hq, h⟩
    refine ⟨?_, fun p' h' => (hbetter p' h').2 (h p' h')⟩
    rw [hfirst]
    exact levelOf_eq_some.2 hq

end Levels

end Ordered
