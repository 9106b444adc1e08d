import Mathlib

/-!
# Items in custody

Items wait in lines and are let through, the first of a line at a time.  An item that enters one
line once is let through once at most; a line may be cleared, and what was in it is let through
never.

## Main results

* `Once.enter`, `Once.pass`, `Once.clear` : no step lets an item be in two places.
* `holds_enter`, `Holds.of_pass`, `Holds.of_clear` : an item is only known once it has entered.
-/

namespace Interleaving

/-- Items that wait in lines, and those that have been let through. -/
structure Custody (κ ι : Type*) where
  line : κ → List ι
  passed : List ι

namespace Custody

variable {κ ι : Type*} {c : Custody κ ι} {k : κ} {i j : ι}

/-- The item waits or has been let through. -/
def Holds (c : Custody κ ι) (i : ι) : Prop := i ∈ c.passed ∨ ∃ k, i ∈ c.line k

/-- Every item is in one place. -/
structure Once (c : Custody κ ι) : Prop where
  line : ∀ k, (c.line k).Nodup
  apart : ∀ k k' i, i ∈ c.line k → i ∈ c.line k' → k = k'
  ahead : ∀ k i, i ∈ c.line k → i ∉ c.passed
  passed : c.passed.Nodup

variable [DecidableEq κ]

/-- The item stands last in the line. -/
def enter (c : Custody κ ι) (k : κ) (i : ι) : Custody κ ι :=
  { c with line := Function.update c.line k (c.line k ++ [i]) }

/-- The first item of the line is let through. -/
def pass (c : Custody κ ι) (k : κ) : Custody κ ι where
  line := Function.update c.line k (c.line k).tail
  passed := c.passed ++ (c.line k).head?.toList

/-- All items of the line are let go. -/
def clear (c : Custody κ ι) (k : κ) : Custody κ ι :=
  { c with line := Function.update c.line k [] }

theorem mem_line_enter {k' : κ} :
    j ∈ (c.enter k i).line k' ↔ j ∈ c.line k' ∨ k' = k ∧ j = i := by
  unfold enter
  by_cases h : k' = k
  · subst h
    simp
  · simp [h]

theorem mem_line_pass {k' : κ} (h : j ∈ (c.pass k).line k') : j ∈ c.line k' := by
  unfold pass at h
  by_cases hk : k' = k
  · subst hk
    exact List.mem_of_mem_tail (by simpa using h)
  · simpa [hk] using h

theorem mem_line_clear {k' : κ} (h : j ∈ (c.clear k).line k') : j ∈ c.line k' := by
  unfold clear at h
  by_cases hk : k' = k
  · subst hk
    simp at h
  · simpa [hk] using h

theorem holds_enter : (c.enter k i).Holds j ↔ c.Holds j ∨ j = i := by
  unfold Holds
  simp only [mem_line_enter, exists_or, exists_eq_left, or_assoc]
  exact Iff.rfl

theorem Holds.of_pass (h : (c.pass k).Holds j) : c.Holds j := by
  rcases h with h | ⟨k', h⟩
  · rcases List.mem_append.1 h with h | h
    · exact .inl h
    · exact .inr ⟨k, List.mem_of_mem_head? (by simpa using h)⟩
  · exact .inr ⟨k', mem_line_pass h⟩

theorem Holds.of_clear (h : (c.clear k).Holds j) : c.Holds j := by
  rcases h with h | ⟨k', h⟩
  · exact .inl h
  · exact .inr ⟨k', mem_line_clear h⟩

/-- An item that is not known may enter. -/
theorem Once.enter (h : c.Once) (hi : ¬ c.Holds i) : (c.enter k i).Once where
  line := by
    intro k'
    unfold Custody.enter
    by_cases hk : k' = k
    · subst hk
      have hnot : i ∉ c.line k' := fun hmem => hi (.inr ⟨k', hmem⟩)
      simpa using List.nodup_append.2 ⟨h.line k', List.nodup_singleton i, by
        rintro a ha b hb rfl
        exact hnot (List.mem_singleton.1 hb ▸ ha)⟩
    · simpa [hk] using h.line k'
  apart := by
    intro k₁ k₂ j h₁ h₂
    rw [mem_line_enter] at h₁ h₂
    rcases h₁ with h₁ | ⟨rfl, rfl⟩
    · rcases h₂ with h₂ | ⟨rfl, rfl⟩
      · exact h.apart k₁ k₂ j h₁ h₂
      · exact absurd (.inr ⟨k₁, h₁⟩) hi
    · rcases h₂ with h₂ | ⟨rfl, -⟩
      · exact absurd (.inr ⟨k₂, h₂⟩) hi
      · rfl
  ahead := by
    intro k' j hj
    rcases mem_line_enter.1 hj with hj | ⟨rfl, rfl⟩
    · exact h.ahead k' j hj
    · exact fun hpassed => hi (.inl hpassed)
  passed := h.passed

theorem Once.pass (h : c.Once) : (c.pass k).Once := by
  cases hline : c.line k with
  | nil =>
    have hlines : Function.update c.line k [] = c.line := by
      rw [← hline, Function.update_eq_self]
    have hsame : c.pass k = c := by
      unfold Custody.pass
      simp [hline, hlines]
    rwa [hsame]
  | cons i rest =>
    have hi : i ∈ c.line k := by simp [hline]
    have hnodup := h.line k
    rw [hline] at hnodup
    refine ⟨fun k' => ?_, fun k₁ k₂ j h₁ h₂ => ?_, fun k' j hj => ?_, ?_⟩
    · unfold Custody.pass
      by_cases hk : k' = k
      · subst hk
        simpa [hline] using hnodup.of_cons
      · simpa [hk] using h.line k'
    · exact h.apart k₁ k₂ j (mem_line_pass h₁) (mem_line_pass h₂)
    · have hmem := mem_line_pass hj
      show j ∉ c.passed ++ (c.line k).head?.toList
      rw [hline]
      simp only [List.head?_cons, Option.toList_some, List.mem_append, List.mem_singleton, not_or]
      refine ⟨h.ahead k' j hmem, ?_⟩
      rintro rfl
      -- the first item has left its line, and was in no other one
      obtain rfl := h.apart k' k j hmem hi
      unfold Custody.pass at hj
      simp only [hline, List.tail_cons, Function.update_self] at hj
      exact (List.nodup_cons.1 hnodup).1 hj
    · show (c.passed ++ (c.line k).head?.toList).Nodup
      rw [hline]
      refine List.nodup_append.2 ⟨h.passed, List.nodup_singleton i, ?_⟩
      rintro a ha b hb rfl
      rw [List.mem_singleton.1 hb] at ha
      exact h.ahead k i hi ha

theorem Once.clear (h : c.Once) : (c.clear k).Once where
  line := by
    intro k'
    unfold Custody.clear
    by_cases hk : k' = k
    · subst hk
      simp
    · simpa [hk] using h.line k'
  apart := fun k₁ k₂ j h₁ h₂ => h.apart k₁ k₂ j (mem_line_clear h₁) (mem_line_clear h₂)
  ahead := fun k' j hj => h.ahead k' j (mem_line_clear hj)
  passed := h.passed

end Custody

end Interleaving
