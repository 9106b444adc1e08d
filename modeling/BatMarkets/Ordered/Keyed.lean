import Mathlib

/-!
# Chains of each key

A stream of values with keys, and a relation between a value and the next one of its key.  A reader
that keeps the last value of each key sees exactly whether the values of each key form a chain.

## Main results

* `keyedChain_cons` : what the reader checks at one value, and what it keeps.
* `isChain_iff_of_keys` : a stream whose keys have chains is a chain exactly when the values also
  relate wherever the key changes.
* `pairwise_iff_of_keys` : the same of any two values.
-/

namespace Ordered

variable {α κ : Type*} [DecidableEq κ] {key : α → κ} {R : α → α → Prop} {last : κ → Option α}
  {xs : List α}

/-- The values of each key form a chain, which begins with the last value met before. -/
def KeyedChain (key : α → κ) (R : α → α → Prop) (last : κ → Option α) (xs : List α) : Prop :=
  ∀ k, ((last k).toList ++ xs.filter (key · = k)).IsChain R

theorem isChain_toList_append_cons {before : Option α} {x : α} :
    (before.toList ++ x :: xs).IsChain R ↔ (∀ y ∈ before, R y x) ∧ (x :: xs).IsChain R := by
  cases before with
  | none => simp
  | some y => simp

/-- A value has to relate to the last one of its key, and is the last one afterwards. -/
theorem keyedChain_cons {x : α} :
    KeyedChain key R last (x :: xs) ↔
      (∀ y ∈ last (key x), R y x) ∧
        KeyedChain key R (Function.update last (key x) (some x)) xs := by
  have hown : (x :: xs).filter (key · = key x) = x :: xs.filter (key · = key x) := by simp
  have hother : ∀ k, k ≠ key x → (x :: xs).filter (key · = k) = xs.filter (key · = k) := by
    intro k hk
    simp [hk.symm]
  constructor
  · intro h
    have hx := h (key x)
    rw [hown, isChain_toList_append_cons] at hx
    refine ⟨hx.1, fun k => ?_⟩
    by_cases hk : k = key x
    · subst hk
      simpa using hx.2
    · rw [Function.update_of_ne hk, ← hother k hk]
      exact h k
  · rintro ⟨hlast, h⟩ k
    by_cases hk : k = key x
    · subst hk
      rw [hown, isChain_toList_append_cons]
      have hx := h (key x)
      rw [Function.update_self] at hx
      exact ⟨hlast, hx⟩
    · rw [hother k hk]
      have hk' := h k
      rwa [Function.update_of_ne hk] at hk'

/-- Two neighbours of one key are also neighbours among the values of this key. -/
theorem isChain_iff_of_keys (hkeys : ∀ k, (xs.filter (key · = k)).IsChain R) :
    xs.IsChain R ↔ xs.IsChain fun x y => key x ≠ key y → R x y := by
  simp only [List.isChain_iff_forall_rel_of_append_cons_cons]
  constructor
  · intro h x y before after heq _
    exact h heq
  · intro h x y before after heq
    by_cases hk : key x = key y
    · have hfeed := hkeys (key x)
      rw [heq, List.filter_append, List.filter_cons_of_pos (by simp),
        List.filter_cons_of_pos (by simp [hk])] at hfeed
      exact List.isChain_cons_cons.1 hfeed.right_of_append |>.1
    · exact h heq hk

/-- Two values of one key are also two of the values of this key. -/
theorem pairwise_iff_of_keys (hkeys : ∀ k, (xs.filter (key · = k)).Pairwise R) :
    xs.Pairwise R ↔ xs.Pairwise fun x y => key x ≠ key y → R x y := by
  induction xs with
  | nil => simp
  | cons x xs ih =>
    have hrest : ∀ k, (xs.filter (key · = k)).Pairwise R := by
      intro k
      exact (hkeys k).sublist ((List.sublist_cons_self x xs).filter _)
    have hown := hkeys (key x)
    rw [List.filter_cons_of_pos (by simp), List.pairwise_cons] at hown
    rw [List.pairwise_cons, List.pairwise_cons, ih hrest]
    refine and_congr_left fun _ => forall₂_congr fun y hy => ?_
    constructor
    · intro h _
      exact h
    · intro h
      by_cases hk : key x = key y
      · exact hown.1 y (List.mem_filter.2 ⟨hy, by simpa using hk.symm⟩)
      · exact h hk

end Ordered
