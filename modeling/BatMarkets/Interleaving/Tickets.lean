import Mathlib

/-!
# Work left in the order of tickets

Each owner draws a ticket when it takes on its work, and then does its items one after another.
What all owners have left is one queue, in the order of their tickets (`Queued`): an owner that
draws a ticket joins at the end, and one that does its next item takes it out of the middle, where
it leaves the order of the others as it was.

## Main results

* `Queued.draw` : an owner with nothing left draws a ticket.
* `Queued.take` : an owner does its next item; what stood before it in the queue is left to owners
  with earlier tickets.
* `Queued.mem_back` : what is left to owners with later tickets stands behind it.
-/

namespace Interleaving

variable {ι X : Type*} [DecidableEq ι]

/-- The item of an entry of a queue, if the entry is of this owner. -/
def ownedBy (i : ι) (entry : ι × X) : Option X := if entry.1 = i then some entry.2 else none

/-- What the owners have left, in the order of their tickets, when `now` is the next ticket. -/
structure Queued (ticket : ι → ℕ) (left : ι → List X) (now : ℕ) (queue : List (ι × X)) : Prop where
  left : ∀ i, queue.filterMap (ownedBy i) = left i
  tickets : queue.Pairwise fun a b => a.1 = b.1 ∨ ticket a.1 < ticket b.1
  drawn : ∀ a ∈ queue, ticket a.1 < now

namespace Queued

variable {ticket : ι → ℕ} {left : ι → List X} {now : ℕ} {queue : List (ι × X)} {i : ι}

theorem mem_iff (h : Queued ticket left now queue) {x : X} : (i, x) ∈ queue ↔ x ∈ left i := by
  rw [← h.left i, List.mem_filterMap]
  constructor
  · intro hx
    exact ⟨_, hx, if_pos rfl⟩
  · rintro ⟨⟨j, y⟩, hy, howned⟩
    obtain ⟨rfl, hxy⟩ := Option.ite_none_right_eq_some.1 howned
    cases hxy
    exact hy

/-- An owner with nothing left has no entry. -/
theorem ne_of_nil (h : Queued ticket left now queue) (hi : left i = []) :
    ∀ a ∈ queue, a.1 ≠ i := by
  rintro ⟨j, x⟩ ha rfl
  rw [h.mem_iff, hi] at ha
  cases ha

theorem eq_nil (h : Queued ticket left now queue) (hleft : ∀ i, left i = []) : queue = [] :=
  List.eq_nil_iff_forall_not_mem.2 fun a ha => h.ne_of_nil (hleft a.1) a ha rfl

theorem nil (hleft : ∀ i, left i = []) : Queued ticket left now [] :=
  ⟨fun i => (hleft i).symm, .nil, nofun⟩

/-- An owner with nothing left draws a ticket and joins at the end. -/
theorem draw (h : Queued ticket left now queue) (hi : left i = []) (xs : List X) :
    Queued (Function.update ticket i now) (Function.update left i xs) (now + 1)
      (queue ++ xs.map (i, ·)) := by
  have hne := h.ne_of_nil hi
  have hsame : ∀ a ∈ queue, Function.update ticket i now a.1 = ticket a.1 :=
    fun a ha => Function.update_of_ne (hne a ha) _ _
  have hnew : ∀ a ∈ xs.map (i, ·), a.1 = i := by
    intro a ha
    obtain ⟨x, -, rfl⟩ := List.mem_map.1 ha
    rfl
  refine ⟨fun j => ?_, List.pairwise_append.2 ⟨?_, ?_, ?_⟩, fun a ha => ?_⟩
  · rw [List.filterMap_append, h.left j, List.filterMap_map]
    by_cases hj : j = i
    · subst hj
      simp [hi, Function.comp_def, ownedBy]
    · simp [Function.update_of_ne hj, Function.comp_def, ownedBy, Ne.symm hj]
  · refine h.tickets.imp_of_mem fun ha hb hab => ?_
    rwa [hsame _ ha, hsame _ hb]
  · exact List.pairwise_of_forall_mem_list fun a ha b hb =>
      .inl ((hnew a ha).trans (hnew b hb).symm)
  · intro a ha b hb
    rw [hsame a ha, hnew b hb, Function.update_self]
    exact .inr (h.drawn a ha)
  · rcases List.mem_append.1 ha with ha | ha
    · rw [hsame a ha]
      exact Nat.lt_succ_of_lt (h.drawn a ha)
    · rw [hnew a ha, Function.update_self]
      exact Nat.lt_succ_self now

/-- An owner does its next item. What stood before it is left to owners with earlier tickets. -/
theorem take (h : Queued ticket left now queue) {x : X} {xs : List X} (hi : left i = x :: xs) :
    ∃ front back, queue = front ++ (i, x) :: back ∧
      (∀ a ∈ front, ticket a.1 < ticket i ∧ a.2 ∈ left a.1) ∧
      Queued ticket (Function.update left i xs) now (front ++ back) := by
  obtain ⟨front, ⟨j, y⟩, back, rfl, hfront, howned, hrest⟩ :=
    List.filterMap_eq_cons_iff.1 ((h.left i).trans hi)
  obtain ⟨rfl, hxy⟩ : j = i ∧ some y = some x := Option.ite_none_right_eq_some.1 howned
  cases hxy
  have hne : ∀ a ∈ front, a.1 ≠ j := fun a ha hj => by simpa [ownedBy, hj] using hfront a ha
  have hsub : (front ++ back).Sublist (front ++ (j, x) :: back) :=
    (List.sublist_cons_self _ _).append_left front
  obtain ⟨-, -, hbefore⟩ := List.pairwise_append.1 h.tickets
  refine ⟨front, back, rfl, fun a ha => ⟨?_, ?_⟩, fun k => ?_, h.tickets.sublist hsub,
    fun a ha => h.drawn a (hsub.subset ha)⟩
  · exact (hbefore a ha _ List.mem_cons_self).resolve_left (hne a ha)
  · exact h.mem_iff.1 (List.mem_append_left _ ha)
  · have hk := h.left k
    rw [List.filterMap_append] at hk ⊢
    by_cases hkj : k = j
    · subst hkj
      rw [Function.update_self, hrest, List.filterMap_eq_nil_iff.2 hfront, List.nil_append]
    · have hother : ownedBy k (j, x) = none := if_neg (Ne.symm hkj)
      rw [Function.update_of_ne hkj, ← hk, List.filterMap_cons_none hother]

/-- What is left to owners with later tickets stands behind the next item of an owner. -/
theorem mem_back {front back : List (ι × X)} {x y : X} {j : ι}
    (h : Queued ticket left now (front ++ (i, x) :: back)) (hlater : ticket i < ticket j)
    (hy : y ∈ left j) (hfront : ∀ a ∈ front, ticket a.1 < ticket i) : (j, y) ∈ back := by
  rcases List.mem_append.1 (h.mem_iff.2 hy) with hmem | hmem
  · exact absurd hlater (Nat.not_lt_of_gt (hfront _ hmem))
  · rcases List.mem_cons.1 hmem with heq | hmem
    · cases heq
      exact absurd hlater (Nat.lt_irrefl _)
    · exact hmem

end Queued

end Interleaving
