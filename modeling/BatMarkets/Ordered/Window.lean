import BatMarkets.Ordered.Map
import BatMarkets.Transition.Basic

/-!
# Windows without repetitions

A window holds the latest values of a stream, at most `cap` of them and no two with the same key:
`offer` appends a value, unless one with its key is there, and drops the oldest values beyond the
capacity.  A value that has been dropped is admitted again when it is met again.

## Main results

* `IsWindow.foldl_offer` : a window stays one whatever is admitted.
* `fitsInto_iff_stepsMeet` : admitting a list drops no value of the list exactly when the list fits
  into the window, which is a condition on the window and the list at the start.
* `foldl_offer_twice` : if the list fits, admitting it a second time changes nothing.
* `foldl_offer_eq_trimFront` : the window has the values that arrived last.
-/

namespace Ordered

open Transition

variable {α κ : Type*} [DecidableEq κ] (key : α → κ) (cap : ℕ)

/-- Append a value, unless there is one with its key, and drop the oldest beyond the capacity. -/
def offer (w : List α) (x : α) : List α :=
  if w.any (key · = key x) then w else trimFront cap (w ++ [x])

/-- At most `cap` values with distinct keys. -/
structure IsWindow (w : List α) : Prop where
  nodup : (w.map key).Nodup
  length_le : w.length ≤ cap

/-- The keys of `xs` that the window does not have. -/
def fresh (w xs : List α) : Finset κ := (xs.map key).toFinset \ (w.map key).toFinset

/-- The list fits into the window: its new values are at most `cap`, and the old values they push
out are not in the list. -/
structure FitsInto (w xs : List α) : Prop where
  fresh_le : (fresh key w xs).card ≤ cap
  pushedOut : ∀ y ∈ w.take (w.length + (fresh key w xs).card - cap), key y ∉ xs.map key

variable {key cap} {w xs : List α} {x : α}

theorem offer_of_mem (h : key x ∈ w.map key) : offer key cap w x = w := by
  obtain ⟨y, hy, hkey⟩ := List.mem_map.1 h
  rw [offer, if_pos (List.any_eq_true.2 ⟨y, hy, decide_eq_true hkey⟩)]

theorem offer_of_not_mem (h : key x ∉ w.map key) : offer key cap w x = trimFront cap (w ++ [x]) := by
  refine if_neg fun hany => h ?_
  obtain ⟨y, hy, hkey⟩ := List.any_eq_true.1 hany
  exact List.mem_map.2 ⟨y, hy, of_decide_eq_true hkey⟩

theorem offer_of_lt (h : key x ∉ w.map key) (hlt : w.length < cap) :
    offer key cap w x = w ++ [x] := by
  rw [offer_of_not_mem h, trimFront_eq_drop, List.length_append, List.length_singleton,
    Nat.sub_eq_zero_of_le (by omega), List.drop_zero]

theorem offer_cons {y : α} (h : key x ∉ (y :: w).map key) (hlen : w.length + 1 = cap) :
    offer key cap (y :: w) x = w ++ [x] := by
  rw [offer_of_not_mem h, trimFront_eq_drop]
  have hone : (y :: w ++ [x]).length - cap = 1 := by
    rw [List.length_append, List.length_cons, List.length_singleton]
    omega
  rw [hone]
  rfl

/-! ### Windows -/

omit [DecidableEq κ] in
theorem isWindow_nil : IsWindow key cap [] := ⟨List.nodup_nil, Nat.zero_le _⟩

theorem IsWindow.offer (h : IsWindow key cap w) (x : α) : IsWindow key cap (offer key cap w x) := by
  by_cases hx : key x ∈ w.map key
  · rwa [offer_of_mem hx]
  · rw [offer_of_not_mem hx, trimFront_eq_drop]
    constructor
    · have hall : ((w ++ [x]).map key).Nodup := by
        rw [List.map_append, List.nodup_append]
        refine ⟨h.nodup, List.nodup_singleton _, fun k hk k' hk' => ?_⟩
        rintro rfl
        obtain rfl := List.mem_singleton.1 hk'
        exact hx hk
      rw [List.map_drop]
      exact hall.sublist (List.drop_sublist _ _)
    · rw [List.length_drop]
      omega

theorem IsWindow.foldl_offer (h : IsWindow key cap w) (xs : List α) :
    IsWindow key cap (xs.foldl (Ordered.offer key cap) w) := by
  induction xs generalizing w with
  | nil => exact h
  | cons x xs ih => exact ih (h.offer x)

/-- A full window loses its oldest value to a new one. -/
theorem IsWindow.offer_cases (h : IsWindow key cap w) (hcap : 0 < cap) (hx : key x ∉ w.map key) :
    (w.length < cap ∧ Ordered.offer key cap w x = w ++ [x]) ∨
      ∃ y w', w = y :: w' ∧ w'.length + 1 = cap ∧ Ordered.offer key cap w x = w' ++ [x] := by
  by_cases hlt : w.length < cap
  · exact .inl ⟨hlt, offer_of_lt hx hlt⟩
  · cases w with
    | nil => exact absurd hcap hlt
    | cons y w' =>
      have hlen : w'.length + 1 = cap := le_antisymm h.length_le (not_lt.1 hlt)
      exact .inr ⟨y, w', rfl, hlen, offer_cons hx hlen⟩

theorem IsWindow.mem_offer (h : IsWindow key cap w) (hcap : 0 < cap) (x : α) :
    key x ∈ (Ordered.offer key cap w x).map key := by
  by_cases hx : key x ∈ w.map key
  · rwa [offer_of_mem hx]
  · rcases h.offer_cases hcap hx with ⟨-, ha⟩ | ⟨y, w', -, -, ha⟩ <;> simp [ha]

/-! ### Lists that fit -/

theorem fitsInto_iff : FitsInto key cap w xs ↔ (fresh key w xs).card ≤ cap ∧
    ∀ y ∈ w.take (w.length + (fresh key w xs).card - cap), key y ∉ xs.map key :=
  ⟨fun h => ⟨h.fresh_le, h.pushedOut⟩, fun h => ⟨h.1, h.2⟩⟩

theorem mem_fresh {k : κ} : k ∈ fresh key w xs ↔ k ∈ xs.map key ∧ k ∉ w.map key := by
  simp [fresh]

/-- A value of the list that enters the window is not new any more. -/
theorem card_fresh_of_enters {w' : List α} (hx : x ∈ xs) (hnew : key x ∉ w.map key)
    (hw' : ∀ k ∈ xs.map key, k ∈ w'.map key ↔ k ∈ w.map key ∨ k = key x) :
    (fresh key w xs).card = (fresh key w' xs).card + 1 := by
  have herase : fresh key w' xs = (fresh key w xs).erase (key x) := by
    ext k
    rw [Finset.mem_erase, mem_fresh, mem_fresh]
    constructor
    · rintro ⟨hk, hnot⟩
      rw [hw' k hk, not_or] at hnot
      exact ⟨hnot.2, hk, hnot.1⟩
    · rintro ⟨hne, hk, hnot⟩
      refine ⟨hk, ?_⟩
      rw [hw' k hk, not_or]
      exact ⟨hnot, hne⟩
  have hmem : key x ∈ fresh key w xs := mem_fresh.2 ⟨List.mem_map_of_mem hx, hnew⟩
  have hpos := Finset.card_pos.2 ⟨_, hmem⟩
  rw [herase, Finset.card_erase_of_mem hmem]
  omega

omit [DecidableEq κ] in
theorem forall_mem_take_append_iff (hx : key x ∈ xs.map key) (e : ℕ) :
    (∀ y ∈ (w ++ [x]).take e, key y ∉ xs.map key) ↔
      e ≤ w.length ∧ ∀ y ∈ w.take e, key y ∉ xs.map key := by
  by_cases he : e ≤ w.length
  · rw [List.take_append_of_le_length he]
    simp only [he, true_and]
  · have htake : (w ++ [x]).take e = w ++ [x] := List.take_of_length_le (by simp; omega)
    refine iff_of_false (fun hall => ?_) fun hall => he hall.1
    rw [htake] at hall
    exact hall x (List.mem_append_right _ List.mem_cons_self) hx

/-- **One step.**  The list fits exactly when it fits after one of its values has been admitted, and
no value of the list has been dropped for it. -/
theorem fitsInto_iff_offer (h : IsWindow key cap w) (hcap : 0 < cap) (hx : x ∈ xs) :
    FitsInto key cap w xs ↔ FitsInto key cap (offer key cap w x) xs ∧
      ∀ y ∈ w, key y ∈ xs.map key → y ∈ offer key cap w x := by
  by_cases hmem : key x ∈ w.map key
  · rw [offer_of_mem hmem]
    exact ⟨fun hf => ⟨hf, fun _ hy _ => hy⟩, fun hf => hf.1⟩
  have hkx : key x ∈ xs.map key := List.mem_map_of_mem hx
  rcases h.offer_cases hcap hmem with ⟨hlt, ha⟩ | ⟨y, w', rfl, hlen, ha⟩
  · -- the window has room, and nothing is dropped
    have hc : (fresh key w xs).card = (fresh key (w ++ [x]) xs).card + 1 :=
      card_fresh_of_enters hx hmem fun k _ => by simp
    have hkeep : ∀ y ∈ w, key y ∈ xs.map key → y ∈ w ++ [x] := fun y hy _ =>
      List.mem_append_left _ hy
    rw [ha, and_iff_left hkeep, fitsInto_iff, fitsInto_iff, forall_mem_take_append_iff hkx, hc,
      List.length_append, List.length_singleton]
    have he : w.length + ((fresh key (w ++ [x]) xs).card + 1) - cap =
        w.length + 1 + (fresh key (w ++ [x]) xs).card - cap := by omega
    rw [he, ← and_assoc]
    refine and_congr_left' ?_
    omega
  · -- the window is full, and its oldest value `y` is dropped
    have hdrop : y ∉ w' ++ [x] := by
      rw [List.mem_append, List.mem_singleton, not_or]
      refine ⟨fun hy => ?_, ?_⟩
      · exact (List.nodup_cons.1 h.nodup).1 (List.mem_map_of_mem hy)
      · rintro rfl
        exact hmem List.mem_cons_self
    have hkeep : (∀ z ∈ y :: w', key z ∈ xs.map key → z ∈ w' ++ [x]) ↔ key y ∉ xs.map key := by
      rw [List.forall_mem_cons]
      refine ⟨fun hall hy => hdrop (hall.1 hy), fun hy => ⟨fun hy' => absurd hy' hy, ?_⟩⟩
      exact fun z hz _ => List.mem_append_left _ hz
    have hlen' : (y :: w').length = cap := hlen
    rw [ha, hkeep, fitsInto_iff, fitsInto_iff, forall_mem_take_append_iff hkx, hlen',
      List.length_append, List.length_singleton, hlen, Nat.add_sub_cancel_left,
      Nat.add_sub_cancel_left]
    by_cases hy : key y ∈ xs.map key
    · -- then the list does not fit: it has a new value, which pushes `y` out
      refine iff_of_false (fun hf => ?_) fun hf => hf.2 hy
      have hpos : 0 < (fresh key (y :: w') xs).card :=
        Finset.card_pos.2 ⟨key x, mem_fresh.2 ⟨hkx, hmem⟩⟩
      obtain ⟨n, hn⟩ := Nat.exists_eq_succ_of_ne_zero hpos.ne'
      rw [hn, List.take_succ_cons] at hf
      exact hf.2 y List.mem_cons_self hy
    · have hc : (fresh key (y :: w') xs).card = (fresh key (w' ++ [x]) xs).card + 1 :=
        card_fresh_of_enters hx hmem fun k hk => by
          have hne : k ≠ key y := fun heq => hy (heq ▸ hk)
          simp [hne]
      rw [hc, List.take_succ_cons, List.forall_mem_cons]
      simp only [hy, not_false_eq_true, true_and, and_true, ← and_assoc]
      refine and_congr_left' ?_
      omega

/-- Admitting `x` drops no value of the list `xs` from the window. -/
def DropsNone (key : α → κ) (cap : ℕ) (xs w : List α) (x : α) : Prop :=
  ∀ y ∈ w, key y ∈ xs.map key → y ∈ offer key cap w x

/-- What is met stays in the window while no value of the list is dropped. -/
theorem mem_foldl_offer_of_stepsMeet {ps : List α} (h : IsWindow key cap w) (hcap : 0 < cap)
    (hps : ∀ x ∈ ps, x ∈ xs) (hmeet : StepsMeet (offer key cap) (DropsNone key cap xs) w ps) :
    (∀ y ∈ w, key y ∈ xs.map key → y ∈ ps.foldl (offer key cap) w) ∧
      ∀ x ∈ ps, key x ∈ (ps.foldl (offer key cap) w).map key := by
  induction ps generalizing w with
  | nil => exact ⟨fun _ hy _ => hy, nofun⟩
  | cons p ps ih =>
    obtain ⟨hkeep, hrest⟩ := ih (h.offer p) (fun x hx => hps x (List.mem_cons_of_mem _ hx)) hmeet.2
    refine ⟨fun y hy hkey => hkeep y (hmeet.1 y hy hkey) hkey, fun x hx => ?_⟩
    rcases List.mem_cons.1 hx with rfl | hx
    · obtain ⟨y, hy, hyx⟩ := List.mem_map.1 (h.mem_offer hcap x)
      have hkey : key y ∈ xs.map key := hyx ▸ List.mem_map_of_mem (hps x List.mem_cons_self)
      exact hyx ▸ List.mem_map_of_mem (hkeep y hy hkey)
    · exact hrest x hx

theorem fitsInto_iff_foldl {ps : List α} (h : IsWindow key cap w) (hcap : 0 < cap)
    (hps : ∀ x ∈ ps, x ∈ xs) :
    FitsInto key cap w xs ↔ FitsInto key cap (ps.foldl (offer key cap) w) xs ∧
      StepsMeet (offer key cap) (DropsNone key cap xs) w ps := by
  induction ps generalizing w with
  | nil => exact ⟨fun hf => ⟨hf, trivial⟩, fun hf => hf.1⟩
  | cons p ps ih =>
    rw [fitsInto_iff_offer h hcap (hps p List.mem_cons_self),
      ih (h.offer p) fun x hx => hps x (List.mem_cons_of_mem _ hx)]
    exact and_assoc.trans (and_congr_right' and_comm)

/-- A list whose values are all in the window fits. -/
theorem fitsInto_of_forall_mem (h : IsWindow key cap w)
    (hall : ∀ x ∈ xs, key x ∈ w.map key) : FitsInto key cap w xs := by
  have hnone : fresh key w xs = ∅ := by
    refine Finset.eq_empty_of_forall_notMem fun k hk => ?_
    obtain ⟨hxs, hw⟩ := mem_fresh.1 hk
    obtain ⟨x, hx, rfl⟩ := List.mem_map.1 hxs
    exact hw (hall x hx)
  rw [fitsInto_iff, hnone, Finset.card_empty, Nat.add_zero, Nat.sub_eq_zero_of_le h.length_le]
  exact ⟨Nat.zero_le _, nofun⟩

/-- **The whole list.**  Admitting the list drops none of its values exactly when it fits. -/
theorem fitsInto_iff_stepsMeet (h : IsWindow key cap w) (hcap : 0 < cap) :
    FitsInto key cap w xs ↔ StepsMeet (offer key cap) (DropsNone key cap xs) w xs := by
  rw [fitsInto_iff_foldl h hcap fun _ hx => hx]
  refine and_iff_right_of_imp fun hmeet => ?_
  exact fitsInto_of_forall_mem (h.foldl_offer xs)
    (mem_foldl_offer_of_stepsMeet h hcap (fun _ hx => hx) hmeet).2

theorem foldl_offer_of_forall_mem (hall : ∀ x ∈ xs, key x ∈ w.map key) :
    xs.foldl (offer key cap) w = w := by
  induction xs with
  | nil => rfl
  | cons x xs ih =>
    rw [List.foldl_cons, offer_of_mem (hall x List.mem_cons_self)]
    exact ih fun y hy => hall y (List.mem_cons_of_mem _ hy)

/-- A list that fits into the window changes nothing when it is admitted again. -/
theorem foldl_offer_twice (h : IsWindow key cap w) (hcap : 0 < cap)
    (hf : FitsInto key cap w xs) :
    xs.foldl (offer key cap) (xs.foldl (offer key cap) w) = xs.foldl (offer key cap) w :=
  foldl_offer_of_forall_mem
    (mem_foldl_offer_of_stepsMeet h hcap (fun _ hx => hx) ((fitsInto_iff_stepsMeet h hcap).1 hf)).2

/-! ### Arrivals -/

/-- The values of a list that enter the window: those not in it when they are admitted. -/
def entering (key : α → κ) (cap : ℕ) (w : List α) : List α → List α
  | [] => []
  | x :: xs =>
    if w.any (key · = key x) then entering key cap w xs
    else x :: entering key cap (offer key cap w x) xs

theorem trimFront_append (cap : ℕ) (xs ys : List α) :
    trimFront cap (trimFront cap xs ++ ys) = trimFront cap (xs ++ ys) := by
  simp only [trimFront_eq_drop]
  by_cases hle : xs.length ≤ cap
  · rw [Nat.sub_eq_zero_of_le hle, List.drop_zero]
  · have hdrop : xs.drop (xs.length - cap) ++ ys = (xs ++ ys).drop (xs.length - cap) :=
      (List.drop_append_of_le_length (Nat.sub_le _ _)).symm
    rw [hdrop, List.drop_drop]
    congr 1
    simp only [List.length_drop, List.length_append]
    omega

/-- The window has the values that arrived last. -/
theorem foldl_offer_eq_trimFront (hlen : w.length ≤ cap) (xs : List α) :
    xs.foldl (offer key cap) w = trimFront cap (w ++ entering key cap w xs) := by
  induction xs generalizing w with
  | nil =>
    rw [entering, List.append_nil, trimFront_eq_drop, Nat.sub_eq_zero_of_le hlen]
    rfl
  | cons x xs ih =>
    rw [List.foldl_cons, entering]
    by_cases hx : w.any (key · = key x) = true
    · have hoffer : offer key cap w x = w := if_pos hx
      rw [if_pos hx, hoffer, ih hlen]
    · have hoffer : offer key cap w x = trimFront cap (w ++ [x]) := if_neg hx
      have hle : (offer key cap w x).length ≤ cap := by
        rw [hoffer, trimFront_eq_drop, List.length_drop]
        omega
      rw [if_neg hx, ih hle, hoffer, trimFront_append, List.append_assoc, List.singleton_append]

/-- If there is room for the new values, no value leaves the window. -/
theorem mem_foldl_offer_of_room (hroom : w.length + (fresh key w xs).card ≤ cap) {y : α}
    (hy : y ∈ w) : y ∈ xs.foldl (offer key cap) w := by
  induction xs generalizing w with
  | nil => exact hy
  | cons x xs ih =>
    rw [List.foldl_cons]
    by_cases hx : key x ∈ w.map key
    · have hsub : fresh key w xs ⊆ fresh key w (x :: xs) := by
        intro k hk
        rw [mem_fresh] at hk ⊢
        exact ⟨List.mem_cons_of_mem _ hk.1, hk.2⟩
      have hcard := Finset.card_le_card hsub
      rw [offer_of_mem hx]
      exact ih (by omega) hy
    · have hmem : key x ∈ fresh key w (x :: xs) := mem_fresh.2 ⟨List.mem_cons_self, hx⟩
      have hpos := Finset.card_pos.2 ⟨_, hmem⟩
      have hsub : fresh key (w ++ [x]) xs ⊆ (fresh key w (x :: xs)).erase (key x) := by
        intro k hk
        rw [mem_fresh, List.map_append, List.mem_append, not_or] at hk
        refine Finset.mem_erase.2 ⟨?_, mem_fresh.2 ⟨List.mem_cons_of_mem _ hk.1, hk.2.1⟩⟩
        exact fun heq => hk.2.2 (by simp [heq])
      have hcard := Finset.card_le_card hsub
      rw [Finset.card_erase_of_mem hmem] at hcard
      rw [offer_of_lt hx (by omega)]
      refine ih ?_ (List.mem_append_left _ hy)
      rw [List.length_append, List.length_singleton]
      omega

end Ordered
