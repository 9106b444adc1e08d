import BatMarkets.Ordered.Map

/-!
# Windows that skip the repetition of their newest value

A window holds the latest values of a stream, at most `cap` of them: `coalesce` appends a value,
unless the newest one has its key, and drops the oldest values beyond the capacity.  The stream may
deliver a value again; `ident` tells what is the same value, and `firsts` are the values in the order
in which they are delivered first.

The window sees keys only.  `Coalesces` says that they are enough: of two values delivered one after
the other, the second has the key of the first exactly when it has been delivered before.

## Main results

* `foldl_coalesce` : for such a stream the window holds the last `cap` of its distinct values.
* `coalesces_of_foldl` : a window of two values or more that always does so has such a stream.
-/

namespace Ordered

variable {α β κ ι : Type*}

/-! ### Ends of windows -/

theorem getLast?_trimFront {cap : ℕ} (hcap : 0 < cap) (xs : List α) :
    (trimFront cap xs).getLast? = xs.getLast? := by
  rw [trimFront_eq_drop, List.getLast?_drop]
  by_cases hnil : xs = []
  · simp [hnil]
  · have hpos := List.length_pos_of_ne_nil hnil
    rw [if_neg (by omega)]

theorem trimFront_append_singleton {cap : ℕ} (hcap : 0 < cap) (xs : List α) (x : α) :
    trimFront cap (trimFront cap xs ++ [x]) = trimFront cap (xs ++ [x]) := by
  simp only [trimFront_eq_drop, List.length_append, List.length_drop, List.length_singleton]
  by_cases hle : xs.length ≤ cap
  · rw [Nat.sub_eq_zero_of_le hle, List.drop_zero, Nat.sub_zero]
  · have hlen : (xs.drop (xs.length - cap)).length = cap := by
      rw [List.length_drop]
      omega
    rw [List.drop_append_of_le_length (by omega), List.drop_drop,
      List.drop_append_of_le_length (by omega)]
    congr 2
    omega

theorem map_trimFront (f : α → β) (cap : ℕ) (xs : List α) :
    (trimFront cap xs).map f = trimFront cap (xs.map f) := by
  simp [trimFront_eq_drop]

/-! ### Distinct values -/

section Firsts

variable [DecidableEq ι] (ident : α → ι)

/-- The values in the order in which they are met first. -/
def firsts (xs : List α) : List α :=
  xs.foldl (fun met x => if ident x ∈ met.map ident then met else met ++ [x]) []

theorem firsts_append_singleton (xs : List α) (x : α) :
    firsts ident (xs ++ [x]) =
      if ident x ∈ (firsts ident xs).map ident then firsts ident xs else firsts ident xs ++ [x] := by
  rw [firsts, List.foldl_append]
  rfl

/-- The distinct values are all values. -/
theorem mem_map_firsts {xs : List α} {k : ι} : k ∈ (firsts ident xs).map ident ↔ k ∈ xs.map ident := by
  induction xs using List.reverseRecOn with
  | nil => rfl
  | append_singleton xs x ih =>
    rw [firsts_append_singleton, List.map_append, List.mem_append, ← ih]
    split
    · next hx =>
      refine ⟨.inl, fun h => h.elim id fun hk => ?_⟩
      obtain rfl := List.mem_singleton.1 hk
      exact hx
    · rw [List.map_append, List.mem_append]

end Firsts

/-! ### The window -/

variable [DecidableEq κ] [DecidableEq ι] (key : α → κ) (ident : α → ι) (cap : ℕ)

/-- Append a value, unless the newest one has its key, and drop the oldest beyond the capacity. -/
def coalesce (w : List α) (x : α) : List α :=
  if w.getLast?.map key = some (key x) then w else trimFront cap (w ++ [x])

/-- Of two values that follow each other, the second has the key of the first exactly when it has
been delivered before. -/
def Coalesces (xs : List α) : Prop :=
  ∀ ys x y, ys ++ [x] ++ [y] <+: xs → (key y = key x ↔ ident y ∈ (ys ++ [x]).map ident)

variable {key ident cap} {xs : List α}

theorem coalesce_of_eq {w : List α} {x : α} (h : w.getLast?.map key = some (key x)) :
    coalesce key cap w x = w := if_pos h

theorem coalesce_of_ne {w : List α} {x : α} (h : w.getLast?.map key ≠ some (key x)) :
    coalesce key cap w x = trimFront cap (w ++ [x]) := if_neg h

omit [DecidableEq κ] [DecidableEq ι] in
theorem Coalesces.of_prefix {ys : List α} (h : Coalesces key ident xs) (hys : ys <+: xs) :
    Coalesces key ident ys :=
  fun zs x y hzs => h zs x y (hzs.trans hys)

/-- A window of the values of a function. -/
theorem map_foldl_coalesce {key : β → κ} (f : α → β) (xs w : List α) :
    (xs.foldl (coalesce (key ∘ f) cap) w).map f = (xs.map f).foldl (coalesce key cap) (w.map f) := by
  induction xs generalizing w with
  | nil => rfl
  | cons x xs ih =>
    have hstep : (coalesce (key ∘ f) cap w x).map f = coalesce key cap (w.map f) (f x) := by
      have hlast : (w.map f).getLast?.map key = w.getLast?.map (key ∘ f) := by
        rw [List.getLast?_map, Option.map_map]
      by_cases h : w.getLast?.map (key ∘ f) = some (key (f x))
      · rw [coalesce_of_eq h, coalesce_of_eq (hlast.trans h)]
      · rw [coalesce_of_ne h, coalesce_of_ne fun hf => h (hlast.symm.trans hf), map_trimFront,
          List.map_append, List.map_singleton]
    rw [List.foldl_cons, ih, hstep, List.map_cons, List.foldl_cons]

/-- The newest value of the window has the key of the value delivered last. -/
theorem getLast?_foldl_coalesce (hcap : 0 < cap) (xs : List α) :
    (xs.foldl (coalesce key cap) []).getLast?.map key = xs.getLast?.map key := by
  induction xs using List.reverseRecOn with
  | nil => rfl
  | append_singleton xs x ih =>
    rw [List.foldl_append, List.foldl_cons, List.foldl_nil, List.getLast?_append_of_ne_nil _ (by simp)]
    by_cases h : (xs.foldl (coalesce key cap) []).getLast?.map key = some (key x)
    · rw [coalesce_of_eq h, h]
      rfl
    · rw [coalesce_of_ne h, getLast?_trimFront hcap]
      simp

/-- **When keys are enough**, the window holds the last distinct values of the stream. -/
theorem foldl_coalesce (hcap : 0 < cap) (h : Coalesces key ident xs) :
    xs.foldl (coalesce key cap) [] = trimFront cap (firsts ident xs) := by
  induction xs using List.reverseRecOn with
  | nil => rfl
  | append_singleton xs y ih =>
    have ih := ih (h.of_prefix (List.prefix_append _ _))
    rw [List.foldl_append, List.foldl_cons, List.foldl_nil, firsts_append_singleton]
    simp only [mem_map_firsts]
    have hnewest : (xs.foldl (coalesce key cap) []).getLast?.map key = some (key y) ↔
        ident y ∈ xs.map ident := by
      rw [getLast?_foldl_coalesce hcap]
      cases hxs : xs using List.reverseRecOn with
      | nil => simp
      | append_singleton ys x =>
        have hxy := h ys x y (hxs ▸ List.prefix_refl _)
        rw [List.getLast?_append_of_ne_nil _ (by simp)]
        simpa [eq_comm] using hxy
    by_cases hy : ident y ∈ xs.map ident
    · rw [if_pos hy, coalesce_of_eq (hnewest.2 hy), ih]
    · rw [if_neg hy, coalesce_of_ne fun hlast => hy (hnewest.1 hlast), ih,
        trimFront_append_singleton hcap]

/-! ### Windows of two values or more -/

/-- Neighbours in the window have different keys. -/
theorem isChain_foldl_coalesce (xs : List α) :
    (xs.foldl (coalesce key cap) []).IsChain (key · ≠ key ·) := by
  induction xs using List.reverseRecOn with
  | nil => exact .nil
  | append_singleton xs x ih =>
    rw [List.foldl_append, List.foldl_cons, List.foldl_nil]
    by_cases h : (xs.foldl (coalesce key cap) []).getLast?.map key = some (key x)
    · rwa [coalesce_of_eq h]
    · rw [coalesce_of_ne h, trimFront_eq_drop]
      refine List.IsChain.drop (List.isChain_append.2 ⟨ih, by simp, fun y hy z hz => ?_⟩) _
      obtain rfl : x = z := by simpa using hz
      rintro hkey
      refine h ?_
      rw [hy, Option.map_some, hkey]

omit [DecidableEq κ] in
/-- A window that has room for two values and whose neighbours differ is changed by every value. -/
theorem trimFront_append_ne {w : List α} (hcap : 2 ≤ cap) (hlen : w.length ≤ cap)
    (hchain : w.IsChain (key · ≠ key ·)) (x : α) : trimFront cap (w ++ [x]) ≠ w := by
  intro h
  have hlength := congrArg List.length h
  rw [trimFront_eq_drop, List.length_drop, List.length_append, List.length_singleton] at hlength
  have hfull : w.length = cap := by omega
  -- a full window moves by one place, so its first two values are the same
  match w, hfull, hchain, h with
  | a :: b :: w, hfull, hchain, h =>
    have hone : (a :: b :: w ++ [x]).length - cap = 1 := by
      simp only [List.length_append, List.length_cons, List.length_nil] at hfull ⊢
      omega
    rw [trimFront_eq_drop, hone] at h
    have hab : b = a := (List.cons.inj h).1
    exact (List.isChain_cons_cons.1 hchain).1 (by rw [hab])
  | [a], hfull, _, _ => simp at hfull; omega
  | [], hfull, _, _ => simp at hfull; omega

/-- **When a window always holds the last distinct values**, keys are enough: here `f` is what the
window keeps of a value. -/
theorem coalesces_of_foldl {key : β → κ} (f : α → β) (hcap : 2 ≤ cap)
    (h : ∀ ys, ys <+: xs → (ys.map f).foldl (coalesce key cap) [] =
      trimFront cap ((firsts ident ys).map f)) : Coalesces (key ∘ f) ident xs := by
  intro ys x y hxs
  have hpos : 0 < cap := by omega
  let zs := ys ++ [x]
  have hzs := h zs ((List.prefix_append _ _).trans hxs)
  have hnext := h (zs ++ [y]) hxs
  rw [List.map_append, List.foldl_append, List.map_singleton, List.foldl_cons, List.foldl_nil,
    firsts_append_singleton] at hnext
  simp only [mem_map_firsts] at hnext
  have hnewest : ((zs.map f).foldl (coalesce key cap) []).getLast?.map key = some (key (f x)) := by
    rw [getLast?_foldl_coalesce hpos]
    simp [zs]
  constructor
  · intro hkey
    by_contra hy
    have hmap : (firsts ident zs ++ [y]).map f = (firsts ident zs).map f ++ [f y] := by simp
    rw [if_neg hy, coalesce_of_eq (hnewest.trans (congrArg some hkey.symm)), hmap,
      ← trimFront_append_singleton hpos, ← hzs] at hnext
    refine trimFront_append_ne hcap ?_ (isChain_foldl_coalesce _) (f y) hnext.symm
    rw [hzs, trimFront_eq_drop, List.length_drop]
    omega
  · intro hy
    by_contra hkey
    have hne : ((zs.map f).foldl (coalesce key cap) []).getLast?.map key ≠ some (key (f y)) := by
      rw [hnewest]
      exact fun heq => hkey (Option.some.inj heq).symm
    rw [if_pos hy, coalesce_of_ne hne, ← hzs] at hnext
    have hlast := congrArg List.getLast? hnext
    rw [getLast?_trimFront hpos, List.getLast?_append_of_ne_nil _ (by simp)] at hlast
    exact hne (by rw [← hlast]; rfl)

end Ordered
