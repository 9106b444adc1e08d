import Mathlib

/-!
# Ordered maps and bounded windows

`BTreeMap κ β` is an ordered map with extensional equality: two maps with the same entries are
equal, and iteration is in key order.  The operations beyond those of `Std.ExtTreeMap` are the
ones an index kept up to date from lists of values needs.

* `insertEach m key xs` : insert every value of `xs` under its key, in order, so that the last
  value of a key wins.  With the empty map it is how a list is collected into a map.
* `vals m` : the values in key order.
* `retain m p` : drop the entries that do not satisfy `p`.
* `groupBy key xs` : the values of a list by their key, each group in the order of the list.
* `distinct xs` : the elements of a list in order, each once; collecting into an ordered set and
  back.
* `trimFront cap xs` : drop from the front of a queue until at most `cap` entries are left.

The lemmas give the lookup of each, `lookup_insertEach` in terms of `lastOf`, the last value of a
list with a given key.
-/

namespace Ordered

open Std

/-- Ordered maps from `κ` to `β`. -/
abbrev BTreeMap (κ β : Type) [Ord κ] := ExtTreeMap κ β compare

/-! ### The last value of a key -/

section LastOf

variable {κ β : Type} [DecidableEq κ] {key : β → κ} {k : κ}

/-- The last value of `xs` with key `k`. -/
def lastOf (key : β → κ) (k : κ) (xs : List β) : Option β :=
  xs.reverse.find? fun x => decide (key x = k)

@[simp] theorem lastOf_nil : lastOf key k [] = none := rfl

theorem lastOf_cons (x : β) (xs : List β) :
    lastOf key k (x :: xs) = (lastOf key k xs).or (if key x = k then some x else none) := by
  simp only [lastOf, List.reverse_cons, List.find?_append, List.find?_singleton,
    decide_eq_true_eq]

theorem lastOf_append (xs ys : List β) :
    lastOf key k (xs ++ ys) = (lastOf key k ys).or (lastOf key k xs) := by
  simp only [lastOf, List.reverse_append, List.find?_append]

theorem lastOf_eq_getLast?_filter (xs : List β) :
    lastOf key k xs = (xs.filter fun x => key x = k).getLast? := by
  rw [lastOf, ← List.head?_filter, List.filter_reverse, List.head?_reverse]

theorem lastOf_eq_some {xs : List β} {v : β} (h : lastOf key k xs = some v) :
    v ∈ xs ∧ key v = k := by
  have hk := List.find?_some h
  have hm := List.mem_of_find?_eq_some h
  exact ⟨List.mem_reverse.1 hm, by simpa using hk⟩

theorem lastOf_eq_none {xs : List β} : lastOf key k xs = none ↔ ∀ x ∈ xs, key x ≠ k := by
  simp [lastOf, List.find?_eq_none]

/-- A list in which the keys are pairwise distinct has each of its values as the last of its
key. -/
theorem lastOf_of_nodup {xs : List β} (h : (xs.map key).Nodup) {x : β} (hx : x ∈ xs) :
    lastOf key (key x) xs = some x := by
  cases hl : lastOf key (key x) xs with
  | none => exact absurd rfl (lastOf_eq_none.1 hl x hx)
  | some y =>
    obtain ⟨hy, hky⟩ := lastOf_eq_some hl
    rw [List.inj_on_of_nodup_map h hy hx hky]

/-- Every value of a list is the last of its key exactly when the keys are pairwise distinct. -/
theorem forall_lastOf_iff_nodup {xs : List β} (h : xs.Nodup) :
    (∀ x ∈ xs, lastOf key (key x) xs = some x) ↔ (xs.map key).Nodup := by
  constructor
  · intro hlast
    rw [List.nodup_map_iff_inj_on h]
    intro x hx y hy hkey
    have hsame := hlast x hx
    rw [hkey, hlast y hy] at hsame
    exact (Option.some.inj hsame).symm
  · exact fun hkeys x hx => lastOf_of_nodup hkeys hx

end LastOf

/-! ### Maps -/

section Maps

variable {κ β : Type} [Ord κ] [TransOrd κ]

/-- Insert every value of `xs` under its key, in order. -/
def insertEach (m : BTreeMap κ β) (key : β → κ) (xs : List β) : BTreeMap κ β :=
  xs.foldl (fun m x => m.insert (key x) x) m

/-- Keep the entries satisfying `p`. -/
def retain (m : BTreeMap κ β) (p : κ → β → Bool) : BTreeMap κ β := m.filter p

/-- The values, in key order. -/
def vals (m : BTreeMap κ β) : List β := m.toList.map Prod.snd

@[simp] theorem insertEach_nil (m : BTreeMap κ β) (key : β → κ) : insertEach m key [] = m := rfl

@[simp] theorem insertEach_cons (m : BTreeMap κ β) (key : β → κ) (x : β) (xs : List β) :
    insertEach m key (x :: xs) = insertEach (m.insert (key x) x) key xs := rfl

variable [LawfulEqOrd κ]

theorem lookup_insert [DecidableEq κ] (m : BTreeMap κ β) (k a : κ) (v : β) :
    (m.insert k v)[a]? = if k = a then some v else m[a]? := by
  rw [ExtTreeMap.getElem?_insert]
  simp only [LawfulEqCmp.compare_eq_iff_eq]

/-- An entry of the map after an insertion was there before, or is the new one. -/
theorem lookup_insert_cases [DecidableEq κ] {m : BTreeMap κ β} {k a : κ} {v w : β}
    (h : (m.insert k v)[a]? = some w) : m[a]? = some w ∨ w = v := by
  rw [lookup_insert] at h
  split at h
  · exact .inr (Option.some.inj h).symm
  · exact .inl h

theorem mem_insert_iff [DecidableEq κ] {m : BTreeMap κ β} {k a : κ} {v : β} :
    a ∈ m.insert k v ↔ k = a ∨ a ∈ m := by
  rw [ExtTreeMap.mem_insert, LawfulEqCmp.compare_eq_iff_eq]

theorem lookup_erase [DecidableEq κ] (m : BTreeMap κ β) (k a : κ) :
    (m.erase k)[a]? = if k = a then none else m[a]? := by
  rw [ExtTreeMap.getElem?_erase]
  simp only [LawfulEqCmp.compare_eq_iff_eq]

theorem lookup_retain (m : BTreeMap κ β) (p : κ → β → Bool) (k : κ) :
    (retain m p)[k]? = m[k]?.filter (p k) := by
  rw [retain, ExtTreeMap.getElem?_filter]
  have hkey : ∀ h : k ∈ m, m.getKey k h = k := fun h =>
    LawfulEqCmp.eq_of_compare (ExtTreeMap.compare_getKey_self h)
  simp only [hkey, Option.pfilter_eq_filter]

theorem mem_vals {m : BTreeMap κ β} {v : β} : v ∈ vals m ↔ ∃ k : κ, m[k]? = some v := by
  constructor
  · intro h
    obtain ⟨⟨k, w⟩, hkw, rfl⟩ := List.mem_map.1 h
    exact ⟨k, (ExtTreeMap.mem_toList_iff_getElem?_eq_some (t := m)).1 hkw⟩
  · rintro ⟨k, hk⟩
    exact List.mem_map.2 ⟨(k, v), (ExtTreeMap.mem_toList_iff_getElem?_eq_some (t := m)).2 hk, rfl⟩

/-- Lookup after inserting something for each value of a list: what belongs to its last value with
that key, or else the old entry. -/
theorem lookup_foldl_insert [DecidableEq κ] {γ : Type} (key : γ → κ) (val : γ → β) {k : κ}
    (m : BTreeMap κ β) (xs : List γ) :
    (xs.foldl (fun m x => m.insert (key x) (val x)) m)[k]? =
      ((lastOf key k xs).map val).or m[k]? := by
  induction xs generalizing m with
  | nil => simp
  | cons x xs ih =>
    rw [List.foldl_cons, ih, lastOf_cons, lookup_insert]
    cases lastOf key k xs with
    | some y => rfl
    | none => split <;> rfl

/-- Lookup after inserting a list: its last value with that key, or else the old entry. -/
theorem lookup_insertEach [DecidableEq κ] {key : β → κ} {k : κ} (m : BTreeMap κ β)
    (xs : List β) : (insertEach m key xs)[k]? = (lastOf key k xs).or m[k]? := by
  have h : (insertEach m key xs)[k]? = ((lastOf key k xs).map id).or m[k]? :=
    lookup_foldl_insert key id m xs
  rwa [Option.map_id] at h

end Maps

/-! ### Sets -/

section Sets

variable {κ : Type} [Ord κ] [TransOrd κ]

/-- Ordered sets over `κ`. -/
abbrev BTreeSet (κ : Type) [Ord κ] := ExtTreeSet κ compare

theorem mem_insert_set [LawfulEqOrd κ] {m : BTreeSet κ} {k a : κ} :
    a ∈ m.insert k ↔ k = a ∨ a ∈ m := by
  rw [ExtTreeSet.mem_insert, LawfulEqCmp.compare_eq_iff_eq]

theorem mem_erase_set [LawfulEqOrd κ] {m : BTreeSet κ} {k a : κ} :
    a ∈ m.erase k ↔ k ≠ a ∧ a ∈ m := by
  rw [ExtTreeSet.mem_erase, ne_eq, LawfulEqCmp.compare_eq_iff_eq]

/-- The elements of the list in order, each once. -/
def distinct (xs : List κ) : List κ := (ExtTreeSet.ofList xs compare).toList

theorem mem_distinct [LawfulEqOrd κ] [DecidableEq κ] {xs : List κ} {x : κ} :
    x ∈ distinct xs ↔ x ∈ xs := by
  rw [distinct, ExtTreeSet.mem_toList, ExtTreeSet.mem_ofList, List.contains_iff_mem]

theorem distinct_eq_nil [LawfulEqOrd κ] [DecidableEq κ] {xs : List κ} :
    distinct xs = [] ↔ xs = [] := by
  simp only [List.eq_nil_iff_forall_not_mem, mem_distinct]

end Sets

/-! ### Groups -/

section Groups

variable {κ β : Type} [Ord κ] [TransOrd κ]

/-- Append values to the list of a key, which is empty when there is none. -/
def extendEntry (m : BTreeMap κ (List β)) (k : κ) (xs : List β) : BTreeMap κ (List β) :=
  m.insert k (m[k]?.getD [] ++ xs)

/-- The values of `xs` by their key, each group in the order of the list. -/
def groupBy (key : β → κ) (xs : List β) : BTreeMap κ (List β) :=
  xs.foldl (fun m x => extendEntry m (key x) [x]) ∅

variable [LawfulEqOrd κ] [DecidableEq κ]

theorem lookup_extendEntry (m : BTreeMap κ (List β)) (k a : κ) (xs : List β) :
    (extendEntry m k xs)[a]?.getD [] = m[a]?.getD [] ++ if k = a then xs else [] := by
  rw [extendEntry, lookup_insert]
  by_cases h : k = a
  · subst h
    simp only [if_true, Option.getD_some]
  · simp only [h, if_false, List.append_nil]

theorem lookup_groupBy (key : β → κ) (xs : List β) (k : κ) :
    (groupBy key xs)[k]?.getD [] = xs.filter fun x => key x = k := by
  have hfold : ∀ (xs : List β) (m : BTreeMap κ (List β)),
      (xs.foldl (fun m x => extendEntry m (key x) [x]) m)[k]?.getD [] =
        m[k]?.getD [] ++ xs.filter fun x => key x = k := by
    intro xs
    induction xs with
    | nil => intro m; simp
    | cons x xs ih =>
      intro m
      rw [List.foldl_cons, ih, lookup_extendEntry, List.append_assoc]
      by_cases h : key x = k <;> simp [h]
  rw [groupBy, hfold]
  simp

/-- A group holds the values with its key. -/
theorem mem_group_iff {key : β → κ} {xs : List β} {g : κ × List β}
    (hg : g ∈ (groupBy key xs).toList) {x : β} : x ∈ g.2 ↔ x ∈ xs ∧ key x = g.1 := by
  obtain ⟨k, ys⟩ := g
  have hk := (ExtTreeMap.mem_toList_iff_getElem?_eq_some (t := groupBy key xs)).1 hg
  have hys := lookup_groupBy key xs k
  rw [hk, Option.getD_some] at hys
  rw [hys, List.mem_filter, decide_eq_true_iff]

/-- A value is in the groups exactly when it is in the list. -/
theorem exists_mem_groupBy {key : β → κ} {xs : List β} {x : β} :
    (∃ g ∈ (groupBy key xs).toList, x ∈ g.2) ↔ x ∈ xs := by
  constructor
  · rintro ⟨g, hg, hx⟩
    exact ((mem_group_iff hg).1 hx).1
  · intro hx
    have hmem : x ∈ (groupBy key xs)[key x]?.getD [] := by
      rw [lookup_groupBy]
      exact List.mem_filter.2 ⟨hx, by simp⟩
    cases hk : (groupBy key xs)[key x]? with
    | none =>
      rw [hk] at hmem
      cases hmem
    | some ys =>
      rw [hk] at hmem
      exact ⟨(key x, ys), (ExtTreeMap.mem_toList_iff_getElem?_eq_some (t := groupBy key xs)).2 hk,
        hmem⟩

/-- No group is empty. -/
theorem ne_nil_of_mem_groupBy {key : β → κ} {xs : List β} {g : κ × List β}
    (hg : g ∈ (groupBy key xs).toList) : g.2 ≠ [] := by
  have hfold : ∀ (xs : List β) (m : BTreeMap κ (List β)), (∀ (k : κ) ys, m[k]? = some ys → ys ≠ []) →
      ∀ (k : κ) ys, (xs.foldl (fun m x => extendEntry m (key x) [x]) m)[k]? = some ys → ys ≠ [] := by
    intro xs
    induction xs with
    | nil => exact fun _ hm => hm
    | cons x xs ih =>
      intro m hm
      refine ih _ fun k ys hk => ?_
      have hk : (m.insert (key x) (m[key x]?.getD [] ++ [x]))[k]? = some ys := hk
      rw [lookup_insert] at hk
      by_cases hkey : key x = k
      · rw [if_pos hkey] at hk
        obtain rfl := Option.some.inj hk
        simp
      · rw [if_neg hkey] at hk
        exact hm k ys hk
  have hk := (ExtTreeMap.mem_toList_iff_getElem?_eq_some (t := groupBy key xs)).1 hg
  exact hfold xs ∅ (fun k ys h => by simp at h) _ _ hk

omit [Ord κ] [TransOrd κ] [LawfulEqOrd κ] in
/-- The values of a list, key by key. -/
theorem perm_flatMap_filter {key : β → κ} {ks : List κ} (hks : ks.Nodup) {xs : List β}
    (hxs : ∀ x ∈ xs, key x ∈ ks) :
    (ks.flatMap fun k => xs.filter fun x => key x = k).Perm xs := by
  induction ks generalizing xs with
  | nil =>
    have hnil : xs = [] := List.eq_nil_iff_forall_not_mem.2 fun x hx => by simpa using hxs x hx
    rw [hnil]
    exact .nil
  | cons k ks ih =>
    obtain ⟨hk, hks⟩ := List.nodup_cons.1 hks
    -- the values without the key are those with one of the others
    let others := xs.filter fun x => !decide (key x = k)
    have hothers : ∀ x ∈ others, key x ∈ ks := by
      intro x hx
      obtain ⟨hx, hne⟩ := List.mem_filter.1 hx
      exact (List.mem_cons.1 (hxs x hx)).resolve_left (by simpa using hne)
    have hfilter : ∀ k' ∈ ks, (xs.filter fun x => key x = k') =
        others.filter fun x => key x = k' := by
      intro k' hk'
      rw [List.filter_filter]
      refine List.filter_congr fun x _ => ?_
      by_cases hx : key x = k'
      · have hne : k' ≠ k := fun heq => hk (heq ▸ hk')
        simp [hx, hne]
      · simp [hx]
    rw [List.flatMap_cons, List.flatMap_congr hfilter]
    exact ((ih hks hothers).append_left _).trans (List.filter_append_perm _ xs)

/-- The groups have each of the values once. -/
theorem perm_groupBy (key : β → κ) (xs : List β) :
    ((groupBy key xs).toList.flatMap (·.2)).Perm xs := by
  have hgroups : (groupBy key xs).toList.flatMap (·.2) =
      ((groupBy key xs).toList.map (·.1)).flatMap fun k => xs.filter fun x => key x = k := by
    rw [List.flatMap_map]
    refine List.flatMap_congr fun g hg => ?_
    obtain ⟨k, ys⟩ := g
    have hk := (ExtTreeMap.mem_toList_iff_getElem?_eq_some (t := groupBy key xs)).1 hg
    have hys := lookup_groupBy key xs k
    rwa [hk, Option.getD_some] at hys
  rw [hgroups, ExtTreeMap.map_fst_toList_eq_keys]
  refine perm_flatMap_filter ExtTreeMap.nodup_keys fun x hx => ?_
  have hgroup : ∃ g ∈ (groupBy key xs).toList, x ∈ g.2 := exists_mem_groupBy.2 hx
  obtain ⟨g, hg, hxg⟩ := hgroup
  rw [((mem_group_iff hg).1 hxg).2, ← ExtTreeMap.map_fst_toList_eq_keys]
  exact List.mem_map_of_mem hg

end Groups

/-! ### Bounded windows -/

section Window

variable {α : Type*}

/-- Drop entries from the front until at most `cap` are left. -/
def trimFront (cap : ℕ) : List α → List α
  | [] => []
  | x :: xs => if cap < xs.length + 1 then trimFront cap xs else x :: xs

theorem trimFront_eq_drop (cap : ℕ) (xs : List α) :
    trimFront cap xs = xs.drop (xs.length - cap) := by
  induction xs with
  | nil => simp only [trimFront, List.drop_nil]
  | cons x xs ih =>
    simp only [trimFront, List.length_cons]
    split
    · next h => rw [ih, Nat.succ_sub (by omega), List.drop_succ_cons]
    · next h => rw [Nat.sub_eq_zero_of_le (by omega), List.drop_zero]

theorem mem_of_mem_trimFront {cap : ℕ} {xs : List α} {x : α} (h : x ∈ trimFront cap xs) :
    x ∈ xs := by
  rw [trimFront_eq_drop] at h
  exact List.mem_of_mem_drop h

end Window

end Ordered
