import BatMarkets.Ordered.Map

/-!
# Indexes

An `Index key` is an ordered map that stores every value under its own key, and carries the proof
of it.  So the values of an index determine it: `Index.mem_vals_iff` says that a value is listed
exactly when it is the one found under its key.
-/

namespace Ordered

open Std

/-- Maps in which every value is stored under its own key. -/
structure Index {κ β : Type} [Ord κ] [TransOrd κ] (key : β → κ) where
  /-- The map. -/
  map : BTreeMap κ β
  /-- Every value is stored under its own key. -/
  keyed : ∀ (k : κ) (v : β), map[k]? = some v → key v = k

namespace Index

variable {κ β : Type} [Ord κ] [TransOrd κ] {key : β → κ}

/-- The index without values. -/
def empty : Index key := ⟨∅, fun k v h => by simp at h⟩

instance : EmptyCollection (Index key) := ⟨empty⟩

/-- The value stored under `k`. -/
def get? (m : Index key) (k : κ) : Option β := m.map[k]?

/-- The values, in key order. -/
def toVals (m : Index key) : List β := vals m.map

instance : Membership κ (Index key) := ⟨fun m k => k ∈ m.map⟩

instance (m : Index key) (k : κ) : Decidable (k ∈ m) := inferInstanceAs (Decidable (k ∈ m.map))

theorem mem_iff {m : Index key} {k : κ} : k ∈ m ↔ ∃ v, m.get? k = some v := by
  rw [← Option.isSome_iff_exists]
  exact ExtTreeMap.mem_iff_isSome_getElem?

theorem mem_of_get? {m : Index key} {k : κ} {v : β} (h : m.get? k = some v) : k ∈ m :=
  mem_iff.2 ⟨v, h⟩

theorem not_mem_iff {m : Index key} {k : κ} : k ∉ m ↔ m.get? k = none := by
  rw [mem_iff, not_exists, Option.eq_none_iff_forall_ne_some]

theorem not_mem_empty (k : κ) : k ∉ (∅ : Index key) := ExtTreeMap.not_mem_empty

@[simp] theorem get?_empty (k : κ) : (∅ : Index key).get? k = none :=
  not_mem_iff.1 (not_mem_empty k)

theorem key_of_get? {m : Index key} {k : κ} {v : β} (h : m.get? k = some v) : key v = k :=
  m.keyed k v h

variable [LawfulEqOrd κ]

@[ext] theorem ext {m m' : Index key} (h : ∀ k, m.get? k = m'.get? k) : m = m' := by
  obtain ⟨m, hm⟩ := m
  obtain ⟨m', hm'⟩ := m'
  obtain rfl : m = m' := ExtTreeMap.ext_getElem? h
  rfl

/-- A value is listed exactly when it is the one stored under its key. -/
theorem mem_toVals_iff {m : Index key} {v : β} : v ∈ m.toVals ↔ m.get? (key v) = some v := by
  rw [toVals, mem_vals]
  constructor
  · rintro ⟨k, hk⟩
    rw [m.keyed k v hk]
    exact hk
  · exact fun h => ⟨key v, h⟩

/-- Keep the values satisfying `p`. -/
def filter (m : Index key) (p : β → Bool) : Index key where
  map := retain m.map fun _ => p
  keyed k w h := by
    rw [lookup_retain, Option.filter_eq_some_iff] at h
    exact m.keyed k w h.1

theorem get?_filter (m : Index key) (p : β → Bool) (k : κ) :
    (m.filter p).get? k = (m.get? k).filter p := lookup_retain m.map (fun _ => p) k

variable [DecidableEq κ]

/-- Store a value under its key. -/
def insert (m : Index key) (v : β) : Index key where
  map := m.map.insert (key v) v
  keyed k w h := by
    rw [lookup_insert] at h
    split at h
    · next hk => rw [← hk, ← Option.some.inj h]
    · exact m.keyed k w h

/-- Store values in order, so that the last one of a key wins. -/
def insertAll (m : Index key) (xs : List β) : Index key where
  map := insertEach m.map key xs
  keyed k w h := by
    rw [lookup_insertEach] at h
    cases hl : lastOf key k xs with
    | none => exact m.keyed k w (by rwa [hl] at h)
    | some x =>
      rw [hl] at h
      rw [← Option.some.inj h]
      exact (lastOf_eq_some hl).2

/-- The index of a list of values. -/
def collect (xs : List β) : Index key := (∅ : Index key).insertAll xs

theorem get?_insert (m : Index key) (v : β) (k : κ) :
    (m.insert v).get? k = if key v = k then some v else m.get? k := lookup_insert m.map (key v) k v

theorem get?_insertAll (m : Index key) (xs : List β) (k : κ) :
    (m.insertAll xs).get? k = (lastOf key k xs).or (m.get? k) := lookup_insertEach m.map xs

theorem get?_collect (xs : List β) (k : κ) :
    (collect xs : Index key).get? k = lastOf key k xs := by
  rw [collect, get?_insertAll, get?_empty, Option.or_none]

theorem mem_insert {m : Index key} {v : β} {k : κ} : k ∈ m.insert v ↔ key v = k ∨ k ∈ m :=
  mem_insert_iff

end Index

end Ordered
