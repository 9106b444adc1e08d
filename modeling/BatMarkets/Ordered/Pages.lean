import Mathlib

/-!
# Reading several streams in pages with one cursor

Each of several streams of rows is served in pages of at most `limit` rows, the first ones after a
cursor, and all streams are read with the same cursor.  After a page of each stream the cursor moves
past the last row served, whichever stream it is from.  A stream whose page ended before that row
may have had more rows in between; they are passed over.

Rows are compared by their keys, in any linear order, so that `first` may also mean latest.

## Main results

* `length_firstPage` : a page is full, or it has every row.
* `lockstep_iff` : the streams are in step exactly when the first pages pass over no row, and what is
  left after them is in step.  So reading in pages meets every row exactly of streams in step.
-/

namespace Ordered

variable {ρ ι α : Type*} [LinearOrder α] (key : ρ → α)

/-- The number of rows before `r`. -/
def rank (rows : List ρ) (r : ρ) : ℕ := rows.countP fun x => key x < key r

/-- The first rows of a stream, at most `limit` of them. -/
def firstPage (limit : ℕ) (rows : List ρ) : List ρ := rows.filter fun r => rank key rows r < limit

/-- The rows after `m`. -/
def after (m : α) (rows : List ρ) : List ρ := rows.filter fun r => m < key r

/-- The pages of the streams are in step: a row of an earlier page of its stream is before every row
of a later page, also of the other streams. -/
def Lockstep (limit : ℕ) (streams : ι → List ρ) (is : List ι) : Prop :=
  ∀ i ∈ is, ∀ k ∈ is, ∀ a ∈ streams i, ∀ b ∈ streams k,
    rank key (streams i) a / limit < rank key (streams k) b / limit → key a < key b

variable {key} {limit : ℕ} {rows rows' : List ρ} {a b r : ρ} {m : α}

theorem mem_firstPage : r ∈ firstPage key limit rows ↔ r ∈ rows ∧ rank key rows r < limit := by
  simp [firstPage]

theorem mem_after : r ∈ after key m rows ↔ r ∈ rows ∧ m < key r := by
  simp [after]

theorem rank_le_length : rank key rows r ≤ rows.length := List.countP_le_length

theorem rank_perm (h : rows.Perm rows') : rank key rows r = rank key rows' r := h.countP_eq _

theorem firstPage_perm (h : rows.Perm rows') :
    (firstPage key limit rows).Perm (firstPage key limit rows') := by
  have hrank : (fun r => decide (rank key rows r < limit)) =
      fun r => decide (rank key rows' r < limit) := by
    funext r
    rw [rank_perm h]
  rw [firstPage, firstPage, hrank]
  exact h.filter _

/-- Of rows in order, the first ones are at the front. -/
theorem firstPage_eq_take (h : rows.Pairwise fun a b => key a < key b) :
    firstPage key limit rows = rows.take limit := by
  induction rows generalizing limit with
  | nil => simp [firstPage]
  | cons a rows ih =>
    obtain ⟨hfirst, hrest⟩ := List.pairwise_cons.1 h
    have hhead : rank key (a :: rows) a = 0 := by
      simp only [rank, List.countP_eq_zero, List.mem_cons, decide_eq_true_eq]
      rintro x (rfl | hx)
      · exact lt_irrefl _
      · exact (hfirst x hx).not_gt
    have htail : ∀ x ∈ rows, rank key (a :: rows) x = rank key rows x + 1 := by
      intro x hx
      simp only [rank, List.countP_cons, decide_eq_true_eq, if_pos (hfirst x hx)]
    cases limit with
    | zero => simp [firstPage]
    | succ limit =>
      rw [List.take_succ_cons, ← ih hrest, firstPage, List.filter_cons, if_pos (by simp [hhead])]
      congr 1
      refine List.filter_congr fun x hx => ?_
      simp only [htail x hx, Nat.add_lt_add_iff_right]

/-- A page is full, or it has every row. -/
theorem length_firstPage (h : (rows.map key).Nodup) :
    (firstPage key limit rows).length = min limit rows.length := by
  have hperm := List.mergeSort_perm rows fun a b => decide (key a ≤ key b)
  have hnodup : (rows.mergeSort fun a b => decide (key a ≤ key b)).Pairwise
      fun a b => key a ≠ key b := List.pairwise_map.1 (((hperm.map key).nodup_iff).2 h)
  have hle := List.pairwise_mergeSort' (fun a b => key a ≤ key b) rows
  have hlt := (hle.and hnodup).imp fun hab => lt_of_le_of_ne hab.1 hab.2
  rw [(firstPage_perm hperm.symm).length_eq, firstPage_eq_take hlt, List.length_take, hperm.length_eq]

/-! ### One page of each stream -/

/-- Past a page that passes over nothing, a row has as many rows fewer before it as were in the
page. -/
theorem rank_after (hcover : ∀ x ∈ rows, x ∈ firstPage key limit rows ∨ m < key x)
    (hle : ∀ x ∈ firstPage key limit rows, key x ≤ m) (hb : m < key b) :
    rank key rows b = (firstPage key limit rows).length + rank key (after key m rows) b := by
  have hpage : rows.filter (fun x => !decide (m < key x)) = firstPage key limit rows := by
    refine List.filter_congr fun x hx => ?_
    have hiff : rank key rows x < limit ↔ ¬ m < key x := by
      constructor
      · exact fun hr => (hle x (mem_firstPage.2 ⟨hx, hr⟩)).not_gt
      · exact fun hm => (mem_firstPage.1 ((hcover x hx).resolve_right hm)).2
    rw [← decide_not, decide_eq_decide]
    exact hiff.symm
  have hall : (firstPage key limit rows).countP (fun x => key x < key b) =
      (firstPage key limit rows).length :=
    List.countP_eq_length.2 fun x hx => decide_eq_true ((hle x hx).trans_lt hb)
  have hsplit := List.countP_eq_countP_filter_add rows (fun x => decide (key x < key b))
    fun x => decide (m < key x)
  rw [hpage, hall] at hsplit
  rw [rank, hsplit, Nat.add_comm]
  rfl

variable {streams : ι → List ρ} {is : List ι}

/-- A row of a later page stands in the page before, once the first page is passed. -/
theorem page_after (hlimit : 0 < limit) (hnodup : (rows.map key).Nodup)
    (hcover : ∀ x ∈ rows, x ∈ firstPage key limit rows ∨ m < key x)
    (hle : ∀ x ∈ firstPage key limit rows, key x ≤ m) (hb : b ∈ rows) (hm : m < key b) :
    rank key rows b / limit = rank key (after key m rows) b / limit + 1 := by
  have hrank : limit ≤ rank key rows b := by
    by_contra hlt
    exact (hle b (mem_firstPage.2 ⟨hb, not_le.1 hlt⟩)).not_gt hm
  have hfull : (firstPage key limit rows).length = limit := by
    rw [length_firstPage hnodup, min_eq_left (hrank.trans rank_le_length)]
  rw [rank_after hcover hle hm, hfull, Nat.add_comm, Nat.add_div_right _ hlimit]

/-- The streams are in step exactly when their first pages pass over no row up to the last row
served, and the rows after it are in step. -/
theorem lockstep_iff (hlimit : 0 < limit) (hnodup : ∀ i ∈ is, ((streams i).map key).Nodup)
    (hle : ∀ i ∈ is, ∀ a ∈ firstPage key limit (streams i), key a ≤ m)
    (hmax : ∃ i ∈ is, ∃ a ∈ firstPage key limit (streams i), key a = m) :
    Lockstep key limit streams is ↔
      (∀ i ∈ is, ∀ b ∈ streams i, b ∈ firstPage key limit (streams i) ∨ m < key b) ∧
        Lockstep key limit (fun i => after key m (streams i)) is := by
  constructor
  · intro h
    have hcover : ∀ i ∈ is, ∀ b ∈ streams i, b ∈ firstPage key limit (streams i) ∨ m < key b := by
      intro i hi b hb
      by_cases hrank : rank key (streams i) b < limit
      · exact .inl (mem_firstPage.2 ⟨hb, hrank⟩)
      · obtain ⟨k, hk, a, ha, rfl⟩ := hmax
        obtain ⟨ha, hfirst⟩ := mem_firstPage.1 ha
        refine .inr (h k hk i hi a ha b hb ?_)
        rw [Nat.div_eq_of_lt hfirst]
        exact Nat.div_pos (not_lt.1 hrank) hlimit
    refine ⟨hcover, fun i hi k hk a ha b hb hpage => ?_⟩
    obtain ⟨ha, hma⟩ := mem_after.1 ha
    obtain ⟨hb, hmb⟩ := mem_after.1 hb
    refine h i hi k hk a ha b hb ?_
    rw [page_after hlimit (hnodup i hi) (hcover i hi) (hle i hi) ha hma,
      page_after hlimit (hnodup k hk) (hcover k hk) (hle k hk) hb hmb]
    exact Nat.add_lt_add_right hpage 1
  · rintro ⟨hcover, hrest⟩ i hi k hk a ha b hb hpage
    have hbm : m < key b := by
      refine (hcover k hk b hb).resolve_left fun hfirst => ?_
      rw [Nat.div_eq_of_lt (mem_firstPage.1 hfirst).2] at hpage
      exact absurd hpage (Nat.not_lt_zero _)
    by_cases ham : m < key a
    · refine hrest i hi k hk a (mem_after.2 ⟨ha, ham⟩) b (mem_after.2 ⟨hb, hbm⟩) ?_
      rw [page_after hlimit (hnodup i hi) (hcover i hi) (hle i hi) ha ham,
        page_after hlimit (hnodup k hk) (hcover k hk) (hle k hk) hb hbm] at hpage
      exact Nat.lt_of_add_lt_add_right hpage
    · exact (not_lt.1 ham).trans_lt hbm

/-- Streams of at most one page each are in step. -/
theorem lockstep_of_length_le (h : ∀ i ∈ is, (streams i).length ≤ limit) :
    Lockstep key limit streams is := by
  intro i _ k hk a _ b hb hpage
  have hrank : rank key (streams k) b < (streams k).length := by
    refine lt_of_le_of_ne rank_le_length fun heq => ?_
    exact absurd (of_decide_eq_true (List.countP_eq_length.1 heq b hb)) (lt_irrefl _)
  rw [Nat.div_eq_of_lt (hrank.trans_le (h k hk))] at hpage
  exact absurd hpage (Nat.not_lt_zero _)

/-! ### Putting the pages together -/

/-- Keeping one row of each key in a row keeps every key. -/
theorem exists_mem_destutter' (a : ρ) (h : r = a ∨ r ∈ rows) :
    ∃ x ∈ rows.destutter' (fun a b => key a ≠ key b) a, key x = key r := by
  induction rows generalizing a with
  | nil =>
    obtain rfl : r = a := by simpa using h
    exact ⟨r, by simp, rfl⟩
  | cons b rows ih =>
    by_cases hab : key a ≠ key b
    · rw [List.destutter'_cons, if_pos hab]
      rcases h with rfl | h
      · exact ⟨r, List.mem_cons_self, rfl⟩
      · obtain ⟨x, hx, hkey⟩ := ih b (List.mem_cons.1 h)
        exact ⟨x, List.mem_cons_of_mem _ hx, hkey⟩
    · rw [List.destutter'_cons, if_neg hab]
      rcases h with rfl | h
      · exact ih r (.inl rfl)
      · rcases List.mem_cons.1 h with rfl | h
        · exact ⟨a, List.mem_destutter' _ _ a, not_not.1 hab⟩
        · exact ih a (.inr h)

variable (key) in
theorem exists_mem_destutter (h : r ∈ rows) :
    ∃ x ∈ rows.destutter (fun a b => key a ≠ key b), key x = key r := by
  cases rows with
  | nil => cases h
  | cons a rows => exact exists_mem_destutter' a (List.mem_cons.1 h)

/-- Sorted rows of which no two next to each other have one key are in strict order. -/
theorem pairwise_lt (hle : rows.Pairwise fun a b => key a ≤ key b)
    (hne : rows.IsChain fun a b => key a ≠ key b) : rows.Pairwise fun a b => key a < key b := by
  induction rows with
  | nil => exact List.Pairwise.nil
  | cons a rows ih =>
    obtain ⟨hfirst, hrest⟩ := List.pairwise_cons.1 hle
    have hlt := ih hrest hne.tail
    refine List.pairwise_cons.2 ⟨fun x hx => ?_, hlt⟩
    cases rows with
    | nil => cases hx
    | cons b rows =>
      have hab := lt_of_le_of_ne (hfirst b List.mem_cons_self) (List.isChain_cons_cons.1 hne).1
      rcases List.mem_cons.1 hx with rfl | hx
      · exact hab
      · exact hab.trans ((List.pairwise_cons.1 hlt).1 x hx)

/-- Rows read more than once and in any order, sorted and with one row of each key kept, are the
stream they are from. -/
theorem destutter_mergeSort_eq {stream : List ρ} (hmem : ∀ x, x ∈ rows ↔ x ∈ stream)
    (hstream : stream.Pairwise fun a b => key a < key b) :
    (rows.mergeSort fun a b => decide (key a ≤ key b)).destutter (fun a b => key a ≠ key b) =
      stream := by
  have hsub := List.destutter_sublist (fun a b => key a ≠ key b)
    (rows.mergeSort fun a b => decide (key a ≤ key b))
  have hperm := List.mergeSort_perm rows fun a b => decide (key a ≤ key b)
  have hsorted := (List.pairwise_mergeSort' (fun a b => key a ≤ key b) rows).sublist hsub
  have hchain := List.isChain_destutter (fun a b => key a ≠ key b)
    (rows.mergeSort fun a b => decide (key a ≤ key b))
  have hexists := fun x (hx : x ∈ rows) => exists_mem_destutter key (hperm.mem_iff.2 hx)
  generalize (rows.mergeSort fun a b => decide (key a ≤ key b)).destutter
    (fun a b => key a ≠ key b) = result at *
  have hlt := pairwise_lt hsorted hchain
  have hnodup : ∀ {l : List ρ}, (l.Pairwise fun a b => key a < key b) → l.Nodup := fun h =>
    h.imp fun hab heq => hab.ne (congrArg key heq)
  have hkeys : (stream.map key).Nodup := List.pairwise_map.2 (hstream.imp fun hab => hab.ne)
  have hasymm : ∀ a b, a ∈ result → b ∈ stream → key a < key b → key b < key a → a = b :=
    fun a b _ _ hab hba => absurd hba hab.not_gt
  refine List.Perm.eq_of_pairwise hasymm hlt hstream ?_
  rw [List.perm_ext_iff_of_nodup (hnodup hlt) (hnodup hstream)]
  intro x
  constructor
  · exact fun hx => (hmem x).1 (hperm.mem_iff.1 (hsub.subset hx))
  · intro hx
    obtain ⟨y, hy, hkey⟩ := hexists x ((hmem x).2 hx)
    have hyx := List.inj_on_of_nodup_map hkeys
      ((hmem y).1 (hperm.mem_iff.1 (hsub.subset hy))) hx hkey
    exact hyx ▸ hy

end Ordered
