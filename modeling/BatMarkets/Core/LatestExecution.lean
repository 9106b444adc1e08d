import BatMarkets.Core.Arrival

/-!
# The latest execution of an instrument

The repair of the execution history begins at the latest stored execution of an instrument
(`latest_execution_at` of `state.rs`).  The stored executions are kept by arrival: what is merged
from the history arrives after what the stream has reported before, and pushes it out, however old
it is.

## Main results

* `latest_execution_by_arrival` : what a call does to the latest execution of an instrument.
* `history_pushes_out_newer` : two old executions are merged into a window of two.
-/

namespace BatMarkets

open Ordered Transition

instance instLawfulOrderMaxInt64 : Std.LawfulOrderMax Int64 where
  max_le_iff a b c := by
    simp only [Int64.le_iff_toInt_le, toInt_max]
    exact max_le_iff
  max_eq_or a b := by
    rw [← Int64.toInt_inj, ← Int64.toInt_inj, toInt_max]
    exact max_choice a.toInt b.toInt

/-- The second time is there if the first is, and not before it. -/
def NotBefore (before after : Option TimestampMs) : Prop := ∀ t ∈ before, ∃ t' ∈ after, t ≤ t'

namespace EngineState

/-- The executions of a list that are not stored when they are admitted. -/
def enteringExecutions (s : EngineState) (executions : List Execution) : List Execution :=
  entering Execution.executionId s.statePolicy.executionCapacity s.executions executions

/-- The stored executions and those that a list brings, in the order of their arrival. -/
def arrivals (s : EngineState) (executions : List Execution) : List Execution :=
  s.executions ++ s.enteringExecutions executions

/-- There is room for the executions of the list that are not stored, each counted once. -/
def HasRoom (s : EngineState) (executions : List Execution) : Prop :=
  s.executions.length + (fresh Execution.executionId s.executions executions).card ≤
    s.statePolicy.executionCapacity

instance (s : EngineState) (executions : List Execution) : Decidable (s.HasRoom executions) :=
  inferInstanceAs (Decidable (_ ≤ _))

/-- A new execution arrives when there is no room, and the one that arrived first is later than all
others of the instrument. -/
def PushesOutLatest (s : EngineState) (instrumentId : InstrumentId) (execution : Execution) : Prop :=
  execution.executionId ∉ s.executions.map (·.executionId) ∧
    s.executions.length = s.statePolicy.executionCapacity ∧
      ∃ first rest, s.executions = first :: rest ∧ first.instrumentId = instrumentId ∧
        ∀ other ∈ rest ++ [execution], other.instrumentId = instrumentId →
          other.executedAt < first.executedAt

theorem latestExecutionAt_eq_some {s : EngineState} {i : InstrumentId} {t : TimestampMs} :
    s.latestExecutionAt i = some t ↔
      (∃ x ∈ s.executions, x.instrumentId = i ∧ x.executedAt = t) ∧
        ∀ x ∈ s.executions, x.instrumentId = i → x.executedAt ≤ t := by
  unfold latestExecutionAt
  rw [List.max?_eq_some_iff]
  simp only [List.mem_map, List.mem_filter, decide_eq_true_eq, forall_exists_index, and_imp,
    and_assoc]
  refine and_congr_right' ⟨fun h x hx hi => h _ x hx hi rfl, fun h b x hx hi hb => ?_⟩
  rw [← hb]
  exact h x hx hi

theorem exists_latest {s : EngineState} {i : InstrumentId} {x : Execution}
    (hx : x ∈ s.executions) (hi : x.instrumentId = i) :
    ∃ t, s.latestExecutionAt i = some t ∧ x.executedAt ≤ t := by
  cases hlatest : s.latestExecutionAt i with
  | none =>
    have hnil := List.max?_eq_none_iff.1 hlatest
    have hmem : x.executedAt ∈ (s.executions.filter (·.instrumentId = i)).map (·.executedAt) :=
      List.mem_map_of_mem (List.mem_filter.2 ⟨hx, decide_eq_true hi⟩)
    rw [hnil] at hmem
    cases hmem
  | some t => exact ⟨t, rfl, (latestExecutionAt_eq_some.1 hlatest).2 x hx hi⟩

/-- The latest time is kept exactly if an execution is stored that is not before it. -/
theorem notBefore_iff {s s' : EngineState} {i : InstrumentId} :
    NotBefore (s.latestExecutionAt i) (s'.latestExecutionAt i) ↔
      ∀ t ∈ s.latestExecutionAt i, ∃ x ∈ s'.executions, x.instrumentId = i ∧ t ≤ x.executedAt := by
  unfold NotBefore
  refine forall₂_congr fun t _ => ?_
  constructor
  · rintro ⟨t', ht', hle⟩
    obtain ⟨⟨x, hx, hi, rfl⟩, -⟩ := latestExecutionAt_eq_some.1 (Option.mem_def.1 ht')
    exact ⟨x, hx, hi, hle⟩
  · rintro ⟨x, hx, hi, hle⟩
    obtain ⟨t', ht', hle'⟩ := exists_latest hx hi
    exact ⟨t', ht', Int64.le_trans hle hle'⟩

theorem notBefore_of_subset {s s' : EngineState} (h : ∀ x ∈ s.executions, x ∈ s'.executions)
    (i : InstrumentId) : NotBefore (s.latestExecutionAt i) (s'.latestExecutionAt i) := by
  rw [notBefore_iff]
  intro t ht
  obtain ⟨⟨x, hx, hi, rfl⟩, -⟩ := latestExecutionAt_eq_some.1 (Option.mem_def.1 ht)
  exact ⟨x, h x hx, hi, Int64.le_refl _⟩

/-- When the first of the stored executions makes room for a new one, the latest time is lost exactly
if it was that of the first. -/
theorem not_notBefore_of_full {s s' : EngineState} {first execution : Execution}
    {rest : List Execution} (hs : s.executions = first :: rest)
    (hs' : s'.executions = rest ++ [execution]) (i : InstrumentId) :
    ¬ NotBefore (s.latestExecutionAt i) (s'.latestExecutionAt i) ↔
      first.instrumentId = i ∧ ∀ other ∈ rest ++ [execution], other.instrumentId = i →
        other.executedAt < first.executedAt := by
  rw [notBefore_iff, hs']
  constructor
  · intro h
    obtain ⟨t, h⟩ := not_forall.1 h
    obtain ⟨ht, h⟩ := Classical.not_imp.1 h
    obtain ⟨⟨x, hx, hi, rfl⟩, -⟩ := latestExecutionAt_eq_some.1 (Option.mem_def.1 ht)
    rw [hs] at hx
    obtain rfl | hx := List.mem_cons.1 hx
    · refine ⟨hi, fun other hother hi' => Int64.not_le.1 fun hle => h ⟨other, hother, hi', hle⟩⟩
    · exact absurd ⟨x, List.mem_append_left _ hx, hi, Int64.le_refl _⟩ h
  · rintro ⟨hi, hall⟩ h
    have hfirst : first ∈ s.executions := by
      rw [hs]
      exact List.mem_cons_self
    obtain ⟨t, ht, hle⟩ := exists_latest hfirst hi
    obtain ⟨x, hx, hxi, htx⟩ := h t ht
    exact Int64.lt_irrefl (Int64.lt_of_le_of_lt (Int64.le_trans hle htx) (hall x hx hxi))

section Window

variable {s : EngineState}
variable (hwindow : IsWindow Execution.executionId s.statePolicy.executionCapacity s.executions)
include hwindow

theorem executions_mergeExecutions_eq (executions : List Execution) :
    (s.mergeExecutions executions).executions =
      trimFront s.statePolicy.executionCapacity (s.arrivals executions) := by
  have hmerge := congrArg Prod.fst (executions_mergeExecutions s executions)
  exact hmerge.trans (foldl_offer_eq_trimFront hwindow.length_le executions)

theorem not_notBefore_execution_iff (i : InstrumentId) (execution : Execution) :
    ¬ NotBefore (s.latestExecutionAt i)
        ((s.applyPrivateEvent (.execution execution)).latestExecutionAt i) ↔
      s.PushesOutLatest i execution := by
  have happly : (s.applyPrivateEvent (.execution execution)).executions =
      offer Execution.executionId s.statePolicy.executionCapacity s.executions execution :=
    congrArg Prod.fst (executionWindow_apply s (.applyPrivateEvent (.execution execution)))
  unfold PushesOutLatest
  by_cases hstored : execution.executionId ∈ s.executions.map (·.executionId)
  · rw [offer_of_mem hstored] at happly
    refine iff_of_false (not_not_intro ?_) fun h => h.1 hstored
    exact notBefore_of_subset (fun x hx => happly ▸ hx) i
  · rw [and_iff_right hstored]
    by_cases hlt : s.executions.length < s.statePolicy.executionCapacity
    · rw [offer_of_lt hstored hlt] at happly
      refine iff_of_false (not_not_intro ?_) fun h => absurd h.1 hlt.ne
      exact notBefore_of_subset (fun x hx => happly ▸ List.mem_append_left _ hx) i
    · have hfull : s.executions.length = s.statePolicy.executionCapacity :=
        le_antisymm hwindow.length_le (not_lt.1 hlt)
      rw [and_iff_right hfull]
      cases hexecutions : s.executions with
      | nil =>
        refine iff_of_false (not_not_intro ?_) ?_
        · refine notBefore_of_subset (fun x hx => ?_) i
          rw [hexecutions] at hx
          cases hx
        · rintro ⟨first, rest, hnil, -⟩
          cases hnil
      | cons first rest =>
        have hlen : rest.length + 1 = s.statePolicy.executionCapacity := by
          rw [hexecutions] at hfull
          exact hfull
        have hoffer : offer Execution.executionId s.statePolicy.executionCapacity (first :: rest)
            execution = rest ++ [execution] := offer_cons (hexecutions ▸ hstored) hlen
        rw [hexecutions, hoffer] at happly
        rw [not_notBefore_of_full hexecutions happly]
        constructor
        · rintro ⟨hi, hall⟩
          exact ⟨first, rest, rfl, hi, hall⟩
        · rintro ⟨first', rest', heq, hi, hall⟩
          cases heq
          exact ⟨hi, hall⟩

end Window

/-- What happens to the executions of an instrument when executions arrive. -/
structure KeptByArrival (s : EngineState) (instrumentId : InstrumentId)
    (executions : List Execution) : Prop where
  /-- The executions that arrived last are kept, whatever their times. -/
  kept : (s.mergeExecutions executions).executions =
    trimFront s.statePolicy.executionCapacity (s.arrivals executions)
  /-- The latest time stays exactly if one of them is not before it. -/
  latest : NotBefore (s.latestExecutionAt instrumentId)
      ((s.mergeExecutions executions).latestExecutionAt instrumentId) ↔
    ∀ t ∈ s.latestExecutionAt instrumentId,
      ∃ x ∈ trimFront s.statePolicy.executionCapacity (s.arrivals executions),
        x.instrumentId = instrumentId ∧ t ≤ x.executedAt
  room : s.HasRoom executions → NotBefore (s.latestExecutionAt instrumentId)
    ((s.mergeExecutions executions).latestExecutionAt instrumentId)
  event : ∀ execution, ¬ NotBefore (s.latestExecutionAt instrumentId)
      ((s.applyPrivateEvent (.execution execution)).latestExecutionAt instrumentId) ↔
    s.PushesOutLatest instrumentId execution

end EngineState

/-- **The latest execution of an instrument.**  In every state that can be reached, whatever
executions arrive, the ones that arrived last are kept; the latest time of an instrument stays
exactly if it is among them, which it is when there is room. -/
theorem latest_execution_by_arrival {venue : Venue} {product : Product} {policy : StatePolicy}
    {instruments : List InstrumentSpec} {ops : List EngineOp} {s : EngineState}
    (h : Visited EngineState.apply (.new venue product policy instruments) ops s)
    (instrumentId : InstrumentId) (executions : List Execution) :
    s.KeptByArrival instrumentId executions := by
  obtain ⟨hwindow, hpolicy⟩ := EngineState.isWindow_of_visited h rfl
  rw [← hpolicy] at hwindow
  have hkept := EngineState.executions_mergeExecutions_eq hwindow executions
  refine ⟨hkept, ?_, fun hroom => ?_, fun execution => ?_⟩
  · rw [EngineState.notBefore_iff, hkept]
  · refine EngineState.notBefore_of_subset (fun x hx => ?_) instrumentId
    have hmerge := congrArg Prod.fst (EngineState.executions_mergeExecutions s executions)
    have hmerge : (s.mergeExecutions executions).executions = executions.foldl
        (offer Execution.executionId s.statePolicy.executionCapacity) s.executions := hmerge
    rw [hmerge]
    exact mem_foldl_offer_of_room hroom hx
  · exact EngineState.not_notBefore_execution_iff hwindow instrumentId execution

/-- An execution of one unit at a time. -/
def Execution.unitAt (executionId : String) (executedAt : TimestampMs) : Execution :=
  { Execution.unit executionId with executedAt }

/-- An engine with room for two executions, which holds one. -/
def EngineState.oneFill : EngineState :=
  run EngineState.apply (.new .bybit .linearUsdt ⟨16, 2⟩ [])
    [.applyPrivateEvent (.execution (.unitAt "live" 100))]

theorem visited_oneFill : Visited EngineState.apply (.new .bybit .linearUsdt ⟨16, 2⟩ [])
    [.applyPrivateEvent (.execution (.unitAt "live" 100))] EngineState.oneFill := visited_run _ _

theorem latest_execution_by_arrival_one :
    NotBefore (EngineState.oneFill.latestExecutionAt ⟨"BTC"⟩)
      ((EngineState.oneFill.mergeExecutions [.unitAt "old" 1]).latestExecutionAt ⟨"BTC"⟩) :=
  (latest_execution_by_arrival visited_oneFill ⟨"BTC"⟩ [.unitAt "old" 1]).room (by decide +kernel)

/-- A fill that the stream has reported, and two older ones from the history. -/
theorem history_pushes_out_newer :
    ¬ ∀ (venue : Venue) (product : Product) (policy : StatePolicy)
      (instruments : List InstrumentSpec) (ops : List EngineOp) (s : EngineState)
      (instrumentId : InstrumentId) (executions : List Execution),
      1 ≤ policy.executionCapacity →
      Visited EngineState.apply (.new venue product policy instruments) ops s →
        NotBefore (s.latestExecutionAt instrumentId)
          ((s.mergeExecutions executions).latestExecutionAt instrumentId) := by
  intro h
  have hkept := h _ _ _ _ _ _ ⟨"BTC"⟩ [.unitAt "old" 1, .unitAt "older" 2] (by decide)
    visited_oneFill
  have hbefore : EngineState.oneFill.latestExecutionAt ⟨"BTC"⟩ = some 100 := by decide +kernel
  have hafter : (EngineState.oneFill.mergeExecutions
      [.unitAt "old" 1, .unitAt "older" 2]).latestExecutionAt ⟨"BTC"⟩ = some 2 := by
    decide +kernel
  rw [hbefore, hafter] at hkept
  obtain ⟨t, ht, hle⟩ := hkept 100 rfl
  cases ht
  exact absurd hle (by decide)

end BatMarkets
