import BatMarkets.Core.Interval
import BatMarkets.Runtime.Sequences

/-!
# The gaps a sequence tracker finds

The streams of all venues share one kind of tracker (`SequenceTracker` of `runtime.rs`).  Here its
`observe` is taken as it runs, with the sum in its last guard and with the tracker that it leaves
behind when it rejects a value, and is run over any observations of any topics.

A topic is strict or not by the observations since its last reset.  Where these do not agree, the
flag that counts is the one kept with the watermark.

The sum is only computed below a value that there is, so that it does not overflow.

## Main results

* `SequenceTracker.observeMut_eq` : a rejected value changes nothing.
* `observe_detects_gaps` : which values pass, and what is reported of the others.
* `foldlM_observe_iff` : topics that are never strict or reset pass as long as their values grow.
-/

namespace BatMarkets

open Ordered

/-- `observe` with the tracker it leaves. -/
def SequenceTracker.observeMut (tracker : SequenceTracker) (observation : SequenceObservation) :
    Except Failure (Except Int64 Unit × SequenceTracker) := do
  let current : Watermark := ⟨observation.value, observation.strictGap⟩
  if observation.reset then
    return (.ok (), tracker.insert observation.topic current)
  match tracker[observation.topic]? with
  | none => return (.ok (), tracker.insert observation.topic current)
  | some existing =>
    if observation.value = existing.value then return (.ok (), tracker)
    if observation.value < existing.value then return (.error observation.value, tracker)
    if existing.strictGap then
      let next ← checkedI64 (existing.value.toInt + 1)
      if next < observation.value then return (.error next, tracker)
    return (.ok (), tracker.insert observation.topic current)

/-- The tracker after a run of observations, whether they pass or not. -/
def SequenceTracker.observeAll (tracker : SequenceTracker) (os : List SequenceObservation) :
    Except Failure SequenceTracker :=
  os.foldlM (fun tracker o => Prod.snd <$> tracker.observeMut o) tracker

/-- The observations of a run that pass. -/
def SequenceTracker.passed (tracker : SequenceTracker) :
    List SequenceObservation → List SequenceObservation
  | [] => []
  | o :: os =>
    match tracker.observeMut o with
    | .ok (.ok _, after) => o :: after.passed os
    | .ok (.error _, after) => after.passed os
    | .error _ => []

/-- The value of the topic that passed last. -/
def lastPassed (topic : String) (os : List SequenceObservation) : Option Int64 :=
  (((SequenceTracker.passed ∅ os).filter (·.topic = topic)).getLast?).map (·.value)

/-- The observations of the topic since its last reset, with that one. -/
def sinceReset (topic : String) (os : List SequenceObservation) : List SequenceObservation :=
  (os.filter (·.topic = topic)).foldl (fun since o => if o.reset then [o] else since ++ [o]) []

/-- A topic may go on with a value: it is not behind, and a strict topic leaves none out. -/
def GoesOn (strict : Bool) (last value : Int64) : Prop :=
  last.toInt ≤ value.toInt ∧ (strict = true → value.toInt ≤ last.toInt + 1)

/-- What is reported of a value with which a topic may not go on: a value that is behind itself,
otherwise the first value left out. -/
def Reports (last value reported : Int64) : Prop :=
  value.toInt < last.toInt ∧ reported = value ∨
    last.toInt + 1 < value.toInt ∧ reported.toInt = last.toInt + 1

/-! ### One observation -/

/-- What a topic is left with when it is told of an observation, or what is reported. -/
def Watermark.observe (existing : Option Watermark) (o : SequenceObservation) :
    Except Int64 Watermark :=
  if o.reset then .ok ⟨o.value, o.strictGap⟩
  else match existing with
    | none => .ok ⟨o.value, o.strictGap⟩
    | some existing =>
      if o.value = existing.value then .ok existing
      else if o.value < existing.value then .error o.value
      else if existing.strictGap && existing.value + 1 < o.value then .error (existing.value + 1)
      else .ok ⟨o.value, o.strictGap⟩

theorem lt_of_not_le {a b : Int64} (hne : b ≠ a) (hlt : ¬ b < a) : a < b := by
  have hne : b.toInt ≠ a.toInt := fun h => hne (Int64.toInt_inj.1 h)
  rw [Int64.lt_iff_toInt_lt] at hlt ⊢
  omega

/-- A topic goes on, or the value is reported. -/
theorem Watermark.observe_some {w : Watermark} {o : SequenceObservation} (hreset : o.reset = false) :
    (∃ w', Watermark.observe (some w) o = .ok w' ∧ w'.value = o.value ∧
        (w'.strictGap = w.strictGap ∨ w'.strictGap = o.strictGap) ∧
        GoesOn w.strictGap w.value o.value) ∨
      ∃ reported, Watermark.observe (some w) o = .error reported ∧
        ¬ GoesOn w.strictGap w.value o.value ∧ Reports w.value o.value reported := by
  unfold Watermark.observe
  rw [if_neg (by simp [hreset])]
  dsimp only
  by_cases heq : o.value = w.value
  · rw [if_pos heq]
    refine .inl ⟨w, rfl, heq.symm, .inl rfl, ?_⟩
    rw [heq]
    exact ⟨le_refl _, fun _ => by omega⟩
  · rw [if_neg heq]
    by_cases hlt : o.value < w.value
    · rw [if_pos hlt]
      rw [Int64.lt_iff_toInt_lt] at hlt
      exact .inr ⟨_, rfl, fun h => absurd h.1 (not_le.2 hlt), .inl ⟨hlt, rfl⟩⟩
    · rw [if_neg hlt]
      have hgt := lt_of_not_le heq hlt
      have hsum := toInt_add_one hgt
      have hgt' := Int64.lt_iff_toInt_lt.1 hgt
      by_cases hgap : (w.strictGap && decide (w.value + 1 < o.value)) = true
      · rw [if_pos hgap]
        rw [Bool.and_eq_true, decide_eq_true_eq, Int64.lt_iff_toInt_lt, hsum] at hgap
        exact .inr ⟨_, rfl, fun h => absurd (h.2 hgap.1) (not_le.2 hgap.2), .inr ⟨hgap.2, hsum⟩⟩
      · rw [if_neg hgap]
        refine .inl ⟨_, rfl, rfl, .inr rfl, hgt'.le, fun hstrict => ?_⟩
        rw [hstrict, Bool.true_and, decide_eq_true_eq, Int64.lt_iff_toInt_lt, hsum] at hgap
        omega

/-- A value that passes becomes the watermark, with the flag of its observation or the one kept. -/
theorem Watermark.of_observe {existing : Option Watermark} {o : SequenceObservation}
    {w : Watermark} (h : Watermark.observe existing o = .ok w) :
    w.value = o.value ∧
      (w.strictGap = o.strictGap ∨ o.reset = false ∧ ∃ e ∈ existing, e.strictGap = w.strictGap) := by
  by_cases hreset : o.reset = true
  · unfold Watermark.observe at h
    rw [if_pos hreset] at h
    cases h
    exact ⟨rfl, .inl rfl⟩
  · rw [Bool.not_eq_true] at hreset
    cases existing with
    | none =>
      unfold Watermark.observe at h
      rw [if_neg (by simp [hreset])] at h
      cases h
      exact ⟨rfl, .inl rfl⟩
    | some e =>
      obtain ⟨w', hobserve, hvalue, hstrict, -⟩ | ⟨reported, hobserve, -⟩ :=
        Watermark.observe_some (w := e) hreset
      · rw [hobserve] at h
        cases h
        obtain hkept | hown := hstrict
        · exact ⟨hvalue, .inr ⟨hreset, e, rfl, hkept.symm⟩⟩
        · exact ⟨hvalue, .inl hown⟩
      · rw [hobserve] at h
        cases h

namespace SequenceTracker

variable {tracker : SequenceTracker} {o : SequenceObservation}

theorem insert_of_lookup {topic : String} {w : Watermark} (h : tracker[topic]? = some w) :
    tracker.insert topic w = tracker := by
  refine Std.ExtTreeMap.ext_getElem? fun k => ?_
  rw [lookup_insert]
  by_cases hk : topic = k
  · rw [if_pos hk, ← hk, h]
  · rw [if_neg hk]

/-- The topic of an observation is all that `observe` looks at. -/
theorem observe_eq (tracker : SequenceTracker) (o : SequenceObservation) :
    tracker.observe o =
      (Watermark.observe tracker[o.topic]? o).map (tracker.insert o.topic ·) := by
  unfold observe Watermark.observe
  by_cases hreset : o.reset = true
  · simp only [hreset, if_true]
    rfl
  · simp only [hreset]
    cases hlookup : tracker[o.topic]? with
    | none => rfl
    | some existing =>
      by_cases heq : o.value = existing.value
      · simp only [heq, if_true]
        exact congrArg Except.ok (insert_of_lookup hlookup).symm
      · by_cases hlt : o.value < existing.value
        · simp only [heq, hlt, if_false, if_true]
          rfl
        · by_cases hgap : (existing.strictGap && decide (existing.value + 1 < o.value)) = true
          · simp only [heq, hlt, hgap, if_false, if_true]
            rfl
          · simp only [heq, hlt, hgap, if_false]
            rfl

/-- It returns what `observe` returns, and a rejected value changes nothing. -/
theorem observeMut_eq (tracker : SequenceTracker) (o : SequenceObservation) :
    tracker.observeMut o = .ok (match tracker.observe o with
      | .ok after => (.ok (), after)
      | .error reported => (.error reported, tracker)) := by
  unfold observeMut observe
  by_cases hreset : o.reset = true
  · simp [hreset]
    rfl
  · cases hlookup : tracker[o.topic]? with
    | none =>
      simp [hreset]
      rfl
    | some existing =>
      by_cases heq : o.value = existing.value
      · simp [hreset, heq]
        rfl
      · by_cases hlt : o.value < existing.value
        · simp [hreset, heq, hlt]
          rfl
        · have hnext := checkedI64_next (lt_of_not_le heq hlt)
          cases hstrict : existing.strictGap with
          | false =>
            simp [hreset, heq, hlt, hstrict]
            rfl
          | true =>
            by_cases hgap : existing.value + 1 < o.value
            · simp [hreset, heq, hlt, hstrict, hnext, hgap]
              exact if_pos hgap
            · simp [hreset, heq, hlt, hstrict, hnext, hgap]
              exact if_neg hgap

theorem observeMut_of_ok {w : Watermark} (h : Watermark.observe tracker[o.topic]? o = .ok w) :
    tracker.observeMut o = .ok (.ok (), tracker.insert o.topic w) := by
  rw [observeMut_eq, observe_eq, h]
  rfl

theorem observeMut_of_error {reported : Int64}
    (h : Watermark.observe tracker[o.topic]? o = .error reported) :
    tracker.observeMut o = .ok (.error reported, tracker) := by
  rw [observeMut_eq, observe_eq, h]
  rfl

/-! ### Runs -/

end SequenceTracker

/-- What a topic is left with after an observation, whether it passes or not. -/
def Watermark.next (existing : Option Watermark) (o : SequenceObservation) : Option Watermark :=
  match Watermark.observe existing o with
  | .ok w => some w
  | .error _ => existing

namespace SequenceTracker

variable {tracker after : SequenceTracker} {o : SequenceObservation} {os : List SequenceObservation}
  {topic : String}

theorem lookup_observeMut (tracker : SequenceTracker) (o : SequenceObservation) :
    ∃ outcome after, tracker.observeMut o = .ok (outcome, after) ∧ ∀ topic,
      after[topic]? =
        if o.topic = topic then Watermark.next tracker[o.topic]? o else tracker[topic]? := by
  unfold Watermark.next
  cases h : Watermark.observe tracker[o.topic]? o with
  | ok w =>
    exact ⟨_, _, observeMut_of_ok h, fun topic => lookup_insert ..⟩
  | error reported =>
    refine ⟨_, _, observeMut_of_error h, fun topic => ?_⟩
    split
    next htopic => rw [htopic]
    next => rfl

/-- A topic is left with what its own observations leave. -/
theorem lookup_observeAll (tracker : SequenceTracker) (os : List SequenceObservation) :
    ∃ after, tracker.observeAll os = .ok after ∧ ∀ topic,
      after[topic]? = (os.filter (·.topic = topic)).foldl Watermark.next tracker[topic]? := by
  induction os generalizing tracker with
  | nil => exact ⟨tracker, rfl, fun topic => rfl⟩
  | cons o os ih =>
    obtain ⟨outcome, next, hnext, hlookup⟩ := lookup_observeMut tracker o
    obtain ⟨after, hafter, hrest⟩ := ih next
    refine ⟨after, ?_, fun topic => ?_⟩
    · unfold observeAll at hafter ⊢
      rw [List.foldlM_cons, hnext]
      exact hafter
    · rw [hrest topic, hlookup topic]
      by_cases htopic : o.topic = topic
      · rw [if_pos htopic, List.filter_cons_of_pos (by simpa using htopic), List.foldl_cons,
          htopic]
      · rw [if_neg htopic, List.filter_cons_of_neg (by simpa using htopic)]

theorem observeAll_concat (h : tracker.observeAll os = .ok after) (o : SequenceObservation) :
    tracker.observeAll (os ++ [o]) = Prod.snd <$> after.observeMut o := by
  unfold observeAll at h ⊢
  rw [List.foldlM_append, h]
  have hone : [o].foldlM (fun tracker o => Prod.snd <$> observeMut tracker o) after =
      Prod.snd <$> after.observeMut o := by
    rw [List.foldlM_cons]
    cases after.observeMut o <;> rfl
  exact hone

theorem passed_concat (h : tracker.observeAll os = .ok after) (o : SequenceObservation) :
    tracker.passed (os ++ [o]) = tracker.passed os ++ after.passed [o] := by
  induction os generalizing tracker with
  | nil =>
    cases h
    rfl
  | cons p os ih =>
    obtain ⟨outcome, next, hnext, -⟩ := lookup_observeMut tracker p
    have hrest : next.observeAll os = .ok after := by
      unfold observeAll at h ⊢
      rw [List.foldlM_cons, hnext] at h
      exact h
    have hpassed := ih hrest
    rw [List.cons_append, passed, passed, hnext]
    cases outcome with
    | ok _ =>
      dsimp only
      rw [hpassed, List.cons_append]
    | error _ => exact hpassed

end SequenceTracker

open SequenceTracker

theorem lastPassed_concat {os : List SequenceObservation} {tracker : SequenceTracker}
    (h : observeAll ∅ os = .ok tracker) (o : SequenceObservation) (topic : String) :
    lastPassed topic (os ++ [o]) =
      if o.topic = topic ∧ (Watermark.observe tracker[o.topic]? o).isOk = true then some o.value
      else lastPassed topic os := by
  unfold lastPassed
  rw [passed_concat h]
  cases hobserve : Watermark.observe tracker[o.topic]? o with
  | ok w =>
    rw [passed, observeMut_of_ok hobserve]
    by_cases htopic : o.topic = topic
    · simp [passed, htopic, Except.isOk, Except.toBool]
    · simp [passed, htopic]
  | error reported =>
    rw [passed, observeMut_of_error hobserve]
    simp [passed, Except.isOk, Except.toBool]

theorem sinceReset_concat (topic : String) (os : List SequenceObservation)
    (o : SequenceObservation) :
    sinceReset topic (os ++ [o]) =
      if o.topic = topic then if o.reset then [o] else sinceReset topic os ++ [o]
      else sinceReset topic os := by
  unfold sinceReset
  by_cases htopic : o.topic = topic
  · simp [List.filter_append, List.foldl_append, htopic]
  · simp [List.filter_append, htopic]

/-- The watermark of a topic is the value that passed last, and its flag is that of an observation
since the last reset. -/
theorem observeAll_spec (os : List SequenceObservation) :
    ∃ tracker, observeAll ∅ os = .ok tracker ∧
      (∀ topic, tracker[topic]?.map (·.value) = lastPassed topic os) ∧
      ∀ topic, ∀ w ∈ tracker[topic]?, ∃ p ∈ sinceReset topic os, p.strictGap = w.strictGap := by
  induction os using List.reverseRecOn with
  | nil =>
    refine ⟨∅, rfl, fun topic => ?_, fun topic w hw => ?_⟩
    · simp [lastPassed, passed]
    · simp at hw
  | append_singleton os o ih =>
    obtain ⟨tracker, htracker, hvalue, hstrict⟩ := ih
    obtain ⟨outcome, after, hafter, hlookup⟩ := lookup_observeMut tracker o
    refine ⟨after, ?_, fun topic => ?_, fun topic w hw => ?_⟩
    · rw [observeAll_concat htracker, hafter]
      rfl
    · rw [hlookup topic, lastPassed_concat htracker]
      by_cases htopic : o.topic = topic
      · subst htopic
        rw [if_pos rfl]
        unfold Watermark.next
        cases hobserve : Watermark.observe tracker[o.topic]? o with
        | ok w =>
          rw [if_pos ⟨rfl, rfl⟩]
          exact congrArg some (Watermark.of_observe hobserve).1
        | error reported =>
          rw [if_neg fun h => nomatch h.2]
          exact hvalue o.topic
      · rw [if_neg htopic, if_neg fun h => htopic h.1]
        exact hvalue topic
    · rw [hlookup topic] at hw
      rw [sinceReset_concat]
      by_cases htopic : o.topic = topic
      · subst htopic
        rw [if_pos rfl] at hw ⊢
        unfold Watermark.next at hw
        -- the flag of the new watermark is that of the value itself, or one from before
        have hown : o ∈ if o.reset then [o] else sinceReset o.topic os ++ [o] := by
          split <;> simp
        cases hobserve : Watermark.observe tracker[o.topic]? o with
        | ok w' =>
          rw [hobserve] at hw
          cases hw
          obtain hflag | ⟨hreset, e, he, hflag⟩ := (Watermark.of_observe hobserve).2
          · exact ⟨o, hown, hflag.symm⟩
          · obtain ⟨p, hp, hpflag⟩ := hstrict o.topic e he
            refine ⟨p, ?_, hpflag.trans hflag⟩
            rw [hreset, if_neg Bool.false_ne_true]
            exact List.mem_append_left _ hp
        | error reported =>
          rw [hobserve] at hw
          have hreset : o.reset = false := by
            unfold Watermark.observe at hobserve
            cases hreset : o.reset with
            | false => rfl
            | true => simp [hreset] at hobserve
          obtain ⟨p, hp, hpflag⟩ := hstrict o.topic w hw
          refine ⟨p, ?_, hpflag⟩
          rw [hreset, if_neg Bool.false_ne_true]
          exact List.mem_append_left _ hp
      · rw [if_neg htopic] at hw ⊢
        exact hstrict topic w hw

/-- What a tracker that was told of `os` does with one more observation. -/
structure DetectsGaps (os : List SequenceObservation) (o : SequenceObservation)
    (tracker : SequenceTracker) (outcome : Except Int64 Unit) (after : SequenceTracker) : Prop where
  /-- The watermark of a topic is the value that passed last. -/
  watermark : ∀ topic, tracker[topic]?.map (·.value) = lastPassed topic os
  /-- The topics do not depend on each other. -/
  alone : ∀ topic, ∃ alone, observeAll ∅ (os.filter (·.topic = topic)) = .ok alone ∧
    alone[topic]? = tracker[topic]?
  /-- A reset passes, and so does the first value of a topic. -/
  first : o.reset = true ∨ lastPassed o.topic os = none → outcome = .ok ()
  /-- Any other value passes if the topic may go on with it, as strict as its observations since
  the last reset are. -/
  passes : ∀ strict, (∀ p ∈ sinceReset o.topic os, p.strictGap = strict) → o.reset = false →
    ∀ last, lastPassed o.topic os = some last → (outcome = .ok () ↔ GoesOn strict last o.value)
  /-- If they do not agree, the flag of the watermark counts. -/
  passes_mixed : o.reset = false → ∀ w, tracker[o.topic]? = some w →
    (outcome = .ok () ↔ GoesOn w.strictGap w.value o.value)
  /-- A value that passes becomes the watermark. -/
  accepted : outcome = .ok () → after[o.topic]?.map (·.value) = some o.value
  /-- A rejected value changes nothing, and is reported itself or by the first value left out. -/
  rejected : ∀ reported, outcome = .error reported →
    after = tracker ∧ ∃ last, lastPassed o.topic os = some last ∧ Reports last o.value reported
  others : ∀ topic, topic ≠ o.topic → after[topic]? = tracker[topic]?

/-- **The tracker detects exactly the gaps.**  For all observations of all topics and each next one,
nothing panics, and the value passes or is rejected as its own topic tells. -/
theorem observe_detects_gaps (os : List SequenceObservation) (o : SequenceObservation) :
    ∃ tracker outcome after, observeAll ∅ os = .ok tracker ∧
      tracker.observeMut o = .ok (outcome, after) ∧ DetectsGaps os o tracker outcome after := by
  obtain ⟨tracker, htracker, hvalue, hstrict⟩ := observeAll_spec os
  -- the other topics may be left out
  have halone : ∀ topic, ∃ alone, observeAll ∅ (os.filter (·.topic = topic)) = .ok alone ∧
      alone[topic]? = tracker[topic]? := by
    intro topic
    obtain ⟨alone, hrun, hlookup⟩ := lookup_observeAll ∅ (os.filter (·.topic = topic))
    obtain ⟨tracker', htracker', hlookup'⟩ := lookup_observeAll ∅ os
    rw [htracker] at htracker'
    cases htracker'
    refine ⟨alone, hrun, ?_⟩
    rw [hlookup, hlookup', List.filter_filter]
    simp
  -- the watermark is the last value that has passed
  have hmark : ∀ last, lastPassed o.topic os = some last →
      ∃ w, tracker[o.topic]? = some w ∧ w.value = last := by
    intro last hlast
    have hw := hvalue o.topic
    rw [hlast] at hw
    exact Option.map_eq_some_iff.1 hw
  have hfirst : o.reset = true ∨ lastPassed o.topic os = none →
      Watermark.observe tracker[o.topic]? o = .ok ⟨o.value, o.strictGap⟩ := by
    rintro (hreset | hnone)
    · exact if_pos hreset
    · have hlookup := hvalue o.topic
      rw [hnone, Option.map_eq_none_iff] at hlookup
      unfold Watermark.observe
      rw [hlookup]
      exact ite_self _
  cases hobserve : Watermark.observe tracker[o.topic]? o with
  | ok w =>
    -- a value that passes without a reset goes on from the watermark
    have hgoes : o.reset = false → ∀ e, tracker[o.topic]? = some e →
        GoesOn e.strictGap e.value o.value := by
      intro hreset e he
      rw [he] at hobserve
      obtain ⟨-, -, -, -, hgoes⟩ | ⟨reported, herror, -⟩ := Watermark.observe_some (w := e) hreset
      · exact hgoes
      · rw [herror] at hobserve
        cases hobserve
    refine ⟨tracker, _, _, htracker, observeMut_of_ok hobserve, hvalue, halone, fun _ => rfl,
      fun strict hall hreset last hlast => iff_of_true rfl ?_,
      fun hreset e he => iff_of_true rfl (hgoes hreset e he), fun _ => ?_,
      fun reported h => (nomatch h), fun topic htopic => ?_⟩
    · obtain ⟨e, he, hlast⟩ := hmark last hlast
      obtain ⟨p, hp, hflag⟩ := hstrict o.topic e he
      have hgoes := hgoes hreset e he
      rwa [hlast, ← hflag, hall p hp] at hgoes
    · rw [lookup_insert, if_pos rfl]
      exact congrArg some (Watermark.of_observe hobserve).1
    · rw [lookup_insert, if_neg (Ne.symm htopic)]
  | error reported =>
    -- only a value without a reset, after another one of its topic, is rejected
    have hreset : o.reset = false := by
      by_contra hreset
      rw [hfirst (.inl (by simpa using hreset))] at hobserve
      cases hobserve
    obtain ⟨e, he⟩ : ∃ e, tracker[o.topic]? = some e := by
      cases hlookup : tracker[o.topic]? with
      | none =>
        have hnone := hvalue o.topic
        rw [hlookup] at hnone
        rw [hfirst (.inr hnone.symm)] at hobserve
        cases hobserve
      | some e => exact ⟨e, rfl⟩
    have hlast : lastPassed o.topic os = some e.value := by
      rw [← hvalue o.topic, he]
      rfl
    obtain ⟨hbroken, hreports⟩ : ¬ GoesOn e.strictGap e.value o.value ∧
        Reports e.value o.value reported := by
      have hobserve' := hobserve
      rw [he] at hobserve'
      obtain ⟨w', hok, -⟩ | ⟨reported', herror, hbroken⟩ := Watermark.observe_some (w := e) hreset
      · rw [hok] at hobserve'
        cases hobserve'
      · rw [herror] at hobserve'
        cases hobserve'
        exact hbroken
    refine ⟨tracker, _, _, htracker, observeMut_of_error hobserve, hvalue, halone, fun h => ?_,
      fun strict hall _ last hlast' => iff_of_false (fun h => nomatch h) ?_,
      fun _ w hw => iff_of_false (fun h => nomatch h) ?_, fun h => (nomatch h),
      fun n hn => ?_, fun _ _ => rfl⟩
    · rw [hfirst h] at hobserve
      cases hobserve
    · obtain ⟨p, hp, hflag⟩ := hstrict o.topic e he
      rw [hlast] at hlast'
      cases hlast'
      rwa [← hall p hp, hflag]
    · rw [he] at hw
      cases hw
      exact hbroken
    · cases hn
      exact ⟨rfl, e.value, hlast, hreports⟩

/-! ### Topics that are never strict -/

/-- A value passes exactly if it is not behind, and is the watermark afterwards. -/
theorem observe_loose (last : Option SequenceObservation) {o : SequenceObservation}
    (hreset : o.reset = false) (hloose : o.strictGap = false) :
    (Watermark.observe (last.map fun p => ⟨p.value, false⟩) o = .ok ⟨o.value, false⟩ ∧
        ∀ p ∈ last, p.value ≤ o.value) ∨
      (∃ reported, Watermark.observe (last.map fun p => ⟨p.value, false⟩) o = .error reported) ∧
        ¬ ∀ p ∈ last, p.value ≤ o.value := by
  cases last with
  | none =>
    refine .inl ⟨?_, fun p hp => (nomatch hp)⟩
    unfold Watermark.observe
    rw [if_neg (by simp [hreset]), hloose]
    rfl
  | some p =>
    obtain ⟨w, hobserve, hvalue, hflag, hgoes⟩ | ⟨reported, hobserve, hbroken, -⟩ :=
      Watermark.observe_some (w := ⟨p.value, false⟩) hreset
    · have hstrict : w.strictGap = false := by
        obtain h | h := hflag
        · exact h
        · exact h.trans hloose
      have hw : w = ⟨o.value, false⟩ := by
        cases w
        simp_all
      refine .inl ⟨hw ▸ hobserve, ?_⟩
      rintro q ⟨⟩
      exact Int64.le_iff_toInt_le.2 hgoes.1
    · refine .inr ⟨⟨reported, hobserve⟩, fun h => hbroken ⟨?_, fun h => nomatch h⟩⟩
      exact Int64.le_iff_toInt_le.1 (h p rfl)

/-- A run passes exactly when the values of each topic grow. -/
theorem foldlM_observe_iff {os : List SequenceObservation}
    (hplain : ∀ o ∈ os, o.reset = false ∧ o.strictGap = false) {tracker : SequenceTracker}
    {last : String → Option SequenceObservation}
    (h : ∀ topic, tracker[topic]? = (last topic).map fun p => ⟨p.value, false⟩) :
    (∃ after, os.foldlM SequenceTracker.observe tracker = .ok after) ↔
      KeyedChain (·.topic) (fun p q => p.value ≤ q.value) last os := by
  induction os generalizing tracker last with
  | nil =>
    refine iff_of_true ⟨tracker, rfl⟩ fun topic => ?_
    cases last topic with
    | none => exact List.IsChain.nil
    | some p => exact List.IsChain.singleton p
  | cons o os ih =>
    obtain ⟨hreset, hloose⟩ := hplain o (by simp)
    have hrest : ∀ p ∈ os, p.reset = false ∧ p.strictGap = false :=
      fun p hp => hplain p (List.mem_cons_of_mem _ hp)
    rw [keyedChain_cons, List.foldlM_cons, observe_eq, h o.topic]
    obtain ⟨hobserve, hle⟩ | ⟨⟨reported, hobserve⟩, hbroken⟩ :=
      observe_loose (last o.topic) hreset hloose
    · have hkeeps : ∀ topic, (tracker.insert o.topic ⟨o.value, false⟩)[topic]? =
          (Function.update last o.topic (some o) topic).map
            fun p => (⟨p.value, false⟩ : Watermark) := by
        intro topic
        rw [lookup_insert]
        by_cases htopic : o.topic = topic
        · subst htopic
          rw [if_pos rfl, Function.update_self]
          rfl
        · rw [if_neg htopic, Function.update_of_ne (Ne.symm htopic)]
          exact h topic
      rw [hobserve, and_iff_right hle]
      exact ih hrest hkeeps
    · rw [hobserve]
      refine iff_of_false ?_ fun hchain => hbroken hchain.1
      rintro ⟨after, ⟨⟩⟩

end BatMarkets
