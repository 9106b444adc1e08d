import BatMarkets.Transition.Basic

/-!
# Broadcast channels

A channel keeps the last values that were sent.  A receiver stands at a position, the number of
values sent before the one it wants next; when that value is no longer kept, a receive says how many
values it has missed and moves on to the oldest one there is.

A follower receives in a loop: a call of it takes values until it can read one and returns what it
reads; values it cannot read, and those it has missed, are passed over.  What it reads may depend on
a context that others change.  A call may be dropped while it waits.

The follower logs what it does, which a program that follows a channel does not do.

## Main results

* `accounted_run` : in every run, each value sent since the receiver was made and before its
  position has been taken once, in order, or was missed because as many values as the channel keeps
  were sent after it; and the calls have returned what was read off the values taken.
* `results_of_keepsUp` : a follower that keeps up has read all values, in order.
* `run_polls` : a call that is polled returns the first value it can read, and waits if there is none.
-/

namespace Interleaving

open Transition

variable {ε κ ρ : Type*}

/-! ### Channels -/

/-- Everything that has been sent, oldest first, of which the last `capacity` values are kept. -/
structure Channel (ε : Type*) where
  capacity : ℕ
  sent : List ε := []
  /-- The senders are gone. -/
  closed : Bool := false

/-- What a receiver gets. -/
inductive Received (ε : Type*)
  | value (e : ε)
  | lagged (missed : ℕ)
  | closed

namespace Channel

/-- A value is sent, unless the channel is closed. -/
def send (c : Channel ε) (e : ε) : Channel ε :=
  if c.closed then c else { c with sent := c.sent ++ [e] }

/-- The position of the oldest value that is kept. -/
def oldest (c : Channel ε) : ℕ := c.sent.length - c.capacity

/-- What a receiver gets at a position, and its position after it, unless it has to wait. -/
def recv (c : Channel ε) (next : ℕ) : Option (Received ε × ℕ) :=
  if next < c.oldest then some (.lagged (c.oldest - next), c.oldest)
  else
    match c.sent[next]? with
    | some e => some (.value e, next + 1)
    | none => if c.closed then some (.closed, next) else none

/-- A receiver lags, gets the value at its position, or has got all there are. -/
theorem recv_cases (c : Channel ε) (next : ℕ) :
    (next < c.oldest ∧ c.recv next = some (.lagged (c.oldest - next), c.oldest)) ∨
      (∃ e, c.oldest ≤ next ∧ c.sent[next]? = some e ∧ c.recv next = some (.value e, next + 1)) ∨
      (c.oldest ≤ next ∧ c.sent[next]? = none ∧ c.closed = true ∧
        c.recv next = some (.closed, next)) ∨
      (c.oldest ≤ next ∧ c.sent[next]? = none ∧ c.closed = false ∧ c.recv next = none) := by
  unfold recv
  by_cases hlag : next < c.oldest
  · exact .inl ⟨hlag, if_pos hlag⟩
  · have hkept := Nat.le_of_not_lt hlag
    rw [if_neg hlag]
    cases hnext : c.sent[next]? with
    | some e => exact .inr (.inl ⟨e, hkept, rfl, rfl⟩)
    | none =>
      cases hclosed : c.closed with
      | true => exact .inr (.inr (.inl ⟨hkept, rfl, rfl, rfl⟩))
      | false => exact .inr (.inr (.inr ⟨hkept, rfl, rfl, rfl⟩))

theorem oldest_le (c : Channel ε) : c.oldest ≤ c.sent.length := Nat.sub_le _ _

end Channel

/-! ### Followers -/

/-- How a follower reads. -/
structure Reader (ε κ ρ : Type*) where
  /-- What a call returns when it does not even start to receive. -/
  refuses : Option ρ := none
  reads : κ → ε → Option ρ
  /-- What a call returns when the channel is closed. -/
  closed : ρ

/-- What a follower has done. -/
inductive Entry (κ : Type*)
  /-- It has taken the value at a position. -/
  | took (i : ℕ) (context : κ)
  /-- It has missed values from a position on. -/
  | missed (i n : ℕ)
  | refused
  | closed

/-- A receiver with its position, the calls it has answered, and what it has met. -/
structure Following (ε κ ρ : Type*) where
  channel : Channel ε
  context : κ
  next : ℕ
  waiting : Bool := false
  results : List ρ := []
  log : List (Entry κ) := []

/-- What happens. -/
inductive Turn (ε κ : Type*)
  | send (e : ε)
  | close
  | context (k : κ)
  /-- A call starts, if there is none. -/
  | call
  /-- The call that waits receives. -/
  | poll
  | drop

namespace Following

/-- A new receiver. -/
def subscribe (c : Channel ε) (k : κ) : Following ε κ ρ where
  channel := c
  context := k
  next := c.sent.length

variable (R : Reader ε κ ρ)

/-- The call returns. -/
def answer (f : Following ε κ ρ) (r : ρ) : Following ε κ ρ :=
  { f with results := f.results ++ [r], waiting := false }

/-- A call starts, or is refused at once. -/
def call (f : Following ε κ ρ) : Following ε κ ρ :=
  match R.refuses with
  | some r => answer { f with log := f.log ++ [.refused] } r
  | none => { f with waiting := true }

/-- The call that waits takes what the channel has for it; values that are not read are passed
over. -/
def poll (f : Following ε κ ρ) : Following ε κ ρ :=
  match f.channel.recv f.next with
  | none => f
  | some (.lagged n, next) => { f with next, log := f.log ++ [.missed f.next n] }
  | some (.closed, _) => answer { f with log := f.log ++ [.closed] } R.closed
  | some (.value e, next) =>
    let taken := { f with next, log := f.log ++ [.took f.next f.context] }
    match R.reads f.context e with
    | none => taken
    | some r => taken.answer r

/-- What happens to the channel and to the receiver. -/
def step (f : Following ε κ ρ) : Turn ε κ → Following ε κ ρ
  | .send e => { f with channel := f.channel.send e }
  | .close => { f with channel := { f.channel with closed := true } }
  | .context k => { f with context := k }
  | .call => if f.waiting then f else f.call R
  | .poll => if f.waiting then f.poll R else f
  | .drop => { f with waiting := false }

end Following

/-! ### What a follower should have done -/

namespace Entry

/-- The positions an entry accounts for. -/
def positions : Entry κ → List ℕ
  | took i _ => [i]
  | missed i n => List.range' i n
  | refused | closed => []

/-- The context in which a value was taken. -/
def context? : Entry κ → Option κ
  | took _ k => some k
  | _ => none

/-- What a call returns after an entry, if it returns. -/
def result (R : Reader ε κ ρ) (sent : List ε) : Entry κ → Option ρ
  | took i k => sent[i]?.bind (R.reads k)
  | missed _ _ => none
  | refused => R.refuses
  | closed => some R.closed

end Entry

/-- The log of a follower accounts for its position and for what its calls have returned. -/
structure Following.Accounted (R : Reader ε κ ρ) (start : ℕ) (f : Following ε κ ρ) : Prop where
  results : f.results = f.log.filterMap (Entry.result R f.channel.sent)
  positions : f.log.flatMap Entry.positions = List.range' start (f.next - start)
  start_le : start ≤ f.next
  next_le : f.next ≤ f.channel.sent.length
  /-- A value is missed when as many values as the channel keeps have been sent after it. -/
  missed : ∀ i n, .missed i n ∈ f.log → i + n + f.channel.capacity ≤ f.channel.sent.length
  refused : .refused ∈ f.log → R.refuses.isSome
  closed : .closed ∈ f.log → f.channel.closed = true

namespace Following

variable {R : Reader ε κ ρ} {start : ℕ} {f : Following ε κ ρ}

@[simp] theorem channel_call : (f.call R).channel = f.channel := by
  unfold call
  cases R.refuses <;> rfl

@[simp] theorem channel_poll : (f.poll R).channel = f.channel := by
  unfold poll
  rcases f.channel.recv_cases f.next with ⟨-, hrecv⟩ | ⟨e, -, -, hrecv⟩ | ⟨-, -, -, hrecv⟩ |
    ⟨-, -, -, hrecv⟩ <;> rw [hrecv]
  · dsimp only
    cases R.reads f.context e <;> rfl
  · rfl

theorem accounted_subscribe (c : Channel ε) (k : κ) :
    (subscribe c k : Following ε κ ρ).Accounted R c.sent.length where
  results := rfl
  positions := by simp [subscribe]
  start_le := Nat.le_refl _
  next_le := Nat.le_refl _
  missed _ _ h := absurd h List.not_mem_nil
  refused h := absurd h List.not_mem_nil
  closed h := absurd h List.not_mem_nil

/-- The values taken have been sent. -/
theorem Accounted.lt_of_took (h : f.Accounted R start) {i : ℕ} {k : κ} (hi : .took i k ∈ f.log) :
    i < f.channel.sent.length := by
  have hmem : i ∈ f.log.flatMap Entry.positions :=
    List.mem_flatMap.2 ⟨_, hi, List.mem_singleton.2 rfl⟩
  rw [h.positions, List.mem_range'_1] at hmem
  have hstart := h.start_le
  have hnext := h.next_le
  omega

/-- What was read off the values taken does not depend on what is sent later. -/
theorem Accounted.send (h : f.Accounted R start) (e : ε) :
    Accounted R start { f with channel := f.channel.send e } := by
  unfold Channel.send
  split
  · exact h
  · refine ⟨?_, h.positions, h.start_le, ?_, fun i n hmem => ?_, h.refused, h.closed⟩
    · refine h.results.trans (List.filterMap_congr fun x hx => ?_)
      cases x with
      | took i k => simp only [Entry.result, List.getElem?_append_left (h.lt_of_took hx)]
      | missed i n => rfl
      | refused => rfl
      | closed => rfl
    · exact h.next_le.trans (by simp)
    · exact (h.missed i n hmem).trans (by simp)

/-- An entry is added to the log, and what it says is returned. -/
theorem Accounted.logs (h : f.Accounted R start) {f' : Following ε κ ρ} (x : Entry κ)
    (hchannel : f'.channel = f.channel) (hlog : f'.log = f.log ++ [x])
    (hresults : f'.results = f.results ++ (x.result R f.channel.sent).toList)
    (hpositions : x.positions = List.range' f.next (f'.next - f.next)) (hle : f.next ≤ f'.next)
    (hnext : f'.next ≤ f.channel.sent.length)
    (hmissed : ∀ i n, x = .missed i n → i + n + f.channel.capacity ≤ f.channel.sent.length)
    (hrefused : x = .refused → R.refuses.isSome) (hclosed : x = .closed → f.channel.closed = true) :
    f'.Accounted R start where
  results := by
    rw [hresults, hlog, hchannel, List.filterMap_append, ← h.results]
    cases hx : x.result R f.channel.sent <;> simp [hx]
  positions := by
    have hsum : f'.next - start = (f.next - start) + (f'.next - f.next) := by
      have hstart := h.start_le
      omega
    have hstart : start + (f.next - start) = f.next := Nat.add_sub_of_le h.start_le
    rw [hlog, List.flatMap_append, h.positions, hsum, ← List.range'_append_1, hstart, ← hpositions]
    simp
  start_le := h.start_le.trans hle
  next_le := by rwa [hchannel]
  missed i n hmem := by
    rw [hlog] at hmem
    rw [hchannel]
    rcases List.mem_append.1 hmem with hmem | hmem
    · exact h.missed i n hmem
    · exact hmissed i n (List.mem_singleton.1 hmem).symm
  refused hmem := by
    rw [hlog] at hmem
    rcases List.mem_append.1 hmem with hmem | hmem
    · exact h.refused hmem
    · exact hrefused (List.mem_singleton.1 hmem).symm
  closed hmem := by
    rw [hlog] at hmem
    rw [hchannel]
    rcases List.mem_append.1 hmem with hmem | hmem
    · exact h.closed hmem
    · exact hclosed (List.mem_singleton.1 hmem).symm

/-- A receive accounts for what it takes, or misses. -/
theorem Accounted.poll (h : f.Accounted R start) : (f.poll R).Accounted R start := by
  unfold Following.poll
  rcases f.channel.recv_cases f.next with ⟨hlag, hrecv⟩ | ⟨e, -, he, hrecv⟩ |
    ⟨-, -, hclosed, hrecv⟩ | ⟨-, -, -, hrecv⟩ <;> rw [hrecv]
  · refine h.logs (.missed f.next (f.channel.oldest - f.next)) rfl rfl (List.append_nil _).symm rfl
      (Nat.le_of_lt hlag) f.channel.oldest_le (fun i n hx => ?_) (by simp) (by simp)
    cases hx
    unfold Channel.oldest at hlag ⊢
    omega
  · have hlt : f.next < f.channel.sent.length := (List.getElem?_eq_some_iff.1 he).1
    have hresult : Entry.result R f.channel.sent (.took f.next f.context) = R.reads f.context e := by
      rw [Entry.result, he]
      rfl
    dsimp only
    cases hreads : R.reads f.context e with
    | none =>
      exact h.logs (.took f.next f.context) rfl rfl (by rw [hresult, hreads]; simp)
        (by simp [Entry.positions]) (Nat.le_succ _) hlt (by simp) (by simp) (by simp)
    | some r =>
      exact h.logs (.took f.next f.context) rfl rfl (by rw [hresult, hreads]; rfl)
        (by simp [Entry.positions, answer]) (Nat.le_succ _) hlt (by simp) (by simp) (by simp)
  · exact h.logs .closed rfl rfl rfl (by simp [Entry.positions, answer]) (Nat.le_refl _) h.next_le
      (by simp) (by simp) fun _ => hclosed
  · exact h

theorem Accounted.call (h : f.Accounted R start) : (f.call R).Accounted R start := by
  unfold Following.call
  cases hrefuses : R.refuses with
  | none => exact ⟨h.results, h.positions, h.start_le, h.next_le, h.missed, h.refused, h.closed⟩
  | some r =>
    exact h.logs .refused rfl rfl (by rw [Entry.result, hrefuses]; rfl)
      (by simp [Entry.positions, answer]) (Nat.le_refl _) h.next_le (by simp)
      (fun _ => by rw [hrefuses]; rfl) (by simp)

theorem Accounted.step (h : f.Accounted R start) (m : Turn ε κ) :
    (f.step R m).Accounted R start := by
  cases m with
  | send e => exact h.send e
  | close =>
    exact ⟨h.results, h.positions, h.start_le, h.next_le, h.missed, h.refused, fun _ => rfl⟩
  | context k => exact ⟨h.results, h.positions, h.start_le, h.next_le, h.missed, h.refused, h.closed⟩
  | call =>
    show Accounted R start (if f.waiting then f else f.call R)
    split
    · exact h
    · exact h.call
  | poll =>
    show Accounted R start (if f.waiting then f.poll R else f)
    split
    · exact h.poll
    · exact h
  | drop => exact ⟨h.results, h.positions, h.start_le, h.next_le, h.missed, h.refused, h.closed⟩

/-- **Every run** accounts for all values sent since the receiver was made. -/
theorem accounted_run (R : Reader ε κ ρ) (c : Channel ε) (k : κ) (ms : List (Turn ε κ)) :
    (run (step R) (subscribe c k) ms).Accounted R c.sent.length :=
  (visited_run _ ms).invariant (fun _ m h => h.step m) (accounted_subscribe c k)

/-! ### Followers that keep up -/

/-- When the follower receives, the value at its position is still kept. -/
def KeepsUp (f : Following ε κ ρ) (t : Turn ε κ) : Prop := t = .poll → f.channel.oldest ≤ f.next

/-- Nothing was missed. -/
def Complete (f : Following ε κ ρ) : Prop := ∀ i n, .missed i n ∉ f.log

theorem Complete.append (h : f.Complete) {f' : Following ε κ ρ} {x : Entry κ}
    (hlog : f'.log = f.log ++ [x]) (hx : ∀ i n, x ≠ .missed i n) : f'.Complete := by
  intro i n hmem
  rw [hlog] at hmem
  rcases List.mem_append.1 hmem with hmem | hmem
  · exact h i n hmem
  · exact hx i n (List.mem_singleton.1 hmem).symm

theorem Complete.step (h : f.Complete) {m : Turn ε κ} (hm : f.KeepsUp m) :
    (f.step R m).Complete := by
  cases m with
  | send e => exact h
  | close => exact h
  | context k => exact h
  | drop => exact h
  | call =>
    show Complete (if f.waiting then f else f.call R)
    split
    · exact h
    · unfold Following.call
      cases R.refuses with
      | none => exact h
      | some r => exact h.append rfl (by simp)
  | poll =>
    show Complete (if f.waiting then f.poll R else f)
    split
    · unfold Following.poll
      rcases f.channel.recv_cases f.next with ⟨hlag, hrecv⟩ | ⟨e, -, he, hrecv⟩ |
        ⟨-, -, hclosed, hrecv⟩ | ⟨-, -, -, hrecv⟩ <;> rw [hrecv]
      · exact absurd hlag (Nat.not_lt_of_le (hm rfl))
      · dsimp only
        cases R.reads f.context e with
        | none => exact h.append rfl (by simp)
        | some r => exact h.append rfl (by simp)
      · exact h.append rfl (by simp)
      · exact h
    · exact h

/-- A log in which each value is taken. -/
theorem filterMap_result_of_took {sent : List ε} {log : List (Entry κ)} {n : ℕ}
    (htook : ∀ x ∈ log, ∃ i k, x = .took i k)
    (hpositions : log.flatMap Entry.positions = List.range' start n)
    (hn : start + n ≤ sent.length) :
    (log.filterMap Entry.context?).length = n ∧
      log.filterMap (Entry.result R sent) =
        ((sent.drop start).zip (log.filterMap Entry.context?)).filterMap
          fun x => R.reads x.2 x.1 := by
  induction log generalizing start n with
  | nil =>
    cases n with
    | zero => simp
    | succ n => simp at hpositions
  | cons x log ih =>
    obtain ⟨i, k, rfl⟩ := htook x List.mem_cons_self
    cases n with
    | zero => simp [Entry.positions] at hpositions
    | succ n =>
      obtain ⟨rfl, hrest⟩ : i = start ∧ log.flatMap Entry.positions = List.range' (start + 1) n := by
        simpa [Entry.positions, List.range'_succ] using hpositions
      obtain ⟨hlength, hresult⟩ :=
        ih (fun x hx => htook x (List.mem_cons_of_mem _ hx)) hrest (by omega)
      have hlt : i < sent.length := by omega
      have htaken : Entry.result R sent (.took i k) = R.reads k sent[i] := by
        rw [Entry.result, List.getElem?_eq_getElem hlt]
        rfl
      have hcontexts : (.took i k :: log).filterMap Entry.context? =
          k :: log.filterMap Entry.context? := rfl
      rw [hcontexts]
      constructor
      · rw [List.length_cons, hlength]
      · rw [List.drop_eq_getElem_cons hlt, List.zip_cons_cons, List.filterMap_cons,
          List.filterMap_cons, htaken, hresult]

/-- **A follower that keeps up** and is never refused has read all the values sent before its
position, in order, each in the context in which it was taken. -/
theorem results_of_keepsUp {c : Channel ε} {k : κ} {ms : List (Turn ε κ)}
    (hrefuses : R.refuses = none) (hms : StepsMeet (step R) KeepsUp (subscribe c k) ms)
    (hopen : (run (step R) (subscribe c k) ms).channel.closed = false) :
    let f := run (step R) (subscribe c k) ms
    let contexts := f.log.filterMap Entry.context?
    contexts.length = f.next - c.sent.length ∧
      f.results = ((f.channel.sent.drop c.sent.length).zip contexts).filterMap
        fun x => R.reads x.2 x.1 := by
  have haccounted := accounted_run R c k ms
  have hcomplete : (run (step R) (subscribe c k) ms).Complete :=
    (visited_run _ ms).invariant_of_stepsMeet (fun _ _ h hm => h.step hm) hms
      fun _ _ h => absurd h List.not_mem_nil
  generalize run (step R) (subscribe c k) ms = f at haccounted hcomplete hopen ⊢
  have htook : ∀ x ∈ f.log, ∃ i k, x = .took i k := by
    intro x hx
    cases x with
    | took i k => exact ⟨i, k, rfl⟩
    | missed i n => exact absurd hx (hcomplete i n)
    | refused => exact absurd (haccounted.refused hx) (by simp [hrefuses])
    | closed => exact absurd (haccounted.closed hx) (by simp [hopen])
  have hsum : c.sent.length + (f.next - c.sent.length) ≤ f.channel.sent.length := by
    have hstart := haccounted.start_le
    have hnext := haccounted.next_le
    omega
  obtain ⟨hlength, hresult⟩ := filterMap_result_of_took htook haccounted.positions hsum
  exact ⟨hlength, haccounted.results.trans hresult⟩

/-! ### What a call returns -/

/-- The values that can still be received. -/
def unread (f : Following ε κ ρ) : List ε :=
  f.channel.sent.drop (max f.next f.channel.oldest)

/-- What a call returns when nothing else happens. -/
def reply (R : Reader ε κ ρ) (f : Following ε κ ρ) : Option ρ :=
  (f.unread.findSome? (R.reads f.context)).or (if f.channel.closed then some R.closed else none)

/-- A call that is polled until it returns, or has received everything. -/
structure Settles (R : Reader ε κ ρ) (f f' : Following ε κ ρ) : Prop where
  results : f'.results = f.results ++ (f.reply R).toList
  waiting : f'.waiting = (f.reply R).isNone
  channel : f'.channel = f.channel
  unread : f.reply R = none → f'.unread = []

theorem unread_of_kept (hkept : f.channel.oldest ≤ f.next) :
    f.unread = f.channel.sent.drop f.next := by
  rw [unread, Nat.max_eq_left hkept]

theorem run_polls_succ (hwaiting : f.waiting = true) (n : ℕ) :
    run (step R) f (.replicate (n + 1) .poll) = run (step R) (f.poll R) (.replicate n .poll) := by
  rw [List.replicate_succ, run_cons]
  show run (step R) (if f.waiting then f.poll R else f) _ = _
  rw [if_pos hwaiting]

/-- Without a lag, a call receives once for each value that it passes over. -/
theorem settles_of_kept (hwaiting : f.waiting = true) (hkept : f.channel.oldest ≤ f.next) :
    ∃ n ≤ f.unread.length + 1, f.Settles R (run (step R) f (.replicate n .poll)) := by
  generalize hvalues : f.unread = values
  have hdrop := (unread_of_kept hkept).symm.trans hvalues
  induction values generalizing f with
  | nil =>
    have hnone : f.channel.sent[f.next]? = none :=
      List.getElem?_eq_none (List.drop_eq_nil_iff.1 hdrop)
    have hreply : f.reply R = if f.channel.closed then some R.closed else none := by
      rw [reply, hvalues]
      rfl
    -- with nothing unread the receiver sees a closed channel, or waits
    rcases f.channel.recv_cases f.next with ⟨hlag, -⟩ | ⟨e, -, he, -⟩ |
      ⟨-, -, hclosed, hrecv⟩ | ⟨-, -, hopen, hrecv⟩
    · exact absurd hlag (Nat.not_lt_of_le hkept)
    · rw [hnone] at he
      cases he
    · rw [hclosed, if_pos rfl] at hreply
      refine ⟨1, Nat.le_refl _, ?_⟩
      rw [run_polls_succ hwaiting, poll, hrecv]
      exact ⟨by rw [hreply]; rfl, by rw [hreply]; rfl, rfl, fun h => by rw [hreply] at h; cases h⟩
    · rw [hopen, if_neg Bool.false_ne_true] at hreply
      exact ⟨0, Nat.zero_le _, by rw [hreply]; exact (List.append_nil _).symm,
        by rw [hreply]; exact hwaiting, rfl, fun _ => hvalues⟩
  | cons e values ih =>
    have hnext : f.channel.sent[f.next]? = some e := by
      rw [← List.head?_drop, hdrop]
      rfl
    have hrest : f.channel.sent.drop (f.next + 1) = values := by
      rw [← List.tail_drop, hdrop]
      rfl
    rcases f.channel.recv_cases f.next with ⟨hlag, -⟩ | ⟨e', -, he', hrecv⟩ |
      ⟨-, hnone, -, -⟩ | ⟨-, hnone, -, -⟩
    · exact absurd hlag (Nat.not_lt_of_le hkept)
    · obtain rfl : e = e' := Option.some.inj (hnext.symm.trans he')
      -- an event that is not for the receiver is passed over, with one poll
      cases hreads : R.reads f.context e with
      | some r =>
        have hreply : f.reply R = some r := by simp [reply, hvalues, hreads]
        refine ⟨1, by simp, ?_⟩
        rw [run_polls_succ hwaiting, poll, hrecv]
        dsimp only
        rw [hreads]
        exact ⟨by rw [hreply]; rfl, by rw [hreply]; rfl, rfl, fun h => by rw [hreply] at h; cases h⟩
      | none =>
        have hpoll : f.poll R =
            { f with next := f.next + 1, log := f.log ++ [.took f.next f.context] } := by
          rw [poll, hrecv]
          dsimp only
          rw [hreads]
        have hkept' : (f.poll R).channel.oldest ≤ (f.poll R).next := by
          rw [hpoll]
          exact Nat.le_succ_of_le hkept
        have hunread : (f.poll R).unread = values := by
          rw [unread_of_kept hkept', hpoll]
          exact hrest
        have hreply : f.reply R = (f.poll R).reply R := by
          rw [reply, reply, hvalues, hunread, hpoll, List.findSome?_cons, hreads]
        obtain ⟨n, hn, hsettles⟩ := ih (by rw [hpoll]; exact hwaiting) hkept' hunread
          ((unread_of_kept hkept').symm.trans hunread)
        refine ⟨n + 1, by simpa using hn, ?_⟩
        rw [run_polls_succ hwaiting]
        exact ⟨by rw [hsettles.results, hreply, hpoll], by rw [hsettles.waiting, hreply],
          by rw [hsettles.channel, hpoll], fun h => hsettles.unread (hreply ▸ h)⟩
    all_goals
      rw [hnext] at hnone
      cases hnone

/-- **A call returns** the first value it can read of those that are kept, after receiving at most
once for each of them and once more; it waits when there is none. -/
theorem run_polls (hwaiting : f.waiting = true) :
    ∃ n ≤ f.unread.length + 2, f.Settles R (run (step R) f (.replicate n .poll)) := by
  rcases f.channel.recv_cases f.next with ⟨hlag, hrecv⟩ | ⟨_, hkept, -⟩ | ⟨hkept, -⟩ | ⟨hkept, -⟩
  · have hpoll : f.poll R = { f with
        next := f.channel.oldest
        log := f.log ++ [.missed f.next (f.channel.oldest - f.next)] } := by
      rw [poll, hrecv]
    have hkept' : (f.poll R).channel.oldest ≤ (f.poll R).next := by
      rw [hpoll]
    have hunread : (f.poll R).unread = f.unread := by
      rw [unread_of_kept hkept', hpoll, unread, Nat.max_eq_right (Nat.le_of_lt hlag)]
    have hreply : f.reply R = (f.poll R).reply R := by
      rw [reply, reply, hunread, hpoll]
    obtain ⟨n, hn, hsettles⟩ :=
      settles_of_kept (R := R) (f := f.poll R) (by rw [hpoll]; exact hwaiting) hkept'
    refine ⟨n + 1, by rw [← hunread]; exact Nat.succ_le_succ hn, ?_⟩
    rw [run_polls_succ hwaiting]
    exact ⟨by rw [hsettles.results, hreply, hpoll], by rw [hsettles.waiting, hreply],
      by rw [hsettles.channel, hpoll], fun h => hsettles.unread (hreply ▸ h)⟩
  all_goals
    obtain ⟨n, hn, hsettles⟩ := settles_of_kept (R := R) hwaiting hkept
    exact ⟨n, Nat.le_succ_of_le hn, hsettles⟩

end Following

end Interleaving
