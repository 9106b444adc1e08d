import BatMarkets.Interleaving.RwLock
import BatMarkets.Runtime.Feed

/-!
# Looking an instrument up while the metadata is refreshed

The MEXC adapter keeps its instruments behind a lock with readers and writers.
`resolve_native_symbol` looks a symbol up as it is spelled and, if it is not there, in its canonical
form; the guard of the first look lives until the end of the expression, so the second look reads
under a guard the thread holds.  `replace_instruments` takes the lock for writing.

The lock is assumed to give no new read guard while a writer has it or waits for it.

## Main results

* `instrument_lookup_never_stuck_iff` : a list of lookups and replacements is never stuck exactly
  when every symbol is found as it is spelled in each catalog that a replacement may still replace.
* `metadata_refresh_blocks_lookup` : one lookup of `BTC_USDT` and one refresh can block each other.
* `single_look_never_stuck` : the lookups of the other adapters, which look once, are never stuck.
-/

namespace BatMarkets

open Interleaving Transition RwLock

namespace InstrumentLookup

/-- Code over the lock of the adapter's instruments. -/
abbrev CatalogCode (α : Type) := Code InstrumentCatalog α

/-- The closure of the second look releases its guard first; the guard of the first look is released
at the end of the expression. -/
def resolveNativeSymbol (nativeSymbol : String) : CatalogCode (Option InstrumentSpec) := do
  let instruments ← Code.read
  let spec ← match instruments.byNativeSymbol nativeSymbol with
    | some spec => pure (some spec)
    | none => do
      let instruments ← Code.read
      Code.release
      pure (instruments.byNativeSymbol (mexcCanonicalNativeSymbol nativeSymbol))
  Code.release
  pure spec

/-- The instruments are replaced as a whole, under the write lock. -/
def replaceInstruments (instruments : List InstrumentSpec) : CatalogCode Unit := do
  Code.request
  Code.acquire
  Code.write (.new instruments)
  Code.unlock

/-- The adapters of Binance and Bybit look once. -/
def resolveNativeSymbolOnce (nativeSymbol : String) : CatalogCode (Option InstrumentSpec) := do
  let instruments ← Code.read
  Code.release
  pure (instruments.byNativeSymbol nativeSymbol)

/-- What a thread does with the instruments. -/
inductive CatalogCall
  | resolve (nativeSymbol : String)
  | replace (instruments : List InstrumentSpec)
  deriving DecidableEq

/-- The code that the call runs. -/
def CatalogCall.code : CatalogCall → CatalogCode (Option InstrumentSpec)
  | .resolve nativeSymbol => resolveNativeSymbol nativeSymbol
  | .replace instruments => do
    replaceInstruments instruments
    pure none

/-! ### The calls one by one -/

/-- A lookup after its first look. -/
def afterLook (nativeSymbol : String) :
    Option InstrumentSpec → CatalogCode (Option InstrumentSpec)
  | some spec => .call .release fun _ => .ret (some spec)
  | none => .call .read fun instruments => .call .release fun _ => .call .release fun _ =>
    .ret (instruments.byNativeSymbol (mexcCanonicalNativeSymbol nativeSymbol))

theorem code_resolve (nativeSymbol : String) :
    (CatalogCall.resolve nativeSymbol).code = .call .read fun instruments =>
      afterLook nativeSymbol (instruments.byNativeSymbol nativeSymbol) := by
  show Prog.call Call.read _ = _
  congr 1

theorem code_replace (instruments : List InstrumentSpec) :
    (CatalogCall.replace instruments).code = .call .request fun _ => .call .acquire fun _ =>
      .call (.write (.new instruments)) fun _ => .call .unlock fun _ => .ret none := rfl

/-- Alone, a lookup finds what the adapter finds in its catalog. -/
theorem exec_resolve {reply : (q : Call InstrumentCatalog) → RwLock InstrumentCatalog →
      q.Reply × RwLock InstrumentCatalog}
    (hread : ∀ l, (reply .read l).1 = l.data ∧ (reply .read l).2.data = l.data)
    (nativeSymbol : String) (l : RwLock InstrumentCatalog) :
    (Prog.exec reply (CatalogCall.resolve nativeSymbol).code l).1 =
      BatMarkets.resolveNativeSymbol .mexc l.data nativeSymbol := by
  rw [code_resolve, Prog.exec_call, (hread l).1, BatMarkets.resolveNativeSymbol]
  cases hfound : l.data.byNativeSymbol nativeSymbol with
  | some spec => rfl
  | none => simp only [afterLook, Prog.exec_call, Prog.exec_ret, (hread _).1, (hread l).2,
      Option.none_or]

theorem bracketed_code (c : CatalogCall) : Bracketed c.code := by
  cases c with
  | resolve nativeSymbol =>
    rw [code_resolve]
    refine ⟨trivial, fun instruments => ?_⟩
    show InOrder _ (afterLook _ (InstrumentCatalog.byNativeSymbol instruments nativeSymbol))
    cases InstrumentCatalog.byNativeSymbol instruments nativeSymbol with
    | some spec => exact ⟨trivial, fun _ => rfl⟩
    | none => exact ⟨trivial, fun _ => ⟨trivial, fun _ => ⟨trivial, fun _ => rfl⟩⟩⟩
  | replace instruments =>
    exact ⟨trivial, fun _ => ⟨trivial, fun _ => ⟨trivial, fun _ => ⟨trivial, fun _ => rfl⟩⟩⟩⟩

theorem bracketed_once (nativeSymbol : String) : Bracketed (resolveNativeSymbolOnce nativeSymbol) :=
  ⟨trivial, fun _ => ⟨trivial, fun _ => rfl⟩⟩

/-- What a thread may have done before it reads, takes the lock for writing, or writes: a second
look follows a first one that found nothing, and only a replacement writes, once. -/
def Does (c : CatalogCall) (τ : List (Event (Call InstrumentCatalog) Call.Reply)) :
    Call InstrumentCatalog → Prop
  | .read => ∀ n d, holdOf τ = .reading n d →
    ∃ nativeSymbol, c = .resolve nativeSymbol ∧ d.byNativeSymbol nativeSymbol = none
  | .acquire => (∃ instruments, c = .replace instruments) ∧ ∀ d, ⟨.write d, ()⟩ ∉ τ
  | .write d => ∃ instruments, c = .replace instruments ∧ d = .new instruments
  | .release | .request | .unlock => True

theorem does_code (c : CatalogCall) : c.code.Spec (Does c) (fun _ _ => True) [] := by
  cases c with
  | resolve nativeSymbol =>
    rw [code_resolve]
    refine ⟨nofun, fun instruments => ?_⟩
    show Prog.Spec _ _ (afterLook nativeSymbol (InstrumentCatalog.byNativeSymbol _ nativeSymbol)) _
    cases hlook : InstrumentCatalog.byNativeSymbol instruments nativeSymbol with
    | some spec => exact ⟨trivial, fun _ => trivial⟩
    | none =>
      refine ⟨?_, fun _ => ⟨trivial, fun _ => ⟨trivial, fun _ => trivial⟩⟩⟩
      rintro n d hd
      cases hd
      exact ⟨nativeSymbol, rfl, hlook⟩
  | replace instruments =>
    refine ⟨trivial, fun _ => ⟨⟨⟨instruments, rfl⟩, ?_⟩, fun _ => ⟨⟨instruments, rfl, rfl⟩, ?_⟩⟩⟩
    · intro d hd
      simp at hd
    · exact fun _ => ⟨trivial, fun _ => trivial⟩

/-! ### The condition -/

/-- A replacement may still be to come while the adapter has the catalog: the first one, if there is
a replacement, and that of a replacement, if there is another. -/
inductive MayBeReplaced (catalog₀ : InstrumentCatalog) (calls : List CatalogCall) :
    InstrumentCatalog → Prop
  | first {i : ℕ} {instruments : List InstrumentSpec} :
      calls[i]? = some (.replace instruments) → MayBeReplaced catalog₀ calls catalog₀
  | between {i j : ℕ} {instruments instruments' : List InstrumentSpec} : i ≠ j →
      calls[i]? = some (.replace instruments) → calls[j]? = some (.replace instruments') →
      MayBeReplaced catalog₀ calls (.new instruments)

/-- Every symbol is found as it is spelled in each catalog that may still be replaced. -/
def FoundAsSpelled (catalog₀ : InstrumentCatalog) (calls : List CatalogCall) : Prop :=
  ∀ nativeSymbol, CatalogCall.resolve nativeSymbol ∈ calls → ∀ catalog,
    MayBeReplaced catalog₀ calls catalog → catalog.byNativeSymbol nativeSymbol ≠ none

/-- Some of the threads have not ended, and all that have not are blocked. -/
abbrev Deadlocked (p : Threads InstrumentCatalog (Option InstrumentSpec)) : Prop :=
  p.Stuck (RwLock.calls InstrumentCatalog (Option InstrumentSpec))

variable {catalog₀ : InstrumentCatalog} {calls : List CatalogCall}
  {p : Threads InstrumentCatalog (Option InstrumentSpec)}

/-- The call that a thread makes. -/
theorem exists_call (hp : (runs catalog₀ (calls.map CatalogCall.code)).Reachable p) {i : ℕ}
    {θ : Thread (RwLock InstrumentCatalog) (Call InstrumentCatalog) Call.Reply
      (Option InstrumentSpec)} (hi : p.threads[i]? = some θ) :
    ∃ c, calls[i]? = some c ∧ c.code.After θ.trace θ.prog := by
  obtain ⟨t, ht, hafter⟩ := after_of_fixed hp hi
  rw [List.getElem?_map, Option.map_eq_some_iff] at ht
  obtain ⟨c, hc, rfl⟩ := ht
  exact ⟨c, hc, hafter⟩

/-- **What a deadlock shows**: a symbol that is missing from a catalog that may still be
replaced. -/
theorem not_foundAsSpelled_of_deadlocked
    (hp : (runs catalog₀ (calls.map CatalogCall.code)).Reachable p) (hdead : Deadlocked p) :
    ¬FoundAsSpelled catalog₀ calls := by
  have hcode : ∀ t ∈ calls.map CatalogCall.code, Bracketed t := by
    intro t ht
    obtain ⟨c, -, rfl⟩ := List.mem_map.1 ht
    exact bracketed_code c
  have haccounts := accounts_of_reachable hcode hp
  obtain ⟨⟨θ, hθ, k, hk⟩, θ', hθ', k', n, hk', hold⟩ :=
    haccounts.of_stuck (fun θ hθ => inOrder_of_reachable hcode hp hθ) hdead
  -- the writer has not written
  obtain ⟨j, hj⟩ := List.getElem?_of_mem hθ
  obtain ⟨c, hc, hafter⟩ := exists_call hp hj
  rw [hk] at hafter
  obtain ⟨⟨instruments', rfl⟩, hwrites⟩ := (hafter.spec (does_code c)).1
  -- the reader's symbol is missing
  obtain ⟨i, hi⟩ := List.getElem?_of_mem hθ'
  obtain ⟨c', hc', hafter'⟩ := exists_call hp hi
  rw [hk'] at hafter'
  obtain ⟨nativeSymbol, rfl, hmissing⟩ := (hafter'.spec (does_code c')).1 n _ hold
  intro hfound
  refine hfound nativeSymbol (List.mem_of_getElem? hc') p.world.data ?_ hmissing
  rcases data_of_reachable hp with hdata | ⟨θ'', hθ'', hw⟩
  · rw [hdata]
    exact .first hc
  · obtain ⟨l, hl⟩ := List.getElem?_of_mem hθ''
    obtain ⟨c'', hc'', hafter''⟩ := exists_call hp hl
    obtain ⟨τ', instruments, rfl, hnew⟩ := hafter''.of_mem (does_code c'') hw
    rw [hnew]
    refine .between ?_ hc'' hc
    rintro rfl
    rw [hj] at hl
    cases hl
    exact hwrites _ hw

/-! ### How a deadlock comes about -/

theorem stoppable_code (c : CatalogCall) : Stoppable c.code := by
  cases c with
  | resolve nativeSymbol =>
    rw [code_resolve]
    exact .read _
  | replace instruments => exact .request _

/-- The threads before their first step. -/
def freshThreads (calls : List CatalogCall) : List (Thread (RwLock InstrumentCatalog)
    (Call InstrumentCatalog) Call.Reply (Option InstrumentSpec)) :=
  (calls.map CatalogCall.code).map Thread.fresh

theorem getElem?_freshThreads {i : ℕ} {c : CatalogCall} (hc : calls[i]? = some c) :
    (freshThreads calls)[i]? = some ⟨[], c.code⟩ := by
  simp only [freshThreads, List.getElem?_map, hc, Option.map_some, Thread.fresh]

theorem stoppable_freshThreads {θ : Thread (RwLock InstrumentCatalog) (Call InstrumentCatalog)
    Call.Reply (Option InstrumentSpec)} (hθ : θ ∈ freshThreads calls) : Stoppable θ.prog := by
  obtain ⟨t, ht, rfl⟩ := List.mem_map.1 hθ
  obtain ⟨c, -, rfl⟩ := List.mem_map.1 ht
  exact stoppable_code c

/-- A lookup whose symbol is missing, while nobody has the lock and a replacement is about to ask
for it, can end in a deadlock. -/
theorem exists_deadlock (hp : (runs catalog₀ (calls.map CatalogCall.code)).Reachable p)
    {catalog : InstrumentCatalog} (hworld : p.world = { data := catalog })
    (hstop : ∀ θ ∈ p.threads, Stoppable θ.prog) {i j : ℕ} {nativeSymbol : String}
    {instruments : List InstrumentSpec}
    (hi : p.threads[i]? = some ⟨[], (CatalogCall.resolve nativeSymbol).code⟩)
    (hj : p.threads[j]? = some ⟨[], (CatalogCall.replace instruments).code⟩)
    (hmissing : catalog.byNativeSymbol nativeSymbol = none) :
    ∃ p', (runs catalog₀ (calls.map CatalogCall.code)).Reachable p' ∧ Deadlocked p' := by
  have hne : i ≠ j := by
    rintro rfl
    rw [hi, code_resolve, code_replace] at hj
    cases hj
  rw [code_resolve] at hi
  have hread : RwLock.answer p.world .read = some (catalog, { data := catalog, guards := 1 }) := by
    rw [hworld]
    rfl
  refine exists_stuck (hp.step (.run hi hread)) Nat.one_pos rfl ?_ ?_ (.inr ?_)
  · intro θ hθ
    rcases mem_threads_set hθ with hθ | rfl
    · exact hstop θ hθ
    · show Stoppable (afterLook nativeSymbol (InstrumentCatalog.byNativeSymbol _ nativeSymbol))
      rw [hmissing]
      exact .read _
  · refine ⟨_, List.mem_set (List.getElem?_eq_some_iff.1 hi).1 _, ?_⟩
    show ∃ k, afterLook nativeSymbol (InstrumentCatalog.byNativeSymbol _ nativeSymbol) = _
    rw [hmissing]
    exact ⟨_, rfl⟩
  · exact total_asks_pos ((List.getElem?_set_ne hne).trans hj) Nat.one_pos

/-- A replacement may be over before any other thread takes a step. -/
theorem exists_replaced {i : ℕ} {instruments : List InstrumentSpec}
    (hi : calls[i]? = some (.replace instruments)) :
    ∃ log, (runs catalog₀ (calls.map CatalogCall.code)).Reachable
      ⟨{ data := .new instruments }, (freshThreads calls).set i ⟨log, .ret none⟩⟩ := by
  have hruns : RunsTo (RwLock.calls InstrumentCatalog (Option InstrumentSpec))
      { data := .new instruments } (.ret none) { data := catalog₀ }
      (CatalogCall.replace instruments).code :=
    .call rfl (.call rfl (.call rfl (.call rfl .refl)))
  obtain ⟨hlt, hget⟩ := List.getElem?_eq_some_iff.1 (getElem?_freshThreads hi)
  have hstart : (runs catalog₀ (calls.map CatalogCall.code)).Reachable ⟨{ data := catalog₀ },
      (freshThreads calls).set i ⟨[], (CatalogCall.replace instruments).code⟩⟩ := by
    rw [← hget, List.set_getElem_self]
    exact .init rfl
  exact reachable_of_runsTo hlt hruns hstart

/-- **Exact condition.**  Lookups and replacements never block each other for good exactly when
every symbol is found as it is spelled in each catalog that may still be replaced. -/
theorem instrument_lookup_never_stuck_iff (catalog₀ : InstrumentCatalog)
    (calls : List CatalogCall) :
    (∀ p, (runs catalog₀ (calls.map CatalogCall.code)).Reachable p → ¬Deadlocked p) ↔
      FoundAsSpelled catalog₀ calls := by
  constructor
  · intro hnever nativeSymbol hmem catalog hreplaced hmissing
    obtain ⟨i, hi⟩ := List.getElem?_of_mem hmem
    cases hreplaced with
    | first hj =>
      have hstart : (runs catalog₀ (calls.map CatalogCall.code)).Reachable
          ⟨{ data := catalog₀ }, freshThreads calls⟩ := .init rfl
      obtain ⟨p, hp, hdead⟩ := exists_deadlock hstart rfl (fun _ => stoppable_freshThreads)
        (getElem?_freshThreads hi) (getElem?_freshThreads hj) hmissing
      exact hnever p hp hdead
    | @between l j instruments instruments' hne hl hj =>
      obtain ⟨log, hafter⟩ := @exists_replaced catalog₀ _ _ _ hl
      -- the lookup is another thread than the replacement that is over
      have hne' : l ≠ i := by
        rintro rfl
        rw [hi] at hl
        cases hl
      have hstop : ∀ θ ∈ (freshThreads calls).set l ⟨log, .ret none⟩, Stoppable θ.prog := by
        intro θ hθ
        rcases mem_threads_set hθ with hθ | rfl
        · exact stoppable_freshThreads hθ
        · exact .ret none
      obtain ⟨p, hp, hdead⟩ := exists_deadlock hafter rfl hstop
        ((List.getElem?_set_ne hne').trans (getElem?_freshThreads hi))
        ((List.getElem?_set_ne hne).trans (getElem?_freshThreads hj)) hmissing
      exact hnever p hp hdead
  · intro hfound p hp hdead
    exact not_foundAsSpelled_of_deadlocked hp hdead hfound

/-- One lookup of the symbol of the venue, and one refresh of the only instrument. -/
def lookupDuringRefresh : List CatalogCall :=
  [.resolve "BTC_USDT", .replace [.active .mexc "BTC/USDT:USDT" "BTCUSDT" 1 0]]

/-- The symbol of the venue is not the one the adapter stores, so looking it up while the metadata
is refreshed can block both. -/
theorem metadata_refresh_blocks_lookup :
    ¬∀ p, (runs (.new [.active .mexc "BTC/USDT:USDT" "BTCUSDT" 1 0])
      (lookupDuringRefresh.map CatalogCall.code)).Reachable p → ¬Deadlocked p := by
  intro hnever
  have hlookup : lookupDuringRefresh[0]? = some (.resolve "BTC_USDT") := rfl
  have hreplace : lookupDuringRefresh[1]? =
      some (.replace [.active .mexc "BTC/USDT:USDT" "BTCUSDT" 1 0]) := rfl
  have hmissing : InstrumentCatalog.byNativeSymbol
      (.new [.active .mexc "BTC/USDT:USDT" "BTCUSDT" 1 0]) "BTC_USDT" = none := by
    decide +kernel
  obtain ⟨p, hp, hdead⟩ := exists_deadlock (.init rfl) rfl (fun _ => stoppable_freshThreads)
    (getElem?_freshThreads hlookup) (getElem?_freshThreads hreplace) hmissing
  exact hnever p hp hdead

/-- Lookups that look once never block a replacement for good. -/
theorem single_look_never_stuck (catalog₀ : InstrumentCatalog) (symbols : List String)
    (replacements : List (List InstrumentSpec)) :
    ∀ p, (runs catalog₀ (symbols.map resolveNativeSymbolOnce ++
      replacements.map fun instruments => (CatalogCall.replace instruments).code)).Reachable p →
        ¬Deadlocked p := by
  intro p hp
  refine not_stuck_of_reads_idle (fun t ht => ?_) (fun t ht => ?_) hp
  · rcases List.mem_append.1 ht with ht | ht
    · obtain ⟨nativeSymbol, -, rfl⟩ := List.mem_map.1 ht
      exact bracketed_once nativeSymbol
    · obtain ⟨instruments, -, rfl⟩ := List.mem_map.1 ht
      exact bracketed_code (.replace instruments)
  · rcases List.mem_append.1 ht with ht | ht
    · obtain ⟨nativeSymbol, -, rfl⟩ := List.mem_map.1 ht
      exact ⟨fun _ => rfl, fun _ => ⟨nofun, fun _ => trivial⟩⟩
    · obtain ⟨instruments, -, rfl⟩ := List.mem_map.1 ht
      exact ⟨nofun, fun _ => ⟨nofun, fun _ => ⟨nofun, fun _ => ⟨nofun, fun _ => trivial⟩⟩⟩⟩

end InstrumentLookup

end BatMarkets
