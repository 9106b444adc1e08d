import BatMarkets.Adapter.Metadata
import BatMarkets.Interleaving.Retry
import BatMarkets.Mexc.Contracts

/-!
# Refreshing the instruments

`refresh_metadata` (`runtime.rs`) asks the venue for its instruments and installs them, first in the
adapter and then in the engine state.  The request is public and harmless, so it is repeated while
it fails for a reason that may pass (`with_rest_retries`), after a pause that doubles up to a limit
(`rest_backoff`).

## Main results

* `backoff_bounds`, `backoff_mono` : a pause is never zero, never longer than the limit, and never
  shorter than the one before.
* `transient_classifyHttpError` : of the responses that are not a success, those of status 429 and
  those of a failing server are worth another attempt.
* `refresh_metadata_retries` : in every run, the requests are those of the retries and no more; and
  the instruments are installed in the adapter and in the state, or in neither.
-/

namespace BatMarkets

open Interleaving Ordered Prog

/-! ### Pauses -/

/-- The greatest number of 64 bits, at which products stop. -/
def maxU64 : ℕ := 2 ^ 64 - 1

/-- The pause before an attempt, in milliseconds: `initial` doubled with every attempt, eight times
at most, and `max` at most.  The product saturates. -/
def backoff (initialMs maxMs : UInt64) (attempt : ℕ) : ℕ :=
  let initial := max initialMs.toNat 1
  min (min (initial * 2 ^ min attempt 8) maxU64) (max maxMs.toNat initial)

/-- How often and how slowly a request is repeated. -/
structure RetryPolicy where
  restRetries : UInt32
  restInitialBackoffMs : UInt64
  restMaxBackoffMs : UInt64

/-- The pause before the next attempt. -/
def restBackoff (retry : RetryPolicy) (attempt : ℕ) : ℕ :=
  backoff retry.restInitialBackoffMs retry.restMaxBackoffMs attempt

theorem backoff_bounds (initialMs maxMs : UInt64) (attempt : ℕ) :
    1 ≤ backoff initialMs maxMs attempt ∧
      backoff initialMs maxMs attempt ≤ max maxMs.toNat (max initialMs.toNat 1) := by
  have hinitial : 0 < max initialMs.toNat 1 := lt_max_of_lt_right Nat.one_pos
  have hproduct : 1 ≤ max initialMs.toNat 1 * 2 ^ min attempt 8 :=
    Nat.mul_pos hinitial (Nat.two_pow_pos _)
  have hlimit : 1 ≤ maxU64 := by decide
  refine ⟨le_min (le_min hproduct hlimit) ?_, min_le_right _ _⟩
  exact (le_max_right _ _).trans (le_max_right _ _)

theorem backoff_mono (initialMs maxMs : UInt64) : Monotone (backoff initialMs maxMs) := by
  intro m n hmn
  have hpow : 2 ^ min m 8 ≤ 2 ^ min n 8 :=
    Nat.pow_le_pow_right (by decide) (min_le_min_right 8 hmn)
  exact min_le_min_right _ (min_le_min_right _ (Nat.mul_le_mul_left _ hpow))

/-! ### Requests -/

/-- Why there is no response. -/
structure ReqwestError where
  isTimeout : Bool
  message : String

/-- The error for a request that has no response. -/
def classifyReqwestError (venue : Venue) (operation : String) (error : ReqwestError) :
    MarketError :=
  let kind : ErrorKind := if error.isTimeout then .timeout else .transportError
  let classified : MarketError := { kind, message := error.message, context.retriable := true }
  (classified.withVenue venue .linearUsdt).withOperation operation

/-- The errors that are worth another attempt. -/
def transient (error : MarketError) : Bool :=
  error.kind ∈ [.transportError, .timeout, .rateLimited, .temporaryUnavailable]

/-- Of the responses that are not a success, those that are worth another attempt. -/
theorem transient_classifyHttpError (venue : Venue) (operation : String)
    (response : HttpResponse) :
    transient (classifyHttpError venue operation response) = true ↔
      response.status = 429 ∨ 500 ≤ response.status ∧ response.status < 600 := by
  have hkind : (classifyHttpError venue operation response).kind =
      httpErrorKind response.status := by
    unfold classifyHttpError
    dsimp only
    split <;> rfl
  unfold transient
  rw [hkind, decide_eq_true_iff, httpErrorKind]
  by_cases hlimited : response.status = 429
  · simp [hlimited]
  · by_cases hserver : 500 ≤ response.status ∧ response.status < 600
    · have h401 : response.status ≠ 401 := by omega
      have h403 : response.status ≠ 403 := by omega
      simp [hlimited, hserver, h401, h403]
    · by_cases h401 : response.status = 401
      · simp [h401]
      · by_cases h403 : response.status = 403
        · simp [h403]
        · simp [hlimited, hserver, h401, h403]

/-- What a refresh does outside. -/
inductive RestCall
  | get (path : String) (query : List (String × String))
  | sleep (ms : ℕ)
  /-- Install instruments in the adapter. -/
  | replaceInstruments (specs : List InstrumentSpec)
  /-- Apply operations to the engine state under one lock. -/
  | write (ops : List EngineOp)

/-- What comes back from a call. -/
abbrev RestReply : RestCall → Type
  | .get _ _ => Except ReqwestError HttpResponse
  | .sleep _ | .replaceInstruments _ | .write _ => Unit

/-- Programs over the calls of the metadata. -/
abbrev RestM := Prog RestCall RestReply

/-- What the reply to a public request is. -/
def restOutcome (venue : Venue) (operation : String) (reply : Except ReqwestError HttpResponse) :
    Except MarketError Payload :=
  match reply with
  | .ok response => responseText venue operation response
  | .error error => .error (classifyReqwestError venue operation error)

/-- One attempt at a public request. -/
def publicGetText (venue : Venue) (path : String) (query : List (String × String))
    (operation : String) : RestM (Except MarketError Payload) :=
  .call (.get path query) fun reply => .ret (restOutcome venue operation reply)

/-- An error gets the name of the operation. -/
def namedOutcome (operation : String) (outcome : Except MarketError Payload) :
    Except MarketError Payload :=
  outcome.mapError (·.withOperation operation)

/-- The attempts at a request, as long as they fail for a reason that may pass. -/
def withRestRetries (policy : RetryPolicy) (operation : String)
    (f : RestM (Except MarketError Payload)) : RestM (Except MarketError Payload) :=
  retry transient (fun attempt => .perform (RestCall.sleep (restBackoff policy attempt))) f
    policy.restRetries.toNat 0 >>= fun outcome => .ret (namedOutcome operation outcome)

/-- A public request with all its attempts. -/
def publicGetWithRetry (policy : RetryPolicy) (venue : Venue) (path : String)
    (query : List (String × String)) (operation : String) : RestM (Except MarketError Payload) :=
  withRestRetries policy operation (publicGetText venue path query operation)

/-! ### The refresh -/

/-- Where the instruments of a venue are asked for. -/
structure MetadataRequest where
  path : String
  query : List (String × String)
  operation : String

/-- The request for the instruments, by venue. -/
def metadataRequest : Venue → MetadataRequest
  | .binance => ⟨"/fapi/v1/exchangeInfo", [], "binance.metadata"⟩
  | .bybit => ⟨"/v5/market/instruments-info", [("category", "linear")], "bybit.metadata"⟩
  | .mexc => ⟨"/api/v1/contract/detail", [], "mexc.metadata"⟩

/-- The instruments in the reply, by venue. -/
def parseMetadataSnapshot (venue : Venue) (payload : Payload) :
    Except Failure (List InstrumentSpec) :=
  match venue with
  | .binance => (Binance.parseMetadataSnapshot payload).mapError .error
  | .bybit => (Bybit.parseMetadataSnapshot payload).mapError .error
  | .mexc => Mexc.parseMetadataSnapshot payload

/-- What the venue's answer stands for. -/
def metadataOutcome (venue : Venue) (outcome : Except MarketError Payload) :
    Except Failure (List InstrumentSpec) :=
  match outcome with
  | .error e => .error (.error e)
  | .ok payload => parseMetadataSnapshot venue payload

/-- What is done with instruments. -/
def installInstruments (specs : List InstrumentSpec) : RestM Unit :=
  .call (.replaceInstruments specs) fun _ =>
    .call (.write [.replaceInstruments specs, .markRestSuccess none]) fun _ => .ret ()

/-- The request, the instruments in its reply, and their installation. -/
def refreshMetadata (policy : RetryPolicy) (venue : Venue) :
    RestM (Except Failure (List InstrumentSpec)) :=
  let request := metadataRequest venue
  publicGetWithRetry policy venue request.path request.query request.operation >>= fun outcome =>
    match metadataOutcome venue outcome with
    | .error failure => .ret (.error failure)
    | .ok specs => installInstruments specs >>= fun _ => .ret (.ok specs)

/-! ### What a run shows -/

/-- What is noted of a run. -/
inductive RestNote
  /-- A request was sent, with this outcome. -/
  | requested (path : String) (query : List (String × String))
      (outcome : Except MarketError Payload)
  | slept (ms : ℕ)
  | installed (specs : List InstrumentSpec)
  | wrote (ops : List EngineOp)

/-- What a call means for the refresh. -/
def restNote (venue : Venue) (operation : String) : Event RestCall RestReply → Option RestNote
  | ⟨.get path query, reply⟩ => some (.requested path query (restOutcome venue operation reply))
  | ⟨.sleep ms, _⟩ => some (.slept ms)
  | ⟨.replaceInstruments specs, _⟩ => some (.installed specs)
  | ⟨.write ops, _⟩ => some (.wrote ops)

/-- What is noted of the requests, in their order. -/
def requestNotes (policy : RetryPolicy) (request : MetadataRequest)
    (last : Except MarketError Payload) (failures : List MarketError) : List RestNote :=
  retryNotes (.requested request.path request.query) (fun attempt =>
    .slept (restBackoff policy attempt)) last 0 failures

/-- What is noted of the result: the same instruments are installed in the adapter and in the state,
or nothing is. -/
def installNotes : Except Failure (List InstrumentSpec) → List RestNote
  | .ok specs => [.installed specs, .wrote [.replaceInstruments specs, .markRestSuccess none]]
  | .error _ => []

section Runs

variable {policy : RetryPolicy} {venue : Venue}

theorem reports_publicGetText (path : String) (query : List (String × String))
    (operation : String) :
    (publicGetText venue path query operation).Reports (restNote venue operation)
      fun os outcome => os = [.requested path query outcome] :=
  reports_call fun _ => reports_ret rfl

theorem reports_sleep (operation : String) (ms : ℕ) :
    (.perform (RestCall.sleep ms) : RestM Unit).Reports (restNote venue operation)
      fun os _ => os = [.slept ms] :=
  reports_call fun _ => reports_ret rfl

theorem reports_publicGetWithRetry (request : MetadataRequest) :
    (publicGetWithRetry policy venue request.path request.query request.operation).Reports
      (restNote venue request.operation) fun os outcome =>
        ∃ failures last, Retried transient policy.restRetries.toNat failures last ∧
          os.reverse = requestNotes policy request last failures ∧
            outcome = namedOutcome request.operation last := by
  refine (reports_retry (reports_publicGetText _ _ _) (fun attempt => reports_sleep _ _)
    policy.restRetries.toNat 0).bind fun os last hos => reports_ret ?_
  obtain ⟨failures, hretried, hnotes⟩ := hos
  exact ⟨failures, last, hretried, hnotes, rfl⟩

theorem reports_installInstruments (operation : String) (specs : List InstrumentSpec) :
    (installInstruments specs).Reports (restNote venue operation)
      fun os _ => os.reverse = installNotes (.ok specs) :=
  reports_call fun _ => reports_call fun _ => reports_ret rfl

/-- **A refresh retries what may pass, and installs all or nothing.**  In every run the venue is
asked at most one time more than there are retries, always for the same; every attempt but the last
has failed for a reason that may pass, and is followed by the pause for it; the last one is the
first that was answered or that failed for good, unless the retries are used up.  What it is answered
with is installed, first in the adapter and then in the state, if it can be read. -/
theorem refresh_metadata_retries (policy : RetryPolicy) (venue : Venue)
    {τ : List (Event RestCall RestReply)} {result : Except Failure (List InstrumentSpec)}
    (h : (refreshMetadata policy venue).Ends [] τ result) :
    ∃ failures last, Retried transient policy.restRetries.toNat failures last ∧
      result = metadataOutcome venue (namedOutcome (metadataRequest venue).operation last) ∧
        (τ.filterMap (restNote venue (metadataRequest venue).operation)).reverse =
          requestNotes policy (metadataRequest venue) last failures ++ installNotes result := by
  have hreports : (refreshMetadata policy venue).Reports
      (restNote venue (metadataRequest venue).operation) fun os result =>
        ∃ failures last, Retried transient policy.restRetries.toNat failures last ∧
          result = metadataOutcome venue (namedOutcome (metadataRequest venue).operation last) ∧
            os.reverse =
              requestNotes policy (metadataRequest venue) last failures ++ installNotes result := by
    refine (reports_publicGetWithRetry _).bind fun os outcome hos => ?_
    obtain ⟨failures, last, hretried, hnotes, houtcome⟩ := hos
    cases hresult : metadataOutcome venue outcome with
    | error failure =>
      refine reports_ret ⟨failures, last, hretried, ?_, ?_⟩
      · rw [← houtcome, hresult]
      · rw [List.nil_append, hnotes]
        exact (List.append_nil _).symm
    | ok specs =>
      refine (reports_installInstruments _ specs).bind fun os' _ hos' => reports_ret ?_
      refine ⟨failures, last, hretried, ?_, ?_⟩
      · rw [← houtcome, hresult]
      · rw [List.nil_append, List.reverse_append, hnotes, hos']
  exact hreports.of_ends h

end Runs

/-- One retry. -/
def onceMore : RetryPolicy := ⟨1, 100, 1000⟩

/-- A venue that is busy when it is asked first. -/
def busyReply : (q : RestCall) → Bool → RestReply q × Bool
  | .get _ _, true => (.ok ⟨503, .text "busy"⟩, false)
  | .get _ _, false => (.ok ⟨200, btcusdtListing⟩, false)
  | .sleep _, busy | .replaceInstruments _, busy | .write _, busy => ((), busy)

/-- The run in which the venue is busy at first. -/
def busyTrace : List (Event RestCall RestReply) :=
  execTrace busyReply (refreshMetadata onceMore .binance) true []

/-- The venue is asked twice, and its answer is installed. -/
theorem refresh_metadata_retries_busy :
    busyTrace.length = 5 ∧ ∃ specs failures last, Retried transient 1 failures last ∧
      .ok specs = metadataOutcome .binance (namedOutcome "binance.metadata" last) ∧
        (busyTrace.filterMap (restNote .binance "binance.metadata")).reverse =
          requestNotes onceMore (metadataRequest .binance) last failures ++
            installNotes (.ok specs) :=
  ⟨rfl, _, refresh_metadata_retries onceMore .binance (ends_exec _)⟩

end BatMarkets
