import BatMarkets.Commands.CancelOrders
import BatMarkets.Commands.PostOnly
import BatMarkets.Interleaving.Answered
import BatMarkets.Mexc.Contracts

/-!
# How the runtime names the contracts of MEXC

The adapter parses the list of contracts, and `refresh_metadata` installs the specifications made of
it.  From then on the runtime knows a contract by its specification only, and spells its symbol anew
in every request.  Some requests take the native symbol of the specification, and some the spelling
rebuilt from the coins (`mexc_wire_symbol` of `runtime.rs`): a mark price and a ticker are asked for
at one path, under two names.

## Main results

* `names_spelling` : what an operation names, in all its requests, is its own spelling.
* `Mexc.mexc_symbols_round_trip_iff` : no contract is named by its symbol in all requests; which
  ones are looked up right.
-/

namespace BatMarkets

open CommandM Interleaving Prog RuntimeM Wire

variable (context : CommandContext)

/-! ### Requests for market data and executions -/

/-- `refresh_executions` on MEXC. -/
def refreshExecutionsMexc (request : Option ListExecutionsRequest) : RuntimeE (List Execution) := do
  let symbol ← match request.bind (·.instrumentId) with
    | some instrumentId => do
      let spec ← requireSpec context.toLiveContext instrumentId
      pure [("symbol", spec.nativeSymbol)]
    | none => pure []
  let pageSize := ((request.bind (·.limit)).map fun limit =>
    ("page_size", toString (min limit 100))).toList
  let pageSizeDefault := if pageSize = [] then [("page_size", "100")] else []
  let executions ← signedGet .executions "/api/v1/private/order/list/order_deals"
    (symbol ++ pageSize ++ [("page_num", "1")] ++ pageSizeDefault) "mexc.executions"
  RuntimeM.write [.mergeExecutions executions, .markRestSuccess none]
  return executions

/-- The reply from which `fetch_mark_price` decodes the mark price on MEXC. -/
def fetchMarkPriceMexc (instrumentId : InstrumentId) : CommandE Payload := do
  let spec ← commandSpec context instrumentId
  let (payload, _) ← restText ⟨.get, "/api/v1/contract/ticker",
    bodyToObject [("symbol", spec.nativeSymbol)], "mexc.fetch_mark_price"⟩
  return payload

/-- The interval of a subscription or of a request. -/
def parseKlineInterval (raw : String) (operation : String) : Except MarketError KlineInterval :=
  match KlineInterval.parse raw with
  | some interval => .ok interval
  | none => .error ((MarketError.withVenue
      { kind := .unsupported, message := "unsupported OHLCV interval '" ++ raw ++ "'" }
      context.venue .linearUsdt).withOperation operation)

/-- The intervals in the words of MEXC, which has fewer. -/
def mexcIntervalStr : KlineInterval → Except MarketError String
  | .minute1 => .ok "Min1"
  | .minute5 => .ok "Min5"
  | .minute15 => .ok "Min15"
  | .minute30 => .ok "Min30"
  | .hour1 => .ok "Min60"
  | .hour4 => .ok "Hour4"
  | .day1 => .ok "Day1"
  | .week1 => .ok "Week1"
  | .month1 => .ok "Month1"
  | .minute3 => unsupported "Minute3"
  | .hour2 => unsupported "Hour2"
  | .hour6 => unsupported "Hour6"
  | .hour12 => unsupported "Hour12"
  | .day3 => unsupported "Day3"
where
  unsupported (interval : String) : Except MarketError String :=
    .error (MarketError.withVenue
      { kind := .unsupported
        message := "mexc does not support kline interval '" ++ interval ++ "'" }
      .mexc .linearUsdt)

/-- The reply from which `fetch_ohlcv` decodes the candles of an instrument on MEXC. -/
def fetchOhlcvSingleMexc (request : FetchOhlcvRequest) : CommandE Payload := do
  let instrumentId ← ofExcept request.singleInstrumentId
  let spec ← commandSpec context instrumentId
  let interval ← ofExcept (parseKlineInterval context request.interval "fetch_ohlcv.interval")
  let intervalStr ← ofExcept (mexcIntervalStr interval)
  let start := (request.startTime.map fun t => ("start", toString (t / 1000))).toList
  let finish := (request.endTime.map fun t => ("end", toString (t / 1000))).toList
  let (payload, _) ← restText ⟨.get, "/api/v1/contract/kline/" ++ mexcWireSymbol spec,
    bodyToObject ([("interval", intervalStr)] ++ start ++ finish), "mexc.fetch_ohlcv"⟩
  return payload

/-! ### Names in requests -/

/-- The symbols in a body: of its one record, or of each of its records. -/
def bodySymbols : Json → List String
  | .array records => records.filterMap fun record => (record.get? "symbol").bind Json.asStr
  | record => ((record.get? "symbol").bind Json.asStr).toList

/-- The symbol at the end of a path for candles. -/
def pathSymbols (path : String) : List String :=
  ((path.dropPrefix? "/api/v1/contract/kline/").map (·.toString)).toList

/-- The symbols that a call sends to MEXC. -/
def CommandCall.symbols : CommandCall → List String
  | .runtime (.signedGet _ request) => (request.query.lookup "symbol").toList
  | .rest request => pathSymbols request.path ++ bodySymbols request.body
  | _ => []

/-- What the runtime does about one instrument on MEXC. -/
inductive SymbolOperation
  | createOrder (request : CreateOrderRequest)
  | cancelOrder (request : CancelOrderRequest)
  | cancelAllOrders (requestId : Option RequestId)
  | executions (limit : Option ℕ)
  | markPrice
  /-- The lookup of the leverage, before the margin mode is set. -/
  | leverage
  | ohlcv (request : FetchOhlcvRequest)

namespace SymbolOperation

/-- The operation about the instrument, whose result does not matter here. -/
def run (instrumentId : InstrumentId) : SymbolOperation → CommandE Unit
  | .createOrder request => do
    let _ ← BatMarkets.createOrder context { request with instrumentId }
  | .cancelOrder request => do
    let _ ← BatMarkets.cancelOrder context { request with instrumentId }
  | .cancelAllOrders requestId => do
    let _ ← BatMarkets.cancelAllOrders context ⟨requestId, some instrumentId⟩
  | .executions limit => do
    let _ ← liftRuntime (refreshExecutionsMexc context (some ⟨some instrumentId, limit⟩))
  | .markPrice => do
    let _ ← fetchMarkPriceMexc context instrumentId
  | .leverage => do
    let _ ← mexcFetchCurrentLeverage context instrumentId
  | .ohlcv request => do
    let _ ← fetchOhlcvSingleMexc context { request with instrumentIds := [instrumentId] }

/-- The spelling that the operation uses. -/
def spelling (spec : InstrumentSpec) : SymbolOperation → String
  | .createOrder _ | .ohlcv _ => mexcWireSymbol spec
  | _ => spec.nativeSymbol

end SymbolOperation

/-- What the adapter answers, with this catalog installed. -/
def adapterReply (catalog : InstrumentCatalog) : (q : CommandCall) → Option (CommandReply q)
  | .runtime (.resolveInstrument instrumentId) => some (catalog.get instrumentId)
  | _ => none

/-- With this catalog installed, and whatever the venue replies, the requests of an operation about
the instrument name no symbol but this one. -/
def NamesOnly (catalog : InstrumentCatalog) (instrumentId : InstrumentId)
    (operation : SymbolOperation) (symbol : String) : Prop :=
  ∀ context : CommandContext, context.venue = .mexc →
    ((operation.run context instrumentId).run.answered (adapterReply catalog)).Always
      fun _ q => ∀ s ∈ q.symbols, s = symbol

/-! ### What the operations name -/

section Names

variable {context} {catalog : InstrumentCatalog} {instrumentId : InstrumentId}
  {spec : InstrumentSpec} {symbol : String}

theorem symbols_of_local {q : CommandCall} (h : q.Local) : q.symbols = [] := by
  cases q with
  | runtime q => cases q <;> first | rfl | exact h.elim
  | rest request => exact h.elim
  | _ => rfl

theorem names_of_local {symbol : String} (_ : List (Event CommandCall CommandReply))
    (q : CommandCall) (h : q.Local) : ∀ s ∈ q.symbols, s = symbol := by
  rw [symbols_of_local h]
  exact fun _ hs => nomatch hs

theorem pathSymbols_kline (text : String) :
    pathSymbols ("/api/v1/contract/kline/" ++ text) = [text] := by
  rw [pathSymbols, Text.map_toString_dropPrefix?, Option.toList_some]

@[simp] theorem symbols_rest (method : HttpMethod) (path : String) (body : Json) (name : String) :
    (CommandCall.rest ⟨method, path, body, name⟩).symbols =
      pathSymbols path ++ bodySymbols body := rfl

@[simp] theorem bodySymbols_object (fields : List (String × Json)) :
    bodySymbols (.object fields) =
      (((Json.object fields).get? "symbol").bind Json.asStr).toList := rfl

theorem answered_commandSpec (hget : catalog.get instrumentId = some spec) :
    answeredE (adapterReply catalog) (commandSpec context instrumentId) = pure spec := by
  have hrun := run_commandSpec_bind context (f := fun spec => pure spec) instrumentId
  rw [bind_pure] at hrun
  rw [answeredE, hrun, answered_call_of_some rfl, hget]
  rfl

/-- With the adapter's replies put in, the program names no symbol but this one. -/
def Naming {α : Type} (catalog : InstrumentCatalog) (symbol : String) (x : CommandE α) : Prop :=
  Yields (fun _ q => ∀ s ∈ q.symbols, s = symbol) (fun _ => True)
    (answeredE (adapterReply catalog) x)

variable {α β : Type} {x : CommandE α}

theorem Naming.of_yields {P : α → Prop}
    (h : Yields (fun _ q => ∀ s ∈ q.symbols, s = symbol) P x) : Naming catalog symbol x :=
  h.answered.mono fun _ _ => trivial

theorem Naming.attempt {f : α → CommandE β} (hx : Naming catalog symbol x)
    (hf : ∀ a, Naming catalog symbol (f a)) : Naming catalog symbol (x >>= f) := by
  rw [Naming, answered_attempt]
  exact Yields.attempt hx fun a _ => hf a

/-- The specification of the instrument is the one in the catalog. -/
theorem Naming.attemptSpec (hget : catalog.get instrumentId = some spec)
    {f : InstrumentSpec → CommandE β} (hf : Naming catalog symbol (f spec)) :
    Naming catalog symbol (commandSpec context instrumentId >>= f) := by
  rw [Naming, answered_attempt, answered_commandSpec hget, pure_bind]
  exact hf

/-- A request over REST that names no other symbol. -/
theorem naming_restText {request : RestCommand}
    (h : ∀ s ∈ (CommandCall.rest request).symbols, s = symbol) :
    Naming catalog symbol (restText request) := by
  refine Naming.of_yields (P := fun _ => True) ?_
  unfold restText
  refine (yields_perform (fun _ => h) fun _ => trivial).attempt fun (reply, catalog) _ => ?_
  cases reply with
  | ok payload => exact yields_pure trivial
  | error e => exact yields_throw _

theorem naming_createOrder (hv : context.venue = .mexc)
    (hget : catalog.get instrumentId = some spec) {request : CreateOrderRequest}
    (hrequest : request.instrumentId = instrumentId) :
    Naming catalog (mexcWireSymbol spec) (createOrder context request) := by
  subst hrequest
  have hsend : Naming catalog (mexcWireSymbol spec) (sendCreateOrder context request) := by
    unfold sendCreateOrder mexcCreateBody
    rw [hv]
    dsimp only
    split
    · exact .of_yields (P := fun _ => True) (yields_throw_bind _)
    rw [LawfulMonad.bind_assoc]
    refine Naming.attemptSpec hget (.of_yields (P := fun _ => True) ?_)
    rw [LawfulMonad.bind_assoc]
    refine (yields_readState names_of_local).attempt fun state _ => ?_
    refine (yields_ofExcept (P := fun order => ∀ s ∈ bodySymbols order, s = mexcWireSymbol spec)
      fun order horder => ?_).attempt fun order horder => ?_
    · obtain ⟨t, -, -, -, rfl⟩ := Mexc.mexcCreateOrderObject_eq_ok horder
      have hsymbol := (Mexc.get?_mexcCreateOrderFields spec state.positions request t).1
      simp [hsymbol, Json.asStr]
    · refine (yields_sendRest fun _ => ?_).attempt fun _ _ => yields_pure trivial
      have hpath : pathSymbols "/api/v1/private/order/submit" = [] := by decide +kernel
      rw [symbols_rest, hpath]
      exact horder
  unfold createOrder
  refine Naming.attempt (.of_yields (yields_validateCreateOrder names_of_local request)) fun _ => ?_
  refine hsend.attempt fun (receipt, transport) => ?_
  refine .of_yields (P := fun _ => True) ?_
  exact (yields_cachePendingUnknown names_of_local _ _ _ _ _).attempt fun _ _ =>
    yields_applyCommandReceipt names_of_local _ _

theorem naming_cancelOrder (hv : context.venue = .mexc)
    (hget : catalog.get instrumentId = some spec) {request : CancelOrderRequest}
    (hrequest : request.instrumentId = instrumentId) :
    Naming catalog spec.nativeSymbol (cancelOrder context request) := by
  subst hrequest
  unfold cancelOrder
  refine Naming.attemptSpec hget (.of_yields (P := fun _ => True) ?_)
  have hsend : Yields (fun _ q => ∀ s ∈ q.symbols, s = spec.nativeSymbol) (fun _ => True)
      (sendCancelOrder context spec request) := by
    unfold sendCancelOrder
    rw [hv]
    dsimp only
    split
    · exact yields_throw_bind _
    refine (yields_ofExcept (P := fun sent => ∀ s ∈ pathSymbols sent.1 ++ bodySymbols sent.2,
      s = spec.nativeSymbol) fun sent hsent => ?_).attempt fun sent hsent => ?_
    · unfold mexcCancelBody at hsent
      split at hsent
      · obtain rfl := Except.ok.inj hsent
        have hpath : pathSymbols "/api/v1/private/order/cancel" = [] := by decide +kernel
        rw [hpath]
        simp [bodySymbols]
      · obtain rfl := Except.ok.inj hsent
        have hpath : pathSymbols "/api/v1/private/order/batch_cancel_with_external" = [] := by
          decide +kernel
        rw [hpath]
        simp [bodySymbols, Json.asStr]
      · cases hsent
    · exact (yields_sendRest fun _ => hsent).attempt fun _ _ => yields_pure trivial
  refine hsend.attempt fun (receipt, transport) _ => ?_
  exact (yields_cachePendingUnknown names_of_local _ _ _ _ _).attempt fun _ _ =>
    yields_applyCommandReceipt names_of_local _ _

theorem naming_cancelAllOrders (hv : context.venue = .mexc)
    (hget : catalog.get instrumentId = some spec) (requestId : Option RequestId) :
    Naming catalog spec.nativeSymbol
      (cancelAllOrders context ⟨requestId, some instrumentId⟩) := by
  have hsend : Naming catalog spec.nativeSymbol
      (sendCancelAllOrders context ⟨requestId, some instrumentId⟩) := by
    unfold sendCancelAllOrders
    rw [hv]
    dsimp only
    refine Naming.attemptSpec hget (.of_yields (yields_sendRestOrFail fun _ => ?_))
    have hpath : pathSymbols "/api/v1/private/order/cancel_all" = [] := by decide +kernel
    rw [symbols_rest, hpath]
    simp [Json.asStr]
  unfold cancelAllOrders
  split
  · exact .of_yields (P := fun _ => True) (yields_throw_bind _)
  refine hsend.attempt fun receipt => .of_yields (P := fun _ => True) ?_
  exact (yields_applyCommandReceipt names_of_local _ _).attempt fun _ _ => yields_pure trivial

theorem naming_fetchMarkPriceMexc (hget : catalog.get instrumentId = some spec) :
    Naming catalog spec.nativeSymbol (fetchMarkPriceMexc context instrumentId) := by
  refine Naming.attemptSpec hget ?_
  refine Naming.attempt (naming_restText ?_) fun _ =>
    .of_yields (yields_pure (P := fun _ => True) trivial)
  have hpath : pathSymbols "/api/v1/contract/ticker" = [] := by decide +kernel
  rw [symbols_rest, hpath]
  simp [bodySymbols, bodyToObject, stringFields, Json.asStr]

theorem naming_mexcFetchCurrentLeverage (hget : catalog.get instrumentId = some spec) :
    Naming catalog spec.nativeSymbol (mexcFetchCurrentLeverage context instrumentId) := by
  unfold mexcFetchCurrentLeverage
  refine Naming.attempt (.of_yields (yields_readState names_of_local)) fun state => ?_
  split
  · exact .of_yields (yields_pure (P := fun _ => True) trivial)
  refine Naming.attemptSpec hget ?_
  refine Naming.attempt (naming_restText ?_) fun _ => .of_yields (P := fun _ => True) ?_
  · have hpath : pathSymbols "/api/v1/private/position/leverage" = [] := by decide +kernel
    rw [symbols_rest, hpath]
    simp [bodySymbols, bodyToObject, stringFields, Json.asStr]
  · exact yields_ofExcept fun _ _ => trivial

theorem naming_fetchOhlcvSingleMexc (hget : catalog.get instrumentId = some spec)
    {request : FetchOhlcvRequest} (hrequest : request.instrumentIds = [instrumentId]) :
    Naming catalog (mexcWireSymbol spec) (fetchOhlcvSingleMexc context request) := by
  have hsingle : request.singleInstrumentId = .ok instrumentId := by
    simp [FetchOhlcvRequest.singleInstrumentId, FetchOhlcvRequest.validInstrumentIds, hrequest,
      fetchOhlcvMaxInstrumentsPerCall]
    rfl
  unfold fetchOhlcvSingleMexc
  rw [hsingle]
  refine Naming.attemptSpec hget ?_
  refine Naming.attempt (.of_yields (yields_ofExcept (P := fun _ => True) fun _ _ => trivial))
    fun interval => ?_
  refine Naming.attempt (.of_yields (yields_ofExcept (P := fun _ => True) fun _ _ => trivial))
    fun intervalStr => ?_
  refine Naming.attempt (naming_restText ?_) fun _ =>
    .of_yields (yields_pure (P := fun _ => True) trivial)
  rw [symbols_rest, pathSymbols_kline]
  cases request.startTime <;> cases request.endTime <;> simp [bodyToObject, stringFields]

theorem naming_refreshExecutionsMexc (hget : catalog.get instrumentId = some spec)
    (limit : Option ℕ) :
    Naming catalog spec.nativeSymbol
      (liftRuntime (refreshExecutionsMexc context (some ⟨some instrumentId, limit⟩))) := by
  have hlift : liftRuntime (requireSpec context.toLiveContext instrumentId) =
      commandSpec context instrumentId := rfl
  unfold refreshExecutionsMexc
  simp only [Option.bind_some, liftRuntime_bind, hlift]
  refine Naming.attemptSpec hget ?_
  rw [liftRuntime_pure, pure_bind]
  refine Naming.attempt (.of_yields (.of_always (always_liftRuntime_of ?_))) fun executions =>
    .of_yields (.of_always ?_)
  · refine fun τ => ⟨?_, fun _ => trivial⟩
    simp [CommandCall.symbols]
  · exact fun τ => ⟨fun _ hs => (nomatch hs), fun _ => trivial⟩

/-- What an operation names, in all its requests, is its own spelling. -/
theorem names_spelling (hget : catalog.get instrumentId = some spec)
    (operation : SymbolOperation) :
    NamesOnly catalog instrumentId operation (operation.spelling spec) := by
  intro context hv
  have hpure : ∀ {α : Type} {x : CommandE α}, Naming catalog (operation.spelling spec) x →
      ((x >>= fun _ => pure ()).run.answered (adapterReply catalog)).Always
        fun _ q => ∀ s ∈ q.symbols, s = operation.spelling spec :=
    fun hx => (hx.attempt fun _ => .of_yields (P := fun _ => True) (yields_pure trivial)).always
  cases operation with
  | createOrder request => exact hpure (naming_createOrder hv hget rfl)
  | cancelOrder request => exact hpure (naming_cancelOrder hv hget rfl)
  | cancelAllOrders requestId => exact hpure (naming_cancelAllOrders hv hget requestId)
  | executions limit => exact hpure (naming_refreshExecutionsMexc hget limit)
  | markPrice => exact hpure (naming_fetchMarkPriceMexc hget)
  | leverage => exact hpure (naming_mexcFetchCurrentLeverage hget)
  | ohlcv request => exact hpure (naming_fetchOhlcvSingleMexc hget rfl)

end Names

/-! ### Round trips -/

namespace Mexc

/-- In the catalog made of the contracts, each accepted contract is looked up right, and all
requests about its instrument name it by its symbol. -/
def SymbolsRoundTrip (contracts : List ContractInfo) (specs : List InstrumentSpec) : Prop :=
  ∀ contract ∈ accepted contracts, ∀ spec, contractToSpec contract = .ok spec →
    LooksUp (.new specs) contract spec ∧
      ∀ operation, NamesOnly (.new specs) spec.instrumentId operation contract.symbol

variable {contracts : List ContractInfo} {specs : List InstrumentSpec}

/-- An operation that looks the instrument up and then sends a request names the symbols in it. -/
theorem names_first_request {catalog : InstrumentCatalog} {instrumentId : InstrumentId}
    {spec : InstrumentSpec} {operation : SymbolOperation} {symbol : String}
    (hget : catalog.get instrumentId = some spec)
    (h : NamesOnly catalog instrumentId operation symbol) {request : RestCommand}
    (hrun : ∃ k, (operation.run (restContext .mexc) instrumentId).run =
        .call (.runtime (.resolveInstrument instrumentId)) k ∧
      ∃ k', k (some spec) = .call (.rest request) k') :
    ∀ s ∈ (CommandCall.rest request).symbols, s = symbol := by
  obtain ⟨k, hk, k', hk'⟩ := hrun
  have hspec := h (restContext .mexc) rfl []
  have hreply : adapterReply catalog (.runtime (.resolveInstrument instrumentId)) =
      some (some spec) := congrArg some hget
  rw [hk, answered_call_of_some hreply, hk', answered_call_of_none rfl] at hspec
  exact hspec.1

/-- A cancellation of all orders sends the native symbol. -/
theorem nativeSymbol_of_names {catalog : InstrumentCatalog} {instrumentId : InstrumentId}
    {spec : InstrumentSpec} {symbol : String} (hget : catalog.get instrumentId = some spec)
    (h : NamesOnly catalog instrumentId (.cancelAllOrders none) symbol) :
    spec.nativeSymbol = symbol := by
  refine names_first_request hget h ⟨_, rfl, _, rfl⟩ _ ?_
  rw [symbols_rest]
  simp [Json.asStr]

/-- A request for candles sends the spelling rebuilt from the coins. -/
theorem wireSymbol_of_names {catalog : InstrumentCatalog} {instrumentId : InstrumentId}
    {spec : InstrumentSpec} {symbol : String} (hget : catalog.get instrumentId = some spec)
    (h : NamesOnly catalog instrumentId (.ohlcv ⟨[], "1m", none, none, none⟩) symbol) :
    mexcWireSymbol spec = symbol := by
  refine names_first_request hget h ⟨_, rfl, _, rfl⟩ _ ?_
  rw [symbols_rest, pathSymbols_kline]
  simp

/-- Which contracts make the round trip: those that collide with no other are looked up right, every
operation names what its spelling is, and since there are two spellings, no contract is named by its
symbol in all requests. -/
theorem mexc_symbols_round_trip_iff (h : contractSpecs contracts = .ok specs) :
    (SymbolsRoundTrip contracts specs ↔ accepted contracts = []) ∧
      (LookupsRight contracts specs ↔ NoCollision contracts) ∧
      ∀ contract ∈ accepted contracts, ∀ spec, contractToSpec contract = .ok spec →
        LooksUp (.new specs) contract spec → ∀ operation,
          NamesOnly (.new specs) spec.instrumentId operation (operation.spelling spec) := by
  refine ⟨⟨fun hround => ?_, fun hnone contract hcontract => ?_⟩, lookups_right_iff h,
    fun contract _ spec _ hlook operation => names_spelling hlook.byId operation⟩
  · rw [List.eq_nil_iff_forall_not_mem]
    intro contract hcontract
    obtain ⟨spec, hspec⟩ := exists_spec h hcontract
    obtain ⟨hlook, hnames⟩ := hround contract hcontract spec hspec
    have hnative := nativeSymbol_of_names hlook.byId (hnames _)
    have hwire := wireSymbol_of_names hlook.byId (hnames _)
    have hmem := underscore_mem_mexcWireSymbol spec
    rw [hwire, ← hnative, (spellings_of_contractToSpec hspec).1] at hmem
    exact underscore_not_mem_canonical _ hmem
  · rw [hnone] at hcontract
    cases hcontract

/-- The list of contracts in which there is one, with a price unit of a tenth. -/
def contractDetail : Json :=
  .object [("success", .bool true), ("code", .integer 0),
    ("data", .array [.object [("symbol", .string "BTC_USDT"), ("baseCoin", .string "BTC"),
      ("quoteCoin", .string "USDT"), ("settleCoin", .string "USDT"),
      ("contractSize", .number (.float "0.0001")), ("minLeverage", .integer 1),
      ("maxLeverage", .integer 125), ("priceScale", .integer 1), ("volScale", .integer 0),
      ("amountScale", .integer 5), ("priceUnit", .number (.float "0.1")), ("volUnit", .integer 1),
      ("minVol", .integer 1), ("state", .integer 0), ("apiAllowed", .bool false)]])]

/-- The contract of BTC. -/
def btcUsdt : ContractInfo where
  symbol := "BTC_USDT"
  baseCoin := "BTC"
  quoteCoin := "USDT"
  settleCoin := "USDT"
  contractSize := .number (.float "0.0001")
  priceScale := 1
  volScale := 0
  amountScale := some 5
  priceUnit := .number (.float "0.1")
  volUnit := .integer 1
  minVol := .integer 1
  maxLeverage := some (.integer 125)
  state := some 0
  futureType := none
  apiAllowed := some false

theorem natAbs_one_fits : (1 : ℤ).natAbs < 2 ^ 96 := by decide

theorem one_place : 1 ≤ 28 := by decide

theorem four_places : 4 ≤ 28 := by decide

theorem five_places : 5 ≤ 28 := by decide

theorem leverage_fits : 125 < 2 ^ 96 := by decide

/-- The instrument that it stands for. -/
def btcUsdtSpec : InstrumentSpec where
  venue := .mexc
  product := .linearUsdt
  marketType := .linearPerpetual
  instrumentId := ⟨"BTC/USDT:USDT"⟩
  canonicalSymbol := "BTC/USDT:USDT"
  nativeSymbol := "BTCUSDT"
  base := ⟨"BTC"⟩
  quote := ⟨"USDT"⟩
  settle := ⟨"USDT"⟩
  contractSize := ⟨⟨1, 4, natAbs_one_fits, four_places⟩⟩
  tickSize := ⟨⟨1, 1, natAbs_one_fits, one_place⟩⟩
  stepSize := ⟨.ofNat 1 Decimal.one_fits⟩
  minQty := ⟨.ofNat 1 Decimal.one_fits⟩
  minNotional := ⟨⟨1, 5, natAbs_one_fits, five_places⟩⟩
  priceScale := 1
  qtyScale := 0
  quoteScale := 5
  maxLeverage := some ⟨.ofNat 125 leverage_fits⟩
  support := ⟨true, false, false, false, true, true⟩
  status := .active

theorem contractToSpec_btcUsdt : contractToSpec btcUsdt = .ok btcUsdtSpec := by decide +kernel

theorem contractSpecs_btcUsdt : contractSpecs [btcUsdt] = .ok [btcUsdtSpec] := by decide +kernel

/-- A cancellation of all orders of `BTC_USDT` is sent for `BTCUSDT`. -/
theorem btc_usdt_misspelled :
    parseMetadataSnapshot (.json contractDetail) = .ok [btcUsdtSpec] ∧
      contractSpecs [btcUsdt] = .ok [btcUsdtSpec] ∧
      ¬ SymbolsRoundTrip [btcUsdt] [btcUsdtSpec] := by
  refine ⟨by decide +kernel, contractSpecs_btcUsdt, fun hround => ?_⟩
  have hmem : btcUsdt ∈ accepted [btcUsdt] := by simp [accepted, btcUsdt]
  obtain ⟨hlook, hnames⟩ := hround btcUsdt hmem btcUsdtSpec contractToSpec_btcUsdt
  have hnative := nativeSymbol_of_names hlook.byId (hnames _)
  exact absurd hnative (by decide)

theorem mexc_symbols_round_trip_iff_btc_usdt :
    LookupsRight [btcUsdt] [btcUsdtSpec] ∧ ¬ SymbolsRoundTrip [btcUsdt] [btcUsdtSpec] := by
  obtain ⟨hround, hlookups, -⟩ := mexc_symbols_round_trip_iff contractSpecs_btcUsdt
  have hone : accepted [btcUsdt] = [btcUsdt] := by simp [accepted, btcUsdt]
  constructor
  · refine hlookups.2 fun contract hcontract spec hspec contract' hcontract' spec' hspec' _ => ?_
    rw [hone, List.mem_singleton] at hcontract hcontract'
    rw [hcontract, contractToSpec_btcUsdt] at hspec
    rw [hcontract', contractToSpec_btcUsdt] at hspec'
    cases hspec
    cases hspec'
    rfl
  · rw [hround, hone]
    exact List.cons_ne_nil _ _

end Mexc

end BatMarkets
