import BatMarkets.Adapter.OrderSnapshot
import BatMarkets.Core.Arithmetic

/-!
# The contracts of MEXC

The adapter of MEXC turns the list of contracts into specifications (`contract_to_spec`), which
replace those it has.  MEXC spells a symbol with an underscore, like `BTC_USDT`.  The specification
keeps the canonical spelling without it as its native symbol, and its id is made of the names of the
coins, so that a contract has three spellings: its symbol, the canonical one, and the one that
`mexcWireSymbol` rebuilds from the coins.

The specifications are found under two keys, and the last one of a key wins.

## Main results

* `Mexc.lookups_right_iff` : every contract is found by its symbol and by its id exactly when no two
  contracts with different specifications collide.
-/

namespace BatMarkets

open Ordered Wire

namespace Mexc

/-! ### Reading contracts -/

/-- A contract in the reply of MEXC. -/
structure ContractInfo where
  symbol : String
  baseCoin : String
  quoteCoin : String
  settleCoin : String
  contractSize : Json
  priceScale : UInt32
  volScale : UInt32
  amountScale : Option UInt32
  priceUnit : Json
  volUnit : Json
  minVol : Json
  maxLeverage : Option Json
  state : Option Int64
  futureType : Option Int64
  apiAllowed : Option Bool

/-- The sizes of a contract are required, in any spelling; its state and its flags may be missing.
-/
def ContractInfo.read (value : Json) : Option ContractInfo := do
  let fields ← value.record ["symbol", "baseCoin", "quoteCoin", "settleCoin", "contractSize",
    "priceScale", "volScale", "amountScale", "priceUnit", "volUnit", "minVol", "maxLeverage",
    "state", "futureType", "apiAllowed"]
  return {
    symbol := ← Json.required fields "symbol" Json.asStr
    baseCoin := ← Json.required fields "baseCoin" Json.asStr
    quoteCoin := ← Json.required fields "quoteCoin" Json.asStr
    settleCoin := ← Json.required fields "settleCoin" Json.asStr
    contractSize := ← Json.required fields "contractSize" some
    priceScale := ← Json.required fields "priceScale" Json.asU32
    volScale := ← Json.required fields "volScale" Json.asU32
    amountScale := ← Json.optional fields "amountScale" Json.asU32
    priceUnit := ← Json.required fields "priceUnit" some
    volUnit := ← Json.required fields "volUnit" some
    minVol := ← Json.required fields "minVol" some
    maxLeverage := ← Json.optional fields "maxLeverage" some
    state := ← Json.optional fields "state" Json.asInt64
    futureType := ← Json.optional fields "futureType" Json.asInt64
    apiAllowed := ← Json.optional fields "apiAllowed" Json.asBool }

/-- A response with the contracts. -/
structure ContractsResponse where
  success : Bool
  code : Int64
  message : Option String
  data : List ContractInfo

/-- The reply lists the contracts, and a reply without them cannot be read. -/
def ContractsResponse.read (value : Json) : Option ContractsResponse := do
  let fields ← value.record ["success", "code", "message", "data"]
  return {
    success := ← Json.required fields "success" Json.asBool
    code := ← Json.defaulted fields "code" Json.asInt64 0
    message := ← Json.optional fields "message" Json.asStr
    data := ← Json.required fields "data" (Json.each ContractInfo.read) }

/-! ### Specifications -/

/-- The id of an instrument, from its assets. -/
def canonicalSymbol (base quote settle : String) : String := base ++ "/" ++ quote ++ ":" ++ settle

/-- The instrument that a contract stands for; its least notional is computed. -/
def contractToSpec (contract : ContractInfo) : Except Failure InstrumentSpec := do
  let tickSize ← decimalFromValue contract.priceUnit
  let stepSize ← decimalFromValue contract.volUnit
  let minQty ← decimalFromValue contract.minVol
  let contractSize ← decimalFromValue contract.contractSize
  let minNotional ← (← tickSize.mul minQty).mul contractSize
  let maxLeverage ← contract.maxLeverage.mapM decimalFromValue
  return {
    venue := .mexc
    product := .linearUsdt
    marketType := .linearPerpetual
    instrumentId := ⟨canonicalSymbol contract.baseCoin contract.quoteCoin contract.settleCoin⟩
    canonicalSymbol := canonicalSymbol contract.baseCoin contract.quoteCoin contract.settleCoin
    nativeSymbol := mexcCanonicalNativeSymbol contract.symbol
    base := ⟨contract.baseCoin⟩
    quote := ⟨contract.quoteCoin⟩
    settle := ⟨contract.settleCoin⟩
    contractSize := ⟨contractSize⟩
    tickSize := ⟨tickSize⟩
    stepSize := ⟨stepSize⟩
    minQty := ⟨minQty⟩
    minNotional := ⟨minNotional⟩
    priceScale := contract.priceScale.toNat
    qtyScale := contract.volScale.toNat
    quoteScale := (contract.amountScale.map UInt32.toNat).getD
      (min (contract.priceScale.toNat + contract.volScale.toNat) (2 ^ 32 - 1))
    maxLeverage := maxLeverage.map fun leverage => ⟨leverage⟩
    support := {
      publicStreams := true
      privateTrading := contract.apiAllowed.getD false
      leverageSet := false
      marginModeSet := false
      fundingRate := true
      openInterest := true }
    status := if contract.state.getD 0 = 0 then .active else .halted }

/-- The contracts of the adapter's market. -/
def accepted (contracts : List ContractInfo) : List ContractInfo :=
  contracts.filter fun contract => contract.quoteCoin == "USDT" && contract.settleCoin == "USDT"

/-- The instruments of the contracts that are in the market. -/
def contractSpecs (contracts : List ContractInfo) : Except Failure (List InstrumentSpec) :=
  (accepted contracts).mapM contractToSpec

/-- The instruments in a reply of MEXC. -/
def parseMetadataSnapshot (payload : Payload) : Except Failure (List InstrumentSpec) :=
  match payload.value?.bind ContractsResponse.read with
  | none => .error (.error (decodeMessage "failed to parse mexc contract detail response"))
  | some response => do
    (ensureSuccess response.success response.code response.message).mapError .error
    contractSpecs response.data

/-! ### The three spellings -/

theorem spellings_of_contractToSpec {contract : ContractInfo} {spec : InstrumentSpec}
    (h : contractToSpec contract = .ok spec) :
    spec.nativeSymbol = mexcCanonicalNativeSymbol contract.symbol ∧
      mexcWireSymbol spec = contract.baseCoin ++ "_" ++ contract.quoteCoin := by
  unfold contractToSpec at h
  obtain ⟨_, -, h⟩ := except_bind_eq_ok.1 h
  obtain ⟨_, -, h⟩ := except_bind_eq_ok.1 h
  obtain ⟨_, -, h⟩ := except_bind_eq_ok.1 h
  obtain ⟨_, -, h⟩ := except_bind_eq_ok.1 h
  obtain ⟨_, -, h⟩ := except_bind_eq_ok.1 h
  obtain ⟨_, -, h⟩ := except_bind_eq_ok.1 h
  obtain ⟨_, -, h⟩ := except_bind_eq_ok.1 h
  cases h
  exact ⟨rfl, rfl⟩

theorem underscore_mem_mexcWireSymbol (spec : InstrumentSpec) :
    '_' ∈ (mexcWireSymbol spec).toList := by
  simp [mexcWireSymbol]

/-- The canonical spelling has no underscore. -/
theorem underscore_not_mem_canonical (symbol : String) :
    '_' ∉ (mexcCanonicalNativeSymbol symbol).toList := by
  intro hmem
  rw [mexcCanonicalNativeSymbol, String.toList_ofList, List.mem_map] at hmem
  obtain ⟨c, hc, hupper⟩ := hmem
  have hne : c ≠ '_' := by
    have hkept := (List.mem_filter.1 hc).2
    rw [Bool.and_eq_true] at hkept
    simpa using hkept.1
  -- only letters are changed, and into letters
  rw [Char.toUpper] at hupper
  split at hupper
  · next hletter =>
    have hval : c.val = '_'.val - ('A'.val - 'a'.val) := by
      rw [← congrArg Char.val hupper]
      exact (UInt32.add_sub_cancel _ _).symm
    rw [hval] at hletter
    exact absurd hletter.2 (by decide)
  · exact hne hupper

/-! ### Looking contracts up -/

/-- What is found under a native symbol: the last specification with the id of the last one with
this symbol. -/
theorem byNativeSymbol_new (specs : List InstrumentSpec) (symbol : String) :
    (InstrumentCatalog.new specs).byNativeSymbol symbol =
      (lastOf (·.nativeSymbol) symbol specs).bind fun spec =>
        lastOf (·.instrumentId) spec.instrumentId specs := by
  have hid : (InstrumentCatalog.new specs).idByNativeSymbol[symbol]? =
      (lastOf (·.nativeSymbol) symbol specs).map (·.instrumentId) := by
    show (specs.foldl _ ∅)[symbol]? = _
    rw [lookup_foldl_insert]
    simp
  have hget : (InstrumentCatalog.new specs).get = fun id => lastOf (·.instrumentId) id specs :=
    funext fun id => Index.get?_collect specs id
  rw [InstrumentCatalog.byNativeSymbol, hid, hget]
  cases lastOf (·.nativeSymbol) symbol specs <;> rfl

/-- A contract is looked up right in a catalog, by its symbol and by its id. -/
structure LooksUp (catalog : InstrumentCatalog) (contract : ContractInfo) (spec : InstrumentSpec) :
    Prop where
  bySymbol : resolveNativeSymbol .mexc catalog contract.symbol = some spec
  byId : catalog.get spec.instrumentId = some spec

/-- The second contract is found where the first is looked for: they share the id or the canonical
symbol, or the canonical symbol of the second is the symbol of the first. -/
def Collides (contract : ContractInfo) (spec spec' : InstrumentSpec) : Prop :=
  spec'.instrumentId = spec.instrumentId ∨ spec'.nativeSymbol = spec.nativeSymbol ∨
    spec'.nativeSymbol = contract.symbol

/-- All accepted contracts are looked up right in the catalog made of them. -/
def LookupsRight (contracts : List ContractInfo) (specs : List InstrumentSpec) : Prop :=
  ∀ contract ∈ accepted contracts, ∀ spec, contractToSpec contract = .ok spec →
    LooksUp (.new specs) contract spec

/-- No two accepted contracts with different specifications collide. -/
def NoCollision (contracts : List ContractInfo) : Prop :=
  ∀ contract ∈ accepted contracts, ∀ spec, contractToSpec contract = .ok spec →
    ∀ contract' ∈ accepted contracts, ∀ spec', contractToSpec contract' = .ok spec' →
      Collides contract spec spec' → spec' = spec

section Lookups

variable {contracts : List ContractInfo} {specs : List InstrumentSpec}

theorem exists_spec (h : contractSpecs contracts = .ok specs) {contract : ContractInfo}
    (hcontract : contract ∈ accepted contracts) : ∃ spec, contractToSpec contract = .ok spec := by
  have hall := isOk_mapM contractToSpec (accepted contracts)
  rw [← contractSpecs, h] at hall
  have hok := List.all_eq_true.1 hall.symm contract hcontract
  cases hspec : contractToSpec contract with
  | ok spec => exact ⟨spec, rfl⟩
  | error e =>
    rw [hspec] at hok
    cases hok

theorem exists_contract (h : contractSpecs contracts = .ok specs) {spec : InstrumentSpec}
    (hspec : spec ∈ specs) : ∃ contract ∈ accepted contracts, contractToSpec contract = .ok spec :=
  (mem_of_mapM h).1 hspec

theorem mem_specs (h : contractSpecs contracts = .ok specs) {contract : ContractInfo}
    (hcontract : contract ∈ accepted contracts) {spec : InstrumentSpec}
    (hspec : contractToSpec contract = .ok spec) : spec ∈ specs :=
  (mem_of_mapM h).2 ⟨contract, hcontract, hspec⟩

/-- A specification in the list is found by a key that no other specification has. -/
theorem lastOf_eq_of_unique {κ : Type} [DecidableEq κ] {key : InstrumentSpec → κ}
    {spec : InstrumentSpec} (hspec : spec ∈ specs)
    (h : ∀ spec' ∈ specs, key spec' = key spec → spec' = spec) :
    lastOf key (key spec) specs = some spec := by
  cases hlast : lastOf key (key spec) specs with
  | none => exact absurd rfl (lastOf_eq_none.1 hlast spec hspec)
  | some spec' =>
    obtain ⟨hmem, hkey⟩ := lastOf_eq_some hlast
    rw [h spec' hmem hkey]

/-- When every id leads to its own specification, a native symbol leads to its last one. -/
theorem byNativeSymbol_of_byId
    (h : ∀ spec ∈ specs, lastOf (·.instrumentId) spec.instrumentId specs = some spec)
    (symbol : String) :
    (InstrumentCatalog.new specs).byNativeSymbol symbol =
      lastOf (·.nativeSymbol) symbol specs := by
  rw [byNativeSymbol_new]
  cases hlast : lastOf (·.nativeSymbol) symbol specs with
  | none => rfl
  | some spec => exact h spec (lastOf_eq_some hlast).1

theorem lookups_right_iff (h : contractSpecs contracts = .ok specs) :
    LookupsRight contracts specs ↔ NoCollision contracts := by
  constructor
  · intro hright
    have hbyId : ∀ spec ∈ specs, lastOf (·.instrumentId) spec.instrumentId specs = some spec := by
      intro spec hspec
      obtain ⟨contract, hcontract, hof⟩ := exists_contract h hspec
      rw [← (hright contract hcontract spec hof).byId]
      exact (Index.get?_collect specs _).symm
    -- each specification is the last one with its native symbol
    have hlast : ∀ contract ∈ accepted contracts, ∀ spec, contractToSpec contract = .ok spec →
        lastOf (·.nativeSymbol) spec.nativeSymbol specs = some spec := by
      intro contract hcontract spec hof
      have hfound := (hright contract hcontract spec hof).bySymbol
      rw [resolveNativeSymbol, byNativeSymbol_of_byId hbyId, byNativeSymbol_of_byId hbyId] at hfound
      rcases Option.or_eq_some_iff.1 hfound with hfound | ⟨-, hfound⟩
      · have hkey : spec.nativeSymbol = contract.symbol := (lastOf_eq_some hfound).2
        rw [hkey]
        exact hfound
      · rw [(spellings_of_contractToSpec hof).1]
        exact hfound
    intro contract hcontract spec hof contract' hcontract' spec' hof' hcollides
    have hsymbol : spec'.nativeSymbol = spec.nativeSymbol → spec' = spec := by
      intro heq
      have hlast' := hlast contract' hcontract' spec' hof'
      rw [heq, hlast contract hcontract spec hof] at hlast'
      exact (Option.some.inj hlast').symm
    rcases hcollides with hid | heq | heq
    · have hmem := hbyId spec (mem_specs h hcontract hof)
      rw [← hid, hbyId spec' (mem_specs h hcontract' hof')] at hmem
      exact Option.some.inj hmem
    · exact hsymbol heq
    · refine hsymbol ?_
      have hfound := (hright contract hcontract spec hof).bySymbol
      rw [resolveNativeSymbol, byNativeSymbol_of_byId hbyId, ← heq,
        hlast contract' hcontract' spec' hof', Option.some_or] at hfound
      rw [Option.some.inj hfound]
  · intro hnone contract hcontract spec hof
    have hmem := mem_specs h hcontract hof
    have hunique : ∀ spec ∈ specs, ∀ spec' ∈ specs, spec'.instrumentId = spec.instrumentId →
        spec' = spec := by
      intro spec hspec spec' hspec' hid
      obtain ⟨contract, hcontract, hof⟩ := exists_contract h hspec
      obtain ⟨contract', hcontract', hof'⟩ := exists_contract h hspec'
      exact hnone contract hcontract spec hof contract' hcontract' spec' hof' (.inl hid)
    have hbyId : ∀ spec ∈ specs, lastOf (·.instrumentId) spec.instrumentId specs = some spec :=
      fun spec hspec => lastOf_eq_of_unique hspec (hunique spec hspec)
    have hcollide : ∀ spec' ∈ specs, Collides contract spec spec' → spec' = spec := by
      intro spec' hspec' hcollides
      obtain ⟨contract', hcontract', hof'⟩ := exists_contract h hspec'
      exact hnone contract hcontract spec hof contract' hcontract' spec' hof' hcollides
    refine ⟨?_, (Index.get?_collect specs _).trans (hbyId spec hmem)⟩
    rw [resolveNativeSymbol, byNativeSymbol_of_byId hbyId, byNativeSymbol_of_byId hbyId]
    cases hfirst : lastOf (·.nativeSymbol) contract.symbol specs with
    | some spec' =>
      obtain ⟨hspec', hkey⟩ := lastOf_eq_some hfirst
      rw [hcollide spec' hspec' (.inr (.inr hkey)), Option.some_or]
    | none =>
      rw [Option.none_or, ← (spellings_of_contractToSpec hof).1]
      exact lastOf_eq_of_unique hmem fun spec' hspec' hkey =>
        hcollide spec' hspec' (.inr (.inl hkey))

end Lookups

end Mexc

end BatMarkets
