import BatMarkets.Commands.CancelBatches

/-!
# A batch of cancellations and single ones

`CancelsRefine` says that a batch does what its targets' own cancellations do: each target has an
acknowledgement that says the same of its order as that of `cancel_order`, and the venue is told to
cancel each order as often.

A batch of two or more drops the request id on Binance and Bybit, and does not complete the receipt
of an item with what the target says, as the single command does; on MEXC an item never says which
instrument it is about.

## Main results

* `cancelsRefine_iff` : a batch does what single cancellations do exactly when it is
  `CancelledAlike`.
* `mexc_batch_without_instruments` : two orders of MEXC that are cancelled are acknowledged without
  their instruments.
-/

namespace BatMarkets

open CommandM Interleaving Ordered Prog Wire

/-! ### The property -/

/-- Two receipts say the same of an order. -/
structure SameReceipt (r r' : CommandReceipt) : Prop where
  status : r.status = r'.status
  instrumentId : r.instrumentId = r'.instrumentId
  orderId : r.orderId = r'.orderId
  clientOrderId : r.clientOrderId = r'.clientOrderId
  requestId : r.requestId = r'.requestId

theorem SameReceipt.refl (r : CommandReceipt) : SameReceipt r r := ⟨rfl, rfl, rfl, rfl, rfl⟩

namespace CancelVenue

variable (venue : CancelVenue) (context : CommandContext)

/-- The receipt says the same as that of the cancellation of the target alone. -/
def SaysTheSame (requestId : Option RequestId) (target : OrderTarget) (receipt : CommandReceipt) :
    Prop :=
  ∃ ack, Succeeds (venue.reply context.venue) (cancelOrder context (target.cancelRequest requestId))
    ack ∧ SameReceipt receipt ack.receipt

/-- The batch has an acknowledgement for each target, in order, which says the same as that of its
own cancellation, and tells the venue to cancel the same orders. -/
def CancelsRefine (request : CancelOrdersRequest) : Prop :=
  ∃ acks, Succeeds (venue.reply context.venue) (cancelOrders context request) acks ∧
    List.Forall₂ (fun target ack => venue.SaysTheSame context request.requestId target ack.receipt)
      request.orders acks ∧
    (venue.received context.venue (cancelOrders context request)).Perm
      (request.orders.flatMap fun target => venue.received context.venue
        (cancelOrder context (target.cancelRequest request.requestId)))

/-! ### When it holds -/

/-- The reply to the cancellation of the target is lost. -/
def Lost (v : Venue) (target : OrderTarget) : Prop :=
  ∃ name, venue.nameOf v target = some name ∧ venue.payload v false [name] = none

/-- The replies for the targets of one request are lost together. -/
def LostTogether (v : Venue) (batch : List OrderTarget) : Prop :=
  (∀ target ∈ batch, venue.Lost v target) ∨ ∀ target ∈ batch, ¬ venue.Lost v target

/-- The targets that go into one request each: on Binance those of an instrument, ids and client
order ids apart. -/
def batches (v : Venue) (targets : List OrderTarget) : List (List OrderTarget) :=
  match v with
  | .binance => (cancelGroups targets).flatMap fun group => (chunks 10 group.2).map (·.map (·.1))
  | .bybit => chunks 20 targets
  | .mexc => chunks 50 targets

/-- Binance reports no error for the order, and says which symbol it has. -/
def NamesSymbol (item : Json) : Prop :=
  Binance.reportedError item = none ∧ ∃ symbol ids, Binance.commandIdentity item =
    some (some symbol, ids)

/-- What Bybit says with a refusal about the order is what the target says. -/
structure EchoesTarget (target : OrderTarget) (answer : BybitCancel) : Prop where
  instrumentId : ∀ spec, answer.symbol.bind (resolveNativeSymbol .bybit venue.catalog) = some spec →
    spec.instrumentId = target.instrumentId
  orderId : ∀ id, answer.orderId = some id → target.orderId = some ⟨id⟩
  clientOrderId : ∀ id, answer.orderLinkId = some id → target.clientOrderId = some ⟨id⟩

/-- The targets of MEXC are neither all named by order ids nor all by client order ids. -/
def Mixed (targets : List OrderTarget) : Prop :=
  ¬ (∀ target ∈ targets, target.orderId.isSome) ∧
    ¬ ∀ target ∈ targets, target.orderId = none ∧ target.clientOrderId.isSome

/-- A batch of several targets that does what their own cancellations do. -/
def BatchAlike (request : CancelOrdersRequest) : Prop :=
  match context.venue with
  | .binance => context.wsOrderEntry = true ∨
      (request.requestId = none ∧ (∀ target ∈ request.orders, PlainId target) ∧
        (∀ batch ∈ batches .binance request.orders, venue.LostTogether .binance batch) ∧
        ∀ target ∈ request.orders, ∀ name item, venue.nameOf .binance target = some name →
          venue.binance name = some item → NamesSymbol item)
  | .bybit => request.requestId = none ∧
      (∀ batch ∈ batches .bybit request.orders, venue.LostTogether .bybit batch) ∧
      ∀ target ∈ request.orders, ∀ name answer, venue.nameOf .bybit target = some name →
        venue.bybit name = some answer → answer.code ≠ 0 → venue.EchoesTarget target answer
  | .mexc => Mixed request.orders ∨ ∀ target ∈ request.orders, venue.Lost .mexc target

/-- There is one target only, or they are cancelled alike. -/
def CancelledAlike (request : CancelOrdersRequest) : Prop :=
  request.orders.length = 1 ∨ venue.BatchAlike context request

/-! ### One chunk -/

section Chunk

variable {venue context} {v : Venue} {requestId : Option RequestId} {target : OrderTarget}
  {name : CancelName} {receipt : CommandReceipt} {chunk : List OrderTarget}

theorem saysTheSame_iff (hv : context.venue = v)
    (halone : venue.CancelsAlone context v requestId target name receipt) {r : CommandReceipt} :
    venue.SaysTheSame context requestId target r ↔
      SameReceipt r (hydrateCancelReceipt receipt (target.cancelRequest requestId)) := by
  obtain ⟨transport, hack⟩ := halone.acknowledged
  unfold SaysTheSame
  rw [hv]
  constructor
  · rintro ⟨ack, hsucceeds, hsame⟩
    obtain rfl := hsucceeds.unique hack
    exact hsame
  · exact fun hsame => ⟨_, hack, hsame⟩

theorem lost_iff (halone : venue.CancelsAlone context v requestId target name receipt) :
    venue.Lost v target ↔ venue.payload v false [name] = none := by
  constructor
  · rintro ⟨name', hname, hlost⟩
    obtain rfl := Option.some.inj (hname.symm.trans halone.named)
    exact hlost
  · exact fun hlost => ⟨name, halone.named, hlost⟩

theorem payload_binance (name : CancelName) :
    venue.payload .binance false [name] = (venue.binance name).map .json := by
  simp only [payload, List.mapM_cons, List.mapM_nil]
  cases venue.binance name <;> rfl

theorem payload_bybit (name : CancelName) :
    venue.payload .bybit false [name] =
      (venue.bybit name).map fun answer => .json answer.reply := by
  simp only [payload, List.mapM_cons, List.mapM_nil]
  cases venue.bybit name <;> rfl

/-- The reply to a batch is lost when that for one of its names is. -/
theorem payload_eq_none_iff {names : List CancelName} :
    venue.payload v true names = none ↔
      ∃ name ∈ names, venue.payload v false [name] = none := by
  cases v with
  | binance => simp only [payload, Option.map_eq_none_iff, mapM_eq_none_iff, List.mem_singleton,
      exists_eq_left]
  | bybit => simp only [payload, Option.map_eq_none_iff, mapM_eq_none_iff, List.mem_singleton,
      exists_eq_left]
  | mexc => simp only [payload, Option.map_eq_none_iff, mapM_eq_none_iff, List.mem_singleton,
      exists_eq_left]

/-- A lost reply is passed on with what the target says. -/
theorem same_unknown_iff {k : Option RequestId} :
    SameReceipt (unknownCommandReceipt context .cancelOrder (target.identity k))
        (hydrateCancelReceipt (unknownExecution v .cancelOrder requestId)
          (target.cancelRequest requestId)) ↔ k = requestId := by
  constructor
  · exact fun h => h.requestId
  · rintro rfl
    exact ⟨rfl, rfl, by simp [unknownCommandReceipt, hydrateCancelReceipt, hydrateReceipt,
        unknownExecution, CommandReceipt.plain, OrderTarget.identity, OrderTarget.cancelRequest],
      by simp [unknownCommandReceipt, hydrateCancelReceipt, hydrateReceipt, unknownExecution,
        CommandReceipt.plain, OrderTarget.identity, OrderTarget.cancelRequest], rfl⟩

/-- The targets are all cancelled alone. -/
def AllAlone (venue : CancelVenue) (context : CommandContext) (v : Venue)
    (requestId : Option RequestId) (targets : List OrderTarget) : Prop :=
  ∀ target ∈ targets, ∃ name receipt, venue.CancelsAlone context v requestId target name receipt

theorem AllAlone.named (halone : venue.AllAlone context v requestId chunk) :
    Named venue v chunk (chunk.filterMap (venue.nameOf v)) := by
  induction chunk with
  | nil => exact .nil
  | cons target chunk ih =>
    obtain ⟨name, receipt, h⟩ := halone target (by simp)
    rw [List.filterMap_cons_some h.named]
    exact .cons h.named (ih fun t ht => halone t (by simp [ht]))

theorem batch_lost_iff :
    venue.payload v true (chunk.filterMap (venue.nameOf v)) = none ↔
      ∃ target ∈ chunk, venue.Lost v target := by
  rw [payload_eq_none_iff]
  constructor
  · rintro ⟨name, hmem, hlost⟩
    obtain ⟨target, htarget, hname⟩ := List.mem_filterMap.1 hmem
    exact ⟨target, htarget, name, hname, hlost⟩
  · rintro ⟨target, htarget, name, hname, hlost⟩
    exact ⟨name, List.mem_filterMap.2 ⟨target, htarget, hname⟩, hlost⟩

/-- The receipts for a chunk say what those of its targets do if its reply is lost with all of
theirs, and its identities keep the request id, or if none is lost and the items say the same. -/
theorem chunk_says_the_same_iff (hv : context.venue = v)
    (halone : venue.AllAlone context v requestId chunk) {k : Option RequestId}
    {classifier : BatchClassifier} {Item : OrderTarget → Prop}
    (hitems : ∀ payload, venue.payload v true (chunk.filterMap (venue.nameOf v)) = some payload →
      ((∃ rs, classifier venue.catalog payload = .ok rs ∧
        List.Forall₂ (venue.SaysTheSame context requestId) chunk rs) ↔ ∀ t ∈ chunk, Item t))
    (hne : chunk ≠ []) :
    (∃ rs, venue.batchReceipts context .cancelOrder (chunk.map (·.identity k)) classifier
        (venue.payload v true (chunk.filterMap (venue.nameOf v))) = .ok rs ∧
        List.Forall₂ (venue.SaysTheSame context requestId) chunk rs) ↔
      (k = requestId ∧ ∀ t ∈ chunk, venue.Lost v t) ∨
        ((∀ t ∈ chunk, ¬ venue.Lost v t) ∧ ∀ t ∈ chunk, Item t) := by
  cases hpayload : venue.payload v true (chunk.filterMap (venue.nameOf v)) with
  | some payload =>
    have hnone : ∀ t ∈ chunk, ¬ venue.Lost v t := by
      intro t ht hlost
      rw [batch_lost_iff.2 ⟨t, ht, hlost⟩] at hpayload
      cases hpayload
    rw [batchReceipts, hitems payload hpayload]
    constructor
    · exact fun hitem => .inr ⟨hnone, hitem⟩
    · rintro (⟨-, hlost⟩ | ⟨-, hitem⟩)
      · obtain ⟨t, ts, rfl⟩ := List.exists_cons_of_ne_nil hne
        exact absurd (hlost t (by simp)) (hnone t (by simp))
      · exact hitem
  | none =>
    obtain ⟨lost, hlostMem, hlost⟩ := batch_lost_iff.1 hpayload
    -- each receipt says that the outcome is not known, so it is not for each target either
    have hsay : ∀ t ∈ chunk, venue.SaysTheSame context requestId t
        (unknownCommandReceipt context .cancelOrder (t.identity k)) ↔
          k = requestId ∧ venue.Lost v t := by
      intro t ht
      obtain ⟨name, receipt, h⟩ := halone t ht
      rw [saysTheSame_iff hv h, lost_iff h]
      have hclassified := h.classified
      cases hreply : venue.payload v false [name] with
      | none =>
        rw [hreply] at hclassified
        obtain rfl := Except.ok.inj hclassified
        rw [same_unknown_iff]
        exact ⟨fun hk => ⟨hk, rfl⟩, fun hk => hk.1⟩
      | some payload =>
        rw [hreply] at hclassified
        refine ⟨fun hsame => ?_, fun hk => absurd hk.2 (by simp)⟩
        have hstatus : CommandStatus.unknownExecution = receipt.status := hsame.status
        rcases decided_classifyCommand hclassified with hdecided | hdecided
        · rw [hdecided] at hstatus
          cases hstatus
        · rw [hdecided] at hstatus
          cases hstatus
    have hall : (∃ rs, venue.batchReceipts context .cancelOrder (chunk.map (·.identity k))
        classifier none = .ok rs ∧ List.Forall₂ (venue.SaysTheSame context requestId) chunk rs) ↔
        ∀ t ∈ chunk, k = requestId ∧ venue.Lost v t := by
      simp only [batchReceipts, Except.ok.injEq, exists_eq_left', List.map_map,
        List.forall₂_map_right_iff, Function.comp_def]
      rw [List.forall₂_same]
      exact forall₂_congr hsay
    rw [hall]
    constructor
    · exact fun h => .inl ⟨(h lost hlostMem).1, fun t ht => (h t ht).2⟩
    · rintro (⟨hk, hlost⟩ | ⟨hnone, -⟩)
      · exact fun t ht => ⟨hk, hlost t ht⟩
      · exact absurd hlost (hnone lost hlostMem)

/-! ### Items -/

theorem forall₂_zipWith_iff {α β γ : Type} {A : α → β → Prop} {S : α → γ → Prop} {I : α → Prop}
    {g : α → β → γ} {xs : List α} {ys : List β} (h : List.Forall₂ A xs ys)
    (hitem : ∀ x y, A x y → (S x (g x y) ↔ I x)) :
    List.Forall₂ S xs (List.zipWith g xs ys) ↔ ∀ x ∈ xs, I x := by
  induction h with
  | nil => simp
  | cons hxy hrest ih => simp [hitem _ _ hxy, ih]

theorem forall₂_and_mem {α β : Type} {A : α → β → Prop} {xs : List α} {ys : List β}
    (h : List.Forall₂ A xs ys) : List.Forall₂ (fun x y => x ∈ xs ∧ A x y) xs ys :=
  (List.forall₂_and_left _ _).2 ⟨fun _ hx => hx, h⟩

theorem forall₂_comp {α β γ : Type} {A : α → β → Prop} {B : β → γ → Prop} {xs : List α}
    {ys : List β} {zs : List γ} (h : List.Forall₂ A xs ys) (h' : List.Forall₂ B ys zs) :
    List.Forall₂ (fun x z => ∃ y, A x y ∧ B y z) xs zs := by
  induction h generalizing zs with
  | nil =>
    cases h'
    exact .nil
  | cons hxy hrest ih =>
    cases h' with
    | cons hyz hrest' => exact .cons ⟨_, hxy, hyz⟩ (ih hrest')

theorem zip_map_const {α β γ : Type} {xs : List α} {ys : List β} (k : γ)
    (h : xs.length = ys.length) : xs.zip (ys.map fun _ => k) = xs.map fun x => (x, k) := by
  induction xs generalizing ys with
  | nil => rfl
  | cons x xs ih =>
    cases ys with
    | nil => cases h
    | cons y ys =>
      rw [List.map_cons, List.zip_cons_cons, ih (by simpa using h)]
      rfl

theorem exists_forall₂_iff {α β γ : Type} {A : α → β → Prop} {C : β → γ → Prop}
    {S : α → γ → Prop} {I : α → Prop} {xs : List α} {ys : List β} (h : List.Forall₂ A xs ys)
    (hitem : ∀ x ∈ xs, ∀ y, A x y → ((∃ z, C y z ∧ S x z) ↔ I x)) :
    (∃ zs, List.Forall₂ C ys zs ∧ List.Forall₂ S xs zs) ↔ ∀ x ∈ xs, I x := by
  induction h with
  | nil => exact ⟨fun _ _ hx => (nomatch hx), fun _ => ⟨[], .nil, .nil⟩⟩
  | @cons x y xs ys hxy hrest ih =>
    have ih := ih fun x' hx' => hitem x' (by simp [hx'])
    rw [List.forall_mem_cons, ← ih, ← hitem x (by simp) y hxy]
    constructor
    · rintro ⟨zs, hC, hS⟩
      cases hC with
      | cons hyz hC =>
        cases hS with
        | cons hxz hS => exact ⟨⟨_, hyz, hxz⟩, _, hC, hS⟩
    · rintro ⟨⟨z, hyz, hxz⟩, zs, hC, hS⟩
      exact ⟨z :: zs, .cons hyz hC, .cons hxz hS⟩

/-- The request id is put into the receipt of a cancellation, and nowhere else. -/
theorem binance_classifyReply_requestId {catalog : InstrumentCatalog} {payload : Payload}
    {k : Option RequestId}
    (h : Binance.classifyReply catalog .cancelOrder payload requestId = .ok receipt) :
    Binance.classifyReply catalog .cancelOrder payload k = .ok { receipt with requestId := k } ∧
      receipt.requestId = requestId := by
  unfold Binance.classifyReply at *
  cases hreported : payload.value?.bind Binance.reportedError with
  | some reported =>
    rw [hreported] at h
    obtain rfl := Except.ok.inj h
    exact ⟨rfl, rfl⟩
  | none =>
    rw [hreported] at h
    dsimp only at h ⊢
    cases hidentity : payload.value?.bind Binance.commandIdentity with
    | none =>
      rw [hidentity] at h
      cases h
    | some identity =>
      rw [hidentity] at h
      obtain ⟨symbol, orderId, clientOrderId⟩ := identity
      obtain ⟨instrumentId, hinstrument, h⟩ := except_bind_eq_ok.1 h
      obtain rfl := Except.ok.inj h
      dsimp only
      rw [hinstrument]
      exact ⟨rfl, rfl⟩

/-- What an item of a batch on Binance says is what the reply to a request of its own says, if it
names the symbol of an order that is cancelled. -/
theorem binance_item_iff {item : Json}
    (h : Binance.classifyReply venue.catalog .cancelOrder (.json item) requestId = .ok receipt) :
    (∃ r, Binance.classifyReply venue.catalog .cancelOrder (.json item) none = .ok r ∧
        SameReceipt r (hydrateCancelReceipt receipt (target.cancelRequest requestId))) ↔
      requestId = none ∧ NamesSymbol item := by
  obtain ⟨hnone, hid⟩ := binance_classifyReply_requestId (k := none) h
  rw [hnone]
  simp only [Except.ok.injEq, exists_eq_left']
  have hsame : SameReceipt { receipt with requestId := none }
      (hydrateCancelReceipt receipt (target.cancelRequest requestId)) ↔
        requestId = none ∧ receipt.instrumentId = receipt.instrumentId.or (some target.instrumentId) ∧
          receipt.orderId = receipt.orderId.or target.orderId ∧
          receipt.clientOrderId = receipt.clientOrderId.or target.clientOrderId := by
    constructor
    · exact fun hsame => ⟨hid.symm.trans hsame.requestId.symm, hsame.instrumentId, hsame.orderId,
        hsame.clientOrderId⟩
    · rintro ⟨rfl, hinstrument, horder, hclient⟩
      exact ⟨rfl, hinstrument, horder, hclient, hid.symm⟩
  rw [hsame]
  refine and_congr_right fun _ => ?_
  unfold Binance.classifyReply at h
  unfold NamesSymbol
  cases hreported : Binance.reportedError item with
  | some reported =>
    simp only [Payload.value?, Option.bind_some, hreported] at h
    obtain rfl := Except.ok.inj h
    simp [CommandReceipt.plain]
  | none =>
    simp only [Payload.value?, Option.bind_some, hreported] at h
    cases hidentity : Binance.commandIdentity item with
    | none =>
      rw [hidentity] at h
      cases h
    | some identity =>
      rw [hidentity] at h
      obtain ⟨symbol, orderId, clientOrderId⟩ := identity
      obtain ⟨instrumentId, hinstrument, h⟩ := except_bind_eq_ok.1 h
      obtain rfl := Except.ok.inj h
      cases symbol with
      | none =>
        obtain rfl := Except.ok.inj hinstrument
        simp
      | some symbol =>
        obtain ⟨spec, -, hspec⟩ : ∃ spec, True ∧ instrumentId = some spec := by
          unfold Binance.instrumentOf at hinstrument
          cases hfound : requireNativeSymbol .binance venue.catalog symbol with
          | error e => simp [hfound, Except.map, Functor.map] at hinstrument
          | ok spec => exact ⟨_, trivial, by simpa [hfound, eq_comm] using hinstrument⟩
        subst hspec
        simp

/-- The items of a batch on Binance. -/
theorem binance_items_iff (hv : context.venue = .binance)
    (halone : venue.AllAlone context .binance requestId chunk) {payload : Payload}
    (hpayload : venue.payload .binance true (chunk.filterMap (venue.nameOf .binance)) =
      some payload) :
    (∃ rs, classifyBinanceBatchPayload venue.catalog .cancelOrder payload
        (chunk.map fun _ => none) = .ok rs ∧
        List.Forall₂ (venue.SaysTheSame context requestId) chunk rs) ↔
      ∀ t ∈ chunk, requestId = none ∧ ∀ name item, venue.nameOf .binance t = some name →
        venue.binance name = some item → NamesSymbol item := by
  obtain ⟨items, hitems, rfl⟩ := Option.map_eq_some_iff.1 hpayload
  have hall : List.Forall₂ (fun t item => ∃ name, venue.nameOf .binance t = some name ∧
      venue.binance name = some item) chunk items :=
    forall₂_comp halone.named (mapM_eq_some_iff.1 hitems)
  have hlength : items.length = chunk.length := hall.length_eq.symm
  have hclassify : ∀ rs, classifyBinanceBatchPayload venue.catalog .cancelOrder
      (.json (.array items)) (chunk.map fun _ => none) = .ok rs ↔
      List.Forall₂ (fun item r => Binance.classifyReply venue.catalog .cancelOrder (.json item)
        none = .ok r) items rs := by
    intro rs
    unfold classifyBinanceBatchPayload
    simp only [Payload.value?, Option.bind_some, Json.asArray, List.length_map, hlength, ne_eq,
      not_true_eq_false, if_false, zip_map_const none hlength]
    rw [mapM_eq_ok_iff, List.forall₂_map_left_iff]
  simp only [if_true, hclassify]
  refine exists_forall₂_iff hall fun t ht item hitem => ?_
  obtain ⟨name, hname, hitem⟩ := hitem
  obtain ⟨name', receipt, h⟩ := halone t ht
  obtain rfl := Option.some.inj (h.named.symm.trans hname)
  have hclassified := h.classified
  rw [payload_binance, hitem] at hclassified
  simp only [saysTheSame_iff hv h]
  rw [binance_item_iff hclassified]
  refine and_congr_right fun _ => ?_
  constructor
  · intro hnames name item' hname' hitem'
    obtain rfl := Option.some.inj (hname.symm.trans hname')
    obtain rfl := Option.some.inj (hitem.symm.trans hitem')
    exact hnames
  · exact fun hnames => hnames name' item hname hitem

/-! #### Bybit -/

theorem asCode_int64 (code : Int64) : Bybit.asCode (.integer code.toInt) = some code.toInt := by
  have hrange : -2 ^ 63 ≤ code.toInt ∧ code.toInt < 2 ^ 63 := ⟨code.le_toInt, code.toInt_lt⟩
  simp only [Bybit.asCode, Json.asI64, if_pos hrange, Option.some_or]

theorem get?_item (answer : BybitCancel) :
    answer.item.get? "symbol" = answer.symbol.map .string ∧
      answer.item.get? "orderId" = answer.orderId.map .string ∧
      answer.item.get? "orderLinkId" = answer.orderLinkId.map .string := by
  refine ⟨?_, ?_, ?_⟩ <;> simp [BybitCancel.item, Json.get?_object_append]

theorem orderResult_item (answer : BybitCancel) :
    Bybit.orderResult answer.item = (answer.symbol, answer.orderId, answer.orderLinkId) := by
  obtain ⟨hsymbol, horder, hlink⟩ := get?_item answer
  have hoptional : ∀ {key : String} {text : Option String} {fields : List (String × Json)},
      (Json.object fields).get? key = text.map .string →
      Json.optional fields key Json.asStr = some text := by
    intro key text fields hkey
    unfold Json.optional
    rw [hkey]
    cases text <;> rfl
  unfold Bybit.orderResult BybitCancel.item at *
  simp only [Json.record, Option.bind_eq_bind, Option.bind_some, hoptional hsymbol,
    hoptional horder, hoptional hlink, Option.pure_def, Option.getD_some]

/-- The receipt for the reply to a request of its own. -/
theorem bybit_receipt {answer : BybitCancel}
    (h : Bybit.classifyReply venue.catalog .cancelOrder (.json answer.reply) requestId =
      .ok receipt) :
    receipt.requestId = requestId ∧
      if answer.code = 0 then receipt.status = .accepted ∧
        receipt.instrumentId =
          (answer.symbol.bind (resolveNativeSymbol .bybit venue.catalog)).map (·.instrumentId) ∧
        receipt.orderId = answer.orderId.map StringId.mk ∧
        receipt.clientOrderId = answer.orderLinkId.map StringId.mk
      else receipt.status = .rejected ∧ receipt.instrumentId = none ∧ receipt.orderId = none ∧
        receipt.clientOrderId = none := by
  have hcode : ((answer.reply.get? "retCode").bind Bybit.asCode).getD 0 = answer.code.toInt := by
    simp [BybitCancel.reply, asCode_int64]
  have hresult : ((answer.reply.get? "result").or (answer.reply.get? "data")).getD .null =
      answer.item := by
    simp [BybitCancel.reply]
  have hzero : answer.code.toInt = 0 ↔ answer.code = 0 := by
    rw [← Int64.toInt_zero, Int64.toInt_inj]
  unfold Bybit.classifyReply at h
  simp only [hcode, hresult, orderResult_item, ne_eq, hzero] at h
  by_cases hc : answer.code = 0
  · simp only [hc, not_true_eq_false, if_false] at h
    obtain rfl := Except.ok.inj h
    simp [hc, CommandReceipt.plain]
  · simp only [hc, not_false_eq_true, if_true] at h
    obtain rfl := Except.ok.inj h
    simp [hc, CommandReceipt.plain]

/-- What an item of a batch on Bybit says is what the reply to a request of its own says, unless it
is refused with more than the target says. -/
theorem bybit_item_iff {answer : BybitCancel} {value : Json}
    (h : Bybit.classifyReply venue.catalog .cancelOrder (.json answer.reply) requestId =
      .ok receipt) :
    SameReceipt (bybitItemReceipt context.toLiveContext venue.catalog .cancelOrder value
          (target.identity none) (some answer.item) (some answer.extItem))
        (hydrateCancelReceipt receipt (target.cancelRequest requestId)) ↔
      requestId = none ∧ (answer.code ≠ 0 → venue.EchoesTarget target answer) := by
  obtain ⟨hid, hfields⟩ := bybit_receipt h
  obtain ⟨hsymbol, horder, hlink⟩ := get?_item answer
  have hzero : answer.code.toInt = 0 ↔ answer.code = 0 := by
    rw [← Int64.toInt_zero, Int64.toInt_inj]
  have htext : ∀ text : Option String, (text.map Json.string).bind Json.asStr = text := by
    intro text
    cases text <;> rfl
  have hcode : ((answer.extItem.get? "code").bind Bybit.asCode).getD 0 = answer.code.toInt := by
    simp [BybitCancel.extItem, asCode_int64]
  -- the receipt of the item, field by field
  let item := bybitItemReceipt context.toLiveContext venue.catalog .cancelOrder value
    (target.identity none) (some answer.item) (some answer.extItem)
  have hstatus : item.status = if answer.code = 0 then .accepted else .rejected := by
    simp only [item, bybitItemReceipt, Option.bind_some, hcode, hzero]
  have hinstrumentId : item.instrumentId =
      ((answer.symbol.bind (resolveNativeSymbol .bybit venue.catalog)).map
        (·.instrumentId)).or (some target.instrumentId) := by
    simp only [item, bybitItemReceipt, Option.bind_some, hsymbol, htext, OrderTarget.identity]
  have horderId : item.orderId = (answer.orderId.map StringId.mk).or target.orderId := by
    simp only [item, bybitItemReceipt, Option.bind_some, horder, htext, OrderTarget.identity]
  have hclientOrderId : item.clientOrderId =
      (answer.orderLinkId.map StringId.mk).or target.clientOrderId := by
    simp only [item, bybitItemReceipt, Option.bind_some, hlink, htext, OrderTarget.identity]
  by_cases hc : answer.code = 0
  · rw [if_pos hc] at hfields hstatus
    obtain ⟨hs, hi, ho, hl⟩ := hfields
    constructor
    · exact fun hsame => ⟨hid.symm.trans hsame.requestId.symm, fun hne => absurd hc hne⟩
    · rintro ⟨rfl, -⟩
      refine ⟨hstatus.trans hs.symm, ?_, ?_, ?_, hid.symm⟩
      · exact hinstrumentId.trans (by rw [hydrateCancelReceipt, hydrateReceipt, hi]; rfl)
      · exact horderId.trans (by rw [hydrateCancelReceipt, hydrateReceipt, ho]; rfl)
      · exact hclientOrderId.trans (by rw [hydrateCancelReceipt, hydrateReceipt, hl]; rfl)
  · rw [if_neg hc] at hfields hstatus
    obtain ⟨hs, hi, ho, hl⟩ := hfields
    have hydrated : SameReceipt item (hydrateCancelReceipt receipt (target.cancelRequest requestId)) ↔
        requestId = none ∧ item.instrumentId = some target.instrumentId ∧
          item.orderId = target.orderId ∧ item.clientOrderId = target.clientOrderId := by
      constructor
      · intro hsame
        refine ⟨hid.symm.trans hsame.requestId.symm, hsame.instrumentId.trans ?_,
          hsame.orderId.trans ?_, hsame.clientOrderId.trans ?_⟩
        · rw [hydrateCancelReceipt, hydrateReceipt, hi]; rfl
        · rw [hydrateCancelReceipt, hydrateReceipt, ho]; rfl
        · rw [hydrateCancelReceipt, hydrateReceipt, hl]; rfl
      · rintro ⟨rfl, hi', ho', hl'⟩
        refine ⟨hstatus.trans hs.symm, hi'.trans ?_, ho'.trans ?_, hl'.trans ?_, hid.symm⟩
        · rw [hydrateCancelReceipt, hydrateReceipt, hi]; rfl
        · rw [hydrateCancelReceipt, hydrateReceipt, ho]; rfl
        · rw [hydrateCancelReceipt, hydrateReceipt, hl]; rfl
    refine hydrated.trans (and_congr_right fun _ => ?_)
    rw [hinstrumentId, horderId, hclientOrderId]
    constructor
    · rintro ⟨hi', ho', hl'⟩ -
      refine ⟨fun spec hspec => ?_, fun id horderId => ?_, fun id hlinkId => ?_⟩
      · rw [hspec] at hi'
        exact Option.some.inj hi'
      · rw [horderId] at ho'
        exact ho'.symm
      · rw [hlinkId] at hl'
        exact hl'.symm
    · intro hechoes
      obtain ⟨hi', ho', hl'⟩ := hechoes hc
      refine ⟨?_, ?_, ?_⟩
      · cases hspec : answer.symbol.bind (resolveNativeSymbol .bybit venue.catalog) with
        | none => rfl
        | some spec => exact congrArg some (hi' spec hspec)
      · cases hid : answer.orderId with
        | none => rfl
        | some id => exact (ho' id hid).symm
      · cases hid : answer.orderLinkId with
        | none => rfl
        | some id => exact (hl' id hid).symm

/-- The items of a batch on Bybit. -/
theorem bybit_items_iff (hv : context.venue = .bybit)
    (halone : venue.AllAlone context .bybit requestId chunk) {payload : Payload}
    (hpayload : venue.payload .bybit true (chunk.filterMap (venue.nameOf .bybit)) =
      some payload) :
    (∃ rs, classifyBybitBatchPayload context.toLiveContext venue.catalog .cancelOrder payload
        (chunk.map (·.identity none)) = .ok rs ∧
        List.Forall₂ (venue.SaysTheSame context requestId) chunk rs) ↔
      ∀ t ∈ chunk, requestId = none ∧ ∀ name answer, venue.nameOf .bybit t = some name →
        venue.bybit name = some answer → answer.code ≠ 0 → venue.EchoesTarget t answer := by
  obtain ⟨answers, hanswers, rfl⟩ := Option.map_eq_some_iff.1 hpayload
  -- the answers stand in the order of the names
  have hall : List.Forall₂ (fun t answer => ∃ name, venue.nameOf .bybit t = some name ∧
      venue.bybit name = some answer) chunk answers :=
    forall₂_comp halone.named (mapM_eq_some_iff.1 hanswers)
  have hlength : answers.length = chunk.length := hall.length_eq.symm
  let value : Json := .object [("retCode", .integer 0), ("retMsg", .string "OK"),
    ("result", .object [("list", .array (answers.map (·.item)))]),
    ("retExtInfo", .object [("list", .array (answers.map (·.extItem)))])]
  have hclassify : classifyBybitBatchPayload context.toLiveContext venue.catalog .cancelOrder
      (.json value) (chunk.map (·.identity none)) =
      .ok (List.zipWith (fun t answer => bybitItemReceipt context.toLiveContext venue.catalog
        .cancelOrder value (t.identity none) (some answer.item) (some answer.extItem))
        chunk answers) := by
    -- the reply as a whole is a success, and its items decide
    have hcode : ((value.get? "retCode").bind Bybit.asCode).getD 0 = 0 := by
      simp [value, Bybit.asCode, Json.asI64]
    have hresults : listOf value "result" = answers.map (·.item) := by
      simp [listOf, value, Json.asArray]
    have hext : listOf value "retExtInfo" = answers.map (·.extItem) := by
      simp [listOf, value, Json.asArray]
    unfold classifyBybitBatchPayload
    simp only [hcode, hresults, hext, ne_eq, not_true_eq_false, if_false, List.length_map,
      hlength, and_false]
    refine congrArg Except.ok (List.ext_getElem (by simp [hlength]) fun i h₁ h₂ => ?_)
    have hi : i < answers.length := by
      simp only [List.length_zipWith] at h₂
      omega
    simp [hi]
  simp only [if_true]
  rw [hclassify]
  simp only [Except.ok.injEq, exists_eq_left']
  refine forall₂_zipWith_iff (forall₂_and_mem hall) fun t answer hanswer => ?_
  obtain ⟨ht, name, hname, hanswer⟩ := hanswer
  obtain ⟨name', receipt, h⟩ := halone t ht
  obtain rfl := Option.some.inj (h.named.symm.trans hname)
  have hclassified := h.classified
  rw [payload_bybit, hanswer] at hclassified
  rw [saysTheSame_iff hv h, bybit_item_iff hclassified]
  refine and_congr_right fun _ => ?_
  constructor
  · intro hechoes name answer' hname' hanswer'
    obtain rfl := Option.some.inj (hname.symm.trans hname')
    obtain rfl := Option.some.inj (hanswer.symm.trans hanswer')
    exact hechoes
  · exact fun hechoes => hechoes name' answer hname hanswer

/-! #### MEXC -/

theorem mexc_receipt {payload : Payload}
    (h : Mexc.classifyReply .cancelOrder payload requestId = .ok receipt) :
    receipt.instrumentId = none := by
  unfold Mexc.classifyReply at h
  cases payload with
  | text text => cases h
  | json value =>
    obtain rfl := Except.ok.inj h
    rfl

/-- The items of a batch on MEXC do not say which instrument they are about. -/
theorem mexc_items_iff (hv : context.venue = .mexc)
    (halone : venue.AllAlone context .mexc requestId chunk) (hne : chunk ≠ []) (payload : Payload) :
    (∃ rs, classifyMexcBatchPayload .cancelOrder payload (chunk.map fun _ => requestId) = .ok rs ∧
        List.Forall₂ (venue.SaysTheSame context requestId) chunk rs) ↔ ∀ t ∈ chunk, False := by
  obtain ⟨target, targets, rfl⟩ := List.exists_cons_of_ne_nil hne
  constructor
  · rintro ⟨rs, hrs, hsame⟩
    obtain ⟨r, rs, hfirst, -, rfl⟩ := List.forall₂_cons_left_iff.1 hsame
    have hnone : r.instrumentId = none := by
      unfold classifyMexcBatchPayload at hrs
      cases payload with
      | text text => cases hrs
      | json value =>
        dsimp only at hrs
        split at hrs
        · cases hrs
        split at hrs
        · cases hrs
        · obtain ⟨item, -, hitem⟩ := (mem_of_mapM hrs).1 (List.mem_cons_self (a := r))
          exact mexc_receipt hitem
    obtain ⟨name, receipt, h⟩ := halone target (by simp)
    have hinstrument := ((saysTheSame_iff hv h).1 hfirst).instrumentId
    rw [hnone] at hinstrument
    cases hreceipt : receipt.instrumentId <;>
      simp [hydrateCancelReceipt, hydrateReceipt, hreceipt] at hinstrument
  · exact fun hfalse => (hfalse target (by simp)).elim

end Chunk

/-! ### Whole batches -/

section Batch

variable {venue context} {v : Venue} {requestId : Option RequestId}

/-- A batch in chunks has acknowledgements that say something of its targets exactly when each of
its chunks has receipts that do. -/
theorem exists_acks_iff {targets : List OrderTarget} {size : ℕ} (hsize : size ≠ 0)
    {x : List OrderTarget → CommandE (List CommandAck)}
    {names : List OrderTarget → List CancelName}
    {receipts : List OrderTarget → Except MarketError (List CommandReceipt)}
    (hchunk : ∀ chunk ∈ chunks size targets,
      AnswersChunk venue v (·.receipt) (x chunk) (names chunk) (receipts chunk) chunk.length)
    {P : OrderTarget → CommandReceipt → Prop} :
    (∃ acks, Succeeds (venue.reply v) (do return (← (chunks size targets).mapM x).flatten) acks ∧
        List.Forall₂ (fun target ack => P target ack.receipt) targets acks) ↔
      ∀ chunk ∈ chunks size targets, ∃ rs, receipts chunk = .ok rs ∧ List.Forall₂ P chunk rs := by
  constructor
  · rintro ⟨acks, hacks, hP⟩
    obtain ⟨results, hresults, hflat⟩ := succeeds_bind_iff.1 hacks
    obtain rfl := succeeds_pure_iff.1 hflat
    have hall := forall₂_and_mem (succeeds_mapM_iff.1 hresults)
    have hlength : List.Forall₂ (fun chunk acks => chunk.length = acks.length)
        (chunks size targets) results :=
      hall.imp fun chunk acks h => ((hchunk chunk h.1).answered acks h.2).2.symm
    have hpieces := (forall₂_flatten_iff hlength).1 (by rwa [flatten_chunks hsize])
    intro chunk hmem
    obtain ⟨acks, ⟨-, hacks⟩, hP⟩ := exists_of_forall₂ (forall₂_and hall hpieces) hmem
    refine ⟨_, ((hchunk chunk hmem).answered acks hacks).1, ?_⟩
    exact List.forall₂_map_right_iff.2 hP
  · intro h
    obtain ⟨results, hresults⟩ : ∃ results, List.Forall₂ (fun chunk acks =>
        Succeeds (venue.reply v) (x chunk) acks ∧
          List.Forall₂ (fun target ack => P target ack.receipt) chunk acks)
        (chunks size targets) results := by
      refine exists_forall₂_of_forall fun chunk hmem => ?_
      obtain ⟨rs, hrs, hP⟩ := h chunk hmem
      obtain ⟨acks, hacks, rfl⟩ := (hchunk chunk hmem).succeeds rs hrs hP.length_eq.symm
      exact ⟨acks, hacks, List.forall₂_map_right_iff.1 hP⟩
    refine ⟨results.flatten, succeeds_bind_iff.2 ⟨results, ?_, rfl⟩, ?_⟩
    · exact succeeds_mapM_iff.2 (hresults.imp fun _ _ h => h.1)
    · have hpieces := List.rel_flatten (hresults.imp fun _ _ h => h.2)
      rwa [flatten_chunks hsize] at hpieces

/-- Such a batch sends the names of its chunks. -/
theorem received_chunks {targets : List OrderTarget} {size : ℕ}
    {x : List OrderTarget → CommandE (List CommandAck)}
    {names : List OrderTarget → List CancelName}
    {receipts : List OrderTarget → Except MarketError (List CommandReceipt)}
    (hchunk : ∀ chunk ∈ chunks size targets,
      AnswersChunk venue v (·.receipt) (x chunk) (names chunk) (receipts chunk) chunk.length)
    {acks : List CommandAck}
    (h : Succeeds (venue.reply v) (do return (← (chunks size targets).mapM x).flatten) acks) :
    venue.received v (do return (← (chunks size targets).mapM x).flatten) =
      (chunks size targets).flatMap names := by
  obtain ⟨results, hresults, -⟩ := succeeds_bind_iff.1 h
  rw [received_attempt hresults, received_mapM (succeeds_mapM_iff.1 hresults)]
  refine (List.append_nil _).trans ?_
  refine List.flatMap_congr fun chunk hmem => ?_
  obtain ⟨acks, hacks⟩ := exists_of_forall₂ (succeeds_mapM_iff.1 hresults) hmem
  exact (hchunk chunk hmem).received acks hacks

/-- A batch on Binance has acknowledgements that say something of its targets exactly when each of
its requests has receipts that do. -/
theorem exists_groups_acks_iff {targets : List OrderTarget}
    (hnamed : ∀ t ∈ targets, t.orderId.isSome ∨ t.clientOrderId.isSome)
    {names : InstrumentId × List (OrderTarget × ℕ) → List CancelName}
    {receipts : InstrumentId × List (OrderTarget × ℕ) → Except MarketError (List CommandReceipt)}
    (hbatch : ∀ batch ∈ indexedBatches targets, ∃ spec, venue.resolves batch.1 = some spec ∧
      AnswersChunk venue .binance (·.2.receipt) (cancelChunkBinance context spec batch.2)
        (names batch) (receipts batch) batch.2.length)
    {P : OrderTarget → CommandReceipt → Prop} :
    (∃ acks, Succeeds (venue.reply .binance) (do
        let acks ← cancelGroupsBinance context targets
        ofExcept (collectBatchAcks targets.length acks "cancel_orders")) acks ∧
      List.Forall₂ (fun target ack => P target ack.receipt) targets acks) ↔
      ∀ batch ∈ indexedBatches targets, ∃ rs, receipts batch = .ok rs ∧
        List.Forall₂ P (batch.2.map (·.1)) rs := by
  -- the acknowledgements of a run, request by request
  have hrun : ∀ {pairs : List (ℕ × CommandAck)},
      Succeeds (venue.reply .binance) (cancelGroupsBinance context targets) pairs →
      ∃ results, List.Forall₂ (fun batch rs => batch ∈ indexedBatches targets ∧
          receipts batch = .ok (rs.map (·.2.receipt))) (indexedBatches targets) results ∧
        ∃ acks, collectBatchAcks targets.length pairs "cancel_orders" = .ok acks ∧
          (List.Forall₂ (fun target ack => P target ack.receipt) targets acks ↔
            List.Forall₂ (fun batch rs => List.Forall₂
              (fun (p : OrderTarget × ℕ) (q : ℕ × CommandAck) => P p.1 q.2.receipt) batch.2 rs)
              (indexedBatches targets) results) := by
    intro pairs hpairs
    obtain ⟨results, hresults, rfl⟩ := batchAcks_of_succeeds hpairs
    have hpieces : List.Forall₂ (fun batch rs => receipts batch = .ok (rs.map (·.2.receipt)) ∧
        List.Forall₂ (fun (p : OrderTarget × ℕ) (q : ℕ × CommandAck) => p.2 = q.1) batch.2 rs)
        (indexedBatches targets) results := by
      refine (forall₂_and_mem hresults).imp fun batch rs ⟨hmem, spec, hspec, hrs⟩ => ?_
      obtain ⟨spec', hspec', hanswers⟩ := hbatch batch hmem
      obtain rfl := Option.some.inj (hspec'.symm.trans hspec)
      refine ⟨(hanswers.answered rs hrs).1, ?_⟩
      have hplaces : List.Forall₂ (· = ·) (batch.2.map (·.2)) (rs.map (·.1)) := by
        rw [List.forall₂_eq_eq_eq]
        exact (places_cancelChunkBinance hrs).symm
      exact List.forall₂_map_right_iff.1 (List.forall₂_map_left_iff.1 hplaces)
    have hplaces : List.Forall₂ (fun (p : OrderTarget × ℕ) (q : ℕ × CommandAck) => p.2 = q.1)
        ((indexedBatches targets).flatMap (·.2)) results.flatten := by
      rw [List.flatMap_def]
      exact List.rel_flatten (List.forall₂_map_left_iff.2 (hpieces.imp fun _ _ h => h.2))
    obtain ⟨acks, hacks, hiff⟩ := collectBatchAcks_of_perm "cancel_orders"
      (perm_indexedBatches hnamed) hplaces
    refine ⟨results, (forall₂_and_mem hpieces).imp fun _ _ h => ⟨h.1, h.2.1⟩, acks, hacks, ?_⟩
    rw [hiff, List.flatMap_def, forall₂_flatten_iff, List.forall₂_map_left_iff]
    exact List.forall₂_map_left_iff.2 (hpieces.imp fun _ _ h => h.2.length_eq)
  constructor
  · rintro ⟨acks, hacks, hP⟩
    obtain ⟨pairs, hpairs, hcollect⟩ := succeeds_bind_iff.1 hacks
    obtain ⟨results, hresults, acks', hacks', hiff⟩ := hrun hpairs
    obtain rfl := Except.ok.inj (hacks'.symm.trans (succeeds_ofExcept_iff.1 hcollect))
    intro batch hmem
    obtain ⟨rs, ⟨-, hrs⟩, hP⟩ := exists_of_forall₂ (forall₂_and hresults (hiff.1 hP)) hmem
    exact ⟨_, hrs, List.forall₂_map_left_iff.2 (List.forall₂_map_right_iff.2 hP)⟩
  · intro h
    have hne : ∀ group ∈ cancelGroups targets, group.2 ≠ [] :=
      fun group hgroup => (mem_cancelGroups_iff hgroup).1
    have hacked : ∀ batch ∈ indexedBatches targets, ∃ pairs,
        venue.BatchAcks context batch pairs := by
      intro batch hmem
      obtain ⟨rs, hrs, hP⟩ := h batch hmem
      obtain ⟨spec, hspec, hanswers⟩ := hbatch batch hmem
      obtain ⟨pairs, hpairs, -⟩ := hanswers.succeeds rs hrs (by simpa using hP.length_eq.symm)
      exact ⟨pairs, spec, hspec, hpairs⟩
    obtain ⟨pairs, hpairs⟩ := exists_succeeds_groups hne hacked
    obtain ⟨results, hresults, acks, hacks, hiff⟩ := hrun hpairs
    refine ⟨acks, hpairs.attempt (succeeds_ofExcept_iff.2 hacks), hiff.2 ?_⟩
    refine hresults.imp fun batch rs ⟨hmem, hrs⟩ => ?_
    obtain ⟨rs', hrs', hP⟩ := h batch hmem
    obtain rfl := Except.ok.inj (hrs'.symm.trans hrs)
    exact List.forall₂_map_left_iff.1 (List.forall₂_map_right_iff.1 hP)

/-! ### Single cancellations side by side -/

/-- Each target is acknowledged by a cancellation of its own. -/
theorem exists_cancelEach {targets : List OrderTarget}
    (hacked : ∀ target ∈ targets, ∃ ack, Succeeds (venue.reply v)
      (cancelOrder context (target.cancelRequest requestId)) ack) :
    ∃ acks, Succeeds (venue.reply v) (cancelEach context requestId targets) acks ∧
      List.Forall₂ (fun target ack => Succeeds (venue.reply v)
        (cancelOrder context (target.cancelRequest requestId)) ack) targets acks ∧
      (venue.received v (cancelEach context requestId targets)).Perm
        (targets.flatMap fun target => venue.received v
          (cancelOrder context (target.cancelRequest requestId))) := by
  obtain ⟨acks, hacks⟩ := exists_forall₂_of_forall hacked
  have hprograms : List.Forall₂ (fun t a => (exec (venue.reply v) t ()).1 = .ok a)
      ((targets.map fun target => cancelOrder context (target.cancelRequest requestId)).map
        fun c => c.run) acks := by
    rw [List.forall₂_map_left_iff, List.forall₂_map_left_iff]
    exact hacks
  obtain ⟨hvalue, hcalls⟩ := exec_tryJoin (venue.reply v .schedule ()).1 hprograms
  have hschedule : Succeeds (venue.reply v)
      (ExceptT.lift (.perform CommandCall.schedule) : CommandE (List ℕ))
      (venue.reply v .schedule ()).1 := succeeds_perform_iff.2 rfl
  refine ⟨acks, hschedule.attempt hvalue, hacks, ?_⟩
  unfold cancelEach tryJoinAll
  rw [received_attempt hschedule]
  refine (hcalls.flatMap_right venue.receives).trans (.of_eq ?_)
  rw [List.flatMap_assoc, List.flatMap_map, List.flatMap_map]
  rfl

/-- So it is when the targets are cut into chunks. -/
theorem exists_cancelEach_chunks {targets : List OrderTarget} {size : ℕ} (hsize : size ≠ 0)
    (hacked : ∀ target ∈ targets, ∃ ack, Succeeds (venue.reply v)
      (cancelOrder context (target.cancelRequest requestId)) ack) :
    ∃ acks, Succeeds (venue.reply v)
        (do return (← (chunks size targets).mapM (cancelEach context requestId)).flatten) acks ∧
      List.Forall₂ (fun target ack => Succeeds (venue.reply v)
        (cancelOrder context (target.cancelRequest requestId)) ack) targets acks ∧
      (venue.received v
        (do return (← (chunks size targets).mapM (cancelEach context requestId)).flatten)).Perm
        (targets.flatMap fun target => venue.received v
          (cancelOrder context (target.cancelRequest requestId))) := by
  have heach := fun chunk (hchunk : chunk ∈ chunks size targets) =>
    exists_cancelEach fun target htarget => hacked target (mem_of_mem_chunks hchunk htarget)
  obtain ⟨results, hresults⟩ := exists_forall₂_of_forall heach
  have hsucceeds := hresults.imp fun _ _ h => h.1
  refine ⟨results.flatten, (succeeds_mapM_iff.2 hsucceeds).attempt (succeeds_pure _), ?_, ?_⟩
  · have hflat := List.rel_flatten (hresults.imp fun _ _ h => h.2.1)
    rwa [flatten_chunks hsize] at hflat
  · let single (target : OrderTarget) :=
      venue.received v (cancelOrder context (target.cancelRequest requestId))
    have hperm : ((chunks size targets).flatMap fun chunk =>
        venue.received v (cancelEach context requestId chunk)).Perm
        ((chunks size targets).flatMap fun chunk => chunk.flatMap single) := by
      refine List.Perm.flatMap_left _ fun chunk hchunk => ?_
      obtain ⟨acks, -, -, hperm⟩ := exists_of_forall₂ hresults hchunk
      exact hperm
    have hflat : ((chunks size targets).flatMap fun chunk => chunk.flatMap single) =
        targets.flatMap single := by
      conv_rhs => rw [← flatten_chunks hsize targets, List.flatten_eq_flatMap, List.flatMap_assoc]
      rfl
    rw [received_attempt (succeeds_mapM_iff.2 hsucceeds), received_mapM hsucceeds, ← hflat]
    exact (List.Perm.of_eq (List.append_nil _)).trans hperm

/-! ### Each venue -/

variable {request : CancelOrdersRequest} {targets : List OrderTarget}

/-- Cancellations of their own say the same as themselves. -/
theorem saysTheSame_of_each {acks : List CommandAck}
    (h : List.Forall₂ (fun target ack => Succeeds (venue.reply context.venue)
      (cancelOrder context (target.cancelRequest requestId)) ack) targets acks) :
    List.Forall₂ (fun target ack => venue.SaysTheSame context requestId target ack.receipt)
      targets acks :=
  h.imp fun _ ack hack => ⟨ack, hack, .refl _⟩

theorem allAlone_of_acked (hv : context.venue = v)
    (hws : v = .binance → context.wsOrderEntry = false)
    (hacked : ∀ target ∈ targets, ∃ ack, Succeeds (venue.reply v)
      (cancelOrder context (target.cancelRequest requestId)) ack) :
    venue.AllAlone context v requestId targets := by
  intro target htarget
  obtain ⟨ack, hack⟩ := hacked target htarget
  exact cancelsAlone_of_succeeds hv hws hack

theorem AllAlone.received (h : venue.AllAlone context v requestId targets) :
    (targets.flatMap fun target => venue.received v
      (cancelOrder context (target.cancelRequest requestId))) =
      targets.filterMap (venue.nameOf v) := by
  induction targets with
  | nil => rfl
  | cons target targets ih =>
    obtain ⟨name, receipt, halone⟩ := h target (by simp)
    rw [List.flatMap_cons, halone.received, List.filterMap_cons_some halone.named,
      ih fun t ht => h t (by simp [ht])]
    rfl

theorem AllAlone.reaches (h : venue.AllAlone context v requestId targets) (hne : targets ≠ []) :
    venue.Reaches context := by
  obtain ⟨target, htarget⟩ := List.exists_mem_of_ne_nil _ hne
  obtain ⟨name, receipt, halone⟩ := h target htarget
  exact halone.reaches

/-! #### Binance -/

/-- The names in one request of a batch on Binance. -/
def requestNames (venue : CancelVenue) (batch : InstrumentId × List (OrderTarget × ℕ)) :
    List CancelName :=
  (batch.2.map (·.1)).filterMap (venue.nameOf .binance)

/-- The receipts for one request of a batch on Binance. -/
def requestReceipts (venue : CancelVenue) (context : CommandContext)
    (batch : InstrumentId × List (OrderTarget × ℕ)) : Except MarketError (List CommandReceipt) :=
  venue.batchReceipts context .cancelOrder ((batch.2.map (·.1)).map (·.identity none))
    (classifyBinanceBatchPayload · .cancelOrder · ((batch.2.map (·.1)).map fun _ => none))
    (venue.payload .binance true (venue.requestNames batch))

theorem batches_binance (targets : List OrderTarget) :
    batches .binance targets = (indexedBatches targets).map fun batch => batch.2.map (·.1) := by
  rw [indexedBatches, List.map_flatMap]
  refine List.flatMap_congr fun group _ => ?_
  rw [List.map_map]
  rfl

theorem exists_indexedBatch {target : OrderTarget}
    (hnamed : ∀ t ∈ targets, t.orderId.isSome ∨ t.clientOrderId.isSome)
    (htarget : target ∈ targets) :
    ∃ batch ∈ indexedBatches targets, target ∈ batch.2.map (·.1) := by
  obtain ⟨i, hi, rfl⟩ := List.mem_iff_getElem.1 htarget
  have hmem : (targets[i], i) ∈ (indexedBatches targets).flatMap (·.2) :=
    (perm_indexedBatches hnamed).mem_iff.2
      (List.mk_mem_zipIdx_iff_getElem?.2 (List.getElem?_eq_getElem hi))
  obtain ⟨batch, hbatch, hmem⟩ := List.mem_flatMap.1 hmem
  exact ⟨batch, hbatch, List.mem_map.2 ⟨_, hmem, rfl⟩⟩

section Binance

variable (hv : context.venue = .binance)
  (halone : venue.AllAlone context .binance requestId targets)

include hv halone

omit hv in
theorem allAlone_indexedBatch {batch : InstrumentId × List (OrderTarget × ℕ)}
    (hbatch : batch ∈ indexedBatches targets) :
    venue.AllAlone context .binance requestId (batch.2.map (·.1)) := by
  intro t ht
  obtain ⟨p, hp, rfl⟩ := List.mem_map.1 ht
  exact halone _ (List.fst_mem_of_mem_zipIdx ((mem_indexedBatches hbatch).2.1 p hp).1)

omit hv in
/-- With plain ids, a request names its targets, and takes the receipts for them. -/
theorem answersChunk_indexedBatch (hplain : ∀ target ∈ targets, PlainId target)
    {batch : InstrumentId × List (OrderTarget × ℕ)} (hbatch : batch ∈ indexedBatches targets) :
    ∃ spec, venue.resolves batch.1 = some spec ∧
      AnswersChunk venue .binance (·.2.receipt) (cancelChunkBinance context spec batch.2)
        (venue.requestNames batch) (venue.requestReceipts context batch) batch.2.length := by
  obtain ⟨hne, hmem, huniform⟩ := mem_indexedBatches hbatch
  have hsub := allAlone_indexedBatch halone hbatch
  have htargets : ∀ t ∈ batch.2.map (·.1), t ∈ targets ∧ t.instrumentId = batch.1 := by
    intro t ht
    obtain ⟨p, hp, rfl⟩ := List.mem_map.1 ht
    exact ⟨List.fst_mem_of_mem_zipIdx (hmem p hp).1, (hmem p hp).2⟩
  obtain ⟨spec, hspec⟩ : ∃ spec, venue.resolves batch.1 = some spec := by
    obtain ⟨p, hp⟩ := List.exists_mem_of_ne_nil _ hne
    obtain ⟨name, receipt, h⟩ := hsub p.1 (List.mem_map.2 ⟨p, hp, rfl⟩)
    obtain ⟨spec, hspec, -⟩ := nameOf_eq_some_iff.1 h.named
    exact ⟨spec, (hmem p hp).2 ▸ hspec⟩
  have hspecs : ∀ t ∈ batch.2.map (·.1), venue.resolves t.instrumentId = some spec := by
    intro t ht
    rw [(htargets t ht).2]
    exact hspec
  have hcancels : (binanceCancelBatch spec (batch.2.map (·.1))).cancels =
      venue.requestNames batch := by
    rcases huniform with hids | hids
    · refine cancels_batch_ids hspecs hsub.named (by simpa using hne)
        (fun t ht => hplain t (htargets t ht).1) fun t ht => ?_
      obtain ⟨p, hp, rfl⟩ := List.mem_map.1 ht
      exact hids p hp
    · refine cancels_batch_clients hspecs hsub.named fun t ht => ?_
      obtain ⟨p, hp, rfl⟩ := List.mem_map.1 ht
      exact hids p hp
  have hnames : venue.requestNames batch ≠ [] := by
    intro hnil
    have hlength := hsub.named.length_eq
    rw [show (batch.2.map (·.1)).filterMap (venue.nameOf .binance) = [] from hnil] at hlength
    exact hne (by simpa using hlength)
  exact ⟨spec, hspec, answersChunk_cancelChunkBinance hcancels hnames⟩

theorem indexedBatch_says_the_same_iff {batch : InstrumentId × List (OrderTarget × ℕ)}
    (hbatch : batch ∈ indexedBatches targets) :
    (∃ rs, venue.requestReceipts context batch = .ok rs ∧
        List.Forall₂ (venue.SaysTheSame context requestId) (batch.2.map (·.1)) rs) ↔
      (none = requestId ∧ ∀ t ∈ batch.2.map (·.1), venue.Lost .binance t) ∨
        ((∀ t ∈ batch.2.map (·.1), ¬ venue.Lost .binance t) ∧ ∀ t ∈ batch.2.map (·.1),
          requestId = none ∧ ∀ name item, venue.nameOf .binance t = some name →
            venue.binance name = some item → NamesSymbol item) := by
  have hsub := allAlone_indexedBatch halone hbatch
  exact chunk_says_the_same_iff hv hsub (fun payload => binance_items_iff hv hsub)
    (by simpa using (mem_indexedBatches hbatch).1)

omit hv in
/-- A batch that tells the venue to cancel what its targets name names plain orders. -/
theorem plainId_of_perm {v : Venue}
    (hperm : (venue.received v (cancelGroupsBinance context targets)).Perm
      (targets.filterMap (venue.nameOf .binance))) : ∀ target ∈ targets, PlainId target := by
  intro target htarget id hid
  obtain ⟨name, receipt, h⟩ := halone target htarget
  have hplain : PlainName name := plainName_of_mem_groups
    (hperm.mem_iff.2 (List.mem_filterMap.2 ⟨target, htarget, h.named⟩))
  obtain ⟨spec, -, hname⟩ := nameOf_eq_some_iff.1 h.named
  cases halgo : binanceAlgoOrderIdValue id with
  | some algoId =>
    simp only [cancelName, hid, halgo, Option.some.injEq] at hname
    subst hname
    simp [PlainName] at hplain
  | none =>
    simp only [cancelName, hid, halgo, Option.some.injEq] at hname
    subst hname
    exact ⟨rfl, by simpa [PlainName] using hplain⟩

/-- On Binance without the websocket. -/
theorem binance_refine_iff (hw : context.wsOrderEntry = false) (hne : targets ≠ [])
    (hnamed : ∀ t ∈ targets, t.orderId.isSome ∨ t.clientOrderId.isSome) :
    (∃ acks, Succeeds (venue.reply .binance) (sendCancelOrders context requestId targets) acks ∧
        List.Forall₂ (fun target ack => venue.SaysTheSame context requestId target ack.receipt)
          targets acks ∧
        (venue.received .binance (sendCancelOrders context requestId targets)).Perm
          (targets.filterMap (venue.nameOf .binance))) ↔
      requestId = none ∧ (∀ target ∈ targets, PlainId target) ∧
        (∀ batch ∈ batches .binance targets, venue.LostTogether .binance batch) ∧
        ∀ target ∈ targets, ∀ name item, venue.nameOf .binance target = some name →
          venue.binance name = some item → NamesSymbol item := by
  have hsend : sendCancelOrders context requestId targets = (do
      let acks ← cancelGroupsBinance context targets
      ofExcept (collectBatchAcks targets.length acks "cancel_orders")) := by
    have hreaches := halone.reaches hne
    unfold Reaches at hreaches
    rw [hv] at hreaches
    have ho : context.websocketOnly = false := hreaches
    unfold sendCancelOrders
    simp only [hv, hw, ho, Bool.false_eq_true, if_false]
  -- nothing is sent while the acknowledgements are collected
  have hreceived : ∀ {pairs : List (ℕ × CommandAck)},
      Succeeds (venue.reply .binance) (cancelGroupsBinance context targets) pairs →
      venue.received .binance (do
        let acks ← cancelGroupsBinance context targets
        ofExcept (collectBatchAcks targets.length acks "cancel_orders")) =
        venue.received .binance (cancelGroupsBinance context targets) := by
    intro pairs hpairs
    rw [received_attempt hpairs, received_ofExcept, List.append_nil]
  rw [hsend, batches_binance]
  constructor
  · rintro ⟨acks, hacks, hsame, hperm⟩
    obtain ⟨pairs, hpairs, -⟩ := succeeds_bind_iff.1 hacks
    rw [hreceived hpairs] at hperm
    -- the ids tell from what has arrived, the rest from the receipts of each batch
    have hplain := plainId_of_perm halone hperm
    have hall := (exists_groups_acks_iff hnamed
      fun batch hbatch => answersChunk_indexedBatch halone hplain hbatch).1 ⟨acks, hacks, hsame⟩
    have hbatch := fun batch hbatch =>
      (indexedBatch_says_the_same_iff hv halone hbatch).1 (hall batch hbatch)
    refine ⟨?_, hplain, fun batch hmem => ?_, fun target htarget name item hname hitem => ?_⟩
    · obtain ⟨target, htarget⟩ := List.exists_mem_of_ne_nil _ hne
      obtain ⟨batch, hmem, ht⟩ := exists_indexedBatch hnamed htarget
      rcases hbatch batch hmem with ⟨hk, -⟩ | ⟨-, hitems⟩
      · exact hk.symm
      · exact (hitems target ht).1
    · obtain ⟨request, hrequest, rfl⟩ := List.mem_map.1 hmem
      rcases hbatch request hrequest with ⟨-, hlost⟩ | ⟨hnone, -⟩
      · exact .inl hlost
      · exact .inr hnone
    · obtain ⟨batch, hmem, ht⟩ := exists_indexedBatch hnamed htarget
      rcases hbatch batch hmem with ⟨-, hlost⟩ | ⟨-, hitems⟩
      · obtain ⟨name', hname', hlost⟩ := hlost target ht
        obtain rfl := Option.some.inj (hname.symm.trans hname')
        rw [payload_binance, hitem] at hlost
        cases hlost
      · exact (hitems target ht).2 name item hname hitem
  · rintro ⟨hnone, hplain, hlost, hitems⟩
    have hanswers := fun batch (hbatch : batch ∈ indexedBatches targets) =>
      answersChunk_indexedBatch halone hplain hbatch
    have hall : ∀ batch ∈ indexedBatches targets, ∃ rs,
        venue.requestReceipts context batch = .ok rs ∧
          List.Forall₂ (venue.SaysTheSame context requestId) (batch.2.map (·.1)) rs := by
      intro batch hbatch
      refine (indexedBatch_says_the_same_iff hv halone hbatch).2 ?_
      rcases hlost _ (List.mem_map.2 ⟨batch, hbatch, rfl⟩) with hlost | hlost
      · exact .inl ⟨hnone.symm, hlost⟩
      · refine .inr ⟨hlost, fun t ht => ⟨hnone, hitems t ?_⟩⟩
        obtain ⟨p, hp, rfl⟩ := List.mem_map.1 ht
        exact List.fst_mem_of_mem_zipIdx ((mem_indexedBatches hbatch).2.1 p hp).1
    obtain ⟨acks, hacks, hsame⟩ := (exists_groups_acks_iff hnamed hanswers).2 hall
    obtain ⟨pairs, hpairs, -⟩ := succeeds_bind_iff.1 hacks
    refine ⟨acks, hacks, hsame, ?_⟩
    have hnames : venue.received .binance (cancelGroupsBinance context targets) =
        (indexedBatches targets).flatMap venue.requestNames := by
      refine received_groups (fun batch hbatch spec r hspec hr => ?_) hpairs
      obtain ⟨spec', hspec', hanswers⟩ := hanswers batch hbatch
      obtain rfl := Option.some.inj (hspec.symm.trans hspec')
      exact hanswers.received r hr
    -- what arrives are the names of all batches, which are those of the orders up to their order
    have hflat : (indexedBatches targets).flatMap venue.requestNames =
        (((indexedBatches targets).flatMap (·.2)).map (·.1)).filterMap
          (venue.nameOf .binance) := by
      rw [List.map_flatMap, List.filterMap_flatMap]
      rfl
    rw [hreceived hpairs, hnames, hflat]
    have hperm := ((perm_indexedBatches hnamed).map (·.1)).filterMap (venue.nameOf .binance)
    rwa [List.zipIdx_map_fst] at hperm

end Binance

/-! #### Bybit and MEXC -/

/-- Chunks of targets that are cancelled alone. -/
theorem allAlone_chunk {size : ℕ} (halone : venue.AllAlone context v requestId targets)
    {chunk : List OrderTarget} (hchunk : chunk ∈ chunks size targets) :
    venue.AllAlone context v requestId chunk :=
  fun t ht => halone t (mem_of_mem_chunks hchunk ht)

theorem filterMap_nameOf_ne_nil {chunk : List OrderTarget}
    (halone : venue.AllAlone context v requestId chunk) (hne : chunk ≠ []) :
    chunk.filterMap (venue.nameOf v) ≠ [] := by
  intro hnil
  have hlength := halone.named.length_eq
  rw [hnil] at hlength
  exact hne (by simpa using hlength)

theorem flatMap_chunks_names {size : ℕ} (hsize : size ≠ 0) :
    ((chunks size targets).flatMap fun chunk => chunk.filterMap (venue.nameOf v)) =
      targets.filterMap (venue.nameOf v) := by
  conv_rhs => rw [← flatten_chunks hsize targets, List.flatten_eq_flatMap, List.filterMap_flatMap]
  rfl

theorem bybitChunk_says_the_same_iff {chunk : List OrderTarget} (hv : context.venue = .bybit)
    (halone : venue.AllAlone context .bybit requestId chunk) (hne : chunk ≠ []) :
    (∃ rs, venue.batchReceipts context .cancelOrder (chunk.map (·.identity none))
        (classifyBybitBatchPayload context.toLiveContext · .cancelOrder ·
          (chunk.map (·.identity none)))
        (venue.payload .bybit true (chunk.filterMap (venue.nameOf .bybit))) = .ok rs ∧
        List.Forall₂ (venue.SaysTheSame context requestId) chunk rs) ↔
      (none = requestId ∧ ∀ t ∈ chunk, venue.Lost .bybit t) ∨
        ((∀ t ∈ chunk, ¬ venue.Lost .bybit t) ∧ ∀ t ∈ chunk, requestId = none ∧
          ∀ name answer, venue.nameOf .bybit t = some name → venue.bybit name = some answer →
            answer.code ≠ 0 → venue.EchoesTarget t answer) :=
  chunk_says_the_same_iff hv halone (fun _ => bybit_items_iff hv halone) hne

theorem bybit_refine_iff (hv : context.venue = .bybit)
    (halone : venue.AllAlone context .bybit requestId targets) (hne : targets ≠ []) :
    (∃ acks, Succeeds (venue.reply .bybit) (sendCancelOrders context requestId targets) acks ∧
        List.Forall₂ (fun target ack => venue.SaysTheSame context requestId target ack.receipt)
          targets acks ∧
        (venue.received .bybit (sendCancelOrders context requestId targets)).Perm
          (targets.filterMap (venue.nameOf .bybit))) ↔
      requestId = none ∧ (∀ batch ∈ batches .bybit targets, venue.LostTogether .bybit batch) ∧
        ∀ target ∈ targets, ∀ name answer, venue.nameOf .bybit target = some name →
          venue.bybit name = some answer → answer.code ≠ 0 → venue.EchoesTarget target answer := by
  have hsend : sendCancelOrders context requestId targets = (do
      return (← (chunks 20 targets).mapM (cancelChunkBybit context)).flatten) := by
    unfold sendCancelOrders
    rw [hv]
  have hroute : (venue.route context).isSome := by
    have hreaches := halone.reaches hne
    unfold Reaches at hreaches
    rwa [hv] at hreaches
  have hanswers := fun chunk (hchunk : chunk ∈ chunks 20 targets) =>
    answersChunk_cancelChunkBybit hroute (allAlone_chunk halone hchunk).named
      (filterMap_nameOf_ne_nil (allAlone_chunk halone hchunk) (ne_nil_of_mem_chunks hchunk))
  have hchunks := fun chunk (hchunk : chunk ∈ chunks 20 targets) =>
    bybitChunk_says_the_same_iff hv (allAlone_chunk halone hchunk) (ne_nil_of_mem_chunks hchunk)
  have hreceived : ∀ {acks : List CommandAck}, Succeeds (venue.reply .bybit) (do
      return (← (chunks 20 targets).mapM (cancelChunkBybit context)).flatten) acks →
      (venue.received .bybit (do
        return (← (chunks 20 targets).mapM (cancelChunkBybit context)).flatten)).Perm
        (targets.filterMap (venue.nameOf .bybit)) := fun hacks =>
    .of_eq ((received_chunks hanswers hacks).trans (flatMap_chunks_names (by decide)))
  -- the acknowledgements say the same when those of each chunk do
  have hiff := exists_acks_iff (P := venue.SaysTheSame context requestId) (by decide) hanswers
  rw [hsend]
  constructor
  · rintro ⟨acks, hacks, hsame, -⟩
    have hall := hiff.1 ⟨acks, hacks, hsame⟩
    have hchunk := fun chunk hmem => (hchunks chunk hmem).1 (hall chunk hmem)
    refine ⟨?_, fun chunk hmem => ?_, fun target htarget name answer hname hanswer => ?_⟩
    · obtain ⟨target, htarget⟩ := List.exists_mem_of_ne_nil _ hne
      obtain ⟨chunk, hmem, ht⟩ := exists_mem_chunks (show 20 ≠ 0 by decide) htarget
      rcases hchunk chunk hmem with ⟨hk, -⟩ | ⟨-, hitems⟩
      · exact hk.symm
      · exact (hitems target ht).1
    · rcases hchunk chunk hmem with ⟨-, hlost⟩ | ⟨hnone, -⟩
      · exact .inl hlost
      · exact .inr hnone
    · obtain ⟨chunk, hmem, ht⟩ := exists_mem_chunks (show 20 ≠ 0 by decide) htarget
      rcases hchunk chunk hmem with ⟨-, hlost⟩ | ⟨-, hitems⟩
      · obtain ⟨name', hname', hlost⟩ := hlost target ht
        obtain rfl := Option.some.inj (hname.symm.trans hname')
        rw [payload_bybit, hanswer] at hlost
        cases hlost
      · exact (hitems target ht).2 name answer hname hanswer
  · rintro ⟨hnone, hlost, hechoes⟩
    obtain ⟨acks, hacks, hsame⟩ := hiff.2 (fun chunk hmem => by
      refine (hchunks chunk hmem).2 ?_
      rcases hlost chunk hmem with hlost | hlost
      · exact .inl ⟨hnone.symm, hlost⟩
      · exact .inr ⟨hlost, fun t ht => ⟨hnone, hechoes t (mem_of_mem_chunks hmem ht)⟩⟩)
    exact ⟨acks, hacks, hsame, hreceived hacks⟩

theorem mexcChunk_says_the_same_iff {chunk : List OrderTarget} (hv : context.venue = .mexc)
    (halone : venue.AllAlone context .mexc requestId chunk) (hne : chunk ≠ []) :
    (∃ rs, venue.batchReceipts context .cancelOrder (chunk.map (·.identity requestId))
        (fun _ payload => classifyMexcBatchPayload .cancelOrder payload
          (chunk.map fun _ => requestId))
        (venue.payload .mexc true (chunk.filterMap (venue.nameOf .mexc))) = .ok rs ∧
        List.Forall₂ (venue.SaysTheSame context requestId) chunk rs) ↔
      ∀ t ∈ chunk, venue.Lost .mexc t := by
  rw [chunk_says_the_same_iff hv halone (fun payload _ => mexc_items_iff hv halone hne payload) hne]
  constructor
  · rintro (⟨-, hlost⟩ | ⟨-, hfalse⟩)
    · exact hlost
    · exact fun t ht => (hfalse t ht).elim
  · exact fun hlost => .inl ⟨rfl, hlost⟩

/-- On MEXC, when the targets are all named alike. -/
theorem mexc_refine_iff (hv : context.venue = .mexc)
    (halone : venue.AllAlone context .mexc requestId targets) (hne : targets ≠ [])
    (hmixed : ¬ Mixed targets) :
    (∃ acks, Succeeds (venue.reply .mexc) (sendCancelOrders context requestId targets) acks ∧
        List.Forall₂ (fun target ack => venue.SaysTheSame context requestId target ack.receipt)
          targets acks ∧
        (venue.received .mexc (sendCancelOrders context requestId targets)).Perm
          (targets.filterMap (venue.nameOf .mexc))) ↔
      ∀ target ∈ targets, venue.Lost .mexc target := by
  have ho : context.websocketOnly = false := by
    have hreaches := halone.reaches hne
    unfold Reaches at hreaches
    rwa [hv] at hreaches
  -- the targets are named by order ids, or by client order ids
  obtain ⟨byOrderId, hids, hsend⟩ : ∃ byOrderId : Bool,
      (∀ target ∈ targets, target.orderId.isSome = byOrderId) ∧
      sendCancelOrders context requestId targets = (do
        return (← (chunks 50 targets).mapM
          (cancelChunkMexc context requestId byOrderId)).flatten) := by
    by_cases hall : ∀ target ∈ targets, target.orderId.isSome
    · refine ⟨true, hall, ?_⟩
      have hids : targets.all (·.orderId.isSome) = true := List.all_eq_true.2 hall
      unfold sendCancelOrders
      simp only [hv, ho, hids, Bool.false_eq_true, if_false, Bool.not_true, Bool.false_and]
    · have hclients : ∀ target ∈ targets, target.orderId = none ∧ target.clientOrderId.isSome := by
        by_contra hclients
        exact hmixed ⟨hall, hclients⟩
      refine ⟨false, fun t ht => by simp [(hclients t ht).1], ?_⟩
      have hids : targets.all (·.orderId.isSome) = false := by
        obtain ⟨target, htarget⟩ := List.exists_mem_of_ne_nil _ hne
        exact List.all_eq_false.2 ⟨target, htarget, by simp [(hclients target htarget).1]⟩
      have hexternal : (targets.all fun target =>
          target.orderId.isNone && target.clientOrderId.isSome) = true := by
        refine List.all_eq_true.2 fun t ht => ?_
        simp [(hclients t ht).1, (hclients t ht).2]
      unfold sendCancelOrders
      simp only [hv, ho, hids, hexternal, Bool.false_eq_true, if_false, Bool.not_true,
        Bool.and_false]
  have hanswers := fun chunk (hchunk : chunk ∈ chunks 50 targets) =>
    answersChunk_cancelChunkMexc context requestId (allAlone_chunk halone hchunk).named
      (filterMap_nameOf_ne_nil (allAlone_chunk halone hchunk) (ne_nil_of_mem_chunks hchunk))
      fun t ht => hids t (mem_of_mem_chunks hchunk ht)
  have hchunks := fun chunk (hchunk : chunk ∈ chunks 50 targets) =>
    mexcChunk_says_the_same_iff hv (allAlone_chunk halone hchunk) (ne_nil_of_mem_chunks hchunk)
  have hiff := exists_acks_iff (P := venue.SaysTheSame context requestId) (by decide) hanswers
  rw [hsend]
  constructor
  · rintro ⟨acks, hacks, hsame, -⟩ target htarget
    obtain ⟨chunk, hmem, ht⟩ := exists_mem_chunks (show 50 ≠ 0 by decide) htarget
    exact (hchunks chunk hmem).1 (hiff.1 ⟨acks, hacks, hsame⟩ chunk hmem) target ht
  · intro hlost
    obtain ⟨acks, hacks, hsame⟩ := hiff.2 fun chunk hmem =>
      (hchunks chunk hmem).2 fun t ht => hlost t (mem_of_mem_chunks hmem ht)
    exact ⟨acks, hacks, hsame, .of_eq
      ((received_chunks hanswers hacks).trans (flatMap_chunks_names (by decide)))⟩

/-! ### The result -/

/-- A valid batch of several targets goes to the venue as a batch. -/
theorem cancelOrders_eq_send (hvalid : validateCancelOrders request = .ok ())
    (hlength : request.orders.length ≠ 1) :
    cancelOrders context request = sendCancelOrders context request.requestId request.orders := by
  unfold cancelOrders
  rw [hvalid]
  rcases horders : request.orders with _ | ⟨single, _ | ⟨second, rest⟩⟩
  · rfl
  · simp [horders] at hlength
  · rfl

end Batch

/-- For a valid batch whose targets `cancel_order` acknowledges, the acknowledgements of the batch
are those of its targets exactly when it is `CancelledAlike`. -/
theorem cancelsRefine_iff {request : CancelOrdersRequest}
    (hvalid : validateCancelOrders request = .ok ())
    (hacked : ∀ target ∈ request.orders, ∃ ack, Succeeds (venue.reply context.venue)
      (cancelOrder context (target.cancelRequest request.requestId)) ack) :
    venue.CancelsRefine context request ↔ venue.CancelledAlike context request := by
  obtain ⟨hne, hnamed⟩ := of_validateCancelOrders hvalid
  unfold CancelsRefine CancelledAlike
  -- a list of one order is cancelled as such
  by_cases hlength : request.orders.length = 1
  · obtain ⟨target, htarget⟩ := List.length_eq_one_iff.1 hlength
    obtain ⟨ack, hack⟩ := hacked target (by simp [htarget])
    refine ⟨fun _ => .inl hlength, fun _ => ⟨[ack], ?_, ?_, ?_⟩⟩
    · unfold cancelOrders
      rw [hvalid, htarget]
      exact Succeeds.attempt (a := ()) rfl (hack.attempt (succeeds_pure _))
    · rw [htarget]
      exact .cons ⟨ack, hack, .refl _⟩ .nil
    · unfold cancelOrders
      rw [hvalid, htarget]
      show (venue.received _ (do return [← cancelOrder _ _])).Perm _
      rw [received_attempt hack, List.flatMap_singleton]
      exact .of_eq (List.append_nil _)
  rw [cancelOrders_eq_send hvalid hlength]
  simp only [hlength, false_or]
  unfold BatchAlike
  cases hv : context.venue with
  | binance =>
    rw [hv] at hacked
    dsimp only
    -- over the websocket Binance cancels one by one
    cases hw : context.wsOrderEntry with
    | true =>
      obtain ⟨acks, hacks, hall, hperm⟩ :=
        exists_cancelEach_chunks (show 10 ≠ 0 by decide) hacked
      have hsend : sendCancelOrders context request.requestId request.orders = (do
          return (← (chunks 10 request.orders).mapM
            (cancelEach context request.requestId)).flatten) := by
        unfold sendCancelOrders
        simp only [hv, hw, if_true]
      rw [hsend]
      refine ⟨fun _ => .inl rfl, fun _ => ⟨acks, hacks, ?_, hperm⟩⟩
      exact saysTheSame_of_each (by rwa [hv])
    | false =>
      have halone := allAlone_of_acked hv (fun _ => hw) hacked
      rw [halone.received, binance_refine_iff hv halone hw hne hnamed]
      simp
  | bybit =>
    rw [hv] at hacked
    have halone := allAlone_of_acked hv (fun h => (nomatch h)) hacked
    rw [halone.received]
    exact bybit_refine_iff hv halone hne
  | mexc =>
    rw [hv] at hacked
    have halone := allAlone_of_acked hv (fun h => (nomatch h)) hacked
    -- ids of both kinds make MEXC cancel one by one
    by_cases hmixed : Mixed request.orders
    · obtain ⟨acks, hacks, hall, hperm⟩ := exists_cancelEach hacked
      have hsend : sendCancelOrders context request.requestId request.orders =
          cancelEach context request.requestId request.orders := by
        have ho : context.websocketOnly = false := by
          have hreaches := halone.reaches hne
          unfold Reaches at hreaches
          rwa [hv] at hreaches
        have hids : request.orders.all (·.orderId.isSome) = false := by
          rw [Bool.eq_false_iff, ne_eq, List.all_eq_true]
          exact hmixed.1
        have hexternal : (request.orders.all fun target =>
            target.orderId.isNone && target.clientOrderId.isSome) = false := by
          rw [Bool.eq_false_iff, ne_eq, List.all_eq_true]
          exact fun hclients => hmixed.2 fun t ht => by simpa using hclients t ht
        unfold sendCancelOrders
        simp [hv, ho, hids, hexternal]
      rw [hsend]
      refine ⟨fun _ => .inl hmixed, fun _ => ⟨acks, hacks, ?_, hperm⟩⟩
      exact saysTheSame_of_each (by rwa [hv])
    · rw [halone.received, mexc_refine_iff hv halone hne hmixed]
      simp [hmixed]

/-! ### Two orders of MEXC -/

/-- A venue that knows one instrument, and cancels what it is asked to cancel. -/
def cancelsAll (spec : InstrumentSpec) : CancelVenue where
  base q := (staticReply spec (.error lostReply) q ()).1
  catalog := .new [spec]
  session := false
  binance name := some (.object [("symbol", .string spec.nativeSymbol), ("orderId", .integer 0),
    ("clientOrderId", .string name.id)])
  bybit name := some ⟨0, "OK", some spec.nativeSymbol, some name.id, none⟩
  mexc name := some (.object [("orderId", .string name.id), ("errorCode", .integer 0),
    ("errorMsg", .string "success")])

/-- Two orders, by their ids. -/
def twoCancels (spec : InstrumentSpec) (requestId : Option RequestId) : CancelOrdersRequest where
  requestId := requestId
  orders := [⟨spec.instrumentId, some ⟨"101"⟩, none⟩, ⟨spec.instrumentId, some ⟨"102"⟩, none⟩]

theorem acked_twoCancels : ∀ target ∈ (twoCancels mexcBtc none).orders,
    ∃ ack, Succeeds ((cancelsAll mexcBtc).reply .mexc)
      (cancelOrder (restContext .mexc) (target.cancelRequest none)) ack := by
  intro target htarget
  rcases List.mem_cons.1 htarget with rfl | htarget
  · exact ⟨_, rfl⟩
  · obtain rfl := List.mem_singleton.1 htarget
    exact ⟨_, rfl⟩

theorem cancelsRefine_twoCancels_iff :
    (cancelsAll mexcBtc).CancelsRefine (restContext .mexc) (twoCancels mexcBtc none) ↔
      (cancelsAll mexcBtc).CancelledAlike (restContext .mexc) (twoCancels mexcBtc none) :=
  cancelsRefine_iff (cancelsAll mexcBtc) (restContext .mexc) rfl acked_twoCancels

/-- The acknowledgements of two orders that MEXC has cancelled do not say which instrument they are
about. -/
theorem mexc_batch_without_instruments :
    ¬ (cancelsAll mexcBtc).CancelsRefine (restContext .mexc) (twoCancels mexcBtc none) := by
  rintro ⟨acks, hacks, hsame, hperm⟩
  have hsend : cancelOrders (restContext .mexc) (twoCancels mexcBtc none) =
      sendCancelOrders (restContext .mexc) none (twoCancels mexcBtc none).orders :=
    cancelOrders_eq_send rfl (by decide)
  have halone : (cancelsAll mexcBtc).AllAlone (restContext .mexc) .mexc none
      (twoCancels mexcBtc none).orders :=
    allAlone_of_acked rfl (fun h => (nomatch h)) acked_twoCancels
  have hmixed : ¬ Mixed (twoCancels mexcBtc none).orders := by
    rintro ⟨hids, -⟩
    refine hids fun target htarget => ?_
    rcases List.mem_cons.1 htarget with rfl | htarget
    · rfl
    · obtain rfl := List.mem_singleton.1 htarget
      rfl
  rw [hsend] at hacks hperm
  have hlost := (mexc_refine_iff rfl halone (by decide) hmixed).1
    ⟨acks, hacks, hsame, hperm.trans (.of_eq halone.received)⟩
  obtain ⟨name, -, hlost⟩ := hlost _ (List.mem_cons_self)
  simp [payload, cancelsAll] at hlost

end CancelVenue

end BatMarkets
