import BatMarkets.Commands.CancelVenue

/-!
# Batches at a venue that answers cancellations

The request of a chunk sends the names of its targets to the venue, and takes a receipt for each of
the answers; if the reply is lost, the receipts say so, and what the targets say.

## Main results

* `answersChunk_cancelChunkBybit`, `answersChunk_cancelChunkMexc`, `answersChunk_cancelChunkBinance`
  : the acknowledgements of a chunk are the receipts for the answers to its names.
* `exists_succeeds_groups`, `received_groups` : those of a batch on Binance are those of its chunks,
  which are chunks of the groups of its targets.
-/

namespace BatMarkets

open CommandM Interleaving Ordered Prog Wire

/-! ### Lists in pieces -/

section Pieces

variable {α β : Type} {R : α → β → Prop}

theorem forall₂_flatten_iff {ls : List (List α)} {ms : List (List β)}
    (hlength : List.Forall₂ (fun l m => l.length = m.length) ls ms) :
    List.Forall₂ R ls.flatten ms.flatten ↔ List.Forall₂ (List.Forall₂ R) ls ms := by
  induction hlength with
  | nil => simp
  | @cons l m ls ms hlm hrest ih =>
    rw [List.flatten_cons, List.flatten_cons, List.forall₂_cons, ← ih]
    constructor
    · intro h
      have htake := List.forall₂_take_append _ m ms.flatten h
      have hdrop := List.forall₂_drop_append _ m ms.flatten h
      rw [← hlm, List.take_left] at htake
      rw [← hlm, List.drop_left] at hdrop
      exact ⟨htake, hdrop⟩
    · rintro ⟨h, hrest⟩
      exact List.rel_append h hrest

theorem forall₂_eq_map_iff {f : α → β} {xs : List α} {ys : List β} :
    List.Forall₂ (fun x y => y = f x) xs ys ↔ ys = xs.map f := by
  induction xs generalizing ys with
  | nil => simp
  | cons x xs ih =>
    cases ys with
    | nil => simp
    | cons y ys => simp [ih]

theorem forall₂_and {S : α → β → Prop} {xs : List α} {ys : List β} (h : List.Forall₂ R xs ys)
    (h' : List.Forall₂ S xs ys) : List.Forall₂ (fun x y => R x y ∧ S x y) xs ys := by
  induction h with
  | nil => exact .nil
  | cons hxy hrest ih =>
    cases h' with
    | cons hxy' hrest' => exact .cons ⟨hxy, hxy'⟩ (ih hrest')

theorem exists_of_forall₂ {xs : List α} {ys : List β} (h : List.Forall₂ R xs ys) {x : α}
    (hx : x ∈ xs) : ∃ y, R x y := by
  induction h with
  | nil => cases hx
  | cons hxy hrest ih =>
    rcases List.mem_cons.1 hx with rfl | hx
    · exact ⟨_, hxy⟩
    · exact ih hx

theorem exists_forall₂_of_forall {xs : List α} (h : ∀ x ∈ xs, ∃ y, R x y) :
    ∃ ys, List.Forall₂ R xs ys := by
  induction xs with
  | nil => exact ⟨[], .nil⟩
  | cons x xs ih =>
    obtain ⟨y, hy⟩ := h x (by simp)
    obtain ⟨ys, hys⟩ := ih fun x' hx' => h x' (by simp [hx'])
    exact ⟨y :: ys, .cons hy hys⟩

theorem forall₂_mem {xs : List α} {ys : List β} (h : List.Forall₂ R xs ys) :
    List.Forall₂ (fun x y => x ∈ xs ∧ y ∈ ys ∧ R x y) xs ys := by
  induction h with
  | nil => exact .nil
  | cons hxy hrest ih =>
    refine .cons ⟨by simp, by simp, hxy⟩ (ih.imp fun x y hmem => ?_)
    exact ⟨by simp [hmem.1], by simp [hmem.2.1], hmem.2.2⟩

theorem lookup_of_mem {α β : Type} [DecidableEq α] {pairs : List (α × β)} {p : α × β}
    (hnodup : (pairs.map (·.1)).Nodup) (hp : p ∈ pairs) : pairs.lookup p.1 = some p.2 := by
  induction pairs with
  | nil => cases hp
  | cons q pairs ih =>
    obtain ⟨hq, hnodup⟩ := List.nodup_cons.1 hnodup
    rw [List.lookup_cons]
    rcases List.mem_cons.1 hp with rfl | hp
    · rw [beq_self_eq_true]
    · have hne : (p.1 == q.1) = false := by
        rw [beq_eq_false_iff_ne]
        intro heq
        exact hq (List.mem_map.2 ⟨p, hp, heq⟩)
      rw [hne]
      exact ih hnodup hp

end Pieces

namespace CancelVenue

/-! ### Chunks -/

section Chunks

variable {venue : CancelVenue} {context : CommandContext} {v : Venue}
  {operation : CommandOperation} {identities : List BatchIdentity} {classifier : BatchClassifier}
  {request : RestCommand} {frame : WsCommand} {receipts : List CommandReceipt}
  {transport : CommandTransport} {acks : List CommandAck}

theorem received_mapM {α β : Type} {f : α → CommandE β} {as : List α} {bs : List β}
    (h : List.Forall₂ (fun a b => Succeeds (venue.reply v) (f a) b) as bs) :
    venue.received v (as.mapM f) = as.flatMap fun a => venue.received v (f a) := by
  unfold received
  rw [(succeeds_mapM_of h).2, List.flatMap_assoc]

/-- The receipts for a chunk, from the reply to it. -/
def batchReceipts (venue : CancelVenue) (context : CommandContext) (operation : CommandOperation)
    (identities : List BatchIdentity) (classifier : BatchClassifier) :
    Option Payload → Except MarketError (List CommandReceipt)
  | some payload => classifier venue.catalog payload
  | none => .ok (identities.map (unknownCommandReceipt context operation))

theorem succeeds_sendBatchRest_iff (hnames : request.cancels ≠ []) :
    Succeeds (venue.reply v) (sendBatchRest context operation identities classifier request)
        receipts ↔
      venue.batchReceipts context operation identities classifier
        (venue.payload v request.isBatch request.cancels) = .ok receipts := by
  unfold sendBatchRest
  rw [succeeds_bind_iff]
  simp only [succeeds_perform_iff, exists_eq_left, reply, answer, hnames, if_false]
  cases venue.payload v request.isBatch request.cancels with
  | some payload => exact succeeds_ofExcept_iff
  | none =>
    have hlost : isUncertainCommandError lostReply = true := by decide
    dsimp only
    rw [if_pos hlost, succeeds_pure_iff, batchReceipts, Except.ok.injEq, eq_comm]

theorem received_ofExcept {α : Type} (r : Except MarketError α) :
    venue.received v (ofExcept r) = [] := by
  cases r <;> rfl

theorem received_sendBatchRest :
    venue.received v (sendBatchRest context operation identities classifier request) =
      request.cancels := by
  unfold sendBatchRest
  have hreply : Succeeds (venue.reply v) (CommandM.rest request)
      (venue.reply v (.rest request) ()).1 := succeeds_perform_iff.2 rfl
  rw [received_attempt hreply]
  have hrest : venue.received v (CommandM.rest request) = request.cancels := List.append_nil _
  rw [hrest]
  generalize (venue.reply v (.rest request) ()).1 = r
  obtain ⟨reply, catalog⟩ := r
  cases reply with
  | ok payload => exact (congrArg _ (received_ofExcept _)).trans (List.append_nil _)
  | error e =>
    dsimp only
    split
    · exact List.append_nil _
    · exact List.append_nil _

/-- Over the websocket of Bybit, or else over REST, a chunk takes its receipts. -/
theorem succeeds_sendBatch_iff {unsupported : String} (hframe : frame.cancels = request.cancels)
    (hbatch : frame.isBatch = request.isBatch) (hnames : request.cancels ≠ []) :
    Succeeds (venue.reply .bybit)
        (sendBatch context unsupported operation identities classifier frame request)
        (receipts, transport) ↔
      venue.route context = some transport ∧
        venue.batchReceipts context operation identities classifier
          (venue.payload .bybit request.isBatch request.cancels) = .ok receipts := by
  -- without a session the request goes over HTTP
  have hfallback : Succeeds (venue.reply .bybit) (do
      return (← sendBatchRest context operation identities classifier request,
        CommandTransport.rest)) (receipts, transport) ↔
      some CommandTransport.rest = some transport ∧
        venue.batchReceipts context operation identities classifier
          (venue.payload .bybit request.isBatch request.cancels) = .ok receipts := by
    rw [succeeds_with_iff, succeeds_sendBatchRest_iff hnames, Option.some.injEq, and_comm, eq_comm]
  unfold sendBatch route
  by_cases hw : context.wsOrderEntry = true
  · rw [if_pos hw, succeeds_bind_iff]
    simp only [succeeds_perform_iff, exists_eq_left, reply, answer, hframe, hnames, if_false,
      hbatch, framed, hw, Bool.true_and]
    cases venue.session with
    | true =>
      simp only [if_true]
      cases venue.payload .bybit request.isBatch request.cancels with
      | some payload =>
        dsimp only
        rw [succeeds_with_iff, succeeds_ofExcept_iff, Option.some.injEq, and_comm, eq_comm]
        rfl
      | none =>
        dsimp only
        rw [succeeds_pure_iff, batchReceipts, Prod.mk.injEq, Option.some.injEq, Except.ok.injEq,
          and_comm, eq_comm, @eq_comm _ receipts]
    | false =>
      simp only [Bool.false_eq_true, if_false]
      by_cases ho : context.websocketOnly = true
      · rw [if_pos ho, if_pos ho]
        exact ⟨fun h => absurd h (not_succeeds_throw _), fun h => absurd h.1 (by simp)⟩
      · rw [if_neg ho, if_neg ho]
        exact hfallback
  · rw [if_neg hw]
    simp only [hw, Bool.false_and, Bool.false_eq_true, if_false]
    by_cases ho : context.websocketOnly = true
    · rw [if_pos ho, if_pos ho]
      refine ⟨fun h => ?_, fun h => absurd h.1 (by simp)⟩
      obtain ⟨_, hthrow, -⟩ := succeeds_bind_iff.1 h
      exact absurd hthrow (not_succeeds_throw _)
    · rw [if_neg ho, if_neg ho]
      exact hfallback

theorem received_sendBatch {unsupported : String} (hframe : frame.cancels = request.cancels)
    (hbatch : frame.isBatch = request.isBatch) (hnames : request.cancels ≠ [])
    (h : Succeeds (venue.reply .bybit)
      (sendBatch context unsupported operation identities classifier frame request)
      (receipts, transport)) :
    venue.received .bybit
      (sendBatch context unsupported operation identities classifier frame request) =
        request.cancels := by
  obtain ⟨hroute, -⟩ := (succeeds_sendBatch_iff hframe hbatch hnames).1 h
  have hreply : Succeeds (venue.reply .bybit) (CommandM.ws frame)
      (venue.reply .bybit (.ws frame) ()).1 := succeeds_perform_iff.2 rfl
  have hws : venue.received .bybit (CommandM.ws frame) =
      if venue.session then request.cancels else [] := by
    rw [← hframe]
    exact List.append_nil _
  have hfallback : venue.received .bybit (do
      return (← sendBatchRest context operation identities classifier request,
        CommandTransport.rest)) = request.cancels := by
    obtain ⟨receipts, hreceipts⟩ : ∃ receipts, Succeeds (venue.reply .bybit)
        (sendBatchRest context operation identities classifier request) receipts :=
      ⟨receipts, (succeeds_sendBatchRest_iff hnames).2
        ((succeeds_sendBatch_iff hframe hbatch hnames).1 h).2⟩
    rw [received_with hreceipts, received_sendBatchRest]
  unfold sendBatch route at *
  by_cases hw : context.wsOrderEntry = true
  · rw [if_pos hw, received_attempt hreply, hws]
    simp only [reply, answer, hframe, hnames, if_false, hbatch, framed]
    rw [hw, Bool.true_and] at hroute
    cases hsession : venue.session with
    | true =>
      simp only [if_true]
      cases venue.payload .bybit request.isBatch request.cancels with
      | some payload =>
        dsimp only
        cases hclassified : classifier venue.catalog payload <;> exact List.append_nil _
      | none => exact List.append_nil _
    | false =>
      simp only [Bool.false_eq_true, if_false, List.nil_append]
      by_cases ho : context.websocketOnly = true
      · simp [hsession, ho] at hroute
      · rw [if_neg ho]
        exact hfallback
  · rw [if_neg hw]
    by_cases ho : context.websocketOnly = true
    · simp [hw, ho] at hroute
    · rw [if_neg ho]
      exact hfallback

/-- Passing receipts on acknowledges them. -/
theorem succeeds_finishChunk_iff {what : String} :
    Succeeds (venue.reply v) (finishChunk what receipts identities operation transport) acks ↔
      receipts.length = identities.length ∧
        acks = receipts.map fun receipt => ⟨receipt, transport, venue.now⟩ := by
  have hitem : ∀ (item : CommandReceipt × BatchIdentity) (ack : CommandAck),
      Succeeds (venue.reply v) (cacheAndEmitReceipt operation transport item) ack ↔
        ack = ⟨item.1, transport, venue.now⟩ := by
    rintro ⟨receipt, identity⟩ ack
    rw [← succeeds_applyCommandReceipt_iff (v := v)]
    unfold cacheAndEmitReceipt
    dsimp only
    cases identity.instrumentId with
    | none => exact Iff.rfl
    | some instrumentId =>
      refine succeeds_bind_iff.trans ?_
      constructor
      · rintro ⟨_, -, h⟩
        exact h
      · exact fun h => ⟨(), succeeds_cachePendingUnknown _ _ _ _ _, h⟩
  unfold finishChunk
  by_cases hlength : receipts.length = identities.length
  · have hfirst : (receipts.zip identities).map Prod.fst = receipts :=
      List.map_fst_zip hlength.le
    simp only [hlength, ne_eq, not_true_eq_false, if_false, true_and]
    rw [cacheAndEmitBatchReceipts_eq]
    have hmap : receipts.map (fun receipt => (⟨receipt, transport, venue.now⟩ : CommandAck)) =
        (receipts.zip identities).map fun item => ⟨item.1, transport, venue.now⟩ := by
      conv_lhs => rw [← hfirst, List.map_map]
      rfl
    rw [succeeds_mapM_iff, hmap, ← forall₂_eq_map_iff]
    constructor
    · exact List.Forall₂.imp fun item ack h => (hitem item ack).1 h
    · exact List.Forall₂.imp fun item ack h => (hitem item ack).2 h
  · simp only [hlength, ne_eq, not_false_eq_true, if_true, false_and, iff_false]
    intro h
    obtain ⟨_, hthrow, -⟩ := succeeds_bind_iff.1 h
    exact absurd hthrow (not_succeeds_throw _)

theorem received_finishChunk (what : String) :
    venue.received v (finishChunk what receipts identities operation transport) = [] :=
  received_of_local (yields_finishChunk (fun _ _ h => h) _ _ _).always

/-- A program sends these names to the venue, and ends with results for these receipts, if there
are as many as it needs. -/
structure AnswersChunk {γ : Type} (venue : CancelVenue) (v : Venue) (receiptOf : γ → CommandReceipt)
    (x : CommandE (List γ)) (names : List CancelName)
    (receipts : Except MarketError (List CommandReceipt)) (size : ℕ) : Prop where
  succeeds : ∀ rs, receipts = .ok rs → rs.length = size →
    ∃ results, Succeeds (venue.reply v) x results ∧ results.map receiptOf = rs
  answered : ∀ results, Succeeds (venue.reply v) x results →
    receipts = .ok (results.map receiptOf) ∧ results.length = size
  received : ∀ results, Succeeds (venue.reply v) x results → venue.received v x = names

theorem AnswersChunk.of_attempt {γ δ : Type} {receiptOf : γ → CommandReceipt}
    {x : CommandE δ} {f : δ → CommandE (List γ)} {d : δ} {names : List CancelName}
    {rs : Except MarketError (List CommandReceipt)} {size : ℕ} (hx : Succeeds (venue.reply v) x d)
    (hlocal : venue.received v x = [])
    (h : AnswersChunk venue v receiptOf (f d) names rs size) :
    AnswersChunk venue v receiptOf (x >>= f) names rs size where
  succeeds r hr hsize := by
    obtain ⟨results, hresults, hmap⟩ := h.succeeds r hr hsize
    exact ⟨results, hx.attempt hresults, hmap⟩
  answered results hresults := h.answered results ((succeeds_attempt_iff hx).1 hresults)
  received results hresults := by
    rw [received_attempt hx, hlocal, List.nil_append]
    exact h.received results ((succeeds_attempt_iff hx).1 hresults)

/-- A chunk sent over REST. -/
theorem answersChunk_rest {what : String} {names : List CancelName} {size : ℕ}
    (hrest : request.cancels = names) (hne : names ≠ [])
    (hbatch : venue.payload v request.isBatch names = venue.payload v true names)
    (hsize : identities.length = size) :
    AnswersChunk venue v (·.receipt) (do
        let receipts ← sendBatchRest context operation identities classifier request
        finishChunk what receipts identities operation transport)
      names (venue.batchReceipts context operation identities classifier
        (venue.payload v true names)) size := by
  subst hrest hsize
  rw [← hbatch]
  constructor
  case succeeds =>
    intro rs hrs hsize
    refine ⟨_, ((succeeds_sendBatchRest_iff hne).2 hrs).attempt
      (succeeds_finishChunk_iff.2 ⟨hsize, rfl⟩), ?_⟩
    rw [List.map_map]
    exact List.map_id' rs
  case answered =>
    intro acks hacks
    obtain ⟨rs, hrs, hacks⟩ := succeeds_bind_iff.1 hacks
    obtain ⟨hsize, rfl⟩ := succeeds_finishChunk_iff.1 hacks
    refine ⟨?_, by rw [List.length_map, hsize]⟩
    rw [(succeeds_sendBatchRest_iff hne).1 hrs, List.map_map]
    exact congrArg _ (List.map_id' rs).symm
  case received =>
    intro acks hacks
    obtain ⟨rs, hrs, hacks⟩ := succeeds_bind_iff.1 hacks
    rw [received_attempt hrs, received_sendBatchRest, received_finishChunk, List.append_nil]

/-- A chunk sent over the websocket of Bybit, or else over REST. -/
theorem answersChunk_bybit {what unsupported : String} {names : List CancelName} {size : ℕ}
    (hframe : frame.cancels = names) (hrest : request.cancels = names) (hne : names ≠ [])
    (hbatch : request.isBatch = true) (hframed : frame.isBatch = true)
    (hsize : identities.length = size) (hroute : (venue.route context).isSome) :
    AnswersChunk venue .bybit (·.receipt) (do
        let (receipts, transport) ← sendBatch context unsupported operation identities classifier
          frame request
        finishChunk what receipts identities operation transport)
      names (venue.batchReceipts context operation identities classifier
        (venue.payload .bybit true names)) size := by
  subst hrest hsize
  rw [← hbatch] at hframed ⊢
  constructor
  case succeeds =>
    intro rs hrs hsize
    obtain ⟨transport, htransport⟩ := Option.isSome_iff_exists.1 hroute
    have hsend : Succeeds (venue.reply .bybit) (sendBatch context unsupported operation identities
        classifier frame request) (rs, transport) :=
      (succeeds_sendBatch_iff hframe hframed hne).2 ⟨htransport, hrs⟩
    refine ⟨_, hsend.attempt (succeeds_finishChunk_iff.2 ⟨hsize, rfl⟩), ?_⟩
    rw [List.map_map]
    exact List.map_id' rs
  case answered =>
    intro acks hacks
    obtain ⟨⟨rs, transport⟩, hrs, hacks⟩ := succeeds_bind_iff.1 hacks
    obtain ⟨hsize, rfl⟩ := succeeds_finishChunk_iff.1 hacks
    refine ⟨?_, by rw [List.length_map, hsize]⟩
    rw [((succeeds_sendBatch_iff hframe hframed hne).1 hrs).2, List.map_map]
    exact congrArg _ (List.map_id' rs).symm
  case received =>
    intro acks hacks
    obtain ⟨⟨rs, transport⟩, hrs, hacks⟩ := succeeds_bind_iff.1 hacks
    rw [received_attempt hrs, received_sendBatch hframe hframed hne hrs]
    exact (congrArg _ (received_finishChunk _)).trans (List.append_nil _)

/-- The results with the places they are for. -/
theorem AnswersChunk.zip {x : CommandE (List CommandAck)} {names : List CancelName}
    {rs : Except MarketError (List CommandReceipt)} {places : List ℕ}
    (h : AnswersChunk venue v (·.receipt) x names rs places.length) :
    AnswersChunk venue v (·.2.receipt) (do return places.zip (← x)) names rs places.length := by
  have hmap : ∀ acks : List CommandAck, acks.length = places.length →
      (places.zip acks).map (·.2.receipt) = acks.map (·.receipt) := by
    intro acks hlength
    rw [← Function.comp_def, ← List.map_map, List.map_snd_zip hlength.le]
  constructor
  case succeeds =>
    intro r hr hsize
    obtain ⟨acks, hacks, hreceipts⟩ := h.succeeds r hr hsize
    refine ⟨_, hacks.attempt (succeeds_pure _), ?_⟩
    rw [hmap acks (h.answered acks hacks).2, hreceipts]
  case answered =>
    intro results hresults
    obtain ⟨acks, hacks, hzip⟩ := succeeds_bind_iff.1 hresults
    obtain rfl := succeeds_pure_iff.1 hzip
    obtain ⟨hreceipts, hsize⟩ := h.answered acks hacks
    rw [hmap acks hsize, List.length_zip, hsize, Nat.min_self]
    exact ⟨hreceipts, rfl⟩
  case received =>
    intro results hresults
    obtain ⟨acks, hacks, -⟩ := succeeds_bind_iff.1 hresults
    rw [received_attempt hacks, h.received acks hacks]
    exact List.append_nil _

end Chunks

/-! ### The chunks of a venue -/

section Venues

variable {venue : CancelVenue} {context : CommandContext} {spec : InstrumentSpec}
  {chunk : List OrderTarget} {names : List CancelName}

/-- The names of the targets, in order. -/
abbrev Named (venue : CancelVenue) (v : Venue) : List OrderTarget → List CancelName → Prop :=
  List.Forall₂ fun target name => venue.nameOf v target = some name

theorem nameOf_eq_some_iff {v : Venue} {target : OrderTarget} {name : CancelName} :
    venue.nameOf v target = some name ↔
      ∃ spec, venue.resolves target.instrumentId = some spec ∧
        cancelName v spec target = some name := by
  simp [nameOf, Option.bind_eq_some_iff]

/-- A request has an object for each target, with its name. -/
theorem exists_objects {v : Venue} {f : OrderTarget → CommandE Json}
    (hnamed : Named venue v chunk names) {P : OrderTarget → Prop}
    (hall : ∀ target ∈ chunk, P target)
    (hf : ∀ target name, venue.nameOf v target = some name → P target →
      ∃ object, Succeeds (venue.reply v) (f target) object ∧ cancelNames object = [name])
    (hlocal : ∀ target, Yields (fun _ q => q.Local) (fun _ => True) (f target)) :
    ∃ objects, Succeeds (venue.reply v) (chunk.mapM f) objects ∧
      venue.received v (chunk.mapM f) = [] ∧ objects.flatMap cancelNames = names := by
  have hreceived : venue.received v (chunk.mapM f) = [] :=
    received_of_local (Yields.mapM fun target _ => hlocal target).always
  suffices h : ∃ objects, Succeeds (venue.reply v) (chunk.mapM f) objects ∧
      objects.flatMap cancelNames = names by
    obtain ⟨objects, hobjects, hcancels⟩ := h
    exact ⟨objects, hobjects, hreceived, hcancels⟩
  clear hreceived
  induction hnamed with
  | nil => exact ⟨[], rfl, rfl⟩
  | @cons target name chunk names hname hrest ih =>
    obtain ⟨object, hobject, hcancels⟩ := hf target name hname (hall target (by simp))
    obtain ⟨objects, hobjects, hrest⟩ := ih fun t ht => hall t (by simp [ht])
    refine ⟨object :: objects, ?_, ?_⟩
    · rw [List.mapM_cons]
      exact hobject.attempt (hobjects.attempt (succeeds_pure _))
    · rw [List.flatMap_cons, hcancels, hrest]
      rfl

theorem answersChunk_cancelChunkBybit (hroute : (venue.route context).isSome)
    (hnamed : Named venue .bybit chunk names) (hne : names ≠ []) :
    AnswersChunk venue .bybit (·.receipt) (cancelChunkBybit context chunk) names
      (venue.batchReceipts context .cancelOrder (chunk.map (·.identity none))
        (classifyBybitBatchPayload context.toLiveContext · .cancelOrder ·
          (chunk.map (·.identity none))) (venue.payload .bybit true names)) chunk.length := by
  have hobject : ∀ target name, venue.nameOf .bybit target = some name → True →
      ∃ object, Succeeds (venue.reply .bybit) (do
        let spec ← commandSpec context target.instrumentId
        let order ← ofExcept (appendBybitOrderIdentity [("symbol", spec.nativeSymbol)]
          target.orderId target.clientOrderId)
        return bodyToObject order) object ∧ cancelNames object = [name] := by
    intro target name hname _
    obtain ⟨spec, hspec, hname⟩ := nameOf_eq_some_iff.1 hname
    obtain ⟨pairs, hpairs⟩ : ∃ pairs, appendBybitOrderIdentity [("symbol", spec.nativeSymbol)]
        target.orderId target.clientOrderId = .ok pairs := by
      obtain ⟨instrumentId, orderId, clientOrderId⟩ := target
      cases orderId with
      | some id => exact ⟨_, rfl⟩
      | none =>
        cases clientOrderId with
        | some id => exact ⟨_, rfl⟩
        | none => cases hname
    obtain ⟨name', hname', hcancels⟩ := cancelNames_bybit (.inl rfl) hpairs
    obtain rfl := Option.some.inj (hname'.symm.trans hname)
    refine ⟨bodyToObject pairs, ?_, hcancels⟩
    exact (succeeds_commandSpec_iff.2 hspec).attempt
      ((succeeds_ofExcept_iff.2 hpairs).attempt (succeeds_pure _))
  obtain ⟨objects, hobjects, hlocal, hcancels⟩ := exists_objects hnamed (fun _ _ => trivial)
    hobject fun target => (yields_commandSpec (fun _ _ h => h) _).attempt fun spec _ =>
      (yields_ofExcept fun _ _ => trivial).attempt fun _ _ => yields_pure trivial
  refine .of_attempt hobjects hlocal (answersChunk_bybit ?_ ?_ hne ?_ ?_ ?_ hroute)
  · rw [← hcancels]
    simp [WsCommand.cancels, itemsOf, Json.asArray]
  · rw [← hcancels]
    simp [RestCommand.cancels, itemsOf, Json.asArray]
  · simp [RestCommand.isBatch]
  · simp [WsCommand.isBatch]
  · exact List.length_map _

/-- The request of a chunk on MEXC names its targets. -/
theorem exists_mexc_body {byOrderId : Bool} (hnamed : Named venue .mexc chunk names)
    (hids : ∀ target ∈ chunk, target.orderId.isSome = byOrderId) :
    ∃ path body, Succeeds (venue.reply .mexc) (mexcCancelChunkBody context byOrderId chunk)
        (path, body) ∧
      venue.received .mexc (mexcCancelChunkBody context byOrderId chunk) = [] ∧
      RestCommand.cancels ⟨.post, path, body, "mexc.cancel_orders"⟩ = names := by
  cases byOrderId with
  | true =>
    refine ⟨_, _, rfl, rfl, ?_⟩
    have hnames : ((chunk.filterMap (·.orderId)).map fun id => idValue id.asStr).map (fun id =>
        (⟨none, "orderId", Mexc.valueToIdString id⟩ : CancelName)) = names := by
      induction hnamed with
      | nil => rfl
      | @cons target name chunk names hname hrest ih =>
        obtain ⟨spec, -, hname⟩ := nameOf_eq_some_iff.1 hname
        obtain ⟨id, hid⟩ := Option.isSome_iff_exists.1 (hids target (by simp))
        obtain rfl := Option.some.inj ((by simp [cancelName, hid] : cancelName .mexc spec target =
          some ⟨none, "orderId", Mexc.valueToIdString (idValue id.asStr)⟩).symm.trans hname)
        rw [List.filterMap_cons_some hid]
        exact congrArg _ (ih fun t ht => hids t (by simp [ht]))
    rw [← hnames]
    simp [RestCommand.cancels, itemsOf, Json.asArray]
  | false =>
    have hobject : ∀ target name, venue.nameOf .mexc target = some name →
        target.orderId.isSome = false →
        ∃ object, Succeeds (venue.reply .mexc) (do
          let spec ← commandSpec context target.instrumentId
          return Json.object [("symbol", .string spec.nativeSymbol),
            ("externalOid", .string ((target.clientOrderId.map (·.asStr)).getD ""))]) object ∧
          cancelNames object = [name] := by
      intro target name hname hid
      obtain ⟨spec, hspec, hname⟩ := nameOf_eq_some_iff.1 hname
      obtain ⟨instrumentId, orderId, clientOrderId⟩ := target
      obtain rfl : orderId = none := by simpa using hid
      cases clientOrderId with
      | none => cases hname
      | some id =>
        obtain rfl := Option.some.inj hname
        refine ⟨_, (succeeds_commandSpec_iff.2 hspec).attempt (succeeds_pure _), ?_⟩
        simp [cancelNames, fieldsOf, orderKeys, symbolIn, Json.asStr, clientKey]
    obtain ⟨objects, hobjects, hlocal, hcancels⟩ := exists_objects hnamed hids hobject
      fun target => (yields_commandSpec (fun _ _ h => h) _).attempt fun _ _ => yields_pure trivial
    refine ⟨"/api/v1/private/order/batch_cancel_with_external", .array objects, ?_, ?_, ?_⟩
    · unfold mexcCancelChunkBody
      rw [if_neg Bool.false_ne_true]
      exact hobjects.attempt (succeeds_pure _)
    · unfold mexcCancelChunkBody
      rw [if_neg Bool.false_ne_true, received_attempt hobjects, hlocal]
      rfl
    · rw [← hcancels]
      simp [RestCommand.cancels, itemsOf, Json.asArray]

variable (context) in
theorem answersChunk_cancelChunkMexc (requestId : Option RequestId) {byOrderId : Bool}
    (hnamed : Named venue .mexc chunk names) (hne : names ≠ [])
    (hids : ∀ target ∈ chunk, target.orderId.isSome = byOrderId) :
    AnswersChunk venue .mexc (·.receipt) (cancelChunkMexc context requestId byOrderId chunk) names
      (venue.batchReceipts context .cancelOrder (chunk.map (·.identity requestId))
        (fun _ payload => classifyMexcBatchPayload .cancelOrder payload
          (chunk.map fun _ => requestId)) (venue.payload .mexc true names)) chunk.length := by
  obtain ⟨path, body, hbody, hlocal, hcancels⟩ := exists_mexc_body hnamed hids
  exact .of_attempt hbody hlocal (answersChunk_rest hcancels hne rfl (List.length_map _))

/-- The order id of the target, if it has one, is that of a plain order, and can be put on a list
without quotes. -/
def PlainId (target : OrderTarget) : Prop :=
  ∀ id, target.orderId = some id → binanceAlgoOrderIdValue id = none ∧ ',' ∉ id.asStr.toList

/-- A chunk of plain orders with ids names them on the list of ids. -/
theorem cancels_batch_ids (hspec : ∀ t ∈ chunk, venue.resolves t.instrumentId = some spec)
    (hnamed : Named venue .binance chunk names) (hne : chunk ≠ [])
    (hplain : ∀ t ∈ chunk, PlainId t) (hids : ∀ t ∈ chunk, t.orderId.isSome = true) :
    (binanceCancelBatch spec chunk).cancels = names := by
  have hhead : (chunk.head?.bind (·.orderId)).isSome = true := by
    obtain ⟨t, ts, rfl⟩ := List.exists_cons_of_ne_nil hne
    exact hids t (by simp)
  have hlisted : listedIds (orderIdList (chunk.filterMap (·.orderId))) =
      (chunk.filterMap (·.orderId)).map (·.asStr) := by
    refine listedIds_orderIdList ?_ ?_
    · obtain ⟨t, ts, rfl⟩ := List.exists_cons_of_ne_nil hne
      obtain ⟨id, hid⟩ := Option.isSome_iff_exists.1 (hids t (by simp))
      simp [hid]
    · intro id hid
      obtain ⟨t, ht, hid⟩ := List.mem_filterMap.1 hid
      exact (hplain t ht id hid).2
  have hnames : ((chunk.filterMap (·.orderId)).map (·.asStr)).map
      (fun id => (⟨some spec.nativeSymbol, "orderId", id⟩ : CancelName)) = names := by
    clear hhead hlisted hne
    induction hnamed with
    | nil => rfl
    | @cons target name chunk names hname hrest ih =>
      obtain ⟨found, hfound, hname⟩ := nameOf_eq_some_iff.1 hname
      obtain rfl := Option.some.inj (hfound.symm.trans (hspec target (by simp)))
      obtain ⟨id, hid⟩ := Option.isSome_iff_exists.1 (hids target (by simp))
      have hself : cancelName .binance found target =
          some ⟨some found.nativeSymbol, "orderId", id.asStr⟩ := by
        simp [cancelName, hid, (hplain target (by simp) id hid).1]
      obtain rfl := Option.some.inj (hself.symm.trans hname)
      rw [List.filterMap_cons_some hid]
      exact congrArg _ (ih (fun t ht => hspec t (by simp [ht])) (fun t ht => hplain t (by simp [ht]))
        fun t ht => hids t (by simp [ht]))
  rw [← hnames]
  simp [RestCommand.cancels, binanceCancelBatch, listedCancels, hhead, hlisted, symbolIn, itemsOf,
    Json.asStr]

/-- A chunk of orders without ids names them on the list of client order ids. -/
theorem cancels_batch_clients (hspec : ∀ t ∈ chunk, venue.resolves t.instrumentId = some spec)
    (hnamed : Named venue .binance chunk names) (hids : ∀ t ∈ chunk, t.orderId = none) :
    (binanceCancelBatch spec chunk).cancels = names := by
  have hhead : (chunk.head?.bind (·.orderId)).isSome = false := by
    cases chunk with
    | nil => rfl
    | cons t ts => simp [hids t (by simp)]
  have hnames : (chunk.filterMap (·.clientOrderId)).map
      (fun id => (⟨some spec.nativeSymbol, "origClientOrderId", id.asStr⟩ : CancelName)) =
        names := by
    clear hhead
    induction hnamed with
    | nil => rfl
    | @cons target name chunk names hname hrest ih =>
      obtain ⟨found, hfound, hname⟩ := nameOf_eq_some_iff.1 hname
      obtain rfl := Option.some.inj (hfound.symm.trans (hspec target (by simp)))
      cases hclient : target.clientOrderId with
      | none => simp [cancelName, hids target (by simp), hclient] at hname
      | some id =>
        have hself : cancelName .binance found target =
            some ⟨some found.nativeSymbol, "origClientOrderId", id.asStr⟩ := by
          simp [cancelName, hids target (by simp), hclient, clientKey]
        obtain rfl := Option.some.inj (hself.symm.trans hname)
        rw [List.filterMap_cons_some hclient]
        exact congrArg _ (ih (fun t ht => hspec t (by simp [ht])) fun t ht => hids t (by simp [ht]))
  rw [← hnames]
  simp [RestCommand.cancels, binanceCancelBatch, listedCancels, hhead, symbolIn, itemsOf,
    Json.asStr, Json.asArray, List.filterMap_map, Function.comp_def]

theorem answersChunk_cancelChunkBinance {chunk : List (OrderTarget × ℕ)}
    (hcancels : (binanceCancelBatch spec (chunk.map (·.1))).cancels = names) (hne : names ≠ []) :
    AnswersChunk venue .binance (·.2.receipt) (cancelChunkBinance context spec chunk) names
      (venue.batchReceipts context .cancelOrder ((chunk.map (·.1)).map (·.identity none))
        (classifyBinanceBatchPayload · .cancelOrder · ((chunk.map (·.1)).map fun _ => none))
        (venue.payload .binance true names)) chunk.length := by
  have hplaces : (chunk.map (·.2)).length = chunk.length := List.length_map _
  unfold cancelChunkBinance
  dsimp only
  rw [← hplaces, ← LawfulMonad.bind_assoc]
  exact .zip (answersChunk_rest hcancels hne (by simp [RestCommand.isBatch, binanceCancelBatch])
    (by simp))

/-- The results of a chunk are for the places of its targets. -/
theorem places_cancelChunkBinance {chunk : List (OrderTarget × ℕ)} {pairs : List (ℕ × CommandAck)}
    (h : Succeeds (venue.reply .binance) (cancelChunkBinance context spec chunk) pairs) :
    pairs.map (·.1) = chunk.map (·.2) := by
  unfold cancelChunkBinance at h
  obtain ⟨receipts, -, h⟩ := succeeds_bind_iff.1 h
  obtain ⟨acks, hacks, h⟩ := succeeds_bind_iff.1 h
  obtain rfl := succeeds_pure_iff.1 h
  obtain ⟨hsize, rfl⟩ := succeeds_finishChunk_iff.1 hacks
  refine List.map_fst_zip ?_
  simp only [List.length_map] at hsize ⊢
  omega

/-! ### The groups of Binance -/

/-- The targets of a group that go into one request, with their places. -/
def indexedBatches (targets : List OrderTarget) : List (InstrumentId × List (OrderTarget × ℕ)) :=
  (cancelGroups targets).flatMap fun group => (chunks 10 group.2).map fun batch => (group.1, batch)

/-- The acknowledgements of one request. -/
def BatchAcks (venue : CancelVenue) (context : CommandContext)
    (batch : InstrumentId × List (OrderTarget × ℕ)) (pairs : List (ℕ × CommandAck)) : Prop :=
  ∃ spec, venue.resolves batch.1 = some spec ∧
    Succeeds (venue.reply .binance) (cancelChunkBinance context spec batch.2) pairs

theorem batchAcks_of_succeeds {targets : List OrderTarget} {pairs : List (ℕ × CommandAck)}
    (h : Succeeds (venue.reply .binance) (cancelGroupsBinance context targets) pairs) :
    ∃ results, List.Forall₂ (venue.BatchAcks context) (indexedBatches targets) results ∧
      pairs = results.flatten := by
  have hgroups : ∀ {groups : List (InstrumentId × List (OrderTarget × ℕ))}
      {results : List (List (ℕ × CommandAck))},
      List.Forall₂ (fun group r => Succeeds (venue.reply .binance)
        (cancelGroupBinance context group) r) groups results →
      ∃ pieces, List.Forall₂ (venue.BatchAcks context)
        (groups.flatMap fun group => (chunks 10 group.2).map fun batch => (group.1, batch)) pieces ∧
        results.flatten = pieces.flatten := by
    intro groups results hall
    induction hall with
    | nil => exact ⟨[], .nil, rfl⟩
    | @cons group r groups results hgroup hrest ih =>
      obtain ⟨pieces, hpieces, hflat⟩ := ih
      obtain ⟨spec, hspec, hgroup⟩ := succeeds_bind_iff.1 hgroup
      obtain ⟨rs, hrs, hgroup⟩ := succeeds_bind_iff.1 hgroup
      obtain rfl := succeeds_pure_iff.1 hgroup
      refine ⟨rs ++ pieces, ?_, ?_⟩
      · rw [List.flatMap_cons]
        refine List.rel_append ?_ hpieces
        refine List.forall₂_map_left_iff.2 ((succeeds_mapM_iff.1 hrs).imp fun batch r hr => ?_)
        exact ⟨spec, succeeds_commandSpec_iff.1 hspec, hr⟩
      · rw [List.flatten_cons, hflat, List.flatten_append]
  unfold cancelGroupsBinance at h
  obtain ⟨results, hresults, h⟩ := succeeds_bind_iff.1 h
  obtain rfl := succeeds_pure_iff.1 h
  exact hgroups (succeeds_mapM_iff.1 hresults)

theorem exists_succeeds_groups {targets : List OrderTarget}
    (hne : ∀ group ∈ cancelGroups targets, group.2 ≠ [])
    (h : ∀ batch ∈ indexedBatches targets, ∃ pairs, venue.BatchAcks context batch pairs) :
    ∃ pairs, Succeeds (venue.reply .binance) (cancelGroupsBinance context targets) pairs := by
  have hgroup : ∀ group ∈ cancelGroups targets, ∃ r, Succeeds (venue.reply .binance)
      (cancelGroupBinance context group) r := by
    intro group hgroup
    have hbatch : ∀ batch ∈ chunks 10 group.2, ∃ pairs,
        venue.BatchAcks context (group.1, batch) pairs := fun batch hbatch =>
      h _ (List.mem_flatMap.2 ⟨group, hgroup, List.mem_map.2 ⟨batch, hbatch, rfl⟩⟩)
    obtain ⟨first, hfirst⟩ := List.exists_mem_of_ne_nil _ (hne group hgroup)
    obtain ⟨batch, hmem, -⟩ := exists_mem_chunks (show 10 ≠ 0 by decide) hfirst
    obtain ⟨-, spec, hspec, -⟩ := hbatch batch hmem
    obtain ⟨rs, hrs⟩ : ∃ rs, List.Forall₂ (fun batch r => Succeeds (venue.reply .binance)
        (cancelChunkBinance context spec batch) r) (chunks 10 group.2) rs := by
      refine exists_forall₂_of_forall fun batch hmem => ?_
      obtain ⟨pairs, spec', hspec', hpairs⟩ := hbatch batch hmem
      obtain rfl := Option.some.inj (hspec.symm.trans hspec')
      exact ⟨pairs, hpairs⟩
    exact ⟨rs.flatten, (succeeds_commandSpec_iff.2 hspec).attempt
      ((succeeds_mapM_iff.2 hrs).attempt (succeeds_pure _))⟩
  obtain ⟨rs, hrs⟩ := exists_forall₂_of_forall hgroup
  exact ⟨rs.flatten, (succeeds_mapM_iff.2 hrs).attempt (succeeds_pure _)⟩

/-- What the groups send, their requests send. -/
theorem received_groups {targets : List OrderTarget} {pairs : List (ℕ × CommandAck)}
    {names : InstrumentId × List (OrderTarget × ℕ) → List CancelName}
    (hnames : ∀ batch ∈ indexedBatches targets, ∀ spec r, venue.resolves batch.1 = some spec →
      Succeeds (venue.reply .binance) (cancelChunkBinance context spec batch.2) r →
      venue.received .binance (cancelChunkBinance context spec batch.2) = names batch)
    (h : Succeeds (venue.reply .binance) (cancelGroupsBinance context targets) pairs) :
    venue.received .binance (cancelGroupsBinance context targets) =
      (indexedBatches targets).flatMap names := by
  unfold cancelGroupsBinance at h ⊢
  obtain ⟨results, hresults, -⟩ := succeeds_bind_iff.1 h
  dsimp only
  rw [received_attempt hresults, received_mapM (succeeds_mapM_iff.1 hresults), indexedBatches,
    List.flatMap_assoc]
  refine (List.append_nil _).trans (List.flatMap_congr fun group hgroup => ?_)
  obtain ⟨r, hr⟩ := exists_of_forall₂ (succeeds_mapM_iff.1 hresults) hgroup
  unfold cancelGroupBinance at hr ⊢
  obtain ⟨spec, hspec, hr⟩ := succeeds_bind_iff.1 hr
  obtain ⟨rs, hrs, -⟩ := succeeds_bind_iff.1 hr
  rw [received_attempt hspec, received_commandSpec, List.nil_append, received_attempt hrs,
    received_mapM (succeeds_mapM_iff.1 hrs), List.flatMap_map]
  refine (List.append_nil _).trans (List.flatMap_congr fun batch hbatch => ?_)
  obtain ⟨r', hr'⟩ := exists_of_forall₂ (succeeds_mapM_iff.1 hrs) hbatch
  exact hnames _ (List.mem_flatMap.2 ⟨group, hgroup, List.mem_map.2 ⟨batch, hbatch, rfl⟩⟩) spec r'
    (succeeds_commandSpec_iff.1 hspec) hr'

/-! #### Names in batches -/

/-- The name of a plain order, as a batch on Binance has it. -/
def PlainName (name : CancelName) : Prop :=
  name.key = "orderId" ∧ ',' ∉ name.id.toList ∨ name.key = "origClientOrderId"

theorem not_mem_of_mem_splitOn {xs piece : List Char} {c : Char} (h : piece ∈ xs.splitOn c) :
    c ∉ piece := by
  have key : ∀ (xs acc : List Char), c ∉ acc →
      ∀ piece ∈ List.splitOnPPrepend (· == c) xs acc, c ∉ piece := by
    intro xs
    induction xs with
    | nil =>
      intro acc hacc piece hpiece
      rw [List.splitOnPPrepend_nil, List.mem_singleton] at hpiece
      rwa [hpiece, List.mem_reverse]
    | cons x xs ih =>
      intro acc hacc piece hpiece
      rw [List.splitOnPPrepend_cons_eq_if] at hpiece
      by_cases hx : x = c
      · rw [if_pos (by simpa using hx)] at hpiece
        rcases List.mem_cons.1 hpiece with rfl | hpiece
        · rwa [List.mem_reverse]
        · exact ih [] (by simp) piece hpiece
      · rw [if_neg (by simpa using hx)] at hpiece
        exact ih (x :: acc) (by simp [hacc, Ne.symm hx]) piece hpiece
  exact key xs [] (by simp) piece h

theorem plainName_of_mem_listedCancels {body : Json} {name : CancelName}
    (h : name ∈ listedCancels body) : PlainName name := by
  unfold listedCancels at h
  rcases List.mem_append.1 h with h | h
  · obtain ⟨id, hid, rfl⟩ := List.mem_map.1 h
    refine .inl ⟨rfl, ?_⟩
    cases hlist : (body.get? "orderIdList").bind Json.asStr with
    | none => simp [hlist] at hid
    | some text =>
      rw [hlist] at hid
      obtain ⟨piece, hpiece, rfl⟩ := List.mem_map.1 hid
      rw [String.toList_ofList]
      exact not_mem_of_mem_splitOn hpiece
  · obtain ⟨id, -, rfl⟩ := List.mem_map.1 h
    exact .inr rfl

/-- Whatever the targets are, the batch names plain orders. -/
theorem plainName_of_mem_groups {v : Venue} {targets : List OrderTarget} {name : CancelName}
    (h : name ∈ venue.received v (cancelGroupsBinance context targets)) : PlainName name := by
  have hlocal : ∀ (τ : List (Event CommandCall CommandReply)) (q : CommandCall), q.Local →
      ∀ n ∈ venue.receives q, PlainName n := by
    intro _ q hq n hn
    cases q with
    | rest request => exact hq.elim
    | ws frame => exact hq.elim
    | _ => cases hn
  have halways : (cancelGroupsBinance context targets).run.Always
      fun _ q => ∀ n ∈ venue.receives q, PlainName n := by
    refine Yields.always (P := fun _ => True) ?_
    unfold cancelGroupsBinance
    refine Yields.attempt (P := fun _ => True) ?_ fun _ _ => yields_pure trivial
    refine (Yields.mapM (P := fun _ _ => True) fun group _ => ?_).mono fun _ _ => trivial
    unfold cancelGroupBinance
    refine (yields_commandSpec hlocal _).attempt fun spec _ => ?_
    refine Yields.attempt (P := fun _ => True) ?_ fun _ _ => yields_pure trivial
    refine (Yields.mapM (P := fun _ _ => True) fun chunk _ => ?_).mono fun _ _ => trivial
    unfold cancelChunkBinance
    refine (yields_sendBatchRest fun _ n hn => ?_).attempt fun receipts _ =>
      (yields_finishChunk hlocal _ _ _).attempt fun _ _ => yields_pure trivial
    have hlisted : n ∈ listedCancels (binanceCancelBatch spec (chunk.map (·.1))).body := by
      simpa [receives, RestCommand.cancels, binanceCancelBatch] using hn
    exact plainName_of_mem_listedCancels hlisted
  obtain ⟨q, hq, hn⟩ := List.mem_flatMap.1 h
  exact Always.of_mem_calls halways hq name hn

/-! ### The order of the targets -/

theorem mem_cancelGroups_iff {targets : List OrderTarget}
    {group : InstrumentId × List (OrderTarget × ℕ)} (hgroup : group ∈ cancelGroups targets) :
    group.2 ≠ [] ∧ (∀ p ∈ group.2, p ∈ targets.zipIdx ∧ p.1.instrumentId = group.1) ∧
      ((∀ p ∈ group.2, p.1.orderId.isSome = true) ∨ ∀ p ∈ group.2, p.1.orderId = none) := by
  rcases List.mem_append.1 hgroup with hgroup | hgroup
  · refine ⟨ne_nil_of_mem_groupBy hgroup, fun p hp => ?_, .inl fun p hp => ?_⟩
    · obtain ⟨hmem, hkey⟩ := (mem_group_iff hgroup).1 hp
      exact ⟨(List.mem_filter.1 hmem).1, hkey⟩
    · exact (List.mem_filter.1 ((mem_group_iff hgroup).1 hp).1).2
  · refine ⟨ne_nil_of_mem_groupBy hgroup, fun p hp => ?_, .inr fun p hp => ?_⟩
    · obtain ⟨hmem, hkey⟩ := (mem_group_iff hgroup).1 hp
      exact ⟨(List.mem_filter.1 hmem).1, hkey⟩
    · have hnone := (List.mem_filter.1 ((mem_group_iff hgroup).1 hp).1).2
      simp only [Bool.and_eq_true, Option.isNone_iff_eq_none] at hnone
      exact hnone.1

theorem mem_indexedBatches {targets : List OrderTarget}
    {batch : InstrumentId × List (OrderTarget × ℕ)} (hbatch : batch ∈ indexedBatches targets) :
    batch.2 ≠ [] ∧ (∀ p ∈ batch.2, p ∈ targets.zipIdx ∧ p.1.instrumentId = batch.1) ∧
      ((∀ p ∈ batch.2, p.1.orderId.isSome = true) ∨ ∀ p ∈ batch.2, p.1.orderId = none) := by
  obtain ⟨group, hgroup, hbatch⟩ := List.mem_flatMap.1 hbatch
  obtain ⟨chunk, hchunk, rfl⟩ := List.mem_map.1 hbatch
  obtain ⟨-, hmem, huniform⟩ := mem_cancelGroups_iff hgroup
  refine ⟨ne_nil_of_mem_chunks hchunk, fun p hp => hmem p (mem_of_mem_chunks hchunk hp), ?_⟩
  rcases huniform with hids | hids
  · exact .inl fun p hp => hids p (mem_of_mem_chunks hchunk hp)
  · exact .inr fun p hp => hids p (mem_of_mem_chunks hchunk hp)

/-- Every target with a name is in one of the groups, in its place. -/
theorem perm_cancelGroups {targets : List OrderTarget}
    (hnamed : ∀ t ∈ targets, t.orderId.isSome ∨ t.clientOrderId.isSome) :
    ((cancelGroups targets).flatMap (·.2)).Perm targets.zipIdx := by
  rw [cancelGroups, List.flatMap_append]
  refine ((perm_groupBy _ _).append (perm_groupBy _ _)).trans ?_
  have hrest : (targets.zipIdx.filter fun target =>
      target.1.orderId.isNone && target.1.clientOrderId.isSome) =
      targets.zipIdx.filter fun target => !target.1.orderId.isSome := by
    refine List.filter_congr fun p hp => ?_
    rcases hnamed p.1 (List.fst_mem_of_mem_zipIdx hp) with h | h
    · simp [h, Option.isNone_eq_false_iff.2 h]
    · simp [h]
  rw [hrest]
  exact List.filter_append_perm _ _

/-- Every target with a name is in one of the requests, in its place. -/
theorem perm_indexedBatches {targets : List OrderTarget}
    (hnamed : ∀ t ∈ targets, t.orderId.isSome ∨ t.clientOrderId.isSome) :
    ((indexedBatches targets).flatMap (·.2)).Perm targets.zipIdx := by
  have hflat : (indexedBatches targets).flatMap (·.2) = (cancelGroups targets).flatMap (·.2) := by
    rw [indexedBatches, List.flatMap_assoc]
    refine List.flatMap_congr fun group _ => ?_
    rw [List.flatMap_map]
    show (chunks 10 group.2).flatMap id = _
    rw [List.flatMap_id, flatten_chunks (by decide)]
  rw [hflat]
  exact perm_cancelGroups hnamed

/-- The acknowledgements are put in the order of the targets. -/
theorem collectBatchAcks_of_perm {targets : List OrderTarget} {placed : List (OrderTarget × ℕ)}
    {pairs : List (ℕ × CommandAck)} (operation : String) (hperm : placed.Perm targets.zipIdx)
    (hplaces : List.Forall₂ (fun p q => p.2 = q.1) placed pairs) :
    ∃ acks, collectBatchAcks targets.length pairs operation = .ok acks ∧
      ∀ P : OrderTarget → CommandAck → Prop, List.Forall₂ P targets acks ↔
        List.Forall₂ (fun p q => P p.1 q.2) placed pairs := by
  have hkeys : pairs.map (·.1) = placed.map (·.2) := by
    rw [← List.forall₂_eq_eq_eq, List.forall₂_map_left_iff, List.forall₂_map_right_iff]
    exact hplaces.flip.imp fun q p h => h.symm
  -- each place is taken once, so that a lookup by place finds its acknowledgement
  have hnodup : (pairs.map (·.1)).Nodup := by
    rw [hkeys]
    exact (hperm.map (·.2)).nodup_iff.2 (List.nodup_zipIdx_map_snd targets)
  have hlookup : ∀ i ∈ List.range targets.length, ∃ ack, pairs.lookup i = some ack := by
    intro i hi
    have hlt := List.mem_range.1 hi
    have hmem : (targets[i], i) ∈ placed :=
      hperm.mem_iff.2 (List.mk_mem_zipIdx_iff_getElem?.2 (List.getElem?_eq_getElem hlt))
    obtain ⟨q, -, hq, hplace⟩ := exists_of_forall₂ (forall₂_mem hplaces) hmem
    obtain rfl : i = q.1 := hplace
    exact ⟨q.2, lookup_of_mem hnodup hq⟩
  obtain ⟨acks, hacks⟩ := exists_forall₂_of_forall hlookup
  obtain ⟨hlength, hget⟩ := List.forall₂_iff_get.1 hacks
  rw [List.length_range] at hlength
  have htarget : ∀ p ∈ placed, targets[p.2]? = some p.1 := fun p hp =>
    List.mem_zipIdx_iff_getElem?.1 (hperm.mem_iff.1 hp)
  have hack : ∀ p ∈ placed, ∀ q ∈ pairs, p.2 = q.1 → acks[q.1]? = some q.2 := by
    intro p hp q hq hplace
    have hlt : q.1 < targets.length := by
      rw [← hplace]
      exact (List.getElem?_eq_some_iff.1 (htarget p hp)).1
    have hfound := hget q.1 (by simpa using hlt) (hlength ▸ hlt)
    simp only [List.get_eq_getElem, List.getElem_range, lookup_of_mem hnodup hq,
      Option.some.injEq] at hfound
    rw [List.getElem?_eq_getElem (hlength ▸ hlt), ← hfound]
  refine ⟨acks, ?_, fun P => ⟨fun h => ?_, fun h => ?_⟩⟩
  · refine mapM_eq_ok_iff.2 (hacks.imp fun i ack hack => ?_)
    rw [hack]
  · refine (forall₂_mem hplaces).imp fun p q ⟨hp, hq, hplace⟩ => ?_
    obtain ⟨hlt, hp'⟩ := List.getElem?_eq_some_iff.1 (htarget p hp)
    have hacked : acks[p.2]? = some q.2 := by
      rw [hplace]
      exact hack p hp q hq hplace
    obtain ⟨hlt', hq'⟩ := List.getElem?_eq_some_iff.1 hacked
    have hP := (List.forall₂_iff_get.1 h).2 p.2 hlt hlt'
    simpa only [List.get_eq_getElem, hp', hq'] using hP
  · refine List.forall₂_iff_get.2 ⟨hlength, fun i hi hi' => ?_⟩
    have hmem : (targets[i], i) ∈ placed :=
      hperm.mem_iff.2 (List.mk_mem_zipIdx_iff_getElem?.2 (List.getElem?_eq_getElem hi))
    obtain ⟨q, ⟨-, hq, hplace⟩, hP⟩ := exists_of_forall₂ (forall₂_and (forall₂_mem hplaces) h) hmem
    obtain ⟨hlt', hq'⟩ := List.getElem?_eq_some_iff.1 (hack _ hmem q hq hplace)
    obtain rfl : i = q.1 := hplace
    simpa only [List.get_eq_getElem, hq'] using hP

end Venues

end CancelVenue

end BatMarkets
