import BatMarkets.Commands.Classify
import BatMarkets.Core.Arithmetic

/-!
# The values in the messages of the adapters

The adapters of Binance and Bybit read a decimal from a text (`parse_decimal`), and an integer from
a JSON number or from a text.

A private message can report positions: `PositionMessage` is what it says about them, whether or not
the adapter can decode it, and `PositionMessage.stored` are the reports that an adapter turns into
positions of the engine.

## Main results

* `get?_positionsById_foldl` : of the positions in the events, the last one of an instrument stays.
* `PositionMessage.lastOf_stored` : it is the last stored report about this instrument.
-/

namespace BatMarkets

open Ordered Wire

/-- An error about a value that cannot be decoded. -/
def decodeFailure (message : String) : MarketError where
  kind := .decodeError
  message := message

/-- A decimal in a message of the venue. -/
def parseDecimalOf (venue : Venue) (raw : String) : Except MarketError Decimal :=
  (Decimal.fromStr raw).mapError fun error => MarketError.withVenue
    (decodeFailure ("invalid decimal '" ++ raw ++ "': " ++ error)) venue .linearUsdt

/-- The text without the white space around it. -/
def trim (raw : String) : String :=
  String.ofList
    ((raw.toList.dropWhile isWhiteSpace).reverse.dropWhile isWhiteSpace).reverse

/-- An integer given as a text. -/
def i64FromString (value : Json) : Option Int64 :=
  value.asStr.bind fun text =>
    (Text.parseInt (-2 ^ 63) (2 ^ 63 - 1) text.toList).toOption.map .ofInt

/-- An integer given as a number or as a text. -/
def i64FromValue (value : Json) : Option Int64 := value.asInt64.or (i64FromString value)

/-! ### Results of a decoder -/

section Results

variable {ε α β γ : Type}

theorem isOk_bind_of {x : Except ε α} {f : α → Except ε β} {b : Bool} (h : ∀ a, (f a).isOk = b) :
    (x >>= f).isOk = (x.isOk && b) := by
  cases x with
  | ok a => exact h a
  | error e => rfl

theorem isOk_map (f : α → β) (x : Except ε α) : (f <$> x).isOk = x.isOk := by
  cases x <;> rfl

theorem isOk_mapM (f : α → Except ε β) (xs : List α) :
    (xs.mapM f).isOk = xs.all fun x => (f x).isOk := by
  induction xs with
  | nil => rfl
  | cons x xs ih =>
    rw [List.mapM_cons, List.all_cons, ← ih]
    exact isOk_bind_of fun y => isOk_map (y :: ·) _

theorem forall₂_of_mapM {f : α → Except ε β} {xs : List α} {ys : List β}
    (h : xs.mapM f = .ok ys) : List.Forall₂ (fun x y => f x = .ok y) xs ys := by
  induction xs generalizing ys with
  | nil =>
    cases h
    exact .nil
  | cons x xs ih =>
    rw [List.mapM_cons] at h
    obtain ⟨y, hy, h⟩ := except_bind_eq_ok.1 h
    obtain ⟨zs, hzs, h⟩ := except_bind_eq_ok.1 h
    cases h
    exact .cons hy (ih hzs)

theorem mapM_eq_ok_iff {f : α → Except ε β} {xs : List α} {ys : List β} :
    xs.mapM f = .ok ys ↔ List.Forall₂ (fun x y => f x = .ok y) xs ys := by
  refine ⟨forall₂_of_mapM, fun h => ?_⟩
  induction h with
  | nil => rfl
  | cons hxy hrest ih =>
    rw [List.mapM_cons, hxy, ih]
    rfl

theorem mapM_eq_some_iff {f : α → Option β} {xs : List α} {ys : List β} :
    xs.mapM f = some ys ↔ List.Forall₂ (fun x y => f x = some y) xs ys := by
  induction xs generalizing ys with
  | nil => simp [eq_comm]
  | cons x xs ih =>
    simp only [List.mapM_cons, Option.bind_eq_bind, Option.bind_eq_some_iff, Option.pure_def,
      Option.some.injEq, ih]
    constructor
    · rintro ⟨y, hy, zs, hzs, rfl⟩
      exact .cons hy hzs
    · intro h
      cases h with
      | cons hxy hrest => exact ⟨_, hxy, _, hrest, rfl⟩

/-- The reading of a list fails when that of one of its members does. -/
theorem mapM_eq_none_iff {f : α → Option β} {xs : List α} :
    xs.mapM f = none ↔ ∃ x ∈ xs, f x = none := by
  induction xs with
  | nil => simp
  | cons x xs ih =>
    rw [List.mapM_cons]
    cases hx : f x with
    | none => simp [hx]
    | some y =>
      cases hxs : xs.mapM f with
      | none => simp [hx, ← ih, hxs]
      | some ys => simp [hx, ← ih, hxs]

theorem mem_of_mapM {f : α → Except ε β} {xs : List α} {ys : List β} (h : xs.mapM f = .ok ys)
    {y : β} : y ∈ ys ↔ ∃ x ∈ xs, f x = .ok y := by
  have hall := forall₂_of_mapM h
  clear h
  induction hall with
  | nil => simp
  | @cons x y' xs ys hxy hrest ih =>
    have hsame : f x = .ok y ↔ y = y' := by
      rw [hxy, Except.ok.injEq]
      exact eq_comm
    simp only [List.mem_cons, or_and_right, exists_or, exists_eq_left, hsame, ih]

theorem mem_of_filterMapM {f : α → Except ε (Option β)} {xs : List α} {ys : List β}
    (h : xs.filterMapM f = .ok ys) {y : β} : y ∈ ys ↔ ∃ x ∈ xs, f x = .ok (some y) := by
  induction xs generalizing ys with
  | nil =>
    cases h
    simp
  | cons x xs ih =>
    rw [List.filterMapM_cons] at h
    obtain ⟨kept, hkept, h⟩ := except_bind_eq_ok.1 h
    rw [List.exists_mem_cons_iff, hkept]
    cases kept with
    | none =>
      rw [ih h]
      simp
    | some z =>
      obtain ⟨zs, hzs, h⟩ := except_bind_eq_ok.1 h
      obtain rfl := Except.ok.inj h
      rw [List.mem_cons, ih hzs, Except.ok.injEq, Option.some.injEq, eq_comm]

/-- Records decoded one by one, and then put under a constructor. -/
theorem mapM_map (f : β → γ) (g : α → Except ε β) (xs : List α) :
    xs.mapM (fun x => f <$> g x) = List.map f <$> xs.mapM g := by
  induction xs with
  | nil => rfl
  | cons x xs ih =>
    rw [List.mapM_cons, List.mapM_cons, ih]
    cases g x with
    | error e => rfl
    | ok y => cases xs.mapM g <;> rfl

end Results

/-- A symbol that is accepted is one the adapter knows. -/
theorem resolves_of_requireNativeSymbol {venue : Venue} {catalog : InstrumentCatalog}
    {symbol : String} {spec : InstrumentSpec}
    (h : requireNativeSymbol venue catalog symbol = .ok spec) :
    resolveNativeSymbol venue catalog symbol = some spec := by
  unfold requireNativeSymbol at h
  cases hspec : resolveNativeSymbol venue catalog symbol with
  | none =>
    rw [hspec] at h
    cases h
  | some found =>
    rw [hspec] at h
    exact congrArg some (Except.ok.inj h)

/-- A decimal that is accepted is the one of the text. -/
theorem fromStr_of_parseDecimalOf {venue : Venue} {raw : String} {d : Decimal}
    (h : parseDecimalOf venue raw = .ok d) : Decimal.fromStr raw = .ok d := by
  unfold parseDecimalOf at h
  cases hd : Decimal.fromStr raw with
  | error e =>
    rw [hd] at h
    cases h
  | ok d' =>
    rw [hd] at h
    exact congrArg Except.ok (Except.ok.inj h)

/-! ### Positions -/

/-- The position in the event. -/
def PrivateLaneEvent.position? : PrivateLaneEvent → Option Position
  | .position p => some p
  | _ => none

/-- The last position of an instrument among the events is the one that is stored. -/
theorem get?_positionsById_foldl (events : List PrivateLaneEvent) (s : EngineState)
    (i : InstrumentId) :
    (events.foldl EngineState.applyPrivateEvent s).positionsById.get? i =
      (lastOf Position.instrumentId i (events.filterMap PrivateLaneEvent.position?)).or
        (s.positionsById.get? i) := by
  induction events generalizing s with
  | nil => rfl
  | cons event events ih =>
    rw [List.foldl_cons, ih]
    cases event with
    | position p =>
      have hstored : (s.applyPrivateEvent (.position p)).positionsById =
          s.positionsById.insert p := rfl
      rw [hstored, Index.get?_insert, List.filterMap_cons]
      simp only [PrivateLaneEvent.position?, lastOf_cons, Option.or_assoc]
      split <;> simp
    | balance b => rfl
    | order o => rfl
    | execution x =>
      have hkept : (s.applyPrivateEvent (.execution x)).positionsById = s.positionsById := by
        simp only [EngineState.applyPrivateEvent, EngineState.pushExecution]
        split <;> rfl
      rw [hkept]
      rfl
    | divergence d => cases d <;> rfl

/-- What a record of a private message says about a position. -/
structure PositionReport where
  /-- The instrument, if the adapter knows the symbol. -/
  instrumentId : Option InstrumentId
  /-- The size, if it is a decimal. -/
  size : Option Decimal
  /-- The adapter skips the record. -/
  skipped : Bool
  /-- The record can be decoded. -/
  readable : Bool

/-- What a private message says about positions. -/
structure PositionMessage where
  reports : List PositionReport
  /-- The rest of the message can be decoded. -/
  readable : Bool

/-- The position is reported closed. -/
def PositionReport.closes (r : PositionReport) : Bool := r.size.any (·.isZero)

/-- The position is the one of the report. -/
structure PositionReport.StoredAs (r : PositionReport) (p : Position) : Prop where
  instrumentId : r.instrumentId = some p.instrumentId
  closes : r.closes = p.size.value.isZero

namespace PositionMessage

/-- The message says nothing about positions. -/
def silent : PositionMessage := ⟨[], true⟩

/-- The reports that become positions: all that are not skipped, or none if something cannot be
decoded. -/
def stored (m : PositionMessage) : List PositionReport :=
  let kept := m.reports.filter (!·.skipped)
  if m.readable && kept.all (·.readable) then kept else []

/-- The events hold the positions of the stored reports. -/
def DecodedAs (m : PositionMessage) {ε : Type} (result : Except ε (List PrivateLaneEvent)) : Prop :=
  List.Forall₂ PositionReport.StoredAs m.stored
    ((result.toOption.getD []).filterMap PrivateLaneEvent.position?)

/-- Events that are not positions. -/
theorem filterMap_position?_eq_nil {β : Type} {f : β → PrivateLaneEvent} (bs : List β)
    (hf : ∀ b, (f b).position? = none) :
    (bs.map f).filterMap PrivateLaneEvent.position? = [] := by
  rw [List.filterMap_map, List.filterMap_eq_nil_iff]
  exact fun b _ => hf b

theorem filterMap_position?_position (ps : List Position) :
    (ps.map PrivateLaneEvent.position).filterMap PrivateLaneEvent.position? = ps := by
  rw [List.filterMap_map]
  exact List.filterMap_some

/-- Events that are not positions do not store any. -/
theorem decodedAs_silent {ε β : Type} {f : β → PrivateLaneEvent} (x : Except ε (List β))
    (hf : ∀ b, (f b).position? = none) : silent.DecodedAs (List.map f <$> x) := by
  cases x with
  | error e => exact .nil
  | ok bs =>
    show List.Forall₂ _ [] ((bs.map f).filterMap PrivateLaneEvent.position?)
    rw [filterMap_position?_eq_nil bs hf]
    exact .nil

/-- A step before the events that can fail. -/
theorem decodedAs_silent_bind {ε β : Type} (x : Except ε β)
    {f : β → Except ε (List PrivateLaneEvent)} (hf : ∀ b, silent.DecodedAs (f b)) :
    silent.DecodedAs (x >>= f) := by
  cases x with
  | error e => exact .nil
  | ok b => exact hf b

section Records

variable {ε δ : Type} {decode : δ → Except ε Position} {report : δ → PositionReport}

/-- The records of a message are decoded one by one, but for those that are skipped. -/
theorem forall₂_stored (hreadable : ∀ d, (decode d).isOk = (report d).readable)
    (hstored : ∀ d p, decode d = .ok p → (report d).StoredAs p) (ds : List δ) :
    List.Forall₂ PositionReport.StoredAs (stored ⟨ds.map report, true⟩)
      (((ds.filter fun d => !(report d).skipped).mapM decode).toOption.getD []) := by
  have hkept : (ds.map report).filter (!·.skipped) =
      (ds.filter fun d => !(report d).skipped).map report := List.filter_map
  have hall : ((ds.filter fun d => !(report d).skipped).map report).all (·.readable) =
      ((ds.filter fun d => !(report d).skipped).mapM decode).isOk := by
    rw [isOk_mapM, List.all_map]
    simp only [Function.comp_def, hreadable]
  simp only [stored, hkept, hall, Bool.true_and]
  cases h : (ds.filter fun d => !(report d).skipped).mapM decode with
  | error e => exact .nil
  | ok ps =>
    refine List.forall₂_map_left_iff.2 ((forall₂_of_mapM h).imp ?_)
    exact hstored

/-- A message that holds nothing else. -/
theorem decodedAs_mapM (hreadable : ∀ d, (decode d).isOk = (report d).readable)
    (hstored : ∀ d p, decode d = .ok p → (report d).StoredAs p) (ds : List δ) :
    DecodedAs ⟨ds.map report, true⟩
      ((ds.filter fun d => !(report d).skipped).mapM fun d => .position <$> decode d) := by
  have h := forall₂_stored hreadable hstored ds
  rw [DecodedAs, mapM_map]
  cases hps : (ds.filter fun d => !(report d).skipped).mapM decode with
  | error e =>
    rw [hps] at h
    exact h
  | ok ps =>
    rw [hps] at h
    show List.Forall₂ _ _ ((ps.map PrivateLaneEvent.position).filterMap _)
    rw [filterMap_position?_position]
    exact h

/-- A message of one record. -/
theorem decodedAs_single (hreadable : ∀ d, (decode d).isOk = (report d).readable)
    (hstored : ∀ d p, decode d = .ok p → (report d).StoredAs p) {d : δ}
    (hkept : (report d).skipped = false) :
    DecodedAs ⟨[report d], true⟩ (decode d >>= fun p => pure [.position p]) := by
  have hok := hreadable d
  cases hp : decode d with
  | error e =>
    rw [hp] at hok
    have hnone : stored ⟨[report d], true⟩ = [] := by
      simp [stored, hkept, ← hok, Except.toBool]
    rw [DecodedAs, hnone]
    exact .nil
  | ok p =>
    rw [hp] at hok
    have hone : stored ⟨[report d], true⟩ = [report d] := by
      simp [stored, hkept, ← hok, Except.toBool]
    rw [DecodedAs, hone]
    exact .cons (hstored d p hp) .nil

end Records

/-- The last stored report about an instrument is the last position of the instrument. -/
theorem lastOf_stored {rs : List PositionReport} {ps : List Position}
    (h : List.Forall₂ PositionReport.StoredAs rs ps) (i : InstrumentId) :
    Option.Rel PositionReport.StoredAs (lastOf PositionReport.instrumentId (some i) rs)
      (lastOf Position.instrumentId i ps) := by
  induction h with
  | nil => exact .none
  | @cons r p rs ps hr _ ih =>
    rw [lastOf_cons, lastOf_cons]
    cases hrs : lastOf PositionReport.instrumentId (some i) rs with
    | some r' =>
      rw [hrs] at ih
      cases hps : lastOf Position.instrumentId i ps with
      | none => rw [hps] at ih; cases ih
      | some p' =>
        rw [hps] at ih
        exact ih
    | none =>
      rw [hrs] at ih
      cases hps : lastOf Position.instrumentId i ps with
      | some p' => rw [hps] at ih; cases ih
      | none =>
        simp only [hr.instrumentId, Option.some.injEq, Option.none_or]
        split
        · exact .some hr
        · exact .none

end PositionMessage

end BatMarkets
