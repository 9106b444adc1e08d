import Mathlib

/-!
# Identifiers, enumerations and errors

The vocabulary of the engine core (`ids.rs`, `types.rs`, `primitives.rs`, `error.rs`).  The seven
identifier types of the source come out of one macro, so here they are one type indexed by the
kind of identifier; their order, the one the maps of the engine state iterate in, is the order of
the strings.

`Failure` is how a call of the engine core can end other than by returning a value: with an error
of the engine, or with a panic.
-/

namespace BatMarkets

open Std

/-- What a string identifier identifies. -/
inductive IdKind
  | assetCode
  | instrumentId
  | orderId
  | clientOrderId
  | positionId
  | requestId
  | tradeId

/-- A string that identifies something of kind `k`. -/
@[ext]
structure StringId (k : IdKind) where
  /-- The text of the identifier. -/
  asStr : String
  deriving DecidableEq, Repr

/-- The code of an asset. -/
abbrev AssetCode := StringId .assetCode
/-- The id of an instrument, the same for all venues. -/
abbrev InstrumentId := StringId .instrumentId
/-- The id that the venue gives an order. -/
abbrev OrderId := StringId .orderId
/-- The id that the client gives an order. -/
abbrev ClientOrderId := StringId .clientOrderId
/-- The id of a position. -/
abbrev PositionId := StringId .positionId
/-- The id that the caller gives a request. -/
abbrev RequestId := StringId .requestId
/-- The id of a trade or of an execution. -/
abbrev TradeId := StringId .tradeId

namespace StringId

variable {k : IdKind}

instance : Ord (StringId k) := ⟨compareOn asStr⟩

instance : TransOrd (StringId k) := inferInstanceAs (TransCmp (compareOn asStr))

instance : LawfulEqOrd (StringId k) where
  eq_of_compare {a b} h := by
    cases a
    cases b
    exact congrArg StringId.mk (LawfulEqOrd.eq_of_compare h)

end StringId

/-- Unix timestamp expressed in milliseconds. -/
abbrev TimestampMs := Int64

section Int64

variable {a b : Int64}

theorem toInt_add_one (h : a < b) : (a + 1).toInt = a.toInt + 1 := by
  rw [Int64.lt_iff_toInt_lt] at h
  have hmax : b.toInt < 2 ^ 63 := b.toInt_lt
  have hmin : -2 ^ 63 ≤ a.toInt := a.le_toInt
  rw [Int64.toInt_add, show (1 : Int64).toInt = 1 from rfl, Int.bmod_eq_of_le]
  · omega
  · omega

theorem toInt_sub_one (h : a < b) : (b - 1).toInt = b.toInt - 1 := by
  rw [Int64.lt_iff_toInt_lt] at h
  have hmax : b.toInt < 2 ^ 63 := b.toInt_lt
  have hmin : -2 ^ 63 ≤ a.toInt := a.le_toInt
  rw [Int64.toInt_sub, show (1 : Int64).toInt = 1 from rfl, Int.bmod_eq_of_le]
  · omega
  · omega

theorem toInt_max (a b : Int64) : (max a b).toInt = max a.toInt b.toInt := by
  by_cases h : a ≤ b
  · rw [show max a b = b from if_pos h, Int.max_eq_right (Int64.le_iff_toInt_le.1 h)]
  · have hlt : b.toInt ≤ a.toInt := by
      rw [Int64.le_iff_toInt_le] at h
      omega
    rw [show max a b = a from if_neg h, Int.max_eq_left hlt]

theorem toInt_min (a b : Int64) : (min a b).toInt = min a.toInt b.toInt := by
  by_cases h : a ≤ b
  · rw [show min a b = a from if_pos h, Int.min_eq_left (Int64.le_iff_toInt_le.1 h)]
  · have hlt : b.toInt ≤ a.toInt := by
      rw [Int64.le_iff_toInt_le] at h
      omega
    rw [show min a b = b from if_neg h, Int.min_eq_right hlt]

end Int64

/-- Monotonic sequence number observed from an exchange stream. -/
abbrev SequenceNumber := UInt64

/-! ### Enumerations -/

/-- Supported exchange venue. -/
inductive Venue
  | binance
  | bybit
  | mexc
  deriving DecidableEq, Repr

/-- The name of the venue in messages. -/
def Venue.display : Venue → String
  | .binance => "binance"
  | .bybit => "bybit"
  | .mexc => "mexc"

/-- Supported product family. -/
inductive Product
  | linearUsdt
  deriving DecidableEq, Repr

/-- The name of the product family in messages. -/
def Product.display : Product → String
  | .linearUsdt => "linear_usdt"

/-- Unified market classification. -/
inductive MarketType
  | linearPerpetual
  deriving DecidableEq, Repr

/-- Order side. -/
inductive Side
  | buy
  | sell
  deriving DecidableEq, Repr

/-- Market trade aggressor side. -/
inductive AggressorSide
  | buyer
  | seller
  deriving DecidableEq, Repr

/-- Exchange order type. -/
inductive OrderType
  | market
  | limit
  | stopMarket
  | stopLimit
  | takeProfitMarket
  | takeProfitLimit
  deriving DecidableEq, Repr

/-- Unified time in force. -/
inductive TimeInForce
  | gtc
  | ioc
  | fok
  | postOnly
  deriving DecidableEq, Repr

/-- Margin mode supported by the position. -/
inductive MarginMode
  | cross
  | isolated
  deriving DecidableEq, Repr

/-- Position mode on the venue. -/
inductive PositionMode
  | oneWay
  | hedge
  deriving DecidableEq, Repr

/-- Position direction. -/
inductive PositionDirection
  | long
  | short
  | flat
  deriving DecidableEq, Repr

/-- Unified order status. -/
inductive OrderStatus
  | new
  | partiallyFilled
  | filled
  | canceled
  | rejected
  | expired
  | pendingCancel
  deriving DecidableEq, Repr

/-- The statuses the engine counts as open: `New` and `PartiallyFilled`. -/
def OrderStatus.isOpen : OrderStatus → Bool
  | .new | .partiallyFilled => true
  | _ => false

/-! ### Errors -/

/-- Stable machine-handleable error classes. -/
inductive ErrorKind
  | configError
  | transportError
  | timeout
  | rateLimited
  | authError
  | permissionDenied
  | unsupported
  | decodeError
  | exchangeReject
  | unknownExecution
  | stateDivergence
  | complianceRequired
  | temporaryUnavailable
  deriving DecidableEq, Repr

/-- Safe structured context for an error. -/
structure ErrorContext where
  venue : Option Venue := none
  product : Option Product := none
  operation : Option String := none
  requestId : Option RequestId := none
  nativeCode : Option String := none
  retriable : Bool := false
  deriving DecidableEq, Repr

/-- Canonical error type used across the engine. -/
structure MarketError where
  kind : ErrorKind
  message : String
  context : ErrorContext := {}
  deriving DecidableEq, Repr

/-- The error with its venue and product filled in. -/
def MarketError.withVenue (e : MarketError) (venue : Venue) (product : Product) : MarketError :=
  { e with context := { e.context with venue := some venue, product := some product } }

/-- The error with its operation filled in. -/
def MarketError.withOperation (e : MarketError) (operation : String) : MarketError :=
  { e with context := { e.context with operation := some operation } }

/-- How a call ends when it does not return a value. -/
inductive Failure
  /-- The call returns `Err`. -/
  | error (e : MarketError)
  /-- The call panics. -/
  | panic
  deriving DecidableEq, Repr

end BatMarkets
