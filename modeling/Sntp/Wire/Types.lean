import Mathlib.Data.UInt

/-!
# The types that cross the SNTP surface

`types.rs`, type by type. A timestamp is two 32-bit words and the all-zero one
is not a time: `isZero` is the sentinel the codec refuses in both directions
and the client uses for "no request outstanding". Each fallible function has an
error type holding only what it can return.
-/

namespace Sntp

/-- Seconds and `2^-32` fractions since 1 January 1900 UTC. The seconds wrap on
7 February 2036. -/
structure Timestamp where
  seconds : UInt32
  fractions : UInt32
deriving DecidableEq, Repr

namespace Timestamp

/-- `Timestamp::is_zero`. -/
def isZero (t : Timestamp) : Bool := t.seconds == 0 && t.fractions == 0

/-- `Timestamp::new(0, 0)`. -/
def zero : Timestamp := ⟨0, 0⟩

theorem isZero_iff {t : Timestamp} : t.isZero = true ↔ t = zero := by
  cases t
  simp [isZero, zero]

theorem isZero_eq_false_iff {t : Timestamp} : t.isZero = false ↔ t ≠ zero := by
  rw [ne_eq, ← isZero_iff, Bool.not_eq_true]

end Timestamp

/-- What the server says about the coming month. -/
inductive LeapSecond
  | none
  | lastMinuteHas61Seconds
  | lastMinuteHas59Seconds
  | alarmServerNotSynchronized
deriving DecidableEq, Repr

/-- Why a server refused to give the time. -/
inductive Rejection
  | changeServer
  | retryWithBackoff
  | other
deriving DecidableEq, Repr

/-- A Kiss-o'-Death: four ASCII characters, big-endian, and what to do. -/
structure Rejected where
  code : UInt32
  kind : Rejection
deriving DecidableEq, Repr

/-- A server response that carried a usable time. -/
structure Accepted where
  serverTime : Timestamp
  leapSecond : LeapSecond
  clockOffsetMs : Int64
deriving DecidableEq

/-- What a well-formed response turned out to say. -/
inductive Verdict
  | accepted (a : Accepted)
  | rejected (r : Rejected)
deriving DecidableEq

/-- Why a request could not be serialized. -/
inductive SerializeError
  | badParameter
  | bufferTooSmall
deriving DecidableEq, Repr

/-- Why a response could not be read. -/
inductive DeserializeError
  | badParameter
  | bufferTooSmall
  | invalidResponse
deriving DecidableEq, Repr

/-- Why a poll interval could not be calculated. -/
inductive PollIntervalError
  | badParameter
  | zeroPollInterval
deriving DecidableEq, Repr

end Sntp
