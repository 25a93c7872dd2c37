import Mathlib.Algebra.Order.ToIntervalMod
import Sntp.Lib.Saturating
import Sntp.Wire.Types

/-!
# Era arithmetic: the difference of two wrapped clocks is a balanced residue

The seconds field counts from 1900 in 32 bits, so a client and a server can sit
either side of the 2036 wrap. `safeTimeDifference` computes the difference of
two timestamps three ways (same era, server an era ahead, client an era ahead)
and returns the smallest in absolute value, with the tie at exactly half an era
resolved toward the server.

> `safeTimeDifference_eq_toIocMod`: the result is the residue of the difference
> in milliseconds modulo one era, in `(-E/2, E/2]`.

So no clock reading is ever taken for its era: only the residue matters. None
of the saturating operations on the way saturates (`asMillis_toInt` and the
`Fits` side conditions below it), because every intermediate value stays within
two eras of zero.
-/

namespace Sntp

/-- `FRACTION_VALUE_PER_MICROSECOND`. -/
def fractionValuePerMicrosecond : UInt32 := 4295

/-- `CLOCK_OFFSET_MAX_TIME_DIFFERENCE`, half an era in milliseconds. -/
def clockOffsetMaxTimeDifference : Int64 := (2147483647 + 1) * 1000

/-- `TOTAL_MILLISECONDS_IN_NTP_ERA`. -/
def totalMillisecondsInNtpEra : Int64 := (4294967295 + 1) * 1000

/-- `fractionsToMs`: the divisor is slightly too large on purpose, so the
largest fraction gives 999 and never 1000. -/
def fractionsToMs (fractions : UInt32) : UInt32 :=
  fractions / (1000 * fractionValuePerMicrosecond)

/-- `absoluteOf`. -/
def absoluteOf (value : Int64) : Int64 := Saturating.abs value

/-- A timestamp as signed milliseconds since the SNTP epoch. -/
def asMillis (t : Timestamp) : Int64 :=
  Saturating.add (Saturating.mul (Int64.ofNat t.seconds.toNat) 1000)
    (Int64.ofNat (fractionsToMs t.fractions).toNat)

/-- `safeTimeDifference`: `server - client` in milliseconds, across eras. -/
def safeTimeDifference (server client : Timestamp) : Int64 :=
  let serverMs := asMillis server
  let clientMs := asMillis client
  let sameEra := Saturating.sub serverMs clientMs
  let absSameEra := absoluteOf sameEra
  -- exactly half an era apart: the server is assumed to be ahead
  if absSameEra == clockOffsetMaxTimeDifference then clockOffsetMaxTimeDifference
  else
    let serverEraAhead :=
      Saturating.sub (Saturating.add serverMs totalMillisecondsInNtpEra) clientMs
    let clientEraAhead :=
      Saturating.sub serverMs (Saturating.add totalMillisecondsInNtpEra clientMs)
    let absServerAhead := absoluteOf serverEraAhead
    let absClientAhead := absoluteOf clientEraAhead
    if absSameEra ≤ absServerAhead ∧ absSameEra ≤ absClientAhead then sameEra
    else if absServerAhead < absSameEra then serverEraAhead
    else clientEraAhead

/-- `calculateClockOffset`: `((T2 - T1) + (T3 - T4)) / 2`, truncating. -/
def calculateClockOffset (clientTx serverRx serverTx clientRx : Timestamp) : Int64 :=
  let send := safeTimeDifference serverRx clientTx
  let recv := safeTimeDifference serverTx clientRx
  Saturating.add send recv / 2

/-! ## The same in exact integers -/

/-- One era in milliseconds. -/
def era : ℤ := 4294967296000

theorem era_eq : era = 4294967296000 := rfl

theorem era_pos : 0 < era := by decide

/-- Milliseconds since the SNTP epoch, as an exact integer. -/
def Timestamp.ms (t : Timestamp) : ℤ := 1000 * t.seconds.toNat + (t.fractions.toNat / 4295000 : ℕ)

theorem Timestamp.ms_nonneg (t : Timestamp) : 0 ≤ t.ms := by
  unfold Timestamp.ms
  omega

theorem Timestamp.ms_lt (t : Timestamp) : t.ms < era := by
  have hs := t.seconds.toNat_lt
  have hf := t.fractions.toNat_lt
  unfold Timestamp.ms era
  omega

theorem fractionsToMs_toNat (f : UInt32) : (fractionsToMs f).toNat = f.toNat / 4295000 := by
  rw [fractionsToMs, UInt32.toNat_div]
  rfl

/-- Widening a 32-bit word to 64 bits changes nothing. -/
theorem toInt_ofNat_toNat (x : UInt32) : (Int64.ofNat x.toNat).toInt = x.toNat :=
  Int64.toInt_ofNat_of_lt (by have := x.toNat_lt; omega)

/-- Neither operation of `asMillis` saturates. -/
theorem asMillis_fits (t : Timestamp) :
    Saturating.Fits ((Int64.ofNat t.seconds.toNat).toInt * (1000 : Int64).toInt) ∧
    Saturating.Fits ((Saturating.mul (Int64.ofNat t.seconds.toNat) 1000).toInt
      + (Int64.ofNat (fractionsToMs t.fractions).toNat).toInt) := by
  have hs := t.seconds.toNat_lt
  have hf := t.fractions.toNat_lt
  have hmul : Saturating.Fits ((Int64.ofNat t.seconds.toNat).toInt * (1000 : Int64).toInt) := by
    rw [toInt_ofNat_toNat, show (1000 : Int64).toInt = 1000 from rfl]
    unfold Saturating.Fits
    omega
  refine ⟨hmul, ?_⟩
  rw [Saturating.toInt_mul hmul, toInt_ofNat_toNat, toInt_ofNat_toNat, fractionsToMs_toNat,
    show (1000 : Int64).toInt = 1000 from rfl]
  unfold Saturating.Fits
  omega

theorem asMillis_toInt (t : Timestamp) : (asMillis t).toInt = t.ms := by
  obtain ⟨hmul, hadd⟩ := asMillis_fits t
  rw [asMillis, Saturating.toInt_add hadd, Saturating.toInt_mul hmul, toInt_ofNat_toNat,
    toInt_ofNat_toNat, fractionsToMs_toNat, show (1000 : Int64).toInt = 1000 from rfl,
    Timestamp.ms]
  ring

/-- What `safeTimeDifference` adds and subtracts fits. -/
theorem difference_fits (server client : Timestamp) :
    Saturating.Fits ((asMillis server).toInt - (asMillis client).toInt) ∧
    Saturating.Fits ((asMillis server).toInt + totalMillisecondsInNtpEra.toInt) ∧
    Saturating.Fits (totalMillisecondsInNtpEra.toInt + (asMillis client).toInt) ∧
    Saturating.Fits ((Saturating.add (asMillis server) totalMillisecondsInNtpEra).toInt
      - (asMillis client).toInt) ∧
    Saturating.Fits ((asMillis server).toInt
      - (Saturating.add totalMillisecondsInNtpEra (asMillis client)).toInt) := by
  have hs₀ := server.ms_nonneg
  have hs₁ := server.ms_lt
  have hc₀ := client.ms_nonneg
  have hc₁ := client.ms_lt
  have hera := era_eq
  have htotal : totalMillisecondsInNtpEra.toInt = era := rfl
  have hserver : Saturating.Fits ((asMillis server).toInt + totalMillisecondsInNtpEra.toInt) := by
    rw [asMillis_toInt, htotal]
    unfold Saturating.Fits
    omega
  have hclient : Saturating.Fits (totalMillisecondsInNtpEra.toInt + (asMillis client).toInt) := by
    rw [asMillis_toInt, htotal]
    unfold Saturating.Fits
    omega
  rw [Saturating.toInt_add hserver, Saturating.toInt_add hclient]
  refine ⟨?_, hserver, hclient, ?_, ?_⟩
  all_goals
    simp only [asMillis_toInt, htotal]
    unfold Saturating.Fits
    omega

/-- The three candidate differences, none of them saturated. -/
theorem candidates_toInt (server client : Timestamp) :
    (Saturating.sub (asMillis server) (asMillis client)).toInt = server.ms - client.ms ∧
    (Saturating.sub (Saturating.add (asMillis server) totalMillisecondsInNtpEra)
      (asMillis client)).toInt = server.ms - client.ms + era ∧
    (Saturating.sub (asMillis server)
      (Saturating.add totalMillisecondsInNtpEra (asMillis client))).toInt
        = server.ms - client.ms - era := by
  have htotal : totalMillisecondsInNtpEra.toInt = era := rfl
  obtain ⟨hsame, hserver, hclient, hahead, hbehind⟩ := difference_fits server client
  rw [Saturating.toInt_sub hsame, Saturating.toInt_sub hahead, Saturating.toInt_sub hbehind,
    Saturating.toInt_add hserver, Saturating.toInt_add hclient, asMillis_toInt, asMillis_toInt,
    htotal]
  refine ⟨rfl, ?_, ?_⟩
  · ring
  · ring

/-- The absolute value of a candidate within two eras of zero. -/
theorem absoluteOf_toInt {a : Int64} (h₁ : -(2 * era) < a.toInt) (h₂ : a.toInt < 2 * era) :
    (absoluteOf a).toInt = a.toInt.natAbs := by
  have hera := era_eq
  refine Saturating.toInt_abs ?_
  unfold Saturating.Fits
  omega

/-- What `safeTimeDifference` returns: one of the three candidates, and the one
in `(-E/2, E/2]`. -/
theorem safeTimeDifference_spec (server client : Timestamp) :
    (-era < 2 * (safeTimeDifference server client).toInt ∧
      2 * (safeTimeDifference server client).toInt ≤ era) ∧
    ((safeTimeDifference server client).toInt = server.ms - client.ms ∨
      (safeTimeDifference server client).toInt = server.ms - client.ms + era ∨
      (safeTimeDifference server client).toInt = server.ms - client.ms - era) := by
  have hs₀ := server.ms_nonneg
  have hs₁ := server.ms_lt
  have hc₀ := client.ms_nonneg
  have hc₁ := client.ms_lt
  have hera := era_eq
  obtain ⟨hsame, hahead, hbehind⟩ := candidates_toInt server client
  have habs₁ := absoluteOf_toInt (a := Saturating.sub (asMillis server) (asMillis client))
    (by omega) (by omega)
  have habs₂ := absoluteOf_toInt (a := Saturating.sub
    (Saturating.add (asMillis server) totalMillisecondsInNtpEra) (asMillis client))
    (by omega) (by omega)
  have habs₃ := absoluteOf_toInt (a := Saturating.sub (asMillis server)
    (Saturating.add totalMillisecondsInNtpEra (asMillis client))) (by omega) (by omega)
  have hhalf : clockOffsetMaxTimeDifference.toInt = 2147483648000 := rfl
  unfold safeTimeDifference
  simp only [beq_iff_eq, ← Int64.toInt_inj, Int64.le_iff_toInt_le, Int64.lt_iff_toInt_lt,
    habs₁, habs₂, habs₃, hsame, hahead, hbehind, hhalf]
  split
  next htie => omega
  next htie =>
    split
    next hmin => omega
    next hmin =>
      split
      next hlt => omega
      next hlt => omega

/-- **The era difference is a balanced residue**: `safeTimeDifference` is the
representative of the difference in milliseconds, modulo one era, that lies in
`(-E/2, E/2]`. -/
theorem safeTimeDifference_eq_toIocMod (server client : Timestamp) :
    (safeTimeDifference server client).toInt
      = toIocMod era_pos (-(era / 2)) (server.ms - client.ms) := by
  have hera := era_eq
  obtain ⟨⟨hlo, hhi⟩, hcand⟩ := safeTimeDifference_spec server client
  refine ((toIocMod_eq_iff era_pos).mpr ⟨⟨by omega, by omega⟩, ?_⟩).symm
  rcases hcand with h | h | h
  · exact ⟨0, by rw [h]; simp⟩
  · exact ⟨-1, by rw [h]; simp⟩
  · exact ⟨1, by rw [h]; simp⟩

/-- A difference known up to whole eras, and short of half an era, is returned
exactly. -/
theorem safeTimeDifference_eq_of_near {server client : Timestamp} {d k : ℤ}
    (hd : server.ms - client.ms = d + k * era) (hlo : -era < 2 * d) (hhi : 2 * d ≤ era) :
    (safeTimeDifference server client).toInt = d := by
  have hera := era_eq
  rw [safeTimeDifference_eq_toIocMod, toIocMod_eq_iff]
  exact ⟨⟨by omega, by omega⟩, k, by rw [hd, smul_eq_mul]⟩

/-- The offset is the truncated half of the sum of the two legs. -/
theorem calculateClockOffset_toInt (clientTx serverRx serverTx clientRx : Timestamp) :
    (calculateClockOffset clientTx serverRx serverTx clientRx).toInt
      = ((safeTimeDifference serverRx clientTx).toInt
          + (safeTimeDifference serverTx clientRx).toInt).tdiv 2 := by
  have hera := era_eq
  obtain ⟨⟨h₁, h₂⟩, -⟩ := safeTimeDifference_spec serverRx clientTx
  obtain ⟨⟨h₃, h₄⟩, -⟩ := safeTimeDifference_spec serverTx clientRx
  have hsum : (Saturating.add (safeTimeDifference serverRx clientTx)
      (safeTimeDifference serverTx clientRx)).toInt
      = (safeTimeDifference serverRx clientTx).toInt
        + (safeTimeDifference serverTx clientRx).toInt := by
    refine Saturating.toInt_add ?_
    unfold Saturating.Fits
    omega
  rw [calculateClockOffset, Int64.toInt_div_of_ne_right _ _ (by decide), hsum]
  rfl

end Sntp
