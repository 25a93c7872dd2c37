import Sntp.Wire.Instant
import Sntp.Wire.Packet

/-!
# The reported clock offset is the true one, in every era

Take the four instants of a round trip as integers, in any eras. The codec sees
them cut to 64 bits, rounds each to milliseconds with an inexact divisor,
chooses an era for each leg separately and halves with truncation. Each leg
comes out within `roundingMs` of its exact value (`safeTimeDifference_error`),
because a leg short of half an era is its own balanced residue; the halving
adds at most half a millisecond.
-/

namespace Sntp

/-- The code's milliseconds of a cut instant, up to whole eras. -/
theorem ofInstant_ms (x : ℤ) : ∃ k : ℤ, (Timestamp.ofInstant x).ms = instantMs x + k * era := by
  refine ⟨-(x / ticksPerSecond / ticksPerSecond), ?_⟩
  have hs := ofInstant_seconds x
  have hf := ofInstant_fractions x
  obtain ⟨hlo, _⟩ := lo_bounds x
  have hhi := Int.mul_ediv_add_emod (x / ticksPerSecond) ticksPerSecond
  have hfrac : ((Timestamp.ofInstant x).fractions.toNat / 4295000 : ℕ)
      = (Ticks.lo ticksPerSecond x).tdiv ticksPerMs := by
    rw [← hf]
    norm_cast
  rw [Timestamp.ms, instantMs, hfrac, hs, Ticks.hi,
    show era = 1000 * (ticksPerSecond : ℤ) from rfl]
  linarith

/-- A leg of the round trip shorter than half an era, less the rounding, is
measured to within `roundingMs`. -/
theorem safeTimeDifference_error {server client : ℤ}
    (h : |ticksMs (server - client)| < 2 ^ 31 * 1000 - 2) :
    |((safeTimeDifference (.ofInstant server) (.ofInstant client)).toInt : ℚ)
      - ticksMs (server - client)| < roundingMs := by
  have hr := roundingMs_lt
  obtain ⟨k₁, hk₁⟩ := ofInstant_ms server
  obtain ⟨k₂, hk₂⟩ := ofInstant_ms client
  obtain ⟨hs₁, hs₂⟩ := instantMs_error server
  obtain ⟨hc₁, hc₂⟩ := instantMs_error client
  have hnear : |((instantMs server - instantMs client : ℤ) : ℚ) - ticksMs (server - client)|
      < roundingMs := by
    rw [ticksMs_sub, abs_lt]
    push_cast
    constructor <;> linarith
  rw [abs_lt] at h hnear
  have hlo : (-(2 ^ 31 * 1000) : ℚ) < ((instantMs server - instantMs client : ℤ) : ℚ) := by
    linarith [h.1, hnear.1]
  have hhi : ((instantMs server - instantMs client : ℤ) : ℚ) < 2 ^ 31 * 1000 := by
    linarith [h.2, hnear.2]
  have hlo' : -(2 ^ 31 * 1000) < instantMs server - instantMs client := by exact_mod_cast hlo
  have hhi' : instantMs server - instantMs client < 2 ^ 31 * 1000 := by exact_mod_cast hhi
  have hdiff : (safeTimeDifference (.ofInstant server) (.ofInstant client)).toInt
      = instantMs server - instantMs client := by
    have hera := era_eq
    refine safeTimeDifference_eq_of_near (k := k₁ - k₂) ?_ (by omega) (by omega)
    rw [hk₁, hk₂]
    ring
  rw [hdiff, abs_lt]
  exact hnear

/-- Halving with truncation is half a unit off at most. -/
theorem abs_tdiv_two_sub (x : ℤ) : |((x.tdiv 2 : ℤ) : ℚ) - x / 2| ≤ 1 / 2 := by
  have hx := Int.mul_tdiv_add_tmod x 2
  have hhi := Int.tmod_lt_of_pos x (show (0 : ℤ) < 2 by decide)
  have hlo := Int.lt_tmod_of_pos x (show (0 : ℤ) < 2 by decide)
  have h : -1 ≤ 2 * x.tdiv 2 - x ∧ 2 * x.tdiv 2 - x ≤ 1 := by omega
  have h₁ : (-1 : ℚ) ≤ 2 * (x.tdiv 2 : ℤ) - x := by exact_mod_cast h.1
  have h₂ : (2 * (x.tdiv 2 : ℤ) - x : ℚ) ≤ 1 := by exact_mod_cast h.2
  rw [abs_le]
  constructor <;> linarith

/-- The offset of four instants is within 1.51 ms of the exact one. -/
theorem calculateClockOffset_error {t₁ t₂ t₃ t₄ : ℤ}
    (hsend : |ticksMs (t₂ - t₁)| < 2 ^ 31 * 1000 - 2)
    (hrecv : |ticksMs (t₃ - t₄)| < 2 ^ 31 * 1000 - 2) :
    |((calculateClockOffset (.ofInstant t₁) (.ofInstant t₂) (.ofInstant t₃)
        (.ofInstant t₄)).toInt : ℚ) - ticksMs ((t₂ - t₁) + (t₃ - t₄)) / 2| < 1.51 := by
  have hr := roundingMs_lt
  have h₁ := safeTimeDifference_error hsend
  have h₂ := safeTimeDifference_error hrecv
  have h₃ := abs_tdiv_two_sub ((safeTimeDifference (.ofInstant t₂) (.ofInstant t₁)).toInt
    + (safeTimeDifference (.ofInstant t₃) (.ofInstant t₄)).toInt)
  rw [calculateClockOffset_toInt, ticksMs_add]
  rw [abs_lt] at h₁ h₂ ⊢
  rw [abs_le] at h₃
  push_cast at h₃
  constructor <;> linarith [h₁.1, h₁.2, h₂.1, h₂.2, h₃.1, h₃.2]

/-- **The reported clock offset is the true one in every era.** Whenever both
legs of the round trip are short of half an era by 2 ms, a valid packet whose
fields are the instants `t₁ .. t₃` cut to 64 bits, received at `t₄`, is accepted
with an offset less than 1.51 ms from `((t₂ - t₁) + (t₃ - t₄)) / 2`. -/
theorem accepted_offset_error {t₁ t₂ t₃ t₄ : ℤ} {packet : Buffer} {mode stratum : UInt8}
    (hsend : |ticksMs (t₂ - t₁)| < 2 ^ 31 * 1000 - 2)
    (hrecv : |ticksMs (t₃ - t₄)| < 2 ^ 31 * 1000 - 2)
    (hne₁ : Timestamp.ofInstant t₁ ≠ .zero) (hne₂ : Timestamp.ofInstant t₂ ≠ .zero)
    (hne₃ : Timestamp.ofInstant t₃ ≠ .zero) (hlen : packetBaseSize ≤ packet.length)
    (hmode : packet[0]? = some mode) (hserver : mode &&& 0x07 = 4)
    (hstratum : packet[1]? = some stratum) (hnokiss : stratum ≠ 0)
    (horigin : timestampAt packet 24 28 = some (.ofInstant t₁))
    (hreceive : timestampAt packet 32 36 = some (.ofInstant t₂))
    (htransmit : timestampAt packet 40 44 = some (.ofInstant t₃)) :
    ∃ a, deserializeResponse (.ofInstant t₁) (.ofInstant t₄) packet = .ok (.accepted a) ∧
      |(a.clockOffsetMs.toInt : ℚ) - ticksMs ((t₂ - t₁) + (t₃ - t₄)) / 2| < 1.51 := by
  obtain ⟨h, hof⟩ := Header.exists_of hlen
  have emode : h.leapVersionMode = mode := Option.some.inj (hof.leapVersionMode.symm.trans hmode)
  have estratum : h.stratum = stratum := Option.some.inj (hof.stratum.symm.trans hstratum)
  have eorigin : h.origin = .ofInstant t₁ := Option.some.inj (hof.origin.symm.trans horigin)
  have ereceive : h.receive = .ofInstant t₂ := Option.some.inj (hof.receive.symm.trans hreceive)
  have etransmit : h.transmit = .ofInstant t₃ := Option.some.inj (hof.transmit.symm.trans htransmit)
  have hans : h.Answers (.ofInstant t₁) :=
    ⟨emode ▸ hserver, eorigin ▸ hne₁, ereceive ▸ hne₂, etransmit ▸ hne₃, eorigin⟩
  have hacc : h.stratum ≠ kissOfDeathStratum := estratum ▸ hnokiss
  refine ⟨⟨h.transmit, leapSecondOf h.leapVersionMode,
    calculateClockOffset (.ofInstant t₁) h.receive h.transmit (.ofInstant t₄)⟩, ?_, ?_⟩
  · rw [deserializeResponse_answers _ hlen hof hans, Header.verdict, if_neg hacc]
  · dsimp only
    rw [ereceive, etransmit]
    exact calculateClockOffset_error hsend hrecv

/-- A request in the last second of era 0, answered in era 1. -/
theorem accepted_offset_error_across_2036 :
    ∃ a, deserializeResponse (.ofInstant (2 ^ 64 - 2 ^ 32)) (.ofInstant (2 ^ 64 + 2 ^ 33))
        ([0x24, 1] ++ List.replicate 22 0 ++ timestampBytes (.ofInstant (2 ^ 64 - 2 ^ 32)) ++
          timestampBytes (.ofInstant (2 ^ 64 + 7)) ++ timestampBytes (.ofInstant (2 ^ 64 + 9)))
        = .ok (.accepted a) ∧
      |(a.clockOffsetMs.toInt : ℚ) - ticksMs ((2 ^ 64 + 7 - (2 ^ 64 - 2 ^ 32)) +
        (2 ^ 64 + 9 - (2 ^ 64 + 2 ^ 33))) / 2| < 1.51 :=
  @accepted_offset_error _ _ _ _ _ 0x24 1
    (by rw [abs_lt]; norm_num [ticksMs, Ticks.subunits, ticksPerSecond])
    (by rw [abs_lt]; norm_num [ticksMs, Ticks.subunits, ticksPerSecond])
    (by decide) (by decide) (by decide) (by decide) (by decide) rfl (by decide) (by decide)
    (by decide) (by decide) (by decide)

end Sntp
