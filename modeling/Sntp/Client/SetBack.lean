import Sntp.Client.Deadlines
import Sntp.Client.Rotation

/-!
# A clock that was set back

Adjusting a clock backwards is what this client asks of its host, and the elapsed
time does not survive it: a reading before the one it is compared with counts as
one after it, by nearly an era or, within one second, by nearly `2^64` ms. So a
request outstanding when the clock goes back has timed out on the first empty read,
and its server is given up. The one exception is a step too small to see, less than
a millisecond and within the second (`set_back_times_out_iff`).
-/

namespace Sntp

open Transition RoundRobin

/-! ## Elapsed time backwards -/

/-- Within one second the milliseconds gone back are subtracted from zero. -/
theorem elapsed_back_same {x y : ℤ} (hyx : y < x)
    (hsame : y / ticksPerSecond = x / ticksPerSecond) :
    ((calculateElapsedMs (.ofInstant y) (.ofInstant x)).toNat : ℤ)
      = -((x - y) / ticksPerMs) % 2 ^ 64 := by
  have hhi : Ticks.hi ticksPerSecond y = Ticks.hi ticksPerSecond x := by
    rw [Ticks.hi, Ticks.hi, hsame]
  rw [calculateElapsedMs_toNat, elapsedExact, ofInstant_seconds, ofInstant_seconds,
    ofInstant_fractions, ofInstant_fractions, hhi, sub_self, Int.zero_emod,
    ← neg_sub (Ticks.lo ticksPerSecond x), Ticks.lo_eq_of_unit_eq hsame, Int.neg_tdiv,
    Int.tdiv_eq_ediv_of_nonneg (by omega)]
  omega

/-- Across seconds they are what is left of the era. -/
theorem elapsed_back_other {x y : ℤ} (hyx : y < x)
    (hother : y / ticksPerSecond ≠ x / ticksPerSecond)
    (hspan : x - y < (ticksPerSecond - 1) * ticksPerSecond) :
    (1000 * (ticksPerSecond - (x / ticksPerSecond - y / ticksPerSecond)) - 999 : ℤ)
      ≤ (calculateElapsedMs (.ofInstant y) (.ofInstant x)).toNat := by
  have hT := ticksPerSecond_eq
  obtain ⟨hlx₀, hlx₁⟩ := lo_bounds x
  obtain ⟨hly₀, hly₁⟩ := lo_bounds y
  obtain ⟨hd₁, hd₂⟩ := fraction_tdiv_bounds
    (x := Ticks.lo ticksPerSecond y - Ticks.lo ticksPerSecond x) (by omega) (by omega)
  obtain ⟨hq₀, hq₁⟩ := Ticks.units_between ticksPerSecond_pos hyx.le hspan
  have hhi : (Ticks.hi ticksPerSecond y - Ticks.hi ticksPerSecond x) % ticksPerSecond
      = ticksPerSecond - (x / ticksPerSecond - y / ticksPerSecond) := by
    rw [Ticks.hi, Ticks.hi, ← Int.sub_emod]
    rw [hT] at hother hq₀ hq₁ ⊢
    omega
  have hexact : 0 ≤ elapsedExact (.ofInstant y) (.ofInstant x) ∧
      1000 * (ticksPerSecond - (x / ticksPerSecond - y / ticksPerSecond)) - 999
        ≤ elapsedExact (.ofInstant y) (.ofInstant x) := by
    rw [elapsedExact, ofInstant_seconds, ofInstant_seconds, ofInstant_fractions,
      ofInstant_fractions, hhi]
    omega
  rw [calculateElapsedMs_of_nonneg hexact.1]
  exact hexact.2

/-- **Elapsed time runs backwards as far as it can**: measured from a later instant
it meets every timeout, unless both are in one second and less than a millisecond
apart. -/
theorem elapsed_back_iff {x y : ℤ} {timeout : UInt32} (hyx : y < x) (htimeout : timeout ≠ 0)
    (hspan : 1000 * (x - y) + timeout.toNat * ticksPerSecond
      ≤ 1000 * ((ticksPerSecond - 3) * ticksPerSecond)) :
    timeout.toNat ≤ (calculateElapsedMs (.ofInstant y) (.ofInstant x)).toNat ↔
      ¬ (y / ticksPerSecond = x / ticksPerSecond ∧ x - y < ticksPerMs) := by
  have hT := ticksPerSecond_eq
  have hD := ticksPerMs_eq
  have hpos : 0 < timeout.toNat :=
    Nat.pos_of_ne_zero fun h => htimeout (UInt32.toNat_inj.mp h)
  have hlt := timeout.toNat_lt
  by_cases hsame : y / ticksPerSecond = x / ticksPerSecond
  · have helapsed := elapsed_back_same hyx hsame
    rw [hT] at hsame
    rw [hD] at helapsed ⊢
    constructor
    · intro hlate hclose
      omega
    · intro hfar
      have hms : ¬ x - y < 4295000 := fun h => hfar ⟨hT ▸ hsame, h⟩
      omega
  · have helapsed := elapsed_back_other hyx hsame (by rw [hT] at hspan ⊢; omega)
    refine ⟨fun _ hclose => hsame hclose.1, fun _ => ?_⟩
    rw [hT] at helapsed hspan
    omega

/-! ## The request outstanding -/

section SetBack

variable {A : Type} [Authenticator A]

/-- What is known of a request some calls later: its stamp is still stored. -/
theorem Makes.request_kept {c₀ c₁ c₂ : Client A} {send : Call A} {mid : List (Call A)}
    {randomNumber sendBlockMs : UInt32} {reading : Timestamp} (hreach : Reachable c₀)
    (hsend : Makes c₀ send c₁) (hop : send.op = .send randomNumber sendBlockMs)
    (hreading : firstReading send.events = some reading) (hnonzero : reading ≠ .zero)
    (hmid : Run Makes c₁ mid c₂) (hkeeps : ∀ call ∈ mid, call.KeepsRequest) :
    c₂.lastRequestTime = stamped reading randomNumber ∧ c₂.config = c₀.config := by
  have hreach₁ := hreach.makes hsend
  have hstamp : send.stamp = some (stamped reading randomNumber) := by
    rw [Call.stamp, hop]
    dsimp only
    rw [hreading]
    exact if_neg hnonzero
  refine ⟨?_, (config_run hreach₁ hmid).trans (hsend.config hreach.valid)⟩
  rw [keepsRequest_run hreach₁ hmid hkeeps]
  exact (hsend.request_of_stamp hreach.valid hstamp).1

/-- **A request outstanding when the clock goes back is given up**, whatever its
timeout. The request was stamped at `t₀`, and `R`, before `t₀`, is a reading after an
empty read, in a later call with the request still outstanding: the call times out on
it, and moves on to the next server, unless `R` is in the second of `t₀` and less than
a millisecond before the stamp. -/
theorem set_back_times_out_iff {c₀ c₁ c₂ c₃ : Client A} {send call : Call A}
    {mid : List (Call A)} {randomNumber sendBlockMs : UInt32} {t₀ R : ℤ} (hreach : Reachable c₀)
    (hsend : Makes c₀ send c₁) (hop : send.op = .send randomNumber sendBlockMs)
    (hreading : firstReading send.events = some (.ofInstant t₀))
    (hnonzero : Timestamp.ofInstant t₀ ≠ .zero)
    (hmid : Run Makes c₁ mid c₂) (hkeeps : ∀ call ∈ mid, call.KeepsRequest)
    (hcall : Makes c₂ call c₃) (hreceive : call.IsReceive)
    (hR : Timestamp.ofInstant R ∈ emptyReadings call.events) (hback : R < t₀)
    (hpatient : c₀.responseTimeoutMs ≠ 0)
    (hspan : 1000 * (t₀ - R) + c₀.responseTimeoutMs.toNat * ticksPerSecond
      ≤ 1000 * ((ticksPerSecond - 4) * ticksPerSecond)) :
    (call.TimedOutAt (.ofInstant R) ∧
        c₃.currentServer = place c₂.servers.length c₂.currentServer 1) ↔
      ¬ (R / ticksPerSecond = t₀ / ticksPerSecond ∧
        (stamped (.ofInstant t₀) randomNumber).fractions.toNat
          < (Timestamp.ofInstant R).fractions.toNat + ticksPerMs) := by
  have hvalid₂ := ((hreach.makes hsend).run hmid).valid
  obtain ⟨hrequest, hconfig⟩ := Makes.request_kept hreach hsend hop hreading hnonzero hmid hkeeps
  have htimeout : c₂.responseTimeoutMs = c₀.responseTimeoutMs := congrArg (·.2.1) hconfig
  -- the stamp is an instant in the second of `t₀`
  obtain ⟨δ, hδ₀, hδ₁, hstamp, hunit⟩ := stamped_ofInstant t₀ randomNumber
  have hT := ticksPerSecond_eq
  have hiff := hcall.timedOutAt_iff hvalid₂ hreceive hR
  rw [hrequest, htimeout, hstamp,
    elapsed_back_iff (by omega) hpatient (by rw [hT] at hspan ⊢; omega), hunit] at hiff
  have hclose : R / ticksPerSecond = t₀ / ticksPerSecond →
      ((stamped (.ofInstant t₀) randomNumber).fractions.toNat
          < (Timestamp.ofInstant R).fractions.toNat + ticksPerMs ↔ t₀ + δ - R < ticksPerMs) := by
    intro hsame
    have hlo := Ticks.lo_eq_of_unit_eq (hunit.trans hsame.symm).symm
    rw [hstamp]
    have h₁ := ofInstant_fractions (t₀ + δ)
    have h₂ := ofInstant_fractions R
    omega
  have hturns : call.TimedOutAt (.ofInstant R) →
      c₃.currentServer = place c₂.servers.length c₂.currentServer 1 := by
    intro htimedOut
    have hrotates : call.rotates = true := by
      unfold Call.rotates
      rw [htimedOut.1]
    rw [hcall.turns hvalid₂, if_pos hrotates]
  constructor
  · intro ⟨htimedOut, _⟩ ⟨hsame, hsmall⟩
    exact hiff.mp htimedOut ⟨hsame, (hclose hsame).mp hsmall⟩
  · intro hfar
    have htimedOut := hiff.mpr fun ⟨hsame, hsmall⟩ => hfar ⟨hsame, (hclose hsame).mpr hsmall⟩
    exact ⟨htimedOut, hturns htimedOut⟩

/-- Half a second back: a request with a timeout of five seconds has timed out, and
the client is at the second server. -/
theorem set_back_times_out_after_half_a_second :
    let call := (perform 2 (.receive 100) (pending NoAuth.noAuth) (nothingAt ⟨999, 0x80000000⟩)).1
    call.TimedOutAt ⟨999, 0x80000000⟩ ∧ call.after.currentServer = 1 := by
  intro call
  have hcall : Makes (pending NoAuth.noAuth) call call.after :=
    perform_makes 2 (.receive 100) (pending NoAuth.noAuth) (nothingAt ⟨999, 0x80000000⟩)
  have hreading : firstReading (request NoAuth.noAuth).events
      = some (.ofInstant (ticksPerSecond * 1000)) := by decide
  have hR : Timestamp.ofInstant (ticksPerSecond * 1000 - 0x80000000)
      ∈ emptyReadings call.events := by decide
  refine (set_back_times_out_iff (twoServers_initial NoAuth.noAuth).reachable
    (request_makes NoAuth.noAuth) rfl hreading (by decide) (.nil _) (List.forall_mem_nil _) hcall
    ⟨100, rfl⟩ hR (by decide) (by decide) (by decide)).mpr ?_
  decide

end SetBack

end Sntp
