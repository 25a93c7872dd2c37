import Sntp.Client.Script
import Sntp.Client.Steps

/-!
# The two deadlines

Both are measured on host clock readings, and the readings are what these
results are about: instants of unbounded size that do not go back.

- `response_timeout_accurate`: the response timeout is neither spurious nor
  late, whatever the random bits in the stored request time;
- `retry_loops_terminate`: both retry loops return, within as many transport
  calls as the clock takes to pass the block time;
- `idle_receive_keeps_server_iff`: with nothing outstanding, when the receive
  call can still move to the next server. The zero sentinel is an ordinary
  instant to the elapsed time, so what decides is the clock's own value.

The accuracy is `elapsed_error` and `elapsed_since_stamped`; the rest is which
reading a call returns on.
-/

namespace Sntp

open Transition

variable {A : Type}

/-- Whole milliseconds of a deadline, in the code and exactly. -/
theorem toUInt64_le_iff {timeout : UInt32} {elapsed : UInt64} :
    timeout.toUInt64 ≤ elapsed ↔ timeout.toNat ≤ elapsed.toNat := by
  rw [UInt64.le_iff_toNat_le, UInt32.toNat_toUInt64]

/-! ## The response timeout -/

section ResponseTimeout

variable [Authenticator A]

/-- The call timed out, and `reading` was the last clock reading it took. -/
def Call.TimedOutAt (call : Call A) (reading : Timestamp) : Prop :=
  call.Returned (.ok .timedOut) ∧ (emptyReadings call.events).getLast? = some reading

/-- A receive call times out on a reading exactly when it meets the response
timeout. -/
theorem Makes.timedOutAt_iff {c c' : Client A} {call : Call A} (h : Makes c call c')
    (hvalid : c.Valid) (hreceive : call.IsReceive) {reading : Timestamp}
    (hreading : reading ∈ emptyReadings call.events) :
    call.TimedOutAt reading ↔
      c.responseTimeoutMs.toNat ≤ (calculateElapsedMs reading c.lastRequestTime).toNat := by
  obtain ⟨blockTimeMs, hop⟩ := hreceive
  obtain ⟨watch, result, houtcome, htrace⟩ := h.receives hvalid hop
  rw [← toUInt64_le_iff]
  constructor
  · intro htimedOut
    obtain ⟨hreturned, hlast⟩ := htimedOut
    obtain ⟨reading', hlast', hlate⟩ :=
      (htrace.reading_of_deadline hvalid).1 ((Call.returned_iff houtcome).mp hreturned)
    rw [hlast] at hlast'
    obtain rfl := Option.some.inj hlast'
    exact hlate
  · intro hlate
    obtain ⟨hresult, hlast⟩ := htrace.timedOut_of_reading hvalid hreading hlate
    exact ⟨(Call.returned_iff houtcome).mpr hresult, hlast⟩

/-- **The response timeout is accurate**, to 1.01 ms on one side and 1.03 ms on
the other: the clock has not gone back since the request was stamped at `t₀`,
and `R` is a reading after an empty read, in a later call with the request still
outstanding. The block time plays no part. -/
theorem response_timeout_accurate {c₀ c₁ c₂ c₃ : Client A} {send call : Call A}
    {mid : List (Call A)} {randomNumber sendBlockMs : UInt32} {t₀ R : ℤ} (hreach : Reachable c₀)
    (hsend : Makes c₀ send c₁) (hop : send.op = .send randomNumber sendBlockMs)
    (hreading : firstReading send.events = some (.ofInstant t₀))
    (hnonzero : Timestamp.ofInstant t₀ ≠ .zero)
    (hmid : Run Makes c₁ mid c₂) (hkeeps : ∀ call ∈ mid, call.KeepsRequest)
    (hcall : Makes c₂ call c₃) (hreceive : call.IsReceive)
    (hR : Timestamp.ofInstant R ∈ emptyReadings call.events) (hforward : t₀ ≤ R)
    (hspan : R - t₀ < (ticksPerSecond - 1) * ticksPerSecond) :
    (call.TimedOutAt (.ofInstant R) →
        (c₀.responseTimeoutMs.toNat : ℚ) - 1.01 < ticksMs (R - t₀)) ∧
      ((c₀.responseTimeoutMs.toNat : ℚ) + 1.03 ≤ ticksMs (R - t₀) →
        call.TimedOutAt (.ofInstant R)) := by
  have hreach₁ := hreach.makes hsend
  have hreach₂ := hreach₁.run hmid
  have hrequest : c₂.lastRequestTime = stamped (.ofInstant t₀) randomNumber := by
    rw [keepsRequest_run hreach₁ hmid hkeeps]
    have hstamp : send.stamp = some (stamped (.ofInstant t₀) randomNumber) := by
      rw [Call.stamp, hop]
      dsimp only
      rw [hreading]
      exact if_neg hnonzero
    exact (hsend.request_of_stamp hreach.valid hstamp).1
  have htimeout : c₂.responseTimeoutMs = c₀.responseTimeoutMs := by
    have hconfig := (config_run hreach₁ hmid).trans (hsend.config hreach.valid)
    exact (Prod.mk.inj (Prod.mk.inj hconfig).2).1
  have hiff := hcall.timedOutAt_iff hreach₂.valid hreceive hR
  rw [hrequest, htimeout] at hiff
  obtain ⟨hbelow, habove⟩ := elapsed_since_stamped randomNumber hforward hspan
  rw [hiff]
  constructor
  · intro hlate
    have hlate' : (c₀.responseTimeoutMs.toNat : ℚ) ≤
        (calculateElapsedMs (.ofInstant R) (stamped (.ofInstant t₀) randomNumber)).toNat := by
      exact_mod_cast hlate
    linarith
  · intro hlate
    have hlate' : (c₀.responseTimeoutMs.toNat : ℚ) <
        (calculateElapsedMs (.ofInstant R) (stamped (.ofInstant t₀) randomNumber)).toNat := by
      linarith
    exact_mod_cast hlate'.le

/-- The transport has nothing, and the clock stands at `reading`. -/
def nothingAt (reading : Timestamp) : Script where
  addresses := []
  readings := [reading, reading]
  sends := []
  reads := [(.ok 0, [])]

/-- Six seconds after a request with a timeout of five, the call times out. -/
theorem response_timeout_accurate_after_six_seconds :
    (perform 2 (.receive 100) (pending NoAuth.noAuth) (nothingAt ⟨1006, 0⟩)).1.TimedOutAt
      ⟨1006, 0⟩ := by
  have hcall := perform_makes 2 (.receive 100) (pending NoAuth.noAuth) (nothingAt ⟨1006, 0⟩)
  have hreading : firstReading (request NoAuth.noAuth).events
      = some (.ofInstant (ticksPerSecond * 1000)) := by decide
  have hR : Timestamp.ofInstant (ticksPerSecond * 1006) ∈ emptyReadings
      (perform 2 (.receive 100) (pending NoAuth.noAuth) (nothingAt ⟨1006, 0⟩)).1.events := by decide
  refine (response_timeout_accurate (twoServers_initial NoAuth.noAuth).reachable
    (request_makes NoAuth.noAuth) rfl hreading (by decide) (.nil _) (List.forall_mem_nil _) hcall
    ⟨100, rfl⟩ hR (by decide) (by decide)).2 ?_
  rw [← mul_sub, ticksMs_seconds]
  show ((5000 : ℕ) : ℚ) + 1.03 ≤ _
  norm_num

end ResponseTimeout

/-! ## The block time -/

section BlockTime

variable [Authenticator A]

/-- The block time a call was made with. -/
def Op.blockTimeMs : Op → UInt32
  | .send _ blockTimeMs => blockTimeMs
  | .receive blockTimeMs => blockTimeMs

/-- A call that ran out of block time: `SendTimeout`, or `NothingYet`. -/
def Call.GaveUp (call : Call A) : Prop :=
  call.outcome = some (.sent (.error .sendTimeout)) ∨ call.Returned (.ok .nothingYet)

/-- A call that went to the transport is one retry window, and gives up on a
reading past its block time. -/
theorem perform_window {H : Type} [SntpHost H] {c : Client A} (hvalid : c.Valid) (watch : ℕ)
    (op : Op) (host : H) {opened : Timestamp}
    (hopened : windowOpen (perform watch op c host).1.events = some opened) :
    Window op.blockTimeMs opened watch (perform watch op c host).1.events
        (perform watch op c host).1.outcome.isSome ∧
      ((perform watch op c host).1.GaveUp → ∃ reading,
        (emptyReadings (perform watch op c host).1.events).getLast? = some reading ∧
          op.blockTimeMs.toUInt64 ≤ calculateElapsedMs reading opened) := by
  cases op with
  | send randomNumber blockTimeMs =>
    obtain ⟨events, result, c', hcall, htrace⟩ :=
      perform_send watch randomNumber blockTimeMs host hvalid
    rw [hcall] at hopened ⊢
    refine ⟨?_, ?_⟩
    · rw [Option.isSome_map]
      exact htrace.window hopened
    · intro hgave
      refine htrace.reading_of_deadline ?_ hopened
      rcases hgave with hsent | hreceived
      · exact (Call.sent_iff rfl).mp hsent
      · exact absurd hreceived (Call.not_returned rfl _)
  | receive blockTimeMs =>
    obtain ⟨events, result, c', hcall, htrace⟩ := perform_receive watch blockTimeMs host hvalid
    rw [hcall] at hopened ⊢
    refine ⟨?_, ?_⟩
    · rw [Option.isSome_map]
      exact htrace.window hvalid hopened
    · intro hgave
      refine (htrace.reading_of_deadline hvalid).2 ?_ opened hopened
      rcases hgave with hsent | hreceived
      · rcases result with _ | r
        · cases hsent
        · cases hsent
      · exact (Call.returned_iff rfl).mp hreceived

/-- **Both retry loops terminate under a progressing clock.** `t 0` opened the
window of a call, `t 1, t 2, ..` are the readings after each empty transport
answer, and `t` does not go back. Once `t k` is past the block time by 1.01 ms,
the call has returned and went to the transport at most `k` times, whatever it
answered; and the call gives up only on a reading within 1.01 ms of the block
time or past it. -/
theorem retry_loops_terminate {H : Type} [SntpHost H] {c : Client A} (hreach : Reachable c)
    {watch : ℕ} {op : Op} {host : H} {call : Call A} (hcall : (perform watch op c host).1 = call)
    {t : ℕ → ℤ} (hmono : ∀ i j, i ≤ j → t i ≤ t j)
    (hspan : ∀ i, t i - t 0 < (ticksPerSecond - 1) * ticksPerSecond)
    (hopened : windowOpen call.events = some (.ofInstant (t 0)))
    (hreadings : ∀ (i : ℕ) (reading : Timestamp), (emptyReadings call.events)[i]? = some reading →
      reading = .ofInstant (t (i + 1))) :
    (∀ k, k ≤ watch → (op.blockTimeMs.toNat : ℚ) + 1.01 ≤ ticksMs (t k - t 0) →
      call.outcome ≠ none ∧ transportCalls call.events ≤ k) ∧
      (call.GaveUp → (op.blockTimeMs.toNat : ℚ) - 1.01 <
        ticksMs (t (emptyReadings call.events).length - t 0)) := by
  have hround := roundingMs_lt
  have herror : ∀ i, |((calculateElapsedMs (.ofInstant (t i)) (.ofInstant (t 0))).toNat : ℚ)
      - ticksMs (t i - t 0)| < roundingMs := by
    intro i
    exact elapsed_error (hmono 0 i (Nat.zero_le i)) (hspan i)
  subst hcall
  obtain ⟨hwindow, hdeadline⟩ := perform_window hreach.valid watch op host hopened
  generalize (perform watch op c host).1 = call at *
  constructor
  · intro k hk hpast
    -- the reading `t k` is past the window, if the call got that far
    have hlate : op.blockTimeMs.toUInt64
        ≤ calculateElapsedMs (.ofInstant (t k)) (.ofInstant (t 0)) := by
      rw [toUInt64_le_iff]
      have h := (abs_lt.mp (herror k)).1
      have hlt : (op.blockTimeMs.toNat : ℚ)
          < (calculateElapsedMs (.ofInstant (t k)) (.ofInstant (t 0))).toNat := by
        linarith
      exact_mod_cast hlt.le
    rcases k with _ | n
    · rw [ticksMs_sub, sub_self] at hpast
      have hnonneg : (0 : ℚ) ≤ op.blockTimeMs.toNat := Nat.cast_nonneg _
      linarith
    · rcases Nat.lt_or_ge n (emptyReadings call.events).length with hlt | hge
      · have hget := List.getElem?_eq_getElem hlt
        rw [← hreadings n _ hget] at hlate
        obtain ⟨hcalls, hreturned⟩ := hwindow.closes n _ hget hlate
        exact ⟨Option.isSome_iff_ne_none.mp hreturned, hcalls.le⟩
      · refine ⟨?_, hwindow.count.trans (by omega)⟩
        intro hnone
        have hstalled := hwindow.endless (by rw [hnone]; rfl)
        omega
  · intro hgave
    obtain ⟨reading, hlast, hlate⟩ := hdeadline hgave
    rw [List.getLast?_eq_getElem?] at hlast
    have hlt := (List.getElem?_eq_some_iff.mp hlast).1
    have hreading := hreadings _ reading hlast
    rw [show (emptyReadings call.events).length - 1 + 1 = (emptyReadings call.events).length by
      omega] at hreading
    rw [hreading, toUInt64_le_iff] at hlate
    have hlate' : (op.blockTimeMs.toNat : ℚ) ≤ (calculateElapsedMs
        (.ofInstant (t (emptyReadings call.events).length)) (.ofInstant (t 0))).toNat := by
      exact_mod_cast hlate
    have h := (abs_lt.mp (herror (emptyReadings call.events).length)).2
    linarith

/-- Nothing leaves for two seconds. -/
def stuckFrom1000 : Script where
  addresses := [some 7]
  readings := [⟨1000, 0⟩, ⟨1000, 0⟩, ⟨1001, 0⟩, ⟨1002, 0⟩]
  sends := [.ok 0, .ok 0, .ok 0]
  reads := []

/-- The clock of that host, from the window on: it stops at 1002 s. -/
def stuckClock (i : ℕ) : ℤ := ticksPerSecond * (1000 + min i 2)

/-- A block time of a second and a half is over in two rounds. -/
theorem retry_loops_terminate_after_two_seconds :
    transportCalls (perform 5 (.send 0 1500) (twoServers NoAuth.noAuth) stuckFrom1000).1.events
      ≤ 2 := by
  have hmono : ∀ i j, i ≤ j → stuckClock i ≤ stuckClock j := by
    intro i j hij
    unfold stuckClock ticksPerSecond
    omega
  have hspan : ∀ i, stuckClock i - stuckClock 0 < (ticksPerSecond - 1) * ticksPerSecond := by
    intro i
    unfold stuckClock ticksPerSecond
    omega
  have hreadings : ∀ (i : ℕ) (reading : Timestamp),
      (emptyReadings (perform 5 (.send 0 1500) (twoServers NoAuth.noAuth)
        stuckFrom1000).1.events)[i]? = some reading →
      reading = .ofInstant (stuckClock (i + 1)) := by
    intro i reading hreading
    match i, hreading with
    | 0, h => cases h; rfl
    | 1, h => cases h; rfl
  refine ((retry_loops_terminate (twoServers_initial NoAuth.noAuth).reachable rfl hmono hspan rfl
    hreadings).1 2 (by decide) ?_).2
  show ((1500 : ℕ) : ℚ) + 1.01 ≤ ticksMs (ticksPerSecond * 1002 - ticksPerSecond * 1000)
  rw [← mul_sub, ticksMs_seconds]
  norm_num

end BlockTime

/-! ## Nothing outstanding -/

section Idle

variable [Authenticator A]

/-- The call did not rotate away from its server, nor say that it did. -/
structure Call.KeepsServer (call : Call A) : Prop where
  notTimedOut : ¬ call.Returned (.ok .timedOut)
  notRejected : ¬ call.Returned (.ok .rejected)
  index : call.after.currentServer = call.before.currentServer

/-- **With no request outstanding, a receive call keeps its server exactly while
the clock is short of the response timeout**, as a number of milliseconds into
its era. Past that, the first empty read times out a request that was never
made. -/
theorem idle_receive_keeps_server_iff {c c' : Client A} {call : Call A} (hreach : Reachable c)
    (hcall : Makes c call c') (hreceive : call.IsReceive) (hidle : c.lastRequestTime = .zero) :
    call.KeepsServer ↔ ∀ reading ∈ emptyReadings call.events,
      reading.ms < c.responseTimeoutMs.toNat := by
  have hvalid := hreach.valid
  have hmeets : ∀ reading ∈ emptyReadings call.events,
      (call.TimedOutAt reading ↔ (c.responseTimeoutMs.toNat : ℤ) ≤ reading.ms) := by
    intro reading hreading
    rw [hcall.timedOutAt_iff hvalid hreceive hreading, hidle, ← elapsed_since_zero]
    exact Int.ofNat_le.symm
  constructor
  · intro hkeeps reading hreading
    by_contra hlate
    exact hkeeps.notTimedOut ((hmeets reading hreading).mpr (not_lt.mp hlate)).1
  · intro hearly
    obtain ⟨_, _, hnotRejected⟩ := hcall.nothing_outstanding hvalid hidle
    obtain ⟨blockTimeMs, hop⟩ := hreceive
    obtain ⟨watch, result, houtcome, htrace⟩ := hcall.receives hvalid hop
    have hnotTimedOut : ¬ call.Returned (.ok .timedOut) := by
      intro hreturned
      obtain ⟨reading, hlast, _⟩ :=
        (htrace.reading_of_deadline hvalid).1 ((Call.returned_iff houtcome).mp hreturned)
      have hmem := List.mem_of_getLast? hlast
      have hlate := (hmeets reading hmem).mp ⟨hreturned, hlast⟩
      exact absurd (hearly reading hmem) (not_lt.mpr hlate)
    refine ⟨hnotTimedOut, hnotRejected, ?_⟩
    rw [hcall.after, hcall.before]
    have hindex : c'.currentServer = (c.settle result).currentServer :=
      congrArg Session.index htrace.session
    rw [hindex]
    exact Client.settle_keeps_index
      (fun h => hnotTimedOut ((Call.returned_iff houtcome).mpr h))
      (fun h => hnotRejected ((Call.returned_iff houtcome).mpr h))

/-- Far into an era, the first empty read of a client that has sent nothing makes
it leave its server. -/
theorem idle_receive_leaves_server :
    let call := (perform 2 (.receive 100) (twoServers NoAuth.noAuth) (nothingAt ⟨1001, 0⟩)).1
    Reachable (twoServers NoAuth.noAuth) ∧ Makes (twoServers NoAuth.noAuth) call call.after ∧
      call.IsReceive ∧ (twoServers NoAuth.noAuth).lastRequestTime = .zero ∧
      call.Returned (.ok .timedOut) ∧ call.before.currentServer = 0 ∧
      call.after.currentServer = 1 ∧ ¬ call.KeepsServer :=
  ⟨(twoServers_initial NoAuth.noAuth).reachable, perform_makes _ _ _ _, ⟨100, rfl⟩, rfl, rfl, rfl,
    rfl, fun h => h.notTimedOut rfl⟩

/-- Three seconds into an era, it keeps its server. -/
theorem idle_receive_keeps_server_at_three_seconds :
    (perform 2 (.receive 0) (twoServers NoAuth.noAuth) (nothingAt ⟨3, 0⟩)).1.KeepsServer := by
  refine (idle_receive_keeps_server_iff (twoServers_initial NoAuth.noAuth).reachable
    (perform_makes 2 (.receive 0) _ (nothingAt ⟨3, 0⟩)) ⟨0, rfl⟩ rfl).mpr ?_
  decide

end Idle

end Sntp
