import Sntp.Client.Agreement
import Sntp.Wire.Poll

/-!
# A clock kept by polling

Every exchange leaves the clock within `exchangeError` of true time
(`Calls.accuracy`), and from then on it drifts. A client that is answered at least
every `P` milliseconds therefore keeps it within `exchangeError + ρ P`, however
long it runs and whatever the network does in between (`Disciplined.run`). That is
what the poll interval is for:

> `polled_clock_accurate`: a clock good to `t` parts per million, set again every
> `calculatePollInterval t a` seconds, stays within `a` milliseconds of true time,
> up to the error of one exchange.

It takes a first exchange, and until then a clock that is within a bound `B` of true
time, short of half an era; a clock that drifts no more than was allowed for; and a
host that steps it wherever it is adjusted, as everywhere on this network.
-/

namespace Sntp

open Transition Drift

variable {A : Type}

/-- How far off an exchange of at most `D` ms leaves the clock. -/
def exchangeError (ρ σ D : ℚ) : ℚ := (1 / 2 + ρ) * D + σ + 1.52

namespace System

/-- A step of a system that is polled: an exchange takes at most `D`, and after the
first setting of the clock the next is never more than `P` away. Until the first
setting the clock is within `B` of true time. -/
structure Polls (D P B : ℚ) (s : System A) (l : Option (Call A)) (s' : System A) : Prop where
  exchange : ∀ call, l = some call → call.adjusts ≠ [] →
    ∀ asked, s.asked = some asked → s'.time - asked.began.time ≤ D
  polled : ∀ t, s'.setAt = some t → s'.time - t ≤ P
  near : s'.setAt = none → |s'.network.clock.behind| ≤ B

/-- A step of a system whose clock is set: all that is asked is that it was polled, and
of a call that sets it that the exchange was short. -/
theorem Polls.of_set {D P B t : ℚ} {s s' : System A} {l : Option (Call A)}
    (hset : s'.setAt = some t) (hpolled : s'.time - t ≤ P)
    (hexchange : ∀ call, l = some call → call.adjusts ≠ [] → ∀ asked, s.asked = some asked →
      s'.time - asked.began.time ≤ D) : Polls D P B s l s' := by
  refine ⟨hexchange, ?_, ?_⟩
  · intro t' ht'
    obtain rfl := Option.some.inj (hset.symm.trans ht')
    exact hpolled
  · intro hnone
    rw [hset] at hnone
    cases hnone

/-- Without a call only the first of these is asked. -/
theorem Polls.of_wait {D P B t : ℚ} {s s' : System A} (hset : s'.setAt = some t)
    (hpolled : s'.time - t ≤ P) : Polls D P B s none s' :=
  .of_set hset hpolled fun call hcall => by cases hcall

variable [Authenticator A]

/-- The bound on the clock's error throughout. -/
def worst (ρ σ D P B : ℚ) : ℚ := max B (exchangeError ρ σ D + ρ * P)

/-- The clock is kept: before the first setting within `B`, after it within the
error of the exchange and the drift since; and no request was made while it was
further off than the worst of these. -/
structure Disciplined (ρ σ D P B : ℚ) (s : System A) : Prop where
  inv : s.Inv ρ σ
  kept : ∀ t, s.setAt = some t →
    Kept ρ (exchangeError ρ σ D) t s.network.clock ∧ s.time - t ≤ P
  near : s.setAt = none → |s.network.clock.behind| ≤ B
  asked : ∀ asked, s.asked = some asked → |asked.began.behind| ≤ worst ρ σ D P B

variable {ρ σ D P B : ℚ} {s s' : System A} {call : Call A}

/-- However it came about, the clock is no worse than the worst. -/
theorem Disciplined.behind_le (h : s.Disciplined ρ σ D P B) (hρ : 0 ≤ ρ) :
    |s.network.clock.behind| ≤ worst ρ σ D P B := by
  cases hset : s.setAt with
  | none => exact (h.near hset).trans (le_max_left _ _)
  | some t =>
    obtain ⟨hkept, hpolled⟩ := h.kept t hset
    exact (hkept.behind_le hρ hpolled).trans (le_max_right _ _)

/-- A step that sets no clock only lets it drift. -/
theorem Disciplined.drift (h : s.Disciplined ρ σ D P B) (hρ : 0 ≤ ρ) (hinv : s'.Inv ρ σ)
    {l : Option (Call A)} (hpolls : Polls D P B s l s')
    (hdrift : Drifts ρ s.network.clock s'.network.clock) (hsetAt : s'.setAt = s.setAt)
    (hasked : s'.asked = s.asked ∨ ∃ call, s'.asked = some ⟨call, s.network.clock⟩) :
    s'.Disciplined ρ σ D P B := by
  refine ⟨hinv, ?_, hpolls.near, ?_⟩
  · intro t ht
    refine ⟨?_, hpolls.polled t ht⟩
    rw [hsetAt] at ht
    exact (h.kept t ht).1.drifts hdrift
  · intro asked hasked'
    rcases hasked with hsame | ⟨call, hnew⟩
    · rw [hsame] at hasked'
      exact h.asked asked hasked'
    · rw [hnew] at hasked'
      obtain rfl := Option.some.inj hasked'
      exact h.behind_le hρ

/-- A step that sets it leaves the error of the exchange. -/
theorem Disciplined.set (h : s.Disciplined ρ σ D P B) (hρ : 0 ≤ ρ)
    (hrange : worst ρ σ D P B + (1 + ρ) * D + σ < 2 ^ 31 * 1000 - 3)
    (hcall : Calls ρ σ s call s') (hinv : s'.Inv ρ σ) (hpolls : Polls D P B s (some call) s')
    (hadjusts : call.adjusts ≠ []) : s'.Disciplined ρ σ D P B := by
  obtain ⟨e, he⟩ := List.exists_mem_of_ne_nil _ hadjusts
  obtain ⟨asked, _, _, _, _, _, hexchange, _⟩ := hcall.exchange h.inv he
  have hasked := hexchange.outstanding.asked
  have hstamp := hcall.makes.stamp_of_adjusts h.inv.reachable.valid he
  have hD := hpolls.exchange call rfl hadjusts asked hasked
  have hworst := h.asked asked hasked
  have hmul := mul_le_mul_of_nonneg_left hD (show 0 ≤ 1 + ρ by linarith)
  have haccurate := hcall.accuracy h.inv hadjusts hasked (by linarith)
  have herror : |s'.network.clock.behind| ≤ exchangeError ρ σ D := by
    have hmul' := mul_le_mul_of_nonneg_left hD (show 0 ≤ 1 / 2 + ρ by linarith)
    unfold exchangeError
    linarith
  have hset : s'.setAt = some s'.time := by
    rw [hcall.setAt, if_neg hadjusts]
  refine ⟨hinv, ?_, hpolls.near, ?_⟩
  · intro t ht
    refine ⟨?_, hpolls.polled t ht⟩
    rw [hset] at ht
    obtain rfl := Option.some.inj ht
    exact Kept.of_set herror
  · intro asked' hasked'
    rw [hcall.asked, if_pos hstamp] at hasked'
    exact h.asked asked' hasked'

/-- **Every step of a polled system keeps its clock.** -/
theorem Disciplined.step (h : s.Disciplined ρ σ D P B) (hρ : 0 ≤ ρ)
    (hrange : worst ρ σ D P B + (1 + ρ) * D + σ < 2 ^ 31 * 1000 - 3) {l : Option (Call A)}
    (hstep : Step ρ σ s l s') (hpolls : Polls D P B s l s') : s'.Disciplined ρ σ D P B := by
  have hinv := h.inv.step hstep
  cases hstep with
  | wait hwait => exact h.drift hρ hinv hpolls (hwait.drifts nofun) rfl (Or.inl rfl)
  | @call _ call hcall =>
    by_cases hadjusts : call.adjusts = []
    · refine h.drift hρ hinv hpolls ?_ ?_ ?_
      · refine Network.drifts hcall.network ?_
        intro e he
        rw [← Bool.not_eq_true]
        exact List.filter_eq_nil_iff.mp hadjusts e he
      · rw [hcall.setAt, if_pos hadjusts]
      · by_cases hstamp : call.stamp = none
        · exact Or.inl (by rw [hcall.asked, if_pos hstamp])
        · exact Or.inr ⟨call, by rw [hcall.asked, if_neg hstamp]⟩
    · exact h.set hρ hrange hcall hinv hpolls hadjusts

theorem Disciplined.of_initial (h : s.Initial) (hB : |s.network.clock.behind| ≤ B) :
    s.Disciplined ρ σ D P B := by
  refine ⟨Inv.of_initial h, ?_, fun _ => hB, ?_⟩
  · rw [h.setAt]
    exact nofun
  · rw [h.asked]
    exact nofun

/-- So does every run. -/
theorem Disciplined.run {s₀ : System A} {calls : List (Call A)} (h₀ : s₀.Initial)
    (hB : |s₀.network.clock.behind| ≤ B) (hρ : 0 ≤ ρ)
    (hrange : worst ρ σ D P B + (1 + ρ) * D + σ < 2 ^ 31 * 1000 - 3)
    (hrun : Observed (fun s l s' => Step ρ σ s l s' ∧ Polls D P B s l s') s₀ calls s) :
    s.Disciplined ρ σ D P B :=
  Observed.inv (I := Disciplined ρ σ D P B)
    (fun hkept hstep => hkept.step hρ hrange hstep.1 hstep.2) hrun (of_initial h₀ hB)

/-- What a poll interval allows a clock to drift is within the accuracy it was
calculated for. -/
theorem poll_drift {tolerance accuracy : UInt16} {p : UInt32}
    (hp : calculatePollInterval tolerance accuracy = .ok p)
    (hρ : ρ ≤ tolerance.toNat / 1000000) : ρ * (1000 * p.toNat) ≤ accuracy.toNat := by
  have hbudget : p.toNat * tolerance.toNat ≤ 1000 * accuracy.toNat :=
    (calculatePollInterval_greatest hp).1.2
  have hbudget' : (p.toNat : ℚ) * tolerance.toNat ≤ 1000 * accuracy.toNat := by
    exact_mod_cast hbudget
  calc ρ * (1000 * p.toNat)
      ≤ tolerance.toNat / 1000000 * (1000 * p.toNat) :=
        mul_le_mul_of_nonneg_right hρ (by positivity)
    _ = p.toNat * tolerance.toNat / 1000 := by ring
    _ ≤ accuracy.toNat := by linarith

/-- **The poll interval keeps the clock.** Take a system whose clock drifts by at most
`tolerance` parts per million and is stepped wherever it is adjusted, with servers
right to `σ` ms. It is within `B` of true time until it is first set; every exchange
takes at most `D`; and after the first setting there is another within the calculated
interval, give or take `late` ms. Then in every run, from the first setting on, the
clock is within `accuracy` ms of true time at every step, up to what it drifts in
the lateness and the error of one exchange. For the era arithmetic the larger of `B`
and that bound, with an exchange on top, has to be 3 ms short of half an era. -/
theorem polled_clock_accurate {s₀ : System A} {calls : List (Call A)}
    {tolerance accuracy : UInt16} {p : UInt32} {late t : ℚ}
    (hp : calculatePollInterval tolerance accuracy = .ok p)
    (hρ₀ : 0 ≤ ρ) (hρ : ρ ≤ tolerance.toNat / 1000000)
    (h₀ : s₀.Initial) (hB : |s₀.network.clock.behind| ≤ B)
    (hrange : max B (accuracy.toNat + ρ * late + exchangeError ρ σ D) + (1 + ρ) * D + σ
      < 2 ^ 31 * 1000 - 3)
    (hrun : Observed (fun s l s' => Step ρ σ s l s' ∧ Polls D (1000 * p.toNat + late) B s l s')
      s₀ calls s)
    (hset : s.setAt = some t) :
    |s.network.clock.behind| ≤ accuracy.toNat + ρ * late + exchangeError ρ σ D := by
  have hdrift := poll_drift hp hρ
  have hbound : exchangeError ρ σ D + ρ * (1000 * p.toNat + late)
      ≤ accuracy.toNat + ρ * late + exchangeError ρ σ D := by
    rw [mul_add]
    linarith
  have hworst := max_le_max (le_refl B) hbound
  obtain ⟨hkept, hpolled⟩ :=
    (Disciplined.run h₀ hB hρ₀ (by unfold worst; linarith) hrun).kept t hset
  exact (hkept.behind_le hρ₀ hpolled).trans hbound

/-! ## Polled twice -/

/-- Sends at a reading of 1511 s and fifteen 32nds. -/
def sentAt1511 : Script where
  addresses := [some 7]
  readings := [⟨1511, 0x78000000⟩, ⟨1511, 0x78000000⟩]
  sends := [.ok 48]
  reads := []

/-- What a server answers it at 1512 s. -/
def answer1512 : Buffer := reply 1 ⟨1511, 0x78000000⟩ ⟨1512, 0⟩ ⟨1512, 0⟩

/-- Waits, and reads the answer two seconds after the request. -/
def answered1513 : Script where
  addresses := []
  readings := [⟨1511, 0x78000000⟩, ⟨1513, 0x78000000⟩]
  sends := []
  reads := [(.ok 48, answer1512)]

/-- The request, 510 s after the clock was set. -/
def polling : Call NoAuth := (perform 2 (.send 0 100) answering.after sentAt1511).1

/-- The call that takes the answer to it. -/
def polled : Call NoAuth := (perform 2 (.receive 100) polling.after answered1513).1

/-- For 510 s nothing happens, but that the clock loses 31.25 of the 500 ms it was
ahead. -/
def beforePoll : System NoAuth :=
  { afterAnswer with network := { afterAnswer.network with clock := ⟨1000 * 1511, -468.75⟩ } }

/-- The request is out, and remembers how far ahead the clock was. -/
def afterPolling : System NoAuth where
  client := polling.after
  network := { beforePoll.network with requests :=
    ⟨1000 * 1511, requestHeader ⟨1511, 0x78000000⟩⟩ :: beforePoll.network.requests }
  asked := some ⟨polling, ⟨1000 * 1511, -468.75⟩⟩
  setAt := some (1000 * 1001)

/-- The answer took as long as the request, so the clock is right but for the fraction
of a millisecond; and it is 512 s since it was set. -/
def afterPoll : System NoAuth where
  client := polled.after
  network := ⟨⟨1000 * 1513, -468.75 - (-468 : ℤ)⟩, afterPolling.network.requests,
    ⟨1000 * 1512, requestHeader ⟨1511, 0x78000000⟩⟩ :: afterPolling.network.received,
    answer1512 :: afterPolling.network.answers⟩
  asked := afterPolling.asked
  setAt := some (1000 * 1513)

/-- A minute and a half later. -/
def sincePoll : System NoAuth :=
  { afterPoll with network := { afterPoll.network with clock := ⟨1000 * 1600, 7⟩ } }

/-- What a clock shows that stands on a tick. -/
theorem clock_shows {k : Network} {n : ℤ} {t secret : Timestamp}
    (hclock : k.clock.reading = ticksMs n) (ht : t = .ofInstant n) : k.Allows secret (.now t) := by
  rw [Network.Allows, hclock, ofMs_ticks]
  exact ht

/-- The first tick of the second exchange. -/
theorem reading1511 : Clock.reading (⟨1000 * 1511, -468.75⟩ : Clock ℚ)
    = ticksMs (1511 * ticksPerSecond + 0x78000000) := by
  norm_num [Clock.reading, ticksMs_eq, ticksPerSecond]

theorem polling_step : Step (1 / 10000) 0 beforePoll (some polling) afterPolling := by
  refine .call ⟨perform_makes 2 _ _ _, ?_, ?_, rfl, rfl⟩
  · show Observed _ _ [Event.resolveDns ⟨"a", 123⟩ (some 7), Event.now ⟨1511, 0x78000000⟩,
      Event.now ⟨1511, 0x78000000⟩,
      Event.sendTo 7 123 (requestHeader ⟨1511, 0x78000000⟩) (.ok 48)] _
    exact .seen (.callback trivial) (.seen (.callback (clock_shows reading1511 rfl))
      (.seen (.callback (clock_shows reading1511 rfl)) (.single (.callback trivial))))
  · intro stored hstored sent hsent
    obtain rfl := List.mem_singleton.mp hsent
    obtain rfl := Option.some.inj hstored
    decide

/-- While the client waits, the datagram arrives after a second and is answered, and a
second later the answer is there. -/
theorem polled_meanwhile (secret : Timestamp) :
    Observed (Network.Step (1 / 10000) 0 secret) afterPolling.network []
      { afterPoll.network with clock := ⟨1000 * 1513, -468.75⟩ } := by
  have hrequest : Drifts (1 / 10000 : ℚ) ⟨1000 * 1511, -468.75⟩ ⟨1000 * 1512, -468.75⟩ := by
    constructor <;> norm_num
  have hanswer : Drifts (1 / 10000 : ℚ) ⟨1000 * 1512, -468.75⟩ ⟨1000 * 1513, -468.75⟩ := by
    constructor <;> norm_num
  have hserver : Timestamp.ofMs (1000 * 1512) = ⟨1512, 0⟩ := ofMs_seconds 1512
  have hserves : Serves 0 (requestHeader ⟨1511, 0x78000000⟩) (1000 * 1512) (1000 * 1512)
      answer1512 := by
    have hexact : |(1000 * 1512 : ℚ) - 1000 * 1512| ≤ 0 := by norm_num
    exact ⟨by decide, ⟨_, hexact, by rw [hserver]; decide⟩, ⟨_, hexact, by rw [hserver]; decide⟩⟩
  exact .silent (.pass hrequest) (.silent (.arrive List.mem_cons_self)
    (.silent (.serve List.mem_cons_self hserves) (.silent (.pass hanswer) (.nil _))))

set_option maxRecDepth 1000 in
theorem polled_step : Step (1 / 10000) 0 afterPolling (some polled) afterPoll := by
  refine .call ⟨perform_makes 2 _ _ _, ?_, nofun, rfl, rfl⟩
  show Observed _ _ ([Event.now ⟨1511, 0x78000000⟩] ++
    ([] ++ [Event.recvFrom 7 123 (requestHeader ⟨1511, 0x78000000⟩) answer1512 (.ok 48),
      Event.now ⟨1513, 0x78000000⟩,
      Event.adjustClock ⟨"a", 123⟩ ⟨1512, 0⟩ (-468) .none])) _
  have hreading : Clock.reading (⟨1000 * 1513, -468.75⟩ : Clock ℚ)
      = ticksMs (1513 * ticksPerSecond + 0x78000000) := by
    norm_num [Clock.reading, ticksMs_eq, ticksPerSecond]
  refine .append (.single (.callback (clock_shows reading1511 rfl)))
    (.append (polled_meanwhile _) ?_)
  refine .seen (.callback fun _ => Or.inl ⟨answer1512, List.mem_cons_self, List.prefix_refl _⟩) ?_
  exact .seen (.callback (clock_shows hreading rfl)) (.single (.callback trivial))

/-- Between the calls the clock drifts. -/
theorem drifting_step {s : System NoAuth} {clock : Clock ℚ}
    (h : Drifts (1 / 10000) s.network.clock clock) :
    Step (1 / 10000) 0 s none { s with network := { s.network with clock } } :=
  .wait (show Network.Step (1 / 10000) 0 .zero s.network none _ from .pass h)

/-- A clock good to 100 parts per million, wanted to within 100 ms, is polled every
512 s. It is set by two exchanges of a second and of two, the second one at the last
moment, and a minute and a half later it is as good as it was wanted, up to the error
of the longer one. -/
theorem polled_clock_accurate_of_two :
    |sincePoll.network.clock.behind|
      ≤ (100 : UInt16).toNat + 1 / 10000 * 0 + exchangeError (1 / 10000) 0 2000 := by
  have hrun : Observed (fun s l s' => Step (1 / 10000) 0 s l s' ∧ Polls 2000 512000 0 s l s')
      beforeAsking [asking, answering, polling, polled] sincePoll := by
    have hbefore : Drifts (1 / 10000 : ℚ) afterAnswer.network.clock ⟨1000 * 1511, -468.75⟩ := by
      constructor <;> norm_num [afterAnswer]
    have hsince : Drifts (1 / 10000 : ℚ) afterPoll.network.clock ⟨1000 * 1600, 7⟩ := by
      constructor <;> norm_num [afterPoll]
    refine .seen ⟨asking_step, ?_⟩ (.seen ⟨answering_step, .of_set rfl ?_ ?_⟩ (.silent
      ⟨drifting_step hbefore, .of_wait rfl ?_⟩ (.seen ⟨polling_step, .of_set rfl ?_ ?_⟩
      (.seen ⟨polled_step, .of_set rfl ?_ ?_⟩ (.silent
      ⟨drifting_step hsince, .of_wait rfl ?_⟩ (.nil _))))))
    · -- nothing was asked before, and the clock is still unset
      refine ⟨?_, ?_, fun _ => by norm_num [afterAsking]⟩
      · intro _ _ _ asked hasked
        cases hasked
      · intro t ht
        cases ht
    · norm_num [time, afterAnswer]
    · intro _ _ _ asked hasked
      obtain rfl := Option.some.inj hasked
      norm_num [time, afterAnswer]
    · norm_num [time]
    · norm_num [time, afterPolling, beforePoll]
    · -- a request sets no clock
      intro call hcall hadjusts
      obtain rfl := Option.some.inj hcall
      exact absurd rfl hadjusts
    · norm_num [time, afterPoll]
    · intro _ _ _ asked hasked
      obtain rfl := Option.some.inj hasked
      norm_num [time, afterPoll]
    · norm_num [time]
  have hp : calculatePollInterval 100 100 = .ok 512 := by decide
  have h100 : (100 : UInt16).toNat = 100 := rfl
  have hP : (1000 * (512 : UInt32).toNat + 0 : ℚ) = 512000 := by
    rw [show (512 : UInt32).toNat = 512 from rfl]
    norm_num
  rw [← hP] at hrun
  refine polled_clock_accurate hp (by norm_num) ?_ beforeAsking_initial ?_ ?_ hrun rfl
  · norm_num [h100]
  · norm_num [beforeAsking]
  · norm_num [h100, exchangeError]

end System

end Sntp
