import Sntp.Client.Network

/-!
# The client and its server agree

On a network that loses, delays, duplicates and reorders, with stateless servers
that answer whatever arrives as often as it arrives:

- `adjustments_agree`: every clock adjustment is made on an answer a server gave
  to a datagram of the last request, between the call that made that request and
  the return of the one that took the answer; and nothing set the clock in between;
- `adjustment_accuracy`: so what it reports is within half of that time of how far
  the clock was behind, up to what it drifted and 1.52 ms, and a clock stepped by it
  is left as close to true time.

`System.Inv` carries it: while a request is outstanding, any datagram that bears
its stamp was sent by the call that stamped it, after the reading it was made of.
-/

namespace Sntp

open Transition Drift

variable {A : Type}

section Calls

variable [Authenticator A] {c c' : Client A} {call : Call A}

/-- A receive call sends nothing. -/
theorem Receives.sends_nothing {blockTimeMs : UInt32} {watch : ℕ} {events : List Event}
    {result : Option (Except ReceiveError Reception)}
    (h : Receives c blockTimeMs watch events result c') (hvalid : c.Valid) (address : UInt32)
    (port : UInt16) (bytes : Buffer) (answer : Except NetworkError ℕ) :
    .sendTo address port bytes answer ∉ events := by
  intro hmem
  have hquiet : ∀ port', ¬ c.Quiet port' (.sendTo address port bytes answer) := by
    intro port' hquiet
    rcases hquiet with ⟨_, h⟩ | ⟨_, _, _, h, _⟩ <;> cases h
  obtain ⟨server, _, hshape⟩ := h.quiet_or_full hvalid
  rcases hshape with
    ⟨hall, _⟩ | ⟨before, _, packet, receivedAt, rest, r, rfl, hbefore, _, hjudged, _⟩
  · exact hquiet _ (hall _ hmem)
  · rcases List.mem_append.mp hmem with hmem | hmem
    · exact hquiet _ (hbefore _ hmem)
    · rcases List.mem_cons.mp hmem with h | hmem
      · cases h
      · rcases List.mem_cons.mp hmem with h | hmem
        · cases h
        · cases (hjudged.not_quiet hmem).1

/-- A call that stamps no request sends nothing. -/
theorem Makes.sends_nothing (h : Makes c call c') (hvalid : c.Valid) (hstamp : call.stamp = none)
    (address : UInt32) (port : UInt16) (bytes : Buffer) (answer : Except NetworkError ℕ) :
    .sendTo address port bytes answer ∉ call.events := by
  rcases h.cases hvalid with ⟨_, _, _, _, hcall, htrace⟩ | ⟨_, _, _, _, htrace⟩
  · obtain ⟨_, _, hcase⟩ := htrace.written
    rcases hcase with ⟨hevents, _⟩ | ⟨_, hevents, _⟩ | ⟨_, reading, _, _, hevents, _, hreading, _⟩
    · rw [hevents, List.mem_singleton]
      exact nofun
    · rw [hevents]
      intro hmem
      rcases List.mem_pair.mp hmem with h | h <;> cases h
    · -- this one has stamped its request
      rw [hcall, Call.stamp] at hstamp
      dsimp only at hstamp
      rw [hevents] at hstamp
      exact absurd hstamp (by simp [firstReading, hreading])
  · exact htrace.sends_nothing hvalid address port bytes answer

/-- A call that stamps a request resolves, reads the clock, and stamps what it
read; it sets no clock. -/
theorem Makes.stamping (h : Makes c call c') (hvalid : c.Valid) {stored : Timestamp}
    (hstamp : call.stamp = some stored) :
    ∃ server address reading randomNumber rest,
      call.events = .resolveDns server (some address) :: .now reading :: rest ∧
      stored = stamped reading randomNumber ∧ ∀ e ∈ call.events, e.isAdjust = false := by
  rcases h.cases hvalid with ⟨randomNumber, _, _, _, hcall, htrace⟩ | ⟨_, _, _, hcall, _⟩
  · have hadjusts : ∀ e ∈ call.events, e.isAdjust = false := by
      intro e he
      rw [← Bool.not_eq_true]
      exact List.filter_eq_nil_iff.mp htrace.no_adjust e he
    rw [hcall, Call.stamp] at hstamp
    dsimp only at hstamp
    obtain ⟨server, _, hcase⟩ := htrace.written
    rcases hcase with ⟨hevents, _⟩ | ⟨_, hevents, _⟩ |
      ⟨address, reading, signing, rest, hevents, _, hreading, _⟩
    · rw [hevents] at hstamp
      cases hstamp
    · rw [hevents] at hstamp
      cases hstamp
    · refine ⟨server, address, reading, randomNumber, signing ++ rest, hevents, ?_, hadjusts⟩
      rw [hevents] at hstamp
      simp only [firstReading, if_neg hreading] at hstamp
      exact (Option.some.inj hstamp).symm
  · rw [hcall] at hstamp
    cases hstamp

/-- A call that adjusts the clock stamps no request. -/
theorem Makes.stamp_of_adjusts (h : Makes c call c') (hvalid : c.Valid) {e : Event}
    (he : e ∈ call.adjusts) : call.stamp = none := by
  obtain ⟨_, _, hop, _⟩ := h.adjusting hvalid he
  rw [Call.stamp, hop]

/-- Everything before the adjustment a call ends on leaves the clock alone. -/
theorem Makes.adjusts_last (h : Makes c call c') (hvalid : c.Valid) {before : List Event}
    {e : Event} (hevents : call.events = before ++ [e]) (he : e.isAdjust = true) :
    ∀ e' ∈ before, e'.isAdjust = false := by
  have hone := h.adjusts_length hvalid
  rw [Call.adjusts, hevents, List.filter_append, List.filter_cons_of_pos he, List.filter_nil,
    List.length_append, List.length_singleton] at hone
  have hnone : before.filter Event.isAdjust = [] := List.eq_nil_of_length_eq_zero (by omega)
  intro e' he'
  rw [← Bool.not_eq_true]
  exact List.filter_eq_nil_iff.mp hnone e' he'

end Calls

namespace System

variable [Authenticator A] {ρ σ : ℚ} {s s' : System A} {call : Call A}

/-! ## What the outstanding request is -/

/-- Where an outstanding request comes from: the call that stamped it, the clock it
read, and the datagrams that bear it. -/
structure Outstanding (ρ : ℚ) (s : System A) (stored : Timestamp) (a : Asked A)
    (read : Clock ℚ) : Prop where
  asked : s.asked = some a
  stamp : a.call.stamp = some stored
  value : ∃ randomNumber, stored = stamped (.ofMs read.reading) randomNumber
  began : Drifts ρ a.began read
  since : Drifts ρ read s.network.clock
  sent : ∀ sent ∈ s.network.requests, timestampAt sent.bytes 40 44 = some stored →
    read.time ≤ sent.time ∧
      ∃ address port answer, Event.sendTo address port sent.bytes answer ∈ a.call.events
  unset : ∀ t, s.setAt = some t → t ≤ a.began.time

/-- What holds throughout the runs of a system. -/
structure Inv (ρ σ : ℚ) (s : System A) : Prop where
  reachable : Reachable s.client
  causal : s.network.Causal σ
  setAt : ∀ t, s.setAt = some t → t ≤ s.time
  outstanding : s.client.lastRequestTime ≠ .zero →
    ∃ asked read, Outstanding ρ s s.client.lastRequestTime asked read

omit [Authenticator A] in
/-- A stretch that sends nothing and sets nothing leaves a request as it was. -/
theorem Outstanding.later {stored : Timestamp} {asked : Asked A} {read : Clock ℚ}
    (h : Outstanding ρ s stored asked read) (hasked : s'.asked = s.asked)
    (hsetAt : s'.setAt = s.setAt) (hdrift : Drifts ρ s.network.clock s'.network.clock)
    (hrequests : ∀ sent ∈ s'.network.requests, sent ∈ s.network.requests) :
    Outstanding ρ s' stored asked read := by
  refine ⟨hasked.trans h.asked, h.stamp, h.value, h.began, h.since.trans hdrift, ?_, ?_⟩
  · intro sent hsent hbears
    exact h.sent sent (hrequests sent hsent) hbears
  · rw [hsetAt]
    exact h.unset

theorem Inv.of_initial (h : s.Initial) : s.Inv ρ σ := by
  refine ⟨h.client.reachable, ⟨?_, ?_, ?_⟩, ?_, fun hne => absurd h.client.lastRequestTime hne⟩
  · rw [h.requests]
    exact List.forall_mem_nil _
  · rw [h.received]
    exact List.forall_mem_nil _
  · rw [h.answers]
    exact List.forall_mem_nil _
  · rw [h.setAt]
    exact nofun

/-- Waiting. -/
theorem Inv.wait (h : s.Inv ρ σ) {network : Network} {secret : Timestamp}
    (hstep : Network.Step ρ σ secret s.network none network) :
    Inv ρ σ { s with network } := by
  refine ⟨h.reachable, h.causal.step hstep, ?_, ?_⟩
  · intro t ht
    exact (h.setAt t ht).trans hstep.time_le
  · intro hne
    obtain ⟨asked, read, houtstanding⟩ := h.outstanding hne
    refine ⟨asked, read, houtstanding.later rfl rfl (hstep.drifts nofun) ?_⟩
    intro sent hsent
    rcases Network.requests_after (.silent hstep (.nil _)) hsent with hold | ⟨_, _, _, _, hnew⟩
    · exact hold
    · cases hnew

/-- A call that stamps a request makes it the outstanding one. -/
theorem Calls.outstanding_of_stamp (hcall : Calls ρ σ s call s') (h : s.Inv ρ σ)
    {stored : Timestamp} (hstamp : call.stamp = some stored) :
    ∃ read, Outstanding ρ s' stored ⟨call, s.network.clock⟩ read := by
  have hvalid := h.reachable.valid
  obtain ⟨server, address, reading, randomNumber, rest, hevents, hstored, hquiet⟩ :=
    hcall.makes.stamping hvalid hstamp
  have hadjusts : call.adjusts = [] := by
    refine List.filter_eq_nil_iff.mpr ?_
    intro e he
    rw [hquiet e he]
    exact Bool.false_ne_true
  have hrun := hcall.network
  rw [hevents] at hrun hquiet
  have hrun' : Observed (Network.Step ρ σ s.client.lastRequestTime) s.network
      ([.resolveDns server (some address)] ++ .now reading :: rest) s'.network := hrun
  obtain ⟨k, k', hbefore, hread, hafter⟩ := hrun'.split_cons
  rw [List.forall_mem_cons, List.forall_mem_cons] at hquiet
  have hbegan := Network.drifts hbefore (List.forall_mem_singleton.mpr hquiet.1)
  have hsince := Network.drifts hafter hquiet.2.2
  cases hread with
  | callback hallows =>
    refine ⟨k.clock, ?_, hstamp, ⟨randomNumber, ?_⟩, hbegan, hsince, ?_, ?_⟩
    · rw [hcall.asked, if_neg (by rw [hstamp]; exact nofun)]
    · rw [hstored, show reading = .ofMs k.clock.reading from hallows]
    · intro sent hsent hbears
      -- a datagram older than the call would repeat the stamp of an earlier one
      rcases Network.requests_after hafter hsent with hold | ⟨htime, a, p, answer, hnew⟩
      · rcases Network.requests_after hbefore hold with hold | ⟨_, _, _, _, hnew⟩
        · exact absurd hbears (hcall.fresh stored hstamp sent hold)
        · cases List.mem_singleton.mp hnew
      · refine ⟨htime, a, p, answer, ?_⟩
        dsimp only
        rw [hevents]
        exact List.mem_cons_of_mem _ (List.mem_cons_of_mem _ hnew)
    · intro t ht
      rw [hcall.setAt, if_pos hadjusts] at ht
      exact h.setAt t ht

/-- A call that stamps none leaves it as it was, if it leaves it at all. -/
theorem Calls.outstanding_of_no_stamp (hcall : Calls ρ σ s call s') (h : s.Inv ρ σ)
    (hstamp : call.stamp = none) (hne : s'.client.lastRequestTime ≠ .zero) :
    ∃ asked read, Outstanding ρ s' s'.client.lastRequestTime asked read := by
  have hvalid := h.reachable.valid
  have hadjusts : call.adjusts = [] := by
    by_contra hadjusts
    obtain ⟨e, he⟩ := List.exists_mem_of_ne_nil _ hadjusts
    obtain ⟨_, _, _, _, _, hcleared⟩ := hcall.makes.adjusting hvalid he
    exact hne hcleared
  have hkept : s'.client.lastRequestTime = s.client.lastRequestTime := by
    rcases hcall.makes.request_of_no_stamp hvalid hstamp with hkept | hcleared
    · exact hkept
    · exact absurd hcleared hne
  rw [hkept] at hne ⊢
  obtain ⟨asked, read, houtstanding⟩ := h.outstanding hne
  refine ⟨asked, read, houtstanding.later ?_ ?_ ?_ ?_⟩
  · rw [hcall.asked, if_pos hstamp]
  · rw [hcall.setAt, if_pos hadjusts]
  · refine Network.drifts hcall.network ?_
    intro e he
    rw [← Bool.not_eq_true]
    exact List.filter_eq_nil_iff.mp hadjusts e he
  · exact Network.requests_kept hcall.network (hcall.makes.sends_nothing hvalid hstamp)

/-- **The invariant is kept by every step.** -/
theorem Inv.step (h : s.Inv ρ σ) {l : Option (Call A)} (hstep : Step ρ σ s l s') :
    s'.Inv ρ σ := by
  cases hstep with
  | wait hwait => exact h.wait hwait
  | @call _ call hcall =>
    have htime : s.time ≤ s'.time := Network.time_le hcall.network
    refine ⟨h.reachable.makes hcall.makes, h.causal.run hcall.network, ?_, ?_⟩
    · intro t ht
      rw [hcall.setAt] at ht
      split at ht
      · exact (h.setAt t ht).trans htime
      · exact (Option.some.inj ht).ge
    · intro hne
      cases hstamp : call.stamp with
      | none => exact hcall.outstanding_of_no_stamp h hstamp hne
      | some stored =>
        obtain ⟨read, houtstanding⟩ := hcall.outstanding_of_stamp h hstamp
        obtain ⟨hstored, _⟩ := hcall.makes.request_of_stamp h.reachable.valid hstamp
        rw [hstored]
        exact ⟨_, read, houtstanding⟩

theorem Inv.run {calls : List (Call A)} (h : s.Initial)
    (hrun : Observed (Step ρ σ) s calls s') : s'.Inv ρ σ :=
  Observed.inv (I := Inv ρ σ) (fun hinv hstep => hinv.step hstep) hrun (Inv.of_initial h)

/-! ## What an adjustment is made on -/

/-- The exchange an adjustment of `call` ends: `request` was sent after the clock
was `read` and served from its arrival to `answeredAt`; `packet` is the front of
the answer, taken when the clock was `shown`. -/
structure Exchange (ρ σ : ℚ) (s : System A) (call : Call A) (e : Event) (a : Asked A)
    (read shown : Clock ℚ) (request : Datagram) (answeredAt : ℚ) (packet : Buffer) : Prop where
  outstanding : Outstanding ρ s s.client.lastRequestTime a read
  adjusted : AdjustedOn call packet (.ofMs shown.reading) e
  adjusts : AdjustsBy s.client.lastRequestTime packet (.ofMs shown.reading) e
  sent : ∃ address port answer, Event.sendTo address port request.bytes answer ∈ a.call.events
  long : 48 ≤ packet.length
  served : ∃ answer, packet <+: answer ∧ Serves σ request.bytes request.time answeredAt answer
  waited : Drifts ρ read shown
  arrived : read.time ≤ request.time
  answered : request.time ≤ answeredAt
  taken : answeredAt ≤ shown.time

omit [Authenticator A] in
/-- The answer taken was made for a datagram that bears the outstanding stamp. -/
theorem Outstanding.served {stored : Timestamp} {asked : Asked A} {read : Clock ℚ}
    {k : Network} (h : Outstanding ρ s stored asked read) (hcausal : k.Causal σ)
    (hrequests : ∀ sent ∈ k.requests, sent ∈ s.network.requests) {packet answer : Buffer}
    (hmem : answer ∈ k.answers) (hwindow : packet <+: answer) (hlen : 48 ≤ packet.length)
    (hecho : timestampAt packet 24 28 = some stored) :
    ∃ (request : Datagram) (answeredAt : ℚ), Serves σ request.bytes request.time answeredAt answer ∧
      read.time ≤ request.time ∧ request.time ≤ answeredAt ∧ answeredAt ≤ k.clock.time ∧
      ∃ address port result,
        Event.sendTo address port request.bytes result ∈ asked.call.events := by
  obtain ⟨request, hrequest, answeredAt, hafter, hbefore, hserves⟩ := hcausal.answers answer hmem
  obtain ⟨_, sent, hsent, hbytes, harrived⟩ := hcausal.received request hrequest
  have hbears : timestampAt sent.bytes 40 44 = some stored := by
    rw [hbytes, ← hserves.origin, timestampAt_of_front hwindow (by omega) (by omega)]
    exact hecho
  obtain ⟨hread, a, p, result, hevent⟩ := h.sent sent (hrequests sent hsent) hbears
  refine ⟨request, answeredAt, hserves, hread.trans harrived, hafter, hbefore, a, p, result, ?_⟩
  rw [← hbytes]
  exact hevent

/-- **Every adjustment ends an exchange**, and the clock is what the exchange
leaves: it drifts until it is set, is set, and drifts on. -/
theorem Calls.exchange (hcall : Calls ρ σ s call s') (h : s.Inv ρ σ) {e : Event}
    (he : e ∈ call.adjusts) :
    ∃ asked read shown request answeredAt packet,
      Exchange ρ σ s call e asked read shown request answeredAt packet ∧
      ∃ set, Drifts ρ shown set ∧
        ∀ server serverTime offsetMs leapSecond,
          e = .adjustClock server serverTime offsetMs leapSecond →
          Drifts ρ ⟨set.time, set.behind - offsetMs.toInt⟩ s'.network.clock := by
  have hvalid := h.reachable.valid
  obtain ⟨_, _, _, _, houtstanding, _⟩ := hcall.makes.adjusting hvalid he
  obtain ⟨asked, read, hasked⟩ := h.outstanding houtstanding
  obtain ⟨packet, receivedAt, hon, hby⟩ := hcall.makes.adjusts_by hvalid he
  obtain ⟨pre, address, port, buffer, checks, hevents, _⟩ := hon.read
  have hfront : call.events = (pre ++ .recvFrom address port buffer packet
      (.ok call.before.packetSize.toNat) :: .now receivedAt :: checks) ++ [e] := by
    rw [hevents]
    simp
  have hquiet := hcall.makes.adjusts_last hvalid hfront (List.mem_filter.mp he).2
  obtain ⟨k₁, shown, set, hbefore, hallows, hshown, htime, hwaited, hchecks, hset⟩ :=
    Network.taken (hfront ▸ hcall.network) hquiet
  subst hshown
  obtain ⟨header, server, hof, hanswers, _, hsays⟩ := id hby
  have hlen : 48 ≤ packet.length := by
    rw [hon.full, hcall.makes.before]
    exact hvalid.base
  -- nobody guessed the request, so the packet is the front of an answer
  have hecho : timestampAt packet 24 28 = some s.client.lastRequestTime := by
    rw [← hanswers.echo]
    exact hof.origin
  have hanswer : ∃ answer ∈ k₁.answers, packet <+: answer := by
    rcases hallows hon.full.symm with hanswer | hguess
    · exact hanswer
    · exact absurd hecho hguess
  obtain ⟨answer, hmem, hwindow⟩ := hanswer
  have hnothing : ∀ a p bytes result, Event.sendTo a p bytes result ∉ pre := by
    intro a p bytes result hsend
    refine hcall.makes.sends_nothing hvalid (hcall.makes.stamp_of_adjusts hvalid he) a p bytes
      result ?_
    rw [hevents]
    exact List.mem_append_left _ hsend
  obtain ⟨request, answeredAt, hserves, harrived, hanswered, htaken, hsent⟩ :=
    hasked.served (h.causal.run hbefore) (Network.requests_kept hbefore hnothing) hmem hwindow
      hlen hecho
  refine ⟨asked, read, shown, request, answeredAt, packet,
    ⟨hasked, hon, hby, hsent, hlen, ⟨answer, hwindow, hserves⟩, ?_, harrived, hanswered, ?_⟩,
    set, hchecks, hset⟩
  · exact hasked.since.trans hwaited
  · exact htaken.trans htime

omit [Authenticator A] in
/-- The exchange measured how far the clock was behind. -/
theorem Exchange.measured {e : Event} {a : Asked A} {read shown : Clock ℚ} {request : Datagram}
    {answeredAt : ℚ} {packet : Buffer}
    (h : Exchange ρ σ s call e a read shown request answeredAt packet)
    (hnear : |a.began.behind| + (1 + ρ) * (shown.time - a.began.time) + σ < 2 ^ 31 * 1000 - 3) :
    ∃ server serverTime offsetMs leapSecond,
      e = .adjustClock server serverTime offsetMs leapSecond ∧
      |(offsetMs.toInt : ℚ) - shown.behind|
        < (1 + ρ) * (shown.time - read.time) / 2 + σ + 1.52 := by
  obtain ⟨randomNumber, hstored⟩ := h.outstanding.value
  obtain ⟨header, server, hof, _, _, hsays⟩ := h.adjusts
  obtain ⟨answer, hwindow, hserves⟩ := h.served
  obtain ⟨x₂, hx₂, hreceive⟩ := hserves.receive
  obtain ⟨x₃, hx₃, htransmit⟩ := hserves.transmit
  have hlong := h.long
  rw [timestampAt_of_front hwindow (by omega) (by omega)] at hreceive htransmit
  have hr : header.receive = .ofMs x₂ := Option.some.inj (hof.receive.symm.trans hreceive)
  have ht : header.transmit = .ofMs x₃ := Option.some.inj (hof.transmit.symm.trans htransmit)
  refine ⟨server, header.transmit, _, leapSecondOf header.leapVersionMode, hsays, ?_⟩
  rw [hstored, hr, ht]
  -- what the legs are, and how far from half an era
  have hbegan := h.outstanding.began
  have hmean := h.waited.two_way_error h.arrived h.answered h.taken
  have hread := abs_le.mp hbegan.behind
  have hshown := abs_le.mp (hbegan.trans h.waited).behind
  have hstart := abs_le.mp (le_refl |a.began.behind|)
  have hbegan₀ := hbegan.time
  have hwaited₀ := h.waited.time
  have harrived := h.arrived
  have hanswered := h.answered
  have htaken := h.taken
  rw [abs_le] at hx₂ hx₃ hmean
  have hsend : |x₂ - read.reading| < 2 ^ 31 * 1000 - 3 := by
    rw [Clock.reading, abs_lt]
    have hρ := (abs_nonneg _).trans h.waited.behind
    constructor <;> linarith
  have hrecv : |x₃ - shown.reading| < 2 ^ 31 * 1000 - 3 := by
    rw [Clock.reading, abs_lt]
    constructor <;> linarith
  have herror := measured_offset_error randomNumber hsend hrecv
  rw [abs_lt] at herror ⊢
  constructor <;> linarith

/-- An adjustment comes of a reading `shown`, reports how far the clock was behind
there, and leaves the clock set by what it reports. -/
theorem Calls.measured (hcall : Calls ρ σ s call s') (h : s.Inv ρ σ) {e : Event}
    (he : e ∈ call.adjusts) {asked : Asked A} (hasked : s.asked = some asked)
    (hnear : |asked.began.behind| + (1 + ρ) * (s'.time - asked.began.time) + σ
      < 2 ^ 31 * 1000 - 3) :
    ∃ (shown set : Clock ℚ) (server : ServerInfo) (serverTime : Timestamp) (offsetMs : Int64)
      (leapSecond : LeapSecond), e = .adjustClock server serverTime offsetMs leapSecond ∧
      Drifts ρ asked.began shown ∧ Drifts ρ shown set ∧
      Drifts ρ ⟨set.time, set.behind - offsetMs.toInt⟩ s'.network.clock ∧
      |(offsetMs.toInt : ℚ) - shown.behind|
        < (1 + ρ) * (shown.time - asked.began.time) / 2 + σ + 1.52 := by
  obtain ⟨asked', read, shown, request, answeredAt, packet, hexchange, set, hset, hafter⟩ :=
    hcall.exchange h he
  obtain rfl := Option.some.inj (hasked.symm.trans hexchange.outstanding.asked)
  obtain ⟨_, _, _, _, _, hsays⟩ := hexchange.adjusts
  have hend := hafter _ _ _ _ hsays
  have hbegan := hexchange.outstanding.began
  -- each stretch takes time, and what the clock drifts in it is not negative
  have hbegan₀ := (abs_nonneg _).trans hbegan.behind
  have hset₀ := (abs_nonneg _).trans hset.behind
  have hend₀ := (abs_nonneg _).trans hend.behind
  have hbegan_time := hbegan.time
  have hset_time := hset.time
  have hend_time := hend.time
  obtain ⟨_, _, _, _, he', hmeasured⟩ := hexchange.measured (by
    unfold System.time at hnear
    dsimp only at hend₀ hend_time
    linarith)
  cases hsays.symm.trans he'
  refine ⟨shown, set, _, _, _, _, hsays, hbegan.trans hexchange.waited, hset, hend, ?_⟩
  linarith

/-- What an exchange reports of the clock's error when it began. -/
theorem Calls.reports (hcall : Calls ρ σ s call s') (h : s.Inv ρ σ) {e : Event}
    (he : e ∈ call.adjusts) {asked : Asked A} (hasked : s.asked = some asked)
    (hnear : |asked.began.behind| + (1 + ρ) * (s'.time - asked.began.time) + σ
      < 2 ^ 31 * 1000 - 3) :
    ∃ server serverTime offsetMs leapSecond,
      e = .adjustClock server serverTime offsetMs leapSecond ∧
      |(offsetMs.toInt : ℚ) - asked.began.behind|
        < (1 / 2 + 3 / 2 * ρ) * (s'.time - asked.began.time) + σ + 1.52 := by
  obtain ⟨shown, set, server, serverTime, offsetMs, leapSecond, hsays, hshown, hset, hend,
    hmeasured⟩ := hcall.measured h he hasked hnear
  refine ⟨server, serverTime, offsetMs, leapSecond, hsays, ?_⟩
  have hset₀ := (abs_nonneg _).trans hset.behind
  have hend₀ := (abs_nonneg _).trans hend.behind
  have hset_time := hset.time
  have hend_time := hend.time
  have hshown_behind := abs_le.mp hshown.behind
  dsimp only at hend₀ hend_time
  rw [abs_lt] at hmeasured ⊢
  unfold System.time
  constructor <;> linarith [hmeasured.1, hmeasured.2]

/-- What an exchange leaves of the clock's error. -/
theorem Calls.accuracy (hcall : Calls ρ σ s call s') (h : s.Inv ρ σ) (hadjusts : call.adjusts ≠ [])
    {asked : Asked A} (hasked : s.asked = some asked)
    (hnear : |asked.began.behind| + (1 + ρ) * (s'.time - asked.began.time) + σ
      < 2 ^ 31 * 1000 - 3) :
    |s'.network.clock.behind| < (1 / 2 + ρ) * (s'.time - asked.began.time) + σ + 1.52 := by
  obtain ⟨e, he⟩ := List.exists_mem_of_ne_nil _ hadjusts
  obtain ⟨shown, set, _, _, offsetMs, _, _, hshown, hset, hend, hmeasured⟩ :=
    hcall.measured h he hasked hnear
  have hshown₀ := (abs_nonneg _).trans hshown.behind
  have hset₀ := (abs_nonneg _).trans hset.behind
  have hend₀ := (abs_nonneg _).trans hend.behind
  have hset_time := hset.time
  have hend_time := hend.time
  have hset_behind := abs_le.mp hset.behind
  have hend_behind := abs_le.mp hend.behind
  dsimp only at hend₀ hend_time hend_behind
  rw [abs_lt] at hmeasured ⊢
  unfold System.time
  constructor <;> linarith [hmeasured.1, hmeasured.2]

/-! ## A request and its answer -/

/-- Resolves, and sends at once, at 1000 s. -/
def sentAtOnce : Script where
  addresses := [some 7]
  readings := [⟨1000, 0⟩, ⟨1000, 0⟩]
  sends := [.ok 48]
  reads := []

/-- What a server answers it at 1001 s. -/
def answer1001 : Buffer := reply 1 ⟨1000, 0⟩ ⟨1001, 0⟩ ⟨1001, 0⟩

/-- Waits from 1000 s on, and reads the answer at 1001 s. -/
def answered1001 : Script where
  addresses := []
  readings := [⟨1000, 0⟩, ⟨1001, 0⟩]
  sends := []
  reads := [(.ok 48, answer1001)]

/-- The request, at 1000 s. -/
def asking : Call NoAuth := (perform 2 (.send 0 100) (twoServers .noAuth) sentAtOnce).1

/-- The call that takes the answer. -/
def answering : Call NoAuth := (perform 2 (.receive 100) asking.after answered1001).1

/-- The clock is right, and nothing was asked. -/
def beforeAsking : System NoAuth where
  client := twoServers .noAuth
  network := ⟨⟨1000 * 1000, 0⟩, [], [], []⟩
  asked := none
  setAt := none

/-- The request is out, and the clock as it was. -/
def afterAsking : System NoAuth where
  client := asking.after
  network := ⟨⟨1000 * 1000, 0⟩, [⟨1000 * 1000, requestHeader ⟨1000, 0⟩⟩], [], []⟩
  asked := some ⟨asking, ⟨1000 * 1000, 0⟩⟩
  setAt := none

/-- The answer took its second in one direction, so the clock is half of that off. -/
def afterAnswer : System NoAuth where
  client := answering.after
  network := ⟨⟨1000 * 1001, 0 - (500 : ℤ)⟩, [⟨1000 * 1000, requestHeader ⟨1000, 0⟩⟩],
    [⟨1000 * 1001, requestHeader ⟨1000, 0⟩⟩], [answer1001]⟩
  asked := some ⟨asking, ⟨1000 * 1000, 0⟩⟩
  setAt := some (1000 * 1001)

theorem beforeAsking_initial : beforeAsking.Initial :=
  ⟨twoServers_initial _, rfl, rfl, rfl, rfl, rfl⟩

/-- What a clock that is right shows at a whole second. -/
theorem right_clock_shows (n : ℤ) (secret : Timestamp) (k : Network)
    (hclock : k.clock = ⟨1000 * n, 0⟩) :
    k.Allows secret (.now (.ofInstant (ticksPerSecond * n))) := by
  rw [Network.Allows, hclock, Clock.reading, sub_zero, ofMs_seconds]

theorem asking_step : Step (1 / 10000) 0 beforeAsking (some asking) afterAsking := by
  refine .call ⟨perform_makes 2 _ _ _, ?_, ?_, rfl, rfl⟩
  · show Observed _ _ [Event.resolveDns ⟨"a", 123⟩ (some 7), Event.now ⟨1000, 0⟩,
      Event.now ⟨1000, 0⟩, Event.sendTo 7 123 (requestHeader ⟨1000, 0⟩) (.ok 48)] _
    have hshows := fun k h => right_clock_shows 1000 (twoServers NoAuth.noAuth).lastRequestTime k h
    exact .seen (.callback trivial) (.seen (.callback (hshows _ rfl))
      (.seen (.callback (hshows _ rfl)) (.single (.callback trivial))))
  · intro stored _ sent hsent
    cases hsent

/-- While the client waits, the datagram arrives at 1001 s and is answered. -/
theorem answered_meanwhile (secret : Timestamp) :
    Observed (Network.Step (1 / 10000) 0 secret) afterAsking.network []
      { afterAnswer.network with clock := ⟨1000 * 1001, 0⟩ } := by
  have hdrift : Drifts (1 / 10000 : ℚ) ⟨1000 * 1000, 0⟩ ⟨1000 * 1001, 0⟩ := by
    constructor <;> norm_num
  have hshown : Timestamp.ofMs (1000 * 1001) = ⟨1001, 0⟩ := ofMs_seconds 1001
  have hserves : Serves 0 (requestHeader ⟨1000, 0⟩) (1000 * 1001) (1000 * 1001) answer1001 := by
    have hexact : |(1000 * 1001 : ℚ) - 1000 * 1001| ≤ 0 := by norm_num
    exact ⟨by decide, ⟨_, hexact, by rw [hshown]; decide⟩, ⟨_, hexact, by rw [hshown]; decide⟩⟩
  exact .silent (.pass hdrift) (.silent (.arrive List.mem_cons_self)
    (.silent (.serve List.mem_cons_self hserves) (.nil _)))

theorem answering_step : Step (1 / 10000) 0 afterAsking (some answering) afterAnswer := by
  refine .call ⟨perform_makes 2 _ _ _, ?_, nofun, rfl, rfl⟩
  show Observed _ _ ([Event.now ⟨1000, 0⟩] ++
    ([] ++ [Event.recvFrom 7 123 (requestHeader ⟨1000, 0⟩) answer1001 (.ok 48),
      Event.now ⟨1001, 0⟩, Event.adjustClock ⟨"a", 123⟩ ⟨1001, 0⟩ 500 .none])) _
  refine .append (.single (.callback (right_clock_shows 1000 _ _ rfl)))
    (.append (answered_meanwhile _) ?_)
  refine .seen (.callback fun _ => Or.inl ⟨answer1001, List.mem_cons_self, List.prefix_refl _⟩) ?_
  exact .seen (.callback (right_clock_shows 1001 _ _ rfl)) (.single (.callback trivial))

theorem answering_adjusts : answering.adjusts ≠ [] :=
  List.cons_ne_nil (Event.adjustClock ⟨"a", 123⟩ ⟨1001, 0⟩ 500 .none) []

/-! ## Agreement and accuracy -/

/-- **Agreement.** Over every run of a system: an adjustment is made on the front
of an answer that a server gave to a datagram of the last request, that answer
echoes the stamp of that request, and it was made between the beginning of the call
that sent the datagram and the return of the one that took the answer. Nothing set
the clock in between. -/
theorem adjustments_agree {s₀ s s' : System A} {calls : List (Call A)} {call : Call A}
    (h₀ : s₀.Initial) (hrun : Observed (Step ρ σ) s₀ calls s)
    (hstep : Step ρ σ s (some call) s') {e : Event} (he : e ∈ call.adjusts) :
    ∃ (asked : Asked A) (stored receivedAt : Timestamp) (request packet answer : Buffer)
      (arrivedAt answeredAt : ℚ) (pre post : List (Call A)),
      -- the last request of the run
      calls = pre ++ asked.call :: post ∧ asked.call.stamp = some stored ∧
      (∀ call ∈ post, call.stamp = none) ∧
      -- a datagram it sent, and what a server made of it
      (∃ address port result, Event.sendTo address port request result ∈ asked.call.events) ∧
      Serves σ request arrivedAt answeredAt answer ∧
      -- what the clock was set on
      packet <+: answer ∧ AdjustedOn call packet receivedAt e ∧
      AdjustsBy stored packet receivedAt e ∧
      -- when
      asked.began.time ≤ arrivedAt ∧ arrivedAt ≤ answeredAt ∧ answeredAt ≤ s'.time ∧
      ∀ t, s.setAt = some t → t ≤ asked.began.time := by
  cases hstep with
  | call hcall =>
    obtain ⟨asked, read, shown, request, answeredAt, packet, hexchange, set, hset, hafter⟩ :=
      hcall.exchange (Inv.run h₀ hrun) he
    obtain ⟨answer, hwindow, hserves⟩ := hexchange.served
    obtain ⟨pre, post, hcalls, hpost⟩ := asked_run h₀ hrun hexchange.outstanding.asked
    obtain ⟨header, server, hof, hanswers, hkiss, hsays⟩ := hexchange.adjusts
    refine ⟨asked, _, _, request.bytes, packet, answer, request.time, answeredAt, pre, post, hcalls,
      hexchange.outstanding.stamp, hpost, hexchange.sent, hserves, hwindow, hexchange.adjusted,
      hexchange.adjusts, ?_, hexchange.answered, ?_, hexchange.outstanding.unset⟩
    · exact hexchange.outstanding.began.time.trans hexchange.arrived
    · calc answeredAt
          ≤ shown.time := hexchange.taken
        _ ≤ set.time := hset.time
        _ ≤ s'.time := (hafter server header.transmit _ _ hsays).time

/-- The answer of 1001 s is to the datagram of 1000 s. -/
theorem adjustments_agree_on_answer :
    ∃ (asked : Asked NoAuth) (stored receivedAt : Timestamp) (request packet answer : Buffer)
      (arrivedAt answeredAt : ℚ) (pre post : List (Call NoAuth)),
      [asking] = pre ++ asked.call :: post ∧ asked.call.stamp = some stored ∧
      (∀ call ∈ post, call.stamp = none) ∧
      (∃ address port result, Event.sendTo address port request result ∈ asked.call.events) ∧
      Serves 0 request arrivedAt answeredAt answer ∧ packet <+: answer ∧
      AdjustedOn answering packet receivedAt (.adjustClock ⟨"a", 123⟩ ⟨1001, 0⟩ 500 .none) ∧
      AdjustsBy stored packet receivedAt (.adjustClock ⟨"a", 123⟩ ⟨1001, 0⟩ 500 .none) ∧
      asked.began.time ≤ arrivedAt ∧ arrivedAt ≤ answeredAt ∧ answeredAt ≤ afterAnswer.time ∧
      ∀ t, afterAsking.setAt = some t → t ≤ asked.began.time :=
  adjustments_agree beforeAsking_initial (.single asking_step) answering_step List.mem_cons_self

/-- **Accuracy.** Every adjustment reports how far the clock was behind true time when
the request began, and a clock that is stepped by what it reports is left that close
to true time: within half the duration of the exchange, from the beginning of the
call that asked to the return of the one that was answered, up to what the clock
drifts in it, the servers' own error, and 1.52 ms. The clock drifts by at most `ρ`,
it is stepped at once wherever it is adjusted, its readings are exact to the tick,
and when the exchange began it was within half an era of true time, less the duration
and drift of the exchange, the servers' error and 3 ms. -/
theorem adjustment_accuracy {s₀ s s' : System A} {calls : List (Call A)} {call : Call A}
    (h₀ : s₀.Initial) (hrun : Observed (Step ρ σ) s₀ calls s)
    (hstep : Step ρ σ s (some call) s') (hadjusts : call.adjusts ≠ []) {asked : Asked A}
    (hasked : s.asked = some asked)
    (hnear : |asked.began.behind| + (1 + ρ) * (s'.time - asked.began.time) + σ
      < 2 ^ 31 * 1000 - 3) :
    (∀ e ∈ call.adjusts, ∃ server serverTime offsetMs leapSecond,
      e = .adjustClock server serverTime offsetMs leapSecond ∧
      |(offsetMs.toInt : ℚ) - asked.began.behind|
        < (1 / 2 + 3 / 2 * ρ) * (s'.time - asked.began.time) + σ + 1.52) ∧
    |s'.network.clock.behind| < (1 / 2 + ρ) * (s'.time - asked.began.time) + σ + 1.52 := by
  have hinv := Inv.run h₀ hrun
  cases hstep with
  | call hcall =>
    exact ⟨fun e he => hcall.reports hinv he hasked hnear,
      hcall.accuracy hinv hadjusts hasked hnear⟩

/-- An exchange of a second: the clock was right, is said to be half a second behind,
and is half a second off for that; no more than that could be said. -/
theorem adjustment_accuracy_of_answer :
    |((500 : Int64).toInt : ℚ) - beforeAsking.network.clock.behind|
        < (1 / 2 + 3 / 2 * (1 / 10000)) * (afterAnswer.time - 1000 * 1000) + 0 + 1.52 ∧
      |afterAnswer.network.clock.behind|
        < (1 / 2 + 1 / 10000) * (afterAnswer.time - 1000 * 1000) + 0 + 1.52 := by
  obtain ⟨hreports, hleft⟩ := adjustment_accuracy beforeAsking_initial (.single asking_step)
    answering_step answering_adjusts rfl (by norm_num [System.time, afterAnswer])
  obtain ⟨_, _, _, _, hevent, hoffset⟩ :=
    hreports (.adjustClock ⟨"a", 123⟩ ⟨1001, 0⟩ 500 .none) List.mem_cons_self
  cases hevent
  exact ⟨hoffset, hleft⟩

end System

end Sntp
