import Sntp.Client.Exchange
import Sntp.Lib.Challenge

/-!
# The exchange as a challenge

A call, as a step between two clients, and what stretches of calls keep. The
stored request time is a one-time challenge: a stamp issues it, an adjustment
redeems it, and it is lost to a clock that reads zero, to an answer or to an
authenticated rejection. `Makes.act` says that every call is a step of
`Challenge.Step`, and `challenge_run` that every run is a run of it, so what holds
of challenges holds of clients.
-/

namespace Sntp

open Transition

variable {A : Type}

section Steps

variable [Authenticator A] {c c' : Client A} {call : Call A}

theorem Makes.config (h : Makes c call c') (hvalid : c.Valid) : c'.config = c.config := by
  rcases h.cases hvalid with ⟨_, _, _, _, _, htrace⟩ | ⟨_, _, _, _, htrace⟩
  · exact htrace.config hvalid
  · exact htrace.config

/-- A stamp is the stored request time of the client it was made by. -/
theorem Makes.request_of_stamp (h : Makes c call c') (hvalid : c.Valid) {stored : Timestamp}
    (hstamp : call.stamp = some stored) : c'.lastRequestTime = stored ∧ stored ≠ .zero := by
  rcases h.cases hvalid with ⟨randomNumber, _, _, _, hcall, htrace⟩ | ⟨_, _, _, hcall, _⟩
  · have hrequest := htrace.request
    rw [hcall, Call.stamp] at hstamp
    dsimp only at hstamp
    cases hreading : firstReading call.events with
    | none =>
      rw [hreading] at hstamp
      cases hstamp
    | some reading =>
      rw [hreading] at hstamp hrequest
      dsimp only at hstamp hrequest
      by_cases hzero : reading = .zero
      · rw [if_pos hzero] at hstamp
        cases hstamp
      · rw [if_neg hzero] at hstamp hrequest
        obtain rfl := Option.some.inj hstamp
        exact ⟨hrequest, stamped_ne_zero hzero randomNumber⟩
  · rw [hcall] at hstamp
    cases hstamp

/-- Without a stamp the stored request time is kept or cleared. -/
theorem Makes.request_of_no_stamp (h : Makes c call c') (hvalid : c.Valid)
    (hstamp : call.stamp = none) :
    c'.lastRequestTime = c.lastRequestTime ∨ c'.lastRequestTime = .zero := by
  rcases h.cases hvalid with ⟨randomNumber, _, _, _, hcall, htrace⟩ | ⟨_, _, result, _, htrace⟩
  · have hrequest := htrace.request
    rw [hcall, Call.stamp] at hstamp
    dsimp only at hstamp
    cases hreading : firstReading call.events with
    | none =>
      rw [hreading] at hrequest
      exact Or.inl hrequest
    | some reading =>
      rw [hreading] at hstamp hrequest
      dsimp only at hstamp hrequest
      by_cases hzero : reading = .zero
      · rw [if_pos hzero] at hrequest
        exact Or.inr hrequest
      · rw [if_neg hzero] at hstamp
        cases hstamp
  · rw [htrace.request]
    exact c.settle_request result

/-- A receive call, from a full read on. -/
theorem Makes.judged (h : Makes c call c') (hvalid : c.Valid) {blockTimeMs : UInt32}
    (hop : call.op = .receive blockTimeMs) (pre : List Event) {rest : List Event}
    {address : UInt32} {port : UInt16} {buffer packet : Buffer} {receivedAt : Timestamp}
    (hevents : call.events = pre ++ .recvFrom address port buffer packet
      (.ok call.before.packetSize.toNat) :: .now receivedAt :: rest) :
    ∃ server r, c.servers[c.currentServer]? = some server ∧ call.Returned r ∧
      call.adjusts = rest.filter Event.isAdjust ∧ Judged c server packet receivedAt rest r ∧
      c'.session = c.session.settle (Authenticator.configured A) c.servers.length (some r) := by
  obtain ⟨watch, result, houtcome, htrace⟩ := h.receives hvalid hop
  rw [h.before] at hevents
  rw [hevents] at htrace
  obtain ⟨server, r, hserver, rfl, hpre, hjudged⟩ := htrace.judged hvalid
  refine ⟨server, r, hserver, houtcome, ?_, hjudged, ?_⟩
  · rw [Call.adjusts, hevents, List.filter_append, hpre]
    rfl
  · exact htrace.session.trans (c.settle_session hvalid _)

/-- A call that adjusts the clock is a receive call that synchronised: there was
a request outstanding, and there is none any more. -/
theorem Makes.adjusting (h : Makes c call c') (hvalid : c.Valid) {e : Event}
    (he : e ∈ call.adjusts) :
    ∃ blockTimeMs watch, call.op = .receive blockTimeMs ∧
      Receives c blockTimeMs watch call.events (some (.ok .synchronised)) c' ∧
      c.lastRequestTime ≠ .zero ∧ c'.lastRequestTime = .zero := by
  rw [Call.adjusts] at he
  rcases h.cases hvalid with ⟨_, _, _, _, _, htrace⟩ | ⟨blockTimeMs, watch, result, hcall, htrace⟩
  · rw [htrace.no_adjust] at he
    cases he
  · obtain ⟨hmem, hadjust⟩ := List.mem_filter.mp he
    obtain ⟨_, _, _, packet, receivedAt, a, _, _, _, _, hverdict, rfl⟩ :=
      htrace.adjust hvalid hmem hadjust
    exact ⟨blockTimeMs, watch, congrArg Call.op hcall, htrace, request_ne_zero_of_verdict hverdict,
      htrace.request⟩

/-- A call adjusts the clock at most once. -/
theorem Makes.adjusts_length (h : Makes c call c') (hvalid : c.Valid) :
    call.adjusts.length ≤ 1 := by
  by_cases hnone : call.adjusts = []
  · rw [hnone]
    exact Nat.zero_le 1
  · obtain ⟨e, he⟩ := List.exists_mem_of_ne_nil _ hnone
    obtain ⟨blockTimeMs, watch, hop, htrace, _, _⟩ := h.adjusting hvalid he
    obtain ⟨hmem, hadjust⟩ := List.mem_filter.mp he
    obtain ⟨_, pre, _, _, _, _, _, hevents, _⟩ := htrace.adjust hvalid hmem hadjust
    rw [← h.before] at hevents
    obtain ⟨_, _, _, _, hadjusts, hjudged, _⟩ := h.judged hvalid hop pre hevents
    rw [hadjusts]
    exact hjudged.adjusts_length

/-- With nothing outstanding, a call has no effect on the clock and no verdict. -/
theorem Makes.nothing_outstanding {c c' : Client A} {call : Call A} (h : Makes c call c')
    (hvalid : c.Valid) (hidle : c.lastRequestTime = .zero) :
    call.adjusts = [] ∧ ¬ call.Returned (.ok .synchronised) ∧ ¬ call.Returned (.ok .rejected) := by
  have hnever : ∀ r, r = .synchronised ∨ r = .rejected → ¬ call.Returned (.ok r) := by
    intro r hr hreturned
    rcases h.cases hvalid with ⟨_, _, _, result, hcall, _⟩ | ⟨_, _, result, hcall, htrace⟩
    · exact Call.not_returned (congrArg Call.outcome hcall) _ hreturned
    · obtain rfl := (Call.returned_iff (congrArg Call.outcome hcall)).mp hreturned
      exact htrace.outstanding hvalid hr hidle
  refine ⟨?_, hnever _ (Or.inl rfl), hnever _ (Or.inr rfl)⟩
  by_contra hadjusts
  obtain ⟨e, he⟩ := List.exists_mem_of_ne_nil _ hadjusts
  obtain ⟨_, _, _, _, houtstanding, _⟩ := h.adjusting hvalid he
  exact houtstanding hidle

/-! ## The request time is a challenge -/

/-- The challenge a client remembers: its stored request time, zero meaning none. -/
def Client.challenge (c : Client A) : Option Timestamp :=
  if c.lastRequestTime = .zero then none else some c.lastRequestTime

/-- What a call does about it. -/
def Call.act (call : Call A) : Challenge.Act Timestamp :=
  match call.stamp with
  | some stored => .issue stored
  | none =>
    if call.adjusts ≠ [] then .redeem call.before.lastRequestTime
    else if call.after.lastRequestTime = .zero then .forget
    else .idle

omit [Authenticator A] in
theorem Call.act_issued (call : Call A) : call.act.issued = call.stamp := by
  unfold Call.act
  split
  next stored hstamp => exact hstamp.symm
  next hstamp =>
    rw [hstamp]
    split
    · rfl
    · split <;> rfl

/-- A call that adjusts the clock redeems the request time. -/
theorem Makes.act_redeemed (h : Makes c call c') (hvalid : c.Valid) (hadjusts : call.adjusts ≠ []) :
    call.act.redeemed = some c.lastRequestTime := by
  obtain ⟨e, he⟩ := List.exists_mem_of_ne_nil _ hadjusts
  obtain ⟨blockTimeMs, _, hop, _, _, _⟩ := h.adjusting hvalid he
  have hstamp : call.stamp = none := by
    rw [Call.stamp, hop]
  unfold Call.act
  rw [hstamp]
  dsimp only
  rw [if_pos hadjusts, h.before]
  rfl

/-- **A call is a step of its challenge.** -/
theorem Makes.act (h : Makes c call c') (hvalid : c.Valid) :
    Challenge.Step c.challenge call.act c'.challenge := by
  unfold Call.act
  cases hstamp : call.stamp with
  | some stored =>
    obtain ⟨rfl, hnonzero⟩ := h.request_of_stamp hvalid hstamp
    have hafter : c'.challenge = some c'.lastRequestTime := if_neg hnonzero
    rw [hafter]
    exact .issue _ _
  | none =>
    dsimp only
    by_cases hadjusts : call.adjusts = []
    · rw [if_neg (not_not.mpr hadjusts), h.after]
      by_cases hzero : c'.lastRequestTime = .zero
      · have hafter : c'.challenge = none := if_pos hzero
        rw [if_pos hzero, hafter]
        exact .forget _
      · rw [if_neg hzero]
        rcases h.request_of_no_stamp hvalid hstamp with hkept | hcleared
        · have hafter : c'.challenge = c.challenge := by
            rw [Client.challenge, Client.challenge, hkept]
          rw [hafter]
          exact .idle _
        · exact absurd hcleared hzero
    · obtain ⟨e, he⟩ := List.exists_mem_of_ne_nil _ hadjusts
      obtain ⟨_, _, _, _, hbefore, hcleared⟩ := h.adjusting hvalid he
      have hsome : c.challenge = some c.lastRequestTime := if_neg hbefore
      have hnone : c'.challenge = none := if_pos hcleared
      rw [if_pos hadjusts, h.before, hsome, hnone]
      exact .redeem _

/-- **A run of a client is a run of its challenge.** -/
theorem challenge_run {c₁ c₂ : Client A} {calls : List (Call A)} (hvalid : c₁.Valid)
    (hrun : Run Makes c₁ calls c₂) :
    Run Challenge.Step c₁.challenge (calls.map Call.act) c₂.challenge := by
  refine (valid_run hvalid hrun).map Client.challenge Call.act ?_
  intro c call c' hstep
  exact hstep.2.act hstep.1

omit [Authenticator A] in
theorem Client.challenge_eq_none {c : Client A} :
    c.challenge = none ↔ c.lastRequestTime = .zero := by
  unfold Client.challenge
  split <;> simp_all

/-- With nothing outstanding, nothing is until the next stamp. -/
theorem idle_run {c₁ c₂ : Client A} {calls : List (Call A)} (hreach : Reachable c₁)
    (hrun : Run Makes c₁ calls c₂) (hstamp : ∀ call ∈ calls, call.stamp = none)
    (hidle : c₁.lastRequestTime = .zero) : c₂.lastRequestTime = .zero := by
  have hchallenge := challenge_run hreach.valid hrun
  rw [Client.challenge_eq_none.mpr hidle] at hchallenge
  refine Client.challenge_eq_none.mp (Challenge.none_of_run hchallenge ?_)
  intro a ha
  obtain ⟨call, hcall, rfl⟩ := List.mem_map.mp ha
  rw [call.act_issued]
  exact hstamp call hcall

/-! ## Stretches of a run -/

/-- A receive call that leaves the request outstanding. -/
def Call.KeepsRequest (call : Call A) : Prop :=
  call.IsReceive ∧ ¬ call.Returned (.ok .synchronised) ∧
    (Authenticator.configured A = true → ¬ call.Returned (.ok .rejected))

theorem keepsRequest_run {c c' : Client A} {calls : List (Call A)} (hreach : Reachable c)
    (hrun : Run Makes c calls c') (hkeeps : ∀ call ∈ calls, call.KeepsRequest) :
    c'.lastRequestTime = c.lastRequestTime := by
  refine Run.rel (R := fun c c' => c'.lastRequestTime = c.lastRequestTime) (fun _ => rfl) ?_ ?_
    (valid_run hreach.valid hrun) hkeeps
  · intro c₁ c₂ c₃ h₁₂ h₂₃
    exact h₂₃.trans h₁₂
  · intro c call c' hkeeps hstep
    obtain ⟨⟨blockTimeMs, hop⟩, hsync, hrejected⟩ := hkeeps
    obtain ⟨hvalid, hcall⟩ := hstep
    obtain ⟨watch, result, houtcome, htrace⟩ := hcall.receives hvalid hop
    rw [htrace.request]
    refine Client.settle_keeps_request ?_ ?_
    · exact fun h => hsync ((Call.returned_iff houtcome).mpr h)
    · exact fun hconfigured h => hrejected hconfigured ((Call.returned_iff houtcome).mpr h)

/-- Receive calls leave the resolved address and the packet size alone. -/
theorem receives_run {c c' : Client A} {calls : List (Call A)} (hreach : Reachable c)
    (hrun : Run Makes c calls c') (hreceive : ∀ call ∈ calls, call.IsReceive) :
    c'.currentServerAddr = c.currentServerAddr ∧ c'.packetSize = c.packetSize := by
  refine Run.rel (R := fun c c' => c'.currentServerAddr = c.currentServerAddr ∧
    c'.packetSize = c.packetSize) (fun _ => ⟨rfl, rfl⟩) ?_ ?_ (valid_run hreach.valid hrun) hreceive
  · intro c₁ c₂ c₃ h₁₂ h₂₃
    exact ⟨h₂₃.1.trans h₁₂.1, h₂₃.2.trans h₁₂.2⟩
  · intro c call c' hreceive hstep
    obtain ⟨blockTimeMs, hop⟩ := hreceive
    obtain ⟨hvalid, hcall⟩ := hstep
    obtain ⟨watch, result, _, htrace⟩ := hcall.receives hvalid hop
    have hsession := htrace.session.trans (c.settle_session hvalid result)
    obtain ⟨haddress, hsize⟩ :=
      c.session.settle_keeps (Authenticator.configured A) c.servers.length result
    exact ⟨(congrArg Session.address hsession).trans haddress,
      (congrArg Session.packetSize hsession).trans hsize⟩

/-- The configuration is the same throughout a run. -/
theorem config_run {c c' : Client A} {calls : List (Call A)} (hreach : Reachable c)
    (hrun : Run Makes c calls c') : c'.config = c.config := by
  refine Run.rel (R := fun c c' => c'.config = c.config) (P := fun _ => True) (fun _ => rfl) ?_ ?_
    (valid_run hreach.valid hrun) (fun _ _ => trivial)
  · intro c₁ c₂ c₃ h₁₂ h₂₃
    exact h₂₃.trans h₁₂
  · intro c call c' _ hstep
    exact hstep.2.config hstep.1

end Steps

end Sntp
