import Mathlib.Algebra.Order.BigOperators.Group.List
import Sntp.Client.Script
import Sntp.Client.Steps

/-!
# Clock adjustments are sound and are not replayed

Over any run of a client, sends and receives in any order, with any answers:
every adjustment is on a packet that answers the last stamped request, with the
time, the leap second and the offset that packet says; and every adjustment has
a stamped request of its own.

What an adjustment says is a matter of the one call that made it
(`Makes.adjusts_by`). That the request it answers is the last one, and is answered
once, are the two properties of a challenge, and the stored request time is one
(`challenge_run`).
-/

namespace Sntp

open Transition

variable {A : Type}

/-- The request time stored by the last send of a run that got a nonzero clock
reading. -/
def lastStamp (calls : List (Call A)) : Option Timestamp := (calls.filterMap Call.stamp).getLast?

/-- The number of adjustments of a run. -/
def adjustCount (calls : List (Call A)) : ℕ := (calls.map fun call => call.adjusts.length).sum

section Adjustments

variable [Authenticator A]

/-- `call` adjusted the clock by `e` right after reading `packet` in full from
the transport at `receivedAt`. -/
structure AdjustedOn (call : Call A) (packet : Buffer) (receivedAt : Timestamp) (e : Event) :
    Prop where
  receive : ∃ blockTimeMs, call.op = .receive blockTimeMs
  read : ∃ pre address port buffer checks, call.events
    = pre ++ .recvFrom address port buffer packet (.ok call.before.packetSize.toNat) ::
      .now receivedAt :: (checks ++ [e]) ∧ ∀ check ∈ checks, check.isTransport = false
  full : packet.length = call.before.packetSize.toNat

/-- `e` is the adjustment `packet` asks for as the answer to the request stored
as `stored`. -/
def AdjustsBy (stored : Timestamp) (packet : Buffer) (receivedAt : Timestamp) (e : Event) : Prop :=
  ∃ (h : Header) (server : ServerInfo), h.Of packet ∧ h.Answers stored ∧
    h.stratum ≠ kissOfDeathStratum ∧
    e = .adjustClock server h.transmit (calculateClockOffset stored h.receive h.transmit receivedAt)
      (leapSecondOf h.leapVersionMode)

/-- One step: an adjustment answers the stored request. -/
theorem Makes.adjusts_by {c c' : Client A} {call : Call A} (h : Makes c call c') (hvalid : c.Valid)
    {e : Event} (he : e ∈ call.adjusts) :
    ∃ packet receivedAt, AdjustedOn call packet receivedAt e ∧
      AdjustsBy c.lastRequestTime packet receivedAt e := by
  obtain ⟨blockTimeMs, watch, hop, htrace, _, _⟩ := h.adjusting hvalid he
  obtain ⟨hmem, hadjust⟩ := List.mem_filter.mp he
  obtain ⟨server, pre, buffer, packet, receivedAt, a, _, hevents, hevent, hlen, hverdict, _⟩ :=
    htrace.adjust hvalid hmem hadjust
  obtain ⟨_, header, hof, hanswers, hsays⟩ := answers_of_deserializeResponse hverdict
  refine ⟨packet, receivedAt, ⟨⟨blockTimeMs, hop⟩, ?_, ?_⟩, ⟨header, server, hof, hanswers, ?_⟩⟩
  · rw [h.before]
    refine ⟨pre, _, _, buffer, validations A server packet, hevents, ?_⟩
    intro check hcheck
    unfold validations at hcheck
    split at hcheck
    · rw [List.mem_singleton.mp hcheck]
      rfl
    · cases hcheck
  · rw [h.before]
    exact hlen
  · unfold Header.verdict at hsays
    split at hsays
    next => cases hsays
    next hstratum =>
      cases hsays
      exact ⟨hstratum, hevent⟩

omit [Authenticator A] in
/-- The challenges a run issues are its stamps. -/
theorem issued_acts (calls : List (Call A)) :
    (calls.map Call.act).filterMap Challenge.Act.issued = calls.filterMap Call.stamp := by
  rw [List.filterMap_map]
  exact List.filterMap_congr fun call _ => call.act_issued

/-- Every adjustment of a run redeems a challenge. -/
theorem adjustCount_le_redeemed {c c' : Client A} {calls : List (Call A)} (hreach : Reachable c)
    (hrun : Run Makes c calls c') :
    adjustCount calls ≤ ((calls.map Call.act).filterMap Challenge.Act.redeemed).length := by
  have hone : ∀ call ∈ calls, call.adjusts.length ≤ call.act.redeemed.toList.length := by
    intro call hmem
    obtain ⟨pre, _, c₁, _, _, hpre, hcall, _⟩ := hrun.of_mem hmem
    have hvalid := (hreach.run hpre).valid
    by_cases hadjusts : call.adjusts = []
    · rw [hadjusts]
      exact Nat.zero_le _
    · rw [hcall.act_redeemed hvalid hadjusts]
      exact hcall.adjusts_length hvalid
  calc adjustCount calls
      ≤ (calls.map fun call => call.act.redeemed.toList.length).sum := List.sum_le_sum hone
    _ = ((calls.map Call.act).filterMap Challenge.Act.redeemed).length := by
      rw [List.filterMap_map, List.filterMap_eq_flatMap_toList, List.length_flatMap]
      rfl

/-- **Clock adjustments are sound and never replayed**, over every run of a
client. -/
theorem adjustments_sound {c₀ c : Client A} {calls : List (Call A)} (h₀ : Initial c₀)
    (hrun : Run Makes c₀ calls c) :
    -- every adjustment is on an answer to the last stamped request, and says what it says
    (∀ pre call post, calls = pre ++ call :: post → ∀ e ∈ call.adjusts,
      ∃ stored packet receivedAt, lastStamp pre = some stored ∧
        AdjustedOn call packet receivedAt e ∧ AdjustsBy stored packet receivedAt e) ∧
    -- any two adjustments have a stamped request between them
    (∀ call ∈ calls, call.adjusts.length ≤ 1) ∧
    (∀ pre first mid second post, calls = pre ++ first :: (mid ++ second :: post) →
      first.adjusts ≠ [] → second.adjusts ≠ [] → ∃ call ∈ mid, call.stamp ≠ none) ∧
    -- so there are no more adjustments than stamped requests
    adjustCount calls ≤ (calls.filterMap Call.stamp).length := by
  have hchallenge := challenge_run h₀.valid hrun
  rw [Client.challenge_eq_none.mpr h₀.lastRequestTime] at hchallenge
  have hredeems : ∀ pre call post, calls = pre ++ call :: post → call.adjusts ≠ [] →
      ∃ c₁ c₂, Reachable c₁ ∧ Makes c₁ call c₂ ∧ call.act.redeemed = some c₁.lastRequestTime := by
    intro pre call post hcalls hadjusts
    subst hcalls
    obtain ⟨c₁, c₂, hpre, hcall, _⟩ := hrun.split_cons
    have hreach : Reachable c₁ := ⟨c₀, pre, h₀, hpre⟩
    exact ⟨c₁, c₂, hreach, hcall, hcall.act_redeemed hreach.valid hadjusts⟩
  refine ⟨?_, ?_, ?_, ?_⟩
  · intro pre call post hcalls e he
    obtain ⟨c₁, c₂, hreach, hcall, hredeemed⟩ :=
      hredeems pre call post hcalls (List.ne_nil_of_mem he)
    obtain ⟨packet, receivedAt, hon, hby⟩ := hcall.adjusts_by hreach.valid he
    have hlast : lastStamp pre = some c₁.lastRequestTime := by
      rw [hcalls, List.map_append, List.map_cons] at hchallenge
      rw [lastStamp, ← issued_acts]
      exact Challenge.redeemed_is_last hchallenge hredeemed
    exact ⟨_, packet, receivedAt, hlast, hon, hby⟩
  · intro call hmem
    obtain ⟨pre, _, c₁, _, _, hpre, hcall, _⟩ := hrun.of_mem hmem
    exact hcall.adjusts_length (Reachable.valid ⟨c₀, pre, h₀, hpre⟩)
  · intro pre first mid second post hcalls hfirst hsecond
    obtain ⟨_, _, _, _, hredeemed₁⟩ := hredeems pre first _ hcalls hfirst
    obtain ⟨_, _, _, _, hredeemed₂⟩ := hredeems (pre ++ first :: mid) second post
      (by rw [hcalls, List.append_assoc, List.cons_append]) hsecond
    rw [hcalls] at hchallenge
    simp only [List.map_append, List.map_cons] at hchallenge
    obtain ⟨a, ha, hissued⟩ := Challenge.issue_between hchallenge (by rw [hredeemed₁]; exact nofun)
      (by rw [hredeemed₂]; exact nofun)
    obtain ⟨call, hcall, rfl⟩ := List.mem_map.mp ha
    rw [call.act_issued] at hissued
    exact ⟨call, hcall, hissued⟩
  · have hle := Challenge.redeemed_le_issued hchallenge
    rw [issued_acts] at hle
    have hcount := adjustCount_le_redeemed h₀.reachable hrun
    simp only [Option.toList_none, List.length_nil] at hle
    omega

/-- A request and its answer: one adjustment, paid for by one stamp. -/
theorem adjustments_sound_of_answer :
    let calls := [request NoAuth.noAuth,
      (perform 2 (.receive 100) (pending NoAuth.noAuth) (readsAt1001 genuine)).1]
    adjustCount calls = 1 ∧ 1 ≤ (calls.filterMap Call.stamp).length := by
  intro calls
  have hcount : adjustCount calls = 1 := by decide
  refine ⟨hcount, ?_⟩
  rw [← hcount]
  exact (adjustments_sound (twoServers_initial NoAuth.noAuth)
    (.cons (request_makes _) (.single (perform_makes 2 _ _ _)))).2.2.2

end Adjustments

end Sntp
