import Sntp.Client.Script
import Sntp.Client.Steps

/-!
# A pending exchange

What can happen to a request between being sent and being answered. Two
two-run statements, both from one fact: from a full read on, a receive call is a
function of the stored request time, the packet, the reading after it and the
authenticator's answer (`Judged.functional`).

- `garbage_harmless`: calls that find nothing or fail leave the exchange as it
  was, so the answer does later what it would have done at once;
- `kiss_of_death_asymmetry`: without authentication a rejection leaves the
  request answerable, and with it nothing is answerable any more.
-/

namespace Sntp

open Transition

variable {A : Type}

namespace Call

/-- A receive call that found nothing, or failed. -/
def FoundNothing (call : Call A) : Prop :=
  call.IsReceive ∧ (call.Returned (.ok .nothingYet) ∨ ∃ e, call.Returned (.error e))

/-- A receive call that found nothing, failed, or was rejected. -/
def FoundNoTime (call : Call A) : Prop :=
  call.FoundNothing ∨ call.IsReceive ∧ call.Returned (.ok .rejected)

/-- A receive call whose first read is a full one, of `packet`, with `receivedAt`
the clock reading after it. -/
def ReadsFullFirst (call : Call A) (packet : Buffer) (receivedAt : Timestamp) : Prop :=
  call.IsReceive ∧ ∃ started address port buffer rest, call.events
    = .now started ::
      .recvFrom address port buffer packet (.ok call.before.packetSize.toNat) ::
      .now receivedAt :: rest

/-- What the authenticator answered in a call. -/
def validations (call : Call A) : List (Except AuthError Unit) :=
  call.events.filterMap Event.validation

end Call

variable [Authenticator A]

/-- **A full read decides**: two calls that read the same packet for the same
request, at the same reading and with the same answer of the authenticator, go on
alike and return the same. -/
theorem Judged.functional {c₁ c₂ : Client A} {server : ServerInfo} {packet : Buffer}
    {receivedAt : Timestamp} {rest₁ rest₂ : List Event} {r₁ r₂ : Except ReceiveError Reception}
    (h₁ : Judged c₁ server packet receivedAt rest₁ r₁)
    (h₂ : Judged c₂ server packet receivedAt rest₂ r₂)
    (hrequest : c₁.lastRequestTime = c₂.lastRequestTime)
    (hanswers : rest₁.filterMap Event.validation = rest₂.filterMap Event.validation) :
    rest₁ = rest₂ ∧ r₁ = r₂ := by
  have hpassed : ∀ (e : AuthError) (v : Except DeserializeError Verdict),
      Authenticator.configured A = true →
      [Event.validateServerAuth server packet (.error e)].filterMap Event.validation
        ≠ (validations A server packet ++ adjustments server v).filterMap Event.validation := by
    intro e v hconfigured heq
    rw [validations, if_pos hconfigured] at heq
    cases (List.cons.inj heq).1
  cases h₁ with
  | @refused e₁ hconfigured =>
    cases h₂ with
    | @refused e₂ _ =>
      have he : (Except.error e₁ : Except AuthError Unit) = .error e₂ := (List.cons.inj hanswers).1
      cases he
      exact ⟨rfl, rfl⟩
    | passed => exact absurd hanswers (hpassed e₁ _ hconfigured)
  | passed =>
    cases h₂ with
    | @refused e₂ hconfigured => exact absurd hanswers.symm (hpassed e₂ _ hconfigured)
    | passed =>
      rw [hrequest]
      exact ⟨rfl, rfl⟩

/-- Calls that find nothing leave the exchange alone. -/
theorem foundNothing_run {S S' : Client A} {calls : List (Call A)} (hreach : Reachable S)
    (hrun : Run Makes S calls S') (hcalls : ∀ call ∈ calls, call.FoundNothing) :
    S'.session = S.session ∧ S'.config = S.config := by
  refine Run.rel (R := fun c c' => c'.session = c.session ∧ c'.config = c.config) ?_ ?_ ?_
    (valid_run hreach.valid hrun) hcalls
  · intro c
    exact ⟨rfl, rfl⟩
  · intro c₁ c₂ c₃ h₁₂ h₂₃
    exact ⟨h₂₃.1.trans h₁₂.1, h₂₃.2.trans h₁₂.2⟩
  · intro c call c' hcase hstep
    obtain ⟨⟨blockTimeMs, hop⟩, hfound⟩ := hcase
    obtain ⟨hvalid, hcall⟩ := hstep
    obtain ⟨watch, result, houtcome, htrace⟩ := hcall.receives hvalid hop
    refine ⟨?_, htrace.config⟩
    rw [htrace.session, Client.settle_of_unsettled]
    rcases hfound with hnothing | ⟨e, herror⟩
    · exact Or.inr (Or.inl ((Call.returned_iff houtcome).mp hnothing))
    · exact Or.inr (Or.inr ⟨e, (Call.returned_iff houtcome).mp herror⟩)

/-- **Garbage cannot disturb a pending exchange**: calls that found nothing or
failed change none of its four fields, and a call whose first read is full does
after them what it would have done before them. -/
theorem garbage_harmless {S S' : Client A} {calls : List (Call A)} (hreach : Reachable S)
    (hrun : Run Makes S calls S') (hcalls : ∀ call ∈ calls, call.FoundNothing) :
    S'.session = S.session ∧
      ∀ direct late D L packet receivedAt, Makes S direct D → Makes S' late L →
        direct.ReadsFullFirst packet receivedAt → late.ReadsFullFirst packet receivedAt →
        direct.validations = late.validations →
        late.outcome = direct.outcome ∧ late.adjusts = direct.adjusts ∧ L.session = D.session := by
  obtain ⟨hsession, hconfig⟩ := foundNothing_run hreach hrun hcalls
  refine ⟨hsession, ?_⟩
  intro direct late D L packet receivedAt hdirect hlate hreadDirect hreadLate hanswers
  have hvalid := hreach.valid
  have hvalid' := (hreach.run hrun).valid
  obtain ⟨⟨_, hop₁⟩, started₁, address₁, port₁, buffer₁, rest₁, hevents₁⟩ := hreadDirect
  obtain ⟨⟨_, hop₂⟩, started₂, address₂, port₂, buffer₂, rest₂, hevents₂⟩ := hreadLate
  obtain ⟨server₁, r₁, hserver₁, hreturned₁, hadjusts₁, hjudged₁, hD⟩ :=
    hdirect.judged hvalid hop₁ [.now started₁] hevents₁
  obtain ⟨server₂, r₂, hserver₂, hreturned₂, hadjusts₂, hjudged₂, hL⟩ :=
    hlate.judged hvalid' hop₂ [.now started₂] hevents₂
  obtain ⟨hservers, _⟩ := Prod.mk.inj hconfig
  obtain ⟨hindex, _, hrequest, _⟩ := Session.mk.inj hsession
  -- both calls are made in the same exchange, with the same server
  have hserver : server₁ = server₂ := by
    rw [hservers, hindex, hserver₁] at hserver₂
    exact Option.some.inj hserver₂
  subst hserver
  rw [Call.validations, Call.validations, hevents₁, hevents₂] at hanswers
  obtain ⟨hrest, hr⟩ := hjudged₁.functional hjudged₂ hrequest.symm hanswers
  refine ⟨?_, ?_, ?_⟩
  · exact hreturned₂.trans (hr ▸ hreturned₁.symm)
  · rw [hadjusts₁, hadjusts₂, hrest]
  · rw [hD, hL, hsession, hservers, hr]

/-- A packet of ones, and then half a packet. -/
def garbage : Script where
  addresses := []
  readings := [⟨1000, 9⟩, ⟨1000, 10⟩, ⟨1000, 11⟩]
  sends := []
  reads := [(.ok 48, List.replicate 48 0xff), (.ok 24, List.replicate 24 0)]

/-- After both, the answer still synchronises. -/
theorem garbage_harmless_before_answer :
    let run := performAll 2 [.receive 100, .receive 100] (pending NoAuth.noAuth) garbage
    (perform 2 (.receive 100) run.2.1 (readsAt1001 genuine)).1.Returned (.ok .synchronised) := by
  intro run
  have hcalls : ∀ call ∈ run.1, call.FoundNothing := by
    intro call hcall
    rcases List.mem_pair.mp hcall with rfl | rfl
    · exact ⟨⟨100, rfl⟩, Or.inr ⟨.invalidResponse, rfl⟩⟩
    · exact ⟨⟨100, rfl⟩, Or.inr ⟨.network, rfl⟩⟩
  have hdirect := perform_makes 2 (.receive 100) (pending NoAuth.noAuth) (readsAt1001 genuine)
  have hlate := perform_makes 2 (.receive 100) run.2.1 (readsAt1001 genuine)
  -- both calls read the answer first, and there is no authenticator to ask
  have hreads : (perform 2 (.receive 100) (pending NoAuth.noAuth)
      (readsAt1001 genuine)).1.ReadsFullFirst genuine ⟨1001, 0⟩ :=
    ⟨⟨100, rfl⟩, ⟨1000, 9⟩, 7, 123, _, _, rfl⟩
  have hreads' : (perform 2 (.receive 100) run.2.1
      (readsAt1001 genuine)).1.ReadsFullFirst genuine ⟨1001, 0⟩ :=
    ⟨⟨100, rfl⟩, ⟨1000, 9⟩, 7, 123, _, _, rfl⟩
  have hasked : (perform 2 (.receive 100) (pending NoAuth.noAuth)
      (readsAt1001 genuine)).1.validations = [] := rfl
  have hasked' : (perform 2 (.receive 100) run.2.1 (readsAt1001 genuine)).1.validations = [] := rfl
  obtain ⟨houtcome, _⟩ :=
    (garbage_harmless (pending_reachable NoAuth.noAuth) (performAll_run 2 _ _ _) hcalls).2
      _ _ _ _ genuine ⟨1001, 0⟩ hdirect hlate hreads hreads' (hasked.trans hasked'.symm)
  exact houtcome.trans rfl

/-! ## Kiss-o'-Death -/

/-- An accepted packet, as the call that read it saw it. -/
theorem Judged.synchronised {c : Client A} {server : ServerInfo} {packet : Buffer}
    {receivedAt : Timestamp} {rest : List Event}
    (h : Judged c server packet receivedAt rest (.ok .synchronised)) :
    ∃ a, deserializeResponse c.lastRequestTime receivedAt packet = .ok (.accepted a) := by
  generalize hr : (Except.ok Reception.synchronised : Except ReceiveError Reception) = r at h
  cases h with
  | refused _ => cases hr
  | passed =>
    rcases hverdict : deserializeResponse c.lastRequestTime receivedAt packet with e | ⟨a | r⟩
    · rw [hverdict] at hr
      cases hr
    · exact ⟨a, rfl⟩
    · rw [hverdict] at hr
      cases hr

/-- What an accepted packet does when no authenticator is in the way. -/
theorem Judged.of_accepted {c : Client A} {server : ServerInfo} {packet : Buffer}
    {receivedAt : Timestamp} {rest : List Event} {r : Except ReceiveError Reception} {a : Accepted}
    (h : Judged c server packet receivedAt rest r) (hbare : Authenticator.configured A = false)
    (hverdict : deserializeResponse c.lastRequestTime receivedAt packet = .ok (.accepted a)) :
    r = .ok .synchronised ∧ rest.filter Event.isAdjust
      = [.adjustClock server a.serverTime a.clockOffsetMs a.leapSecond] := by
  cases h with
  | refused hconfigured =>
    rw [hbare] at hconfigured
    cases hconfigured
  | passed =>
    rw [hverdict, judged_adjusts]
    exact ⟨rfl, rfl⟩

/-- Without authentication, calls that bring no time keep the request. -/
theorem Call.FoundNoTime.keepsRequest {call : Call A} (h : call.FoundNoTime)
    (hbare : Authenticator.configured A = false) : call.KeepsRequest := by
  refine ⟨?_, ?_, ?_⟩
  · rcases h with h | h
    · exact h.1
    · exact h.1
  · intro hsync
    rcases h with ⟨_, hnothing | ⟨e, herror⟩⟩ | ⟨_, hrejected⟩
    · cases hsync.symm.trans hnothing
    · cases hsync.symm.trans herror
    · cases hsync.symm.trans hrejected
  · intro hconfigured
    rw [hbare] at hconfigured
    cases hconfigured

/-- With authentication, a rejection forgets the request. -/
theorem Makes.rejected {c c' : Client A} {call : Call A} (h : Makes c call c') (hvalid : c.Valid)
    (hconfigured : Authenticator.configured A = true) (hreceive : call.IsReceive)
    (hrejected : call.Returned (.ok .rejected)) : c'.lastRequestTime = .zero := by
  obtain ⟨blockTimeMs, hop⟩ := hreceive
  obtain ⟨watch, result, houtcome, htrace⟩ := h.receives hvalid hop
  obtain rfl := (Call.returned_iff houtcome).mp hrejected
  rw [htrace.request, Client.settle_rejected, if_pos hconfigured]

/-- **The Kiss-o'-Death asymmetry.** Without authentication, after any calls that
were rejected, found nothing or failed, an acceptable packet still synchronises
the clock, and to the same time. With it, after a rejection, nothing does until
another request is stamped. -/
theorem kiss_of_death_asymmetry :
    (Authenticator.configured A = false →
      ∀ (S S' D L : Client A) calls direct late packet receivedAt,
        Reachable S → Run Makes S calls S' → (∀ call ∈ calls, call.FoundNoTime) →
        Makes S direct D → direct.ReadsFull packet receivedAt →
        direct.Returned (.ok .synchronised) →
        Makes S' late L → late.ReadsFull packet receivedAt →
        late.Returned (.ok .synchronised) ∧
          ∃ server server' serverTime offsetMs leapSecond,
            direct.adjusts = [.adjustClock server serverTime offsetMs leapSecond] ∧
            late.adjusts = [.adjustClock server' serverTime offsetMs leapSecond]) ∧
    (Authenticator.configured A = true →
      ∀ (c c₁ c₂ : Client A) rejected calls,
        Reachable c → Makes c rejected c₁ → rejected.IsReceive →
        rejected.Returned (.ok .rejected) →
        Run Makes c₁ calls c₂ → (∀ call ∈ calls, call.stamp = none) →
        ∀ call ∈ calls, call.adjusts = [] ∧ ¬ call.Returned (.ok .synchronised) ∧
          ¬ call.Returned (.ok .rejected)) := by
  constructor
  · intro hbare S S' D L calls direct late packet receivedAt hreach hrun hcalls hdirect hreadDirect
      hsync hlate hreadLate
    obtain ⟨⟨_, hop₁⟩, pre₁, _, _, _, rest₁, hevents₁⟩ := hreadDirect
    obtain ⟨⟨_, hop₂⟩, pre₂, _, _, _, rest₂, hevents₂⟩ := hreadLate
    obtain ⟨server₁, r₁, _, hreturned₁, hadjusts₁, hjudged₁, _⟩ :=
      hdirect.judged hreach.valid hop₁ pre₁ hevents₁
    obtain ⟨server₂, r₂, _, hreturned₂, hadjusts₂, hjudged₂, _⟩ :=
      hlate.judged (hreach.run hrun).valid hop₂ pre₂ hevents₂
    obtain rfl : r₁ = .ok .synchronised := by
      cases hreturned₁.symm.trans hsync
      rfl
    obtain ⟨a, hverdict⟩ := hjudged₁.synchronised
    have hverdict' : deserializeResponse S'.lastRequestTime receivedAt packet
        = .ok (.accepted a) := by
      rw [keepsRequest_run hreach hrun fun call hc => (hcalls call hc).keepsRequest hbare]
      exact hverdict
    obtain ⟨_, had₁⟩ := hjudged₁.of_accepted hbare hverdict
    obtain ⟨rfl, had₂⟩ := hjudged₂.of_accepted hbare hverdict'
    exact ⟨hreturned₂, server₁, server₂, _, _, _, hadjusts₁.trans had₁, hadjusts₂.trans had₂⟩
  · intro hconfigured c c₁ c₂ rejected calls hreach hcall hreceive hrejected hrun hstamp call hmem
    have hreach₁ := hreach.makes hcall
    have hidle := hcall.rejected hreach.valid hconfigured hreceive hrejected
    obtain ⟨pre, post, t, t', rfl, hpre, hstep, _⟩ := hrun.of_mem hmem
    have hidle' : t.lastRequestTime = .zero :=
      idle_run hreach₁ hpre (fun call hc => hstamp call (List.mem_append_left _ hc)) hidle
    exact hstep.nothing_outstanding (hreach₁.run hpre).valid hidle'

/-- A Kiss-o'-Death and then the answer: it synchronises the clock of a client
without an authenticator, and is nothing to a client with one. -/
theorem kiss_of_death_asymmetry_before_answer :
    let run := performAll 2 [.receive 100] (pending NoAuth.noAuth) (readsAt1001 kissOfDeath)
    let rejected :=
      (perform 2 (.receive 100) (pending (Keyring.mk [] [])) (readsAt1001 kissOfDeath)).1
    (perform 2 (.receive 100) run.2.1 (readsAt1001 genuine)).1.Returned (.ok .synchronised) ∧
      (perform 2 (.receive 100) rejected.after (readsAt1001 genuine)).1.adjusts = [] := by
  intro run rejected
  constructor
  · have hcalls : ∀ call ∈ run.1, call.FoundNoTime := by
      intro call hcall
      rcases List.mem_singleton.mp hcall with rfl
      exact Or.inr ⟨⟨100, rfl⟩, rfl⟩
    have hdirect := perform_makes 2 (.receive 100) (pending NoAuth.noAuth) (readsAt1001 genuine)
    have hlate := perform_makes 2 (.receive 100) run.2.1 (readsAt1001 genuine)
    exact (kiss_of_death_asymmetry.1 rfl _ _ _ _ _ _ _ genuine ⟨1001, 0⟩
      (pending_reachable NoAuth.noAuth) (performAll_run 2 _ _ _) hcalls hdirect
      ⟨⟨100, rfl⟩, [_], _, _, _, _, rfl⟩ rfl hlate ⟨⟨100, rfl⟩, [_], _, _, _, _, rfl⟩).1
  · have hrejected := perform_makes 2 (.receive 100) (pending (Keyring.mk [] []))
      (readsAt1001 kissOfDeath)
    have hanswer := perform_makes 2 (.receive 100) rejected.after (readsAt1001 genuine)
    have hstamp : ∀ call ∈ [(perform 2 (.receive 100) rejected.after (readsAt1001 genuine)).1],
        call.stamp = none := by
      intro call hcall
      rcases List.mem_singleton.mp hcall with rfl
      rfl
    exact (kiss_of_death_asymmetry.2 rfl _ _ _ _ _ (pending_reachable (Keyring.mk [] []))
      hrejected ⟨100, rfl⟩ rfl (.single hanswer) hstamp _ (List.mem_singleton.mpr rfl)).1

end Sntp
