import Sntp.Client.Pending

/-!
# Nothing unauthenticated has an effect

With an authenticator configured, a packet that was read in full is handed to it
before anything else is done with it, and what it answers decides what is done.
`Vetted` says that of one call, and `authenticated_before_effect` of every call:
a full read is vetted, and a call with any effect on the clock, on the request or,
through a rejection, on the server in use has a full read the authenticator
passed.
-/

namespace Sntp

open Transition

variable {A : Type} [Authenticator A] {c c' : Client A}

omit [Authenticator A] in
theorem Client.Quiet.validation {port : UInt16} {e : Event} (h : c.Quiet port e) :
    e.validation = none := by
  rcases h with ⟨t, rfl⟩ | ⟨_, _, _, rfl, _⟩
  · rfl
  · rfl

/-- What a configured authenticator makes of a packet: it is asked first, and the
packet is looked at only if it answers Ok. -/
theorem Judged.vetted {server : ServerInfo} {packet : Buffer} {receivedAt : Timestamp}
    {rest : List Event} {r : Except ReceiveError Reception}
    (h : Judged c server packet receivedAt rest r)
    (hconfigured : Authenticator.configured A = true) :
    ∃ answer effects, rest = .validateServerAuth server packet answer :: effects ∧
      effects.filterMap Event.validation = [] ∧
      (answer = .ok () →
        effects = adjustments server (deserializeResponse c.lastRequestTime receivedAt packet) ∧
        r = receptionOf (deserializeResponse c.lastRequestTime receivedAt packet)) ∧
      ∀ e, answer = .error e → effects = [] ∧ r = .error e.toReceive := by
  cases h with
  | @refused e _ =>
    refine ⟨.error e, [], rfl, rfl, nofun, ?_⟩
    intro e' he
    cases he
    exact ⟨rfl, rfl⟩
  | passed =>
    refine ⟨.ok (), adjustments server (deserializeResponse c.lastRequestTime receivedAt packet),
      ?_, ?_, fun _ => ⟨rfl, rfl⟩, nofun⟩
    · rw [validations, if_pos hconfigured]
      rfl
    · rcases deserializeResponse c.lastRequestTime receivedAt packet with e | ⟨a | r⟩ <;> rfl

/-- A full read is the only one of its call, and decides it. -/
theorem Receives.of_full_read {blockTimeMs : UInt32} {watch : ℕ} {events : List Event}
    {result : Option (Except ReceiveError Reception)}
    (h : Receives c blockTimeMs watch events result c') (hvalid : c.Valid) {address : UInt32}
    {port : UInt16} {buffer packet : Buffer}
    (hread : .recvFrom address port buffer packet (.ok c.packetSize.toNat) ∈ events) :
    ∃ server pre receivedAt rest r, c.servers[c.currentServer]? = some server ∧
      events = pre ++ .recvFrom address port buffer packet (.ok c.packetSize.toNat) ::
        .now receivedAt :: rest ∧
      (∀ e ∈ pre, c.Quiet server.port e) ∧ packet.length = c.packetSize.toNat ∧
      Judged c server packet receivedAt rest r ∧ result = some r := by
  obtain ⟨server, hserver, hshape⟩ := h.quiet_or_full hvalid
  have hloud : ¬ c.Quiet server.port
      (.recvFrom address port buffer packet (.ok c.packetSize.toNat)) := by
    intro hquiet
    rcases hquiet with ⟨t, ht⟩ | ⟨_, _, _, hevent, hanswer⟩
    · cases ht
    · exact hanswer (Event.recvFrom.inj hevent).2.2.2.2.symm
  rcases hshape with ⟨hquiet, _⟩ |
    ⟨before, buffer', packet', receivedAt, rest, r, rfl, hbefore, hlen, hjudged, rfl⟩
  · exact absurd (hquiet _ hread) hloud
  · -- it is not before the full read that decides, nor after, so it is that one
    have hsame : Event.recvFrom address port buffer packet (.ok c.packetSize.toNat)
        = .recvFrom c.currentServerAddr server.port buffer' packet' (.ok c.packetSize.toNat) := by
      rcases List.mem_append.mp hread with hmem | hmem
      · exact absurd (hbefore _ hmem) hloud
      · rcases List.mem_cons.mp hmem with heq | hmem
        · exact heq
        · rcases List.mem_cons.mp hmem with hnow | hmem
          · cases hnow
          · cases (hjudged.not_quiet hmem).1
    cases hsame
    exact ⟨server, before, receivedAt, rest, r, hserver, rfl, hbefore, hlen, hjudged, rfl⟩

/-- `call` read `packet` in full, and handed it to the authenticator as the packet
of `server` right after the clock reading `receivedAt`, before anything else and
once; what it did then is `effects`. -/
structure Vetted (c : Client A) (call : Call A) (server : ServerInfo) (packet : Buffer)
    (receivedAt : Timestamp) (answer : Except AuthError Unit) (effects : List Event) : Prop where
  current : c.servers[c.currentServer]? = some server
  order : ∃ pre address port buffer, call.events
    = pre ++ .recvFrom address port buffer packet (.ok c.packetSize.toNat) ::
      .now receivedAt :: .validateServerAuth server packet answer :: effects ∧
    ∀ e ∈ pre, c.Quiet server.port e
  once : call.validations = [answer]
  full : packet.length = c.packetSize.toNat
  /-- What passes is judged by the same bytes. -/
  passed : answer = .ok () →
    effects = adjustments server (deserializeResponse c.lastRequestTime receivedAt packet) ∧
    call.Returned (receptionOf (deserializeResponse c.lastRequestTime receivedAt packet))
  /-- What does not pass has no effect. -/
  refused : ∀ e, answer = .error e →
    effects = [] ∧ call.Returned (.error e.toReceive) ∧ call.after.session = c.session

/-- A full read is vetted. -/
theorem Makes.vetted {call : Call A} {blockTimeMs : UInt32} (h : Makes c call c')
    (hvalid : c.Valid) (hconfigured : Authenticator.configured A = true)
    (hop : call.op = .receive blockTimeMs) {address : UInt32} {port : UInt16}
    {buffer packet : Buffer}
    (hread : .recvFrom address port buffer packet (.ok c.packetSize.toNat) ∈ call.events) :
    ∃ server receivedAt answer effects,
      Vetted c call server packet receivedAt answer effects := by
  obtain ⟨watch, result, houtcome, htrace⟩ := h.receives hvalid hop
  obtain ⟨server, pre, receivedAt, rest, r, hserver, hevents, hquiet, hlen, hjudged, rfl⟩ :=
    htrace.of_full_read hvalid hread
  obtain ⟨answer, effects, rfl, hnone, hpassed, hrefused⟩ := hjudged.vetted hconfigured
  refine ⟨server, receivedAt, answer, effects, hserver, ⟨pre, _, _, _, hevents, hquiet⟩, ?_, hlen,
    ?_, ?_⟩
  · have hpre : pre.filterMap Event.validation = [] :=
      List.filterMap_eq_nil_iff.mpr fun e he => (hquiet e he).validation
    rw [Call.validations, hevents, List.filterMap_append, hpre]
    exact congrArg (answer :: ·) hnone
  · intro hok
    obtain ⟨heffects, rfl⟩ := hpassed hok
    exact ⟨heffects, houtcome⟩
  · intro e he
    obtain ⟨heffects, rfl⟩ := hrefused e he
    refine ⟨heffects, houtcome, ?_⟩
    rw [h.after]
    exact htrace.session

/-- An effect on the clock, on the outstanding request, or on the server in use
through a rejection. -/
def Call.HasEffect (call : Call A) : Prop :=
  call.adjusts ≠ [] ∨ call.after.lastRequestTime ≠ call.before.lastRequestTime ∨
    call.Returned (.ok .rejected)

/-- A receive call that has an effect has a full read. -/
theorem Makes.full_read_of_effect {call : Call A} {blockTimeMs : UInt32} (h : Makes c call c')
    (hvalid : c.Valid) (hop : call.op = .receive blockTimeMs) (heffect : call.HasEffect) :
    ∃ address port buffer packet,
      .recvFrom address port buffer packet (.ok c.packetSize.toNat) ∈ call.events := by
  obtain ⟨watch, result, houtcome, htrace⟩ := h.receives hvalid hop
  obtain ⟨server, _, ⟨hquiet, hfruitless⟩ | ⟨before, buffer, packet, receivedAt, rest, r, hevents,
    _⟩⟩ := htrace.quiet_or_full hvalid
  · exfalso
    rcases heffect with hadjusts | hrequest | hrejected
    · refine hadjusts (List.filter_eq_nil_iff.mpr ?_)
      intro e he
      rw [(hquiet e he).isAdjust]
      exact Bool.false_ne_true
    · apply hrequest
      rw [h.after, h.before, htrace.request]
      cases hfruitless <;> rfl
    · obtain rfl := (Call.returned_iff houtcome).mp hrejected
      cases hfruitless
  · refine ⟨c.currentServerAddr, server.port, buffer, packet, ?_⟩
    rw [hevents]
    exact List.mem_append_right _ List.mem_cons_self

/-- **Nothing unauthenticated has an effect.** With an authenticator configured,
every full read is vetted, and a receive call with any effect has a full read that
was vetted and passed. -/
theorem authenticated_before_effect {call : Call A} {blockTimeMs : UInt32}
    (hconfigured : Authenticator.configured A = true) (hreach : Reachable c)
    (hcall : Makes c call c') (hop : call.op = .receive blockTimeMs) :
    (∀ address port buffer packet,
      .recvFrom address port buffer packet (.ok c.packetSize.toNat) ∈ call.events →
      ∃ server receivedAt answer effects,
        Vetted c call server packet receivedAt answer effects) ∧
    (call.HasEffect → ∃ server packet receivedAt effects,
      Vetted c call server packet receivedAt (.ok ()) effects) := by
  have hvalid := hreach.valid
  refine ⟨fun _ _ _ _ hread => hcall.vetted hvalid hconfigured hop hread, ?_⟩
  intro heffect
  obtain ⟨_, _, _, packet, hread⟩ := hcall.full_read_of_effect hvalid hop heffect
  obtain ⟨server, receivedAt, answer, effects, hvetted⟩ :=
    hcall.vetted hvalid hconfigured hop hread
  rcases answer with e | ⟨⟨⟩⟩
  · -- a refused packet has none
    exfalso
    obtain ⟨rfl, hreturned, hsession⟩ := hvetted.refused e rfl
    rcases heffect with hadjusts | hrequest | hrejected
    · obtain ⟨pre, _, _, _, hevents, hquiet⟩ := hvetted.order
      apply hadjusts
      rw [Call.adjusts, hevents, List.filter_append, List.filter_eq_nil_iff.mpr ?_]
      · rfl
      · intro e he
        rw [(hquiet e he).isAdjust]
        exact Bool.false_ne_true
    · apply hrequest
      rw [hcall.before]
      exact congrArg Session.lastRequestTime hsession
    · cases e <;> cases hreturned.symm.trans hrejected
  · exact ⟨server, packet, receivedAt, effects, hvetted⟩

/-- A genuine answer the authenticator refuses: the call says so, and the request
is still outstanding. -/
theorem authenticated_before_effect_of_refusal :
    let call := (perform 2 (.receive 100) (pending (Keyring.mk [] [.error .serverNotAuthenticated]))
      (readsAt1001 genuine)).1
    call.Returned (.error .serverNotAuthenticated) ∧
      call.after.session = call.before.session ∧ call.adjusts = [] := by
  intro call
  have hcall := perform_makes 2 (.receive 100)
    (pending (Keyring.mk [] [.error .serverNotAuthenticated])) (readsAt1001 genuine)
  have hboth := authenticated_before_effect rfl (pending_reachable _) hcall rfl
  obtain ⟨server, receivedAt, answer, effects, hvetted⟩ :=
    hboth.1 7 123 call.before.packet genuine (List.mem_of_getElem? (i := 1) rfl)
  obtain rfl : answer = .error .serverNotAuthenticated := (List.cons.inj hvetted.once).1.symm
  obtain ⟨_, hreturned, hsession⟩ := hvetted.refused _ rfl
  exact ⟨hreturned, hsession, rfl⟩

end Sntp
