import Sntp.Client.Request

/-!
# What a send call leaves behind

A send call can fail at six points, and the fields it updates are spread between
them. What decides is how far it got: no address, no clock, or a request that was
written. `send_leaves` says what the client is in each case, and the last case
covers every outcome past the clock: the request time is stored and stands in the
buffer, whether or not anything was sent.

The packet size is updated by signing alone, so a refused signature leaves the
size of the request before.
-/

namespace Sntp

open Transition

variable {A : Type}

section Written

variable [Authenticator A] {c c' : Client A} {server : ServerInfo} {signing : List Event}

/-- What signing, done or refused, keeps: all but the buffer past the packet, the
authenticator's own state, and the packet size when it is done. -/
structure Signing (c : Client A) (signing : List Event) (c' : Client A) : Prop where
  index : c'.currentServer = c.currentServer
  address : c'.currentServerAddr = c.currentServerAddr
  request : c'.lastRequestTime = c.lastRequestTime
  front : (∀ server buffer filled answer,
      .generateClientAuth server buffer filled answer ∈ signing →
      filled.take 48 = buffer.take 48) → c'.buffer.take 48 = c.buffer.take 48
  size : c'.packetSize ≠ c.packetSize → ∃ server buffer filled authSize,
    .generateClientAuth server buffer filled (.ok authSize) ∈ signing ∧ authSize.toNat ≤ c.spare

theorem Signs.keeps (h : Signs c server signing c') : Signing c signing c' := by
  cases h with
  | bare _ => exact ⟨rfl, rfl, rfl, fun _ => rfl, fun hsize => absurd rfl hsize⟩
  | signed _ _ hfits =>
    refine ⟨rfl, rfl, rfl, ?_, ?_⟩
    · intro hspares
      exact hspares _ _ _ _ (List.mem_singleton.mpr rfl)
    · intro _
      exact ⟨_, _, _, _, List.mem_singleton.mpr rfl, hfits⟩

theorem Unsigned.keeps (h : Unsigned c server signing c') : Signing c signing c' := by
  cases h with
  | mk _ _ _ =>
    refine ⟨rfl, rfl, rfl, ?_, fun hsize => absurd rfl hsize⟩
    intro hspares
    exact hspares _ _ _ _ (List.mem_singleton.mpr rfl)

omit [Authenticator A] in
/-- What a client remembers of a request it wrote stands in its buffer. -/
theorem Signing.stands {address : UInt32} {reading : Timestamp} {randomNumber : UInt32}
    (h : Signing (c.requested address reading randomNumber) signing c')
    (hspares : ∀ server buffer filled answer,
      .generateClientAuth server buffer filled answer ∈ signing →
        filled.take 48 = buffer.take 48) :
    Bytes.slice c'.buffer 40 48 = some (timestampBytes c'.lastRequestTime) := by
  have hfront : c'.buffer.take 48 = requestHeader (stamped reading randomNumber) := by
    rw [h.front hspares]
    exact List.take_left' (requestHeader_length _)
  have hbuffer : c'.buffer = requestHeader (stamped reading randomNumber) ++ c'.buffer.drop 48 := by
    rw [← hfront, List.take_append_drop]
  rw [hbuffer, h.request]
  exact requestHeader_transmit _ _

end Written

section Sends

variable [Authenticator A] {c c' : Client A} {randomNumber blockTimeMs : UInt32} {watch : ℕ}
  {events : List Event} {result : Option (Except SendError Unit)}

theorem Signs.not_resolves {server : ServerInfo} {signing : List Event}
    (h : Signs c server signing c') (server' : ServerInfo) (answer : Option UInt32) :
    .resolveDns server' answer ∉ signing := by
  intro hmem
  cases h with
  | bare _ => cases hmem
  | signed _ _ _ => cases List.mem_singleton.mp hmem

/-- **A send call gets as far as its answers let it**: no address, no clock, or a
request that was written, and then it resolves nothing again. -/
theorem Sends.written (h : Sends c randomNumber blockTimeMs watch events result c') :
    ∃ server, c.servers[c.currentServer]? = some server ∧
      ((events = [.resolveDns server none] ∧ result = some (.error .dns) ∧ c' = c) ∨
        (∃ address, events = [.resolveDns server (some address), .now .zero] ∧
          result = some (.error .network) ∧
          c' = { c with currentServerAddr := address, lastRequestTime := .zero }) ∨
        ∃ address reading signing rest,
          events = .resolveDns server (some address) :: .now reading :: (signing ++ rest) ∧
          (∀ server answer, .resolveDns server answer ∉ signing ++ rest) ∧
          reading ≠ .zero ∧ result ≠ some (.error .dns) ∧
          Signing (c.requested address reading randomNumber) signing c') := by
  cases h with
  | unresolved hserver => exact ⟨_, hserver, Or.inl ⟨rfl, rfl, rfl⟩⟩
  | zeroClock hserver => exact ⟨_, hserver, Or.inr (Or.inl ⟨_, rfl, rfl, rfl⟩)⟩
  | @unsigned server address reading signing c' hserver hreading hunsigned =>
    refine ⟨server, hserver, Or.inr (Or.inr ⟨address, reading, signing, [], ?_, ?_, hreading, nofun,
      hunsigned.keeps⟩)⟩
    · rw [List.append_nil]
    · intro server' answer hmem
      rw [List.append_nil] at hmem
      cases hunsigned with
      | mk _ _ _ => cases List.mem_singleton.mp hmem
  | @tried server address reading started signing loop result c' hserver hreading hsigns hloop =>
    refine ⟨server, hserver, Or.inr (Or.inr ⟨address, reading, signing, .now started :: loop, rfl,
      ?_, hreading, ?_, hsigns.keeps⟩)⟩
    · intro server' answer hmem
      rcases List.mem_append.mp hmem with hmem | hmem
      · exact hsigns.not_resolves server' answer hmem
      · rcases List.mem_cons.mp hmem with hmem | hmem
        · cases hmem
        · rcases hloop.sends hmem with ⟨t, h⟩ | ⟨answer', h⟩
          · cases h
          · cases h
    · intro hdns
      obtain ⟨_, _, _, _, hrest⟩ := hloop.split
      rcases hrest with ⟨hnone, _⟩ | ⟨r, hr, _, hend⟩
      · rw [hnone] at hdns
        cases hdns
      · rw [hr] at hdns
        cases hdns
        cases hend

theorem Sends.index (h : Sends c randomNumber blockTimeMs watch events result c') :
    c'.currentServer = c.currentServer := by
  obtain ⟨_, _, ⟨_, _, rfl⟩ | ⟨_, _, _, rfl⟩ | ⟨_, _, _, _, _, _, _, _, hsigning⟩⟩ := h.written
  · rfl
  · rfl
  · exact hsigning.index

/-- An unresolved send call has not touched the client. -/
theorem Sends.of_unresolved (h : Sends c randomNumber blockTimeMs watch events result c')
    {server : ServerInfo} (hnone : .resolveDns server none ∈ events) :
    events = [.resolveDns server none] ∧ result = some (.error .dns) ∧ c' = c := by
  obtain ⟨server', _, hcase⟩ := h.written
  rcases hcase with ⟨rfl, rfl, rfl⟩ | ⟨_, rfl, _, _⟩ | ⟨_, _, signing, rest, rfl, hrest, _, _, _⟩
  · cases List.mem_singleton.mp hnone
    exact ⟨rfl, rfl, rfl⟩
  · rcases List.mem_pair.mp hnone with h | h <;> cases h
  · rcases List.mem_cons.mp hnone with h | hnone
    · cases h
    · rcases List.mem_cons.mp hnone with h | hnone
      · cases h
      · exact absurd hnone (hrest server none)

/-- A send call whose clock reads zero has the new address, and no request. -/
theorem Sends.of_zero (h : Sends c randomNumber blockTimeMs watch events result c')
    (hzero : firstReading events = some .zero) :
    ∃ server address, events = [.resolveDns server (some address), .now .zero] ∧
      result = some (.error .network) ∧
      c' = { c with currentServerAddr := address, lastRequestTime := .zero } := by
  obtain ⟨server, _, hcase⟩ := h.written
  rcases hcase with ⟨rfl, _, _⟩ | ⟨address, rfl, rfl, rfl⟩ | ⟨_, _, _, _, rfl, _, hreading, _, _⟩
  · cases hzero
  · exact ⟨server, address, rfl, rfl, rfl⟩
  · exact absurd (Option.some.inj hzero) hreading

/-- Any other send call has written its request. -/
theorem Sends.of_stamped (h : Sends c randomNumber blockTimeMs watch events result c')
    (hresolved : ∀ server, .resolveDns server none ∉ events)
    (hclock : firstReading events ≠ some .zero) :
    ∃ server address reading signing rest,
      events = .resolveDns server (some address) :: .now reading :: (signing ++ rest) ∧
      reading ≠ .zero ∧ result ≠ some (.error .dns) ∧
      Signing (c.requested address reading randomNumber) signing c' := by
  obtain ⟨server, _, hcase⟩ := h.written
  rcases hcase with ⟨rfl, _, _⟩ | ⟨_, rfl, _, _⟩ |
    ⟨address, reading, signing, rest, rfl, _, hreading, hdns, hsigning⟩
  · exact absurd (List.mem_singleton.mpr rfl) (hresolved server)
  · exact absurd rfl hclock
  · exact ⟨server, address, reading, signing, rest, rfl, hreading, hdns, hsigning⟩

end Sends

section Outcomes

variable [Authenticator A]

/-- The call asked neither the transport nor the authenticator for anything. -/
def Call.SentNothing (call : Call A) : Prop :=
  (∀ address port bytes answer, .sendTo address port bytes answer ∉ call.events) ∧
    ∀ server buffer filled answer, .generateClientAuth server buffer filled answer ∉ call.events

/-- **What every outcome of a send call leaves behind.** It never moves to another
server. Unresolved, it has not touched the client, which can do whatever it could
before. At a clock that reads zero it has the new address and no request, so
nothing is accepted until another is stamped. And past that it has the new address
and the new request, in its fields and in its buffer, and has touched the packet
size only if the authenticator's code fits. -/
theorem send_leaves {c c' : Client A} {call : Call A} {randomNumber blockTimeMs : UInt32}
    (hreach : Reachable c) (hcall : Makes c call c')
    (hop : call.op = .send randomNumber blockTimeMs) :
    c'.currentServer = c.currentServer ∧
    (∀ server, .resolveDns server none ∈ call.events →
      call.outcome = some (.sent (.error .dns)) ∧ (∀ t, .now t ∉ call.events) ∧ c' = c ∧
      ∀ later c'', Makes c later c'' → Makes c' later c'') ∧
    (firstReading call.events = some .zero →
      call.outcome = some (.sent (.error .network)) ∧ call.SentNothing ∧
      c'.buffer = c.buffer ∧ c'.packetSize = c.packetSize ∧ c'.lastRequestTime = .zero ∧
      (∃ server, .resolveDns server (some c'.currentServerAddr) ∈ call.events) ∧
      ∀ calls c'', Run Makes c' calls c'' → (∀ later ∈ calls, later.stamp = none) →
        ∀ later ∈ calls, later.adjusts = [] ∧ ¬ later.Returned (.ok .synchronised) ∧
          ¬ later.Returned (.ok .rejected)) ∧
    ((∀ server, .resolveDns server none ∉ call.events) →
      firstReading call.events ≠ some .zero →
      call.outcome ≠ some (.sent (.error .dns)) ∧
      (∃ server, .resolveDns server (some c'.currentServerAddr) ∈ call.events) ∧
      (∃ reading, firstReading call.events = some reading ∧
        c'.lastRequestTime = stamped reading randomNumber) ∧ c'.lastRequestTime ≠ .zero ∧
      (call.SparesPacket →
        Bytes.slice c'.buffer 40 48 = some (timestampBytes c'.lastRequestTime)) ∧
      (c'.packetSize ≠ c.packetSize → ∃ server buffer filled authSize,
        .generateClientAuth server buffer filled (.ok authSize) ∈ call.events ∧
          authSize.toNat ≤ c.spare)) := by
  have hvalid := hreach.valid
  obtain ⟨watch, result, houtcome, htrace⟩ := hcall.sends hvalid hop
  refine ⟨htrace.index, ?_, ?_, ?_⟩
  · intro server hnone
    obtain ⟨hevents, rfl, rfl⟩ := htrace.of_unresolved hnone
    refine ⟨houtcome, ?_, rfl, fun _ _ hlater => hlater⟩
    intro t hmem
    rw [hevents] at hmem
    cases List.mem_singleton.mp hmem
  · intro hzero
    obtain ⟨server, address, hevents, rfl, rfl⟩ := htrace.of_zero hzero
    refine ⟨houtcome, ⟨?_, ?_⟩, rfl, rfl, rfl, ⟨server, ?_⟩, ?_⟩
    · intro _ _ _ _ hmem
      rw [hevents] at hmem
      rcases List.mem_pair.mp hmem with h | h <;> cases h
    · intro _ _ _ _ hmem
      rw [hevents] at hmem
      rcases List.mem_pair.mp hmem with h | h <;> cases h
    · rw [hevents]
      exact List.mem_cons_self
    · -- with no request remembered, none is until the next stamp
      intro calls c'' hrun hstamp later hlater
      have hreach' := hreach.makes hcall
      obtain ⟨pre, _, t, _, rfl, hpre, hstep, _⟩ := hrun.of_mem hlater
      have hidle : t.lastRequestTime = .zero :=
        idle_run hreach' hpre (fun call hc => hstamp call (List.mem_append_left _ hc)) rfl
      exact hstep.nothing_outstanding (hreach'.run hpre).valid hidle
  · intro hresolved hclock
    obtain ⟨server, address, reading, signing, rest, hevents, hreading, hdns, hsigning⟩ :=
      htrace.of_stamped hresolved hclock
    have hmem : ∀ e ∈ signing, e ∈ call.events := by
      intro e he
      rw [hevents]
      exact List.mem_cons_of_mem _ (List.mem_cons_of_mem _ (List.mem_append_left _ he))
    refine ⟨?_, ⟨server, ?_⟩, ⟨reading, ?_, hsigning.request⟩, ?_, ?_, ?_⟩
    · intro h
      exact hdns ((Call.sent_iff houtcome).mp h)
    · rw [hsigning.address, hevents]
      exact List.mem_cons_self
    · rw [hevents]
      rfl
    · rw [hsigning.request]
      exact stamped_ne_zero hreading randomNumber
    · intro hspares
      exact hsigning.stands fun server buffer filled answer he =>
        hspares server buffer filled answer (hmem _ he)
    · intro hsize
      obtain ⟨server', buffer, filled, authSize, hcode, hfits⟩ := hsigning.size hsize
      refine ⟨server', buffer, filled, authSize, hmem _ hcode, ?_⟩
      rwa [Client.spare, hvalid.requested_length] at hfits

/-- The clock stands at zero. -/
def zeroClock : Script where
  addresses := [some 8]
  readings := [.zero]
  sends := []
  reads := []

/-- A second request at a clock that reads zero gives up the first: its answer is
not accepted any more. -/
theorem send_leaves_at_zero :
    let call := (perform 2 (.send 0 100) (pending NoAuth.noAuth) zeroClock).1
    call.after.lastRequestTime = .zero ∧ call.after.currentServerAddr = 8 ∧
      (perform 2 (.receive 100) call.after (readsAt1001 genuine)).1.adjusts = [] := by
  intro call
  have hcall := perform_makes 2 (.send 0 100) (pending NoAuth.noAuth) zeroClock
  obtain ⟨_, _, hzero, _⟩ := send_leaves (pending_reachable NoAuth.noAuth) hcall rfl
  obtain ⟨_, _, _, _, hrequest, _, hlater⟩ := hzero rfl
  refine ⟨hrequest, rfl, (hlater _ _ (.single (perform_makes 2 (.receive 100) _ _)) ?_ _
    (List.mem_singleton.mpr rfl)).1⟩
  intro later hmem
  rw [List.mem_singleton.mp hmem]
  rfl

end Outcomes

end Sntp
