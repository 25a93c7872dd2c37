import Sntp.Client.Loop

/-!
# What a send call can do

`sendTimeRequest`, executed once and for all against an arbitrary host and an
arbitrary authenticator. `Sends` lists the callbacks a call makes, in order and
with the answers it got, the result those answers force, and the client it
leaves: `sendTimeRequest_trace`. Nothing after this file executes a send call
again.

The client is ready before the send loop starts, and the loop does not touch
it: what is sent in every round is the front of the buffer of the client the
call leaves behind.
-/

namespace Sntp

variable {A H : Type}

/-- The client once its request is written: resolved, stamped, serialized. -/
def Client.requested (c : Client A) (address : UInt32) (reading : Timestamp)
    (randomNumber : UInt32) : Client A :=
  { c with
    currentServerAddr := address
    lastRequestTime := stamped reading randomNumber
    buffer := requestHeader (stamped reading randomNumber) ++ c.buffer.drop 48 }

/-- The packet a client sends, and the window it reads a response into. -/
def Client.packet (c : Client A) : Buffer := c.buffer.take c.packetSize.toNat

/-- The room an authenticator's code has after the base packet. -/
def Client.spare (c : Client A) : ℕ := c.buffer.length - packetBaseSize

/-- How a written request becomes ready to send. -/
inductive Signs [Authenticator A] (c : Client A) (server : ServerInfo) :
    List Event → Client A → Prop
  | bare (hconfigured : Authenticator.configured A = false) : Signs c server [] c
  | signed {filled : Buffer} {authSize : UInt16} {auth : A}
      (hconfigured : Authenticator.configured A = true)
      (hfilled : filled.length = c.buffer.length) (hfits : authSize.toNat ≤ c.spare) :
      Signs c server [.generateClientAuth server c.buffer filled (.ok authSize)]
        { c with
          buffer := filled
          auth
          packetSize := saturatingAddU16 (UInt16.ofNat packetBaseSize) authSize }

/-- How signing a written request fails: no code, or one that does not fit. -/
inductive Unsigned [Authenticator A] (c : Client A) (server : ServerInfo) :
    List Event → Client A → Prop
  | mk {filled : Buffer} {answer : Except AuthError UInt16} {auth : A}
      (hconfigured : Authenticator.configured A = true)
      (hfilled : filled.length = c.buffer.length)
      (hanswer : ∀ authSize, answer = .ok authSize → c.spare < authSize.toNat) :
      Unsigned c server [.generateClientAuth server c.buffer filled answer]
        { c with buffer := filled, auth }

/-- A send that moved nothing, before the window closed. -/
inductive SendStalls (address : UInt32) (port : UInt16) (packet : Buffer) (blockTimeMs : UInt32)
    (started : Timestamp) : Stall → Prop
  | unsent {reading : Timestamp}
      (hblock : calculateElapsedMs reading started < blockTimeMs.toUInt64) :
      SendStalls address port packet blockTimeMs started
        ⟨.sendTo address port packet (.ok 0), reading⟩

/-- How the send loop ends. -/
inductive SendEnd (address : UInt32) (port : UInt16) (packet : Buffer) (blockTimeMs : UInt32)
    (started : Timestamp) : List Event → Except SendError Unit → Prop
  | failed {e : NetworkError} :
      SendEnd address port packet blockTimeMs started [.sendTo address port packet (.error e)]
        (.error .network)
  | miscounted {n : ℕ} (hn : n ≠ 0) (hsize : n ≠ packet.length) :
      SendEnd address port packet blockTimeMs started [.sendTo address port packet (.ok n)]
        (.error .network)
  | timedOut {reading : Timestamp}
      (hblock : blockTimeMs.toUInt64 ≤ calculateElapsedMs reading started) :
      SendEnd address port packet blockTimeMs started
        [.sendTo address port packet (.ok 0), .now reading] (.error .sendTimeout)
  | sent :
      SendEnd address port packet blockTimeMs started
        [.sendTo address port packet (.ok packet.length)] (.ok ())

/-- What one watched send call of `c` can do. -/
inductive Sends [Authenticator A] (c : Client A) (randomNumber blockTimeMs : UInt32) (watch : ℕ) :
    List Event → Option (Except SendError Unit) → Client A → Prop
  | unresolved {server : ServerInfo} (hserver : c.servers[c.currentServer]? = some server) :
      Sends c randomNumber blockTimeMs watch [.resolveDns server none] (some (.error .dns)) c
  | zeroClock {server : ServerInfo} {address : UInt32}
      (hserver : c.servers[c.currentServer]? = some server) :
      Sends c randomNumber blockTimeMs watch [.resolveDns server (some address), .now .zero]
        (some (.error .network))
        { c with currentServerAddr := address, lastRequestTime := .zero }
  | unsigned {server : ServerInfo} {address : UInt32} {reading : Timestamp}
      {signing : List Event} {c' : Client A}
      (hserver : c.servers[c.currentServer]? = some server) (hreading : reading ≠ .zero)
      (hunsigned : Unsigned (c.requested address reading randomNumber) server signing c') :
      Sends c randomNumber blockTimeMs watch
        (.resolveDns server (some address) :: .now reading :: signing) (some (.error .auth)) c'
  | tried {server : ServerInfo} {address : UInt32} {reading started : Timestamp}
      {signing events : List Event} {result : Option (Except SendError Unit)} {c' : Client A}
      (hserver : c.servers[c.currentServer]? = some server) (hreading : reading ≠ .zero)
      (hsigns : Signs (c.requested address reading randomNumber) server signing c')
      (hloop : Retried (SendStalls address server.port c'.packet blockTimeMs started)
        (SendEnd address server.port c'.packet blockTimeMs started) watch events result) :
      Sends c randomNumber blockTimeMs watch
        (.resolveDns server (some address) :: .now reading :: (signing ++ .now started :: events))
        result c'

theorem saturatingAddU16_toNat (a b : UInt16) :
    (saturatingAddU16 a b).toNat = min (a.toNat + b.toNat) 65535 := by
  unfold saturatingAddU16
  rcases Nat.lt_or_ge (a.toNat + b.toNat) UInt16.size with hlt | hge
  · rw [UInt16.toNat_ofNatClamp_of_lt hlt, Nat.min_eq_left (by unfold UInt16.size at hlt; omega)]
  · rw [UInt16.toNat_ofNatClamp_of_le hge, Nat.min_eq_right (by unfold UInt16.size at hge; omega)]
    rfl

theorem Client.Valid.packet_length [Authenticator A] {c : Client A} (h : c.Valid) :
    c.packet.length = c.packetSize.toNat := by
  rw [Client.packet, List.length_take, Nat.min_eq_left h.fits]

/-- Writing a request does not change how long the buffer is. -/
theorem Client.Valid.requested_length [Authenticator A] {c : Client A} (h : c.Valid)
    (address : UInt32) (reading : Timestamp) (randomNumber : UInt32) :
    (c.requested address reading randomNumber).buffer.length = c.buffer.length := by
  have hbase : 48 ≤ c.buffer.length := h.buffer_base
  simp only [Client.requested, List.length_append, requestHeader_length, List.length_drop]
  omega

/-- Writing a request keeps the invariant. -/
theorem Client.Valid.requested [Authenticator A] {c : Client A} (h : c.Valid) (address : UInt32)
    (reading : Timestamp) (randomNumber : UInt32) :
    (c.requested address reading randomNumber).Valid :=
  ⟨h.index, h.base, h.requested_length address reading randomNumber ▸ h.fits, h.bare⟩

/-- So does signing it: a code that fits the spare room fits the buffer. -/
theorem Signs.valid [Authenticator A] {c c' : Client A} {server : ServerInfo} {events : List Event}
    (hsigns : Signs c server events c') (h : c.Valid) : c'.Valid := by
  cases hsigns with
  | bare _ => exact h
  | @signed filled authSize auth hconfigured hfilled hfits =>
    have hbase : 48 ≤ c.buffer.length := h.buffer_base
    have hsize : (saturatingAddU16 (UInt16.ofNat packetBaseSize) authSize).toNat
        = min (48 + authSize.toNat) 65535 := saturatingAddU16_toNat _ _
    have hspare : c.spare = c.buffer.length - 48 := rfl
    refine ⟨h.index, ?_, ?_, ?_⟩
    · show 48 ≤ (saturatingAddU16 (UInt16.ofNat packetBaseSize) authSize).toNat
      omega
    · show (saturatingAddU16 (UInt16.ofNat packetBaseSize) authSize).toNat ≤ filled.length
      omega
    · intro hbare
      rw [hbare] at hconfigured
      cases hconfigured

/-- A refused signature has not touched the packet size. -/
theorem Unsigned.valid [Authenticator A] {c c' : Client A} {server : ServerInfo}
    {events : List Event} (hunsigned : Unsigned c server events c') (h : c.Valid) : c'.Valid := by
  cases hunsigned with
  | mk _ hfilled _ => exact ⟨h.index, h.base, hfilled ▸ h.fits, h.bare⟩

section SendTrace

open ClientM

/-- Signing either makes the request ready or refuses it. -/
theorem addClientAuthentication_trace [Authenticator A] (server : ServerInfo) (w : World A H) :
    ∃ events result w',
      (addClientAuthentication server : ClientM A H _).run w = (some result, w') ∧
      w'.log = w.log ++ events ∧
      (result = .ok () ∧ Signs w.client server events w'.client ∨
        result = .error .auth ∧ Unsigned w.client server events w'.client) := by
  by_cases hconfigured : Authenticator.configured A = true
  · simp only [addClientAuthentication, hconfigured, if_true]
    obtain ⟨answer, filled, auth, w₁, hfilled, hgenerate, hlog, hclient⟩ :=
      run_generateClientAuth_bind w server _
    rw [hgenerate]
    rcases answer with e | authSize
    · refine ⟨_, _, w₁, rfl, hlog, Or.inr ⟨rfl, ?_⟩⟩
      rw [hclient]
      exact .mk hconfigured hfilled nofun
    · simp only [run_self_bind, hclient, hfilled]
      by_cases hspare : authSize.toNat > w.client.buffer.length - packetBaseSize
      · rw [if_pos hspare]
        refine ⟨_, _, w₁, rfl, hlog, Or.inr ⟨rfl, ?_⟩⟩
        rw [hclient]
        refine .mk hconfigured hfilled ?_
        intro authSize' hanswer
        cases hanswer
        exact hspare
      · rw [if_neg hspare]
        simp only [run_update_bind]
        refine ⟨_, _, _, rfl, hlog, Or.inl ⟨rfl, ?_⟩⟩
        simp only [hclient]
        exact .signed hconfigured hfilled (Nat.not_lt.mp hspare)
  · simp only [addClientAuthentication, if_neg hconfigured]
    exact ⟨[], .ok (), w, rfl, (List.append_nil _).symm,
      Or.inl ⟨rfl, .bare (Bool.not_eq_true _ ▸ hconfigured)⟩⟩

variable [SntpHost H]

/-- One round of the send loop. It leaves the client alone. -/
theorem sendRound_trace [Authenticator A] {c : Client A} (hvalid : c.Valid) (address : UInt32)
    (port : UInt16) (blockTimeMs : UInt32) (started : Timestamp) (w : World A H)
    (hclient : c = w.client) :
    (∃ s w', (sendRound address port blockTimeMs c.packetSize.toNat started).run w
          = (some none, w') ∧
        Round (SendStalls address port c.packet blockTimeMs started) w s w' ∧ c = w'.client) ∨
      (∃ result w', (sendRound address port blockTimeMs c.packetSize.toNat started).run w
          = (some (some result), w') ∧
        Exit (SendEnd address port c.packet blockTimeMs started) (fun _ c' => c = c')
          w result w') := by
  have hsize := hvalid.packet_length
  have hbase := hvalid.base
  simp only [sendRound, run_self_bind, ← hclient, Bytes.slice_zero hvalid.fits]
  obtain ⟨answer, w₁, hsend, hlog₁, hclient₁⟩ := run_sendTo_bind w address port c.packet _
  replace hclient₁ : c = w₁.client := hclient.trans hclient₁.symm
  rw [show c.buffer.take c.packetSize.toNat = c.packet from rfl]
  rcases answer with e | n | n
  · exact Or.inr ⟨.error .network, w₁, hsend, ⟨_, hlog₁, .failed⟩, hclient₁⟩
  · obtain ⟨reading, w₂, hnow, hlog₂, hclient₂⟩ := run_now_bind w₁ fun now =>
      (if calculateElapsedMs now started ≥ blockTimeMs.toUInt64 then
        pure (some (.error .sendTimeout))
      else pure none : ClientM A H (Option (Except SendError Unit)))
    have hlog : w₂.log = w.log ++ [.sendTo address port c.packet (.ok 0), .now reading] := by
      rw [hlog₂, hlog₁, List.append_assoc]
      rfl
    replace hclient₂ : c = w₂.client := hclient₁.trans hclient₂.symm
    by_cases hblock : calculateElapsedMs reading started ≥ blockTimeMs.toUInt64
    · right
      rw [if_pos hblock] at hnow
      exact ⟨.error .sendTimeout, w₂, hsend.trans hnow, ⟨_, hlog, .timedOut hblock⟩, hclient₂⟩
    · left
      rw [if_neg hblock] at hnow
      rw [ge_iff_le, UInt64.not_le] at hblock
      exact ⟨⟨.sendTo address port c.packet (.ok 0), reading⟩, w₂, hsend.trans hnow,
        ⟨hlog, .unsent hblock⟩, hclient₂⟩
  · right
    by_cases hfull : n + 1 = c.packetSize.toNat
    · refine ⟨.ok (), w₁, hsend.trans ?_, ⟨_, hlog₁, ?_⟩, hclient₁⟩
      · show (if n + 1 ≠ c.packetSize.toNat then _ else _ : ClientM A H _).run w₁ = _
        rw [if_neg (not_not.mpr hfull)]
        rfl
      · rw [hfull, ← hsize]
        exact .sent
    · refine ⟨.error .network, w₁, hsend.trans ?_,
        ⟨_, hlog₁, .miscounted (Nat.succ_ne_zero n) (by rwa [hsize])⟩, hclient₁⟩
      show (if n + 1 ≠ c.packetSize.toNat then _ else _ : ClientM A H _).run w₁ = _
      rw [if_pos hfull]
      rfl

/-- The send loop, of a client that is ready. -/
theorem sendPacket_trace [Authenticator A] {c : Client A} (hvalid : c.Valid) (watch : ℕ)
    (address : UInt32) (port : UInt16) (blockTimeMs : UInt32) (w : World A H)
    (hclient : w.client = c) :
    ∃ started events result w', (sendPacket watch address port blockTimeMs).run w = (result, w') ∧
      w'.log = w.log ++ .now started :: events ∧
      Retried (SendStalls address port c.packet blockTimeMs started)
        (SendEnd address port c.packet blockTimeMs started) watch events result ∧
      w'.client = c := by
  simp only [sendPacket, run_self_bind, hclient]
  obtain ⟨started, w₁, hnow, hlog₁, hclient₁⟩ := run_now_bind w _
  rw [hnow]
  obtain ⟨events, result, w', hrun, hlog, hloop, hleave⟩ :=
    retry_retried (sendRound_trace hvalid address port blockTimeMs started) watch
      (hclient₁.trans hclient).symm
  refine ⟨started, events, result, w', hrun, ?_, hloop, ?_⟩
  · rw [hlog, hlog₁, List.append_assoc]
    rfl
  · rcases hleave with ⟨_, hkeep⟩ | ⟨_, _, hleft⟩
    · exact hkeep.symm
    · exact hleft.symm

/-- **What a send call does**, from any valid client, against any host and any
authenticator. -/
theorem sendTimeRequest_trace [Authenticator A] (watch : ℕ) (randomNumber blockTimeMs : UInt32)
    {w : World A H} (hvalid : w.client.Valid) :
    ∃ events result w',
      (sendTimeRequest watch randomNumber blockTimeMs).run w = (result, w') ∧
      w'.log = w.log ++ events ∧
      Sends w.client randomNumber blockTimeMs watch events result w'.client := by
  obtain ⟨server, hserver⟩ := hvalid.server
  simp only [sendTimeRequest, run_self_bind, hserver]
  obtain ⟨resolved, w₁, hresolve, hlog₁, hclient₁⟩ := run_resolveDns_bind w server _
  rw [hresolve]
  rcases resolved with _ | address
  · refine ⟨[.resolveDns server none], _, w₁, rfl, hlog₁, ?_⟩
    rw [hclient₁]
    exact .unresolved hserver
  · simp only [run_update_bind]
    obtain ⟨reading, w₂, hnow, hlog₂, hclient₂⟩ := run_now_bind
      { w₁ with client := { w₁.client with currentServerAddr := address } } _
    rw [hnow]
    have hlog : w₂.log = w.log ++ [.resolveDns server (some address), .now reading] := by
      rw [hlog₂, hlog₁, List.append_assoc]
      rfl
    simp only [run_update_bind, run_self_bind]
    replace hclient₂ : w₂.client = { w.client with currentServerAddr := address } := by
      rw [hclient₂]
      show { w₁.client with currentServerAddr := address } = _
      rw [hclient₁]
    by_cases hreading : reading = .zero
    · subst hreading
      have hserialize := serializeRequest_zero (r := randomNumber) hvalid.buffer_base
      simp only [hclient₂, hserialize]
      exact ⟨_, _, _, rfl, hlog, .zeroClock hserver⟩
    · have hserialize := serializeRequest_ok (r := randomNumber) hvalid.buffer_base hreading
      simp only [hclient₂, hserialize]
      -- from here on the client is the one whose request is written
      obtain ⟨w₃, hw₃⟩ : ∃ w₃ : World A H, w₃ =
          ⟨w.client.requested address reading randomNumber, w₂.host, w₂.log⟩ := ⟨_, rfl⟩
      have hvalid₃ := hvalid.requested address reading randomNumber
      obtain ⟨hclient₃, hlog₃⟩ : w₃.client = w.client.requested address reading randomNumber ∧
          w₃.log = w.log ++ [.resolveDns server (some address), .now reading] := by
        rw [hw₃]
        exact ⟨rfl, hlog⟩
      show ∃ events result w', Watch.run _
        (World.mk (w.client.requested address reading randomNumber) w₂.host w₂.log) = _ ∧ _
      rw [← hw₃]
      obtain ⟨signing, authenticated, w₄, hauth, hlog₄, hsigned⟩ :=
        addClientAuthentication_trace server w₃
      rw [hclient₃] at hsigned
      rw [Watch.run_bind_some hauth]
      rcases hsigned with ⟨rfl, hsigns⟩ | ⟨rfl, hunsigned⟩
      · obtain ⟨started, events, result, w', hrun, hlog', hloop, hclient'⟩ :=
          sendPacket_trace (hsigns.valid hvalid₃) watch address server.port blockTimeMs w₄ rfl
        refine ⟨.resolveDns server (some address) :: .now reading ::
          (signing ++ .now started :: events), result, w', hrun, ?_, ?_⟩
        · rw [hlog', hlog₄, hlog₃]
          simp
        · rw [hclient']
          exact .tried hserver hreading hsigns hloop
      · refine ⟨.resolveDns server (some address) :: .now reading :: signing, some (.error .auth),
          w₄, rfl, ?_, .unsigned hserver hreading hunsigned⟩
        rw [hlog₄, hlog₃]
        simp

end SendTrace

end Sntp
