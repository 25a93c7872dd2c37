import Sntp.Client.Callbacks
import Sntp.Client.Script

/-!
# Hosts that always answer alike

A `Steady` host gives the same answer to the same callback, for ever: one address,
one clock reading, one transport. It is the host with a stopped clock, and it is
enough to bring a client without authentication to every outcome it has. What it
answers is known of every callback logged (`Steady.gives`), so the traces of the
two calls say what they return.
-/

namespace Sntp

variable {A : Type}

/-- The answers of a host that never changes them. -/
structure Steady where
  address : Option UInt32
  reading : Timestamp
  sent : Except NetworkError ℕ
  read : Except NetworkError ℕ
  packet : Buffer

namespace Steady

/-- The host that answers so, whenever it is asked. -/
@[reducible] def host (s : Steady) : SntpHost Unit where
  resolveDns h _ := (s.address, h)
  now h := (s.reading, h)
  adjustClock h _ _ _ _ := h
  sendTo h _ _ _ := (s.sent, h)
  recvFrom h _ _ buffer := (s.read, fill buffer s.packet, h)

/-- A call made against it. -/
def call [Authenticator A] (s : Steady) (watch : ℕ) (op : Op) (c : Client A) : Call A :=
  (@perform A Unit s.host _ watch op c ()).1

/-- What the answer to a callback is. -/
def Gives (s : Steady) (size : ℕ) : Event → Prop
  | .resolveDns _ answer => answer = s.address
  | .now t => t = s.reading
  | .sendTo _ _ _ answer => answer = s.sent
  | .recvFrom _ _ _ filled answer =>
    answer = s.read ∧ (s.packet.length = size → filled = s.packet)
  | _ => True

/-- A packet as long as the window fills it. -/
theorem fill_full {buffer bytes : Buffer} (h : bytes.length = buffer.length) :
    (fill buffer bytes).val = bytes := by
  unfold fill
  dsimp only
  rw [List.drop_of_length_le (by omega), List.append_nil, List.take_of_length_le (by omega)]

variable [Authenticator A]

theorem makes (s : Steady) (watch : ℕ) (op : Op) (c : Client A) :
    Makes c (s.call watch op c) (s.call watch op c).after :=
  @perform_makes A _ Unit s.host watch op c ()

theorem gives (s : Steady) (watch : ℕ) (op : Op) (c : Client A) :
    ∀ e ∈ (s.call watch op c).events, s.Gives c.packetSize.toNat e := by
  let := s.host
  have hcovers : Covers A Unit c.packetSize.toNat (s.Gives c.packetSize.toNat) := by
    refine ⟨fun _ _ => rfl, fun _ => rfl, fun _ _ _ _ => trivial, fun _ _ _ _ => rfl, ?_,
      fun _ _ _ => trivial, fun _ _ _ => trivial⟩
    intro h address port buffer hbuffer
    refine ⟨rfl, fun hpacket => ?_⟩
    exact fill_full (hpacket.trans hbuffer.symm)
  exact perform_covered hcovers watch op ()

/-- What a receive call returns that does not wait. -/
def reception (s : Steady) (c : Client A) : Except ReceiveError Reception :=
  match s.read with
  | .error _ => .error .network
  | .ok n =>
    if n = c.packetSize.toNat then
      receptionOf (deserializeResponse c.lastRequestTime s.reading s.packet)
    else if n = 0 then
      if c.responseTimeoutMs.toUInt64 ≤ calculateElapsedMs s.reading c.lastRequestTime then
        .ok .timedOut
      else .ok .nothingYet
    else .error .network

/-- What a send call returns that does not wait. -/
def transmission (s : Steady) (c : Client A) : Except SendError Unit :=
  match s.address with
  | none => .error .dns
  | some _ =>
    if s.reading = .zero then .error .network
    else
      match s.sent with
      | .error _ => .error .network
      | .ok n =>
        if n = 0 then .error .sendTimeout
        else if n = c.packetSize.toNat then .ok () else .error .network

end Steady

/-- With no random bits a stamp is the reading. -/
theorem stamped_nothing (reading : Timestamp) : stamped reading 0 = reading := by
  unfold stamped
  rw [show (0 : UInt32) >>> 16 = 0 from rfl, UInt32.or_zero]

/-- Without a block time no round goes again. -/
theorem not_lt_zero_block {elapsed : UInt64} : ¬ elapsed < (0 : UInt32).toUInt64 :=
  UInt64.not_lt.mpr UInt64.zero_le

/-- What a receive call without a block time returns to a client with no
authentication. -/
theorem Steady.receives (s : Steady) {c : Client NoAuth} (hvalid : c.Valid)
    (hpacket : s.packet.length = c.packetSize.toNat) :
    (s.call 1 (.receive 0) c).Returned (s.reception c) := by
  let := s.host
  have hgives := s.gives 1 (.receive 0) c
  obtain ⟨events, result, c', hcall, htrace⟩ := perform_receive 1 0 () hvalid
  have hcall' : s.call 1 (.receive 0) c = ⟨.receive 0, c, events, result.map .received, c'⟩ := hcall
  rw [hcall'] at hgives ⊢
  rw [Call.returned_iff rfl]
  dsimp only at hgives
  cases htrace with
  | @mk server started events _ _ _ hloop _ =>
    obtain ⟨r, rfl, hend⟩ := hloop.at_once fun stall hgo => by
      cases hgo with
      | empty _ hblock => exact not_lt_zero_block hblock
    have hgive : ∀ e ∈ events, s.Gives c.packetSize.toNat e := fun e he =>
      hgives e (List.mem_cons_of_mem _ he)
    have hbase : 48 ≤ c.packetSize.toNat := hvalid.base
    have hread : ∀ {address port buffer filled answer},
        .recvFrom address port buffer filled answer ∈ events →
          s.read = answer ∧ filled = s.packet := by
      intro address port buffer filled answer hmem
      obtain ⟨hanswer, hfilled⟩ := hgive _ hmem
      exact ⟨hanswer.symm, hfilled hpacket⟩
    congr 1
    unfold Steady.reception
    cases hend with
    | failed => rw [(hread List.mem_cons_self).1]
    | @miscounted _ _ n hn hsize =>
      rw [(hread List.mem_cons_self).1]
      dsimp only
      rw [if_neg hsize, if_neg hn]
    | @timedOut _ _ reading hresponse =>
      have hreading : reading = s.reading := hgive _ (List.mem_cons_of_mem _ List.mem_cons_self)
      rw [(hread List.mem_cons_self).1]
      dsimp only
      rw [if_neg (by omega), if_pos rfl, ← hreading, if_pos hresponse]
    | @nothingYet _ _ reading hresponse hblock =>
      have hreading : reading = s.reading := hgive _ (List.mem_cons_of_mem _ List.mem_cons_self)
      rw [(hread List.mem_cons_self).1]
      dsimp only
      rw [if_neg (by omega), if_pos rfl, ← hreading, if_neg (UInt64.not_le.mpr hresponse)]
    | refused hconfigured _ => cases hconfigured
    | @judged _ packet receivedAt hlen =>
      obtain ⟨hanswer, hfilled⟩ := hread List.mem_cons_self
      have hreading : receivedAt = s.reading :=
        hgive _ (List.mem_cons_of_mem _ List.mem_cons_self)
      rw [hanswer]
      dsimp only
      rw [if_pos rfl, hfilled, hreading]

/-- What a send call without a block time returns to a client with no
authentication, and the request it stores. -/
theorem Steady.sends (s : Steady) {c : Client NoAuth} (hvalid : c.Valid) :
    (s.call 1 (.send 0 0) c).outcome = some (.sent (s.transmission c)) ∧
      (s.call 1 (.send 0 0) c).after.lastRequestTime =
        if s.address = none then c.lastRequestTime else s.reading := by
  let := s.host
  have hgives := s.gives 1 (.send 0 0) c
  obtain ⟨events, result, c', hcall, htrace⟩ := perform_send 1 0 0 () hvalid
  have hcall' : s.call 1 (.send 0 0) c = ⟨.send 0 0, c, events, result.map .sent, c'⟩ := hcall
  rw [hcall'] at hgives ⊢
  dsimp only at hgives ⊢
  have haddress : ∀ server answer, .resolveDns server answer ∈ events → s.address = answer :=
    fun _ _ hmem => (hgives _ hmem).symm
  have hnow : ∀ t, .now t ∈ events → s.reading = t := fun _ hmem => (hgives _ hmem).symm
  unfold Steady.transmission
  cases htrace with
  | unresolved _ =>
    rw [haddress _ _ List.mem_cons_self]
    exact ⟨rfl, rfl⟩
  | zeroClock _ =>
    rw [haddress _ _ List.mem_cons_self, hnow .zero (by simp)]
    exact ⟨rfl, rfl⟩
  | unsigned _ _ hunsigned =>
    cases hunsigned with
    | mk hconfigured _ _ => cases hconfigured
  | @tried server address reading started signing events _ _ _ hreading hsigns hloop =>
    rw [haddress _ _ List.mem_cons_self, hnow reading (by simp)]
    cases hsigns with
    | signed hconfigured _ _ => cases hconfigured
    | bare _ =>
      have hlen : (c.requested address reading 0).packet.length = c.packetSize.toNat :=
        (hvalid.requested address reading 0).packet_length
      obtain ⟨r, rfl, hend⟩ := hloop.at_once fun stall hgo => by
        cases hgo with
        | unsent hblock => exact not_lt_zero_block hblock
      refine ⟨?_, stamped_nothing reading⟩
      have hsent : ∀ address port bytes answer, .sendTo address port bytes answer ∈ events →
          s.sent = answer := by
        intro address port bytes answer hmem
        have hanswer : answer = s.sent :=
          hgives (.sendTo address port bytes answer) (by simp [hmem])
        exact hanswer.symm
      have hbase : 48 ≤ c.packetSize.toNat := hvalid.base
      rw [Option.map_some]
      congr 2
      dsimp only
      rw [if_neg hreading]
      cases hend with
      | failed => rw [hsent _ _ _ _ List.mem_cons_self]
      | @miscounted n hn hsize =>
        rw [hsent _ _ _ _ List.mem_cons_self]
        dsimp only
        rw [if_neg hn, if_neg (by rwa [← hlen])]
      | timedOut _ =>
        rw [hsent _ _ _ _ List.mem_cons_self]
        rfl
      | sent =>
        rw [hsent _ _ _ _ List.mem_cons_self]
        dsimp only
        rw [if_neg (by omega), if_pos hlen]

/-! ## Packets -/

/-- The header of a reply. -/
theorem reply_of (stratum : UInt8) (origin receive transmit : Timestamp) :
    (⟨0x24, stratum, 0, origin, receive, transmit⟩ : Header).Of
      (reply stratum origin receive transmit) := by
  have hfront : ∀ rest : Buffer,
      (0x24 :: stratum :: (List.replicate 22 0 ++ rest) : Buffer).take 24
        = 0x24 :: stratum :: List.replicate 22 0 := fun _ => rfl
  refine ⟨rfl, rfl, rfl, timestampAt_of_slice ?_, timestampAt_of_slice ?_,
    timestampAt_of_slice ?_⟩
  · exact Bytes.slice_append (0x24 :: stratum :: List.replicate 22 0) (timestampBytes origin) _
  · exact Bytes.slice_append (0x24 :: stratum :: (List.replicate 22 0 ++ timestampBytes origin))
      (timestampBytes receive) (timestampBytes transmit)
  · rfl

/-- A reply that echoes the request is judged by its stratum alone. -/
theorem reply_answers (stratum : UInt8) {requestTime : Timestamp} (rx : Timestamp)
    (hrequest : requestTime ≠ .zero) :
    ∃ v, deserializeResponse requestTime rx (reply stratum requestTime ⟨1, 0⟩ ⟨1, 0⟩) = .ok v ∧
      receptionOf (.ok v)
        = if stratum = kissOfDeathStratum then .ok .rejected else .ok .synchronised := by
  have hone : (⟨1, 0⟩ : Timestamp) ≠ .zero := by decide
  have hmode : (0x24 : UInt8) &&& modeBitsMask = modeServer := by decide
  have hof := reply_of stratum requestTime ⟨1, 0⟩ ⟨1, 0⟩
  have hanswers := deserializeResponse_answers rx le_rfl hof
    ⟨hmode, hrequest, hone, hone, (rfl : requestTime = requestTime)⟩
  refine ⟨_, hanswers, ?_⟩
  unfold Header.verdict
  dsimp only
  by_cases hstratum : stratum = kissOfDeathStratum
  · rw [if_pos hstratum, if_pos hstratum]
    rfl
  · rw [if_neg hstratum, if_neg hstratum]
    rfl

end Sntp
