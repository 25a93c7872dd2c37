import Sntp.Client.Twin

/-!
# The room after the packet

A caller may give a client more than the 48 bytes it needs. Without an authenticator
the rest is the caller's: `spare_room_inert` says that a client does the same, callback
for callback, as one that has the front of its buffer only, and leaves the rest as it
was. So nothing there is ever sent, or handed to a read, or of any consequence.

`Extends` relates the worlds of the two clients, as `Twin` does for an authenticator,
and is kept by each callback.
-/

namespace Sntp

open Watch ClientM

variable {H : Type}

/-- The client with more room. -/
def Client.extend (c : Client NoAuth) (room : Buffer) : Client NoAuth :=
  { c with buffer := c.buffer ++ room }

/-- The world of a client with 48 bytes, and that of the client with more room. -/
structure Extends (room : Buffer) (w v : World NoAuth H) : Prop where
  extend : v = { w with client := w.client.extend room }
  length : w.client.buffer.length = 48
  size : w.client.packetSize.toNat = 48

section Extends

variable {room : Buffer} {w v : World NoAuth H} {α : Type}
  {S : Option α → World NoAuth H → World NoAuth H → Prop}

/-- The window at the front is the same. -/
theorem slice_extend {buffer : Buffer} (room : Buffer) (hlen : buffer.length = 48) :
    Bytes.slice buffer 0 48 = some buffer ∧ Bytes.slice (buffer ++ room) 0 48 = some buffer := by
  rw [Bytes.slice_zero hlen.ge, Bytes.slice_zero (by rw [List.length_append]; omega),
    List.take_of_length_le hlen.le, List.take_left' hlen]
  exact ⟨rfl, rfl⟩

/-- A request is written at the front. -/
theorem serializeRequest_extend {buffer : Buffer} (room : Buffer) (hlen : buffer.length = 48)
    (requestTime : Timestamp) (randomNumber : UInt32) :
    ∃ result stored buffer', buffer'.length = 48 ∧
      serializeRequest requestTime randomNumber buffer = (result, stored, buffer') ∧
      serializeRequest requestTime randomNumber (buffer ++ room)
        = (result, stored, buffer' ++ room) := by
  have hbase : packetBaseSize ≤ buffer.length := hlen.ge
  have hroom : packetBaseSize ≤ (buffer ++ room).length := by
    rw [List.length_append]
    omega
  by_cases hzero : requestTime = .zero
  · rw [hzero, serializeRequest_zero hbase, serializeRequest_zero hroom]
    exact ⟨_, _, _, hlen, rfl, rfl⟩
  · rw [serializeRequest_ok hbase hzero, serializeRequest_ok hroom hzero,
      List.drop_of_length_le hlen.le, List.drop_left' hlen, List.append_nil]
    exact ⟨_, _, _, rfl, rfl, rfl⟩

/-- An update of what both clients have. -/
theorem Extends.update (h : Extends room w v) {f : Client NoAuth → Client NoAuth}
    (hextend : ∀ c : Client NoAuth, f (c.extend room) = (f c).extend room)
    (hlength : (f w.client).buffer.length = 48) (hsize : (f w.client).packetSize.toNat = 48) :
    Extends room { w with client := f w.client } { v with client := f v.client } := by
  obtain ⟨rfl, _, _⟩ := h
  exact ⟨by rw [← hextend], hlength, hsize⟩

variable [SntpHost H]

theorem resolveDns_extends (h : Extends room w v) (server : ServerInfo) :
    Matches (resolveDns server) w (resolveDns server) v fun _ => Extends room := by
  obtain ⟨rfl, hlength, hsize⟩ := h
  exact ⟨rfl, rfl, hlength, hsize⟩

theorem now_extends (h : Extends room w v) :
    Matches now w now v fun _ => Extends room := by
  obtain ⟨rfl, hlength, hsize⟩ := h
  exact ⟨rfl, rfl, hlength, hsize⟩

theorem adjustClock_extends (h : Extends room w v) (server : ServerInfo) (serverTime : Timestamp)
    (offsetMs : Int64) (leapSecond : LeapSecond) :
    Matches (adjustClock server serverTime offsetMs leapSecond) w
      (adjustClock server serverTime offsetMs leapSecond) v fun _ => Extends room := by
  obtain ⟨rfl, hlength, hsize⟩ := h
  exact ⟨rfl, rfl, hlength, hsize⟩

theorem sendTo_extends (h : Extends room w v) (address : UInt32) (port : UInt16)
    (packet : Buffer) :
    Matches (sendTo address port packet) w (sendTo address port packet) v
      fun _ => Extends room := by
  obtain ⟨rfl, hlength, hsize⟩ := h
  exact ⟨rfl, rfl, hlength, hsize⟩

/-- A read fills the whole of the one buffer and the front of the other. -/
theorem recvFrom_extends (h : Extends room w v) (address : UInt32) (port : UInt16)
    {packet : Buffer} (hpacket : packet.length = 48) :
    Matches (recvFrom address port packet) w (recvFrom address port packet) v
      fun _ => Extends room := by
  obtain ⟨rfl, hlength, hsize⟩ := h
  have hfilled : (SntpHost.recvFrom w.host address port packet).2.1.val.length = 48 := by
    rw [(SntpHost.recvFrom w.host address port packet).2.1.property, hpacket]
  have hwhole := hlength.trans hfilled.symm
  refine ⟨rfl, ?_, ?_, hsize⟩
  · simp only [recvFrom, run, step, Client.extend, Bytes.splice_zero]
    rw [List.drop_left' hwhole, List.drop_of_length_le hwhole.le, List.append_nil]
  · simp only [recvFrom, run, step, Bytes.splice_zero]
    rw [List.drop_of_length_le hwhole.le, List.append_nil, hfilled]

/-! ## Sending -/

theorem sendRound_extends (h : Extends room w v) (address : UInt32) (port : UInt16)
    (blockTimeMs : UInt32) (started : Timestamp) :
    Matches (sendRound address port blockTimeMs 48 started) w
      (sendRound address port blockTimeMs 48 started) v
      (Again (Extends room) fun _ => Extends room) := by
  obtain ⟨hfront, hextended⟩ := slice_extend room h.length
  refine self_matches ?_
  simp only [h.extend, Client.extend, hfront, hextended]
  rw [← Client.extend, ← h.extend]
  refine (sendTo_extends h address port w.client.buffer).bind ?_ fun _ _ h => h
  intro answer w v h
  rcases answer with e | _ | n
  · exact .pure h
  · refine (now_extends h).bind ?_ fun _ _ h => h
    intro now w v h
    split
    · exact .pure h
    · exact .pure h
  · by_cases hsent : n + 1 ≠ 48
    · simp only [if_pos hsent]
      exact .pure h
    · simp only [if_neg hsent]
      exact .pure h

theorem sendPacket_extends (h : Extends room w v) (watch : ℕ) (address : UInt32) (port : UInt16)
    (blockTimeMs : UInt32) :
    Matches (sendPacket watch address port blockTimeMs) w
      (sendPacket watch address port blockTimeMs) v fun _ => Extends room := by
  refine self_matches ?_
  have hsize : v.client.packetSize.toNat = 48 := by
    rw [h.extend]
    exact h.size
  simp only [h.size, hsize]
  refine (now_extends h).bind ?_ fun _ _ h => h
  intro started w v h
  refine .retry (I := Extends room) ?_ (fun _ _ h => h) watch h
  intro w v h
  exact sendRound_extends h address port blockTimeMs started

theorem sendTimeRequest_extends (h : Extends room w v) (watch : ℕ)
    (randomNumber blockTimeMs : UInt32) :
    Matches (sendTimeRequest watch randomNumber blockTimeMs) w
      (sendTimeRequest watch randomNumber blockTimeMs) v fun _ => Extends room := by
  refine self_matches ?_
  simp only [h.extend, Client.extend]
  rw [← Client.extend, ← h.extend]
  rcases w.client.servers[w.client.currentServer]? with _ | server
  · exact .pure h
  · refine (resolveDns_extends h server).bind ?_ fun _ _ h => h
    intro resolved w v h
    rcases resolved with _ | address
    · exact .pure h
    · refine update_matches ?_
      have h := h.update (f := fun c => { c with currentServerAddr := address }) (fun _ => rfl)
        h.length h.size
      refine (now_extends h).bind ?_ fun _ _ h => h
      intro reading w v h
      obtain ⟨rfl, hlength, hsize⟩ := h
      refine update_matches (self_matches ?_)
      obtain ⟨result, stored, buffer, hwritten, hfront, hextended⟩ :=
        serializeRequest_extend room hlength reading randomNumber
      simp only [Client.extend, hfront, hextended]
      refine update_matches ?_
      have h : Extends room
          { w with client := { w.client with lastRequestTime := stored, buffer } }
          { w with
            client := { w.client with lastRequestTime := stored, buffer := buffer ++ room } } :=
        ⟨rfl, hwritten, hsize⟩
      rcases result with e | ⟨⟨⟩⟩
      · exact .pure h
      · exact sendPacket_extends h watch address server.port blockTimeMs

/-! ## Receiving -/

theorem processVerdict_extends (h : Extends room w v) (server : ServerInfo)
    (receivedAt : Timestamp) :
    Matches (processVerdict server receivedAt 48) w (processVerdict server receivedAt 48) v
      fun _ => Extends room := by
  obtain ⟨hfront, hextended⟩ := slice_extend room h.length
  refine self_matches ?_
  simp only [h.extend, Client.extend, hfront, hextended]
  rw [← Client.extend, ← h.extend]
  rcases deserializeResponse w.client.lastRequestTime receivedAt w.client.buffer with
    e | accepted | rejected
  · exact .pure h
  · refine (adjustClock_extends h server accepted.serverTime accepted.clockOffsetMs
      accepted.leapSecond).bind ?_ fun _ _ h => h
    intro _ w v h
    refine update_matches (.pure ?_)
    exact h.update (f := fun c => { c with lastRequestTime := .zero }) (fun _ => rfl)
      h.length h.size
  · refine update_matches ?_
    have h := h.update (f := Client.rotateServer) (fun _ => rfl) h.length h.size
    rw [if_neg noAuth_not_configured]
    exact .pure h

theorem processResponse_extends (h : Extends room w v) (server : ServerInfo)
    (receivedAt : Timestamp) :
    Matches (processResponse server receivedAt) w (processResponse server receivedAt) v
      fun _ => Extends room := by
  have hsize : v.client.packetSize.toNat = 48 := by
    rw [h.extend]
    exact h.size
  refine self_matches ?_
  simp only [h.size, hsize]
  rw [if_neg noAuth_not_configured]
  exact processVerdict_extends h server receivedAt

theorem receiveRound_extends (h : Extends room w v) (server : ServerInfo) (address : UInt32)
    (blockTimeMs : UInt32) (started : Timestamp) :
    Matches (receiveRound server address blockTimeMs 48 started) w
      (receiveRound server address blockTimeMs 48 started) v
      (Again (Extends room) fun _ => Extends room) := by
  obtain ⟨hfront, hextended⟩ := slice_extend room h.length
  refine self_matches ?_
  simp only [h.extend, Client.extend, hfront, hextended]
  rw [← Client.extend, ← h.extend]
  refine (recvFrom_extends h address server.port h.length).bind ?_ fun _ _ h => h
  intro read w v h
  rcases read with e | n
  · exact .pure h
  · by_cases hfull : n = 48
    · simp only [if_pos hfull]
      refine (now_extends h).bind ?_ fun _ _ h => h
      intro receivedAt w v h
      refine (processResponse_extends h server receivedAt).bind ?_ fun _ _ h => h
      intro result w v h
      exact .pure h
    · by_cases hnone : n = 0
      · simp only [if_neg hfull, if_pos hnone]
        refine (now_extends h).bind ?_ fun _ _ h => h
        intro now w v h
        refine self_matches ?_
        simp only [h.extend, Client.extend]
        rw [← Client.extend, ← h.extend]
        split
        · refine update_matches (.pure ?_)
          exact h.update (f := Client.rotateServer) (fun _ => rfl) h.length h.size
        · split
          · exact .pure h
          · exact .pure h
      · simp only [if_neg hfull, if_neg hnone]
        exact .pure h

theorem receiveTimeResponse_extends (h : Extends room w v) (watch : ℕ) (blockTimeMs : UInt32) :
    Matches (receiveTimeResponse watch blockTimeMs) w (receiveTimeResponse watch blockTimeMs) v
      fun _ => Extends room := by
  refine self_matches ?_
  simp only [h.extend, Client.extend]
  rw [← Client.extend, ← h.extend]
  rcases w.client.servers[w.client.currentServer]? with _ | server
  · exact .pure h
  · simp only [h.size]
    refine (now_extends h).bind ?_ fun _ _ h => h
    intro started w v h
    refine .retry (I := Extends room) ?_ (fun _ _ h => h) watch h
    intro w v h
    exact receiveRound_extends h server _ blockTimeMs started

end Extends

/-! ## Calls -/

/-- `call'` does what `call` does, with `room` after its packet. -/
structure Call.Extended (room : Buffer) (call call' : Call NoAuth) : Prop where
  op : call'.op = call.op
  before : call'.before = call.before.extend room
  events : call'.events = call.events
  outcome : call'.outcome = call.outcome
  after : call'.after = call.after.extend room

variable [SntpHost H] {room : Buffer} {c : Client NoAuth}

/-- One call of each. -/
theorem perform_extends (hlength : c.buffer.length = 48) (hsize : c.packetSize.toNat = 48)
    (watch : ℕ) (op : Op) (host : H) :
    (perform watch op c host).1.Extended room (perform watch op (c.extend room) host).1 ∧
      (perform watch op (c.extend room) host).2 = (perform watch op c host).2 ∧
      (perform watch op c host).1.after.buffer.length = 48 ∧
      (perform watch op c host).1.after.packetSize.toNat = 48 := by
  have hextends : Extends room ⟨c, host, []⟩ ⟨c.extend room, host, []⟩ := ⟨rfl, hlength, hsize⟩
  cases op with
  | send randomNumber blockTimeMs =>
    obtain ⟨result, w, v, hleft, hright, rfl, hlength', hsize'⟩ :=
      (sendTimeRequest_extends hextends watch randomNumber blockTimeMs).ends
    simp only [perform, hleft, hright]
    exact ⟨⟨rfl, rfl, rfl, rfl, rfl⟩, trivial, hlength', hsize'⟩
  | receive blockTimeMs =>
    obtain ⟨result, w, v, hleft, hright, rfl, hlength', hsize'⟩ :=
      (receiveTimeResponse_extends hextends watch blockTimeMs).ends
    simp only [perform, hleft, hright]
    exact ⟨⟨rfl, rfl, rfl, rfl, rfl⟩, trivial, hlength', hsize'⟩

/-- All of them. -/
theorem performAll_extends (hlength : c.buffer.length = 48) (hsize : c.packetSize.toNat = 48)
    (watch : ℕ) (ops : List Op) (host : H) :
    List.Forall₂ (Call.Extended room) (performAll watch ops c host).1
        (performAll watch ops (c.extend room) host).1 ∧
      (performAll watch ops (c.extend room) host).2
        = ((performAll watch ops c host).2.1.extend room, (performAll watch ops c host).2.2) := by
  induction ops generalizing c host with
  | nil => exact ⟨.nil, rfl⟩
  | cons op ops ih =>
    obtain ⟨hcall, hhost, hlength', hsize'⟩ := perform_extends hlength hsize watch op host
    obtain ⟨hcalls, hend⟩ := ih hlength' hsize' (perform watch op c host).2
    rw [← hcall.after] at hcalls hend
    simp only [performAll, hhost]
    exact ⟨.cons hcall hcalls, hend⟩

/-- **The room after the packet is inert.** Against any host, a client without an
authenticator makes the calls that one with the front of its buffer makes, callback
for callback, with the same outcomes, and the rest of its buffer is what it was. -/
theorem spare_room_inert {H : Type} [SntpHost H] {c : Client NoAuth} (hreach : Reachable c)
    (watch : ℕ) (ops : List Op) (host : H) :
    let front : Client NoAuth := { c with buffer := c.buffer.take 48 }
    let room := c.buffer.drop 48
    List.Forall₂ (Call.Extended room) (performAll watch ops front host).1
        (performAll watch ops c host).1 ∧
      (performAll watch ops c host).2.1 = (performAll watch ops front host).2.1.extend room ∧
      (performAll watch ops c host).2.2 = (performAll watch ops front host).2.2 := by
  intro front room
  have hvalid := hreach.valid
  have hsize : front.packetSize.toNat = 48 := hvalid.bare rfl
  have hlength : front.buffer.length = 48 := by
    show (c.buffer.take 48).length = 48
    have hbase : 48 ≤ c.buffer.length := hvalid.base.trans hvalid.fits
    rw [List.length_take, Nat.min_eq_left hbase]
  have hextend : front.extend room = c := by
    show ({ c with buffer := c.buffer.take 48 ++ c.buffer.drop 48 } : Client NoAuth) = c
    rw [List.take_append_drop]
  obtain ⟨hcalls, hend⟩ := @performAll_extends H _ room front hlength hsize watch ops host
  rw [hextend] at hcalls hend
  exact ⟨hcalls, by rw [hend], by rw [hend]⟩

/-- The sixteen bytes after the packet are inert for a request. -/
theorem spare_room_inert_of_request :
    (performAll 2 [.send 0 100] (twoServers NoAuth.noAuth) sentAt1000).2.1.buffer.drop 48
      = List.replicate 16 0 := by
  obtain ⟨_, hclient, _⟩ := spare_room_inert (twoServers_initial NoAuth.noAuth).reachable 2
    [.send 0 100] sentAt1000
  rw [hclient]
  rfl

end Sntp
