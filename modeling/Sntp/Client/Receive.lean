import Sntp.Client.Loop

/-!
# What a receive call can do

`receiveTimeResponse`, executed once and for all against an arbitrary host and
an arbitrary authenticator. `Receives` lists the callbacks a call makes, in
order and with the answers it got, the result those answers force, and the
client it leaves: `receiveTimeResponse_trace`. Nothing after this file executes
a receive call again.

What a call does to the client it does with its result: `Client.settle`. Only
the bytes in the buffer and the authenticator's own state can change besides.
-/

namespace Sntp

variable {A H : Type}

section Receive

variable [Authenticator A]

/-- What a receive call does to the client with its result, apart from the bytes
in the buffer and the authenticator's own state. -/
def Client.settle (c : Client A) : Option (Except ReceiveError Reception) → Client A
  | some (.ok .timedOut) => c.rotateServer
  | some (.ok .rejected) =>
    if Authenticator.configured A then { c.rotateServer with lastRequestTime := .zero }
    else c.rotateServer
  | some (.ok .synchronised) => { c with lastRequestTime := .zero }
  | _ => c

theorem Client.settle_rejected (c : Client A) :
    c.settle (some (.ok .rejected))
      = if Authenticator.configured A then { c.rotateServer with lastRequestTime := .zero }
        else c.rotateServer := rfl

/-- `c'` is `c` up to the bytes in the buffer and the authenticator's state. -/
def Client.Alike (c c' : Client A) : Prop :=
  ∃ buffer auth, buffer.length = c.buffer.length ∧ c' = { c with buffer, auth }

/-- The error a refusing authenticator turns into. -/
def AuthError.toReceive : AuthError → ReceiveError
  | .failed => .auth
  | .serverNotAuthenticated => .serverNotAuthenticated

/-- What a verdict makes of the call. -/
def receptionOf : Except DeserializeError Verdict → Except ReceiveError Reception
  | .error _ => .error .invalidResponse
  | .ok (.rejected _) => .ok .rejected
  | .ok (.accepted _) => .ok .synchronised

/-- The clock adjustments a verdict asks for. -/
def adjustments (server : ServerInfo) : Except DeserializeError Verdict → List Event
  | .ok (.accepted a) => [.adjustClock server a.serverTime a.clockOffsetMs a.leapSecond]
  | _ => []

/-- The callback of a configured authenticator that answers Ok. -/
def validations (A : Type) [Authenticator A] (server : ServerInfo) (packet : Buffer) : List Event :=
  if Authenticator.configured A then [.validateServerAuth server packet (.ok ())] else []

/-- A read that moved nothing, with neither deadline met. -/
inductive Polls (c : Client A) (server : ServerInfo) (blockTimeMs : UInt32) (started : Timestamp) :
    Stall → Prop
  | empty {buffer filled : Buffer} {reading : Timestamp}
      (hresponse : calculateElapsedMs reading c.lastRequestTime < c.responseTimeoutMs.toUInt64)
      (hblock : calculateElapsedMs reading started < blockTimeMs.toUInt64) :
      Polls c server blockTimeMs started
        ⟨.recvFrom c.currentServerAddr server.port buffer filled (.ok 0), reading⟩

/-- How a receive call ends, once the reads before moved nothing. -/
inductive ReceiveEnd (c : Client A) (server : ServerInfo) (blockTimeMs : UInt32)
    (started : Timestamp) : List Event → Except ReceiveError Reception → Prop
  | failed {buffer filled : Buffer} {e : NetworkError} :
      ReceiveEnd c server blockTimeMs started
        [.recvFrom c.currentServerAddr server.port buffer filled (.error e)] (.error .network)
  | miscounted {buffer filled : Buffer} {n : ℕ} (hn : n ≠ 0) (hsize : n ≠ c.packetSize.toNat) :
      ReceiveEnd c server blockTimeMs started
        [.recvFrom c.currentServerAddr server.port buffer filled (.ok n)] (.error .network)
  | timedOut {buffer filled : Buffer} {reading : Timestamp}
      (hresponse : c.responseTimeoutMs.toUInt64 ≤ calculateElapsedMs reading c.lastRequestTime) :
      ReceiveEnd c server blockTimeMs started
        [.recvFrom c.currentServerAddr server.port buffer filled (.ok 0), .now reading]
        (.ok .timedOut)
  | nothingYet {buffer filled : Buffer} {reading : Timestamp}
      (hresponse : calculateElapsedMs reading c.lastRequestTime < c.responseTimeoutMs.toUInt64)
      (hblock : blockTimeMs.toUInt64 ≤ calculateElapsedMs reading started) :
      ReceiveEnd c server blockTimeMs started
        [.recvFrom c.currentServerAddr server.port buffer filled (.ok 0), .now reading]
        (.ok .nothingYet)
  | refused {buffer packet : Buffer} {receivedAt : Timestamp} {e : AuthError}
      (hconfigured : Authenticator.configured A = true)
      (hlen : packet.length = c.packetSize.toNat) :
      ReceiveEnd c server blockTimeMs started
        [.recvFrom c.currentServerAddr server.port buffer packet (.ok c.packetSize.toNat),
          .now receivedAt, .validateServerAuth server packet (.error e)]
        (.error e.toReceive)
  | judged {buffer packet : Buffer} {receivedAt : Timestamp}
      (hlen : packet.length = c.packetSize.toNat) :
      ReceiveEnd c server blockTimeMs started
        (.recvFrom c.currentServerAddr server.port buffer packet (.ok c.packetSize.toNat) ::
          .now receivedAt :: (validations A server packet ++
            adjustments server (deserializeResponse c.lastRequestTime receivedAt packet)))
        (receptionOf (deserializeResponse c.lastRequestTime receivedAt packet))

/-- What one watched receive call of `c` can do. -/
inductive Receives (c : Client A) (blockTimeMs : UInt32) (watch : ℕ) :
    List Event → Option (Except ReceiveError Reception) → Client A → Prop
  | mk {server : ServerInfo} {started : Timestamp} {events : List Event}
      {result : Option (Except ReceiveError Reception)} {c' : Client A}
      (hserver : c.servers[c.currentServer]? = some server)
      (hloop : Retried (Polls c server blockTimeMs started)
        (ReceiveEnd c server blockTimeMs started) watch events result)
      (halike : (c.settle result).Alike c') :
      Receives c blockTimeMs watch (.now started :: events) result c'

end Receive

/-- The first bytes of the buffer, while no more are asked for than it has. -/
theorem slice_front {buffer packet : Buffer} {size : ℕ} (hlen : packet.length = size)
    (hsize : size ≤ buffer.length) :
    Bytes.slice (Bytes.splice buffer 0 packet) 0 size = some packet := by
  subst hlen
  rw [Bytes.splice_zero, Bytes.slice_zero (by simp), List.take_left]

section ReceiveTrace

variable [SntpHost H] [Authenticator A]

open ClientM

/-- Past the authenticator, the packet decides. -/
theorem processVerdict_trace {c : Client A} (server : ServerInfo) (receivedAt : Timestamp)
    {packet : Buffer} {size : ℕ} {w : World A H} (halike : c.Alike w.client)
    (hpacket : Bytes.slice w.client.buffer 0 size = some packet) :
    ∃ w', (processVerdict server receivedAt size).run w
        = (some (receptionOf (deserializeResponse c.lastRequestTime receivedAt packet)), w') ∧
      w'.log = w.log ++
        adjustments server (deserializeResponse c.lastRequestTime receivedAt packet) ∧
      (c.settle (some (receptionOf
        (deserializeResponse c.lastRequestTime receivedAt packet)))).Alike w'.client := by
  obtain ⟨buffer, auth, hbuffer, hclient⟩ := halike
  have hrequest : w.client.lastRequestTime = c.lastRequestTime := by rw [hclient]
  simp only [processVerdict, run_self_bind, hpacket, hrequest]
  rcases deserializeResponse c.lastRequestTime receivedAt packet with e | ⟨a | r⟩
  · refine ⟨w, rfl, ?_, buffer, auth, ?_, ?_⟩
    · exact (List.append_nil _).symm
    · exact hbuffer
    · exact hclient
  · obtain ⟨w', hadjust, hlog, hclient'⟩ := run_adjustClock_bind w server a.serverTime
      a.clockOffsetMs a.leapSecond (fun _ => do
        update fun client => { client with lastRequestTime := .zero }
        pure (Except.ok Reception.synchronised : Except ReceiveError Reception))
    refine ⟨_, hadjust, hlog, buffer, auth, hbuffer, ?_⟩
    show { w'.client with lastRequestTime := Timestamp.zero } = _
    rw [hclient', hclient]
    rfl
  · rw [receptionOf, Client.settle_rejected]
    by_cases hconfigured : Authenticator.configured A = true
    · rw [if_pos hconfigured]
      simp only [run_update_bind, hconfigured, if_true]
      refine ⟨_, rfl, (List.append_nil _).symm, buffer, auth, hbuffer, ?_⟩
      rw [hclient]
      rfl
    · rw [if_neg hconfigured]
      simp only [run_update_bind, if_neg hconfigured]
      refine ⟨_, rfl, (List.append_nil _).symm, buffer, auth, hbuffer, ?_⟩
      rw [hclient]
      rfl

/-- After a full read: a refusing authenticator ends the call, and otherwise the
packet decides. -/
theorem processResponse_trace {c : Client A} (server : ServerInfo) (receivedAt : Timestamp)
    {packet : Buffer} {w : World A H} (blockTimeMs : UInt32) (started : Timestamp)
    (buffer : Buffer) (halike : c.Alike w.client) (hlen : packet.length = c.packetSize.toNat)
    (hpacket : Bytes.slice w.client.buffer 0 c.packetSize.toNat = some packet) :
    ∃ events result w', (processResponse server receivedAt).run w = (some result, w') ∧
      w'.log = w.log ++ events ∧
      ReceiveEnd c server blockTimeMs started
        (.recvFrom c.currentServerAddr server.port buffer packet (.ok c.packetSize.toNat) ::
          .now receivedAt :: events) result ∧
      (c.settle (some result)).Alike w'.client := by
  have hsize : w.client.packetSize = c.packetSize := by
    obtain ⟨_, _, _, hclient⟩ := halike
    rw [hclient]
  by_cases hconfigured : Authenticator.configured A = true
  · simp only [processResponse, run_self_bind, hconfigured, if_true, hsize, hpacket]
    obtain ⟨answer, auth, w₁, hvalidate, hlog₁, hclient₁⟩ :=
      run_validateServerAuth_bind w server packet _
    rw [hvalidate]
    have halike₁ : c.Alike w₁.client := by
      obtain ⟨buffer, _, hbuffer, hclient⟩ := halike
      exact ⟨buffer, auth, hbuffer, by rw [hclient₁, hclient]⟩
    rcases answer with e | ⟨⟨⟩⟩
    · refine ⟨[.validateServerAuth server packet (.error e)], .error e.toReceive, w₁, ?_, hlog₁,
        .refused hconfigured hlen, halike₁⟩
      cases e <;> rfl
    · have hpacket₁ : Bytes.slice w₁.client.buffer 0 c.packetSize.toNat = some packet := by
        rw [hclient₁]
        exact hpacket
      obtain ⟨w', hverdict, hlog, hsettled⟩ :=
        processVerdict_trace server receivedAt halike₁ hpacket₁
      refine ⟨_, _, w', hverdict, ?_, .judged hlen, hsettled⟩
      rw [hlog, hlog₁, validations, if_pos hconfigured, List.append_assoc]
  · obtain ⟨w', hverdict, hlog, hsettled⟩ := processVerdict_trace server receivedAt halike hpacket
    have hrun : (processResponse server receivedAt).run w
        = (processVerdict server receivedAt c.packetSize.toNat).run w := by
      simp only [processResponse, run_self_bind, if_neg hconfigured, hsize]
    refine ⟨_, _, w', hrun.trans hverdict, ?_, .judged hlen, hsettled⟩
    rw [hlog, validations, if_neg hconfigured, List.nil_append]

/-- One round of the receive loop, from a client that is `c` up to its buffer. -/
theorem receiveRound_trace {c : Client A} (hvalid : c.Valid) (server : ServerInfo)
    (blockTimeMs : UInt32) (started : Timestamp) (w : World A H) (halike : c.Alike w.client) :
    (∃ s w', (receiveRound server c.currentServerAddr blockTimeMs c.packetSize.toNat started).run w
          = (some none, w') ∧
        Round (Polls c server blockTimeMs started) w s w' ∧ c.Alike w'.client) ∨
      (∃ result w',
        (receiveRound server c.currentServerAddr blockTimeMs c.packetSize.toNat started).run w
          = (some (some result), w') ∧
        Exit (ReceiveEnd c server blockTimeMs started)
          (fun result c' => (c.settle (some result)).Alike c') w result w') := by
  obtain ⟨buffer, auth, hbuffer, hclient⟩ := halike
  have hbase := hvalid.base
  have hlen : c.packetSize.toNat ≤ w.client.buffer.length := by
    rw [hclient]
    exact hbuffer ▸ hvalid.fits
  simp only [receiveRound, run_self_bind, Bytes.slice_zero hlen]
  obtain ⟨answer, filled, w₁, hfilled, hread, hlog₁, hclient₁⟩ := run_recvFrom_bind w
    c.currentServerAddr server.port (w.client.buffer.take c.packetSize.toNat) _
  rw [hread]
  rw [List.length_take_of_le hlen] at hfilled
  have halike₁ : c.Alike w₁.client := by
    refine ⟨Bytes.splice w.client.buffer 0 filled, auth, ?_, ?_⟩
    · rw [Bytes.splice_length (by omega), hclient]
      exact hbuffer
    · rw [hclient₁, hclient]
  rcases answer with e | n
  · exact Or.inr ⟨_, w₁, rfl, ⟨_, hlog₁, .failed⟩, halike₁⟩
  · by_cases hfull : n = c.packetSize.toNat
    · -- a full read: the packet is what the transport left at the front
      subst hfull
      obtain ⟨receivedAt, w₂, hnow, hlog₂, hclient₂⟩ := run_now_bind w₁ _
      have hpacket : Bytes.slice w₂.client.buffer 0 c.packetSize.toNat = some filled := by
        rw [hclient₂, hclient₁]
        exact slice_front hfilled hlen
      obtain ⟨events, result, w', hprocess, hlog, hend, hsettled⟩ :=
        processResponse_trace server receivedAt blockTimeMs started
          (w.client.buffer.take c.packetSize.toNat) (hclient₂ ▸ halike₁) hfilled hpacket
      right
      refine ⟨result, w', ?_, ⟨_, ?_, hend⟩, hsettled⟩
      · simp only [if_true]
        rw [hnow, Watch.run_bind_some hprocess]
        rfl
      · rw [hlog, hlog₂, hlog₁]
        simp
    · by_cases hzero : n = 0
      · -- an empty read: the two deadlines, the response timeout first
        subst hzero
        obtain ⟨reading, w₂, hnow, hlog₂, hclient₂⟩ := run_now_bind w₁ _
        have halike₂ : c.Alike w₂.client := hclient₂ ▸ halike₁
        have hrequest : w₂.client.lastRequestTime = c.lastRequestTime ∧
            w₂.client.responseTimeoutMs = c.responseTimeoutMs := by
          obtain ⟨_, _, _, h⟩ := halike₂
          rw [h]
          exact ⟨rfl, rfl⟩
        have hlog : w₂.log = w.log ++ [.recvFrom c.currentServerAddr server.port
            (w.client.buffer.take c.packetSize.toNat) filled (.ok 0), .now reading] := by
          rw [hlog₂, hlog₁, List.append_assoc]
          rfl
        simp only [if_neg hfull, if_true]
        rw [hnow]
        simp only [run_self_bind, hrequest.1, hrequest.2]
        by_cases hresponse :
            calculateElapsedMs reading c.lastRequestTime ≥ c.responseTimeoutMs.toUInt64
        · right
          rw [if_pos hresponse]
          refine ⟨.ok .timedOut, _, rfl, ⟨_, hlog, .timedOut hresponse⟩, ?_⟩
          obtain ⟨buffer₂, auth₂, hbuffer₂, h⟩ := halike₂
          refine ⟨buffer₂, auth₂, hbuffer₂, ?_⟩
          show w₂.client.rotateServer = _
          rw [h]
          rfl
        · rw [if_neg hresponse]
          rw [ge_iff_le, UInt64.not_le] at hresponse
          by_cases hblock : calculateElapsedMs reading started ≥ blockTimeMs.toUInt64
          · right
            rw [if_pos hblock]
            exact ⟨.ok .nothingYet, w₂, rfl, ⟨_, hlog, .nothingYet hresponse hblock⟩, halike₂⟩
          · left
            rw [if_neg hblock]
            rw [ge_iff_le, UInt64.not_le] at hblock
            exact ⟨⟨.recvFrom c.currentServerAddr server.port _ filled (.ok 0), reading⟩, w₂, rfl,
              ⟨hlog, .empty hresponse hblock⟩, halike₂⟩
      · right
        refine ⟨.error .network, w₁, ?_, ⟨_, hlog₁, .miscounted hzero hfull⟩, halike₁⟩
        simp only [if_neg hfull, if_neg hzero]
        rfl

/-- **What a receive call does**, from any valid client, against any host and any
authenticator. -/
theorem receiveTimeResponse_trace (watch : ℕ) (blockTimeMs : UInt32) {w : World A H}
    (hvalid : w.client.Valid) :
    ∃ events result w', (receiveTimeResponse watch blockTimeMs).run w = (result, w') ∧
      w'.log = w.log ++ events ∧
      Receives w.client blockTimeMs watch events result w'.client := by
  obtain ⟨server, hserver⟩ := hvalid.server
  simp only [receiveTimeResponse, run_self_bind, hserver]
  obtain ⟨started, w₁, hnow, hlog₁, hclient₁⟩ := run_now_bind w _
  rw [hnow]
  have halike₁ : w.client.Alike w₁.client := by
    rw [hclient₁]
    exact ⟨_, _, rfl, rfl⟩
  obtain ⟨events, result, w', hrun, hlog, hloop, hleave⟩ :=
    retry_retried (receiveRound_trace hvalid server blockTimeMs started) watch halike₁
  refine ⟨.now started :: events, result, w', hrun, ?_, .mk hserver hloop ?_⟩
  · rw [hlog, hlog₁, List.append_assoc]
    rfl
  · rcases hleave with ⟨rfl, hkeep⟩ | ⟨r, rfl, hsettled⟩
    · exact hkeep
    · exact hsettled

end ReceiveTrace

end Sntp
