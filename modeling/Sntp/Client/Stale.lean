import Sntp.Client.Callbacks
import Sntp.Client.Guess
import Sntp.Wire.Deserialize

/-!
# Stale bytes

The client has one buffer. A request is written into it, and the responses are read
into the same bytes. A transport may say that it read a whole packet and have written
less, or nothing: what the client then judges is partly its own request, or an older
packet. `heard_is_written` says how far that can go: by the time a packet is heard,
some read since the request has changed its first byte, one of its origin bytes and
one of its receive bytes.

The eight bytes of the transmit timestamp are not on the list. The request has the
client's own time there, and a client may be given it back as the server's.
-/

namespace Sntp

open Transition Watch ClientM

/-! ## What a read does to a byte -/

/-- The callback leaves byte `i` of the buffer it was given as it was. -/
def Event.Spares (i : ℕ) : Event → Prop
  | recvFrom _ _ buffer filled _ => filled[i]? = buffer[i]?
  | _ => True

/-- Byte `i` is `x` when the callback returns. -/
def Event.Leaves (i : ℕ) (x : Option UInt8) : Event → Prop
  | recvFrom _ _ _ filled _ => filled[i]? = x
  | _ => True

/-- As long as every callback spares byte `i`, it is `x`. -/
def Spared {A H : Type} (i : ℕ) (x : Option UInt8) (w : World A H) : Prop :=
  (∀ e ∈ w.log, e.Spares i) → w.client.buffer[i]? = x ∧ ∀ e ∈ w.log, e.Leaves i x

section Receive

variable {A H : Type} {i : ℕ} {x : Option UInt8}

theorem self_spares : Keeps (Spared i x) (self : ClientM A H _) := fun _ hw => hw

theorem update_spares {f : Client A → Client A} (hf : ∀ c, (f c).buffer = c.buffer) :
    Keeps (Spared i x) (update f : ClientM A H _) := by
  intro w hw hspares
  obtain ⟨hbuffer, hleaves⟩ := hw hspares
  exact ⟨(congrArg (·[i]?) (hf w.client)).trans hbuffer, hleaves⟩

/-- A callback that is not a read does nothing to the buffer. -/
theorem Spared.snoc {w w' : World A H} {e : Event} (hw : Spared i x w)
    (hbuffer : w'.client.buffer = w.client.buffer) (hlog : w'.log = w.log ++ [e])
    (he : e.Leaves i x) : Spared i x w' := by
  intro hspares
  rw [hlog] at hspares ⊢
  obtain ⟨hbyte, hleaves⟩ := hw fun e he => hspares e (List.mem_append_left _ he)
  rw [hbuffer]
  refine ⟨hbyte, fun e' he' => ?_⟩
  rcases List.mem_append.mp he' with hmem | hmem
  · exact hleaves e' hmem
  · rw [List.mem_singleton.mp hmem]
    exact he

theorem validateServerAuth_spares [Authenticator A] (server : ServerInfo) (packet : Buffer) :
    Keeps (Spared i x) (ClientM.validateServerAuth server packet : ClientM A H _) :=
  .step fun _ hw => hw.snoc rfl rfl trivial

variable [SntpHost H]

theorem now_spares : Keeps (Spared i x) (ClientM.now : ClientM A H _) :=
  .step fun _ hw => hw.snoc rfl rfl trivial

theorem adjustClock_spares (server : ServerInfo) (serverTime : Timestamp) (offsetMs : Int64)
    (leapSecond : LeapSecond) :
    Keeps (Spared i x) (ClientM.adjustClock server serverTime offsetMs leapSecond :
      ClientM A H _) :=
  .step fun _ hw => hw.snoc rfl rfl trivial

/-- A read fills the front of the buffer, and was given it. -/
theorem recvFrom_spares (address : UInt32) (port : UInt16) {packet : Buffer} {w : World A H}
    (hpacket : packet = w.client.buffer.take packet.length) (hi : i < packet.length)
    (hw : Spared i x w) :
    Spared i x ((ClientM.recvFrom address port packet : ClientM A H _).run w).2 := by
  intro hspares
  have hlog : ((ClientM.recvFrom address port packet : ClientM A H _).run w).2.log
      = w.log ++ [.recvFrom address port packet
        (SntpHost.recvFrom w.host address port packet).2.1.val
        (SntpHost.recvFrom w.host address port packet).1] := rfl
  rw [hlog] at hspares ⊢
  obtain ⟨hbyte, hleaves⟩ := hw fun e he => hspares e (List.mem_append_left _ he)
  have hfilled : (SntpHost.recvFrom w.host address port packet).2.1.val[i]? = x := by
    have hspared : (SntpHost.recvFrom w.host address port packet).2.1.val[i]? = packet[i]? :=
      hspares _ (List.mem_append_right _ (List.mem_singleton_self _))
    rw [hspared, hpacket, List.getElem?_take_of_lt hi, hbyte]
  refine ⟨?_, fun e he => ?_⟩
  · have hlt : i < (SntpHost.recvFrom w.host address port packet).2.1.val.length := by
      rwa [(SntpHost.recvFrom w.host address port packet).2.1.property]
    show (Bytes.splice w.client.buffer 0
      (SntpHost.recvFrom w.host address port packet).2.1.val)[i]? = x
    rw [Bytes.splice_zero, List.getElem?_append_left hlt, hfilled]
  · rcases List.mem_append.mp he with hmem | hmem
    · exact hleaves e hmem
    · rw [List.mem_singleton.mp hmem]
      exact hfilled

variable [Authenticator A]

theorem processVerdict_spares (server : ServerInfo) (receivedAt : Timestamp) (n : ℕ) :
    Keeps (Spared i x) (processVerdict server receivedAt n : ClientM A H _) := by
  unfold processVerdict
  refine self_spares.bind fun client => ?_
  split
  next => exact .pure _
  next =>
    split
    next => exact .pure _
    next =>
      refine (update_spares fun _ => by rfl).bind fun _ => ?_
      split
      · exact (update_spares fun _ => by rfl).bind fun _ => .pure _
      · exact .pure _
    next accepted _ =>
      refine (adjustClock_spares server accepted.serverTime _ _).bind fun _ => ?_
      exact (update_spares fun _ => by rfl).bind fun _ => .pure _

theorem processResponse_spares (server : ServerInfo) (receivedAt : Timestamp) :
    Keeps (Spared i x) (processResponse server receivedAt : ClientM A H _) := by
  unfold processResponse
  refine self_spares.bind fun client => ?_
  split
  · refine self_spares.bind fun client' => ?_
    split
    next => exact .pure _
    next packet _ =>
      refine (validateServerAuth_spares server packet).bind fun validated => ?_
      split
      next => exact processVerdict_spares server receivedAt _
      next => exact .pure _
      next => exact .pure _
  · exact processVerdict_spares server receivedAt _

theorem receiveRound_spares (server : ServerInfo) (address : UInt32) (blockTimeMs : UInt32)
    {size : ℕ} (hi : i < size) (started : Timestamp) :
    Keeps (Spared i x) (receiveRound server address blockTimeMs size started : ClientM A H _) := by
  intro w hw
  simp only [receiveRound, run_self_bind]
  split
  next => exact hw
  next packet hslice =>
    have hlen : packet.length = size := Bytes.slice_length hslice
    have hpacket : packet = w.client.buffer.take packet.length := by
      unfold Bytes.slice at hslice
      split at hslice
      · rw [hlen, ← Option.some.inj hslice, List.drop_zero]
      · cases hslice
    have hread := recvFrom_spares address server.port hpacket (hlen ▸ hi) hw
    generalize hrun : (ClientM.recvFrom address server.port packet : ClientM A H _).run w = read
      at hread
    obtain ⟨_ | answer, w'⟩ := read
    · rw [run_bind_none hrun]
      exact hread
    · rw [run_bind_some hrun]
      refine (show Keeps (Spared i x) _ from ?_) w' hread
      split
      next => exact .pure _
      next =>
        split
        · refine now_spares.bind fun receivedAt => ?_
          exact (processResponse_spares server receivedAt).bind fun _ => .pure _
        · split
          · refine now_spares.bind fun reading => self_spares.bind fun client' => ?_
            split
            · exact (update_spares fun _ => by rfl).bind fun _ => .pure _
            · split
              · exact .pure _
              · exact .pure _
          · exact .pure _

end Receive

/-! ## Calls -/

section Calls

variable {A : Type} [Authenticator A]

/-- A receive call that spares a byte of the packet keeps it, in the buffer and in all
it reads. -/
theorem Makes.spares {c c' : Client A} {call : Call A} (h : Makes c call c')
    (hreceive : call.IsReceive) {i : ℕ} (hi : i < c.packetSize.toNat)
    (hspares : ∀ e ∈ call.events, e.Spares i) :
    c'.buffer[i]? = c.buffer[i]? ∧ ∀ e ∈ call.events, e.Leaves i c.buffer[i]? := by
  obtain ⟨H, _, host, watch, op, rfl, rfl⟩ := h
  cases op with
  | send randomNumber blockTimeMs =>
    obtain ⟨_, hop⟩ := hreceive
    cases hop
  | receive blockTimeMs =>
    have hnil : Spared i c.buffer[i]? (World.mk c host []) := fun _ => ⟨rfl, nofun⟩
    have hkept : Spared i c.buffer[i]?
        ((receiveTimeResponse watch blockTimeMs).run (World.mk c host [])).2 := by
      simp only [receiveTimeResponse, run_self_bind]
      split
      next => exact hnil
      next server _ =>
        refine now_spares.bind (fun started => ?_) _ hnil
        exact (receiveRound_spares server c.currentServerAddr blockTimeMs hi started).retry watch
    exact hkept hspares

end Calls

variable {c c' : Client NoAuth}

/-- A send that stamps nothing leaves the buffer alone, without an authenticator. -/
theorem Makes.buffer_of_no_stamp {call : Call NoAuth} (h : Makes c call c') (hvalid : c.Valid)
    (hstamp : call.stamp = none) (hreceive : ¬ call.IsReceive) :
    c'.buffer = c.buffer ∧ ∀ e ∈ call.events, ∀ i x, e.Leaves i x := by
  obtain ⟨randomNumber, blockTimeMs, watch, result, hcall, htrace⟩ |
    ⟨blockTimeMs, _, _, hcall, _⟩ := h.cases hvalid
  · have hnone : ∀ reading, firstReading call.events = some reading → reading = .zero := by
      intro reading hreading
      rw [hcall] at hstamp
      simp only [Call.stamp, hreading] at hstamp
      by_contra hne
      rw [if_neg hne] at hstamp
      cases hstamp
    generalize call.events = events at htrace hnone ⊢
    cases htrace with
    | unresolved _ =>
      refine ⟨rfl, fun e he i x => ?_⟩
      rw [List.mem_singleton.mp he]
      trivial
    | zeroClock _ =>
      refine ⟨rfl, fun e he i x => ?_⟩
      rcases List.mem_cons.mp he with rfl | he
      · trivial
      · rw [List.mem_singleton.mp he]
        trivial
    | unsigned _ hreading _ => exact absurd (hnone _ rfl) hreading
    | tried _ hreading _ _ => exact absurd (hnone _ rfl) hreading
  · exact absurd ⟨blockTimeMs, by rw [hcall]⟩ hreceive

/-- A send that stamps writes the request. -/
theorem Makes.buffer_of_stamp {call : Call NoAuth} (h : Makes c call c') (hvalid : c.Valid)
    {stored : Timestamp} (hstamp : call.stamp = some stored) {i : ℕ} (hi : i < 48) :
    c'.buffer[i]? = (requestHeader stored)[i]? := by
  have hrequest := (h.request_of_stamp hvalid hstamp).1
  obtain ⟨randomNumber, blockTimeMs, watch, result, hcall, htrace⟩ |
    ⟨_, _, _, hcall, _⟩ := h.cases hvalid
  · have hread : ∃ reading, firstReading call.events = some reading ∧ reading ≠ .zero := by
      rw [hcall] at hstamp
      unfold Call.stamp at hstamp
      dsimp only at hstamp
      split at hstamp
      next => cases hstamp
      next reading hreading =>
        refine ⟨reading, hreading, fun hzero => ?_⟩
        rw [if_pos hzero] at hstamp
        cases hstamp
    obtain ⟨reading, hreading, hne⟩ := hread
    subst hrequest
    generalize call.events = events at htrace hreading
    cases htrace with
    | unresolved _ => cases hreading
    | zeroClock _ => exact absurd (Option.some.inj hreading).symm hne
    | unsigned _ _ hunsigned =>
      cases hunsigned with
      | mk hconfigured _ _ => cases hconfigured
    | tried _ _ hsigns _ =>
      cases hsigns with
      | signed hconfigured _ _ => cases hconfigured
      | bare _ => exact List.getElem?_append_left hi
  · rw [hcall] at hstamp
    cases hstamp

/-- **A byte that no read changes stays**, in the buffer and in all that is read. -/
theorem spares_run {calls : List (Call NoAuth)} (hreach : Reachable c)
    (hrun : Run Makes c calls c') (hstamp : ∀ call ∈ calls, call.stamp = none) {i : ℕ}
    (hi : i < 48) (hspares : ∀ call ∈ calls, ∀ e ∈ call.events, e.Spares i) :
    c'.buffer[i]? = c.buffer[i]? ∧
      ∀ call ∈ calls, ∀ e ∈ call.events, e.Leaves i c.buffer[i]? := by
  induction hrun with
  | nil c => exact ⟨rfl, nofun⟩
  | @cons c c₁ c' call calls hcall _ ih =>
    rw [List.forall_mem_cons] at hstamp hspares ⊢
    obtain ⟨hkept, hleaves⟩ := ih (hreach.makes hcall) hstamp.2 hspares.2
    have hstep : c₁.buffer[i]? = c.buffer[i]? ∧ ∀ e ∈ call.events, e.Leaves i c.buffer[i]? := by
      by_cases hreceive : call.IsReceive
      · exact hcall.spares hreceive (hi.trans_le hreach.valid.base) hspares.1
      · obtain ⟨hbuffer, hnothing⟩ := hcall.buffer_of_no_stamp hreach.valid hstamp.1 hreceive
        exact ⟨by rw [hbuffer], fun e he => hnothing e he _ _⟩
    rw [hstep.1] at hkept hleaves
    exact ⟨hkept, hstep.2, hleaves⟩

/-! ## What is heard was written -/

/-- Some read changed one of the bytes from `lo` to `hi`. -/
def Written (lo hi : ℕ) (calls : List (Call NoAuth)) : Prop :=
  ∃ i, lo ≤ i ∧ i < hi ∧ ∃ call ∈ calls, ∃ e ∈ call.events, ¬ e.Spares i

theorem spares_of_not_written {lo hi : ℕ} {calls : List (Call NoAuth)}
    (h : ¬ Written lo hi calls) {i : ℕ} (hlo : lo ≤ i) (hhi : i < hi) :
    ∀ call ∈ calls, ∀ e ∈ call.events, e.Spares i := by
  intro call hcall e he
  by_contra hne
  exact h ⟨i, hlo, hhi, call, hcall, e, he, hne⟩

/-- A packet that has the request's bytes in one of three places answers nothing. -/
theorem Header.Answers.unlike_request {packet : Buffer} {requestTime : Timestamp} {h : Header}
    (hanswers : h.Answers requestTime) (hof : h.Of packet) (stored : Timestamp) :
    packet[0]? ≠ (requestHeader stored)[0]? ∧
      (∃ i, 24 ≤ i ∧ i < 32 ∧ packet[i]? ≠ (requestHeader stored)[i]?) ∧
      ∃ i, 32 ≤ i ∧ i < 40 ∧ packet[i]? ≠ (requestHeader stored)[i]? := by
  have hlen : 48 ≤ packet.length := hof.length
  refine ⟨fun heq => ?_, ?_, ?_⟩
  · -- a request is in client mode
    have hmode := hof.leapVersionMode.symm.trans heq
    have hclient := hanswers.mode
    rw [Option.some.inj hmode] at hclient
    exact absurd hclient (by decide)
  · by_contra hsame
    push Not at hsame
    have hzero : timestampAt packet 24 28 = some .zero :=
      timestampAt_congr (by omega) (by rw [requestHeader_length]; omega) hsame
    have horigin := hzero.symm.trans hof.origin
    exact hanswers.origin_ne (Option.some.inj horigin).symm
  · by_contra hsame
    push Not at hsame
    have hzero : timestampAt packet 32 36 = some .zero :=
      timestampAt_congr (by omega) (by rw [requestHeader_length]; omega) hsame
    have hreceive := hzero.symm.trans hof.receive
    exact hanswers.receive_ne (Option.some.inj hreceive).symm

/-- **What is heard was written.** Without an authenticator, from a request on: a byte
that no read has changed is the request's own in the packet that is heard, and the
first byte, the origin field and the receive field have each been changed by a read. -/
theorem heard_is_written {c₀ c₁ c₂ : Client NoAuth} {send call : Call NoAuth}
    {calls : List (Call NoAuth)} {stored : Timestamp} (hreach : Reachable c₀)
    (hsend : Makes c₀ send c₁) (hstamp : send.stamp = some stored)
    (hrun : Run Makes c₁ (calls ++ [call]) c₂) (hquiet : ∀ call ∈ calls, call.stamp = none)
    (hheard : call.Heard) :
    ∃ packet receivedAt, call.ReadsFull packet receivedAt ∧
      (∀ i < 48, ¬ Written i (i + 1) (calls ++ [call]) →
        packet[i]? = (requestHeader stored)[i]?) ∧
      Written 0 1 (calls ++ [call]) ∧ Written 24 32 (calls ++ [call]) ∧
      Written 32 40 (calls ++ [call]) := by
  have hreach₁ := hreach.makes hsend
  obtain ⟨s, hbefore, hlast⟩ := hrun.split
  obtain ⟨packet, receivedAt, hread, h, hof, hanswers⟩ :=
    hlast.of_single.heard (hreach₁.run hbefore).valid hheard
  have hcall : call.stamp = none := by
    obtain ⟨⟨_, hop⟩, _⟩ := hread
    rw [Call.stamp, hop]
  have hunstamped : ∀ x ∈ calls ++ [call], x.stamp = none := by
    intro x hx
    rcases List.mem_append.mp hx with hx | hx
    · exact hquiet x hx
    · rw [List.mem_singleton.mp hx]
      exact hcall
  have hkept : ∀ i < 48, (∀ x ∈ calls ++ [call], ∀ e ∈ x.events, e.Spares i) →
      packet[i]? = (requestHeader stored)[i]? := by
    intro i hi hspares
    obtain ⟨_, hleaves⟩ := spares_run hreach₁ hrun hunstamped hi hspares
    obtain ⟨_, pre, _, _, _, _, hevents⟩ := hread
    rw [← hsend.buffer_of_stamp hreach.valid hstamp hi]
    refine hleaves call (by simp) _ (hevents ▸ List.mem_append_right _ List.mem_cons_self)
  obtain ⟨hmode, ⟨i, hi, hi', horigin⟩, j, hj, hj', hreceive⟩ :=
    hanswers.unlike_request hof stored
  refine ⟨packet, receivedAt, hread, fun i hi hnot => ?_, ?_, ?_, ?_⟩
  · exact hkept i hi (spares_of_not_written hnot le_rfl (Nat.lt_succ_self i))
  · by_contra hnot
    exact hmode (hkept 0 (by omega) (spares_of_not_written hnot le_rfl Nat.one_pos))
  · by_contra hnot
    exact horigin (hkept i (by omega) (spares_of_not_written hnot hi hi'))
  · by_contra hnot
    exact hreceive (hkept j (by omega) (spares_of_not_written hnot hj hj'))

/-- The answer to the request has its origin written. -/
theorem heard_is_written_of_answer :
    Written 24 32
      [(perform 2 (.receive 100) (pending NoAuth.noAuth) (readsAt1001 genuine)).1] := by
  have hstamp : (request NoAuth.noAuth).stamp = some ⟨1000, 0⟩ := rfl
  have hmakes := perform_makes 2 (.receive 100) (pending NoAuth.noAuth) (readsAt1001 genuine)
  have hwritten := heard_is_written (twoServers_initial NoAuth.noAuth).reachable
    (request_makes NoAuth.noAuth) hstamp (Run.append (.nil _) (.single hmakes)) nofun (Or.inl rfl)
  obtain ⟨_, _, _, _, _, horigin, _⟩ := hwritten
  exact horigin

/-- A transport that writes 40 bytes and reports 48: the client takes the time it sent
at for the server's. -/
example :
    (perform 2 (.receive 100) (pending NoAuth.noAuth) (readsAt1001 (genuine.take 40))).1.adjusts
      = [.adjustClock ⟨"a", 123⟩ ⟨1000, 0⟩ (-500) .none] := rfl

end Sntp
