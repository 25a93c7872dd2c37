import Sntp.Client.Log

/-!
# What holds of every callback

A property of single callbacks holds of everything a call logs, if the host and
the authenticator answer so that it holds of each callback the client can make:
`perform_covered`. What the client adds is how much it asks the transport for, a
window of the packet size it had when the call began, and with that alone
`Makes.windows` says how much every read of a receive call asks for.
-/

namespace Sntp

open Watch ClientM

/-- `Q` holds of every callback, whatever this host and this authenticator answer,
reads being of a window of `size` bytes. -/
structure Covers (A H : Type) [SntpHost H] [Authenticator A] (size : ℕ) (Q : Event → Prop) :
    Prop where
  resolveDns : ∀ (h : H) server, Q (.resolveDns server (SntpHost.resolveDns h server).1)
  now : ∀ h : H, Q (.now (SntpHost.now h).1)
  adjustClock : ∀ server serverTime offsetMs leapSecond,
    Q (.adjustClock server serverTime offsetMs leapSecond)
  sendTo : ∀ (h : H) address port buffer,
    Q (.sendTo address port buffer (SntpHost.sendTo h address port buffer).1)
  recvFrom : ∀ (h : H) address port buffer, buffer.length = size →
    Q (.recvFrom address port buffer (SntpHost.recvFrom h address port buffer).2.1.val
      (SntpHost.recvFrom h address port buffer).1)
  generateClientAuth : ∀ (auth : A) server buffer,
    Q (.generateClientAuth server buffer
      (Authenticator.generateClientAuth auth server buffer).2.1.val
      (Authenticator.generateClientAuth auth server buffer).1)
  validateServerAuth : ∀ (auth : A) server packet,
    Q (.validateServerAuth server packet (Authenticator.validateServerAuth auth server packet).1)

/-- Everything logged so far satisfies `Q`. -/
def Logged {A H : Type} (Q : Event → Prop) (w : World A H) : Prop := ∀ e ∈ w.log, Q e

section Keeps

variable {A H : Type} {Q : Event → Prop} {size : ℕ}

theorem Logged.snoc {w w' : World A H} {e : Event} (h : Logged Q w) (he : Q e)
    (hlog : w'.log = w.log ++ [e]) : Logged Q w' := by
  intro e' he'
  rw [hlog] at he'
  rcases List.mem_append.mp he' with hmem | hmem
  · exact h e' hmem
  · rw [List.mem_singleton.mp hmem]
    exact he

theorem self_keeps : Keeps (Logged Q) (self : ClientM A H _) := fun _ hw => hw

theorem update_keeps (f : Client A → Client A) : Keeps (Logged Q) (update f : ClientM A H _) :=
  fun _ hw => hw

variable [SntpHost H] [Authenticator A]

theorem resolveDns_keeps (hQ : Covers A H size Q) (server : ServerInfo) :
    Keeps (Logged Q) (ClientM.resolveDns server : ClientM A H _) :=
  .step fun w hw => hw.snoc (hQ.resolveDns w.host server) rfl

theorem now_keeps (hQ : Covers A H size Q) : Keeps (Logged Q) (ClientM.now : ClientM A H _) :=
  .step fun w hw => hw.snoc (hQ.now w.host) rfl

theorem adjustClock_keeps (hQ : Covers A H size Q) (server : ServerInfo) (serverTime : Timestamp)
    (offsetMs : Int64) (leapSecond : LeapSecond) :
    Keeps (Logged Q) (ClientM.adjustClock server serverTime offsetMs leapSecond : ClientM A H _) :=
  .step fun _ hw => hw.snoc (hQ.adjustClock server serverTime offsetMs leapSecond) rfl

theorem sendTo_keeps (hQ : Covers A H size Q) (address : UInt32) (port : UInt16)
    (buffer : Buffer) : Keeps (Logged Q) (ClientM.sendTo address port buffer : ClientM A H _) :=
  .step fun w hw => hw.snoc (hQ.sendTo w.host address port buffer) rfl

theorem recvFrom_keeps (hQ : Covers A H size Q) (address : UInt32) (port : UInt16)
    {packet : Buffer} (hpacket : packet.length = size) :
    Keeps (Logged Q) (ClientM.recvFrom address port packet : ClientM A H _) :=
  .step fun w hw => hw.snoc (hQ.recvFrom w.host address port packet hpacket) rfl

theorem generateClientAuth_keeps (hQ : Covers A H size Q) (server : ServerInfo) :
    Keeps (Logged Q) (ClientM.generateClientAuth server : ClientM A H _) :=
  .step fun w hw => hw.snoc (hQ.generateClientAuth w.client.auth server w.client.buffer) rfl

theorem validateServerAuth_keeps (hQ : Covers A H size Q) (server : ServerInfo)
    (packet : Buffer) :
    Keeps (Logged Q) (ClientM.validateServerAuth server packet : ClientM A H _) :=
  .step fun w hw => hw.snoc (hQ.validateServerAuth w.client.auth server packet) rfl

/-! ## Sending -/

theorem sendRound_keeps (hQ : Covers A H size Q) (address : UInt32) (port : UInt16)
    (blockTimeMs : UInt32) (n : ℕ) (started : Timestamp) :
    Keeps (Logged Q) (sendRound address port blockTimeMs n started : ClientM A H _) := by
  unfold sendRound
  refine self_keeps.bind fun client => ?_
  split
  next => exact .pure _
  next packet _ =>
    refine (sendTo_keeps hQ address port packet).bind fun answer => ?_
    split
    next => exact .pure _
    next =>
      refine (now_keeps hQ).bind fun reading => ?_
      split
      · exact .pure _
      · exact .pure _
    next =>
      split
      · exact .pure _
      · exact .pure _

theorem addClientAuthentication_keeps (hQ : Covers A H size Q) (server : ServerInfo) :
    Keeps (Logged Q) (addClientAuthentication server : ClientM A H _) := by
  unfold addClientAuthentication
  split
  · refine (generateClientAuth_keeps hQ server).bind fun generated => ?_
    split
    next => exact .pure _
    next =>
      refine self_keeps.bind fun client => ?_
      dsimp only
      split
      · exact .pure _
      · exact (update_keeps _).bind fun _ => .pure _
  · exact .pure _

theorem sendTimeRequest_keeps (hQ : Covers A H size Q) (watch : ℕ)
    (randomNumber blockTimeMs : UInt32) :
    Keeps (Logged Q) (sendTimeRequest watch randomNumber blockTimeMs : ClientM A H _) := by
  unfold sendTimeRequest
  refine self_keeps.bind fun client => ?_
  split
  next => exact .pure _
  next server _ =>
    refine (resolveDns_keeps hQ server).bind fun resolved => ?_
    split
    next => exact .pure _
    next address =>
      refine (update_keeps _).bind fun _ => (now_keeps hQ).bind fun reading => ?_
      refine (update_keeps _).bind fun _ => self_keeps.bind fun client => ?_
      refine (update_keeps _).bind fun _ => ?_
      split
      next => exact .pure _
      next =>
        refine (addClientAuthentication_keeps hQ server).bind fun authenticated => ?_
        split
        next => exact .pure _
        next =>
          refine self_keeps.bind fun client => (now_keeps hQ).bind fun started => ?_
          exact (sendRound_keeps hQ address server.port blockTimeMs _ started).retry watch

/-! ## Receiving -/

theorem processVerdict_keeps (hQ : Covers A H size Q) (server : ServerInfo)
    (receivedAt : Timestamp) (n : ℕ) :
    Keeps (Logged Q) (processVerdict server receivedAt n : ClientM A H _) := by
  unfold processVerdict
  refine self_keeps.bind fun client => ?_
  split
  next => exact .pure _
  next =>
    split
    next => exact .pure _
    next =>
      refine (update_keeps _).bind fun _ => ?_
      split
      · exact (update_keeps _).bind fun _ => .pure _
      · exact .pure _
    next accepted _ =>
      refine (adjustClock_keeps hQ server accepted.serverTime _ _).bind fun _ => ?_
      exact (update_keeps _).bind fun _ => .pure _

theorem processResponse_keeps (hQ : Covers A H size Q) (server : ServerInfo)
    (receivedAt : Timestamp) :
    Keeps (Logged Q) (processResponse server receivedAt : ClientM A H _) := by
  unfold processResponse
  refine self_keeps.bind fun client => ?_
  split
  · refine self_keeps.bind fun client' => ?_
    split
    next => exact .pure _
    next packet _ =>
      refine (validateServerAuth_keeps hQ server packet).bind fun validated => ?_
      split
      next => exact processVerdict_keeps hQ server receivedAt _
      next => exact .pure _
      next => exact .pure _
  · exact processVerdict_keeps hQ server receivedAt _

theorem receiveRound_keeps (hQ : Covers A H size Q) (server : ServerInfo) (address : UInt32)
    (blockTimeMs : UInt32) (started : Timestamp) :
    Keeps (Logged Q) (receiveRound server address blockTimeMs size started : ClientM A H _) := by
  unfold receiveRound
  refine self_keeps.bind fun client => ?_
  split
  next => exact .pure _
  next packet hpacket =>
    -- the window asked for is as long as the packet size
    refine (recvFrom_keeps hQ address server.port (Bytes.slice_length hpacket)).bind fun read => ?_
    split
    next => exact .pure _
    next =>
      split
      · refine (now_keeps hQ).bind fun receivedAt => ?_
        exact (processResponse_keeps hQ server receivedAt).bind fun _ => .pure _
      · split
        · refine (now_keeps hQ).bind fun reading => self_keeps.bind fun client' => ?_
          dsimp only
          split
          · exact (update_keeps _).bind fun _ => .pure _
          · split
            · exact .pure _
            · exact .pure _
        · exact .pure _

/-! ## Calls -/

/-- **What holds of every callback holds of a call.** -/
theorem perform_covered {c : Client A} (hQ : Covers A H c.packetSize.toNat Q) (watch : ℕ) (op : Op)
    (host : H) : ∀ e ∈ (perform watch op c host).1.events, Q e := by
  have hnil : Logged Q (World.mk c host []) := fun _ he => nomatch he
  cases op with
  | send randomNumber blockTimeMs =>
    exact sendTimeRequest_keeps hQ watch randomNumber blockTimeMs _ hnil
  | receive blockTimeMs =>
    show Logged Q ((receiveTimeResponse watch blockTimeMs).run (World.mk c host [])).2
    simp only [receiveTimeResponse, run_self_bind]
    split
    next => exact hnil
    next server _ =>
      refine Keeps.bind (now_keeps hQ) (fun started => ?_) _ hnil
      exact (receiveRound_keeps hQ server c.currentServerAddr blockTimeMs started).retry watch

end Keeps

/-- Every read of a receive call asks for as many bytes as the packet size says. -/
theorem Makes.windows {A : Type} [Authenticator A] {c c' : Client A} {call : Call A}
    (h : Makes c call c') {address : UInt32} {port : UInt16} {buffer filled : Buffer}
    {answer : Except NetworkError ℕ}
    (hread : .recvFrom address port buffer filled answer ∈ call.events) :
    buffer.length = c.packetSize.toNat := by
  obtain ⟨H, _, host, watch, op, rfl, -⟩ := h
  have hQ : Covers A H c.packetSize.toNat fun e => ∀ address port buffer filled answer,
      e = .recvFrom address port buffer filled answer → buffer.length = c.packetSize.toNat := by
    refine ⟨nofun, nofun, nofun, nofun, ?_, nofun, nofun⟩
    intro _ _ _ _ hlen _ _ _ _ _ heq
    cases heq
    exact hlen
  exact perform_covered hQ watch op host _ hread _ _ _ _ _ rfl

end Sntp
