import Sntp.Client.AfterSend
import Sntp.Client.Callbacks

/-!
# Whether the authentication code goes out whole

A code of `n` bytes is refused if the buffer has no room for it after the packet,
and otherwise the packet size becomes `48 + n`, in sixteen bits. The room is
measured without that limit, so a code of more than 65487 bytes in a buffer that
has room for it is cut off: `whole_code_iff` says that this is the only way, and
`code_is_cut` is one.
-/

namespace Sntp

open Transition

variable {A : Type} [Authenticator A] {c c' : Client A}

/-- What is promised of a code of `n` bytes: it is refused if there is no room for
it, and otherwise it is sent whole, and a response is read at the same size. -/
structure WholeCode (c : Client A) (call : Call A) (c' : Client A) (n : UInt16) : Prop where
  refused : c.spare < n.toNat → call.outcome = some (.sent (.error .auth)) ∧
    (∀ address port bytes answer, .sendTo address port bytes answer ∉ call.events) ∧
    c'.packetSize = c.packetSize
  whole : n.toNat ≤ c.spare →
    (∀ address port bytes answer, .sendTo address port bytes answer ∈ call.events →
      bytes.length = 48 + n.toNat) ∧
    c'.packetSize.toNat = 48 + n.toNat ∧
    ∀ calls c'', Run Makes c' calls c'' → (∀ later ∈ calls, later.IsReceive) →
      ∀ later ∈ calls, ∀ address port buffer filled answer,
        .recvFrom address port buffer filled answer ∈ later.events → buffer.length = 48 + n.toNat

/-- What a send call makes of the code it got. -/
theorem Sends.coded {randomNumber blockTimeMs : UInt32} {watch : ℕ} {events : List Event}
    {result : Option (Except SendError Unit)}
    (h : Sends c randomNumber blockTimeMs watch events result c') (hvalid : c.Valid)
    {server : ServerInfo} {buffer filled : Buffer} {n : UInt16}
    (hcode : .generateClientAuth server buffer filled (.ok n) ∈ events) :
    c.spare < n.toNat ∧ result = some (.error .auth) ∧
        (∀ address port bytes answer, .sendTo address port bytes answer ∉ events) ∧
        c'.packetSize = c.packetSize ∨
      n.toNat ≤ c.spare ∧ c'.packetSize = saturatingAddU16 (UInt16.ofNat packetBaseSize) n ∧
        ∀ address port bytes answer, .sendTo address port bytes answer ∈ events →
          bytes.length = c'.packetSize.toNat := by
  cases h with
  | unresolved _ => cases List.mem_singleton.mp hcode
  | zeroClock _ => rcases List.mem_pair.mp hcode with h | h <;> cases h
  | @unsigned server' address reading signing c' _ _ hunsigned =>
    left
    cases hunsigned with
    | mk _ _ hanswer =>
      simp only [List.mem_cons, reduceCtorEq, List.not_mem_nil, or_false, false_or,
        Event.generateClientAuth.injEq] at hcode
      obtain ⟨_, _, _, rfl⟩ := hcode
      have hlarge := hanswer n rfl
      rw [Client.spare, hvalid.requested_length] at hlarge
      exact ⟨hlarge, rfl, by simp, rfl⟩
  | @tried server' address reading started signing loop result c' _ _ hsigns hloop =>
    have hready := hsigns.valid (hvalid.requested address reading randomNumber)
    have hnone : .generateClientAuth server buffer filled (.ok n) ∉ loop := by
      intro hmem
      rcases hloop.sends hmem with ⟨t, h⟩ | ⟨answer, h⟩ <;> cases h
    have hsent : ∀ address port bytes answer, .sendTo address port bytes answer ∈ loop →
        bytes.length = c'.packetSize.toNat := by
      intro address port bytes answer hmem
      rcases hloop.sends hmem with ⟨t, h⟩ | ⟨answer', h⟩
      · cases h
      · cases h
        exact hready.packet_length
    cases hsigns with
    | bare _ => simp [hnone] at hcode
    | signed _ _ hfits =>
      right
      simp only [List.mem_cons, List.mem_append, reduceCtorEq, List.not_mem_nil, or_false,
        false_or, hnone, Event.generateClientAuth.injEq, Except.ok.injEq] at hcode
      obtain ⟨_, _, _, rfl⟩ := hcode
      rw [Client.spare, hvalid.requested_length] at hfits
      refine ⟨hfits, rfl, ?_⟩
      intro address port bytes answer hmem
      simp only [List.mem_cons, List.mem_append, reduceCtorEq, List.not_mem_nil, or_false,
        false_or] at hmem
      exact hsent address port bytes answer hmem

/-- **When the authentication code goes out whole**: exactly when it is refused for
want of room, or the packet with it has a size of sixteen bits. -/
theorem whole_code_iff {call : Call A} {randomNumber blockTimeMs : UInt32} {server : ServerInfo}
    {buffer filled : Buffer} {n : UInt16} (hreach : Reachable c) (hcall : Makes c call c')
    (hop : call.op = .send randomNumber blockTimeMs)
    (hcode : .generateClientAuth server buffer filled (.ok n) ∈ call.events) :
    WholeCode c call c' n ↔ c.spare < n.toNat ∨ n.toNat ≤ 65487 := by
  have hvalid := hreach.valid
  obtain ⟨watch, result, houtcome, htrace⟩ := hcall.sends hvalid hop
  have hsaturated : (saturatingAddU16 (UInt16.ofNat packetBaseSize) n).toNat
      = min (48 + n.toNat) 65535 := saturatingAddU16_toNat _ _
  rcases htrace.coded hvalid hcode with ⟨hlarge, rfl, hsilent, hkept⟩ | ⟨hfits, hsize, hsent⟩
  · have hwhole : WholeCode c call c' n := by
      refine ⟨fun _ => ⟨houtcome, hsilent, hkept⟩, ?_⟩
      intro hfits
      omega
    exact ⟨fun _ => Or.inl hlarge, fun _ => hwhole⟩
  · rw [← hsize] at hsaturated
    constructor
    · intro hwhole
      obtain ⟨_, hexact, _⟩ := hwhole.whole hfits
      right
      omega
    · intro hcase
      have hexact : c'.packetSize.toNat = 48 + n.toNat := by omega
      refine ⟨fun hlarge => by omega, fun _ => ⟨?_, hexact, ?_⟩⟩
      · intro address port bytes answer hmem
        rw [hsent address port bytes answer hmem, hexact]
      · intro calls c'' hrun hreceive later hlater address port buffer filled answer hread
        obtain ⟨pre, _, t, _, rfl, hpre, hstep, _⟩ := hrun.of_mem hlater
        obtain ⟨_, hkept⟩ := receives_run (hreach.makes hcall) hpre fun call hc =>
          hreceive call (List.mem_append_left _ hc)
        rw [hstep.windows hread, hkept, hexact]

/-- A code of three bytes is sent whole. -/
theorem whole_code_iff_of_three :
    let call := (perform 2 (.send 0 100) (twoServers (Keyring.mk [1, 2, 3] [])) sentAt1000).1
    WholeCode (twoServers (Keyring.mk [1, 2, 3] [])) call call.after 3 := by
  intro call
  have hcode : .generateClientAuth ⟨"a", 123⟩ _ _ (.ok 3) ∈ call.events :=
    List.mem_of_getElem? (show call.events[2]? = _ from rfl)
  exact (whole_code_iff (twoServers_initial (Keyring.mk [1, 2, 3] [])).reachable
    (perform_makes 2 _ _ _) (perform_op 2 _ _ _) hcode).mpr (Or.inr (by decide))

/-! ## A code that is cut off -/

/-- A host that is always ready: it knows one address, its clock stands, and its
transport takes whatever it is given. -/
inductive Ready
  | ready

instance : SntpHost Ready where
  resolveDns h _ := (some 7, h)
  now h := (⟨1000, 0⟩, h)
  adjustClock h _ _ _ _ := h
  sendTo h _ _ buffer := (.ok buffer.length, h)
  recvFrom h _ _ buffer := (.ok 0, .untouched buffer, h)

/-- An authenticator with codes of this size. -/
inductive FixedCode (size : UInt16)
  | code

instance (size : UInt16) : Authenticator (FixedCode size) where
  configured := true
  generateClientAuth auth _ buffer := (.ok size, .untouched buffer, auth)
  validateServerAuth auth _ _ := (.ok (), auth)

/-- A client with room for `room` bytes of code. -/
def roomyClient (room : ℕ) (size : UInt16) : Client (FixedCode size) where
  servers := [⟨"a", 123⟩]
  buffer := List.replicate (48 + room) 0
  currentServer := 0
  currentServerAddr := 0
  lastRequestTime := .zero
  packetSize := UInt16.ofNat packetBaseSize
  responseTimeoutMs := 5000
  auth := .code

theorem roomyClient_initial (room : ℕ) (size : UInt16) : Initial (roomyClient room size) := by
  refine ⟨[⟨"a", 123⟩], List.replicate (48 + room) 0, 5000, .code, ?_⟩
  unfold Client.withAuthenticator packetBaseSize
  rw [if_neg (by decide), if_neg (by rw [List.length_replicate]; omega)]
  rfl

theorem roomyClient_length (room : ℕ) (size : UInt16) :
    (roomyClient room size).buffer.length = 48 + room :=
  List.length_replicate

theorem roomyClient_spare (room : ℕ) (size : UInt16) : (roomyClient room size).spare = room := by
  rw [Client.spare, roomyClient_length, packetBaseSize, Nat.add_sub_cancel_left]

/-- The send call of this client to this host. -/
def roomyCall (room : ℕ) (size : UInt16) : Call (FixedCode size) :=
  (perform 1 (.send 0 100) (roomyClient room size) Ready.ready).1

theorem roomyCall_makes (room : ℕ) (size : UInt16) :
    Makes (roomyClient room size) (roomyCall room size) (roomyCall room size).after :=
  perform_makes 1 _ _ _

theorem roomyCall_op (room : ℕ) (size : UInt16) : (roomyCall room size).op = .send 0 100 :=
  perform_op 1 _ _ _

/-- What the two answer. -/
def Event.Readily (size : UInt16) : Event → Prop
  | .resolveDns _ answer => answer = some 7
  | .now t => t = ⟨1000, 0⟩
  | .generateClientAuth _ _ _ answer => answer = .ok size
  | _ => True

theorem roomyCall_readily (room : ℕ) (size : UInt16) :
    ∀ e ∈ (roomyCall room size).events, e.Readily size :=
  perform_covered ⟨fun _ _ => rfl, fun _ => rfl, fun _ _ _ _ => trivial, fun _ _ _ _ => trivial,
    fun _ _ _ _ _ => trivial, fun _ _ _ => rfl, fun _ _ _ => trivial⟩ 1 _ _

/-- A send call with an address and a clock asks for a code. -/
theorem Sends.asks_code {randomNumber blockTimeMs : UInt32} {watch : ℕ} {events : List Event}
    {result : Option (Except SendError Unit)}
    (h : Sends c randomNumber blockTimeMs watch events result c')
    (hconfigured : Authenticator.configured A = true)
    (hresolved : ∀ server, .resolveDns server none ∉ events) (hclock : .now .zero ∉ events) :
    ∃ server buffer filled answer, .generateClientAuth server buffer filled answer ∈ events := by
  cases h with
  | unresolved _ => exact absurd (List.mem_singleton.mpr rfl) (hresolved _)
  | zeroClock _ => exact absurd (List.mem_pair.mpr (Or.inr rfl)) hclock
  | unsigned _ _ hunsigned =>
    cases hunsigned with
    | mk _ _ _ => exact ⟨_, _, _, _, .tail _ (.tail _ (.head _))⟩
  | tried _ _ hsigns _ =>
    cases hsigns with
    | bare hbare =>
      rw [hconfigured] at hbare
      cases hbare
    | signed _ _ _ => exact ⟨_, _, _, _, .tail _ (.tail _ (.head _))⟩

theorem roomyCall_coded (room : ℕ) (size : UInt16) :
    ∃ server buffer filled,
      .generateClientAuth server buffer filled (.ok size) ∈ (roomyCall room size).events := by
  have hreadily := roomyCall_readily room size
  obtain ⟨_, _, _, htrace⟩ := (roomyCall_makes room size).sends
    (roomyClient_initial room size).valid (roomyCall_op room size)
  obtain ⟨server, buffer, filled, answer, hcode⟩ := htrace.asks_code rfl
    (fun server hmem => nomatch hreadily _ hmem) (fun hmem => by cases hreadily _ hmem)
  obtain rfl : answer = .ok size := hreadily _ hcode
  exact ⟨server, buffer, filled, hcode⟩

/-- A code that fits the buffer is sent at the size that was stored. -/
theorem roomyCall_sends {room : ℕ} {size : UInt16} (hfits : size.toNat ≤ room) :
    (roomyCall room size).after.packetSize = saturatingAddU16 (UInt16.ofNat packetBaseSize) size ∧
      ∀ address port bytes answer,
        .sendTo address port bytes answer ∈ (roomyCall room size).events →
        bytes.length = (roomyCall room size).after.packetSize.toNat := by
  have hvalid := (roomyClient_initial room size).valid
  obtain ⟨server, buffer, filled, hcode⟩ := roomyCall_coded room size
  obtain ⟨_, _, _, htrace⟩ := (roomyCall_makes room size).sends hvalid (roomyCall_op room size)
  rcases htrace.coded hvalid hcode with ⟨hlarge, _⟩ | ⟨_, hsize, hsent⟩
  · rw [roomyClient_spare] at hlarge
    omega
  · exact ⟨hsize, hsent⟩

/-- **A code that is cut off.** The buffer has 65536 bytes, so there is room for a
code of 65488, and 65535 bytes of the packet are sent. -/
theorem code_is_cut :
    Reachable (roomyClient 65488 65488) ∧
      Makes (roomyClient 65488 65488) (roomyCall 65488 65488) (roomyCall 65488 65488).after ∧
      (roomyCall 65488 65488).op = .send 0 100 ∧
      (∃ server buffer filled, .generateClientAuth server buffer filled (.ok 65488) ∈
        (roomyCall 65488 65488).events) ∧
      (roomyClient 65488 65488).buffer.length = 48 + 65488 ∧
      (∀ address port bytes answer,
        .sendTo address port bytes answer ∈ (roomyCall 65488 65488).events →
          bytes.length = 65535) ∧
      ¬ WholeCode (roomyClient 65488 65488) (roomyCall 65488 65488)
        (roomyCall 65488 65488).after 65488 := by
  have hfits : (65488 : UInt16).toNat ≤ 65488 := by decide
  obtain ⟨hsize, hsent⟩ := roomyCall_sends hfits
  have hcut : (saturatingAddU16 (UInt16.ofNat packetBaseSize) 65488).toNat = 65535 := by decide
  refine ⟨(roomyClient_initial _ _).reachable, roomyCall_makes _ _, roomyCall_op _ _,
    roomyCall_coded _ _, roomyClient_length _ _, ?_, ?_⟩
  · intro address port bytes answer hmem
    rw [hsent address port bytes answer hmem, hsize, hcut]
  · intro hwhole
    obtain ⟨_, hexact, _⟩ := hwhole.whole (by rw [roomyClient_spare]; exact hfits)
    rw [hsize, hcut] at hexact
    exact absurd hexact (by decide)

end Sntp
