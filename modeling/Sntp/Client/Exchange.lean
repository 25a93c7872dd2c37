import Sntp.Client.Log

/-!
# The exchange: what a call does to the outstanding request

A client's exchange is four fields: the index of the server in use, its resolved
address, the stored request time, the packet size. This file says what each
call does to them, and what a full read makes of a receive call:

- `Receives.session` and `Sends.request`: a receive call settles the exchange on
  what it returned, and a send stores the request time it stamped;
- `Receives.judged`: from a full read on, everything is a function of the packet,
  the reading after it, and what the authenticator said;
- `Receives.adjust`: a clock adjustment comes from an accepted packet, and
  clears the request.
-/

namespace Sntp

open Transition

variable {A : Type}

/-- The fields an exchange lives in. -/
structure Session where
  index : ℕ
  address : UInt32
  lastRequestTime : Timestamp
  packetSize : UInt16
deriving DecidableEq

/-- The exchange a client is in. -/
def Client.session (c : Client A) : Session :=
  ⟨c.currentServer, c.currentServerAddr, c.lastRequestTime, c.packetSize⟩

/-- The next server of `n`, wrapping around. -/
def Session.rotate (n : ℕ) (s : Session) : Session := { s with index := (s.index + 1) % n }

/-- What a receive call does to the exchange, of a client with `n` servers: the
index moves on a timeout and on a rejection, and the request is forgotten on an
answer, a rejection being one only under an authenticator. -/
def Session.settle (configured : Bool) (n : ℕ) (s : Session) :
    Option (Except ReceiveError Reception) → Session
  | some (.ok .timedOut) => s.rotate n
  | some (.ok .rejected) =>
    if configured then { s.rotate n with lastRequestTime := .zero } else s.rotate n
  | some (.ok .synchronised) => { s with lastRequestTime := .zero }
  | _ => s

/-- Settling touches neither the resolved address nor the packet size. -/
theorem Session.settle_keeps (s : Session) (configured : Bool) (n : ℕ)
    (result : Option (Except ReceiveError Reception)) :
    (s.settle configured n result).address = s.address ∧
      (s.settle configured n result).packetSize = s.packetSize := by
  rcases result with _ | e | r
  · exact ⟨rfl, rfl⟩
  · exact ⟨rfl, rfl⟩
  · cases r with
    | rejected => cases configured <;> exact ⟨rfl, rfl⟩
    | _ => exact ⟨rfl, rfl⟩

/-- What a client is configured with. -/
def Client.config (c : Client A) : List ServerInfo × UInt32 × ℕ :=
  (c.servers, c.responseTimeoutMs, c.buffer.length)

theorem Client.Alike.session {c c' : Client A} (h : c.Alike c') : c'.session = c.session := by
  obtain ⟨_, _, _, rfl⟩ := h
  rfl

theorem Client.Alike.config {c c' : Client A} (h : c.Alike c') : c'.config = c.config := by
  obtain ⟨_, _, hbuffer, rfl⟩ := h
  rw [Client.config, Client.config, hbuffer]

/-- A result that settles nothing: the call is still waiting, found nothing, or
failed. -/
def Unsettled (result : Option (Except ReceiveError Reception)) : Prop :=
  result = none ∨ result = some (.ok .nothingYet) ∨ ∃ e, result = some (.error e)

section Settle

variable [Authenticator A]

theorem Client.settle_of_unsettled {c : Client A}
    {result : Option (Except ReceiveError Reception)} (h : Unsettled result) :
    c.settle result = c := by
  rcases h with rfl | rfl | ⟨e, rfl⟩ <;> rfl

theorem Client.settle_config (c : Client A) (result : Option (Except ReceiveError Reception)) :
    (c.settle result).config = c.config := by
  rcases result with _ | e | r
  · rfl
  · rfl
  · cases r with
    | rejected =>
      rw [Client.settle_rejected]
      split <;> rfl
    | _ => rfl

/-- Settling a client settles its exchange. -/
theorem Client.settle_session (c : Client A) (hvalid : c.Valid)
    (result : Option (Except ReceiveError Reception)) :
    (c.settle result).session
      = c.session.settle (Authenticator.configured A) c.servers.length result := by
  have hindex := hvalid.index
  have hrotate : c.rotateServer.session = c.session.rotate c.servers.length := by
    unfold Client.rotateServer
    rw [if_neg (by omega)]
    rfl
  rcases result with _ | e | r
  · rfl
  · rfl
  · cases r with
    | synchronised => rfl
    | nothingYet => rfl
    | timedOut => exact hrotate
    | rejected =>
      rw [Client.settle_rejected, Session.settle, ← hrotate]
      split <;> rfl

/-- Settling keeps the stored request time or clears it. -/
theorem Client.settle_request (c : Client A) (result : Option (Except ReceiveError Reception)) :
    (c.settle result).lastRequestTime = c.lastRequestTime ∨
      (c.settle result).lastRequestTime = .zero := by
  rcases result with _ | e | r
  · exact Or.inl rfl
  · exact Or.inl rfl
  · cases r with
    | synchronised => exact Or.inr rfl
    | nothingYet => exact Or.inl rfl
    | timedOut => exact Or.inl rfl
    | rejected =>
      rw [Client.settle_rejected]
      split
      · exact Or.inr rfl
      · exact Or.inl rfl

/-- It is kept by every result but two: an accepted response, and a rejection an
authenticator vouched for. -/
theorem Client.settle_keeps_request {c : Client A}
    {result : Option (Except ReceiveError Reception)} (hsync : result ≠ some (.ok .synchronised))
    (hrejected : Authenticator.configured A = true → result ≠ some (.ok .rejected)) :
    (c.settle result).lastRequestTime = c.lastRequestTime := by
  rcases result with _ | e | r
  · rfl
  · rfl
  · cases r with
    | synchronised => exact absurd rfl hsync
    | nothingYet => rfl
    | timedOut => rfl
    | rejected =>
      rw [Client.settle_rejected, if_neg (fun hconfigured => hrejected hconfigured rfl)]
      rfl

/-- The index moves only when the call timed out or was rejected. -/
theorem Client.settle_keeps_index {c : Client A}
    {result : Option (Except ReceiveError Reception)} (htimedOut : result ≠ some (.ok .timedOut))
    (hrejected : result ≠ some (.ok .rejected)) :
    (c.settle result).currentServer = c.currentServer := by
  rcases result with _ | e | r
  · rfl
  · rfl
  · cases r with
    | synchronised => rfl
    | nothingYet => rfl
    | timedOut => exact absurd rfl htimedOut
    | rejected => exact absurd rfl hrejected

end Settle

section Calls

variable [Authenticator A] {c c' : Client A} {blockTimeMs : UInt32} {watch : ℕ}
  {events : List Event}

theorem Receives.session {result : Option (Except ReceiveError Reception)}
    (h : Receives c blockTimeMs watch events result c') :
    c'.session = (c.settle result).session := by
  cases h with
  | mk _ _ halike => exact halike.session

theorem Receives.config {result : Option (Except ReceiveError Reception)}
    (h : Receives c blockTimeMs watch events result c') : c'.config = c.config := by
  cases h with
  | mk _ _ halike => rw [halike.config, Client.settle_config]

theorem Receives.request {result : Option (Except ReceiveError Reception)}
    (h : Receives c blockTimeMs watch events result c') :
    c'.lastRequestTime = (c.settle result).lastRequestTime :=
  congrArg Session.lastRequestTime h.session

/-! ## Receiving -/

/-- A callback that brings a receive call nothing: a clock reading, or a read from
the current peer that was not a full one. -/
def Client.Quiet (c : Client A) (port : UInt16) (e : Event) : Prop :=
  (∃ t, e = .now t) ∨
    ∃ buffer filled answer, e = .recvFrom c.currentServerAddr port buffer filled answer ∧
      answer ≠ .ok c.packetSize.toNat

omit [Authenticator A] in
theorem Client.Quiet.isAdjust {port : UInt16} {e : Event} (h : c.Quiet port e) :
    e.isAdjust = false := by
  rcases h with ⟨t, rfl⟩ | ⟨buffer, filled, answer, rfl, _⟩
  · rfl
  · rfl

/-- What a full read makes of the call. -/
inductive Judged (c : Client A) (server : ServerInfo) (packet : Buffer) (receivedAt : Timestamp) :
    List Event → Except ReceiveError Reception → Prop
  | refused {e : AuthError} (hconfigured : Authenticator.configured A = true) :
      Judged c server packet receivedAt [.validateServerAuth server packet (.error e)]
        (.error e.toReceive)
  | passed :
      Judged c server packet receivedAt
        (validations A server packet ++
          adjustments server (deserializeResponse c.lastRequestTime receivedAt packet))
        (receptionOf (deserializeResponse c.lastRequestTime receivedAt packet))

/-- What a receive call returns that read nothing in full. -/
inductive Fruitless : Option (Except ReceiveError Reception) → Prop
  | running : Fruitless none
  | failed : Fruitless (some (.error .network))
  | timedOut : Fruitless (some (.ok .timedOut))
  | nothingYet : Fruitless (some (.ok .nothingYet))

/-- A receive call ends quietly, or on a full read. -/
theorem ReceiveEnd.quiet_or_full {server : ServerInfo} {started : Timestamp} {tail : List Event}
    {r : Except ReceiveError Reception} (h : ReceiveEnd c server blockTimeMs started tail r)
    (hvalid : c.Valid) :
    (∀ e ∈ tail, c.Quiet server.port e) ∧ Fruitless (some r) ∨
      ∃ buffer packet receivedAt rest, tail = .recvFrom c.currentServerAddr server.port buffer
        packet (.ok c.packetSize.toNat) :: .now receivedAt :: rest ∧
          packet.length = c.packetSize.toNat ∧ Judged c server packet receivedAt rest r := by
  have hbase : 48 ≤ c.packetSize.toNat := hvalid.base
  have hread : ∀ buffer filled answer, answer ≠ .ok c.packetSize.toNat →
      c.Quiet server.port (.recvFrom c.currentServerAddr server.port buffer filled answer) :=
    fun _ _ _ hanswer => Or.inr ⟨_, _, _, rfl, hanswer⟩
  have hempty : ∀ buffer filled t, ∀ e ∈
      [.recvFrom c.currentServerAddr server.port buffer filled (.ok 0), Event.now t],
      c.Quiet server.port e := by
    intro buffer filled t e he
    rcases List.mem_pair.mp he with rfl | rfl
    · refine hread _ _ _ ?_
      intro hzero
      have := Except.ok.inj hzero
      omega
    · exact Or.inl ⟨t, rfl⟩
  cases h with
  | failed =>
    refine Or.inl ⟨List.forall_mem_singleton.mpr (hread _ _ _ ?_), .failed⟩
    exact nofun
  | miscounted _ hsize =>
    refine Or.inl ⟨List.forall_mem_singleton.mpr (hread _ _ _ ?_), .failed⟩
    exact fun hfull => hsize (Except.ok.inj hfull)
  | timedOut _ => exact Or.inl ⟨hempty _ _ _, .timedOut⟩
  | nothingYet _ _ => exact Or.inl ⟨hempty _ _ _, .nothingYet⟩
  | refused hconfigured hlen => exact Or.inr ⟨_, _, _, _, rfl, hlen, .refused hconfigured⟩
  | judged hlen => exact Or.inr ⟨_, _, _, _, rfl, hlen, .passed⟩

/-- **A receive call is quiet, or it is decided by one full read**, the only one
it makes, and everything before that is quiet. -/
theorem Receives.quiet_or_full {result : Option (Except ReceiveError Reception)}
    (h : Receives c blockTimeMs watch events result c') (hvalid : c.Valid) :
    ∃ server, c.servers[c.currentServer]? = some server ∧
      ((∀ e ∈ events, c.Quiet server.port e) ∧ Fruitless result ∨
        ∃ before buffer packet receivedAt rest r, events = before ++ .recvFrom c.currentServerAddr
          server.port buffer packet (.ok c.packetSize.toNat) :: .now receivedAt :: rest ∧
          (∀ e ∈ before, c.Quiet server.port e) ∧ packet.length = c.packetSize.toNat ∧
          Judged c server packet receivedAt rest r ∧ result = some r) := by
  have hbase : 48 ≤ c.packetSize.toNat := hvalid.base
  cases h with
  | @mk server started events result c' hserver hloop _ =>
    obtain ⟨stalls, tail, rfl, hstalls, hrest⟩ := hloop.split
    have hquiet : ∀ e ∈ .now started :: stalls.flatMap Stall.events, c.Quiet server.port e := by
      intro e he
      rcases List.mem_cons.mp he with rfl | he
      · exact Or.inl ⟨started, rfl⟩
      · obtain ⟨s, hs, he⟩ := List.mem_flatMap.mp he
        cases hstalls s hs with
        | empty _ _ =>
          rcases List.mem_pair.mp he with rfl | rfl
          · refine Or.inr ⟨_, _, _, rfl, ?_⟩
            intro hzero
            have := Except.ok.inj hzero
            omega
          · exact Or.inl ⟨_, rfl⟩
    refine ⟨server, hserver, ?_⟩
    rw [← List.cons_append]
    rcases hrest with ⟨rfl, rfl, _⟩ | ⟨r, rfl, _, hend⟩
    · rw [List.append_nil]
      exact Or.inl ⟨hquiet, .running⟩
    · rcases hend.quiet_or_full hvalid with
        ⟨htail, hfruitless⟩ | ⟨buffer, packet, receivedAt, rest, rfl, hlen, hjudged⟩
      · refine Or.inl ⟨?_, hfruitless⟩
        intro e he
        rcases List.mem_append.mp he with he | he
        · exact hquiet e he
        · exact htail e he
      · exact Or.inr ⟨_, buffer, packet, receivedAt, rest, r, rfl, hquiet, hlen, hjudged, rfl⟩

/-- What follows a full read that was not refused: the authenticator's answer,
and the adjustment of an accepted packet. -/
theorem mem_judged {server : ServerInfo} {packet : Buffer} {v : Except DeserializeError Verdict}
    {e : Event} (he : e ∈ validations A server packet ++ adjustments server v) :
    Authenticator.configured A = true ∧ e = .validateServerAuth server packet (.ok ()) ∨
      ∃ a, v = .ok (.accepted a) ∧
        e = .adjustClock server a.serverTime a.clockOffsetMs a.leapSecond := by
  rcases List.mem_append.mp he with hvalidation | hadjustment
  · unfold validations at hvalidation
    split at hvalidation
    next hconfigured => exact Or.inl ⟨hconfigured, List.mem_singleton.mp hvalidation⟩
    next => cases hvalidation
  · rcases v with e' | ⟨a | r⟩
    · cases hadjustment
    · exact Or.inr ⟨a, rfl, List.mem_singleton.mp hadjustment⟩
    · cases hadjustment

/-- After a full read a call goes to the transport no more, nor to the clock. -/
theorem Judged.not_quiet {server : ServerInfo} {packet : Buffer} {receivedAt : Timestamp}
    {rest : List Event} {r : Except ReceiveError Reception}
    (h : Judged c server packet receivedAt rest r) {e : Event} (he : e ∈ rest) :
    e.isTransport = false ∧ ∀ t, e ≠ .now t := by
  cases h with
  | refused _ =>
    obtain rfl := List.mem_singleton.mp he
    exact ⟨rfl, nofun⟩
  | passed =>
    rcases mem_judged he with ⟨_, rfl⟩ | ⟨a, _, rfl⟩
    · exact ⟨rfl, nofun⟩
    · exact ⟨rfl, nofun⟩

/-- **From a full read on, the packet decides**: the reading after it, the stored
request time and the authenticator's answer are all that matters, and nothing
that happened before the read does. -/
theorem Receives.judged {result : Option (Except ReceiveError Reception)} {pre rest : List Event}
    {address : UInt32} {port : UInt16} {buffer packet : Buffer} {receivedAt : Timestamp}
    (h : Receives c blockTimeMs watch (pre ++ .recvFrom address port buffer packet
      (.ok c.packetSize.toNat) :: .now receivedAt :: rest) result c') (hvalid : c.Valid) :
    ∃ server r, c.servers[c.currentServer]? = some server ∧ result = some r ∧
      pre.filter Event.isAdjust = [] ∧ Judged c server packet receivedAt rest r := by
  obtain ⟨server, hserver, hshape⟩ := h.quiet_or_full hvalid
  have hloud : ¬ c.Quiet server.port
      (.recvFrom address port buffer packet (.ok c.packetSize.toNat)) := by
    intro hquiet
    rcases hquiet with ⟨t, ht⟩ | ⟨_, _, _, hread, hanswer⟩
    · cases ht
    · exact hanswer (Event.recvFrom.inj hread).2.2.2.2.symm
  rcases hshape with ⟨hquiet, _⟩ |
    ⟨before, buffer', packet', receivedAt', rest', r, hsplit, hbefore, _, hjudged, rfl⟩
  · exact absurd (hquiet _ (List.mem_append_right pre List.mem_cons_self)) hloud
  · have hquiet : before.filter Event.isAdjust = [] := by
      apply List.filter_eq_nil_iff.mpr
      intro e he
      rw [(hbefore e he).isAdjust]
      exact Bool.false_ne_true
    -- a full read is not quiet and is not made after one, so the two are the same
    rcases List.append_eq_append_iff.mp hsplit with ⟨mid, hmid, hfull⟩ | ⟨mid, hmid, hfull⟩
    · rcases mid with _ | ⟨e, mid⟩
      · rw [List.append_nil] at hmid
        cases hfull
        exact ⟨server, r, hserver, rfl, hmid ▸ hquiet, hjudged⟩
      · obtain ⟨rfl, _⟩ := List.cons.inj hfull
        refine absurd (hbefore _ ?_) hloud
        rw [hmid]
        exact List.mem_append_right _ List.mem_cons_self
    · rcases mid with _ | ⟨e, mid⟩
      · rw [List.append_nil] at hmid
        cases hfull
        exact ⟨server, r, hserver, rfl, hmid ▸ hquiet, hjudged⟩
      · exfalso
        obtain ⟨_, hrest⟩ := List.cons.inj hfull
        rcases mid with _ | ⟨e', mid⟩
        · cases hrest
        · obtain ⟨_, hrest⟩ := List.cons.inj hrest
          have hmem : .recvFrom address port buffer packet (.ok c.packetSize.toNat) ∈ rest' := by
            rw [hrest]
            exact List.mem_append_right _ List.mem_cons_self
          cases (hjudged.not_quiet hmem).1

/-- Only an outstanding request can synchronise a call or have it rejected. -/
theorem Receives.outstanding {r : Reception}
    (h : Receives c blockTimeMs watch events (some (.ok r)) c') (hvalid : c.Valid)
    (hr : r = .synchronised ∨ r = .rejected) : c.lastRequestTime ≠ .zero := by
  obtain ⟨server, _, hshape⟩ := h.quiet_or_full hvalid
  rcases hshape with ⟨_, hfruitless⟩ | ⟨_, _, packet, receivedAt, _, r', _, _, _, hjudged, hr'⟩
  · cases hfruitless with
    | timedOut => rcases hr with hr | hr <;> cases hr
    | nothingYet => rcases hr with hr | hr <;> cases hr
  · obtain rfl := Option.some.inj hr'
    generalize hresult : (Except.ok r : Except ReceiveError Reception) = result at hjudged
    cases hjudged with
    | refused _ => cases hresult
    | passed =>
      cases hverdict : deserializeResponse c.lastRequestTime receivedAt packet with
      | error e =>
        rw [hverdict] at hresult
        cases hresult
      | ok v => exact request_ne_zero_of_verdict hverdict

/-! ## Clock adjustments -/

/-- **A clock adjustment comes from an accepted packet**, read in full right
before, and it is the last thing the call does. -/
theorem Receives.adjust {result : Option (Except ReceiveError Reception)}
    (h : Receives c blockTimeMs watch events result c') (hvalid : c.Valid) {e : Event}
    (he : e ∈ events) (hadjust : e.isAdjust = true) :
    ∃ server pre buffer packet receivedAt a, c.servers[c.currentServer]? = some server ∧
      events = pre ++ .recvFrom c.currentServerAddr server.port buffer packet
        (.ok c.packetSize.toNat) :: .now receivedAt :: (validations A server packet ++ [e]) ∧
      e = .adjustClock server a.serverTime a.clockOffsetMs a.leapSecond ∧
      packet.length = c.packetSize.toNat ∧
      deserializeResponse c.lastRequestTime receivedAt packet = .ok (.accepted a) ∧
      result = some (.ok .synchronised) := by
  obtain ⟨server, hserver, hshape⟩ := h.quiet_or_full hvalid
  have hloud : ¬ c.Quiet server.port e := by
    intro hquiet
    rw [hquiet.isAdjust] at hadjust
    cases hadjust
  rcases hshape with ⟨hquiet, _⟩ |
    ⟨before, buffer, packet, receivedAt, rest, r, rfl, hbefore, hlen, hjudged, rfl⟩
  · exact absurd (hquiet e he) hloud
  · have hrest : e ∈ rest := by
      rcases List.mem_append.mp he with he | he
      · exact absurd (hbefore e he) hloud
      · rcases List.mem_cons.mp he with rfl | he
        · cases hadjust
        · rcases List.mem_cons.mp he with rfl | he
          · cases hadjust
          · exact he
    cases hjudged with
    | refused _ =>
      obtain rfl := List.mem_singleton.mp hrest
      cases hadjust
    | passed =>
      rcases mem_judged hrest with ⟨_, rfl⟩ | ⟨a, hverdict, rfl⟩
      · cases hadjust
      · rw [hverdict]
        exact ⟨server, before, buffer, packet, receivedAt, a, hserver, rfl, rfl, hlen, hverdict,
          rfl⟩

/-- What follows a full read adjusts the clock at most once. -/
theorem judged_adjusts (server : ServerInfo) (packet : Buffer)
    (v : Except DeserializeError Verdict) :
    (validations A server packet ++ adjustments server v).filter Event.isAdjust
      = adjustments server v := by
  unfold validations
  rcases v with e | ⟨a | r⟩ <;> split <;> rfl

theorem Judged.adjusts_length {server : ServerInfo} {packet : Buffer} {receivedAt : Timestamp}
    {rest : List Event} {r : Except ReceiveError Reception}
    (h : Judged c server packet receivedAt rest r) : (rest.filter Event.isAdjust).length ≤ 1 := by
  cases h with
  | refused _ => exact Nat.zero_le 1
  | passed =>
    rw [judged_adjusts]
    rcases deserializeResponse c.lastRequestTime receivedAt packet with e | ⟨a | r⟩
    · exact Nat.zero_le 1
    · exact le_rfl
    · exact Nat.zero_le 1

end Calls

/-! ## Sending -/

section Sends

variable [Authenticator A] {c c' : Client A} {randomNumber blockTimeMs : UInt32} {watch : ℕ}
  {events : List Event} {result : Option (Except SendError Unit)}

/-- Everything the send loop does: it sends the one packet, and reads the clock. -/
theorem Retried.sends {address : UInt32} {port : UInt16} {packet : Buffer} {started : Timestamp}
    (h : Retried (SendStalls address port packet blockTimeMs started)
      (SendEnd address port packet blockTimeMs started) watch events result) {e : Event}
    (he : e ∈ events) : (∃ t, e = .now t) ∨ ∃ answer, e = .sendTo address port packet answer := by
  obtain ⟨stalls, tail, rfl, hstalls, hrest⟩ := h.split
  rcases List.mem_append.mp he with hstall | htail
  · obtain ⟨s, hs, he⟩ := List.mem_flatMap.mp hstall
    cases hstalls s hs with
    | unsent _ =>
      rcases List.mem_pair.mp he with rfl | rfl
      · exact Or.inr ⟨_, rfl⟩
      · exact Or.inl ⟨_, rfl⟩
  · rcases hrest with ⟨_, rfl, _⟩ | ⟨r, _, _, hend⟩
    · cases htail
    · cases hend with
      | timedOut _ =>
        rcases List.mem_pair.mp htail with rfl | rfl
        · exact Or.inr ⟨_, rfl⟩
        · exact Or.inl ⟨_, rfl⟩
      | _ => exact Or.inr ⟨_, List.mem_singleton.mp htail⟩

/-- A send call that sent anything: what it sent was the packet of the client it
leaves, and only signing asked the authenticator. -/
theorem Sends.of_sendTo (h : Sends c randomNumber blockTimeMs watch events result c')
    {address : UInt32} {port : UInt16} {bytes : Buffer} {answer : Except NetworkError ℕ}
    (hsent : .sendTo address port bytes answer ∈ events) :
    ∃ server resolved reading signing, c.servers[c.currentServer]? = some server ∧
      .resolveDns server (some resolved) ∈ events ∧ firstReading events = some reading ∧
      Signs (c.requested resolved reading randomNumber) server signing c' ∧
      (∀ address port bytes answer, .sendTo address port bytes answer ∈ events →
        address = resolved ∧ port = server.port ∧ bytes = c'.packet) ∧
      ∀ server buffer filled answer, .generateClientAuth server buffer filled answer ∈ events ↔
        .generateClientAuth server buffer filled answer ∈ signing := by
  cases h with
  | unresolved _ =>
    cases List.mem_singleton.mp hsent
  | zeroClock _ =>
    rcases List.mem_pair.mp hsent with h | h <;> cases h
  | unsigned _ _ hunsigned =>
    cases hunsigned with
    | mk _ _ _ => simp at hsent
  | @tried server resolved reading started signing loop result c' hserver _ hsigns hloop =>
    -- signing asks the authenticator, and the loop sends and reads the clock
    have hsigning : ∀ e ∈ signing, e.isTransport = false := by
      intro e he
      cases hsigns with
      | bare _ => cases he
      | signed _ _ _ =>
        rw [List.mem_singleton.mp he]
        rfl
    refine ⟨server, resolved, reading, signing, hserver, List.mem_cons_self, rfl, hsigns, ?_, ?_⟩
    · intro address port bytes answer hmem
      simp only [List.mem_cons, List.mem_append, reduceCtorEq, false_or] at hmem
      rcases hmem with hmem | hmem
      · cases hsigning _ hmem
      · rcases hloop.sends hmem with ⟨t, h⟩ | ⟨answer', h⟩
        · cases h
        · cases h
          exact ⟨rfl, rfl, rfl⟩
    · intro server' buffer filled answer
      simp only [List.mem_cons, List.mem_append, reduceCtorEq, false_or]
      refine ⟨?_, Or.inl⟩
      intro hmem
      rcases hmem with hmem | hmem
      · exact hmem
      · rcases hloop.sends hmem with ⟨t, h⟩ | ⟨answer', h⟩
        · cases h
        · cases h

/-- A send call that returned `Ok` resolved the server at the index, and sent. -/
theorem Sends.of_ok (h : Sends c randomNumber blockTimeMs watch events result c')
    (hok : result = some (.ok ())) :
    ∃ server address bytes answer, c.servers[c.currentServer]? = some server ∧
      .resolveDns server (some address) ∈ events ∧
      .sendTo address server.port bytes answer ∈ events := by
  cases h with
  | unresolved _ => cases hok
  | zeroClock _ => cases hok
  | unsigned _ _ _ => cases hok
  | @tried server address reading started signing loop result c' hserver _ _ hloop =>
    obtain ⟨stalls, tail, rfl, _, hrest⟩ := hloop.split
    rcases hrest with ⟨rfl, _⟩ | ⟨r, rfl, _, hend⟩
    · cases hok
    · cases hend with
      | sent =>
        refine ⟨server, address, c'.packet, .ok c'.packet.length, hserver, List.mem_cons_self, ?_⟩
        simp
      | _ => cases hok

/-- **The callbacks of a send call**: it resolves the server at the index and asks
for its authentication, sends to its port, and reads the clock. -/
theorem Sends.event (h : Sends c randomNumber blockTimeMs watch events result c') {e : Event}
    (he : e ∈ events) :
    ∃ server, c.servers[c.currentServer]? = some server ∧
      ((∃ answer, e = .resolveDns server answer) ∨ (∃ t, e = .now t) ∨
        (∃ buffer filled answer, e = .generateClientAuth server buffer filled answer) ∨
        ∃ address answer, e = .sendTo address server.port c'.packet answer) := by
  cases h with
  | @unresolved server hserver =>
    refine ⟨server, hserver, Or.inl ⟨none, List.mem_singleton.mp he⟩⟩
  | @zeroClock server address hserver =>
    refine ⟨server, hserver, ?_⟩
    rcases List.mem_pair.mp he with rfl | rfl
    · exact Or.inl ⟨some address, rfl⟩
    · exact Or.inr (Or.inl ⟨.zero, rfl⟩)
  | @unsigned server address reading signing c' hserver _ hunsigned =>
    refine ⟨server, hserver, ?_⟩
    rcases List.mem_cons.mp he with rfl | he
    · exact Or.inl ⟨some address, rfl⟩
    · rcases List.mem_cons.mp he with rfl | he
      · exact Or.inr (Or.inl ⟨reading, rfl⟩)
      · cases hunsigned with
        | mk _ _ _ => exact Or.inr (Or.inr (Or.inl ⟨_, _, _, List.mem_singleton.mp he⟩))
  | @tried server address reading started signing loop result c' hserver _ hsigns hloop =>
    refine ⟨server, hserver, ?_⟩
    rcases List.mem_cons.mp he with rfl | he
    · exact Or.inl ⟨some address, rfl⟩
    · rcases List.mem_cons.mp he with rfl | he
      · exact Or.inr (Or.inl ⟨reading, rfl⟩)
      · rcases List.mem_append.mp he with he | he
        · cases hsigns with
          | bare _ => cases he
          | signed _ _ _ => exact Or.inr (Or.inr (Or.inl ⟨_, _, _, List.mem_singleton.mp he⟩))
        · rcases List.mem_cons.mp he with rfl | he
          · exact Or.inr (Or.inl ⟨started, rfl⟩)
          · rcases hloop.sends he with ⟨t, rfl⟩ | ⟨answer, rfl⟩
            · exact Or.inr (Or.inl ⟨t, rfl⟩)
            · exact Or.inr (Or.inr (Or.inr ⟨address, answer, rfl⟩))

/-- A send call resolves the server at the index, and no other. -/
theorem Sends.resolves (h : Sends c randomNumber blockTimeMs watch events result c')
    {server : ServerInfo} {answer : Option UInt32} (hmem : .resolveDns server answer ∈ events) :
    c.servers[c.currentServer]? = some server := by
  obtain ⟨server', hserver, ⟨_, hevent⟩ | ⟨_, hevent⟩ | ⟨_, _, _, hevent⟩ | ⟨_, _, hevent⟩⟩ :=
    h.event hmem
  · cases hevent
    exact hserver
  · cases hevent
  · cases hevent
  · cases hevent

/-- A send call adjusts nothing. -/
theorem Sends.no_adjust (h : Sends c randomNumber blockTimeMs watch events result c') :
    events.filter Event.isAdjust = [] := by
  apply List.filter_eq_nil_iff.mpr
  intro e he
  obtain ⟨_, _, ⟨_, rfl⟩ | ⟨_, rfl⟩ | ⟨_, _, _, rfl⟩ | ⟨_, _, rfl⟩⟩ := h.event he
  · exact Bool.false_ne_true
  · exact Bool.false_ne_true
  · exact Bool.false_ne_true
  · exact Bool.false_ne_true

/-- The stored request time after a send: the first reading, stamped, unless it
was zero; a send that got no reading leaves it alone. -/
theorem Sends.request (h : Sends c randomNumber blockTimeMs watch events result c') :
    c'.lastRequestTime = match firstReading events with
      | none => c.lastRequestTime
      | some reading => if reading = .zero then .zero else stamped reading randomNumber := by
  cases h with
  | unresolved _ => rfl
  | zeroClock _ => rfl
  | unsigned _ hreading hunsigned =>
    cases hunsigned with
    | mk _ _ _ => exact (if_neg hreading).symm
  | tried _ hreading hsigns _ =>
    cases hsigns with
    | bare _ => exact (if_neg hreading).symm
    | signed _ _ _ => exact (if_neg hreading).symm

theorem Sends.config (h : Sends c randomNumber blockTimeMs watch events result c')
    (hvalid : c.Valid) : c'.config = c.config := by
  cases h with
  | unresolved _ => rfl
  | zeroClock _ => rfl
  | unsigned _ _ hunsigned =>
    cases hunsigned with
    | mk _ hfilled _ =>
      rw [hvalid.requested_length] at hfilled
      rw [Client.config, Client.config, ← hfilled]
      rfl
  | tried _ _ hsigns _ =>
    cases hsigns with
    | bare _ =>
      rw [Client.config, Client.config, hvalid.requested_length]
      rfl
    | signed _ hfilled _ =>
      rw [hvalid.requested_length] at hfilled
      rw [Client.config, Client.config, ← hfilled]
      rfl

end Sends

end Sntp
