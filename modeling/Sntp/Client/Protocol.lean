import Sntp.Client.Script
import Sntp.Client.Steps
import Sntp.Lib.Words

/-!
# The callback protocol

The sequences of callbacks a call can make, as a grammar: for each result of
`sendTimeRequest` the language `sendWords` of what it did, and for each result of
`receiveTimeResponse` the language `receiveWords`. Every clock reading of a call is a
letter of its word, so a grammar says how many there are on each way through.
`callback_protocol` is that every call that returned did a word of its result.
-/

namespace Sntp

open Words Computability

/-- A clock reading of this kind. -/
def reading (p : Timestamp → Prop) : Language Event := letter fun e => ∃ t, e = .now t ∧ p t

theorem reading_mem {p : Timestamp → Prop} {t : Timestamp} (ht : p t) : [.now t] ∈ reading p :=
  letter_mem ⟨t, rfl, ht⟩

/-- The send loop, of a window opened at `started`: pairs of a send that moved
nothing and a reading in time, and then the end. -/
def sendLoopWords (address : UInt32) (port : UInt16) (packet : Buffer) (size : ℕ)
    (blockTimeMs : UInt32) (started : Timestamp) (r : Except SendError Unit) : Language Event :=
  (letter (· = .sendTo address port packet (.ok 0)) *
      reading fun t => calculateElapsedMs t started < blockTimeMs.toUInt64)∗ *
    (letter (· = .sendTo address port packet (.ok 0)) *
        ((reading fun t => blockTimeMs.toUInt64 ≤ calculateElapsedMs t started) *
          ending (r = .error .sendTimeout)) +
      letter (· = .sendTo address port packet (.ok size)) * ending (r = .ok ()) +
      -- an error, or a datagram sent in part
      letter (fun e => ∃ answer, e = .sendTo address port packet answer ∧ answer ≠ .ok 0 ∧
        answer ≠ .ok size) * ending (r = .error .network))

variable {A : Type} [Authenticator A]

/-- The authenticator has no code, or one there is no room for. -/
def refusalWords (c : Client A) (server : ServerInfo) : Language Event :=
  if Authenticator.configured A then
    letter fun e => ∃ buffer filled answer, e = .generateClientAuth server buffer filled answer ∧
      ∀ authSize : UInt16, answer = .ok authSize → c.buffer.length - 48 < authSize.toNat
  else 0

/-- The authenticator has a code there is room for; without one nothing is asked. -/
def codeWords (c : Client A) (server : ServerInfo) : Language Event :=
  if Authenticator.configured A then
    letter fun e => ∃ buffer filled, ∃ authSize : UInt16,
      e = .generateClientAuth server buffer filled (.ok authSize) ∧
        authSize.toNat ≤ c.buffer.length - 48
  else 1

/-- What a send call of `c` that returned `r` did, `packet` being what it sends. -/
def sendWords (c : Client A) (server : ServerInfo) (packet : Buffer) (blockTimeMs : UInt32)
    (r : Except SendError Unit) : Language Event :=
  letter (· = .resolveDns server none) * ending (r = .error .dns) +
    ⨆ address, letter (· = .resolveDns server (some address)) *
      (letter (· = .now .zero) * ending (r = .error .network) +
        (reading fun t => t ≠ .zero) *
          (refusalWords c server * ending (r = .error .auth) +
            codeWords c server * ⨆ started, letter (· = .now started) *
              sendLoopWords address server.port packet packet.length blockTimeMs started r))

/-- What is done with a packet: its verdict decides. -/
def verdictWords (c : Client A) (server : ServerInfo) (packet : Buffer) (receivedAt : Timestamp)
    (r : Except ReceiveError Reception) : Language Event :=
  match deserializeResponse c.lastRequestTime receivedAt packet with
  | .error _ => ending (r = .error .invalidResponse)
  | .ok (.rejected _) => ending (r = .ok .rejected)
  | .ok (.accepted a) =>
    letter (· = .adjustClock server a.serverTime a.clockOffsetMs a.leapSecond) *
      ending (r = .ok .synchronised)

/-- What is done with a full read: a configured authenticator sees the packet first. -/
def packetWords (c : Client A) (server : ServerInfo) (packet : Buffer) (receivedAt : Timestamp)
    (r : Except ReceiveError Reception) : Language Event :=
  if Authenticator.configured A then
    letter (· = .validateServerAuth server packet (.error .failed)) * ending (r = .error .auth) +
      letter (· = .validateServerAuth server packet (.error .serverNotAuthenticated)) *
        ending (r = .error .serverNotAuthenticated) +
      letter (· = .validateServerAuth server packet (.ok ())) *
        verdictWords c server packet receivedAt r
  else verdictWords c server packet receivedAt r

/-- A read from the current peer, with an answer of this kind. -/
def readWords (c : Client A) (server : ServerInfo) (p : Except NetworkError ℕ → Prop) :
    Language Event :=
  letter fun e => ∃ buffer filled answer,
    e = .recvFrom c.currentServerAddr server.port buffer filled answer ∧ p answer

/-- What a receive call of `c` that returned `r` did. -/
def receiveWords (c : Client A) (server : ServerInfo) (blockTimeMs : UInt32)
    (r : Except ReceiveError Reception) : Language Event :=
  ⨆ started, letter (· = .now started) *
    ((readWords c server (· = .ok 0) * reading fun t =>
        calculateElapsedMs t c.lastRequestTime < c.responseTimeoutMs.toUInt64 ∧
          calculateElapsedMs t started < blockTimeMs.toUInt64)∗ *
      (readWords c server (· = .ok 0) *
          ((reading fun t =>
                c.responseTimeoutMs.toUInt64 ≤ calculateElapsedMs t c.lastRequestTime) *
              ending (r = .ok .timedOut) +
            (reading fun t =>
                calculateElapsedMs t c.lastRequestTime < c.responseTimeoutMs.toUInt64 ∧
                  blockTimeMs.toUInt64 ≤ calculateElapsedMs t started) *
              ending (r = .ok .nothingYet)) +
        -- an error, or a partial read
        readWords c server (fun answer => answer ≠ .ok 0 ∧ answer ≠ .ok c.packetSize.toNat) *
          ending (r = .error .network) +
        ⨆ packet, letter (fun e => packet.length = c.packetSize.toNat ∧
            ∃ buffer, e = .recvFrom c.currentServerAddr server.port buffer packet
              (.ok c.packetSize.toNat)) *
          ⨆ receivedAt, letter (· = .now receivedAt) * packetWords c server packet receivedAt r))

/-! ## Every call did a word of its result -/

section Words

variable {c c' : Client A} {server : ServerInfo} {blockTimeMs : UInt32} {watch : ℕ}

omit [Authenticator A] in
/-- The send loop. -/
theorem Retried.send_words {address : UInt32} {port : UInt16} {packet : Buffer}
    {started : Timestamp} {events : List Event} {r : Except SendError Unit}
    (h : Retried (SendStalls address port packet blockTimeMs started)
      (SendEnd address port packet blockTimeMs started) watch events (some r)) :
    events ∈ sendLoopWords address port packet packet.length blockTimeMs started r := by
  obtain ⟨stalls, tail, rfl, hstalls, hrest⟩ := h.split
  refine Language.append_mem_mul (repeat_mem ?_) ?_
  · intro s hs
    cases hstalls s hs with
    | unsent hblock => exact cons_mem rfl (reading_mem hblock)
  · rcases hrest with ⟨hnone, _⟩ | ⟨r', hr, _, hend⟩
    · cases hnone
    · cases hr
      cases hend with
      | failed =>
        refine inr_mem (last_mem ⟨_, rfl, ?_, ?_⟩ rfl)
        · exact nofun
        · exact nofun
      | miscounted hn hsize =>
        refine inr_mem (last_mem ⟨_, rfl, ?_, ?_⟩ rfl)
        · exact fun h => hn (Except.ok.inj h)
        · exact fun h => hsize (Except.ok.inj h)
      | timedOut hblock =>
        exact inl_mem (inl_mem (cons_mem rfl (last_mem ⟨_, rfl, hblock⟩ rfl)))
      | sent => exact inl_mem (inr_mem (last_mem rfl rfl))

/-- Signing. -/
theorem Signs.words {signing : List Event} (h : Signs c server signing c') :
    signing ∈ codeWords c server := by
  cases h with
  | bare hbare =>
    rw [codeWords, hbare, if_neg Bool.false_ne_true]
    exact Language.nil_mem_one
  | signed hconfigured _ hfits =>
    rw [codeWords, if_pos hconfigured]
    exact letter_mem ⟨_, _, _, rfl, hfits⟩

theorem Unsigned.words {signing : List Event} (h : Unsigned c server signing c') :
    signing ∈ refusalWords c server := by
  cases h with
  | mk hconfigured _ hanswer =>
    rw [refusalWords, if_pos hconfigured]
    exact letter_mem ⟨_, _, _, rfl, hanswer⟩

theorem codeWords_congr (h : c'.buffer.length = c.buffer.length) :
    codeWords c' server = codeWords c server ∧ refusalWords c' server = refusalWords c server := by
  unfold codeWords refusalWords
  rw [h]
  exact ⟨rfl, rfl⟩

/-- A send call. -/
theorem Sends.words {randomNumber : UInt32} {events : List Event} {r : Except SendError Unit}
    (h : Sends c randomNumber blockTimeMs watch events (some r) c') (hvalid : c.Valid) :
    ∃ server, c.servers[c.currentServer]? = some server ∧
      events ∈ sendWords c server c'.packet blockTimeMs r := by
  generalize hresult : some r = result at h
  cases h with
  | @unresolved server hserver =>
    obtain rfl := Option.some.inj hresult
    exact ⟨server, hserver, inl_mem (last_mem rfl rfl)⟩
  | @zeroClock server address hserver =>
    obtain rfl := Option.some.inj hresult
    refine ⟨server, hserver, inr_mem (Language.mem_iSup.mpr ⟨address, cons_mem rfl ?_⟩)⟩
    exact inl_mem (last_mem rfl rfl)
  | @unsigned server address reading signing c' hserver hreading hunsigned =>
    obtain rfl := Option.some.inj hresult
    refine ⟨server, hserver, inr_mem (Language.mem_iSup.mpr ⟨address, cons_mem rfl ?_⟩)⟩
    refine inr_mem (cons_mem ⟨reading, rfl, hreading⟩ (inl_mem ?_))
    rw [← (codeWords_congr (hvalid.requested_length address reading randomNumber)).2]
    rw [← List.append_nil signing]
    exact Language.append_mem_mul hunsigned.words (ending_mem rfl)
  | @tried server address reading started signing loop result c' hserver hreading hsigns hloop =>
    obtain rfl := hresult
    refine ⟨server, hserver, inr_mem (Language.mem_iSup.mpr ⟨address, cons_mem rfl ?_⟩)⟩
    refine inr_mem (cons_mem ⟨reading, rfl, hreading⟩ (inr_mem ?_))
    rw [← (codeWords_congr (hvalid.requested_length address reading randomNumber)).1]
    exact Language.append_mem_mul hsigns.words
      (Language.mem_iSup.mpr ⟨started, cons_mem rfl hloop.send_words⟩)

/-- From a full read on. -/
theorem Judged.words {packet : Buffer} {receivedAt : Timestamp} {rest : List Event}
    {r : Except ReceiveError Reception} (h : Judged c server packet receivedAt rest r) :
    rest ∈ packetWords c server packet receivedAt r := by
  cases h with
  | @refused e hconfigured =>
    rw [packetWords, if_pos hconfigured]
    cases e with
    | failed => exact inl_mem (inl_mem (last_mem rfl rfl))
    | serverNotAuthenticated => exact inl_mem (inr_mem (last_mem rfl rfl))
  | passed =>
    have hverdict : adjustments server (deserializeResponse c.lastRequestTime receivedAt packet) ∈
        verdictWords c server packet receivedAt
          (receptionOf (deserializeResponse c.lastRequestTime receivedAt packet)) := by
      unfold verdictWords
      rcases deserializeResponse c.lastRequestTime receivedAt packet with e | ⟨a | k⟩
      · exact ending_mem rfl
      · exact last_mem rfl rfl
      · exact ending_mem rfl
    unfold packetWords validations
    split
    · exact inr_mem (cons_mem rfl hverdict)
    · exact hverdict

/-- The end of the receive loop. -/
theorem Receives.words {events : List Event} {r : Except ReceiveError Reception}
    (h : Receives c blockTimeMs watch events (some r) c') :
    ∃ server, c.servers[c.currentServer]? = some server ∧
      events ∈ receiveWords c server blockTimeMs r := by
  generalize hresult : some r = result at h
  cases h with
  | @mk server started events result c' hserver hloop _ =>
    obtain rfl := hresult
    refine ⟨server, hserver, Language.mem_iSup.mpr ⟨started, cons_mem rfl ?_⟩⟩
    obtain ⟨stalls, tail, rfl, hstalls, hrest⟩ := hloop.split
    refine Language.append_mem_mul (repeat_mem ?_) ?_
    · intro s hs
      cases hstalls s hs with
      | empty hresponse hblock =>
        exact cons_mem ⟨_, _, _, rfl, rfl⟩ (reading_mem ⟨hresponse, hblock⟩)
    · rcases hrest with ⟨hnone, _⟩ | ⟨r', hr, _, hend⟩
      · cases hnone
      · cases hr
        cases hend with
        | failed =>
          refine inl_mem (inr_mem (last_mem ⟨_, _, _, rfl, ?_, ?_⟩ rfl))
          · exact nofun
          · exact nofun
        | miscounted hn hsize =>
          refine inl_mem (inr_mem (last_mem ⟨_, _, _, rfl, ?_, ?_⟩ rfl))
          · exact fun h => hn (Except.ok.inj h)
          · exact fun h => hsize (Except.ok.inj h)
        | timedOut hresponse =>
          exact inl_mem (inl_mem (cons_mem ⟨_, _, _, rfl, rfl⟩
            (inl_mem (last_mem ⟨_, rfl, hresponse⟩ rfl))))
        | nothingYet hresponse hblock =>
          exact inl_mem (inl_mem (cons_mem ⟨_, _, _, rfl, rfl⟩
            (inr_mem (last_mem ⟨_, rfl, hresponse, hblock⟩ rfl))))
        | @refused buffer packet receivedAt e hconfigured hlen =>
          refine inr_mem (Language.mem_iSup.mpr ⟨packet, cons_mem ⟨hlen, buffer, rfl⟩
            (Language.mem_iSup.mpr ⟨receivedAt, cons_mem rfl ?_⟩)⟩)
          exact Judged.words (.refused hconfigured)
        | @judged buffer packet receivedAt hlen =>
          refine inr_mem (Language.mem_iSup.mpr ⟨packet, cons_mem ⟨hlen, buffer, rfl⟩
            (Language.mem_iSup.mpr ⟨receivedAt, cons_mem rfl ?_⟩)⟩)
          exact Judged.words .passed

/-- **The callback protocol**: a call of any reachable client that returned did a
word of its result. -/
theorem callback_protocol {call : Call A} (hreach : Reachable c) (hcall : Makes c call c')
    (hreturned : call.outcome ≠ none) :
    ∃ server, c.servers[c.currentServer]? = some server ∧
      ((∃ randomNumber blockTimeMs r, call.op = .send randomNumber blockTimeMs ∧
          call.outcome = some (.sent r) ∧ c'.packet.length = c'.packetSize.toNat ∧
          call.events ∈ sendWords c server c'.packet blockTimeMs r) ∨
        ∃ blockTimeMs r, call.op = .receive blockTimeMs ∧ call.outcome = some (.received r) ∧
          call.events ∈ receiveWords c server blockTimeMs r) := by
  have hvalid := hreach.valid
  rcases hcall.cases hvalid with ⟨randomNumber, blockTimeMs, watch, result, hcase, htrace⟩ |
    ⟨blockTimeMs, watch, result, hcase, htrace⟩
  · have houtcome : call.outcome = result.map .sent := congrArg Call.outcome hcase
    rcases result with _ | r
    · exact absurd houtcome hreturned
    · obtain ⟨server, hserver, hwords⟩ := htrace.words hvalid
      exact ⟨server, hserver, Or.inl ⟨randomNumber, blockTimeMs, r, congrArg Call.op hcase,
        houtcome, (hcall.valid hvalid).packet_length, hwords⟩⟩
  · have houtcome : call.outcome = result.map .received := congrArg Call.outcome hcase
    rcases result with _ | r
    · exact absurd houtcome hreturned
    · obtain ⟨server, hserver, hwords⟩ := htrace.words
      exact ⟨server, hserver, Or.inr ⟨blockTimeMs, r, congrArg Call.op hcase, houtcome, hwords⟩⟩

/-- A request that is sent on the second attempt. -/
theorem callback_protocol_of_request :
    ∃ server, (request NoAuth.noAuth).events ∈
      sendWords (twoServers NoAuth.noAuth) server (pending NoAuth.noAuth).packet 100 (.ok ()) := by
  obtain ⟨server, _, hcase⟩ := callback_protocol (twoServers_initial NoAuth.noAuth).reachable
    (request_makes NoAuth.noAuth) nofun
  rcases hcase with ⟨_, _, _, hop, houtcome, _, hwords⟩ | ⟨_, _, hop, _⟩
  · cases hop
    cases houtcome
    exact ⟨server, hwords⟩
  · cases hop

end Words

end Sntp
