import Sntp.Client.Script

/-!
# The defensive branches are never taken

The source never indexes: a server that is not in the list, a window that is not
in the buffer and a field past the end of a packet all have a branch that returns
something. This file takes those branches as parameters. `Fallbacks` has one
entry for each kind, an arbitrary value or an arbitrary computation, and every
function that has such a branch is written again with the entry in its place,
under its own name with an `Or`. With the source's own entries it is the source's
function (`Fallbacks.source`).

`fallbacks_unreachable` is that the entries make no difference to a client, in any
run: what a branch would do is not done. The bounds that make it so are the
representation invariant.
-/

namespace Sntp

open ClientM Watch Transition

/-- What the defensive branches do. -/
structure Fallbacks (A H : Type) where
  /-- `NO_SERVER`. -/
  noServer : ServerInfo
  /-- `word_at` past the end. -/
  word : Option UInt32
  /-- `put_word` past the end. -/
  put : Buffer → Buffer
  /-- The `BufferTooSmall` arms of `serialize_request`. -/
  serialize : Timestamp → Buffer → Except SerializeError Unit × Timestamp × Buffer
  /-- The `BufferTooSmall` arms of `deserialize_response`. -/
  deserialize : Except DeserializeError Verdict
  /-- `send_time_request` without a server at the index. -/
  sendServer : ClientM A H (Except SendError Unit)
  /-- `send_packet` without its window of the buffer. -/
  sendWindow : ClientM A H (Option (Except SendError Unit))
  /-- `receive_time_response` without a server at the index. -/
  receiveServer : ClientM A H (Except ReceiveError Reception)
  /-- `receive_time_response` without its window of the buffer. -/
  receiveWindow : ClientM A H (Option (Except ReceiveError Reception))
  /-- `process_response` without its window of the buffer. -/
  processWindow : ClientM A H (Except ReceiveError Reception)

/-- The entries of the source. -/
def Fallbacks.source (A H : Type) : Fallbacks A H where
  noServer := ⟨"", 0⟩
  word := none
  put buf := buf
  serialize requestTime buffer := (.error .bufferTooSmall, requestTime, buffer)
  deserialize := .error .bufferTooSmall
  sendServer := pure (.error .dns)
  sendWindow := pure (some (.error .network))
  receiveServer := pure (.error .network)
  receiveWindow := pure (some (.error .network))
  processWindow := pure (.error .network)

section Codec

variable {A H : Type} (F : Fallbacks A H)

/-- `Client::current_server`, with `noServer` for an index past the list. -/
def Client.currentServerOr (c : Client A) : ServerInfo :=
  c.servers[c.currentServer]?.getD F.noServer

/-- `word_at`, with `word` past the end. -/
def wordAtOr (buf : Buffer) (offset : ℕ) : Option UInt32 :=
  match Bytes.slice buf offset (offset + 4) with
  | some [a, b, c, d] => some (Bytes.ofBeBytes a b c d)
  | _ => F.word

/-- `put_word`, with `put` past the end. -/
def putWordOr (buf : Buffer) (offset : ℕ) (value : UInt32) : Buffer :=
  if offset + 4 ≤ buf.length then Bytes.splice buf offset (Bytes.toBeBytes value) else F.put buf

/-- The timestamp in two fields: both words in reach, or none. -/
def timestampAtOr (buf : Buffer) (secondsAt fractionsAt : ℕ) : Option Timestamp :=
  match wordAtOr F buf secondsAt, wordAtOr F buf fractionsAt with
  | some seconds, some fractions => some ⟨seconds, fractions⟩
  | _, _ => none

/-- `serialize_request`, with `serialize` for a short buffer. -/
def serializeRequestOr (requestTime : Timestamp) (randomNumber : UInt32) (buffer : Buffer) :
    Except SerializeError Unit × Timestamp × Buffer :=
  if buffer.length < packetBaseSize then F.serialize requestTime buffer
  else if requestTime.isZero then (.error .badParameter, requestTime, buffer)
  else
    match Bytes.slice buffer 0 packetBaseSize with
    | none => F.serialize requestTime buffer
    | some packet =>
      let packet := List.replicate packet.length 0
      let packet :=
        packet.set Field.leapVersionMode ((version <<< versionLsbPosition) ||| modeClient)
      let requestTime :=
        { requestTime with fractions := requestTime.fractions ||| (randomNumber >>> 16) }
      let packet := putWordOr F packet Field.transmitSeconds requestTime.seconds
      let packet := putWordOr F packet Field.transmitFractions requestTime.fractions
      (.ok (), requestTime, Bytes.splice buffer 0 packet)

/-- `deserialize_response`, with `deserialize` for a packet that ends before a field. -/
def deserializeResponseOr (requestTime responseRxTime : Timestamp) (buffer : Buffer) :
    Except DeserializeError Verdict :=
  if buffer.length < packetBaseSize then F.deserialize
  else if requestTime.isZero then .error .badParameter
  else
    match buffer[Field.leapVersionMode]? with
    | none => F.deserialize
    | some leapVersionMode =>
      if leapVersionMode &&& modeBitsMask ≠ modeServer then .error .invalidResponse
      else
        match timestampAtOr F buffer Field.originSeconds Field.originFractions,
          timestampAtOr F buffer Field.receiveSeconds Field.receiveFractions,
          timestampAtOr F buffer Field.transmitSeconds Field.transmitFractions with
        | some origin, some receive, some transmit =>
          if origin.isZero || receive.isZero || transmit.isZero then .error .invalidResponse
          else if origin ≠ requestTime then .error .invalidResponse
          else
            match buffer[Field.stratum]? with
            | none => F.deserialize
            | some stratum =>
              if stratum = kissOfDeathStratum then
                match wordAtOr F buffer Field.refId with
                | none => F.deserialize
                | some code => .ok (.rejected ⟨code, rejectionKind code⟩)
              else
                .ok (.accepted ⟨transmit, leapSecondOf leapVersionMode,
                  calculateClockOffset requestTime receive transmit responseRxTime⟩)
        | _, _, _ => F.deserialize

end Codec

section Client

variable {A H : Type} [SntpHost H] [Authenticator A] (F : Fallbacks A H)

/-- One attempt of `send_packet`, with `sendWindow` for a request the buffer does not hold. -/
def sendRoundOr (address : UInt32) (port : UInt16) (blockTimeMs : UInt32) (size : ℕ)
    (started : Timestamp) : ClientM A H (Option (Except SendError Unit)) := do
  let client ← self
  match Bytes.slice client.buffer 0 size with
  | none => F.sendWindow
  | some packet =>
    let answer ← sendTo address port packet
    match answer with
    | .error _ => pure (some (.error .network))
    | .ok 0 =>
      let now ← now
      if calculateElapsedMs now started ≥ blockTimeMs.toUInt64 then
        pure (some (.error .sendTimeout))
      else pure none
    | .ok sent => if sent ≠ size then pure (some (.error .network)) else pure (some (.ok ()))

/-- `send_packet`, of these attempts. -/
def sendPacketOr (watch : ℕ) (address : UInt32) (port : UInt16) (blockTimeMs : UInt32) :
    ClientM A H (Except SendError Unit) := do
  let client ← self
  let size := client.packetSize.toNat
  let started ← now
  Watch.retry (sendRoundOr F address port blockTimeMs size started) watch

/-- `send_time_request`, with `sendServer` for an index past the list. -/
def sendTimeRequestOr (watch : ℕ) (randomNumber blockTimeMs : UInt32) :
    ClientM A H (Except SendError Unit) := do
  let client ← self
  match client.servers[client.currentServer]? with
  | none => F.sendServer
  | some server =>
    let resolved ← resolveDns server
    match resolved with
    | none => pure (.error .dns)
    | some address =>
      update fun client => { client with currentServerAddr := address }
      let reading ← now
      update fun client => { client with lastRequestTime := reading }
      let client ← self
      let (result, requestTime, buffer) :=
        serializeRequestOr F client.lastRequestTime randomNumber client.buffer
      update fun client => { client with lastRequestTime := requestTime, buffer := buffer }
      match result with
      | .error _ => pure (.error .network)
      | .ok () =>
        let authenticated ← addClientAuthentication server
        match authenticated with
        | .error e => pure (.error e)
        | .ok () => sendPacketOr F watch address server.port blockTimeMs

/-- The second half of `process_response`, with `processWindow` for the packet it judges. -/
def processVerdictOr (server : ServerInfo) (receivedAt : Timestamp) (size : ℕ) :
    ClientM A H (Except ReceiveError Reception) := do
  let client ← self
  match Bytes.slice client.buffer 0 size with
  | none => F.processWindow
  | some packet =>
    match deserializeResponseOr F client.lastRequestTime receivedAt packet with
    | .error _ => pure (.error .invalidResponse)
    | .ok (.rejected _) =>
      update Client.rotateServer
      if Authenticator.configured A then
        update fun client => { client with lastRequestTime := .zero }
        pure (.ok .rejected)
      else pure (.ok .rejected)
    | .ok (.accepted accepted) =>
      adjustClock server accepted.serverTime accepted.clockOffsetMs accepted.leapSecond
      update fun client => { client with lastRequestTime := .zero }
      pure (.ok .synchronised)

/-- `process_response`, with `processWindow` for the packet it validates as well. -/
def processResponseOr (server : ServerInfo) (receivedAt : Timestamp) :
    ClientM A H (Except ReceiveError Reception) := do
  let client ← self
  let size := client.packetSize.toNat
  if Authenticator.configured A then
    let client ← self
    match Bytes.slice client.buffer 0 size with
    | none => F.processWindow
    | some packet =>
      let validated ← validateServerAuth server packet
      match validated with
      | .ok () => processVerdictOr F server receivedAt size
      | .error .failed => pure (.error .auth)
      | .error .serverNotAuthenticated => pure (.error .serverNotAuthenticated)
  else processVerdictOr F server receivedAt size

/-- One attempt of `receive_time_response`, with `receiveWindow` for the packet it reads into. -/
def receiveRoundOr (server : ServerInfo) (address : UInt32) (blockTimeMs : UInt32) (size : ℕ)
    (started : Timestamp) : ClientM A H (Option (Except ReceiveError Reception)) := do
  let client ← self
  match Bytes.slice client.buffer 0 size with
  | none => F.receiveWindow
  | some packet =>
    let read ← recvFrom address server.port packet
    match read with
    | .error _ => pure (some (.error .network))
    | .ok n =>
      if n = size then
        let receivedAt ← now
        let result ← processResponseOr F server receivedAt
        pure (some result)
      else if n = 0 then
        let now ← now
        let client ← self
        let sinceRequest := calculateElapsedMs now client.lastRequestTime
        let inThisCall := calculateElapsedMs now started
        if sinceRequest ≥ client.responseTimeoutMs.toUInt64 then
          update Client.rotateServer
          pure (some (.ok .timedOut))
        else if inThisCall ≥ blockTimeMs.toUInt64 then pure (some (.ok .nothingYet))
        else pure none
      else pure (some (.error .network))

/-- `receive_time_response`, with `receiveServer` for an index past the list. -/
def receiveTimeResponseOr (watch : ℕ) (blockTimeMs : UInt32) :
    ClientM A H (Except ReceiveError Reception) := do
  let client ← self
  match client.servers[client.currentServer]? with
  | none => F.receiveServer
  | some server =>
    let size := client.packetSize.toNat
    let address := client.currentServerAddr
    let started ← now
    Watch.retry (receiveRoundOr F server address blockTimeMs size started) watch

/-- One call of a run. -/
def performOr (watch : ℕ) (op : Op) (c : Client A) (host : H) : Call A × H :=
  match op with
  | .send randomNumber blockTimeMs =>
    let (result, w) := (sendTimeRequestOr F watch randomNumber blockTimeMs).run ⟨c, host, []⟩
    (⟨op, c, w.log, result.map .sent, w.client⟩, w.host)
  | .receive blockTimeMs =>
    let (result, w) := (receiveTimeResponseOr F watch blockTimeMs).run ⟨c, host, []⟩
    (⟨op, c, w.log, result.map .received, w.client⟩, w.host)

/-- A run: the calls one after the other, on one host. -/
def performAllOr (watch : ℕ) : List Op → Client A → H → List (Call A) × Client A × H
  | [], c, host => ([], c, host)
  | op :: ops, c, host =>
    let (call, host) := performOr F watch op c host
    let (calls, c', host) := performAllOr watch ops call.after host
    (call :: calls, c', host)

end Client

/-! ## With the source's entries, the source's functions -/

section Source

variable {A H : Type} [SntpHost H] [Authenticator A]

theorem sendTimeRequestOr_source (watch : ℕ) (randomNumber blockTimeMs : UInt32) :
    sendTimeRequestOr (Fallbacks.source A H) watch randomNumber blockTimeMs
      = sendTimeRequest watch randomNumber blockTimeMs := rfl

theorem receiveTimeResponseOr_source (watch : ℕ) (blockTimeMs : UInt32) :
    receiveTimeResponseOr (Fallbacks.source A H) watch blockTimeMs
      = receiveTimeResponse watch blockTimeMs := rfl

end Source

/-! ## They are not taken: the codec -/

section CodecAgrees

variable {A H : Type} (F : Fallbacks A H)

theorem wordAtOr_eq {buf : Buffer} {offset : ℕ} (h : offset + 4 ≤ buf.length) :
    wordAtOr F buf offset = wordAt buf offset := by
  obtain ⟨x, hx⟩ := wordAt_isSome h
  rw [hx]
  unfold wordAt at hx
  split at hx
  next a b c d hslice =>
    unfold wordAtOr
    rw [hslice]
    exact hx
  next => cases hx

theorem putWordOr_eq {buf : Buffer} {offset : ℕ} (h : offset + 4 ≤ buf.length) (value : UInt32) :
    putWordOr F buf offset value = putWord buf offset value := by
  rw [putWordOr, putWord, if_pos h, if_pos h]

theorem putWord_length (buf : Buffer) (offset : ℕ) (value : UInt32) :
    (putWord buf offset value).length = buf.length := by
  unfold putWord
  split
  next h => exact Bytes.splice_length h
  next => rfl

theorem timestampAtOr_eq {buf : Buffer} {secondsAt fractionsAt : ℕ}
    (hseconds : secondsAt + 4 ≤ buf.length) (hfractions : fractionsAt + 4 ≤ buf.length) :
    timestampAtOr F buf secondsAt fractionsAt = timestampAt buf secondsAt fractionsAt := by
  rw [timestampAtOr, wordAtOr_eq F hseconds, wordAtOr_eq F hfractions]
  rfl

theorem serializeRequestOr_eq {buffer : Buffer} (hlen : packetBaseSize ≤ buffer.length)
    (requestTime : Timestamp) (randomNumber : UInt32) :
    serializeRequestOr F requestTime randomNumber buffer
      = serializeRequest requestTime randomNumber buffer := by
  have hlen' : 48 ≤ buffer.length := hlen
  have htake : (buffer.take packetBaseSize).length = 48 := by
    rw [List.length_take, packetBaseSize]
    omega
  unfold serializeRequestOr serializeRequest
  rw [if_neg (Nat.not_lt.mpr hlen), if_neg (Nat.not_lt.mpr hlen), Bytes.slice_zero hlen]
  split
  · rfl
  · simp only [htake]
    -- both words lie inside the 48 bytes of the packet
    have hpacket : ((List.replicate 48 (0 : UInt8)).set Field.leapVersionMode
        ((version <<< versionLsbPosition) ||| modeClient)).length = 48 := rfl
    rw [putWordOr_eq F (by rw [hpacket]; decide) requestTime.seconds,
      putWordOr_eq F (by rw [putWord_length, hpacket]; decide)]

theorem deserializeResponseOr_eq {buffer : Buffer} (hlen : packetBaseSize ≤ buffer.length)
    (requestTime responseRxTime : Timestamp) :
    deserializeResponseOr F requestTime responseRxTime buffer
      = deserializeResponse requestTime responseRxTime buffer := by
  have hlen' : 48 ≤ buffer.length := hlen
  obtain ⟨header, hof⟩ := Header.exists_of hlen
  have hat : ∀ s f : ℕ, s + 4 ≤ 48 → f + 4 ≤ 48 →
      timestampAtOr F buffer s f = timestampAt buffer s f := by
    intro s f hs hf
    exact timestampAtOr_eq F (by omega) (by omega)
  have hrefId : wordAtOr F buffer Field.refId = wordAt buffer Field.refId :=
    wordAtOr_eq F (by unfold Field.refId; omega)
  unfold deserializeResponseOr deserializeResponse
  rw [if_neg (Nat.not_lt.mpr hlen), if_neg (Nat.not_lt.mpr hlen), hof.leapVersionMode,
    hof.stratum, hat _ _ (by decide) (by decide), hat _ _ (by decide) (by decide),
    hat _ _ (by decide) (by decide), hrefId, hof.origin, hof.receive, hof.transmit, hof.refId]

end CodecAgrees

/-! ## They are not taken: the client -/

section ClientAgrees

variable {A H : Type} [SntpHost H] [Authenticator A] (F : Fallbacks A H) {c : Client A}
  {w w' : World A H}

omit [Authenticator A] in
theorem resolveDns_client {server : ServerInfo} {answer : Option UInt32}
    (h : (resolveDns server : ClientM A H _).run w = (some answer, w')) : w'.client = w.client := by
  cases h
  rfl

omit [Authenticator A] in
theorem now_client {t : Timestamp} (h : (now : ClientM A H _).run w = (some t, w')) :
    w'.client = w.client := by
  cases h
  rfl

omit [Authenticator A] in
theorem recvFrom_client {address : UInt32} {port : UInt16} {packet : Buffer}
    {read : Except NetworkError ℕ}
    (h : (recvFrom address port packet : ClientM A H _).run w = (some read, w')) :
    ∃ filled, filled.length = packet.length ∧
      w'.client = { w.client with buffer := Bytes.splice w.client.buffer 0 filled } := by
  cases h
  exact ⟨_, (SntpHost.recvFrom w.host address port packet).2.1.property, rfl⟩

omit [SntpHost H] in
theorem validateServerAuth_client {server : ServerInfo} {packet : Buffer}
    {answer : Except AuthError Unit}
    (h : (validateServerAuth server packet : ClientM A H _).run w = (some answer, w')) :
    ∃ auth, w'.client = { w.client with auth } := by
  cases h
  exact ⟨_, rfl⟩

omit [SntpHost H] in
theorem addClientAuthentication_valid {server : ServerInfo} (hvalid : w.client.Valid)
    (h : (addClientAuthentication server : ClientM A H _).run w = (some (.ok ()), w')) :
    w'.client.Valid := by
  obtain ⟨events, result, w₁, hrun, _, hcase⟩ := addClientAuthentication_trace server w
  cases hrun.symm.trans h
  rcases hcase with ⟨_, hsigns⟩ | ⟨hrefused, _⟩
  · exact hsigns.valid hvalid
  · cases hrefused

theorem sendRoundOr_eq (hvalid : c.Valid) (address : UInt32) (port : UInt16)
    (blockTimeMs : UInt32) (started : Timestamp) (hclient : c = w.client) :
    (sendRound address port blockTimeMs c.packetSize.toNat started).run w
      = (sendRoundOr F address port blockTimeMs c.packetSize.toNat started).run w := by
  unfold sendRoundOr sendRound
  rw [run_self_bind, run_self_bind, ← hclient]
  rcases hslice : Bytes.slice c.buffer 0 c.packetSize.toNat with _ | packet
  · rw [Bytes.slice_zero hvalid.fits] at hslice
    cases hslice
  · rfl

theorem sendPacketOr_eq (hvalid : w.client.Valid) (watch : ℕ) (address : UInt32) (port : UInt16)
    (blockTimeMs : UInt32) :
    (sendPacketOr F watch address port blockTimeMs).run w
      = (sendPacket watch address port blockTimeMs).run w := by
  simp only [sendPacketOr, sendPacket, run_self_bind]
  refine run_bind_congr ?_
  intro started w₁ hnow
  symm
  -- the loop does not touch the client
  refine retry_congr (I := fun w' => w.client = w'.client) ?_ ?_ watch (now_client hnow).symm
  · intro s hs
    exact sendRoundOr_eq F hvalid address port blockTimeMs started hs
  · intro s s' hs hagain
    rcases sendRound_trace hvalid address port blockTimeMs started s hs with
      ⟨_, _, hrun, _, hkeep⟩ | ⟨_, _, hrun, _⟩
    · cases hrun.symm.trans hagain
      exact hkeep
    · cases hrun.symm.trans hagain

theorem sendTimeRequestOr_eq (hvalid : w.client.Valid) (watch : ℕ)
    (randomNumber blockTimeMs : UInt32) :
    (sendTimeRequestOr F watch randomNumber blockTimeMs).run w
      = (sendTimeRequest watch randomNumber blockTimeMs).run w := by
  obtain ⟨server, hserver⟩ := hvalid.server
  simp only [sendTimeRequestOr, sendTimeRequest, run_self_bind, hserver]
  refine run_bind_congr ?_
  intro resolved w₁ hresolve
  rcases resolved with _ | address
  · rfl
  · simp only [run_update_bind]
    refine run_bind_congr ?_
    intro reading w₂ hnow
    have hclient : w₂.client = { w.client with currentServerAddr := address } := by
      rw [now_client hnow, resolveDns_client hresolve]
    simp only [run_update_bind, run_self_bind, hclient, serializeRequestOr_eq F hvalid.buffer_base]
    by_cases hreading : reading = .zero
    · subst hreading
      rw [serializeRequest_zero hvalid.buffer_base]
    · simp only [serializeRequest_ok hvalid.buffer_base hreading]
      refine run_bind_congr ?_
      intro authenticated w₄ hauth
      rcases authenticated with e | ⟨⟨⟩⟩
      · rfl
      · exact sendPacketOr_eq F (addClientAuthentication_valid
          (hvalid.requested address reading randomNumber) hauth) watch address server.port
          blockTimeMs

theorem processVerdictOr_eq {size : ℕ} (hbase : packetBaseSize ≤ size)
    (hfits : size ≤ w.client.buffer.length) (server : ServerInfo) (receivedAt : Timestamp) :
    (processVerdictOr F server receivedAt size).run w
      = (processVerdict server receivedAt size).run w := by
  unfold processVerdictOr processVerdict
  rw [run_self_bind, run_self_bind]
  rcases hslice : Bytes.slice w.client.buffer 0 size with _ | packet
  · rw [Bytes.slice_zero hfits] at hslice
    cases hslice
  · have hlen : packetBaseSize ≤ packet.length := by
      rw [Bytes.slice_zero hfits, Option.some_inj] at hslice
      rw [← hslice, List.length_take_of_le hfits]
      exact hbase
    have hsame := deserializeResponseOr_eq F hlen w.client.lastRequestTime receivedAt
    dsimp only
    generalize deserializeResponseOr F w.client.lastRequestTime receivedAt packet = verdict
      at hsame ⊢
    subst hsame
    rfl

theorem processResponseOr_eq (hbase : packetBaseSize ≤ w.client.packetSize.toNat)
    (hfits : w.client.packetSize.toNat ≤ w.client.buffer.length) (server : ServerInfo)
    (receivedAt : Timestamp) :
    (processResponseOr F server receivedAt).run w
      = (processResponse server receivedAt).run w := by
  simp only [processResponseOr, processResponse, run_self_bind]
  split
  · simp only [run_self_bind, Bytes.slice_zero hfits]
    refine run_bind_congr ?_
    intro answer w₁ hvalidate
    obtain ⟨auth, hclient⟩ := validateServerAuth_client hvalidate
    rcases answer with e | ⟨⟨⟩⟩
    · cases e <;> rfl
    · exact processVerdictOr_eq F hbase (by rw [hclient]; exact hfits) server receivedAt
  · exact processVerdictOr_eq F hbase hfits server receivedAt

theorem receiveRoundOr_eq (hvalid : c.Valid) (server : ServerInfo) (address : UInt32)
    (blockTimeMs : UInt32) (started : Timestamp) (halike : c.Alike w.client) :
    (receiveRound server address blockTimeMs c.packetSize.toNat started).run w
      = (receiveRoundOr F server address blockTimeMs c.packetSize.toNat started).run w := by
  obtain ⟨buffer, auth, hbuffer, hclient⟩ := halike
  have hlen : c.packetSize.toNat ≤ w.client.buffer.length := by
    rw [hclient]
    exact hbuffer ▸ hvalid.fits
  simp only [receiveRoundOr, receiveRound, run_self_bind, Bytes.slice_zero hlen]
  refine run_bind_congr ?_
  intro read w₁ hread
  rcases read with e | n
  · rfl
  · by_cases hfull : n = c.packetSize.toNat
    · simp only [if_pos hfull]
      refine run_bind_congr ?_
      intro receivedAt w₂ hnow
      obtain ⟨filled, hfilled, hclient₁⟩ := recvFrom_client hread
      rw [List.length_take_of_le hlen] at hfilled
      have hsize : w₂.client.packetSize = c.packetSize := by
        rw [now_client hnow, hclient₁, hclient]
      have hfits : c.packetSize.toNat ≤ w₂.client.buffer.length := by
        rw [now_client hnow, hclient₁, Bytes.splice_length (by omega)]
        exact hlen
      symm
      exact run_bind_left (processResponseOr_eq F (hsize ▸ hvalid.base) (hsize ▸ hfits) server
        receivedAt) _
    · simp only [if_neg hfull]

theorem receiveTimeResponseOr_eq (hvalid : w.client.Valid) (watch : ℕ) (blockTimeMs : UInt32) :
    (receiveTimeResponseOr F watch blockTimeMs).run w
      = (receiveTimeResponse watch blockTimeMs).run w := by
  obtain ⟨server, hserver⟩ := hvalid.server
  simp only [receiveTimeResponseOr, receiveTimeResponse, run_self_bind, hserver]
  refine run_bind_congr ?_
  intro started w₁ hnow
  have halike : w.client.Alike w₁.client := ⟨_, _, rfl, now_client hnow⟩
  symm
  -- the loop touches the buffer and the authenticator's state while it goes on
  refine retry_congr (I := fun w' => w.client.Alike w'.client) ?_ ?_ watch halike
  · intro s hs
    exact receiveRoundOr_eq F hvalid server w.client.currentServerAddr blockTimeMs started hs
  · intro s s' hs hagain
    rcases receiveRound_trace hvalid server blockTimeMs started s hs with
      ⟨_, _, hrun, _, hkeep⟩ | ⟨_, _, hrun, _⟩
    · cases hrun.symm.trans hagain
      exact hkeep
    · cases hrun.symm.trans hagain

theorem performOr_eq (hvalid : c.Valid) (watch : ℕ) (op : Op) (host : H) :
    performOr F watch op c host = perform watch op c host := by
  cases op with
  | send randomNumber blockTimeMs =>
    rw [performOr, sendTimeRequestOr_eq F hvalid]
    rfl
  | receive blockTimeMs =>
    rw [performOr, receiveTimeResponseOr_eq F hvalid]
    rfl

end ClientAgrees

/-- **The defensive branches are never taken.** In every state a client can reach
its index names a server and its packet fits its buffer, so what those branches
would do, whatever it is, makes no difference to any run. -/
theorem fallbacks_unreachable {A : Type} [Authenticator A] {c₀ : Client A} (h₀ : Initial c₀) :
    (∀ calls c, Run Makes c₀ calls c → c.currentServer < c.servers.length ∧
      48 ≤ c.packetSize.toNat ∧ c.packetSize.toNat ≤ c.buffer.length ∧
      (Authenticator.configured A = false → c.packetSize.toNat = 48)) ∧
    ∀ (H : Type) [SntpHost H] (F : Fallbacks A H),
      (∀ calls c, Run Makes c₀ calls c →
        c.currentServerOr F = c.currentServerOr (Fallbacks.source A H)) ∧
      ∀ watch ops host, performAllOr F watch ops c₀ host = performAll watch ops c₀ host := by
  have hvalid : ∀ calls c, Run Makes c₀ calls c → c.Valid :=
    fun calls c hrun => Reachable.valid ⟨c₀, calls, h₀, hrun⟩
  refine ⟨?_, ?_⟩
  · intro calls c hrun
    have hc := hvalid calls c hrun
    exact ⟨hc.index, hc.base, hc.fits, hc.bare⟩
  · intro H _ F
    refine ⟨?_, ?_⟩
    · intro calls c hrun
      obtain ⟨server, hserver⟩ := (hvalid calls c hrun).server
      rw [Client.currentServerOr, Client.currentServerOr, hserver]
      rfl
    · intro watch ops host
      have hall : ∀ ops (c : Client A) host, c.Valid →
          performAllOr F watch ops c host = performAll watch ops c host := by
        intro ops
        induction ops with
        | nil => exact fun _ _ _ => rfl
        | cons op ops ih =>
          intro c host hc
          have hmakes := perform_makes watch op c host
          rw [performAllOr, performOr_eq F hc, performAll]
          simp only [ih _ _ (hmakes.valid hc)]
      exact hall ops c₀ host h₀.valid

/-- Branches that all succeed, having done nothing. -/
def Fallbacks.silent (A H : Type) : Fallbacks A H where
  noServer := ⟨"", 123⟩
  word := some 0
  put _ := []
  serialize requestTime buffer := (.ok (), requestTime, buffer)
  deserialize := .ok (.accepted ⟨.zero, .none, 0⟩)
  sendServer := pure (.ok ())
  sendWindow := pure (some (.ok ()))
  receiveServer := pure (.ok .synchronised)
  receiveWindow := pure (some (.ok .synchronised))
  processWindow := pure (.ok .synchronised)

/-- With those, the request is still made as it was. -/
theorem fallbacks_unreachable_of_request :
    (pending NoAuth.noAuth).packetSize.toNat = 48 ∧
      performAllOr (Fallbacks.silent NoAuth Script) 2 [.send 0 100] (twoServers NoAuth.noAuth)
          sentAt1000
        = performAll 2 [.send 0 100] (twoServers NoAuth.noAuth) sentAt1000 := by
  obtain ⟨hbounds, hruns⟩ := fallbacks_unreachable (twoServers_initial NoAuth.noAuth)
  obtain ⟨_, _, _, hbare⟩ := hbounds _ _ (.single (request_makes NoAuth.noAuth))
  exact ⟨hbare rfl, (hruns Script (Fallbacks.silent NoAuth Script)).2 2 [.send 0 100] sentAt1000⟩

end Sntp
