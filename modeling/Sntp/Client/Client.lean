import Sntp.Client.Elapsed
import Sntp.Client.Host

/-!
# The polling client

`client.rs`: construction, `sendTimeRequest` with its send loop, and
`receiveTimeResponse` with its receive loop and `processResponse`. Every
function is the source's, branch for branch, the defensive ones included: a
missing server and a missing buffer slice are still cases here, and that they
cannot happen is a theorem about reachable clients and not a shape of the model.

The two loops have no bound of their own, so a call takes the number of rounds
it is watched for. `usize` values are natural numbers: a slice length never
exceeds `isize::MAX`, and the index stays below one, so `saturating_add(1)` and
`saturating_sub(48)` on them are plain.
-/

namespace Sntp

namespace Client

variable {A H : Type}

/-- `Client::with_authenticator`. -/
def withAuthenticator (servers : List ServerInfo) (buffer : Buffer) (responseTimeoutMs : UInt32)
    (auth : A) : Except InitError (Client A) :=
  if servers.isEmpty then .error .noServers
  else if buffer.length < packetBaseSize then .error .bufferTooSmall
  else
    .ok
      { servers
        buffer
        currentServer := 0
        currentServerAddr := 0
        lastRequestTime := .zero
        packetSize := UInt16.ofNat packetBaseSize
        responseTimeoutMs
        auth }

/-- `Client::new`. -/
def new (servers : List ServerInfo) (buffer : Buffer) (responseTimeoutMs : UInt32) :
    Except InitError (Client NoAuth) :=
  withAuthenticator servers buffer responseTimeoutMs .noAuth

/-- `Client::rotate_server`: `checked_rem` of an empty list is `None`, hence 0. -/
def rotateServer (self : Client A) : Client A :=
  { self with
    currentServer :=
      if self.servers.length = 0 then 0 else (self.currentServer + 1) % self.servers.length }

end Client

variable {A H : Type}

open ClientM

/-- `u16::saturating_add`. -/
def saturatingAddU16 (a b : UInt16) : UInt16 := UInt16.ofNatClamp (a.toNat + b.toNat)

/-- The body of the loop of `send_packet`: `none` goes round again. -/
def sendRound [SntpHost H] (address : UInt32) (port : UInt16) (blockTimeMs : UInt32) (size : ℕ)
    (started : Timestamp) : ClientM A H (Option (Except SendError Unit)) := do
  let client ← self
  match Bytes.slice client.buffer 0 size with
  | none => pure (some (.error .network))
  | some packet =>
    let answer ← sendTo address port packet
    match answer with
    | .error _ => pure (some (.error .network))
    | .ok 0 =>
      let now ← now
      if calculateElapsedMs now started ≥ blockTimeMs.toUInt64 then
        pure (some (.error .sendTimeout))
      else pure none
    -- UDP has no partial datagram
    | .ok sent => if sent ≠ size then pure (some (.error .network)) else pure (some (.ok ()))

/-- `Client::send_packet`: send it all, retrying a transport that moves nothing. -/
def sendPacket [SntpHost H] (watch : ℕ) (address : UInt32) (port : UInt16) (blockTimeMs : UInt32) :
    ClientM A H (Except SendError Unit) := do
  let client ← self
  let size := client.packetSize.toNat
  -- the retry window opens here, before the first attempt
  let started ← now
  Watch.retry (sendRound address port blockTimeMs size started) watch

/-- The authentication step of `Client::send_time_request`, which the original
calls `addClientAuthentication`. -/
def addClientAuthentication [Authenticator A] (server : ServerInfo) :
    ClientM A H (Except SendError Unit) := do
  if Authenticator.configured A then
    let generated ← generateClientAuth server
    match generated with
    | .error _ => pure (.error .auth)
    | .ok authSize =>
      let client ← self
      -- the code must fit in what is left after the base packet
      let spare := client.buffer.length - packetBaseSize
      if authSize.toNat > spare then pure (.error .auth)
      else
        update fun client =>
          { client with packetSize := saturatingAddU16 (UInt16.ofNat packetBaseSize) authSize }
        pure (.ok ())
  else pure (.ok ())

/-- `Client::send_time_request`: resolve, serialize, authenticate, send. -/
def sendTimeRequest [SntpHost H] [Authenticator A] (watch : ℕ) (randomNumber blockTimeMs : UInt32) :
    ClientM A H (Except SendError Unit) := do
  let client ← self
  match client.servers[client.currentServer]? with
  | none => pure (.error .dns)
  | some server =>
    let resolved ← resolveDns server
    match resolved with
    | none => pure (.error .dns)
    | some address =>
      update fun client => { client with currentServerAddr := address }
      let reading ← now
      update fun client => { client with lastRequestTime := reading }
      let client ← self
      let (result, requestTime, buffer) :=
        serializeRequest client.lastRequestTime randomNumber client.buffer
      update fun client => { client with lastRequestTime := requestTime, buffer := buffer }
      match result with
      | .error _ => pure (.error .network)
      | .ok () =>
        -- the packet size is deliberately not reset here
        let authenticated ← addClientAuthentication server
        match authenticated with
        | .error e => pure (.error e)
        | .ok () => sendPacket watch address server.port blockTimeMs

/-- The second half of `Client::process_response`, past the authenticator. -/
def processVerdict [SntpHost H] [Authenticator A] (server : ServerInfo) (receivedAt : Timestamp)
    (size : ℕ) : ClientM A H (Except ReceiveError Reception) := do
  let client ← self
  match Bytes.slice client.buffer 0 size with
  | none => pure (.error .network)
  | some packet =>
    match deserializeResponse client.lastRequestTime receivedAt packet with
    | .error _ => pure (.error .invalidResponse)
    | .ok (.rejected _) =>
      update Client.rotateServer
      -- without authentication the rejection may be forged, so the request
      -- stays answerable
      if Authenticator.configured A then
        update fun client => { client with lastRequestTime := .zero }
        pure (.ok .rejected)
      else pure (.ok .rejected)
    | .ok (.accepted accepted) =>
      adjustClock server accepted.serverTime accepted.clockOffsetMs accepted.leapSecond
      -- a request that has been answered must not be answerable again
      update fun client => { client with lastRequestTime := .zero }
      pure (.ok .synchronised)

/-- `Client::process_response`. -/
def processResponse [SntpHost H] [Authenticator A] (server : ServerInfo) (receivedAt : Timestamp) :
    ClientM A H (Except ReceiveError Reception) := do
  let client ← self
  let size := client.packetSize.toNat
  if Authenticator.configured A then
    let client ← self
    match Bytes.slice client.buffer 0 size with
    | none => pure (.error .network)
    | some packet =>
      let validated ← validateServerAuth server packet
      match validated with
      | .ok () => processVerdict server receivedAt size
      | .error .failed => pure (.error .auth)
      | .error .serverNotAuthenticated => pure (.error .serverNotAuthenticated)
  else processVerdict server receivedAt size

/-- The body of the loop of `receive_time_response`. -/
def receiveRound [SntpHost H] [Authenticator A] (server : ServerInfo) (address : UInt32)
    (blockTimeMs : UInt32) (size : ℕ) (started : Timestamp) :
    ClientM A H (Option (Except ReceiveError Reception)) := do
  let client ← self
  match Bytes.slice client.buffer 0 size with
  | none => pure (some (.error .network))
  | some packet =>
    let read ← recvFrom address server.port packet
    match read with
    | .error _ => pure (some (.error .network))
    | .ok n =>
      if n = size then
        let receivedAt ← now
        let result ← processResponse server receivedAt
        pure (some result)
      else if n = 0 then
        let now ← now
        let client ← self
        let sinceRequest := calculateElapsedMs now client.lastRequestTime
        let inThisCall := calculateElapsedMs now started
        if sinceRequest ≥ client.responseTimeoutMs.toUInt64 then
          update Client.rotateServer
          pure (some (.ok .timedOut))
        else if inThisCall ≥ blockTimeMs.toUInt64 then pure (some (.ok .nothingYet))
        else pure none
      -- a partial read
      else pure (some (.error .network))

/-- `Client::receive_time_response`: read, validate, and adjust the clock. -/
def receiveTimeResponse [SntpHost H] [Authenticator A] (watch : ℕ) (blockTimeMs : UInt32) :
    ClientM A H (Except ReceiveError Reception) := do
  let client ← self
  match client.servers[client.currentServer]? with
  | none => pure (.error .network)
  | some server =>
    let size := client.packetSize.toNat
    let address := client.currentServerAddr
    -- the base for the block-time window, taken before the first read
    let started ← now
    Watch.retry (receiveRound server address blockTimeMs size started) watch

end Sntp
