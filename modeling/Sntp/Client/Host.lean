import Sntp.Lib.Watch
import Sntp.Wire.Packet

/-!
# The client's seam: host, authenticator, and the callbacks between

The client is a state machine over callbacks. `SntpHost` and `Authenticator`
are the two traits it is written against, each method a step of the
implementor's own state, so a host or an authenticator here is *any* answering
strategy, adaptive or hostile. A `&mut [u8]` argument comes back as a `Filled`
buffer: the callee may rewrite every byte and cannot change the length.

A `World` is what one call runs in: the client, the host, and the log of the
callbacks made so far, each with its arguments and its answer. The log is a
ghost: nothing reads it. `ClientM` is a watched computation in that world, and
the primitives below are the only ways to reach a callback, so what is logged is
exactly what was called.
-/

namespace Sntp

/-- A time server: a name to resolve, and a port to reach it on. -/
structure ServerInfo where
  name : String
  port : UInt16
deriving DecidableEq, Repr

/-- Something went wrong in the transport itself. -/
inductive NetworkError
  | networkError
deriving DecidableEq, Repr

/-- Why an authentication callback refused. -/
inductive AuthError
  | failed
  | serverNotAuthenticated
deriving DecidableEq, Repr

/-- Why a client could not be built. -/
inductive InitError
  | noServers
  | bufferTooSmall
deriving DecidableEq, Repr

/-- Why a time request could not be sent. -/
inductive SendError
  | dns
  | network
  | sendTimeout
  | auth
deriving DecidableEq, Repr

/-- What happened while waiting for a response. -/
inductive Reception
  | synchronised
  | nothingYet
  | rejected
  | timedOut
deriving DecidableEq, Repr

/-- Why a response could not be used. -/
inductive ReceiveError
  | network
  | invalidResponse
  | auth
  | serverNotAuthenticated
deriving DecidableEq, Repr

/-- What a callee can leave in a `&mut [u8]`: other bytes, as many of them. -/
abbrev Filled (buffer : Buffer) := { filled : Buffer // filled.length = buffer.length }

/-- What a callee that writes nothing leaves. -/
def Filled.untouched (buffer : Buffer) : Filled buffer := ⟨buffer, rfl⟩

/-- `trait SntpHost`. -/
class SntpHost (H : Type) where
  resolveDns : H → ServerInfo → Option UInt32 × H
  now : H → Timestamp × H
  adjustClock : H → ServerInfo → Timestamp → Int64 → LeapSecond → H
  sendTo : H → UInt32 → UInt16 → Buffer → Except NetworkError ℕ × H
  recvFrom : H → UInt32 → UInt16 → (buffer : Buffer) → Except NetworkError ℕ × Filled buffer × H

/-- `trait Authenticator`, with `configured` for the constant `CONFIGURED`. -/
class Authenticator (A : Type) where
  configured : Bool
  generateClientAuth :
    A → ServerInfo → (buffer : Buffer) → Except AuthError UInt16 × Filled buffer × A
  validateServerAuth : A → ServerInfo → Buffer → Except AuthError Unit × A

/-- No authentication. -/
inductive NoAuth
  | noAuth
deriving DecidableEq, Repr

instance : Authenticator NoAuth where
  configured := false
  generateClientAuth auth _ buffer := (.ok 0, ⟨buffer, rfl⟩, auth)
  validateServerAuth auth _ _ := (.ok (), auth)

/-- `struct Client`. -/
structure Client (A : Type) where
  servers : List ServerInfo
  buffer : Buffer
  currentServer : ℕ
  currentServerAddr : UInt32
  lastRequestTime : Timestamp
  packetSize : UInt16
  responseTimeoutMs : UInt32
  auth : A

/-- One callback, with its arguments and its answer. A buffer handed out for
writing is logged as it went out and as it came back. -/
inductive Event
  | resolveDns (server : ServerInfo) (answer : Option UInt32)
  | now (answer : Timestamp)
  | adjustClock (server : ServerInfo) (serverTime : Timestamp) (offsetMs : Int64)
      (leapSecond : LeapSecond)
  | sendTo (address : UInt32) (port : UInt16) (buffer : Buffer) (answer : Except NetworkError ℕ)
  | recvFrom (address : UInt32) (port : UInt16) (buffer filled : Buffer)
      (answer : Except NetworkError ℕ)
  | generateClientAuth (server : ServerInfo) (buffer filled : Buffer)
      (answer : Except AuthError UInt16)
  | validateServerAuth (server : ServerInfo) (packet : Buffer) (answer : Except AuthError Unit)

/-- What one call of the client runs in. -/
structure World (A H : Type) where
  client : Client A
  host : H
  log : List Event

/-- Code of the client: it reads and writes such a world, and may not return. -/
abbrev ClientM (A H α : Type) := Watch (World A H) α

namespace ClientM

variable {A H : Type}

/-- `&self`. -/
def self : ClientM A H (Client A) := Watch.step fun w => (w.client, w)

/-- `&mut self`. -/
def update (f : Client A → Client A) : ClientM A H Unit :=
  Watch.step fun w => ((), { w with client := f w.client })

section Host

variable [SntpHost H]

/-- `resolve_dns`, on record. -/
def resolveDns (server : ServerInfo) : ClientM A H (Option UInt32) :=
  Watch.step fun w =>
    let (answer, host) := SntpHost.resolveDns w.host server
    (answer, { w with host, log := w.log ++ [.resolveDns server answer] })

/-- `now`, on record. -/
def now : ClientM A H Timestamp :=
  Watch.step fun w =>
    let (answer, host) := SntpHost.now w.host
    (answer, { w with host, log := w.log ++ [.now answer] })

/-- `adjust_clock`, on record. -/
def adjustClock (server : ServerInfo) (serverTime : Timestamp) (offsetMs : Int64)
    (leapSecond : LeapSecond) : ClientM A H Unit :=
  Watch.step fun w =>
    let host := SntpHost.adjustClock w.host server serverTime offsetMs leapSecond
    ((), { w with host, log := w.log ++ [.adjustClock server serverTime offsetMs leapSecond] })

/-- `send_to`, on record. -/
def sendTo (address : UInt32) (port : UInt16) (buffer : Buffer) :
    ClientM A H (Except NetworkError ℕ) :=
  Watch.step fun w =>
    let (answer, host) := SntpHost.sendTo w.host address port buffer
    (answer, { w with host, log := w.log ++ [.sendTo address port buffer answer] })

/-- `recv_from` into `packet`, the window at the front of the client's buffer. -/
def recvFrom (address : UInt32) (port : UInt16) (packet : Buffer) :
    ClientM A H (Except NetworkError ℕ) :=
  Watch.step fun w =>
    let (answer, filled, host) := SntpHost.recvFrom w.host address port packet
    (answer,
      { client := { w.client with buffer := Bytes.splice w.client.buffer 0 filled.val }
        host
        log := w.log ++ [.recvFrom address port packet filled.val answer] })

end Host

section Authenticator

variable [Authenticator A]

/-- `self.auth.generate_client_auth(server, self.buffer)`. -/
def generateClientAuth (server : ServerInfo) : ClientM A H (Except AuthError UInt16) :=
  Watch.step fun w =>
    let (answer, filled, auth) :=
      Authenticator.generateClientAuth w.client.auth server w.client.buffer
    (answer,
      { w with
        client := { w.client with buffer := filled.val, auth }
        log := w.log ++ [.generateClientAuth server w.client.buffer filled.val answer] })

/-- `self.auth.validate_server_auth(server, packet)`. -/
def validateServerAuth (server : ServerInfo) (packet : Buffer) :
    ClientM A H (Except AuthError Unit) :=
  Watch.step fun w =>
    let (answer, auth) := Authenticator.validateServerAuth w.client.auth server packet
    (answer,
      { w with
        client := { w.client with auth }
        log := w.log ++ [.validateServerAuth server packet answer] })

end Authenticator

/-! Each primitive in front of a continuation: the answer it got, and the world
it went on in. A call is executed by these and never by unfolding a primitive. -/

section Run

variable {α : Type} (w : World A H)

@[simp] theorem run_self_bind (f : Client A → ClientM A H α) :
    (self >>= f).run w = (f w.client).run w :=
  Watch.run_bind_some rfl

@[simp] theorem run_update_bind (g : Client A → Client A) (f : Unit → ClientM A H α) :
    (update g >>= f).run w = (f ()).run { w with client := g w.client } :=
  Watch.run_bind_some rfl

variable [SntpHost H]

theorem run_resolveDns_bind (server : ServerInfo) (f : Option UInt32 → ClientM A H α) :
    ∃ answer w', (resolveDns server >>= f).run w = (f answer).run w' ∧
      w'.log = w.log ++ [.resolveDns server answer] ∧ w'.client = w.client :=
  ⟨_, _, rfl, rfl, rfl⟩

theorem run_now_bind (f : Timestamp → ClientM A H α) :
    ∃ answer w', (now >>= f).run w = (f answer).run w' ∧
      w'.log = w.log ++ [.now answer] ∧ w'.client = w.client :=
  ⟨_, _, rfl, rfl, rfl⟩

theorem run_adjustClock_bind (server : ServerInfo) (serverTime : Timestamp) (offsetMs : Int64)
    (leapSecond : LeapSecond) (f : Unit → ClientM A H α) :
    ∃ w', (adjustClock server serverTime offsetMs leapSecond >>= f).run w = (f ()).run w' ∧
      w'.log = w.log ++ [.adjustClock server serverTime offsetMs leapSecond] ∧
      w'.client = w.client :=
  ⟨_, rfl, rfl, rfl⟩

theorem run_sendTo_bind (address : UInt32) (port : UInt16) (packet : Buffer)
    (f : Except NetworkError ℕ → ClientM A H α) :
    ∃ answer w', (sendTo address port packet >>= f).run w = (f answer).run w' ∧
      w'.log = w.log ++ [.sendTo address port packet answer] ∧ w'.client = w.client :=
  ⟨_, _, rfl, rfl, rfl⟩

theorem run_recvFrom_bind (address : UInt32) (port : UInt16) (packet : Buffer)
    (f : Except NetworkError ℕ → ClientM A H α) :
    ∃ answer filled w', filled.length = packet.length ∧
      (recvFrom address port packet >>= f).run w = (f answer).run w' ∧
      w'.log = w.log ++ [.recvFrom address port packet filled answer] ∧
      w'.client = { w.client with buffer := Bytes.splice w.client.buffer 0 filled } :=
  ⟨_, (SntpHost.recvFrom w.host address port packet).2.1.val, _,
    (SntpHost.recvFrom w.host address port packet).2.1.property, rfl, rfl, rfl⟩

end Run

section RunAuthenticator

variable {α : Type} [Authenticator A] (w : World A H)

theorem run_generateClientAuth_bind (server : ServerInfo)
    (f : Except AuthError UInt16 → ClientM A H α) :
    ∃ answer filled auth w', filled.length = w.client.buffer.length ∧
      (generateClientAuth server >>= f).run w = (f answer).run w' ∧
      w'.log = w.log ++ [.generateClientAuth server w.client.buffer filled answer] ∧
      w'.client = { w.client with buffer := filled, auth } :=
  ⟨_, (Authenticator.generateClientAuth w.client.auth server w.client.buffer).2.1.val, _, _,
    (Authenticator.generateClientAuth w.client.auth server w.client.buffer).2.1.property,
    rfl, rfl, rfl⟩

theorem run_validateServerAuth_bind (server : ServerInfo) (packet : Buffer)
    (f : Except AuthError Unit → ClientM A H α) :
    ∃ answer auth w', (validateServerAuth server packet >>= f).run w = (f answer).run w' ∧
      w'.log = w.log ++ [.validateServerAuth server packet answer] ∧
      w'.client = { w.client with auth } :=
  ⟨_, _, _, rfl, rfl, rfl⟩

end RunAuthenticator

end ClientM

end Sntp
