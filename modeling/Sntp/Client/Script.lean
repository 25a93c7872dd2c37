import Sntp.Client.Runs

/-!
# Scripted hosts

The tests of the client answer its callbacks from a script, and so does this
file: `Script` is a host that gives prepared answers in order, and `Keyring` an
authenticator that does. Where a script runs out the transport fails, which ends
the call. `reply` is the packet a server answers a request with.

A script against which a client is run is a host like any other
(`performAll_run`), so what is proved of runs is proved of these.
-/

namespace Sntp

/-- A host that answers from a script. -/
structure Script where
  addresses : List (Option UInt32)
  readings : List Timestamp
  sends : List (Except NetworkError ℕ)
  reads : List (Except NetworkError ℕ × Buffer)

/-- What is left in a buffer after `bytes` were written to its front. -/
def fill (buffer bytes : Buffer) : Filled buffer :=
  ⟨(bytes ++ buffer.drop bytes.length).take buffer.length, by
    rw [List.length_take, List.length_append, List.length_drop]
    omega⟩

instance : SntpHost Script where
  resolveDns s _ := (s.addresses.headD none, { s with addresses := s.addresses.tail })
  now s := (s.readings.headD .zero, { s with readings := s.readings.tail })
  adjustClock s _ _ _ _ := s
  sendTo s _ _ _ :=
    (s.sends.headD (.error .networkError), { s with sends := s.sends.tail })
  recvFrom s _ _ buffer :=
    let (answer, bytes) := s.reads.headD (.error .networkError, [])
    (answer, fill buffer bytes, { s with reads := s.reads.tail })

/-- An authenticator that answers from a script, and writes `code` after the
packet. -/
structure Keyring where
  code : Buffer
  answers : List (Except AuthError Unit)

instance : Authenticator Keyring where
  configured := true
  generateClientAuth auth _ buffer :=
    (.ok (UInt16.ofNat auth.code.length), fill buffer (buffer.take packetBaseSize ++ auth.code),
      auth)
  validateServerAuth auth _ _ :=
    (auth.answers.headD (.ok ()), { auth with answers := auth.answers.tail })

/-- A packet of a server in mode 4 with these fields, and zeros elsewhere. -/
def reply (stratum : UInt8) (origin receive transmit : Timestamp) : Buffer :=
  0x24 :: stratum :: (List.replicate 22 0 ++
    (timestampBytes origin ++ (timestampBytes receive ++ timestampBytes transmit)))

/-- A client of these servers, with room for sixteen bytes of code, that waits
`timeout` for a response. -/
def freshClient {A : Type} (servers : List ServerInfo) (timeout : UInt32) (auth : A) : Client A :=
  { servers
    buffer := List.replicate 64 0
    currentServer := 0
    currentServerAddr := 0
    lastRequestTime := .zero
    packetSize := UInt16.ofNat packetBaseSize
    responseTimeoutMs := timeout
    auth }

/-- It is a client as construction makes it. -/
theorem freshClient_initial {A : Type} {servers : List ServerInfo} (hservers : servers ≠ [])
    (timeout : UInt32) (auth : A) : Initial (freshClient servers timeout auth) := by
  refine ⟨servers, List.replicate 64 0, timeout, auth, ?_⟩
  unfold Client.withAuthenticator
  rw [if_neg (by rwa [List.isEmpty_iff]), if_neg (by decide)]
  rfl

/-- Two servers on different ports, waited for for five seconds each. -/
def twoServers {A : Type} (auth : A) : Client A := freshClient [⟨"a", 123⟩, ⟨"b", 1123⟩] 5000 auth

theorem twoServers_initial {A : Type} (auth : A) : Initial (twoServers auth) :=
  freshClient_initial (List.cons_ne_nil _ _) 5000 auth

section Pending

variable {A : Type} [Authenticator A]

/-- Resolves, and sends at 1000 s on the second attempt. -/
def sentAt1000 : Script where
  addresses := [some 7]
  readings := [⟨1000, 0⟩, ⟨1000, 5⟩, ⟨1000, 6⟩]
  sends := [.ok 0, .ok 48]
  reads := []

/-- Reads `packet` at 1001 s. -/
def readsAt1001 (packet : Buffer) : Script where
  addresses := []
  readings := [⟨1000, 9⟩, ⟨1001, 0⟩]
  sends := []
  reads := [(.ok 48, packet)]

/-- A request to the first server. -/
def request (auth : A) : Call A := (perform 2 (.send 0 100) (twoServers auth) sentAt1000).1

/-- The client that waits for its answer. -/
def pending (auth : A) : Client A := (request auth).after

theorem request_makes (auth : A) : Makes (twoServers auth) (request auth) (pending auth) :=
  perform_makes 2 _ _ _

theorem pending_reachable (auth : A) : Reachable (pending auth) :=
  (twoServers_initial auth).reachable.makes (request_makes auth)

end Pending

/-- The answer to the request. -/
def genuine : Buffer := reply 1 ⟨1000, 0⟩ ⟨1000, 9⟩ ⟨1000, 10⟩

/-- A Kiss-o'-Death for it. -/
def kissOfDeath : Buffer := reply 0 ⟨1000, 0⟩ ⟨1000, 9⟩ ⟨1000, 10⟩

end Sntp
