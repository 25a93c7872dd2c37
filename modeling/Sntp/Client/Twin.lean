import Sntp.Client.Exchange
import Sntp.Client.Script
import Sntp.Lib.Simulation

/-!
# What configuring an authenticator changes by itself

An authenticator that always answers `Ok(0)` and `Ok(())` and writes nothing adds
nothing to a client but its three branches on `CONFIGURED`: the packet size is
assigned, a response is validated, and a Kiss-o'-Death ends the request. `Twin`
relates the worlds of such a client and of one with `NoAuth`: taking the
authenticator and its callbacks out of the one (`World.bare`) leaves the other.

The calls of the two keep that relation until one returns `Rejected`, which is
where the third branch is taken (`Settled`), so
`configuring_changes_rejection` is that they agree up to there.
-/

namespace Sntp

open Watch ClientM

variable {A H : Type}

/-- An authenticator in a state of `P` answers `Ok(0)` and `Ok(())`, writes
nothing, and is then in another. -/
structure AddsNothing (A : Type) [Authenticator A] (P : A → Prop) : Prop where
  configured : Authenticator.configured A = true
  generates : ∀ {auth} server buffer, P auth → ∃ auth', P auth' ∧
    Authenticator.generateClientAuth auth server buffer = (.ok 0, .untouched buffer, auth')
  validates : ∀ {auth} server packet, P auth → ∃ auth', P auth' ∧
    Authenticator.validateServerAuth auth server packet = (.ok (), auth')

/-- The client without its authenticator. -/
def Client.bare (c : Client A) : Client NoAuth := { c with auth := .noAuth }

/-- The callbacks that are the host's. -/
def Event.ofHost : Event → Bool
  | .generateClientAuth .. => false
  | .validateServerAuth .. => false
  | _ => true

/-- The world of a client without an authenticator. -/
def World.bare (w : World A H) : World NoAuth H :=
  ⟨w.client.bare, w.host, w.log.filter Event.ofHost⟩

/-- The two worlds differ in the authenticator and its callbacks, and exchange
packets of 48 bytes. -/
structure Twin (P : A → Prop) (w : World NoAuth H) (v : World A H) : Prop where
  bare : v.bare = w
  size : v.client.packetSize = UInt16.ofNat packetBaseSize
  auth : P v.client.auth

section Twin

variable {P : A → Prop} {w : World NoAuth H} {v : World A H} {α : Type}
  {S : Option α → World NoAuth H → World A H → Prop}

theorem Twin.client (h : Twin P w v) : w.client = v.client.bare := by
  rw [← h.bare]
  rfl

theorem Twin.buffer (h : Twin P w v) : w.client.buffer = v.client.buffer := by
  rw [h.client]
  rfl

/-- A callback of the host is logged on both sides. -/
theorem World.bare_snoc {c : Client A} {host : H} {log : List Event} {e : Event}
    (he : e.ofHost = true) :
    (World.mk c host (log ++ [e])).bare = ⟨c.bare, host, log.filter Event.ofHost ++ [e]⟩ := by
  rw [World.bare, List.filter_append, List.filter_singleton, he]
  rfl

/-- One of the authenticator is not. -/
theorem World.bare_snoc_auth {c : Client A} {host : H} {log : List Event} {e : Event}
    (he : e.ofHost = false) :
    (World.mk c host (log ++ [e])).bare = ⟨c.bare, host, log.filter Event.ofHost⟩ := by
  rw [World.bare, List.filter_append, List.filter_singleton, he]
  exact congrArg _ (List.append_nil _)

theorem self_matches {f : Client NoAuth → ClientM NoAuth H α} {g : Client A → ClientM A H α}
    (h : Matches (f w.client) w (g v.client) v S) : Matches (self >>= f) w (self >>= g) v S :=
  .of_run (run_self_bind w f) (run_self_bind v g) h

theorem update_matches {f : Unit → ClientM NoAuth H α} {g : Unit → ClientM A H α}
    {a : Client NoAuth → Client NoAuth} {b : Client A → Client A}
    (h : Matches (f ()) { w with client := a w.client } (g ()) { v with client := b v.client } S) :
    Matches (update a >>= f) w (update b >>= g) v S :=
  .of_run (run_update_bind w a f) (run_update_bind v b g) h

/-- An update of what both clients have. -/
theorem Twin.update (h : Twin P w v) {a : Client NoAuth → Client NoAuth} {b : Client A → Client A}
    (hbare : (b v.client).bare = a v.client.bare)
    (hsize : (b v.client).packetSize = v.client.packetSize)
    (hauth : (b v.client).auth = v.client.auth) :
    Twin P { w with client := a w.client } { v with client := b v.client } := by
  obtain ⟨rfl, hbase, hP⟩ := h
  refine ⟨?_, hsize.trans hbase, hauth ▸ hP⟩
  rw [World.bare, hbare]
  rfl

/-- A callback of the authenticator. -/
theorem Twin.answered (h : Twin P w v) {auth : A} (hauth : P auth) {e : Event}
    (he : e.ofHost = false) :
    Twin P w { v with client := { v.client with auth }, log := v.log ++ [e] } := by
  obtain ⟨rfl, hsize, _⟩ := h
  exact ⟨World.bare_snoc_auth he, hsize, hauth⟩

variable [SntpHost H]

theorem resolveDns_matches (h : Twin P w v) (server : ServerInfo) :
    Matches (resolveDns server) w (resolveDns server) v fun _ => Twin P := by
  obtain ⟨rfl, hsize, hauth⟩ := h
  exact ⟨rfl, World.bare_snoc rfl, hsize, hauth⟩

theorem now_matches (h : Twin P w v) : Matches now w now v fun _ => Twin P := by
  obtain ⟨rfl, hsize, hauth⟩ := h
  exact ⟨rfl, World.bare_snoc rfl, hsize, hauth⟩

theorem adjustClock_matches (h : Twin P w v) (server : ServerInfo) (serverTime : Timestamp)
    (offsetMs : Int64) (leapSecond : LeapSecond) :
    Matches (adjustClock server serverTime offsetMs leapSecond) w
      (adjustClock server serverTime offsetMs leapSecond) v fun _ => Twin P := by
  obtain ⟨rfl, hsize, hauth⟩ := h
  exact ⟨rfl, World.bare_snoc rfl, hsize, hauth⟩

theorem sendTo_matches (h : Twin P w v) (address : UInt32) (port : UInt16) (packet : Buffer) :
    Matches (sendTo address port packet) w (sendTo address port packet) v fun _ => Twin P := by
  obtain ⟨rfl, hsize, hauth⟩ := h
  exact ⟨rfl, World.bare_snoc rfl, hsize, hauth⟩

theorem recvFrom_matches (h : Twin P w v) (address : UInt32) (port : UInt16) (packet : Buffer) :
    Matches (recvFrom address port packet) w (recvFrom address port packet) v
      fun _ => Twin P := by
  obtain ⟨rfl, hsize, hauth⟩ := h
  exact ⟨rfl, World.bare_snoc rfl, hsize, hauth⟩

/-! ## Sending -/

theorem sendRound_matches (h : Twin P w v) (address : UInt32) (port : UInt16)
    (blockTimeMs : UInt32) (size : ℕ) (started : Timestamp) :
    Matches (sendRound address port blockTimeMs size started) w
      (sendRound address port blockTimeMs size started) v (Again (Twin P) fun _ => Twin P) := by
  refine self_matches ?_
  simp only [h.client, Client.bare]
  rcases Bytes.slice v.client.buffer 0 size with _ | packet
  · exact .pure h
  · refine (sendTo_matches h address port packet).bind ?_ fun _ _ h => h
    intro answer w v h
    rcases answer with e | _ | n
    · exact .pure h
    · refine (now_matches h).bind ?_ fun _ _ h => h
      intro now w v h
      split
      · exact .pure h
      · exact .pure h
    · by_cases hsent : n + 1 ≠ size
      · simp only [if_pos hsent]
        exact .pure h
      · simp only [if_neg hsent]
        exact .pure h

theorem sendPacket_matches (h : Twin P w v) (watch : ℕ) (address : UInt32) (port : UInt16)
    (blockTimeMs : UInt32) :
    Matches (sendPacket watch address port blockTimeMs) w
      (sendPacket watch address port blockTimeMs) v fun _ => Twin P := by
  refine self_matches ?_
  simp only [h.client, Client.bare]
  refine (now_matches h).bind ?_ fun _ _ h => h
  intro started w v h
  refine .retry (I := Twin P) ?_ (fun _ _ h => h) watch h
  intro w v h
  exact sendRound_matches h address port blockTimeMs _ started

variable [Authenticator A]

omit [SntpHost H] in
theorem generateClientAuth_run (hadds : AddsNothing A P) (h : Twin P w v) (server : ServerInfo) :
    ∃ v', (generateClientAuth server).run v = (some (.ok 0), v') ∧ Twin P w v' := by
  obtain ⟨auth, hP, hgenerates⟩ := hadds.generates server v.client.buffer h.auth
  refine ⟨_, ?_, h.answered hP
    (e := .generateClientAuth server v.client.buffer v.client.buffer (.ok 0)) rfl⟩
  simp only [generateClientAuth, run, step, hgenerates, Filled.untouched]

omit [SntpHost H] in
theorem validateServerAuth_run (hadds : AddsNothing A P) (h : Twin P w v) (server : ServerInfo)
    (packet : Buffer) :
    ∃ v', (validateServerAuth server packet).run v = (some (.ok ()), v') ∧ Twin P w v' := by
  obtain ⟨auth, hP, hvalidates⟩ := hadds.validates server packet h.auth
  refine ⟨_, ?_, h.answered hP (e := .validateServerAuth server packet (.ok ())) rfl⟩
  simp only [validateServerAuth, run, step, hvalidates]

omit [SntpHost H] in
/-- The code is of no bytes, so the packet size is assigned what it was. -/
theorem addClientAuthentication_matches (hadds : AddsNothing A P) (h : Twin P w v)
    (server : ServerInfo) :
    Matches (addClientAuthentication server) w (addClientAuthentication server) v
      fun _ => Twin P := by
  obtain ⟨v', hgenerates, h⟩ := generateClientAuth_run hadds h server
  have hsame : ({ v'.client with packetSize := UInt16.ofNat packetBaseSize } : Client A)
      = v'.client := by rw [← h.size]
  refine .of_run (p := pure (.ok ())) (q := pure (.ok ())) rfl ?_
    (.pure (h.update (a := id) (b := fun c => { c with packetSize := UInt16.ofNat packetBaseSize })
      (congrArg Client.bare hsame) h.size.symm rfl))
  rw [addClientAuthentication, if_pos hadds.configured, run_bind_some hgenerates]
  rfl

theorem sendTimeRequest_matches (hadds : AddsNothing A P) (h : Twin P w v) (watch : ℕ)
    (randomNumber blockTimeMs : UInt32) :
    Matches (sendTimeRequest watch randomNumber blockTimeMs) w
      (sendTimeRequest watch randomNumber blockTimeMs) v fun _ => Twin P := by
  refine self_matches ?_
  simp only [h.client, Client.bare]
  rcases v.client.servers[v.client.currentServer]? with _ | server
  · exact .pure h
  · refine (resolveDns_matches h server).bind ?_ fun _ _ h => h
    intro resolved w v h
    rcases resolved with _ | address
    · exact .pure h
    · refine update_matches ?_
      have h := h.update (a := fun c => { c with currentServerAddr := address })
        (b := fun c => { c with currentServerAddr := address }) rfl rfl rfl
      refine (now_matches h).bind ?_ fun _ _ h => h
      intro reading w v h
      have hbuffer := h.buffer
      refine update_matches (self_matches ?_)
      have h := h.update (a := fun c => { c with lastRequestTime := reading })
        (b := fun c => { c with lastRequestTime := reading }) rfl rfl rfl
      simp only [hbuffer]
      rcases serializeRequest reading randomNumber v.client.buffer with ⟨result, request, buffer⟩
      refine update_matches ?_
      have h := h.update (a := fun c => { c with lastRequestTime := request, buffer := buffer })
        (b := fun c => { c with lastRequestTime := request, buffer := buffer }) rfl rfl rfl
      rcases result with e | ⟨⟨⟩⟩
      · exact .pure h
      · refine (addClientAuthentication_matches hadds h server).bind ?_ fun _ _ h => h
        intro authenticated w v h
        rcases authenticated with e | ⟨⟨⟩⟩
        · exact .pure h
        · exact sendPacket_matches h watch address server.port blockTimeMs

/-! ## Receiving -/

theorem noAuth_not_configured : ¬ Authenticator.configured NoAuth = true := nofun

/-- What a receive call leaves: twins, unless it was rejected, which the configured
client alone takes for an answer. -/
def Settled (P : A → Prop) :
    Option (Except ReceiveError Reception) → World NoAuth H → World A H → Prop
  | some (.ok .rejected), w, v =>
    v.bare = { w with client := { w.client with lastRequestTime := .zero } }
  | _, w, v => Twin P w v

theorem processVerdict_matches (hadds : AddsNothing A P) (h : Twin P w v) (server : ServerInfo)
    (receivedAt : Timestamp) (size : ℕ) :
    Matches (processVerdict server receivedAt size) w (processVerdict server receivedAt size) v
      (Settled P) := by
  refine self_matches ?_
  simp only [h.client, Client.bare]
  rcases Bytes.slice v.client.buffer 0 size with _ | packet
  · exact .pure h
  · dsimp only
    rcases deserializeResponse v.client.lastRequestTime receivedAt packet with
      e | accepted | rejected
    · exact .pure h
    · refine (adjustClock_matches h server accepted.serverTime accepted.clockOffsetMs
        accepted.leapSecond).bind ?_ fun _ _ h => h
      intro _ w v h
      refine update_matches (.pure ?_)
      exact h.update (a := fun c => { c with lastRequestTime := .zero })
        (b := fun c => { c with lastRequestTime := .zero }) rfl rfl rfl
    · refine update_matches ?_
      have h := h.update (a := Client.rotateServer) (b := Client.rotateServer) rfl rfl rfl
      -- the branch that tells the two apart
      rw [if_neg noAuth_not_configured, if_pos hadds.configured]
      refine .of_run (p := pure (.ok .rejected)) rfl (run_update_bind _ _ _) (.pure ?_)
      show World.bare _ = _
      rw [← h.bare]
      rfl

theorem processResponse_matches (hadds : AddsNothing A P) (h : Twin P w v) (server : ServerInfo)
    (receivedAt : Timestamp) :
    Matches (processResponse server receivedAt) w (processResponse server receivedAt) v
      (Settled P) := by
  refine self_matches ?_
  simp only [h.client, Client.bare]
  rw [if_neg noAuth_not_configured, if_pos hadds.configured]
  rcases hslice : Bytes.slice v.client.buffer 0 v.client.packetSize.toNat with _ | packet
  · refine .of_run (p := pure (.error .network)) (q := pure (.error .network)) ?_ ?_ (.pure h)
    · rw [processVerdict, run_self_bind, h.buffer, hslice]
    · rw [run_self_bind, hslice]
  · obtain ⟨v', hvalidates, h'⟩ := validateServerAuth_run hadds h server packet
    refine .of_run rfl ?_ (processVerdict_matches hadds h' server receivedAt _)
    rw [run_self_bind, hslice]
    exact run_bind_some hvalidates

theorem receiveRound_matches (hadds : AddsNothing A P) (h : Twin P w v) (server : ServerInfo)
    (address : UInt32) (blockTimeMs : UInt32) (size : ℕ) (started : Timestamp) :
    Matches (receiveRound server address blockTimeMs size started) w
      (receiveRound server address blockTimeMs size started) v (Again (Twin P) (Settled P)) := by
  refine self_matches ?_
  simp only [h.client, Client.bare]
  rcases Bytes.slice v.client.buffer 0 size with _ | packet
  · exact .pure h
  · refine (recvFrom_matches h address server.port packet).bind ?_ fun _ _ h => h
    intro read w v h
    rcases read with e | n
    · exact .pure h
    · by_cases hfull : n = size
      · simp only [if_pos hfull]
        refine (now_matches h).bind ?_ fun _ _ h => h
        intro receivedAt w v h
        refine (processResponse_matches hadds h server receivedAt).bind ?_ fun _ _ h => h
        intro result w v h
        exact .pure h
      · by_cases hnone : n = 0
        · simp only [if_neg hfull, if_pos hnone]
          refine (now_matches h).bind ?_ fun _ _ h => h
          intro now w v h
          refine self_matches ?_
          simp only [h.client, Client.bare]
          split
          · refine update_matches (.pure ?_)
            exact h.update (a := Client.rotateServer) (b := Client.rotateServer) rfl rfl rfl
          · split
            · exact .pure h
            · exact .pure h
        · simp only [if_neg hfull, if_neg hnone]
          exact .pure h

theorem receiveTimeResponse_matches (hadds : AddsNothing A P) (h : Twin P w v) (watch : ℕ)
    (blockTimeMs : UInt32) :
    Matches (receiveTimeResponse watch blockTimeMs) w (receiveTimeResponse watch blockTimeMs) v
      (Settled P) := by
  refine self_matches ?_
  simp only [h.client, Client.bare]
  rcases v.client.servers[v.client.currentServer]? with _ | server
  · exact .pure h
  · refine (now_matches h).bind ?_ fun _ _ h => h
    intro started w v h
    refine .retry (I := Twin P) ?_ (fun _ _ h => h) watch h
    intro w v h
    exact receiveRound_matches hadds h server _ blockTimeMs _ started

end Twin

/-! ## Calls -/

/-- Whether `Rejected` was returned. -/
def Call.rejected (call : Call A) : Bool :=
  match call.outcome with
  | some (.received (.ok .rejected)) => true
  | _ => false

/-- The calls up to the first that returned `Rejected`, and it. -/
def throughRejection : List (Call A) → List (Call A)
  | [] => []
  | call :: calls => if call.rejected then [call] else call :: throughRejection calls

/-- `call'` does what `call` does: the same callbacks of the host, with the same
arguments, and the same result. It leaves the same client, unless it was rejected:
then it has given up the request that `call` keeps. -/
structure Call.Mirrors (call : Call NoAuth) (call' : Call A) : Prop where
  op : call'.op = call.op
  before : call'.before.bare = call.before
  callbacks : call'.events.filter Event.ofHost = call.events
  outcome : call'.outcome = call.outcome
  after : call.rejected = false → call'.after.bare = call.after
  after_rejected : call.rejected = true →
    call'.after.bare = { call.after with lastRequestTime := .zero } ∧
      call.after.lastRequestTime = call.before.lastRequestTime

section Calls

theorem Call.Mirrors.rejected {call : Call NoAuth} {call' : Call A} (h : call.Mirrors call') :
    call'.rejected = call.rejected := by
  unfold Call.rejected
  rw [h.outcome]

theorem Call.rejected_iff {call : Call A} :
    call.rejected = true ↔ call.Returned (.ok .rejected) := by
  unfold Call.rejected Call.Returned
  split
  next h => simp only [h]
  next h => exact ⟨nofun, fun hrejected => (h hrejected).elim⟩

/-- Without an authenticator a rejection leaves the request as it was. -/
theorem Makes.keeps_rejected {c c' : Client NoAuth} {call : Call NoAuth} (h : Makes c call c')
    (hvalid : c.Valid) (hrejected : call.rejected = true) :
    c'.lastRequestTime = c.lastRequestTime := by
  rw [Call.rejected_iff] at hrejected
  rcases h.cases hvalid with ⟨_, _, _, result, hcall, _⟩ | ⟨_, _, result, hcall, htrace⟩
  · exact absurd hrejected (Call.not_returned (congrArg Call.outcome hcall) _)
  · obtain rfl := (Call.returned_iff (congrArg Call.outcome hcall)).mp hrejected
    rw [htrace.request, Client.settle_rejected, if_neg noAuth_not_configured]
    rfl

variable {P : A → Prop} {c : Client NoAuth} {d : Client A}

/-- Two calls that end as `Settled` says. -/
theorem mirrors_of_settled {op : Op} {outcome : Option Outcome} {w : World NoAuth H}
    {v : World A H} (hbare : d.bare = c)
    (htwin : (Call.mk op c w.log outcome w.client).rejected = false → Twin P w v)
    (hrejected : (Call.mk op c w.log outcome w.client).rejected = true →
      v.bare = { w with client := { w.client with lastRequestTime := .zero } } ∧
        w.client.lastRequestTime = c.lastRequestTime) :
    (Call.mk op c w.log outcome w.client).Mirrors ⟨op, d, v.log, outcome, v.client⟩ ∧
      ((Call.mk op c w.log outcome w.client).rejected = false →
        P v.client.auth ∧ v.host = w.host) := by
  have hcallbacks : v.log.filter Event.ofHost = w.log := by
    cases hcase : (Call.mk op c w.log outcome w.client).rejected with
    | false => exact congrArg World.log (htwin hcase).bare
    | true => exact congrArg World.log (hrejected hcase).1
  refine ⟨⟨rfl, hbare, hcallbacks, rfl, ?_, ?_⟩, ?_⟩
  · intro h
    exact (htwin h).client.symm
  · intro h
    exact ⟨congrArg World.client (hrejected h).1, (hrejected h).2⟩
  · intro h
    exact ⟨(htwin h).auth, congrArg World.host (htwin h).bare⟩

variable [Authenticator A] [SntpHost H]

/-- One call of each: the second does what the first does, and where it is not
rejected the two can go on. -/
theorem perform_mirrors (hadds : AddsNothing A P) (hvalid : c.Valid) (hbare : d.bare = c)
    (hauth : P d.auth) (watch : ℕ) (op : Op) (host : H) :
    (perform watch op c host).1.Mirrors (perform watch op d host).1 ∧
      ((perform watch op c host).1.rejected = false →
        P (perform watch op d host).1.after.auth ∧
          (perform watch op d host).2 = (perform watch op c host).2) := by
  have hkeeps := (perform_makes watch op c host).keeps_rejected hvalid
  have hsize : d.packetSize = UInt16.ofNat packetBaseSize := by
    rw [← UInt16.toNat_inj]
    subst hbare
    exact hvalid.bare rfl
  have htwin : Twin P ⟨c, host, []⟩ ⟨d, host, []⟩ := ⟨by rw [← hbare]; rfl, hsize, hauth⟩
  cases op with
  | send randomNumber blockTimeMs =>
    obtain ⟨result, w, v, hleft, hright, hend⟩ :=
      (sendTimeRequest_matches hadds htwin watch randomNumber blockTimeMs).ends
    simp only [perform, hleft, hright]
    refine mirrors_of_settled hbare (fun _ => hend) ?_
    intro hrejected
    exact absurd (Call.rejected_iff.mp hrejected) (Call.not_returned rfl _)
  | receive blockTimeMs =>
    obtain ⟨result, w, v, hleft, hright, hend⟩ :=
      (receiveTimeResponse_matches hadds htwin watch blockTimeMs).ends
    simp only [perform, hleft, hright] at hkeeps ⊢
    refine mirrors_of_settled hbare ?_ ?_
    · intro hcase
      rcases result with _ | _ | _ | _ | _ | _
      · exact hend
      · exact hend
      · exact hend
      · exact hend
      · cases hcase
      · exact hend
    · intro hcase
      refine ⟨?_, hkeeps hcase⟩
      obtain rfl := (Call.returned_iff rfl).mp (Call.rejected_iff.mp hcase)
      exact hend

/-- So do all of them, up to a rejection. -/
theorem performAll_mirrors (hadds : AddsNothing A P) (hvalid : c.Valid) (hbare : d.bare = c)
    (hauth : P d.auth) (watch : ℕ) (ops : List Op) (host : H) :
    List.Forall₂ Call.Mirrors (throughRejection (performAll watch ops c host).1)
      (throughRejection (performAll watch ops d host).1) := by
  induction ops generalizing c d host with
  | nil => exact .nil
  | cons op ops ih =>
    obtain ⟨hmirrors, hnext⟩ := perform_mirrors hadds hvalid hbare hauth watch op host
    simp only [performAll, throughRejection, hmirrors.rejected]
    cases hrejected : (perform watch op c host).1.rejected with
    | true => exact .cons hmirrors .nil
    | false =>
      obtain ⟨hauth', hhost⟩ := hnext hrejected
      rw [hhost]
      exact .cons hmirrors (ih ((perform_makes watch op c host).valid hvalid)
        (hmirrors.after hrejected) hauth' _)

end Calls

/-- Construction ignores the authenticator. -/
theorem withAuthenticator_bare {servers : List ServerInfo} {buffer : Buffer} {timeout : UInt32}
    {auth : A} {c : Client NoAuth} {d : Client A} (hc : Client.new servers buffer timeout = .ok c)
    (hd : Client.withAuthenticator servers buffer timeout auth = .ok d) :
    d.bare = c ∧ d.auth = auth := by
  unfold Client.withAuthenticator at hd
  unfold Client.new Client.withAuthenticator at hc
  split at hd
  next => cases hd
  next hservers =>
    rw [if_neg hservers] at hc
    split at hd
    next => cases hd
    next hbuffer =>
      rw [if_neg hbuffer] at hc
      cases hc
      cases hd
      exact ⟨rfl, rfl⟩

/-- **Configuring an authenticator that adds nothing changes only the rule for a
Kiss-o'-Death.** Against any host, the client does what a client without it does,
up to the first call that is rejected. -/
theorem configuring_changes_rejection {A H : Type} [Authenticator A] [SntpHost H] {P : A → Prop}
    (hadds : AddsNothing A P) {servers : List ServerInfo} {buffer : Buffer} {timeout : UInt32}
    {auth : A} (hauth : P auth) {c : Client NoAuth} {d : Client A}
    (hc : Client.new servers buffer timeout = .ok c)
    (hd : Client.withAuthenticator servers buffer timeout auth = .ok d)
    (watch : ℕ) (ops : List Op) (host : H) :
    List.Forall₂ Call.Mirrors (throughRejection (performAll watch ops c host).1)
      (throughRejection (performAll watch ops d host).1) := by
  obtain ⟨hbare, rfl⟩ := withAuthenticator_bare hc hd
  have hvalid : c.Valid := Initial.valid ⟨servers, buffer, timeout, .noAuth, hc⟩
  exact performAll_mirrors hadds hvalid hbare hauth watch ops host

/-- `NoAuth`, configured. -/
inductive Assent
  | assent

instance : Authenticator Assent where
  configured := true
  generateClientAuth auth _ buffer := (.ok 0, .untouched buffer, auth)
  validateServerAuth auth _ _ := (.ok (), auth)

theorem assent_addsNothing : AddsNothing Assent fun _ => True :=
  ⟨rfl, fun _ _ _ => ⟨_, trivial, rfl⟩, fun _ _ _ => ⟨_, trivial, rfl⟩⟩

/-- Answers the request of 1000 s with a Kiss-o'-Death. -/
def turnsAway : Script :=
  { sentAt1000 with
    readings := sentAt1000.readings ++ (readsAt1001 kissOfDeath).readings
    reads := (readsAt1001 kissOfDeath).reads }

/-- A request and its rejection, and one more request that is not compared. -/
theorem configuring_changes_rejection_of_kiss :
    List.Forall₂ Call.Mirrors
      (throughRejection (performAll 2 [.send 0 100, .receive 100, .send 0 100]
        (twoServers NoAuth.noAuth) turnsAway).1)
      (throughRejection (performAll 2 [.send 0 100, .receive 100, .send 0 100]
        (twoServers Assent.assent) turnsAway).1) ∧
    ((performAll 2 [.send 0 100, .receive 100, .send 0 100] (twoServers NoAuth.noAuth)
      turnsAway).1.map Call.rejected) = [false, true, false] := by
  have hc : Client.new [⟨"a", 123⟩, ⟨"b", 1123⟩] (List.replicate 64 0) 5000
      = .ok (twoServers NoAuth.noAuth) := rfl
  have hd : Client.withAuthenticator [⟨"a", 123⟩, ⟨"b", 1123⟩] (List.replicate 64 0) 5000
      Assent.assent = .ok (twoServers Assent.assent) := rfl
  refine ⟨configuring_changes_rejection assent_addsNothing trivial hc hd 2 _ turnsAway, ?_⟩
  decide +kernel

end Sntp
