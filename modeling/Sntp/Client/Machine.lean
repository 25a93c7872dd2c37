import Sntp.Client.AfterSend
import Sntp.Client.Rotation
import Sntp.Client.Steady
import Sntp.Lib.Bisimulation

/-!
# The client as a machine

To its caller a client is two things: the server it would ask next, and whether a
request is outstanding, with the timestamp that answers it. `Machine.Step` is the
whole protocol in those terms, one constructor for each way a call can return:

- `Makes.machine`: every call that returns is a step of the machine, against any
  host and under any authenticator;
- `Machine.Step.made`: without an authenticator every step of the machine is a call
  against some host, from any valid client.

So the sequences of outcomes a caller can get are the runs of the machine, no fewer
and no more (`returned_runs_iff`), and which those are can be said without it
(`returned_outcomes_iff`).
-/

namespace Sntp

open Transition

/-- What of its configuration decides what a client can return: how many servers
it has, whether it waits for a response at all, and its authenticator. -/
structure Setup where
  servers : ℕ
  patient : Prop
  configured : Bool

/-- The server in use and the request outstanding. -/
structure Machine where
  index : ℕ
  pending : Option Timestamp
deriving DecidableEq

namespace Machine

/-- On to the next server. -/
def rotate (n : ℕ) (m : Machine) : Machine := { m with index := (m.index + 1) % n }

/-- The request is forgotten. -/
def forget (m : Machine) : Machine := { m with pending := none }

/-- Another request is outstanding. -/
def ask (t : Timestamp) (m : Machine) : Machine := { m with pending := some t }

/-- The ways a call can return. -/
inductive Step (s : Setup) : Machine → Outcome → Machine → Prop
  | unresolved {m} : Step s m (.sent (.error .dns)) m
  | unclocked {m} : Step s m (.sent (.error .network)) m.forget
  | asked {m t result} (ht : t ≠ .zero) (hdns : result ≠ .error .dns)
      (hauth : result = .error .auth → s.configured = true) :
      Step s m (.sent result) (m.ask t)
  | waiting {m} (hpatient : s.patient) : Step s m (.received (.ok .nothingYet)) m
  | timedOut {m} : Step s m (.received (.ok .timedOut)) (m.rotate s.servers)
  | rejected {m} (hpending : m.pending ≠ none) :
      Step s m (.received (.ok .rejected))
        (if s.configured then (m.rotate s.servers).forget else m.rotate s.servers)
  | synchronised {m} (hpending : m.pending ≠ none) :
      Step s m (.received (.ok .synchronised)) m.forget
  | failed {m e} (hauth : e = .auth ∨ e = .serverNotAuthenticated → s.configured = true) :
      Step s m (.received (.error e)) m

/-- What a receive call returned says what it did. -/
theorem Step.received_unique {s : Setup} {m m₁ m₂ : Machine}
    {r : Except ReceiveError Reception} (h₁ : Step s m (.received r) m₁)
    (h₂ : Step s m (.received r) m₂) : m₁ = m₂ := by
  cases h₁ <;> cases h₂ <;> rfl

end Machine

variable {A : Type}

/-- The machine a client is. -/
def Client.machine (c : Client A) : Machine := ⟨c.currentServer, c.challenge⟩

/-- What a client is set up with. -/
def Client.setup [Authenticator A] (c : Client A) : Setup :=
  ⟨c.servers.length, c.responseTimeoutMs ≠ 0, Authenticator.configured A⟩

theorem Client.machine_congr {c c' : Client A} (hindex : c'.currentServer = c.currentServer)
    (hrequest : c'.lastRequestTime = c.lastRequestTime) : c'.machine = c.machine := by
  unfold Client.machine Client.challenge
  rw [hindex, hrequest]

theorem Client.machine_of_session {c c' : Client A} (h : c'.session = c.session) :
    c'.machine = c.machine := by
  have hindex : c'.session.index = c.session.index := by rw [h]
  have hrequest : c'.session.lastRequestTime = c.session.lastRequestTime := by rw [h]
  exact Client.machine_congr hindex hrequest

theorem Client.machine_forget {c c' : Client A} (hindex : c'.currentServer = c.currentServer)
    (hrequest : c'.lastRequestTime = .zero) : c'.machine = c.machine.forget := by
  unfold Client.machine Client.challenge Machine.forget
  rw [if_pos hrequest, hindex]

theorem Client.machine_ask {c c' : Client A} {t : Timestamp}
    (hindex : c'.currentServer = c.currentServer) (hrequest : c'.lastRequestTime = t)
    (ht : t ≠ .zero) : c'.machine = c.machine.ask t := by
  unfold Client.machine Client.challenge Machine.ask
  rw [hrequest, if_neg ht, hindex]

section Forward

variable [Authenticator A] {c c' : Client A}

theorem Client.setup_congr (h : c'.config = c.config) : c'.setup = c.setup := by
  have hservers : c'.servers = c.servers := congrArg Prod.fst h
  have htimeout : c'.responseTimeoutMs = c.responseTimeoutMs := congrArg (·.2.1) h
  unfold Client.setup
  rw [hservers, htimeout]

theorem Client.Valid.machine_rotate (hvalid : c.Valid) :
    c.rotateServer.machine = c.machine.rotate c.servers.length := by
  have hservers : c.servers.length ≠ 0 := Nat.ne_zero_of_lt hvalid.index
  have hindex : c.rotateServer.currentServer = (c.currentServer + 1) % c.servers.length :=
    if_neg hservers
  unfold Client.machine Machine.rotate
  rw [hindex]
  rfl

/-! ## What a call does to the machine -/

/-- A send call asks, or shows why it did not. -/
theorem Sends.machine {randomNumber blockTimeMs : UInt32} {watch : ℕ} {events : List Event}
    {result : Except SendError Unit}
    (h : Sends c randomNumber blockTimeMs watch events (some result) c') :
    Machine.Step c.setup c.machine (.sent result) c'.machine := by
  have hasks : ∀ {address reading signing},
      Signing (c.requested address reading randomNumber) signing c' → reading ≠ .zero →
        c'.machine = c.machine.ask (stamped reading randomNumber) := by
    intro address reading signing hsigning hreading
    exact Client.machine_ask hsigning.index hsigning.request (stamped_ne_zero hreading _)
  cases h with
  | unresolved _ => exact .unresolved
  | zeroClock _ => exact .unclocked
  | unsigned _ hreading hunsigned =>
    rw [hasks hunsigned.keeps hreading]
    refine .asked (stamped_ne_zero hreading _) nofun ?_
    intro _
    cases hunsigned with
    | mk hconfigured _ _ => exact hconfigured
  | tried _ hreading hsigns hloop =>
    rw [hasks hsigns.keeps hreading]
    obtain ⟨_, _, _, _, ⟨hnone, _⟩ | ⟨r, hr, _, hend⟩⟩ := hloop.split
    · cases hnone
    · obtain rfl := Option.some.inj hr
      refine .asked (stamped_ne_zero hreading _) ?_ ?_
      · cases hend <;> nofun
      · cases hend <;> nofun

/-- Only a client that waits for a response can be told that there is none yet. -/
theorem Receives.patient {blockTimeMs : UInt32} {watch : ℕ} {events : List Event}
    (h : Receives c blockTimeMs watch events (some (.ok .nothingYet)) c') : c.setup.patient := by
  cases h with
  | mk _ hloop _ =>
    obtain ⟨_, _, _, _, ⟨hnone, _⟩ | ⟨r, hr, _, hend⟩⟩ := hloop.split
    · cases hnone
    · obtain rfl := Option.some.inj hr
      intro hzero
      generalize hr : (Except.ok Reception.nothingYet : Except ReceiveError Reception) = r at hend
      cases hend with
      | nothingYet hresponse _ =>
        rw [hzero] at hresponse
        exact not_lt_zero_block hresponse
      | judged _ =>
        revert hr
        rcases deserializeResponse c.lastRequestTime _ _ with e | ⟨a | r⟩
        · nofun
        · nofun
        · nofun
      | _ => cases hr

/-- Only an authenticator has a response fail authentication. -/
theorem Receives.configured {blockTimeMs : UInt32} {watch : ℕ} {events : List Event}
    {e : ReceiveError} (h : Receives c blockTimeMs watch events (some (.error e)) c')
    (hvalid : c.Valid) (he : e = .auth ∨ e = .serverNotAuthenticated) :
    c.setup.configured = true := by
  obtain ⟨_, _, ⟨_, hfruitless⟩ | ⟨_, _, packet, receivedAt, _, r, _, _, _, hjudged, hr⟩⟩ :=
    h.quiet_or_full hvalid
  · cases hfruitless
    rcases he with h | h <;> cases h
  · obtain rfl := Option.some.inj hr
    generalize hr' : (Except.error e : Except ReceiveError Reception) = r at hjudged
    cases hjudged with
    | refused hconfigured => exact hconfigured
    | passed =>
      rcases hverdict : deserializeResponse c.lastRequestTime receivedAt packet with e' | v
      · rw [hverdict] at hr'
        obtain rfl := Except.error.inj hr'
        rcases he with h | h <;> cases h
      · rw [hverdict] at hr'
        cases v <;> cases hr'

/-- A receive call does to the machine what it returns. -/
theorem Receives.machine {blockTimeMs : UInt32} {watch : ℕ} {events : List Event}
    {result : Except ReceiveError Reception}
    (h : Receives c blockTimeMs watch events (some result) c') (hvalid : c.Valid) :
    Machine.Step c.setup c.machine (.received result) c'.machine := by
  rw [Client.machine_of_session h.session]
  have hpending : ∀ {r}, result = .ok r → r = .synchronised ∨ r = .rejected →
      c.machine.pending ≠ none := by
    intro r hr hverdict
    subst hr
    exact fun hnone => h.outstanding hvalid hverdict (Client.challenge_eq_none.mp hnone)
  cases result with
  | error e => exact .failed fun he => h.configured hvalid he
  | ok r =>
    cases r with
    | synchronised => exact .synchronised (hpending rfl (Or.inl rfl))
    | nothingYet => exact .waiting h.patient
    | timedOut =>
      show Machine.Step c.setup c.machine _ c.rotateServer.machine
      rw [hvalid.machine_rotate]
      exact .timedOut
    | rejected =>
      have hstep := Machine.Step.rejected (s := c.setup) (hpending rfl (Or.inr rfl))
      rw [Client.settle_rejected]
      rw [show c.setup.configured = Authenticator.configured A from rfl,
        show c.setup.servers = c.servers.length from rfl, ← hvalid.machine_rotate] at hstep
      split at hstep <;> rename_i hconfigured
      · rw [if_pos hconfigured]
        exact hstep
      · rw [if_neg hconfigured]
        exact hstep

/-- **Every call that returns is a step of the machine.** -/
theorem Makes.machine {call : Call A} (h : Makes c call c') (hvalid : c.Valid) {o : Outcome}
    (ho : call.outcome = some o) : Machine.Step c.setup c.machine o c'.machine := by
  rcases h.cases hvalid with ⟨_, _, _, result, hcall, htrace⟩ | ⟨_, _, result, hcall, htrace⟩
  · rw [hcall] at ho
    obtain ⟨result, rfl, rfl⟩ := Option.map_eq_some_iff.mp ho
    exact htrace.machine
  · rw [hcall] at ho
    obtain ⟨result, rfl, rfl⟩ := Option.map_eq_some_iff.mp ho
    exact htrace.machine hvalid

end Forward

/-! ## What the machine does, a client can do -/

theorem calculateElapsedMs_self (t : Timestamp) : calculateElapsedMs t t = 0 := by
  unfold calculateElapsedMs
  simp

/-- A clock that reads a second less than it did is past every timeout. -/
theorem elapsed_of_second_before (t : Timestamp) (timeout : UInt32) :
    timeout.toUInt64 ≤ calculateElapsedMs ⟨t.seconds - 1, t.fractions⟩ t := by
  have hs := t.seconds.toNat_lt
  have htimeout := timeout.toNat_lt
  have hsub : (t.seconds - 1).toNat = (2 ^ 32 - 1 + t.seconds.toNat) % 2 ^ 32 :=
    UInt32.toNat_sub t.seconds 1
  have hexact : elapsedExact ⟨t.seconds - 1, t.fractions⟩ t = 1000 * 4294967295 := by
    show 1000 * ((((t.seconds - 1).toNat : ℤ) - t.seconds.toNat) % (4294967296 : ℕ))
      + ((t.fractions.toNat : ℤ) - t.fractions.toNat).tdiv (4295000 : ℕ) = _
    rw [sub_self, Int.zero_tdiv, hsub]
    omega
  have helapsed := calculateElapsedMs_of_nonneg (by rw [hexact]; decide)
  rw [hexact] at helapsed
  rw [UInt64.le_iff_toNat_le, UInt32.toNat_toUInt64]
  omega

/-- A packet of zeros is from nobody. -/
theorem zeros_invalid (requestTime rx : Timestamp) (n : ℕ) :
    receptionOf (deserializeResponse requestTime rx (List.replicate n 0))
      = .error .invalidResponse := by
  rcases hverdict : deserializeResponse requestTime rx (List.replicate n 0) with e | v
  · rfl
  · obtain ⟨_, hd, hof, hanswers, _⟩ := answers_of_deserializeResponse hverdict
    have hbyte := hof.leapVersionMode
    have hmem := List.eq_of_mem_replicate (List.mem_of_getElem? hbyte)
    have hmode := hanswers.mode
    rw [hmem] at hmode
    exact absurd hmode (by decide)

/-! The hosts a call is made against, one for each way it can go. -/

namespace Steady

variable {c : Client NoAuth}

/-- The clock reads `reading`, and nothing arrives. -/
def silent (reading : Timestamp) : Steady := ⟨none, reading, .ok 0, .ok 0, List.replicate 48 0⟩

/-- The transport fails. -/
def broken : Steady := ⟨none, .zero, .ok 0, .error .networkError, List.replicate 48 0⟩

/-- A packet arrives. -/
def delivering (packet : Buffer) : Steady := ⟨none, .zero, .ok 0, .ok 48, packet⟩

/-- The clock reads `reading`, and the transport answers `sent`. -/
def taking (reading : Timestamp) (sent : Except NetworkError ℕ) : Steady :=
  ⟨some 0, reading, sent, .ok 0, []⟩

theorem silent_reception (reading : Timestamp) (hsize : c.packetSize.toNat = 48) :
    (silent reading).reception c =
      if c.responseTimeoutMs.toUInt64 ≤ calculateElapsedMs reading c.lastRequestTime then
        .ok .timedOut
      else .ok .nothingYet := by
  unfold reception silent
  dsimp only
  rw [if_neg (by omega), if_pos rfl]

theorem delivering_reception (packet : Buffer) (hsize : c.packetSize.toNat = 48) :
    (delivering packet).reception c
      = receptionOf (deserializeResponse c.lastRequestTime .zero packet) := by
  unfold reception delivering
  dsimp only
  rw [if_pos hsize.symm]

theorem delivering_reply (stratum : UInt8) (hsize : c.packetSize.toNat = 48)
    (hpending : c.machine.pending ≠ none) :
    (delivering (reply stratum c.lastRequestTime ⟨1, 0⟩ ⟨1, 0⟩)).reception c
      = if stratum = kissOfDeathStratum then .ok .rejected else .ok .synchronised := by
  have hrequest : c.lastRequestTime ≠ .zero := fun hzero =>
    hpending (Client.challenge_eq_none.mpr hzero)
  obtain ⟨v, hv, hreception⟩ := reply_answers stratum .zero hrequest
  rw [delivering_reception _ hsize, hv, hreception]

theorem taking_transmission {reading : Timestamp} (hreading : reading ≠ .zero)
    (sent : Except NetworkError ℕ) (hsize : c.packetSize.toNat = 48) :
    (taking reading sent).transmission c =
      match sent with
      | .error _ => .error .network
      | .ok n =>
        if n = 0 then .error .sendTimeout else if n = 48 then .ok () else .error .network := by
  unfold transmission taking
  cases sent with
  | error e => exact if_neg hreading
  | ok n =>
    dsimp only
    rw [if_neg hreading, hsize]

/-- What a steady host has a receive call return, some host does. -/
theorem received_made (s : Steady) {m : Machine} {r : Except ReceiveError Reception}
    (hvalid : c.Valid) (hpacket : s.packet.length = c.packetSize.toNat)
    (hr : s.reception c = r) (h : Machine.Step c.setup c.machine (.received r) m) :
    ∃ call c', Makes c call c' ∧ call.outcome = some (.received r) ∧ c'.machine = m := by
  subst hr
  have hmakes := s.makes 1 (.receive 0) c
  have houtcome := s.receives hvalid hpacket
  exact ⟨_, _, hmakes, houtcome, (hmakes.machine hvalid houtcome).received_unique h⟩

/-- So it is with a send call, and it stores a request if there is an address. -/
theorem sent_made (s : Steady) {r : Except SendError Unit} (hvalid : c.Valid)
    (hr : s.transmission c = r) :
    ∃ call c', Makes c call c' ∧ call.outcome = some (.sent r) ∧
      c'.currentServer = c.currentServer ∧
      c'.lastRequestTime = if s.address = none then c.lastRequestTime else s.reading := by
  subst hr
  let := s.host
  have hmakes := s.makes 1 (.send 0 0) c
  obtain ⟨houtcome, hrequest⟩ := s.sends hvalid
  refine ⟨_, _, hmakes, houtcome, ?_, hrequest⟩
  obtain ⟨_, _, _, htrace⟩ := hmakes.sends hvalid (perform_op 1 (.send 0 0) c ())
  exact htrace.index

end Steady

section Backward

variable {c : Client NoAuth} {m : Machine}

/-- A request can be stamped with any time, and sending it can go any way. -/
theorem Client.asked_made (hvalid : c.Valid) {t : Timestamp} (ht : t ≠ .zero)
    {r : Except SendError Unit} (hdns : r ≠ .error .dns) (hauth : r ≠ .error .auth) :
    ∃ call c', Makes c call c' ∧ call.outcome = some (.sent r) ∧
      c'.machine = c.machine.ask t := by
  obtain ⟨sent, hsent⟩ : ∃ sent, (Steady.taking t sent).transmission c = r := by
    have htakes := fun sent => Steady.taking_transmission ht sent (hvalid.bare rfl)
    cases r with
    | ok => exact ⟨.ok 48, htakes _⟩
    | error e =>
      cases e with
      | dns => exact absurd rfl hdns
      | auth => exact absurd rfl hauth
      | network => exact ⟨.error .networkError, htakes _⟩
      | sendTimeout => exact ⟨.ok 0, htakes _⟩
  obtain ⟨call, c', hmakes, houtcome, hindex, hrequest⟩ := Steady.sent_made _ hvalid hsent
  exact ⟨call, c', hmakes, houtcome, Client.machine_ask hindex hrequest ht⟩

/-- **Every step of the machine is a call against some host.** -/
theorem Machine.Step.made {o : Outcome} (hvalid : c.Valid)
    (h : Machine.Step c.setup c.machine o m) :
    ∃ call c', Makes c call c' ∧ call.outcome = some o ∧ c'.machine = m := by
  have hsize : c.packetSize.toNat = 48 := hvalid.bare rfl
  have hzeros : (List.replicate 48 (0 : UInt8)).length = c.packetSize.toNat := by
    rw [hsize, List.length_replicate]
  have hstep := h
  generalize hm : c.machine = m₀ at h
  cases h with
  | unresolved =>
    obtain ⟨call, c', hmakes, houtcome, hindex, hrequest⟩ :=
      Steady.sent_made (c := c) ⟨none, .zero, .ok 0, .ok 0, []⟩ hvalid rfl
    exact ⟨call, c', hmakes, houtcome, hm ▸ Client.machine_congr hindex hrequest⟩
  | unclocked =>
    obtain ⟨call, c', hmakes, houtcome, hindex, hrequest⟩ :=
      Steady.sent_made (c := c) ⟨some 0, .zero, .ok 0, .ok 0, []⟩ hvalid rfl
    exact ⟨call, c', hmakes, houtcome, hm ▸ Client.machine_forget hindex hrequest⟩
  | asked ht hdns hauth =>
    refine hm ▸ Client.asked_made hvalid ht hdns ?_
    intro hrefused
    cases hauth hrefused
  | waiting hpatient =>
    refine Steady.received_made (.silent c.lastRequestTime) hvalid hzeros ?_ hstep
    rw [Steady.silent_reception _ hsize, calculateElapsedMs_self, if_neg]
    rw [UInt64.not_le, UInt64.lt_iff_toNat_lt, UInt32.toNat_toUInt64]
    have hne : c.responseTimeoutMs.toNat ≠ 0 := fun hzero => hpatient (UInt32.toNat_inj.mp hzero)
    exact Nat.pos_of_ne_zero hne
  | timedOut =>
    refine Steady.received_made
      (.silent ⟨c.lastRequestTime.seconds - 1, c.lastRequestTime.fractions⟩) hvalid hzeros ?_ hstep
    rw [Steady.silent_reception _ hsize, if_pos (elapsed_of_second_before _ _)]
  | rejected hpending =>
    exact Steady.received_made
      (.delivering (reply kissOfDeathStratum c.lastRequestTime ⟨1, 0⟩ ⟨1, 0⟩)) hvalid hsize.symm
      (Steady.delivering_reply kissOfDeathStratum hsize (hm ▸ hpending)) hstep
  | synchronised hpending =>
    exact Steady.received_made (.delivering (reply 1 c.lastRequestTime ⟨1, 0⟩ ⟨1, 0⟩)) hvalid
      hsize.symm (Steady.delivering_reply 1 hsize (hm ▸ hpending)) hstep
  | @failed e hauth =>
    cases e with
    | network => exact Steady.received_made .broken hvalid hzeros rfl hstep
    | invalidResponse =>
      refine Steady.received_made (.delivering (List.replicate 48 0)) hvalid hzeros ?_ hstep
      rw [Steady.delivering_reception _ hsize, zeros_invalid]
    | auth => cases hauth (Or.inl rfl)
    | serverNotAuthenticated => cases hauth (Or.inr rfl)

/-- A client without authentication is exactly its machine. -/
theorem machine_exact (s : Setup) :
    Exact Makes (Machine.Step s) (fun c : Client NoAuth => c.Valid ∧ c.setup = s) Client.machine
      Call.outcome where
  keeps := by
    intro c call c' ⟨hvalid, hsetup⟩ hcall
    exact ⟨hcall.valid hvalid, (Client.setup_congr (hcall.config hvalid)).trans hsetup⟩
  forward := by
    intro c call c' o ⟨hvalid, hsetup⟩ hcall ho
    exact hsetup ▸ hcall.machine hvalid ho
  backward := by
    intro c o m ⟨hvalid, hsetup⟩ hstep
    exact (hsetup ▸ hstep : Machine.Step c.setup c.machine o m).made hvalid

/-- **What a client without authentication can return is what its machine can do**:
from every reachable client, the sequences of outcomes there are, with the server
and the request they leave, are the runs of the machine. -/
theorem returned_runs_iff {c : Client NoAuth} (hreach : Reachable c) (outcomes : List Outcome)
    (m : Machine) :
    (∃ calls c', Run Makes c calls c' ∧ calls.map Call.outcome = outcomes.map some ∧
      c'.machine = m) ↔ Run (Machine.Step c.setup) c.machine outcomes m :=
  (machine_exact c.setup).run_iff ⟨hreach.valid, rfl⟩

/-- A client waiting for its answer is told off by the first server, and then
answered: it is left at the second server with nothing outstanding. -/
theorem returned_runs_of_pending :
    ∃ calls c', Run Makes (pending NoAuth.noAuth) calls c' ∧
      calls.map Call.outcome = [.received (.ok .rejected), .received (.ok .synchronised)].map some ∧
      c'.machine = ⟨1, none⟩ := by
  have hruns := returned_runs_iff (pending_reachable NoAuth.noAuth)
    [.received (.ok .rejected), .received (.ok .synchronised)] ⟨1, none⟩
  rw [hruns]
  have hmachine : (pending NoAuth.noAuth).machine = ⟨0, some ⟨1000, 0⟩⟩ := by decide
  have hrejected := Machine.Step.rejected (s := (pending NoAuth.noAuth).setup)
    (m := ⟨0, some ⟨1000, 0⟩⟩) nofun
  rw [if_neg (show ¬ (pending NoAuth.noAuth).setup.configured from Bool.false_ne_true)] at hrejected
  rw [hmachine]
  exact .cons hrejected (.cons (.synchronised nofun) (.nil _))

end Backward

/-! ## The sequences of outcomes -/

/-- The call says that a response was judged. -/
def Outcome.IsVerdict : Outcome → Prop
  | .received (.ok .synchronised) => True
  | .received (.ok .rejected) => True
  | _ => False

/-- The call may have stamped a request: it was a send that found an address. -/
def Outcome.MayAsk : Outcome → Prop
  | .sent result => result ≠ .error .dns
  | _ => False

/-- No outcome of a client without authentication that waits for responses. -/
def Outcome.Foreign : Outcome → Prop
  | .sent result => result = .error .auth
  | .received result => result = .error .auth ∨ result = .error .serverNotAuthenticated

theorem Outcome.not_foreign_ok (r : Reception) : ¬ (Outcome.received (.ok r)).Foreign := by
  rintro (h | h)
  · cases h
  · cases h

/-- After these outcomes a request may be outstanding: one may have been stamped
since the last time a call synchronised. -/
def MayPend (outcomes : List Outcome) : Prop :=
  ∃ before ask since, outcomes = before ++ ask :: since ∧ ask.MayAsk ∧
    .received (.ok .synchronised) ∉ since

theorem mayPend_snoc {outcomes : List Outcome} {o : Outcome} :
    MayPend (outcomes ++ [o]) ↔
      o.MayAsk ∨ MayPend outcomes ∧ o ≠ .received (.ok .synchronised) := by
  constructor
  · intro ⟨before, ask, since, heq, hask, hsince⟩
    rcases List.eq_nil_or_concat since with rfl | ⟨since, last, rfl⟩
    · obtain ⟨_, hlast⟩ := List.append_inj' heq rfl
      left
      rw [List.cons.inj hlast |>.1]
      exact hask
    · rw [List.concat_eq_append, ← List.cons_append, ← List.append_assoc] at heq
      obtain ⟨houtcomes, hlast⟩ := List.append_inj' heq rfl
      obtain ⟨rfl, _⟩ := List.cons.inj hlast
      rw [List.concat_eq_append, List.mem_append, not_or] at hsince
      refine Or.inr ⟨⟨before, ask, since, houtcomes, hask, hsince.1⟩, ?_⟩
      intro ho
      exact hsince.2 (List.mem_singleton.mpr ho.symm)
  · rintro (hask | ⟨⟨before, ask, since, rfl, hask, hsince⟩, ho⟩)
    · exact ⟨outcomes, o, [], rfl, hask, nofun⟩
    · refine ⟨before, ask, since ++ [o], by simp, hask, ?_⟩
      rw [List.mem_append, not_or, List.mem_singleton]
      exact ⟨hsince, fun h => ho h.symm⟩

/-- What a step of the machine needs: nothing from an authenticator, and a request
outstanding to be judged for. -/
theorem Machine.Step.needs {s : Setup} {m m' : Machine} {o : Outcome} (h : Machine.Step s m o m')
    (hbare : s.configured = false) : ¬ o.Foreign ∧ (o.IsVerdict → m.pending ≠ none) := by
  have hnot : s.configured ≠ true := Bool.eq_false_iff.mp hbare
  cases h with
  | unresolved => exact ⟨nofun, nofun⟩
  | unclocked => exact ⟨nofun, nofun⟩
  | asked _ _ hauth => exact ⟨fun hforeign => hnot (hauth hforeign), nofun⟩
  | waiting _ => exact ⟨Outcome.not_foreign_ok _, nofun⟩
  | timedOut => exact ⟨Outcome.not_foreign_ok _, nofun⟩
  | rejected hpending => exact ⟨Outcome.not_foreign_ok _, fun _ => hpending⟩
  | synchronised hpending => exact ⟨Outcome.not_foreign_ok _, fun _ => hpending⟩
  | failed hauth =>
    refine ⟨?_, nofun⟩
    rintro (h | h)
    · exact hnot (hauth (Or.inl (Except.error.inj h)))
    · exact hnot (hauth (Or.inr (Except.error.inj h)))

/-- A request is outstanding only where one may be. -/
theorem Machine.Step.mayPend {s : Setup} {m m' : Machine} {o : Outcome} {outcomes : List Outcome}
    (h : Machine.Step s m o m') (hpend : m.pending ≠ none → MayPend outcomes) :
    m'.pending ≠ none → MayPend (outcomes ++ [o]) := by
  rw [mayPend_snoc]
  intro hpending
  cases h with
  | unresolved => exact Or.inr ⟨hpend hpending, nofun⟩
  | unclocked => exact absurd rfl hpending
  | asked _ hdns _ => exact Or.inl hdns
  | waiting _ => exact Or.inr ⟨hpend hpending, nofun⟩
  | timedOut => exact Or.inr ⟨hpend hpending, nofun⟩
  | rejected hbefore => exact Or.inr ⟨hpend hbefore, nofun⟩
  | synchronised _ => exact absurd rfl hpending
  | failed _ => exact Or.inr ⟨hpend hpending, nofun⟩

/-- And where one may be outstanding, the machine has a step that keeps it so. -/
theorem Machine.Step.exists_of {s : Setup} (hbare : s.configured = false) (hpatient : s.patient)
    {m : Machine} {o : Outcome} {outcomes : List Outcome}
    (hpend : MayPend outcomes → m.pending ≠ none) (hforeign : ¬ o.Foreign)
    (hverdict : o.IsVerdict → MayPend outcomes) :
    ∃ m', Machine.Step s m o m' ∧ (MayPend (outcomes ++ [o]) → m'.pending ≠ none) := by
  simp only [mayPend_snoc]
  have hkeeps : ∀ {o : Outcome}, ¬ o.MayAsk →
      o.MayAsk ∨ MayPend outcomes ∧ o ≠ .received (.ok .synchronised) → m.pending ≠ none := by
    intro o hask h
    exact hpend (h.resolve_left hask).1
  rcases o with r | r
  · by_cases hdns : r = .error .dns
    · subst hdns
      exact ⟨m, .unresolved, hkeeps fun hask => hask rfl⟩
    · refine ⟨m.ask ⟨1, 0⟩, .asked (by decide) hdns ?_, fun _ => nofun⟩
      exact fun hauth => absurd hauth hforeign
  · rcases r with e | r
    · refine ⟨m, .failed ?_, hkeeps nofun⟩
      rintro (rfl | rfl)
      · exact absurd (Or.inl rfl) hforeign
      · exact absurd (Or.inr rfl) hforeign
    · cases r with
      | synchronised =>
        refine ⟨m.forget, .synchronised (hpend (hverdict trivial)), ?_⟩
        rintro (hask | ⟨_, hne⟩)
        · cases hask
        · exact absurd rfl hne
      | nothingYet => exact ⟨m, .waiting hpatient, hkeeps nofun⟩
      | timedOut => exact ⟨m.rotate s.servers, .timedOut, hkeeps nofun⟩
      | rejected =>
        refine ⟨_, .rejected (hpend (hverdict trivial)), ?_⟩
        rw [hbare]
        exact hkeeps nofun

/-- **The sequences of outcomes a client without authentication can return** are
those in which nothing is blamed on authentication, and every verdict has a send
before it that found an address, with no call that synchronised in between. -/
theorem returned_outcomes_iff {c₀ : Client NoAuth} (h₀ : Initial c₀)
    (hpatient : c₀.responseTimeoutMs ≠ 0) (outcomes : List Outcome) :
    (∃ calls c, Run Makes c₀ calls c ∧ calls.map Call.outcome = outcomes.map some) ↔
      (∀ o ∈ outcomes, ¬ o.Foreign) ∧
        ∀ before verdict after, outcomes = before ++ verdict :: after → verdict.IsVerdict →
          MayPend before := by
  have hidle : c₀.machine.pending = none := Client.challenge_eq_none.mpr h₀.lastRequestTime
  trans ∃ m, Run (Machine.Step c₀.setup) c₀.machine outcomes m
  · constructor
    · intro ⟨calls, c, hrun, houtcomes⟩
      exact ⟨c.machine, (machine_exact c₀.setup).run_forward ⟨h₀.valid, rfl⟩ hrun houtcomes⟩
    · intro ⟨m, hrun⟩
      obtain ⟨calls, c, hcalls, houtcomes, _⟩ :=
        (machine_exact c₀.setup).run_backward ⟨h₀.valid, rfl⟩ hrun
      exact ⟨calls, c, hcalls, houtcomes⟩
  · constructor
    · intro ⟨m, hrun⟩
      have hpend : ∀ {before m}, Run (Machine.Step c₀.setup) c₀.machine before m →
          m.pending ≠ none → MayPend before := fun hrun =>
        hrun.history (J := fun before m => m.pending ≠ none → MayPend before)
          (fun hbefore hstep => hstep.mayPend hbefore) (fun hne => absurd hidle hne)
      constructor
      · intro o ho
        obtain ⟨_, _, _, _, _, _, hstep, _⟩ := hrun.of_mem ho
        exact (hstep.needs rfl).1
      · intro before verdict after houtcomes hverdict
        rw [houtcomes] at hrun
        obtain ⟨_, _, hbefore, hstep, _⟩ := hrun.split_cons
        exact hpend hbefore ((hstep.needs rfl).2 hverdict)
    · intro ⟨hforeign, hverdicts⟩
      -- the machine that stamps whenever it may, one outcome after the other
      suffices h : ∃ m, Run (Machine.Step c₀.setup) c₀.machine outcomes m ∧
          (MayPend outcomes → m.pending ≠ none) by
        obtain ⟨m, hrun, _⟩ := h
        exact ⟨m, hrun⟩
      induction outcomes using List.reverseRecOn with
      | nil =>
        refine ⟨_, .nil _, ?_⟩
        intro ⟨before, ask, since, hnil, _⟩
        simp at hnil
      | append_singleton outcomes o ih =>
        obtain ⟨m, hrun, hpend⟩ := ih (fun o ho => hforeign o (List.mem_append_left _ ho)) (by
          intro before verdict after houtcomes hverdict
          refine hverdicts before verdict (after ++ [o]) ?_ hverdict
          rw [houtcomes, List.append_assoc, List.cons_append])
        obtain ⟨m', hstep, hpend'⟩ := Machine.Step.exists_of (s := c₀.setup) rfl hpatient hpend
          (hforeign o (by simp)) (hverdicts outcomes o [] rfl)
        exact ⟨m', hrun.append (.single hstep), hpend'⟩

/-- Two servers: after a request a rejection and then an answer can be returned. -/
theorem returned_outcomes_of_one_request :
    ∃ calls c, Run Makes (twoServers NoAuth.noAuth) calls c ∧ calls.map Call.outcome =
      [.sent (.ok ()), .received (.ok .rejected), .received (.ok .synchronised)].map some := by
  refine (returned_outcomes_iff (twoServers_initial .noAuth) (by decide) _).mpr ⟨?_, ?_⟩
  · intro o ho
    simp only [List.mem_cons, List.not_mem_nil, or_false] at ho
    rcases ho with rfl | rfl | rfl
    · nofun
    · exact Outcome.not_foreign_ok _
    · exact Outcome.not_foreign_ok _
  · intro before verdict after houtcomes hverdict
    cases before with
    | nil =>
      obtain ⟨rfl, _⟩ := List.cons.inj houtcomes
      cases hverdict
    | cons ask since =>
      obtain ⟨rfl, hrest⟩ := List.cons.inj houtcomes
      refine ⟨[], _, since, rfl, nofun, ?_⟩
      intro hmem
      -- whatever comes before the last outcome is the rejection
      rcases since with _ | ⟨first, since⟩
      · cases hmem
      · obtain ⟨rfl, hrest⟩ := List.cons.inj hrest
        rcases since with _ | ⟨second, since⟩
        · simp at hmem
        · obtain ⟨_, hnil⟩ := List.cons.inj hrest
          simp at hnil

end Sntp
