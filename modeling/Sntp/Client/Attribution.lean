import Sntp.Client.Rotation

/-!
# Where a response is awaited from, and whom it is attributed to

A send refreshes the resolved address for the server at the current index; a
rotation moves the index and leaves the address. Between the two, the port and
the server a receive call uses are those at the index, and the address is the
one of the last send. What moves the index is in the answers of the host and the
authenticator (`Call.movesOn`): a reading that meets the response timeout, and a
packet that rejects the stored request. So the server a receive call uses is as
many places from the one that was asked as calls before it moved on, and
`attribution_iff` says when that is still the pairing of the send.

It is while no call has moved on, with one server always, and with servers on
different ports only after whole rounds of the list (`Awaits.of_none_moved`,
`Awaits.of_one_server`, `Awaits.attributed_iff_rounds`). A timeout or an
unauthenticated rejection, which move on and keep the request answerable, break it
as soon as the next server is on another port (`rotation_breaks_attribution`).
-/

namespace Sntp

open Transition RoundRobin

variable {A : Type}

/-- What a callback of a receive call says of the peer: reads are from this
address and port, and the server named is this one. -/
def Event.About (address : UInt32) (port : UInt16) (server : ServerInfo) : Event → Prop
  | recvFrom address' port' _ _ _ => address' = address ∧ port' = port
  | validateServerAuth server' _ _ => server' = server
  | adjustClock server' _ _ _ => server' = server
  | _ => True

/-- A callback that names a server in a receive call. -/
def Event.names : Event → Bool
  | validateServerAuth .. => true
  | adjustClock .. => true
  | _ => false

/-- A reading after an empty read meets the response timeout of the stored request. -/
def Call.overdue (call : Call A) : Bool :=
  (emptyReadings call.events).any fun reading =>
    call.before.responseTimeoutMs.toUInt64
      ≤ calculateElapsedMs reading call.before.lastRequestTime

/-- The authenticator refused a packet. -/
def Event.refuses : Event → Bool
  | validateServerAuth _ _ (.error _) => true
  | _ => false

/-- A packet is read in full that is a rejection of the stored request, and no
authenticator refuses it. -/
def Call.kissed (call : Call A) : Bool :=
  match fullRead call.before.packetSize.toNat call.events with
  | none => false
  | some (packet, receivedAt) =>
    match deserializeResponse call.before.lastRequestTime receivedAt packet with
    | .ok (.rejected _) => !call.events.any Event.refuses
    | _ => false

/-- What the call was answered moves a client on to its next server. -/
def Call.movesOn (call : Call A) : Bool := call.overdue || call.kissed

variable [Authenticator A]

/-- The call reads a packet in full and names a server on account of it: any
packet under an authenticator, an acceptable one without. -/
def Call.NamesServer (call : Call A) : Prop :=
  ∃ packet receivedAt, call.ReadsFull packet receivedAt ∧
    (Authenticator.configured A = true ∨ ∃ a,
      deserializeResponse call.before.lastRequestTime receivedAt packet = .ok (.accepted a))

/-- The call is about the peer of `send`: it reads from where that sent to, and
names the server that resolved. -/
def Call.AttributedTo (call send : Call A) : Prop :=
  ∀ server resolved address port bytes answer, .resolveDns server resolved ∈ send.events →
    .sendTo address port bytes answer ∈ send.events →
    ∀ e ∈ call.events, e.About address port server

/-- What follows a full read names the server, on account of the packet. -/
theorem Judged.event {c : Client A} {server : ServerInfo} {packet : Buffer}
    {receivedAt : Timestamp} {rest : List Event} {r : Except ReceiveError Reception}
    (h : Judged c server packet receivedAt rest r) {e : Event} (he : e ∈ rest)
    (address : UInt32) (port : UInt16) :
    e.About address port server ∧ (Authenticator.configured A = true ∨ ∃ a,
      deserializeResponse c.lastRequestTime receivedAt packet = .ok (.accepted a)) := by
  cases h with
  | refused hconfigured =>
    obtain rfl := List.mem_singleton.mp he
    exact ⟨rfl, Or.inl hconfigured⟩
  | passed =>
    rcases mem_judged he with ⟨hconfigured, rfl⟩ | ⟨a, hverdict, rfl⟩
    · exact ⟨rfl, Or.inl hconfigured⟩
    · exact ⟨rfl, Or.inr ⟨a, hverdict⟩⟩

omit [Authenticator A] in
theorem Client.Quiet.about {c : Client A} {server : ServerInfo} {e : Event}
    (h : c.Quiet server.port e) : e.About c.currentServerAddr server.port server := by
  rcases h with ⟨t, rfl⟩ | ⟨buffer, filled, answer, rfl, _⟩
  · trivial
  · exact ⟨rfl, rfl⟩

/-- A receive call that returned has read from the current peer. -/
theorem Receives.reads {c c' : Client A} {blockTimeMs : UInt32} {watch : ℕ} {events : List Event}
    {result : Option (Except ReceiveError Reception)}
    (h : Receives c blockTimeMs watch events result c') (hresult : result ≠ none) :
    ∃ server buffer filled answer, c.servers[c.currentServer]? = some server ∧
      .recvFrom c.currentServerAddr server.port buffer filled answer ∈ events := by
  cases h with
  | @mk server started _ _ _ hserver hloop _ =>
    obtain ⟨stalls, tail, rfl, _, hrest⟩ := hloop.split
    rcases hrest with ⟨hnone, _⟩ | ⟨r, _, _, hend⟩
    · exact absurd hnone hresult
    · have hmem : ∀ e, e ∈ tail → e ∈ .now started :: (stalls.flatMap Stall.events ++ tail) :=
        fun e he => List.mem_cons_of_mem _ (List.mem_append_right _ he)
      cases hend <;> exact ⟨_, _, _, _, hserver, hmem _ List.mem_cons_self⟩

/-- And a full read does name one, when it is to be validated or is accepted. -/
theorem Judged.names {c : Client A} {server : ServerInfo} {packet : Buffer}
    {receivedAt : Timestamp} {rest : List Event} {r : Except ReceiveError Reception}
    (h : Judged c server packet receivedAt rest r)
    (hnames : Authenticator.configured A = true ∨ ∃ a,
      deserializeResponse c.lastRequestTime receivedAt packet = .ok (.accepted a)) :
    ∃ e ∈ rest, e.names = true := by
  cases h with
  | refused _ => exact ⟨_, List.mem_singleton.mpr rfl, rfl⟩
  | passed =>
    rcases hnames with hconfigured | ⟨a, hverdict⟩
    · rw [validations, if_pos hconfigured]
      exact ⟨_, List.mem_cons_self, rfl⟩
    · rw [hverdict]
      exact ⟨_, List.mem_append_right _ (List.mem_singleton.mpr rfl), rfl⟩

/-- A callback that names a server names one. -/
theorem Event.About.unique {e : Event} {address address' : UInt32} {port port' : UInt16}
    {server server' : ServerInfo} (h : e.About address port server)
    (h' : e.About address' port' server') (hnames : e.names = true) : server = server' := by
  cases e with
  | validateServerAuth s packet answer => exact h.symm.trans h'
  | adjustClock s serverTime offsetMs leapSecond => exact h.symm.trans h'
  | _ => cases hnames

/-- A call that is about a server at the current address has found its port at the
index, and the server itself if it names one. -/
theorem Makes.current_of_about {c c' : Client A} {call : Call A} (h : Makes c call c')
    (hvalid : c.Valid) (hreceive : call.IsReceive) (hreturned : call.outcome ≠ none)
    {current server : ServerInfo} (hcurrent : c.servers[c.currentServer]? = some current)
    (habout : ∀ e ∈ call.events, e.About c.currentServerAddr server.port server) :
    current.port = server.port ∧ (call.NamesServer → current = server) := by
  obtain ⟨blockTimeMs, hop⟩ := hreceive
  obtain ⟨watch, result, houtcome, htrace⟩ := h.receives hvalid hop
  have hresult : result ≠ none := by
    intro hnone
    rw [hnone] at houtcome
    exact hreturned houtcome
  constructor
  · obtain ⟨server', buffer, filled, answer, hserver', hmem⟩ := htrace.reads hresult
    obtain rfl : current = server' := Option.some.inj (hcurrent.symm.trans hserver')
    exact (habout _ hmem).2
  · intro hcallNames
    obtain ⟨packet, receivedAt, ⟨_, pre, address', port', buffer, rest, hevents⟩, hnames⟩ :=
      hcallNames
    rw [h.before] at hnames
    obtain ⟨server', r, hserver', _, _, hjudged, _⟩ := h.judged hvalid hop pre hevents
    obtain rfl : current = server' := Option.some.inj (hcurrent.symm.trans hserver')
    obtain ⟨e, he, hname⟩ := hjudged.names hnames
    have hmem : e ∈ call.events := by
      rw [hevents]
      exact List.mem_append_right _ (List.mem_cons_of_mem _ (List.mem_cons_of_mem _ he))
    exact (hjudged.event he 0 0).1.unique (habout e hmem) hname

/-- And one that finds its port there, and itself when it names a server, is about it. -/
theorem Makes.about_of_current {c c' : Client A} {call : Call A} (h : Makes c call c')
    (hvalid : c.Valid) (hreceive : call.IsReceive) {current server : ServerInfo}
    (hcurrent : c.servers[c.currentServer]? = some current) (hport : current.port = server.port)
    (hserver : call.NamesServer → current = server) :
    ∀ e ∈ call.events, e.About c.currentServerAddr server.port server := by
  obtain ⟨blockTimeMs, hop⟩ := hreceive
  obtain ⟨watch, result, houtcome, htrace⟩ := h.receives hvalid hop
  obtain ⟨current', hcurrent', hshape⟩ := htrace.quiet_or_full hvalid
  obtain rfl : current = current' := Option.some.inj (hcurrent.symm.trans hcurrent')
  rw [hport] at hshape
  intro e he
  rcases hshape with ⟨hquiet, _⟩ |
    ⟨before, buffer, packet, receivedAt, rest, r, hevents, hbefore, _, hjudged, _⟩
  · exact (hquiet e he).about
  · rw [hevents] at he
    rcases List.mem_append.mp he with he | he
    · exact (hbefore e he).about
    · rcases List.mem_cons.mp he with rfl | he
      · exact ⟨rfl, rfl⟩
      · rcases List.mem_cons.mp he with rfl | he
        · trivial
        · -- the call names the current server, so that is the one of the send
          obtain ⟨habout, hnames⟩ := hjudged.event he c.currentServerAddr server.port
          rw [← h.before] at hnames hevents
          obtain rfl := hserver ⟨packet, receivedAt,
            ⟨⟨blockTimeMs, hop⟩, before, _, _, buffer, rest, hevents⟩, hnames⟩
          exact habout

/-- One call: it is about a server at the current address exactly when the one at
the index has its port, and is that server if the call names one. -/
theorem Makes.about_iff {c c' : Client A} {call : Call A} (h : Makes c call c') (hvalid : c.Valid)
    (hreceive : call.IsReceive) (hreturned : call.outcome ≠ none) {server : ServerInfo} :
    (∀ e ∈ call.events, e.About c.currentServerAddr server.port server) ↔
      ∃ current, c.servers[c.currentServer]? = some current ∧ current.port = server.port ∧
        (call.NamesServer → current = server) := by
  constructor
  · intro habout
    have hcurrent := List.getElem?_eq_getElem hvalid.index
    exact ⟨_, hcurrent, h.current_of_about hvalid hreceive hreturned hcurrent habout⟩
  · intro ⟨current, hcurrent, hport, hserver⟩
    exact h.about_of_current hvalid hreceive hcurrent hport hserver

/-- Without an authenticator a call that names a server has synchronised. -/
theorem Makes.synchronised_of_names {c c' : Client A} {call : Call A} (h : Makes c call c')
    (hvalid : c.Valid) (hbare : Authenticator.configured A = false) (hnames : call.NamesServer) :
    call.Returned (.ok .synchronised) := by
  obtain ⟨packet, receivedAt, ⟨⟨_, hop⟩, pre, _, _, _, rest, hevents⟩, hwhy⟩ := hnames
  have hnot : ¬ Authenticator.configured A = true := Bool.eq_false_iff.mp hbare
  obtain ⟨a, hverdict⟩ := hwhy.resolve_left hnot
  obtain ⟨_, r, _, hreturned, _, hjudged, _⟩ := h.judged hvalid hop pre hevents
  rw [h.before] at hverdict
  cases hjudged with
  | refused hconfigured => exact absurd hconfigured hnot
  | passed =>
    rw [hverdict] at hreturned
    exact hreturned

/-- The peer of a send that returned `Ok` is the address it left and the server at
its index. -/
theorem Sends.attributedTo_iff {c c' : Client A} {send call : Call A}
    {randomNumber blockTimeMs : UInt32} {watch : ℕ} {result : Option (Except SendError Unit)}
    {server : ServerInfo} (h : Sends c randomNumber blockTimeMs watch send.events result c')
    (houtcome : send.outcome = result.map .sent) (hok : send.outcome = some (.sent (.ok ())))
    (hserver : c.servers[c.currentServer]? = some server) :
    call.AttributedTo send ↔
      ∀ e ∈ call.events, e.About c'.currentServerAddr server.port server := by
  obtain ⟨server', address, bytes, answer, hserver', hresolve, hsent⟩ :=
    h.of_ok ((Call.sent_iff houtcome).mp hok)
  obtain rfl : server = server' := Option.some.inj (hserver.symm.trans hserver')
  obtain ⟨server', resolved, reading, signing, hserver', _, _, hsigns, hsends, _⟩ :=
    h.of_sendTo hsent
  obtain rfl : server = server' := Option.some.inj (hserver.symm.trans hserver')
  have haddress : c'.currentServerAddr = resolved := by
    cases hsigns with
    | bare _ => rfl
    | signed _ _ _ => rfl
  rw [haddress]
  constructor
  · intro hall
    obtain ⟨rfl, _, _⟩ := hsends _ _ _ _ hsent
    exact hall _ _ _ _ _ _ hresolve hsent
  · intro hall server' resolved' address' port' bytes' answer' hresolve' hsent' e he
    obtain rfl : server = server' := Option.some.inj (hserver.symm.trans (h.resolves hresolve'))
    obtain ⟨rfl, rfl, _⟩ := hsends _ _ _ _ hsent'
    exact hall e he

/-! ## What moves a client on -/

omit [Authenticator A] in
theorem Call.rotates_iff_returned {call : Call A} :
    call.rotates = true ↔ call.Returned (.ok .timedOut) ∨ call.Returned (.ok .rejected) := by
  unfold Call.rotates Call.Returned
  constructor
  · intro h
    split at h
    next hout => exact Or.inl hout
    next hout => exact Or.inr hout
    next => cases h
  · rintro (h | h)
    · rw [h]
    · rw [h]

/-- A receive call times out exactly when it is overdue. -/
theorem Makes.overdue_iff {c c' : Client A} {call : Call A} (h : Makes c call c')
    (hvalid : c.Valid) (hreceive : call.IsReceive) :
    call.overdue = true ↔ call.Returned (.ok .timedOut) := by
  unfold Call.overdue
  rw [List.any_eq_true, h.before]
  constructor
  · intro ⟨reading, hreading, hlate⟩
    rw [decide_eq_true_eq, toUInt64_le_iff] at hlate
    exact ((h.timedOutAt_iff hvalid hreceive hreading).mpr hlate).1
  · intro hreturned
    obtain ⟨_, hop⟩ := hreceive
    obtain ⟨watch, result, houtcome, htrace⟩ := h.receives hvalid hop
    obtain ⟨reading, hlast, hlate⟩ :=
      (htrace.reading_of_deadline hvalid).1 ((Call.returned_iff houtcome).mp hreturned)
    exact ⟨reading, List.mem_of_getLast? hlast, decide_eq_true hlate⟩

omit [Authenticator A] in
/-- What was quiet refused nothing. -/
theorem refuses_quiet {c : Client A} {port : UInt16} {before : List Event}
    (h : ∀ e ∈ before, c.Quiet port e) (events : List Event) :
    (before ++ events).any Event.refuses = events.any Event.refuses := by
  have hnone : before.any Event.refuses = false := by
    apply List.any_eq_false.mpr
    intro e he
    rcases h e he with ⟨t, rfl⟩ | ⟨buffer, filled, answer, rfl, _⟩
    · exact Bool.false_ne_true
    · exact Bool.false_ne_true
  rw [List.any_append, hnone, Bool.false_or]

/-- A packet that passed the authenticator was not refused. -/
theorem passed_not_refuses (server : ServerInfo) (packet : Buffer)
    (v : Except DeserializeError Verdict) :
    (validations A server packet ++ adjustments server v).any Event.refuses = false := by
  apply List.any_eq_false.mpr
  intro e he
  rcases mem_judged he with ⟨_, rfl⟩ | ⟨a, _, rfl⟩
  · exact Bool.false_ne_true
  · exact Bool.false_ne_true

omit [Authenticator A] in
/-- The first full read is past what was quiet. -/
theorem fullRead_quiet {c : Client A} {port : UInt16} {before : List Event}
    (h : ∀ e ∈ before, c.Quiet port e) (events : List Event) :
    fullRead c.packetSize.toNat (before ++ events) = fullRead c.packetSize.toNat events := by
  induction before with
  | nil => rfl
  | cons e before ih =>
    obtain ⟨hquiet, hrest⟩ := List.forall_mem_cons.mp h
    rw [← ih hrest]
    rcases hquiet with ⟨t, rfl⟩ | ⟨buffer, filled, answer, rfl, hanswer⟩
    · rfl
    · cases answer with
      | error e => rfl
      | ok n =>
        have hn : n ≠ c.packetSize.toNat := fun hn => hanswer (congrArg Except.ok hn)
        exact if_neg hn

/-- A receive call is rejected exactly when it is kissed. -/
theorem Makes.kissed_iff {c c' : Client A} {call : Call A} (h : Makes c call c')
    (hvalid : c.Valid) (hreceive : call.IsReceive) :
    call.kissed = true ↔ call.Returned (.ok .rejected) := by
  obtain ⟨_, hop⟩ := hreceive
  obtain ⟨watch, result, houtcome, htrace⟩ := h.receives hvalid hop
  obtain ⟨server, _, hshape⟩ := htrace.quiet_or_full hvalid
  unfold Call.kissed
  rw [Call.returned_iff houtcome, h.before]
  rcases hshape with ⟨hquiet, hfruitless⟩ |
    ⟨before, buffer, packet, receivedAt, rest, r, hevents, hbefore, _, hjudged, rfl⟩
  · have hnone : fullRead c.packetSize.toNat call.events = none := by
      rw [← List.append_nil call.events, fullRead_quiet hquiet]
      rfl
    rw [hnone]
    cases hfruitless <;> exact ⟨nofun, nofun⟩
  · have hread : fullRead c.packetSize.toNat call.events = some (packet, receivedAt) := by
      rw [hevents, fullRead_quiet hbefore]
      exact if_pos rfl
    rw [hread]
    dsimp only
    have hrefuses : call.events.any Event.refuses = rest.any Event.refuses := by
      rw [hevents, refuses_quiet hbefore]
      rfl
    rw [hrefuses]
    cases hjudged with
    | @refused e _ =>
      -- an authenticator refused the packet, whatever it says
      have hnot : ¬ some (Except.error e.toReceive : Except ReceiveError Reception)
          = some (.ok .rejected) := nofun
      refine iff_of_false ?_ hnot
      split
      · exact Bool.false_ne_true
      · exact Bool.false_ne_true
    | passed =>
      rw [passed_not_refuses]
      cases deserializeResponse c.lastRequestTime receivedAt packet with
      | error e => exact ⟨nofun, nofun⟩
      | ok v =>
        cases v with
        | accepted a => exact ⟨nofun, nofun⟩
        | rejected r => exact iff_of_true rfl rfl

/-- **A receive call moves its client on exactly on those answers.** -/
theorem Makes.rotates_eq {c c' : Client A} {call : Call A} (h : Makes c call c')
    (hvalid : c.Valid) (hreceive : call.IsReceive) : call.rotates = call.movesOn := by
  rw [Bool.eq_iff_iff, Call.rotates_iff_returned, Call.movesOn, Bool.or_eq_true,
    h.overdue_iff hvalid hreceive, h.kissed_iff hvalid hreceive]

theorem countP_movesOn {c c' : Client A} {calls : List (Call A)} (hreach : Reachable c)
    (hrun : Run Makes c calls c') (hreceive : ∀ call ∈ calls, call.IsReceive) :
    calls.countP Call.rotates = calls.countP Call.movesOn := by
  apply List.countP_congr
  intro call hmem
  obtain ⟨pre, _, s, _, _, hpre, hcall, _⟩ := hrun.of_mem hmem
  rw [hcall.rotates_eq (hreach.run hpre).valid (hreceive call hmem)]

/-! ## The calls after a send -/

/-- `send` went to `server` and returned `Ok`, and `calls` are receive calls made
after it, whatever they returned. -/
structure Awaits (c₀ : Client A) (send : Call A) (server : ServerInfo) (calls : List (Call A)) :
    Prop where
  reachable : Reachable c₀
  isSend : send.IsSend
  ok : send.outcome = some (.sent (.ok ()))
  server : c₀.servers[c₀.currentServer]? = some server
  run : ∃ c, Run Makes c₀ (send :: calls) c
  receive : ∀ call ∈ calls, call.IsReceive
  returned : ∀ call ∈ calls, call.outcome ≠ none

namespace Awaits

variable {c₀ : Client A} {send call : Call A} {server : ServerInfo} {calls pre post : List (Call A)}

/-- One of them: the server it uses is as many places on as calls before it moved
the client on. -/
theorem attributedTo_iff (h : Awaits c₀ send server calls) (hcalls : calls = pre ++ call :: post) :
    call.AttributedTo send ↔
      ∃ next, c₀.servers[place c₀.servers.length c₀.currentServer (pre.countP Call.movesOn)]?
        = some next ∧ next.port = server.port ∧ (call.NamesServer → next = server) := by
  obtain ⟨c, hrun⟩ := h.run
  rw [hcalls] at hrun
  cases hrun with
  | @cons _ c₁ _ _ _ hsend hrest =>
    obtain ⟨c₂, c₃, hpre, hcall, _⟩ := hrest.split_cons
    have hreach₁ := h.reachable.makes hsend
    have hreceive : ∀ x ∈ pre, x.IsReceive := fun x hx =>
      h.receive x (hcalls ▸ List.mem_append_left _ hx)
    have hmem : call ∈ calls := hcalls ▸ List.mem_append_right _ List.mem_cons_self
    obtain ⟨randomNumber, blockTimeMs, hop⟩ := h.isSend
    obtain ⟨watch, result, houtcome, htrace⟩ := hsend.sends h.reachable.valid hop
    have haddress := (receives_run hreach₁ hpre hreceive).1
    have hservers₁ : c₁.servers = c₀.servers := servers_run h.reachable (.single hsend)
    have hservers : c₂.servers = c₀.servers := (servers_run hreach₁ hpre).trans hservers₁
    have hindex : c₂.currentServer
        = place c₀.servers.length c₀.currentServer (pre.countP Call.movesOn) := by
      rw [currentServer_run hreach₁ hpre, countP_movesOn hreach₁ hpre hreceive, hservers₁,
        htrace.index]
    rw [htrace.attributedTo_iff houtcome h.ok h.server, ← haddress,
      hcall.about_iff (hreach₁.run hpre).valid (h.receive call hmem) (h.returned call hmem),
      hservers, hindex]

/-- While none of the calls before moved on, the pairing is that of the send. -/
theorem of_none_moved (h : Awaits c₀ send server calls) (hcalls : calls = pre ++ call :: post)
    (hnone : ∀ x ∈ pre, x.movesOn = false) : call.AttributedTo send := by
  have hcount : pre.countP Call.movesOn = 0 := by
    rw [List.countP_eq_zero]
    intro x hx
    rw [hnone x hx]
    exact Bool.false_ne_true
  rw [h.attributedTo_iff hcalls, hcount, place_zero h.reachable.valid.index]
  exact ⟨server, h.server, rfl, fun _ => rfl⟩

/-- With one server it always is. -/
theorem of_one_server (h : Awaits c₀ send server calls) (hone : c₀.servers.length = 1) :
    ∀ call ∈ calls, call.AttributedTo send := by
  intro call hmem
  obtain ⟨pre, post, hcalls⟩ := List.append_of_mem hmem
  have hback : place c₀.servers.length c₀.currentServer (pre.countP Call.movesOn)
      = c₀.currentServer :=
    (place_eq_iff h.reachable.valid.index).mpr (hone ▸ Nat.one_dvd _)
  rw [h.attributedTo_iff hcalls, hback]
  exact ⟨server, h.server, rfl, fun _ => rfl⟩

/-- With servers on different ports, it is after whole rounds of the list and at no
other time. -/
theorem attributed_iff_rounds (h : Awaits c₀ send server calls)
    (hports : (c₀.servers.map ServerInfo.port).Nodup) (hcalls : calls = pre ++ call :: post) :
    call.AttributedTo send ↔ c₀.servers.length ∣ pre.countP Call.movesOn := by
  have hindex := h.reachable.valid.index
  rw [h.attributedTo_iff hcalls, ← place_eq_iff hindex]
  constructor
  · intro ⟨next, hnext, hport, _⟩
    have hget : ∀ {i : ℕ} {x : ServerInfo}, c₀.servers[i]? = some x →
        (c₀.servers.map ServerInfo.port)[i]? = some x.port := by
      intro i x hx
      rw [List.getElem?_map, hx]
      rfl
    have hsame := hget hnext
    rw [hport, ← hget h.server] at hsame
    refine (List.getElem?_inj ?_ hports).mp hsame
    rw [List.length_map]
    exact Nat.mod_lt _ (Nat.zero_lt_of_lt hindex)
  · intro hback
    rw [hback]
    exact ⟨server, h.server, rfl, fun _ => rfl⟩

end Awaits

/-- **When a response is awaited from, and attributed to, the server its request
went to.** Of the receive calls after a send, all are about the peer of the send
exactly when each finds the port of the server that was asked as many places on as
calls before it were overdue or kissed, and the very server if it names one. -/
theorem attribution_iff {c₀ : Client A} {send : Call A} {server : ServerInfo}
    {calls : List (Call A)} (h : Awaits c₀ send server calls) :
    (∀ call ∈ calls, call.AttributedTo send) ↔
      ∀ pre call post, calls = pre ++ call :: post →
        ∃ next, c₀.servers[place c₀.servers.length c₀.currentServer (pre.countP Call.movesOn)]?
          = some next ∧ next.port = server.port ∧ (call.NamesServer → next = server) := by
  constructor
  · intro hall pre call post hcalls
    exact (h.attributedTo_iff hcalls).mp
      (hall call (hcalls ▸ List.mem_append_right _ List.mem_cons_self))
  · intro hall call hmem
    obtain ⟨pre, post, hcalls⟩ := List.append_of_mem hmem
    exact (h.attributedTo_iff hcalls).mpr (hall pre call post hcalls)

/-- Two servers on one port. -/
def onePort : Client NoAuth := freshClient [⟨"a", 123⟩, ⟨"b", 123⟩] 5000 .noAuth

/-- A request to the first. -/
def askedA : Call NoAuth := (perform 2 (.send 0 100) onePort sentAt1000).1

/-- Its rejection, which moves the client to the second with the request as it was. -/
def rejectedAtA : Call NoAuth :=
  (perform 2 (.receive 100) askedA.after (readsAt1001 kissOfDeath)).1

/-- Another, which moves the client back to the first. -/
def rejectedAtB : Call NoAuth :=
  (perform 2 (.receive 100) rejectedAtA.after (readsAt1001 kissOfDeath)).1

/-- And then the answer. -/
def answeredAtA : Call NoAuth :=
  (perform 2 (.receive 100) rejectedAtB.after (readsAt1001 genuine)).1

theorem onePort_reachable : Reachable onePort :=
  (freshClient_initial (List.cons_ne_nil _ _) 5000 NoAuth.noAuth).reachable

theorem askedA_awaits :
    Awaits onePort askedA ⟨"a", 123⟩ [rejectedAtA, rejectedAtB, answeredAtA] where
  reachable := onePort_reachable
  isSend := ⟨0, 100, rfl⟩
  ok := rfl
  server := rfl
  run := ⟨answeredAtA.after, .cons (perform_makes _ _ _ _) (.cons (perform_makes _ _ _ _)
    (.cons (perform_makes _ _ _ _) (.single (perform_makes _ _ _ _))))⟩
  receive := by
    simp only [List.forall_mem_cons]
    exact ⟨⟨100, rfl⟩, ⟨100, rfl⟩, ⟨100, rfl⟩, List.forall_mem_nil _⟩
  returned := by
    simp only [List.forall_mem_cons]
    exact ⟨Option.some_ne_none _, Option.some_ne_none _, Option.some_ne_none _,
      List.forall_mem_nil _⟩

/-- The second rejection is read while the other server is in use, and names none. -/
theorem rejectedAtB_names_none : ¬ rejectedAtB.NamesServer := by
  intro hnames
  have hreach : Reachable rejectedAtA.after :=
    (onePort_reachable.makes (perform_makes 2 (.send 0 100) _ sentAt1000)).makes
      (perform_makes 2 (.receive 100) _ (readsAt1001 kissOfDeath))
  have hcall : Makes rejectedAtA.after rejectedAtB rejectedAtB.after := perform_makes 2 _ _ _
  have hsynchronised := hcall.synchronised_of_names hreach.valid rfl hnames
  have hrejected : rejectedAtB.Returned (.ok .rejected) := rfl
  cases hsynchronised.symm.trans hrejected

set_option maxRecDepth 1000 in
/-- After a round of the two servers the answer is attributed to the one that was
asked, although the client has moved on twice. -/
theorem attribution_iff_of_round :
    answeredAtA.AttributedTo askedA ∧
      answeredAtA.adjusts = [.adjustClock ⟨"a", 123⟩ ⟨1000, 10⟩ (-500) .none] := by
  refine ⟨(attribution_iff askedA_awaits).mpr ?_ answeredAtA (by simp), rfl⟩
  intro pre call post hcalls
  rcases pre with _ | ⟨x, _ | ⟨y, _ | ⟨z, pre⟩⟩⟩
  · exact ⟨⟨"a", 123⟩, rfl, rfl, fun _ => rfl⟩
  · obtain ⟨rfl, hrest⟩ := List.cons.inj hcalls
    obtain ⟨rfl, _⟩ := List.cons.inj hrest
    exact ⟨⟨"b", 123⟩, rfl, rfl, fun hnames => absurd hnames rejectedAtB_names_none⟩
  · obtain ⟨rfl, hrest⟩ := List.cons.inj hcalls
    obtain ⟨rfl, hrest'⟩ := List.cons.inj hrest
    obtain ⟨rfl, _⟩ := List.cons.inj hrest'
    exact ⟨⟨"a", 123⟩, rfl, rfl, fun _ => rfl⟩
  · have hlen := congrArg List.length hcalls
    simp at hlen

/-- A Kiss-o'-Death, which moves a client without an authenticator to the second
server and leaves it its request. -/
def rejection : Call NoAuth :=
  perform 2 (.receive 100) (pending NoAuth.noAuth) (readsAt1001 kissOfDeath) |>.1

/-- The answer to the request, after it. -/
def misattributed : Call NoAuth :=
  perform 2 (.receive 100) rejection.after (readsAt1001 genuine) |>.1

/-- The answer is read from the port of the second server at the address of the
first, and its time is reported as the second server's. -/
theorem rotation_breaks_attribution :
    Initial (twoServers NoAuth.noAuth) ∧
      Makes (twoServers NoAuth.noAuth) (request NoAuth.noAuth) (pending NoAuth.noAuth) ∧
      (request NoAuth.noAuth).outcome = some (.sent (.ok ())) ∧
      Run Makes (pending NoAuth.noAuth) [rejection, misattributed] misattributed.after ∧
      misattributed.adjusts = [.adjustClock ⟨"b", 1123⟩ ⟨1000, 10⟩ (-500) .none] ∧
      ¬ misattributed.AttributedTo (request NoAuth.noAuth) := by
  refine ⟨twoServers_initial _, request_makes _, rfl,
    .cons (perform_makes _ _ _ _) (.single (perform_makes _ _ _ _)), rfl, ?_⟩
  intro h
  have hresolve : .resolveDns ⟨"a", 123⟩ (some 7) ∈ (request NoAuth.noAuth).events :=
    List.mem_of_getElem? (show (request NoAuth.noAuth).events[0]? = _ from rfl)
  have hsent : .sendTo 7 123 (pending NoAuth.noAuth).packet (.ok 0)
      ∈ (request NoAuth.noAuth).events :=
    List.mem_of_getElem? (show (request NoAuth.noAuth).events[3]? = _ from rfl)
  have hread : .recvFrom 7 1123 _ _ _ ∈ misattributed.events :=
    List.mem_of_getElem? (show misattributed.events[1]? = _ from rfl)
  obtain ⟨_, hport⟩ := h _ _ _ _ _ _ hresolve hsent _ hread
  cases hport

end Sntp
