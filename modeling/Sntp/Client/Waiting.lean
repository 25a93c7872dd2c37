import Sntp.Client.Deadlines
import Sntp.Client.Machine

/-!
# How long a call waits

Both retry loops end on a deadline computed from the host's clock and on nothing
else, so against a transport that never moves anything the clock decides
everything. `waits_for_first_due` says what it decides, for any clock at all,
stopped, oscillating or running backwards: the call ends on the first reading that
meets a deadline, having gone to the transport once for each reading up to it, and
if there is no such reading it never ends.

The induction is in `Retried.first_due`, which is about a loop and says nothing of
what the deadlines are.
-/

namespace Sntp

variable {A : Type}

/-- No transport call of these moved anything. -/
def Mute (events : List Event) : Prop :=
  ∀ e ∈ events, e.isTransport = true → e.movedNothing = true

/-- A loop that is never given anything runs up to the first reading that is due,
and as long as it is watched if there is none. -/
theorem Retried.first_due {ρ : Type} {Go : Stall → Prop} {End : List Event → ρ → Prop} {watch : ℕ}
    {events : List Event} {result : Option ρ} (Due : Timestamp → Prop) (answer : Timestamp → ρ)
    (t : ℕ → Timestamp) (h : Retried Go End watch events result)
    (hgo : ∀ s, Go s → s.Empty ∧ ¬ Due s.reading)
    (hend : ∀ tail r, End tail r → Mute tail → ∃ reading, emptyReadings tail = [reading] ∧
      transportCalls tail = 1 ∧ Due reading ∧ r = answer reading)
    (hmute : Mute events)
    (hreadings : ∀ i reading, (emptyReadings events)[i]? = some reading → reading = t i) :
    result = none ∧ (∀ k < watch, ¬ Due (t k)) ∨
      ∃ k < watch, Due (t k) ∧ (∀ j < k, ¬ Due (t j)) ∧ result = some (answer (t k)) ∧
        transportCalls events = k + 1 := by
  obtain ⟨stalls, tail, rfl, hstalls, hrest⟩ := h.split
  have hempty : ∀ s ∈ stalls, s.Empty := fun s hs => (hgo s (hstalls s hs)).1
  rw [emptyReadings_stalls hempty tail] at hreadings
  have hearly : ∀ k < stalls.length, ¬ Due (t k) := by
    intro k hk
    have hget : (stalls.map Stall.reading ++ emptyReadings tail)[k]? = some stalls[k].reading := by
      rw [List.getElem?_append_left (by rwa [List.length_map]), List.getElem?_map,
        List.getElem?_eq_getElem hk, Option.map_some]
    rw [← hreadings k _ hget]
    exact (hgo _ (hstalls _ (List.getElem_mem hk))).2
  rcases hrest with ⟨rfl, rfl, hlen⟩ | ⟨r, rfl, hlen, hr⟩
  · exact Or.inl ⟨rfl, hlen ▸ hearly⟩
  · obtain ⟨reading, hreading, hcalls, hdue, rfl⟩ := hend tail r hr
      (fun e he => hmute e (List.mem_append_right _ he))
    have hlast : reading = t stalls.length := by
      refine hreadings stalls.length reading ?_
      rw [hreading, List.getElem?_append_right (by rw [List.length_map]), List.length_map,
        Nat.sub_self]
      rfl
    subst hlast
    refine Or.inr ⟨stalls.length, hlen, hdue, hearly, rfl, ?_⟩
    rw [transportCalls_stalls hempty tail, hcalls]

/-! ## The deadlines of a call -/

section Waiting

variable [Authenticator A]

/-- The reading meets a deadline of the call, whose window was opened at `started`:
the block time, or for a receive call the response timeout. -/
def Op.Due (op : Op) (c : Client A) (started reading : Timestamp) : Prop :=
  match op with
  | .send _ blockTimeMs => blockTimeMs.toUInt64 ≤ calculateElapsedMs reading started
  | .receive blockTimeMs =>
    c.responseTimeoutMs.toUInt64 ≤ calculateElapsedMs reading c.lastRequestTime ∨
      blockTimeMs.toUInt64 ≤ calculateElapsedMs reading started

/-- What the call returns on such a reading. -/
def Op.expiry (op : Op) (c : Client A) (reading : Timestamp) : Outcome :=
  match op with
  | .send _ _ => .sent (.error .sendTimeout)
  | .receive _ =>
    .received (.ok
      (if c.responseTimeoutMs.toUInt64 ≤ calculateElapsedMs reading c.lastRequestTime then
        .timedOut
      else .nothingYet))

variable {c c' : Client A} {watch : ℕ} {events : List Event} {t : ℕ → Timestamp}

/-- What is known of a call that waits: it returned on the first reading that was
due, or none was. -/
def Op.Waits (op : Op) (c : Client A) (t : ℕ → Timestamp) (watch : ℕ) (events : List Event)
    (outcome : Option Outcome) : Prop :=
  outcome = none ∧ (∀ k < watch, ¬ op.Due c (t 0) (t (k + 1))) ∨
    ∃ k < watch, op.Due c (t 0) (t (k + 1)) ∧ (∀ j < k, ¬ op.Due c (t 0) (t (j + 1))) ∧
      outcome = some (op.expiry c (t (k + 1))) ∧ transportCalls events = k + 1

/-- The end of a send loop that was given nothing. -/
theorem SendEnd.due {address : UInt32} {port : UInt16} {packet : Buffer} {blockTimeMs : UInt32}
    {started : Timestamp} {tail : List Event} {r : Except SendError Unit}
    (h : SendEnd address port packet blockTimeMs started tail r) (hpacket : packet.length ≠ 0)
    (hmute : Mute tail) :
    ∃ reading, emptyReadings tail = [reading] ∧ transportCalls tail = 1 ∧
      blockTimeMs.toUInt64 ≤ calculateElapsedMs reading started ∧ r = .error .sendTimeout := by
  have hcounted : ∀ n, n ≠ 0 → tail ≠ [.sendTo address port packet (.ok n)] := by
    intro n hn htail
    have hmoved := hmute (.sendTo address port packet (.ok n)) (by simp [htail]) rfl
    cases n with
    | zero => exact hn rfl
    | succ n => cases hmoved
  cases h with
  | failed => cases hmute _ List.mem_cons_self rfl
  | @miscounted n hn _ => exact absurd rfl (hcounted n hn)
  | @timedOut reading hblock => exact ⟨reading, rfl, rfl, hblock, rfl⟩
  | sent => exact absurd rfl (hcounted _ hpacket)

/-- The end of a receive loop that was given nothing. -/
theorem ReceiveEnd.due {server : ServerInfo} {blockTimeMs : UInt32} {started : Timestamp}
    {tail : List Event} {r : Except ReceiveError Reception}
    (h : ReceiveEnd c server blockTimeMs started tail r) (hvalid : c.Valid) (hmute : Mute tail) :
    ∃ reading, emptyReadings tail = [reading] ∧ transportCalls tail = 1 ∧
      (Op.receive blockTimeMs).Due c started reading ∧
      r = .ok (if c.responseTimeoutMs.toUInt64 ≤ calculateElapsedMs reading c.lastRequestTime then
        .timedOut else .nothingYet) := by
  have hbase : 48 ≤ c.packetSize.toNat := hvalid.base
  have hcounted : ∀ n buffer filled rest, n ≠ 0 →
      tail ≠ .recvFrom c.currentServerAddr server.port buffer filled (.ok n) :: rest := by
    intro n buffer filled rest hn htail
    have hmoved := hmute (.recvFrom c.currentServerAddr server.port buffer filled (.ok n))
      (by simp [htail]) rfl
    cases n with
    | zero => exact hn rfl
    | succ n => cases hmoved
  cases h with
  | failed => cases hmute _ List.mem_cons_self rfl
  | miscounted hn _ => exact absurd rfl (hcounted _ _ _ _ hn)
  | @timedOut _ _ reading hresponse =>
    refine ⟨reading, rfl, rfl, Or.inl hresponse, ?_⟩
    rw [if_pos hresponse]
  | @nothingYet _ _ reading hresponse hblock =>
    refine ⟨reading, rfl, rfl, Or.inr hblock, ?_⟩
    rw [if_neg (UInt64.not_le.mpr hresponse)]
  | refused _ _ => exact absurd rfl (hcounted _ _ _ _ (by omega))
  | judged _ => exact absurd rfl (hcounted _ _ _ _ (by omega))

theorem Sends.waits {randomNumber blockTimeMs : UInt32} {result : Option (Except SendError Unit)}
    (h : Sends c randomNumber blockTimeMs watch events result c') (hvalid : c.Valid)
    (hopened : windowOpen events = some (t 0)) (hmute : Mute events)
    (hreadings : ∀ i reading, (emptyReadings events)[i]? = some reading → reading = t (i + 1)) :
    (Op.send randomNumber blockTimeMs).Waits c t watch events (result.map .sent) := by
  have hvalid' := h.valid hvalid
  have hpacket : c'.packet.length ≠ 0 := by
    have hbase : 48 ≤ c'.packetSize.toNat := hvalid'.base
    rw [hvalid'.packet_length]
    omega
  cases h with
  | unresolved _ => cases hopened
  | zeroClock _ => cases hopened
  | unsigned _ _ hunsigned =>
    cases hunsigned with
    | mk _ _ _ => cases hopened
  | @tried server address reading started signing loop _ _ hserver hreading hsigns hloop =>
    obtain ⟨hstarted, hsame, hcount⟩ : windowOpen (.now started :: loop) = some (t 0) ∧
        emptyReadings (.resolveDns server (some address) :: .now reading ::
          (signing ++ .now started :: loop)) = emptyReadings loop ∧
        transportCalls (.resolveDns server (some address) :: .now reading ::
          (signing ++ .now started :: loop)) = transportCalls loop := by
      cases hsigns with
      | bare _ => exact ⟨hopened, rfl, by simp [transportCalls, Event.isTransport]⟩
      | signed _ _ _ => exact ⟨hopened, rfl, by simp [transportCalls, Event.isTransport]⟩
    obtain hstarted := hloop.opens (fun s hs => hs.inside.1) (fun tail r hr => hr.one_call) hstarted
    subst hstarted
    rw [hsame] at hreadings
    have hfirst := hloop.first_due
      (fun reading => blockTimeMs.toUInt64 ≤ calculateElapsedMs reading (t 0))
      (fun _ => .error .sendTimeout) (fun k => t (k + 1))
      (fun s hs => ⟨hs.inside.1, UInt64.not_le.mpr hs.inside.2⟩)
      (fun tail r hend hquiet => hend.due hpacket hquiet)
      (fun e he => hmute e (by simp [he])) hreadings
    rcases hfirst with ⟨rfl, hnone⟩ | ⟨k, hk, hdue, hearly, rfl, hcalls⟩
    · exact Or.inl ⟨rfl, hnone⟩
    · exact Or.inr ⟨k, hk, hdue, hearly, rfl, hcount.trans hcalls⟩

theorem Receives.waits {blockTimeMs : UInt32} {result : Option (Except ReceiveError Reception)}
    (h : Receives c blockTimeMs watch events result c') (hvalid : c.Valid)
    (hopened : windowOpen events = some (t 0)) (hmute : Mute events)
    (hreadings : ∀ i reading, (emptyReadings events)[i]? = some reading → reading = t (i + 1)) :
    (Op.receive blockTimeMs).Waits c t watch events (result.map .received) := by
  cases h with
  | @mk server started loop _ _ hserver hloop _ =>
    obtain hstarted := hloop.opens (fun s hs => hs.inside.1)
      (fun tail r hr => hr.one_call hvalid) hopened
    subst hstarted
    have hfirst := hloop.first_due ((Op.receive blockTimeMs).Due c (t 0))
      (fun reading => .ok
        (if c.responseTimeoutMs.toUInt64 ≤ calculateElapsedMs reading c.lastRequestTime then
          .timedOut else .nothingYet))
      (fun k => t (k + 1)) ?_ (fun tail r hend hquiet => hend.due hvalid hquiet)
      (fun e he => hmute e (List.mem_cons_of_mem _ he)) hreadings
    · rcases hfirst with ⟨rfl, hnone⟩ | ⟨k, hk, hdue, hearly, rfl, hcalls⟩
      · exact Or.inl ⟨rfl, hnone⟩
      · exact Or.inr ⟨k, hk, hdue, hearly, rfl, (transportCalls_other rfl _).trans hcalls⟩
    · intro s hs
      refine ⟨hs.inside.1, ?_⟩
      cases hs with
      | empty hresponse hblock =>
        rintro (hlate | hlate)
        · exact UInt64.not_le.mpr hresponse hlate
        · exact UInt64.not_le.mpr hblock hlate

/-- A call that is never given anything waits for the first reading that is due. -/
theorem Makes.waits {call : Call A} {n : ℕ} {op : Op} {H : Type} [SntpHost H] {host : H}
    (hvalid : c.Valid) (hcall : (perform n op c host).1 = call)
    (hopened : windowOpen call.events = some (t 0)) (hmute : Mute call.events)
    (hreadings : ∀ i reading, (emptyReadings call.events)[i]? = some reading →
      reading = t (i + 1)) :
    op.Waits c t n call.events call.outcome := by
  cases op with
  | send randomNumber blockTimeMs =>
    obtain ⟨events, result, c', hperform, htrace⟩ :=
      perform_send n randomNumber blockTimeMs host hvalid
    obtain rfl := hcall.symm.trans hperform
    exact htrace.waits hvalid hopened hmute hreadings
  | receive blockTimeMs =>
    obtain ⟨events, result, c', hperform, htrace⟩ := perform_receive n blockTimeMs host hvalid
    obtain rfl := hcall.symm.trans hperform
    exact htrace.waits hvalid hopened hmute hreadings

/-- **Against a transport that moves nothing the clock decides when a call ends.**
The call went to the transport, `t 0` opened its window, and `t 1, t 2, ..` are the
readings after each empty answer, however they run. The call never returns if and
only if none of them meets a deadline; and if `t (k + 1)` is the first that does,
it returns on that one, after `k + 1` goes at the transport, and blames the response
timeout before the block time. -/
theorem waits_for_first_due {H : Type} [SntpHost H] (hreach : Reachable c) {op : Op} {host : H}
    (hopened : ∀ n, windowOpen (perform (n + 1) op c host).1.events = some (t 0))
    (hreadings : ∀ n i reading, (emptyReadings (perform (n + 1) op c host).1.events)[i]?
      = some reading → reading = t (i + 1))
    (hmute : ∀ n, Mute (perform (n + 1) op c host).1.events) :
    ((∀ n, (perform (n + 1) op c host).1.outcome = none) ↔
      ∀ k, ¬ op.Due c (t 0) (t (k + 1))) ∧
    ∀ k, op.Due c (t 0) (t (k + 1)) → (∀ j < k, ¬ op.Due c (t 0) (t (j + 1))) → ∀ n, k ≤ n →
      (perform (n + 1) op c host).1.outcome = some (op.expiry c (t (k + 1))) ∧
        transportCalls (perform (n + 1) op c host).1.events = k + 1 := by
  have hwaits := fun n => Makes.waits hreach.valid rfl (hopened n) (hmute n) (hreadings n)
  refine ⟨⟨?_, ?_⟩, ?_⟩
  · intro hnever k hdue
    rcases hwaits k with ⟨_, hnone⟩ | ⟨_, _, _, _, houtcome, _⟩
    · exact hnone k (Nat.lt_succ_self k) hdue
    · rw [hnever k] at houtcome
      cases houtcome
  · intro hnone n
    rcases hwaits n with ⟨houtcome, _⟩ | ⟨k, _, hdue, _⟩
    · exact houtcome
    · exact absurd hdue (hnone k)
  · intro k hdue hearly n hk
    rcases hwaits n with ⟨_, hnone⟩ | ⟨k', _, hdue', hearly', houtcome, hcalls⟩
    · exact absurd hdue (hnone k (Nat.lt_succ_of_le hk))
    · -- both are the first reading that is due
      have hsame : k' = k := by
        rcases Nat.lt_trichotomy k' k with hlt | heq | hgt
        · exact absurd hdue' (hearly k' hlt)
        · exact heq
        · exact absurd hdue (hearly' k hgt)
      subst hsame
      exact ⟨houtcome, hcalls⟩

theorem windowOpen_mem {events : List Event} {t : Timestamp} (h : windowOpen events = some t) :
    .now t ∈ events := by
  fun_induction windowOpen events with
  | case1 => exact Option.some.inj h ▸ List.mem_cons_self
  | case2 => exact Option.some.inj h ▸ List.mem_cons_self
  | case3 _ _ _ _ ih => exact List.mem_cons_of_mem _ (ih h)
  | case4 => cases h

theorem emptyReadings_mem {events : List Event} {t : Timestamp} (h : t ∈ emptyReadings events) :
    .now t ∈ events := by
  fun_induction emptyReadings events with
  | case1 _ _ _ u events ih =>
    rcases List.mem_cons.mp h with rfl | h
    · simp
    · simp [ih h]
  | case2 _ _ _ _ u events ih =>
    rcases List.mem_cons.mp h with rfl | h
    · simp
    · simp [ih h]
  | case3 _ _ _ _ ih => exact List.mem_cons_of_mem _ (ih h)
  | case4 => cases h

/-- A receive call that is watched at all opens its window. -/
theorem Receives.opens {blockTimeMs : UInt32} {n : ℕ}
    {result : Option (Except ReceiveError Reception)}
    (h : Receives c blockTimeMs (n + 1) events result c') (hvalid : c.Valid) :
    ∃ started, windowOpen events = some started := by
  have hfirst : ∀ {started e} (rest : List Event), e.isTransport = true →
      windowOpen (.now started :: e :: rest) = some started := by
    intro started e rest he
    cases e with
    | sendTo => rfl
    | recvFrom => rfl
    | _ => cases he
  cases h with
  | @mk server started loop _ _ hserver hloop _ =>
    refine ⟨started, ?_⟩
    obtain ⟨stalls, tail, rfl, hgo, hrest⟩ := hloop.split
    rcases stalls with _ | ⟨stall, stalls⟩
    · rcases hrest with ⟨_, _, hlen⟩ | ⟨r, _, _, hend⟩
      · cases hlen
      · obtain ⟨e, rest, rfl, he⟩ := (hend.one_call hvalid).head
        exact hfirst rest he
    · exact hfirst _ (Event.movedNothing.transport (hgo stall List.mem_cons_self).inside.1)

end Waiting

/-- Nothing a silent host is asked for comes, and its clock has stopped. -/
theorem Steady.silent_gives [Authenticator A] (reading : Timestamp) (watch : ℕ) (op : Op)
    (c : Client A) :
    Mute ((silent reading).call watch op c).events ∧
      ∀ t, .now t ∈ ((silent reading).call watch op c).events → t = reading := by
  have hgives := (silent reading).gives watch op c
  constructor
  · intro e he htransport
    have hanswer := hgives e he
    cases e with
    | sendTo _ _ _ answer =>
      obtain rfl : answer = .ok 0 := hanswer
      rfl
    | recvFrom _ _ _ _ answer =>
      obtain rfl : answer = .ok 0 := hanswer.1
      rfl
    | _ => cases htransport
  · exact fun t ht => hgives _ ht

/-- A client that waits for its answer at a clock that stopped never returns. -/
theorem waits_for_first_due_never : ¬ ∃ n,
    ((Steady.silent ⟨1000, 5⟩).call (n + 1) (.receive 100) (pending NoAuth.noAuth)).outcome
      ≠ none := by
  let := (Steady.silent ⟨1000, 5⟩).host
  have hgives := fun n => Steady.silent_gives ⟨1000, 5⟩ (n + 1) (.receive 100)
    (pending NoAuth.noAuth)
  rintro ⟨n, hreturns⟩
  refine hreturns ((waits_for_first_due (t := fun _ => ⟨1000, 5⟩)
    (pending_reachable NoAuth.noAuth) ?_ ?_ (fun n => (hgives n).1)).1.mpr ?_ n)
  · intro n
    have hvalid := (pending_reachable NoAuth.noAuth).valid
    obtain ⟨events, result, c', hcall, htrace⟩ := perform_receive (n + 1) 100 () hvalid
    obtain ⟨started, hopened⟩ := htrace.opens hvalid
    have hcall' : (Steady.silent ⟨1000, 5⟩).call (n + 1) (.receive 100) (pending NoAuth.noAuth)
      = ⟨.receive 100, pending NoAuth.noAuth, events, result.map .received, c'⟩ := hcall
    have hnow := (hgives n).2
    rw [hcall'] at hnow
    rw [hcall, ← hnow started (windowOpen_mem hopened)]
    exact hopened
  · intro n i reading hreading
    exact (hgives n).2 reading (emptyReadings_mem (List.mem_of_getElem? hreading))
  · intro k
    show ¬ (_ ∨ _)
    decide

end Sntp
