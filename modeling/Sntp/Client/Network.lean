import Sntp.Client.AfterSend
import Sntp.Client.Measure
import Sntp.Client.Replay
import Sntp.Lib.Drift
import Sntp.Lib.Observed

/-!
# The client on a network

The client alone is safe against any host. This file puts it where it runs: its
clock drifts against true time, its requests travel to stateless servers and the
answers back, and the network loses, delays, duplicates and reorders what it
carries. None of that waits for the client: between any two of its callbacks time
passes, requests arrive and servers answer (`Network.Step`), and a `System` run is
a run of the client laid against all of it.

What is assumed of this world, the host among it:

- `Step.pass`: wherever it is not set, the clock gains or loses at most `ρ` for each
  unit of true time;
- `Allows`, of a reading: it is what the clock shows at that moment, cut to the tick;
- `Network.after`: an adjustment steps the clock at once, by exactly the offset
  reported. `adjust_clock` leaves it to the host to step or to slew, and a host that
  slews is not described here;
- `Serves`: a server copies the transmit timestamp of what it answers, and its own
  clock is right to `σ` ms;
- `Allows`, of a full read: it brings the front of an answer some server made, or a
  packet that does not echo the outstanding request. Nobody guesses that;
- `Calls.fresh`: a stamp is not the transmit timestamp of a datagram sent before.

Where answers come from rests on the last three alone:

- `Network.Causal`: every answer was made for a request on record, and after it;
- `System.Inv`: a datagram that carries the outstanding request was sent by the
  call that stamped it, after the clock reading the stamp was made of.

What such a system does is a run of its client (`System.client_run`), so whatever
holds of the client against any host holds here too.
-/

namespace Sntp

open Transition Drift

variable {A : Type}

/-- A datagram, and when it was put on the wire or taken off it. -/
structure Datagram where
  time : ℚ
  bytes : Buffer

/-- What lies between a client and its servers: true time in milliseconds and the
client's clock, every datagram the client sent, every one a server received, and
every answer made. -/
structure Network where
  clock : Clock ℚ
  requests : List Datagram
  received : List Datagram
  answers : List Buffer

/-- What a stateless server makes of a request it received at `receivedAt` and
answers at `answeredAt`, its own clock being right to `σ` ms: it copies the
transmit timestamp and puts the two moments. The other fields are its own. -/
structure Serves (σ : ℚ) (request : Buffer) (receivedAt answeredAt : ℚ) (answer : Buffer) :
    Prop where
  origin : timestampAt answer 24 28 = timestampAt request 40 44
  receive : ∃ x, |x - receivedAt| ≤ σ ∧ timestampAt answer 32 36 = some (.ofMs x)
  transmit : ∃ x, |x - answeredAt| ≤ σ ∧ timestampAt answer 40 44 = some (.ofMs x)

/-- What the front of an answer has is what the answer has. -/
theorem timestampAt_of_front {packet answer : Buffer} (h : packet <+: answer) {s f : ℕ}
    (hs : s + 4 ≤ packet.length) (hf : f + 4 ≤ packet.length) :
    timestampAt answer s f = timestampAt packet s f := by
  obtain ⟨rest, rfl⟩ := h
  have hword : ∀ {i : ℕ}, i + 4 ≤ packet.length → wordAt (packet ++ rest) i = wordAt packet i := by
    intro i hi
    have hslice : Bytes.slice (packet ++ rest) i (i + 4) = Bytes.slice packet i (i + 4) := by
      refine Bytes.slice_congr (by rw [List.length_append]; omega) hi ?_
      intro j _ hj
      exact List.getElem?_append_left (by omega)
    unfold wordAt
    rw [hslice]
  unfold timestampAt
  rw [hword hs, hword hf]

namespace Network

/-- A callback of the client that this network lets happen: the clock shows what
it shows, and a full read brings the front of an answer, or a packet that does not
echo `secret`. -/
def Allows (secret : Timestamp) (k : Network) : Event → Prop
  | .now t => t = .ofMs k.clock.reading
  | .recvFrom _ _ _ packet (.ok n) =>
    n = packet.length →
      (∃ answer ∈ k.answers, packet <+: answer) ∨ timestampAt packet 24 28 ≠ some secret
  | _ => True

/-- What a callback does to the network: a send leaves a datagram, and the clock is
stepped by the offset, at once. -/
def after (k : Network) : Event → Network
  | .sendTo _ _ bytes _ => { k with requests := ⟨k.clock.time, bytes⟩ :: k.requests }
  | .adjustClock _ _ offsetMs _ =>
    { k with clock := ⟨k.clock.time, k.clock.behind - offsetMs.toInt⟩ }
  | _ => k

/-- A step of the network, with the client's callback if it is one. Datagrams are
never taken back, so any of them may arrive, or be answered, late and often. -/
inductive Step (ρ σ : ℚ) (secret : Timestamp) : Network → Option Event → Network → Prop
  | pass {k : Network} {clock : Clock ℚ} (h : Drifts ρ k.clock clock) :
      Step ρ σ secret k none { k with clock }
  | arrive {k : Network} {sent : Datagram} (h : sent ∈ k.requests) :
      Step ρ σ secret k none { k with received := ⟨k.clock.time, sent.bytes⟩ :: k.received }
  | serve {k : Network} {request : Datagram} {answer : Buffer} (h : request ∈ k.received)
      (hserves : Serves σ request.bytes request.time k.clock.time answer) :
      Step ρ σ secret k none { k with answers := answer :: k.answers }
  | callback {k : Network} {e : Event} (h : k.Allows secret e) :
      Step ρ σ secret k (some e) (k.after e)

variable {ρ σ : ℚ} {secret : Timestamp} {k k' : Network} {es : List Event}

/-! ## Time and the clock -/

theorem after_time (k : Network) (e : Event) : (k.after e).clock.time = k.clock.time := by
  cases e <;> rfl

theorem after_clock {e : Event} (k : Network) (h : e.isAdjust = false) :
    (k.after e).clock = k.clock := by
  cases e with
  | adjustClock _ _ _ _ => cases h
  | _ => rfl

theorem Step.time_le {l : Option Event} (h : Step ρ σ secret k l k') :
    k.clock.time ≤ k'.clock.time := by
  cases h with
  | pass h => exact h.time
  | arrive _ => exact le_rfl
  | serve _ _ => exact le_rfl
  | callback _ => rw [after_time]

/-- Unless it sets the clock, a step lets it drift at most. -/
theorem Step.drifts {l : Option Event} (h : Step ρ σ secret k l k')
    (hl : ∀ e, l = some e → e.isAdjust = false) : Drifts ρ k.clock k'.clock := by
  cases h with
  | pass h => exact h
  | arrive _ => exact .refl _
  | serve _ _ => exact .refl _
  | @callback e _ =>
    rw [k.after_clock (hl e rfl)]
    exact .refl _

theorem time_le (h : Observed (Step ρ σ secret) k es k') : k.clock.time ≤ k'.clock.time :=
  Observed.rel (R := fun k k' : Network => k.clock.time ≤ k'.clock.time) (P := fun _ => True)
    (fun _ => le_rfl) le_trans Step.time_le (fun _ => Step.time_le) h (fun _ _ => trivial)

/-- Between two settings the clock drifts. -/
theorem drifts (h : Observed (Step ρ σ secret) k es k') (hes : ∀ e ∈ es, e.isAdjust = false) :
    Drifts ρ k.clock k'.clock := by
  refine Observed.rel (R := fun k k' : Network => Drifts ρ k.clock k'.clock)
    (fun k => .refl k.clock) Drifts.trans ?_ ?_ h hes
  · intro k k' hstep
    exact hstep.drifts nofun
  · intro k e k' he hstep
    refine hstep.drifts ?_
    intro e' he'
    exact Option.some.inj he' ▸ he

/-- A packet is read, the clock is read and then set: the packet is one that may be
read, and the clock drifts until it is set, is set, and drifts on. -/
theorem taken {pre checks : List Event} {address : UInt32} {port : UInt16} {buffer packet : Buffer}
    {result : Except NetworkError ℕ} {receivedAt : Timestamp} {e : Event}
    (h : Observed (Step ρ σ secret) k
      ((pre ++ .recvFrom address port buffer packet result :: .now receivedAt :: checks) ++ [e]) k')
    (hquiet : ∀ e' ∈ pre ++ .recvFrom address port buffer packet result :: .now receivedAt ::
      checks, e'.isAdjust = false) :
    ∃ (k₁ : Network) (shown set : Clock ℚ), Observed (Step ρ σ secret) k pre k₁ ∧
      k₁.Allows secret (.recvFrom address port buffer packet result) ∧
      receivedAt = .ofMs shown.reading ∧ k₁.clock.time ≤ shown.time ∧
      Drifts ρ k.clock shown ∧ Drifts ρ shown set ∧
      ∀ server serverTime offsetMs leapSecond,
        e = .adjustClock server serverTime offsetMs leapSecond →
        Drifts ρ ⟨set.time, set.behind - offsetMs.toInt⟩ k'.clock := by
  rw [List.append_assoc] at h
  obtain ⟨k₁, k₁', hbefore, hread, hrest⟩ := h.split_cons
  obtain ⟨k₂, k₂', hwait, hnow, hrest⟩ := hrest.uncons
  obtain ⟨k₃, k₃', hchecks, hset, hafter⟩ := hrest.split_cons
  have hpre := drifts hbefore fun e' he' => hquiet e' (List.mem_append_left _ he')
  have hidle := drifts hwait (List.forall_mem_nil _)
  have hcheck := drifts hchecks fun e' he' => hquiet e' (List.mem_append_right _
    (List.mem_cons_of_mem _ (List.mem_cons_of_mem _ he')))
  have hend := drifts hafter (List.forall_mem_nil _)
  cases hread with
  | callback hallows =>
    cases hnow with
    | callback hshown =>
      cases hset with
      | callback _ =>
        refine ⟨k₁, k₂.clock, k₃.clock, hbefore, hallows, hshown, hidle.time, hpre.trans hidle,
          hcheck, ?_⟩
        intro server serverTime offsetMs leapSecond hsets
        subst hsets
        exact hend

/-! ## Where datagrams come from -/

/-- A datagram on record was on record before, or was sent in this stretch of
callbacks. -/
theorem requests_after (h : Observed (Step ρ σ secret) k es k') {sent : Datagram}
    (hsent : sent ∈ k'.requests) :
    sent ∈ k.requests ∨ k.clock.time ≤ sent.time ∧
      ∃ address port answer, .sendTo address port sent.bytes answer ∈ es := by
  induction h with
  | nil k => exact Or.inl hsent
  | silent hstep hrest ih =>
    rcases ih hsent with hold | ⟨htime, hnew⟩
    · cases hstep with
      | pass _ => exact Or.inl hold
      | arrive _ => exact Or.inl hold
      | serve _ _ => exact Or.inl hold
    · exact Or.inr ⟨hstep.time_le.trans htime, hnew⟩
  | @seen k _ _ e es hstep hrest ih =>
    rcases ih hsent with hold | ⟨htime, address, port, answer, hnew⟩
    · cases hstep with
      | callback _ =>
        cases e with
        | sendTo address port bytes answer =>
          rcases List.mem_cons.mp hold with rfl | hold
          · exact Or.inr ⟨le_rfl, address, port, answer, List.mem_cons_self⟩
          · exact Or.inl hold
        | _ => exact Or.inl hold
    · exact Or.inr ⟨hstep.time_le.trans htime, address, port, answer,
        List.mem_cons_of_mem e hnew⟩

/-- A stretch that sends nothing leaves what there was. -/
theorem requests_kept (h : Observed (Step ρ σ secret) k es k')
    (hnothing : ∀ address port bytes answer, Event.sendTo address port bytes answer ∉ es) :
    ∀ sent ∈ k'.requests, sent ∈ k.requests := by
  intro sent hsent
  rcases requests_after h hsent with hold | ⟨_, address, port, answer, hnew⟩
  · exact hold
  · exact absurd hnew (hnothing address port sent.bytes answer)

/-- **Answers have a cause**: every one was made by a server, for a request that
had arrived, and every request that arrived had been sent. -/
structure Causal (σ : ℚ) (k : Network) : Prop where
  requests : ∀ sent ∈ k.requests, sent.time ≤ k.clock.time
  received : ∀ request ∈ k.received, request.time ≤ k.clock.time ∧
    ∃ sent ∈ k.requests, sent.bytes = request.bytes ∧ sent.time ≤ request.time
  answers : ∀ answer ∈ k.answers, ∃ request ∈ k.received, ∃ answeredAt,
    request.time ≤ answeredAt ∧ answeredAt ≤ k.clock.time ∧
      Serves σ request.bytes request.time answeredAt answer

/-- Time and sending leave causes in place. -/
theorem Causal.later (h : k.Causal σ) {clock : Clock ℚ} (hclock : k.clock.time ≤ clock.time)
    {requests : List Datagram} (hold : ∀ sent ∈ k.requests, sent ∈ requests)
    (hnew : ∀ sent ∈ requests, sent ∈ k.requests ∨ sent.time ≤ clock.time) :
    Causal σ { k with clock, requests } := by
  refine ⟨?_, ?_, ?_⟩
  · intro sent hsent
    rcases hnew sent hsent with hsent | htime
    · exact (h.requests sent hsent).trans hclock
    · exact htime
  · intro request hrequest
    obtain ⟨htime, sent, hsent, hbytes, hbefore⟩ := h.received request hrequest
    exact ⟨htime.trans hclock, sent, hold sent hsent, hbytes, hbefore⟩
  · intro answer hanswer
    obtain ⟨request, hrequest, answeredAt, hafter, hbefore, hserves⟩ := h.answers answer hanswer
    exact ⟨request, hrequest, answeredAt, hafter, hbefore.trans hclock, hserves⟩

theorem Causal.step {l : Option Event} (h : k.Causal σ) (hstep : Step ρ σ secret k l k') :
    k'.Causal σ := by
  cases hstep with
  | pass hdrift => exact h.later hdrift.time (fun _ hsent => hsent) (fun _ hsent => Or.inl hsent)
  | @arrive sent hsent =>
    refine ⟨h.requests, ?_, ?_⟩
    · intro request hrequest
      rcases List.mem_cons.mp hrequest with rfl | hrequest
      · exact ⟨le_rfl, sent, hsent, rfl, h.requests sent hsent⟩
      · exact h.received request hrequest
    · intro answer hanswer
      obtain ⟨request, hrequest, hserved⟩ := h.answers answer hanswer
      exact ⟨request, List.mem_cons_of_mem _ hrequest, hserved⟩
  | @serve request answer hrequest hserves =>
    refine ⟨h.requests, h.received, ?_⟩
    intro other hother
    rcases List.mem_cons.mp hother with rfl | hother
    · exact ⟨request, hrequest, k.clock.time, (h.received request hrequest).1, le_rfl, hserves⟩
    · exact h.answers other hother
  | @callback e _ =>
    cases e with
    | sendTo address port bytes answer =>
      refine h.later le_rfl (fun _ hsent => List.mem_cons_of_mem _ hsent) ?_
      intro sent hsent
      rcases List.mem_cons.mp hsent with rfl | hsent
      · exact Or.inr le_rfl
      · exact Or.inl hsent
    | adjustClock _ _ offsetMs _ =>
      show Causal σ { k with clock := ⟨k.clock.time, k.clock.behind - offsetMs.toInt⟩ }
      refine h.later ?_ (fun _ hsent => hsent) (fun _ hsent => Or.inl hsent)
      exact le_rfl
    | _ => exact h

theorem Causal.run (h : k.Causal σ) (hrun : Observed (Step ρ σ secret) k es k') :
    k'.Causal σ :=
  Observed.inv (I := Causal σ) (fun hcausal hstep => hcausal.step hstep) hrun h

end Network

/-! ## The system -/

/-- The last call that stamped a request, and the clock when it was made. -/
structure Asked (A : Type) where
  call : Call A
  began : Clock ℚ

/-- A client on a network. What it asked last, and when its clock was last set, are
kept for the record: no step looks at them. -/
structure System (A : Type) where
  client : Client A
  network : Network
  asked : Option (Asked A)
  setAt : Option ℚ

namespace System

/-- True time. -/
def time (s : System A) : ℚ := s.network.clock.time

/-- A fresh client, and nothing on the wire. -/
structure Initial (s : System A) : Prop where
  client : Sntp.Initial s.client
  requests : s.network.requests = []
  received : s.network.received = []
  answers : s.network.answers = []
  asked : s.asked = none
  setAt : s.setAt = none

variable [Authenticator A]

/-- A call of the client, its callbacks laid against the network. -/
structure Calls (ρ σ : ℚ) (s : System A) (call : Call A) (s' : System A) : Prop where
  makes : Makes s.client call s'.client
  network : Observed (Network.Step ρ σ s.client.lastRequestTime) s.network call.events s'.network
  fresh : ∀ stored, call.stamp = some stored →
    ∀ sent ∈ s.network.requests, timestampAt sent.bytes 40 44 ≠ some stored
  asked : s'.asked = if call.stamp = none then s.asked else some ⟨call, s.network.clock⟩
  setAt : s'.setAt = if call.adjusts = [] then s.setAt else some s'.time

/-- A step of the system: between calls the network goes on alone. -/
inductive Step (ρ σ : ℚ) : System A → Option (Call A) → System A → Prop
  | wait {s : System A} {network : Network} {secret : Timestamp}
      (h : Network.Step ρ σ secret s.network none network) : Step ρ σ s none { s with network }
  | call {s s' : System A} {call : Call A} (h : Calls ρ σ s call s') : Step ρ σ s (some call) s'

variable {ρ σ : ℚ} {s s' : System A} {call : Call A}

/-- What was asked last is the last call that stamped a request. -/
theorem asked_run {calls : List (Call A)} (h₀ : s.Initial) (h : Observed (Step ρ σ) s calls s')
    {asked : Asked A} (hasked : s'.asked = some asked) :
    ∃ pre post, calls = pre ++ asked.call :: post ∧ ∀ call ∈ post, call.stamp = none := by
  refine Observed.history (J := fun calls s => ∀ asked, s.asked = some asked → ∃ pre post,
    calls = pre ++ asked.call :: post ∧ ∀ call ∈ post, call.stamp = none) ?_ ?_ h ?_ asked hasked
  · intro calls s s' hbefore hstep
    cases hstep with
    | wait _ => exact hbefore
  · intro calls s call s' hbefore hstep asked hasked
    cases hstep with
    | call hcall =>
      rw [hcall.asked] at hasked
      split at hasked
      next hstamp =>
        obtain ⟨pre, post, rfl, hpost⟩ := hbefore asked hasked
        refine ⟨pre, post ++ [call], by simp, ?_⟩
        intro other hother
        rcases List.mem_append.mp hother with hother | hother
        · exact hpost other hother
        · rw [List.mem_singleton.mp hother]
          exact hstamp
      next =>
        obtain rfl := Option.some.inj hasked
        exact ⟨calls, [], rfl, List.forall_mem_nil _⟩
  · intro asked hasked
    rw [h₀.asked] at hasked
    cases hasked

/-- What a system does is a run of its client. -/
theorem client_run {calls : List (Call A)} (h : Observed (Step ρ σ) s calls s') :
    Run Makes s.client calls s'.client := by
  refine h.run_of System.client ?_ ?_
  · intro s s' hstep
    cases hstep with
    | wait _ => rfl
  · intro s call s' hstep
    cases hstep with
    | call h => exact h.makes

end System

end Sntp
