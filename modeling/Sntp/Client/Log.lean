import Mathlib.Data.List.Basic
import Sntp.Client.Runs

/-!
# Reading a log

What is said about a call is said about the callbacks it made. The functions
here pick out of a log what those statements are about: the first clock reading,
the reading that opens a retry window, the readings after a transport call that
moved nothing, the packet read in full, the clock adjustments.

For each of them one lemma says what it is on a trace. Three facts about the
loops come out of that, and the deadlines need no others: a reading that met a
deadline is the last one (`Receives.timedOut_of_reading`, `Window.closes`), a call
that has not returned used up its watch (`Window.endless`), and no call makes
more than one transport call beyond its empty ones (`Window.count`).
-/

namespace Sntp

variable {A : Type}

/-! ## What a log says -/

namespace Event

/-- A call into the transport. -/
def isTransport : Event → Bool
  | sendTo .. => true
  | recvFrom .. => true
  | _ => false

/-- A transport call that reported no error and moved nothing. -/
def movedNothing : Event → Bool
  | sendTo _ _ _ (.ok 0) => true
  | recvFrom _ _ _ _ (.ok 0) => true
  | _ => false

/-- A clock adjustment. -/
def isAdjust : Event → Bool
  | adjustClock .. => true
  | _ => false

/-- What an authenticator asked to validate a packet answered. -/
def validation : Event → Option (Except AuthError Unit)
  | validateServerAuth _ _ answer => some answer
  | _ => none

end Event

/-- The first clock reading of a call. -/
def firstReading : List Event → Option Timestamp
  | [] => none
  | .now t :: _ => some t
  | _ :: events => firstReading events

/-- The clock reading that opens the retry window: the one right before the
first transport call. -/
def windowOpen : List Event → Option Timestamp
  | .now t :: .sendTo .. :: _ => some t
  | .now t :: .recvFrom .. :: _ => some t
  | _ :: events => windowOpen events
  | [] => none

/-- The readings taken right after the transport moved nothing, in order. -/
def emptyReadings : List Event → List Timestamp
  | .sendTo _ _ _ (.ok 0) :: .now t :: events => t :: emptyReadings events
  | .recvFrom _ _ _ _ (.ok 0) :: .now t :: events => t :: emptyReadings events
  | _ :: events => emptyReadings events
  | [] => []

/-- The first packet of `size` bytes read, and the clock reading after it. -/
def fullRead (size : ℕ) : List Event → Option (Buffer × Timestamp)
  | [] => none
  | .recvFrom _ _ _ packet (.ok n) :: events =>
    if n = size then (firstReading events).map fun t => (packet, t) else fullRead size events
  | _ :: events => fullRead size events

/-- How often a call went to the transport. -/
def transportCalls (events : List Event) : ℕ := events.countP Event.isTransport

namespace Call

/-- The clock adjustments of a call, with their arguments. -/
def adjusts (call : Call A) : List Event := call.events.filter Event.isAdjust

/-- The request timestamp a call stored: a send that got a nonzero clock reading
stores that reading, stamped. -/
def stamp (call : Call A) : Option Timestamp :=
  match call.op with
  | .receive _ => none
  | .send randomNumber _ =>
    match firstReading call.events with
    | none => none
    | some reading => if reading = .zero then none else some (stamped reading randomNumber)

/-- A receive call. -/
def IsReceive (call : Call A) : Prop := ∃ blockTimeMs, call.op = .receive blockTimeMs

/-- A receive call with a full read of `packet`, with `receivedAt` the clock
reading after it. -/
def ReadsFull (call : Call A) (packet : Buffer) (receivedAt : Timestamp) : Prop :=
  call.IsReceive ∧ ∃ pre address port buffer rest, call.events
    = pre ++ .recvFrom address port buffer packet (.ok call.before.packetSize.toNat) ::
      .now receivedAt :: rest

/-- The call returned this from `receiveTimeResponse`. -/
def Returned (call : Call A) (r : Except ReceiveError Reception) : Prop :=
  call.outcome = some (.received r)

theorem returned_iff {call : Call A} {result : Option (Except ReceiveError Reception)}
    (h : call.outcome = result.map .received) {r : Except ReceiveError Reception} :
    call.Returned r ↔ result = some r := by
  rw [Returned, h]
  cases result with
  | none => exact ⟨nofun, nofun⟩
  | some r' =>
    constructor
    · intro hreturned
      cases hreturned
      rfl
    · intro hresult
      cases hresult
      rfl

theorem sent_iff {call : Call A} {result : Option (Except SendError Unit)}
    (h : call.outcome = result.map .sent) {r : Except SendError Unit} :
    call.outcome = some (.sent r) ↔ result = some r := by
  rw [h]
  cases result with
  | none => exact ⟨nofun, nofun⟩
  | some r' =>
    constructor
    · intro hsent
      cases hsent
      rfl
    · intro hresult
      cases hresult
      rfl

/-- A send call returns nothing from `receiveTimeResponse`. -/
theorem not_returned {call : Call A} {result : Option (Except SendError Unit)}
    (h : call.outcome = result.map .sent) (r : Except ReceiveError Reception) :
    ¬ call.Returned r := by
  rw [Returned, h]
  cases result with
  | none => exact nofun
  | some _ => exact nofun

end Call

/-! ## Stalls -/

/-- A stall is what its name says: nothing moved. -/
def Stall.Empty (s : Stall) : Prop := s.attempt.movedNothing = true

theorem Event.movedNothing.transport {e : Event} (h : e.movedNothing = true) :
    e.isTransport = true := by
  cases e <;> first | rfl | cases h

@[simp] theorem emptyReadings_now (t : Timestamp) (events : List Event) :
    emptyReadings (.now t :: events) = emptyReadings events := rfl

theorem emptyReadings_stall {s : Stall} (h : s.Empty) (events : List Event) :
    emptyReadings (s.attempt :: .now s.reading :: events) = s.reading :: emptyReadings events := by
  obtain ⟨attempt, reading⟩ := s
  match attempt, h with
  | .sendTo _ _ _ (.ok 0), _ => rfl
  | .recvFrom _ _ _ _ (.ok 0), _ => rfl

theorem emptyReadings_stalls {stalls : List Stall} (h : ∀ s ∈ stalls, s.Empty)
    (events : List Event) :
    emptyReadings (stalls.flatMap Stall.events ++ events)
      = stalls.map Stall.reading ++ emptyReadings events := by
  induction stalls with
  | nil => rfl
  | cons s stalls ih =>
    rw [List.forall_mem_cons] at h
    show emptyReadings (s.attempt :: .now s.reading :: (stalls.flatMap Stall.events ++ events)) = _
    rw [emptyReadings_stall h.1, ih h.2]
    rfl

theorem transportCalls_other {e : Event} (h : e.isTransport = false) (events : List Event) :
    transportCalls (e :: events) = transportCalls events := by
  unfold transportCalls
  rw [List.countP_cons_of_neg (Bool.eq_false_iff.mp h)]

theorem transportCalls_stall {s : Stall} (h : s.Empty) (events : List Event) :
    transportCalls (s.attempt :: .now s.reading :: events) = transportCalls events + 1 := by
  rw [transportCalls, List.countP_cons_of_pos (Event.movedNothing.transport h)]
  exact congrArg (· + 1) (transportCalls_other rfl events)

theorem transportCalls_stalls {stalls : List Stall} (h : ∀ s ∈ stalls, s.Empty)
    (events : List Event) :
    transportCalls (stalls.flatMap Stall.events ++ events)
      = stalls.length + transportCalls events := by
  induction stalls with
  | nil => exact (Nat.zero_add _).symm
  | cons s stalls ih =>
    rw [List.forall_mem_cons] at h
    show transportCalls (s.attempt :: .now s.reading :: (stalls.flatMap Stall.events ++ events)) = _
    rw [transportCalls_stall h.1, ih h.2, List.length_cons]
    omega

/-! ## Retry windows -/

/-- The end of a loop: one transport call to begin with, and at most one reading
if it was an empty one. -/
structure OneCall (tail : List Event) : Prop where
  head : ∃ e rest, tail = e :: rest ∧ e.isTransport = true
  calls : transportCalls tail = 1
  readings : (emptyReadings tail).length ≤ 1

/-- What a log says about a retry window: a reading past it is the last one, a
call that has not returned stalled throughout its watch, and no call goes to the
transport more than once without an empty answer. -/
structure Window (blockTimeMs : UInt32) (started : Timestamp) (watch : ℕ) (events : List Event)
    (returned : Bool) : Prop where
  closes : ∀ i reading, (emptyReadings events)[i]? = some reading →
    blockTimeMs.toUInt64 ≤ calculateElapsedMs reading started →
      transportCalls events = i + 1 ∧ returned = true
  endless : returned = false → (emptyReadings events).length = watch
  count : transportCalls events ≤ (emptyReadings events).length + 1

theorem Window.of_eq {blockTimeMs : UInt32} {started : Timestamp} {watch : ℕ}
    {events events' : List Event} {returned : Bool}
    (h : Window blockTimeMs started watch events returned)
    (hreadings : emptyReadings events' = emptyReadings events)
    (hcalls : transportCalls events' = transportCalls events) :
    Window blockTimeMs started watch events' returned := by
  refine ⟨?_, ?_, ?_⟩
  · rw [hreadings, hcalls]
    exact h.closes
  · rw [hreadings]
    exact h.endless
  · rw [hreadings, hcalls]
    exact h.count

/-- A reading in front of a transport call opened the window. -/
theorem windowOpen_first {started t : Timestamp} {e : Event} {events : List Event}
    (he : e.isTransport = true) (h : windowOpen (.now started :: e :: events) = some t) :
    t = started := by
  cases e with
  | sendTo => exact (Option.some.inj h).symm
  | recvFrom => exact (Option.some.inj h).symm
  | _ => cases he

/-- The first thing a loop does, if anything, is go to the transport, so the
reading before it opened the window. -/
theorem Retried.opens {ρ : Type} {Go : Stall → Prop} {End : List Event → ρ → Prop} {watch : ℕ}
    {events : List Event} {result : Option ρ} {started t : Timestamp}
    (h : Retried Go End watch events result) (hgo : ∀ s, Go s → s.Empty)
    (hend : ∀ tail r, End tail r → OneCall tail)
    (ht : windowOpen (.now started :: events) = some t) : t = started := by
  obtain ⟨stalls, tail, rfl, hstalls, hrest⟩ := h.split
  rcases stalls with _ | ⟨s, stalls⟩
  · rcases hrest with ⟨_, rfl, _⟩ | ⟨r, _, _, hr⟩
    · cases ht
    · obtain ⟨e, rest, rfl, he⟩ := (hend tail r hr).head
      exact windowOpen_first he ht
  · have hempty := hgo s (hstalls s List.mem_cons_self)
    exact windowOpen_first (Event.movedNothing.transport hempty) ht

/-- Both loops keep their window: it is enough that a round that goes again is
inside it, and that the end makes one transport call and takes one reading. -/
theorem Retried.window {ρ : Type} {Go : Stall → Prop} {End : List Event → ρ → Prop} {watch : ℕ}
    {events : List Event} {result : Option ρ} {blockTimeMs : UInt32} {started : Timestamp}
    (h : Retried Go End watch events result)
    (hgo : ∀ s, Go s → s.Empty ∧ calculateElapsedMs s.reading started < blockTimeMs.toUInt64)
    (hend : ∀ tail r, End tail r → OneCall tail) :
    Window blockTimeMs started watch events result.isSome := by
  obtain ⟨stalls, tail, rfl, hstalls, hrest⟩ := h.split
  have hempty : ∀ s ∈ stalls, s.Empty := fun s hs => (hgo s (hstalls s hs)).1
  have hreadings := emptyReadings_stalls hempty tail
  have hcalls := transportCalls_stalls hempty tail
  have htail : transportCalls tail ≤ 1 ∧ (emptyReadings tail).length ≤ transportCalls tail := by
    rcases hrest with ⟨_, rfl, _⟩ | ⟨r, _, _, hr⟩
    · exact ⟨Nat.zero_le 1, le_rfl⟩
    · have hone := hend tail r hr
      exact ⟨hone.calls.le, hone.calls ▸ hone.readings⟩
  refine ⟨?_, ?_, ?_⟩
  · intro i reading hi hlate
    have hlt := (List.getElem?_eq_some_iff.mp hi).1
    rw [hreadings, List.length_append, List.length_map] at hlt
    -- a reading past the window is not a stall's, so it is the last one
    have hge : stalls.length ≤ i := by
      by_contra hinside
      rw [not_le] at hinside
      rw [hreadings, List.getElem?_append_left (by rwa [List.length_map]), List.getElem?_map] at hi
      obtain ⟨s, hs, rfl⟩ := Option.map_eq_some_iff.mp hi
      have hearly := (hgo s (hstalls s (List.mem_of_getElem? hs))).2
      exact absurd hlate (UInt64.not_le.mpr hearly)
    rcases hrest with ⟨_, rfl, _⟩ | ⟨r, rfl, _, hr⟩
    · have hnil : (emptyReadings []).length = 0 := rfl
      omega
    · have hone := (hend tail r hr).calls
      exact ⟨by omega, rfl⟩
  · intro hreturned
    rcases hrest with ⟨_, rfl, hlen⟩ | ⟨r, rfl, _, _⟩
    · rw [hreadings, List.length_append, List.length_map, ← hlen]
      rfl
    · cases hreturned
  · rw [hreadings, hcalls, List.length_append, List.length_map]
    omega

theorem SendStalls.inside {address : UInt32} {port : UInt16} {packet : Buffer}
    {blockTimeMs : UInt32} {started : Timestamp} {s : Stall}
    (h : SendStalls address port packet blockTimeMs started s) :
    s.Empty ∧ calculateElapsedMs s.reading started < blockTimeMs.toUInt64 := by
  cases h with
  | unsent hblock => exact ⟨rfl, hblock⟩

theorem Polls.inside {c : Client A} {server : ServerInfo} {blockTimeMs : UInt32}
    {started : Timestamp} {s : Stall} (h : Polls c server blockTimeMs started s) :
    s.Empty ∧ calculateElapsedMs s.reading started < blockTimeMs.toUInt64 := by
  cases h with
  | empty _ hblock => exact ⟨rfl, hblock⟩

theorem SendEnd.one_call {address : UInt32} {port : UInt16} {packet : Buffer}
    {blockTimeMs : UInt32} {started : Timestamp} {tail : List Event} {r : Except SendError Unit}
    (h : SendEnd address port packet blockTimeMs started tail r) : OneCall tail := by
  cases h with
  | failed => exact ⟨⟨_, _, rfl, rfl⟩, rfl, Nat.zero_le 1⟩
  | @miscounted n _ _ => exact ⟨⟨_, _, rfl, rfl⟩, rfl, by cases n <;> exact Nat.zero_le 1⟩
  | timedOut _ => exact ⟨⟨_, _, rfl, rfl⟩, rfl, le_rfl⟩
  | sent => exact ⟨⟨_, _, rfl, rfl⟩, rfl, by cases packet <;> exact Nat.zero_le 1⟩

/-- A read that moved something is not an empty one. -/
theorem emptyReadings_moved {address : UInt32} {port : UInt16} {buffer filled : Buffer} {n : ℕ}
    (hn : n ≠ 0) (events : List Event) :
    emptyReadings (.recvFrom address port buffer filled (.ok n) :: events)
      = emptyReadings events := by
  cases n with
  | zero => exact absurd rfl hn
  | succ n => rfl

section Receive

variable [Authenticator A]

/-- What follows a full read goes to the transport no more. -/
theorem judged_quiet (server : ServerInfo) (packet : Buffer)
    (v : Except DeserializeError Verdict) :
    transportCalls (validations A server packet ++ adjustments server v) = 0 ∧
      emptyReadings (validations A server packet ++ adjustments server v) = [] := by
  unfold validations
  rcases v with e | ⟨a | r⟩ <;> split <;> exact ⟨rfl, rfl⟩

theorem ReceiveEnd.one_call {c : Client A} {server : ServerInfo} {blockTimeMs : UInt32}
    {started : Timestamp} (hvalid : c.Valid) {tail : List Event}
    {r : Except ReceiveError Reception} (h : ReceiveEnd c server blockTimeMs started tail r) :
    OneCall tail := by
  have hbase : 48 ≤ c.packetSize.toNat := hvalid.base
  cases h with
  | failed => exact ⟨⟨_, _, rfl, rfl⟩, rfl, Nat.zero_le 1⟩
  | miscounted hn _ =>
    refine ⟨⟨_, _, rfl, rfl⟩, rfl, ?_⟩
    rw [emptyReadings_moved hn]
    exact Nat.zero_le 1
  | timedOut _ => exact ⟨⟨_, _, rfl, rfl⟩, rfl, le_rfl⟩
  | nothingYet _ _ => exact ⟨⟨_, _, rfl, rfl⟩, rfl, le_rfl⟩
  | refused _ _ =>
    refine ⟨⟨_, _, rfl, rfl⟩, rfl, ?_⟩
    rw [emptyReadings_moved (by omega)]
    exact Nat.zero_le 1
  | @judged buffer packet receivedAt hlen =>
    obtain ⟨hcalls, hreadings⟩ := judged_quiet (A := A) server packet
      (deserializeResponse c.lastRequestTime receivedAt packet)
    refine ⟨⟨_, _, rfl, rfl⟩, ?_, ?_⟩
    · rw [transportCalls, List.countP_cons_of_pos rfl]
      exact congrArg (· + 1) ((transportCalls_other rfl _).trans hcalls)
    · rw [emptyReadings_moved (by omega)]
      show (emptyReadings (validations A server packet ++ adjustments server _)).length ≤ 1
      rw [hreadings]
      exact Nat.zero_le 1

/-- The reading a receive call may end on. -/
theorem ReceiveEnd.reading {c : Client A} {server : ServerInfo} {blockTimeMs : UInt32}
    {started : Timestamp} (hvalid : c.Valid) {tail : List Event}
    {r : Except ReceiveError Reception} (h : ReceiveEnd c server blockTimeMs started tail r) :
    emptyReadings tail = [] ∧ r ≠ .ok .timedOut ∧ r ≠ .ok .nothingYet ∨
      ∃ reading, emptyReadings tail = [reading] ∧
        (r = .ok .timedOut ∧
            c.responseTimeoutMs.toUInt64 ≤ calculateElapsedMs reading c.lastRequestTime ∨
          r = .ok .nothingYet ∧
            calculateElapsedMs reading c.lastRequestTime < c.responseTimeoutMs.toUInt64 ∧
            blockTimeMs.toUInt64 ≤ calculateElapsedMs reading started) := by
  have hbase : 48 ≤ c.packetSize.toNat := hvalid.base
  cases h with
  | failed => exact Or.inl ⟨rfl, nofun, nofun⟩
  | miscounted hn _ => exact Or.inl ⟨emptyReadings_moved hn _, nofun, nofun⟩
  | timedOut hresponse => exact Or.inr ⟨_, rfl, Or.inl ⟨rfl, hresponse⟩⟩
  | nothingYet hresponse hblock => exact Or.inr ⟨_, rfl, Or.inr ⟨rfl, hresponse, hblock⟩⟩
  | refused _ _ => exact Or.inl ⟨emptyReadings_moved (by omega) _, nofun, nofun⟩
  | @judged buffer packet receivedAt hlen =>
    refine Or.inl ⟨?_, ?_⟩
    · rw [emptyReadings_moved (by omega)]
      exact (judged_quiet (A := A) server packet _).2
    · rcases deserializeResponse c.lastRequestTime receivedAt packet with e | ⟨a | r⟩
      · exact ⟨nofun, nofun⟩
      · exact ⟨nofun, nofun⟩
      · exact ⟨nofun, nofun⟩

/-- A reading that meets the response timeout is the last one, and the call
times out on it. -/
theorem Receives.timedOut_of_reading {c c' : Client A} {blockTimeMs : UInt32} {watch : ℕ}
    {events : List Event} {result : Option (Except ReceiveError Reception)}
    (h : Receives c blockTimeMs watch events result c') (hvalid : c.Valid) {reading : Timestamp}
    (hreading : reading ∈ emptyReadings events)
    (hlate : c.responseTimeoutMs.toUInt64 ≤ calculateElapsedMs reading c.lastRequestTime) :
    result = some (.ok .timedOut) ∧ (emptyReadings events).getLast? = some reading := by
  cases h with
  | @mk server started events result c' _ hloop _ =>
    obtain ⟨stalls, tail, rfl, hstalls, hrest⟩ := hloop.split
    have hreadings := emptyReadings_stalls (fun s hs => (hstalls s hs).inside.1) tail
    rw [emptyReadings_now, hreadings] at hreading ⊢
    rcases List.mem_append.mp hreading with hstall | hlast
    · obtain ⟨s, hs, rfl⟩ := List.mem_map.mp hstall
      cases hstalls s hs with
      | empty hresponse _ => exact absurd hlate (UInt64.not_le.mpr hresponse)
    · rcases hrest with ⟨_, rfl, _⟩ | ⟨r, rfl, _, hend⟩
      · cases hlast
      · rcases hend.reading hvalid with ⟨hnil, _⟩ | ⟨t, htail, hcases⟩
        · rw [hnil] at hlast
          cases hlast
        · rw [htail] at hlast ⊢
          obtain rfl := List.mem_singleton.mp hlast
          rcases hcases with ⟨rfl, _⟩ | ⟨_, hresponse, _⟩
          · exact ⟨rfl, List.getLast?_concat⟩
          · exact absurd hlate (UInt64.not_le.mpr hresponse)

/-- A call that times out does so on a reading that meets the response timeout,
and one that answers `nothingYet` on a reading past its block time. -/
theorem Receives.reading_of_deadline {c c' : Client A} {blockTimeMs : UInt32} {watch : ℕ}
    {events : List Event} {result : Option (Except ReceiveError Reception)}
    (h : Receives c blockTimeMs watch events result c') (hvalid : c.Valid) :
    (result = some (.ok .timedOut) → ∃ reading, (emptyReadings events).getLast? = some reading ∧
        c.responseTimeoutMs.toUInt64 ≤ calculateElapsedMs reading c.lastRequestTime) ∧
      (result = some (.ok .nothingYet) → ∀ started, windowOpen events = some started →
        ∃ reading, (emptyReadings events).getLast? = some reading ∧
          blockTimeMs.toUInt64 ≤ calculateElapsedMs reading started) := by
  cases h with
  | @mk server started events result c' _ hloop _ =>
    have hopens : ∀ t, windowOpen (.now started :: events) = some t → t = started := fun t =>
      hloop.opens (fun s hs => hs.inside.1) (fun tail r hr => hr.one_call hvalid)
    obtain ⟨stalls, tail, rfl, hstalls, hrest⟩ := hloop.split
    have hreadings := emptyReadings_stalls (fun s hs => (hstalls s hs).inside.1) tail
    rw [emptyReadings_now, hreadings]
    rcases hrest with ⟨rfl, _, _⟩ | ⟨r, rfl, _, hend⟩
    · exact ⟨nofun, nofun⟩
    · rcases hend.reading hvalid with ⟨_, htimedOut, hnothing⟩ | ⟨t, htail, hcases⟩
      · exact ⟨fun h => absurd (Option.some.inj h) htimedOut,
          fun h => absurd (Option.some.inj h) hnothing⟩
      · rw [htail]
        rcases hcases with ⟨rfl, hresponse⟩ | ⟨rfl, _, hblock⟩
        · exact ⟨fun _ => ⟨t, List.getLast?_concat, hresponse⟩, nofun⟩
        · refine ⟨nofun, fun _ opened hopened => ⟨t, List.getLast?_concat, ?_⟩⟩
          rw [hopens opened hopened]
          exact hblock

/-- A receive call is one window. -/
theorem Receives.window {c c' : Client A} {blockTimeMs : UInt32} {watch : ℕ}
    {events : List Event} {result : Option (Except ReceiveError Reception)} {opened : Timestamp}
    (h : Receives c blockTimeMs watch events result c') (hvalid : c.Valid)
    (hopened : windowOpen events = some opened) :
    Window blockTimeMs opened watch events result.isSome := by
  cases h with
  | @mk server started events result c' _ hloop _ =>
    rw [hloop.opens (fun s hs => hs.inside.1) (fun tail r hr => hr.one_call hvalid) hopened]
    have hwindow := hloop.window (fun s hs => hs.inside) (fun tail r hr => hr.one_call hvalid)
    exact hwindow.of_eq rfl (transportCalls_other rfl events)

end Receive

section Send

variable [Authenticator A] {c c' : Client A} {randomNumber blockTimeMs : UInt32} {watch : ℕ}
  {events : List Event} {result : Option (Except SendError Unit)} {opened : Timestamp}

/-- A send call that opened a window is one from there on: before it, it went
nowhere near the transport. -/
theorem Sends.loop (h : Sends c randomNumber blockTimeMs watch events result c')
    (hopened : windowOpen events = some opened) :
    ∃ address port packet loop, Retried (SendStalls address port packet blockTimeMs opened)
        (SendEnd address port packet blockTimeMs opened) watch loop result ∧
      emptyReadings events = emptyReadings loop ∧ transportCalls events = transportCalls loop := by
  cases h with
  | unresolved _ => cases hopened
  | zeroClock _ => cases hopened
  | unsigned _ _ hunsigned =>
    cases hunsigned with
    | mk _ _ _ => cases hopened
  | @tried server address reading started signing loop result c' _ _ hsigns hloop =>
    have hstarted : windowOpen (.now started :: loop) = some opened := by
      cases hsigns with
      | bare _ => exact hopened
      | signed _ _ _ => exact hopened
    obtain rfl := hloop.opens (fun s hs => hs.inside.1) (fun tail r hr => hr.one_call) hstarted
    refine ⟨_, _, _, loop, hloop, ?_, ?_⟩
    · cases hsigns with
      | bare _ => rfl
      | signed _ _ _ => rfl
    · cases hsigns with
      | bare _ =>
        rw [transportCalls_other rfl, transportCalls_other rfl, List.nil_append,
          transportCalls_other rfl]
      | signed _ _ _ =>
        rw [transportCalls_other rfl, transportCalls_other rfl, List.singleton_append,
          transportCalls_other rfl, transportCalls_other rfl]

theorem Sends.window (h : Sends c randomNumber blockTimeMs watch events result c')
    (hopened : windowOpen events = some opened) :
    Window blockTimeMs opened watch events result.isSome := by
  obtain ⟨address, port, packet, loop, hloop, hreadings, hcalls⟩ := h.loop hopened
  have hwindow := hloop.window (fun s hs => hs.inside) (fun tail r hr => hr.one_call)
  exact hwindow.of_eq hreadings hcalls

/-- A send call that gives up does so on a reading past its block time. -/
theorem Sends.reading_of_deadline (h : Sends c randomNumber blockTimeMs watch events result c')
    (hresult : result = some (.error .sendTimeout)) (hopened : windowOpen events = some opened) :
    ∃ reading, (emptyReadings events).getLast? = some reading ∧
      blockTimeMs.toUInt64 ≤ calculateElapsedMs reading opened := by
  subst hresult
  obtain ⟨address, port, packet, loop, hloop, hreadings, _⟩ := h.loop hopened
  obtain ⟨stalls, tail, rfl, hstalls, hrest⟩ := hloop.split
  rw [hreadings, emptyReadings_stalls (fun s hs => (hstalls s hs).inside.1) tail]
  rcases hrest with ⟨hnone, _⟩ | ⟨r, hr, _, hend⟩
  · cases hnone
  · obtain rfl := Option.some.inj hr
    cases hend with
    | timedOut hblock => exact ⟨_, List.getLast?_concat, hblock⟩

end Send

end Sntp
