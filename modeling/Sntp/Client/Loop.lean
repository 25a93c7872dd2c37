import Sntp.Client.Client

/-!
# The client's loops, and what a client must be for them

Both retry loops have one shape. A round that goes again is a `Stall`, a
transport call that moved nothing followed by a clock reading, and `Retried`
says what a whole loop did: stalls, and then either the watch ended or the loop
did. `retry_retried` gets that from a description of one round.

`Client.Valid` is the representation invariant the two calls are executed
under. With it the defensive branches of the source disappear: no trace of a
call takes one.
-/

namespace Sntp

variable {A H : Type}

/-! ## Loops -/

/-- A transport call that moved nothing, and the reading taken after it. -/
structure Stall where
  attempt : Event
  reading : Timestamp

/-- The callbacks of a stall. -/
def Stall.events (s : Stall) : List Event := [s.attempt, .now s.reading]

/-- What a watched loop did: it stalled as `Go` allows, and then the watch ended
on it or it ended with a result as `End` allows. -/
inductive Retried {ρ : Type} (Go : Stall → Prop) (End : List Event → ρ → Prop) (watch : ℕ) :
    List Event → Option ρ → Prop
  | watched {stalls : List Stall} (hgo : ∀ s ∈ stalls, Go s) (hlen : stalls.length = watch) :
      Retried Go End watch (stalls.flatMap Stall.events) none
  | ended {stalls : List Stall} {tail : List Event} {result : ρ} (hgo : ∀ s ∈ stalls, Go s)
      (hlen : stalls.length < watch) (hend : End tail result) :
      Retried Go End watch (stalls.flatMap Stall.events ++ tail) (some result)

/-- The stalls of a loop, and the rest of what it did. -/
theorem Retried.split {ρ : Type} {Go : Stall → Prop} {End : List Event → ρ → Prop} {watch : ℕ}
    {events : List Event} {result : Option ρ} (h : Retried Go End watch events result) :
    ∃ (stalls : List Stall) (tail : List Event),
      events = stalls.flatMap Stall.events ++ tail ∧ (∀ s ∈ stalls, Go s) ∧
      (result = none ∧ tail = [] ∧ stalls.length = watch ∨
        ∃ r, result = some r ∧ stalls.length < watch ∧ End tail r) := by
  cases h with
  | watched hgo hlen => exact ⟨_, [], (List.append_nil _).symm, hgo, Or.inl ⟨rfl, rfl, hlen⟩⟩
  | ended hgo hlen hend => exact ⟨_, _, rfl, hgo, Or.inr ⟨_, rfl, hlen, hend⟩⟩

/-- A loop with no reason to go again ends where it began. -/
theorem Retried.at_once {ρ : Type} {Go : Stall → Prop} {End : List Event → ρ → Prop} {watch : ℕ}
    {events : List Event} {result : Option ρ} (h : Retried Go End (watch + 1) events result)
    (hgo : ∀ s, ¬ Go s) : ∃ r, result = some r ∧ End events r := by
  obtain ⟨stalls, tail, rfl, hstalls, hrest⟩ := h.split
  obtain rfl : stalls = [] := List.eq_nil_iff_forall_not_mem.mpr fun s hs => hgo s (hstalls s hs)
  rcases hrest with ⟨_, _, hlen⟩ | ⟨r, hr, _, hend⟩
  · cases hlen
  · exact ⟨r, hr, hend⟩

/-- One round that goes again: the log grows by the callbacks of a stall. -/
structure Round (Go : Stall → Prop) (w : World A H) (s : Stall) (w' : World A H) : Prop where
  log : w'.log = w.log ++ s.events
  go : Go s

theorem Round.run {Go : Stall → Prop} {w w' : World A H} {stalls : List Stall}
    (h : Transition.Run (Round Go) w stalls w') :
    w'.log = w.log ++ stalls.flatMap Stall.events ∧ ∀ s ∈ stalls, Go s := by
  induction h with
  | nil w => simp
  | cons hround _ ih =>
    obtain ⟨hlog, hgo⟩ := ih
    refine ⟨?_, ?_⟩
    · rw [hlog, hround.log, List.flatMap_cons, List.append_assoc]
    · rw [List.forall_mem_cons]
      exact ⟨hround.go, hgo⟩

/-- A round that ends the loop with a result. -/
structure Exit {ρ : Type} (End : List Event → ρ → Prop) (Leave : ρ → Client A → Prop)
    (w : World A H) (result : ρ) (w' : World A H) : Prop where
  log : ∃ tail, w'.log = w.log ++ tail ∧ End tail result
  leave : Leave result w'.client

/-- The loop rule at the client's worlds: describe one round, get the loop. The
client is in `Keep` throughout, and `Leave` relates it to the result. -/
theorem retry_retried {ρ : Type} {body : ClientM A H (Option ρ)} {Keep : Client A → Prop}
    {Leave : ρ → Client A → Prop} {Go : Stall → Prop} {End : List Event → ρ → Prop}
    (hbody : ∀ w : World A H, Keep w.client →
      (∃ s w', body.run w = (some none, w') ∧ Round Go w s w' ∧ Keep w'.client) ∨
      (∃ result w', body.run w = (some (some result), w') ∧ Exit End Leave w result w'))
    (watch : ℕ) {w : World A H} (hkeep : Keep w.client) :
    ∃ events result w', (Watch.retry body watch).run w = (result, w') ∧
      w'.log = w.log ++ events ∧ Retried Go End watch events result ∧
      (result = none ∧ Keep w'.client ∨ ∃ r, result = some r ∧ Leave r w'.client) := by
  obtain ⟨stalls, mid, hrounds, hmid, hend⟩ := Watch.retry_rule hbody watch hkeep
  obtain ⟨hlog, hgo⟩ := Round.run hrounds
  rcases hend with ⟨hrun, hlen⟩ | ⟨result, w', hrun, hlen, ⟨tail, htail, hend⟩, hleave⟩
  · exact ⟨_, none, mid, hrun, hlog, .watched hgo hlen, Or.inl ⟨rfl, hmid⟩⟩
  · refine ⟨_, some result, w', hrun, ?_, .ended hgo hlen hend, Or.inr ⟨result, rfl, hleave⟩⟩
    rw [htail, hlog, List.append_assoc]

/-! ## The representation invariant -/

/-- What the code relies on in a client: the index names a server, the packet
fits the buffer, and it has grown past the base size only under an
authenticator. -/
structure Client.Valid [Authenticator A] (c : Client A) : Prop where
  index : c.currentServer < c.servers.length
  base : packetBaseSize ≤ c.packetSize.toNat
  fits : c.packetSize.toNat ≤ c.buffer.length
  bare : Authenticator.configured A = false → c.packetSize.toNat = packetBaseSize

/-- The server in use, for an index that names one. -/
theorem Client.Valid.server [Authenticator A] {c : Client A} (h : c.Valid) :
    ∃ server, c.servers[c.currentServer]? = some server :=
  ⟨_, List.getElem?_eq_getElem h.index⟩

theorem Client.Valid.buffer_base [Authenticator A] {c : Client A} (h : c.Valid) :
    packetBaseSize ≤ c.buffer.length :=
  h.base.trans h.fits

end Sntp
