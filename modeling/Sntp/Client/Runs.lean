import Sntp.Lib.Run
import Sntp.Client.Receive
import Sntp.Client.Send

/-!
# Runs of a client

A `Call` is one call of the client as an observer sees it: what was asked, the
client before and after, the callbacks in between with their answers, and the
outcome, or none if it had not returned when the watch ended. `perform` makes a
call; `Makes` is the step relation it induces once the host is forgotten: any
host, in any state, watched for any number of rounds. A run is a
`Transition.Run` of it, and a client is `Reachable` when some run from a fresh
client leads to it.

A run may go on from a call that had not returned. No caller can do that, so
what holds of these runs holds of more than the real ones.

`Makes.sends` and `Makes.receives` read a step as one of the two traces. The
first thing they give is that every reachable client is `Valid`
(`Reachable.valid`), which is what the traces need themselves.
-/

namespace Sntp

open Transition

variable {A : Type}

/-! ## The invariant is kept -/

/-- A client as construction leaves it. -/
def Initial (c : Client A) : Prop :=
  ∃ servers buffer responseTimeoutMs auth,
    Client.withAuthenticator servers buffer responseTimeoutMs auth = .ok c

/-- Construction starts at the first server, with no request. -/
theorem Initial.starts {c : Client A} (h : Initial c) :
    c.currentServer = 0 ∧ c.lastRequestTime = .zero := by
  obtain ⟨servers, buffer, responseTimeoutMs, auth, h⟩ := h
  unfold Client.withAuthenticator at h
  split at h
  next => cases h
  next =>
    split at h
    next => cases h
    next =>
      cases h
      exact ⟨rfl, rfl⟩

theorem Initial.currentServer {c : Client A} (h : Initial c) : c.currentServer = 0 := h.starts.1

theorem Initial.lastRequestTime {c : Client A} (h : Initial c) : c.lastRequestTime = .zero :=
  h.starts.2

section Valid

variable [Authenticator A]

theorem Initial.valid {c : Client A} (h : Initial c) : c.Valid := by
  obtain ⟨servers, buffer, responseTimeoutMs, auth, h⟩ := h
  unfold Client.withAuthenticator at h
  split at h
  next => cases h
  next hservers =>
    split at h
    next => cases h
    next hbuffer =>
      cases h
      refine ⟨?_, le_rfl, Nat.le_of_not_lt hbuffer, fun _ => rfl⟩
      rw [Bool.not_eq_true, List.isEmpty_eq_false_iff] at hservers
      exact List.length_pos_of_ne_nil hservers

theorem Client.Valid.rotateServer {c : Client A} (h : c.Valid) : c.rotateServer.Valid := by
  refine ⟨?_, h.base, h.fits, h.bare⟩
  have hpos := Nat.zero_lt_of_lt h.index
  show (if c.servers.length = 0 then 0 else (c.currentServer + 1) % c.servers.length)
    < c.servers.length
  rw [if_neg (by omega)]
  exact Nat.mod_lt _ hpos

theorem Client.Valid.settle {c : Client A} (h : c.Valid)
    (result : Option (Except ReceiveError Reception)) : (c.settle result).Valid := by
  have hrotated := h.rotateServer
  rcases result with _ | e | r
  · exact h
  · exact h
  · cases r with
    | synchronised => exact ⟨h.index, h.base, h.fits, h.bare⟩
    | nothingYet => exact h
    | timedOut => exact hrotated
    | rejected =>
      rw [Client.settle_rejected]
      split
      · exact ⟨hrotated.index, hrotated.base, hrotated.fits, hrotated.bare⟩
      · exact hrotated

theorem Client.Valid.alike {c c' : Client A} (h : c.Valid) (halike : c.Alike c') : c'.Valid := by
  obtain ⟨buffer, auth, hbuffer, rfl⟩ := halike
  exact ⟨h.index, h.base, hbuffer ▸ h.fits, h.bare⟩

theorem Receives.valid {c c' : Client A} {blockTimeMs : UInt32} {watch : ℕ} {events : List Event}
    {result : Option (Except ReceiveError Reception)}
    (h : Receives c blockTimeMs watch events result c') (hvalid : c.Valid) : c'.Valid := by
  cases h with
  | mk _ _ halike => exact (hvalid.settle result).alike halike

theorem Sends.valid {c c' : Client A} {randomNumber blockTimeMs : UInt32} {watch : ℕ}
    {events : List Event} {result : Option (Except SendError Unit)}
    (h : Sends c randomNumber blockTimeMs watch events result c') (hvalid : c.Valid) :
    c'.Valid := by
  cases h with
  | unresolved _ => exact hvalid
  | zeroClock _ => exact ⟨hvalid.index, hvalid.base, hvalid.fits, hvalid.bare⟩
  | unsigned _ _ hunsigned => exact hunsigned.valid (hvalid.requested _ _ _)
  | tried _ _ hsigns _ => exact hsigns.valid (hvalid.requested _ _ _)

end Valid

/-! ## Calls -/

/-- What a caller can ask of a client. -/
inductive Op
  | send (randomNumber blockTimeMs : UInt32)
  | receive (blockTimeMs : UInt32)
deriving DecidableEq

/-- What a call returned. -/
inductive Outcome
  | sent (result : Except SendError Unit)
  | received (result : Except ReceiveError Reception)

/-- One call, as seen from outside. -/
structure Call (A : Type) where
  op : Op
  before : Client A
  events : List Event
  outcome : Option Outcome
  after : Client A

/-- Makes one call, and gives the host back for the next. -/
def perform {H : Type} [SntpHost H] [Authenticator A] (watch : ℕ) (op : Op) (c : Client A)
    (host : H) : Call A × H :=
  match op with
  | .send randomNumber blockTimeMs =>
    let (result, w) := (sendTimeRequest watch randomNumber blockTimeMs).run ⟨c, host, []⟩
    (⟨op, c, w.log, result.map .sent, w.client⟩, w.host)
  | .receive blockTimeMs =>
    let (result, w) := (receiveTimeResponse watch blockTimeMs).run ⟨c, host, []⟩
    (⟨op, c, w.log, result.map .received, w.client⟩, w.host)

/-- Makes the calls in order, against one host. -/
def performAll {H : Type} [SntpHost H] [Authenticator A] (watch : ℕ) :
    List Op → Client A → H → List (Call A) × Client A × H
  | [], c, host => ([], c, host)
  | op :: ops, c, host =>
    let (call, host) := perform watch op c host
    let (calls, c', host) := performAll watch ops call.after host
    (call :: calls, c', host)

section Runs

variable [Authenticator A]

/-- `call` is a call `c` can make against some host, and leaves `c'`. -/
def Makes (c : Client A) (call : Call A) (c' : Client A) : Prop :=
  ∃ (H : Type) (_ : SntpHost H) (host : H) (watch : ℕ) (op : Op),
    (perform watch op c host).1 = call ∧ call.after = c'

theorem perform_makes {H : Type} [SntpHost H] (watch : ℕ) (op : Op) (c : Client A) (host : H) :
    Makes c (perform watch op c host).1 (perform watch op c host).1.after :=
  ⟨H, inferInstance, host, watch, op, rfl, rfl⟩

theorem perform_op {H : Type} [SntpHost H] (watch : ℕ) (op : Op) (c : Client A) (host : H) :
    (perform watch op c host).1.op = op := by
  cases op <;> rfl

/-- What one host answers is a run. -/
theorem performAll_run {H : Type} [SntpHost H] (watch : ℕ) (ops : List Op) (c : Client A)
    (host : H) :
    Run Makes c (performAll watch ops c host).1 (performAll watch ops c host).2.1 := by
  induction ops generalizing c host with
  | nil => exact .nil c
  | cons op ops ih => exact .cons (perform_makes watch op c host) (ih _ _)

/-- The states of a client that only ever made calls. -/
def Reachable (c : Client A) : Prop :=
  ∃ c₀ calls, Initial c₀ ∧ Run Makes c₀ calls c

/-- A send call, as its trace. -/
theorem perform_send {H : Type} [SntpHost H] (watch : ℕ) (randomNumber blockTimeMs : UInt32)
    {c : Client A} (host : H) (hvalid : c.Valid) :
    ∃ events result c', (perform watch (.send randomNumber blockTimeMs) c host).1
        = ⟨.send randomNumber blockTimeMs, c, events, result.map .sent, c'⟩ ∧
      Sends c randomNumber blockTimeMs watch events result c' := by
  obtain ⟨events, result, w', hrun, hlog, htrace⟩ := sendTimeRequest_trace watch randomNumber
    blockTimeMs (w := ⟨c, host, []⟩) hvalid
  refine ⟨events, result, w'.client, ?_, htrace⟩
  rw [List.nil_append] at hlog
  simp only [perform, hrun, hlog]

/-- A receive call, as its trace. -/
theorem perform_receive {H : Type} [SntpHost H] (watch : ℕ) (blockTimeMs : UInt32)
    {c : Client A} (host : H) (hvalid : c.Valid) :
    ∃ events result c', (perform watch (.receive blockTimeMs) c host).1
        = ⟨.receive blockTimeMs, c, events, result.map .received, c'⟩ ∧
      Receives c blockTimeMs watch events result c' := by
  obtain ⟨events, result, w', hrun, hlog, htrace⟩ := receiveTimeResponse_trace watch blockTimeMs
    (w := ⟨c, host, []⟩) hvalid
  refine ⟨events, result, w'.client, ?_, htrace⟩
  rw [List.nil_append] at hlog
  simp only [perform, hrun, hlog]

/-- A step is a send or a receive, and its trace says which. -/
theorem Makes.cases {c c' : Client A} {call : Call A} (h : Makes c call c') (hvalid : c.Valid) :
    (∃ randomNumber blockTimeMs watch result,
      call = ⟨.send randomNumber blockTimeMs, c, call.events, result.map .sent, c'⟩ ∧
        Sends c randomNumber blockTimeMs watch call.events result c') ∨
      ∃ blockTimeMs watch result,
        call = ⟨.receive blockTimeMs, c, call.events, result.map .received, c'⟩ ∧
          Receives c blockTimeMs watch call.events result c' := by
  obtain ⟨H, _, host, watch, op, rfl, rfl⟩ := h
  cases op with
  | send randomNumber blockTimeMs =>
    obtain ⟨events, result, c', hcall, htrace⟩ :=
      perform_send watch randomNumber blockTimeMs host hvalid
    rw [hcall]
    exact Or.inl ⟨randomNumber, blockTimeMs, watch, result, rfl, htrace⟩
  | receive blockTimeMs =>
    obtain ⟨events, result, c', hcall, htrace⟩ := perform_receive watch blockTimeMs host hvalid
    rw [hcall]
    exact Or.inr ⟨blockTimeMs, watch, result, rfl, htrace⟩

theorem Makes.sends {c c' : Client A} {call : Call A} (h : Makes c call c') (hvalid : c.Valid)
    {randomNumber blockTimeMs : UInt32} (hop : call.op = .send randomNumber blockTimeMs) :
    ∃ watch result, call.outcome = result.map .sent ∧
      Sends c randomNumber blockTimeMs watch call.events result c' := by
  rcases h.cases hvalid with ⟨_, _, watch, result, hcall, htrace⟩ | ⟨_, _, _, hcall, _⟩
  · rw [hcall] at hop
    cases hop
    exact ⟨watch, result, congrArg Call.outcome hcall, htrace⟩
  · rw [hcall] at hop
    cases hop

theorem Makes.receives {c c' : Client A} {call : Call A} (h : Makes c call c') (hvalid : c.Valid)
    {blockTimeMs : UInt32} (hop : call.op = .receive blockTimeMs) :
    ∃ watch result, call.outcome = result.map .received ∧
      Receives c blockTimeMs watch call.events result c' := by
  rcases h.cases hvalid with ⟨_, _, _, _, hcall, _⟩ | ⟨_, watch, result, hcall, htrace⟩
  · rw [hcall] at hop
    cases hop
  · rw [hcall] at hop
    cases hop
    exact ⟨watch, result, congrArg Call.outcome hcall, htrace⟩

theorem Makes.before {c c' : Client A} {call : Call A} (h : Makes c call c') :
    call.before = c := by
  obtain ⟨H, _, host, watch, op, rfl, -⟩ := h
  cases op <;> rfl

theorem Makes.after {c c' : Client A} {call : Call A} (h : Makes c call c') :
    call.after = c' := by
  obtain ⟨H, _, host, watch, op, -, h⟩ := h
  exact h

/-! ## Reachable clients -/

theorem Makes.valid {c c' : Client A} {call : Call A} (h : Makes c call c') (hvalid : c.Valid) :
    c'.Valid := by
  rcases h.cases hvalid with ⟨_, _, _, _, _, htrace⟩ | ⟨_, _, _, _, htrace⟩
  · exact htrace.valid hvalid
  · exact htrace.valid hvalid

/-- **The representation invariant holds of every reachable client.** -/
theorem Reachable.valid {c : Client A} (h : Reachable c) : c.Valid := by
  obtain ⟨c₀, calls, h₀, hrun⟩ := h
  exact Run.inv (fun hc hcall => hcall.valid hc) hrun h₀.valid

/-- Every step of a run from a valid client is taken from a valid one. -/
theorem valid_run {c c' : Client A} {calls : List (Call A)} (hvalid : c.Valid)
    (hrun : Run Makes c calls c') :
    Run (fun c call c' => c.Valid ∧ Makes c call c') c calls c' :=
  hrun.guard (fun hc hcall => hcall.valid hc) hvalid

theorem Initial.reachable {c : Client A} (h : Initial c) : Reachable c := ⟨c, [], h, .nil c⟩

theorem Reachable.run {c c' : Client A} {calls : List (Call A)} (h : Reachable c)
    (hrun : Run Makes c calls c') : Reachable c' := by
  obtain ⟨c₀, before, h₀, hrun₀⟩ := h
  exact ⟨c₀, before ++ calls, h₀, hrun₀.append hrun⟩

theorem Reachable.makes {c c' : Client A} {call : Call A} (h : Reachable c)
    (hcall : Makes c call c') : Reachable c' :=
  h.run (.single hcall)

end Runs

end Sntp
