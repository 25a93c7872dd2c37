import Sntp.Client.AfterSend
import Sntp.Client.Deadlines
import Sntp.Lib.RoundRobin

/-!
# The servers are asked in turn

The index of the server in use is a pointer into the server list, and a call turns
it when it returned `TimedOut` or `Rejected` and at no other time. Everything else
is round robin: over a run the index counts the turns, and a round of sends, each
followed by a receive call that gave its server up, asks every server once.
-/

namespace Sntp

open Transition RoundRobin

variable {A : Type}

/-- The call gave its server up: it timed out, or was rejected. -/
def Call.rotates (call : Call A) : Bool :=
  match call.outcome with
  | some (.received (.ok .timedOut)) => true
  | some (.received (.ok .rejected)) => true
  | _ => false

/-- The server whose address was asked for. -/
def Event.asked : Event → Option ServerInfo
  | .resolveDns server _ => some server
  | _ => none

/-- The servers a call asked for, in order. -/
def Call.asked (call : Call A) : List ServerInfo := call.events.filterMap Event.asked

/-- A send call. -/
def Call.IsSend (call : Call A) : Prop :=
  ∃ randomNumber blockTimeMs, call.op = .send randomNumber blockTimeMs

theorem Call.rotates_iff {call : Call A} {result : Option (Except ReceiveError Reception)}
    (h : call.outcome = result.map .received) :
    call.rotates = true ↔ result = some (.ok .timedOut) ∨ result = some (.ok .rejected) := by
  rw [Call.rotates, h]
  rcases result with _ | e | r
  · simp
  · simp
  · cases r <;> simp

section Turns

variable [Authenticator A] {c c' : Client A}

/-- Settling turns the pointer on a timeout and on a rejection. -/
theorem Client.settle_currentServer (c : Client A) (hvalid : c.Valid)
    {result : Option (Except ReceiveError Reception)}
    (hturn : result = some (.ok .timedOut) ∨ result = some (.ok .rejected)) :
    (c.settle result).currentServer = place c.servers.length c.currentServer 1 := by
  have hindex := congrArg Session.index (c.settle_session hvalid result)
  rcases hturn with rfl | rfl
  · exact hindex
  · refine hindex.trans ?_
    rw [Session.settle]
    split <;> rfl

/-- **A call turns the pointer exactly when it gave its server up.** -/
theorem Makes.turns {call : Call A} (h : Makes c call c') (hvalid : c.Valid) :
    c'.currentServer =
      if call.rotates then place c.servers.length c.currentServer 1 else c.currentServer := by
  rcases h.cases hvalid with ⟨_, _, _, result, hcall, htrace⟩ | ⟨_, _, result, hcall, htrace⟩
  · have hnever : call.rotates = false := by
      rw [hcall, Call.rotates]
      cases result <;> rfl
    rw [hnever, if_neg Bool.false_ne_true]
    exact htrace.index
  · have hiff := Call.rotates_iff (congrArg Call.outcome hcall)
    have hindex : c'.currentServer = (c.settle result).currentServer :=
      congrArg Session.index htrace.session
    rw [hindex]
    by_cases hturn : call.rotates = true
    · rw [if_pos hturn]
      exact c.settle_currentServer hvalid (hiff.mp hturn)
    · rw [if_neg hturn]
      rw [hiff, not_or] at hturn
      exact Client.settle_keeps_index hturn.1 hturn.2

/-- A send call asks for the server at the index, once. -/
theorem Sends.asks {randomNumber blockTimeMs : UInt32} {watch : ℕ} {events : List Event}
    {result : Option (Except SendError Unit)}
    (h : Sends c randomNumber blockTimeMs watch events result c') :
    ∃ server, c.servers[c.currentServer]? = some server ∧
      events.filterMap Event.asked = [server] := by
  obtain ⟨server, hserver, hcase⟩ := h.written
  refine ⟨server, hserver, ?_⟩
  rcases hcase with ⟨rfl, _⟩ | ⟨_, rfl, _⟩ | ⟨address, reading, signing, rest, rfl, hrest, _⟩
  · rfl
  · rfl
  · have hnone : (signing ++ rest).filterMap Event.asked = [] := by
      apply List.filterMap_eq_nil_iff.mpr
      intro e he
      cases e with
      | resolveDns server answer => exact absurd he (hrest server answer)
      | _ => rfl
    exact congrArg (server :: ·) hnone

/-- A receive call asks for none. -/
theorem Receives.asks {blockTimeMs : UInt32} {watch : ℕ} {events : List Event}
    {result : Option (Except ReceiveError Reception)}
    (h : Receives c blockTimeMs watch events result c') (hvalid : c.Valid) :
    events.filterMap Event.asked = [] := by
  apply List.filterMap_eq_nil_iff.mpr
  have hquiet : ∀ port e, c.Quiet port e → e.asked = none := by
    intro port e h
    rcases h with ⟨t, rfl⟩ | ⟨_, _, _, rfl, _⟩
    · rfl
    · rfl
  obtain ⟨server, _, hshape⟩ := h.quiet_or_full hvalid
  intro e he
  rcases hshape with
    ⟨hall, _⟩ | ⟨before, _, packet, receivedAt, rest, r, rfl, hbefore, _, hjudged, _⟩
  · exact hquiet _ e (hall e he)
  · rcases List.mem_append.mp he with he | he
    · exact hquiet _ e (hbefore e he)
    · rcases List.mem_cons.mp he with rfl | he
      · rfl
      · rcases List.mem_cons.mp he with rfl | he
        · rfl
        · cases hjudged with
          | refused _ =>
            rw [List.mem_singleton.mp he]
            rfl
          | passed =>
            rcases mem_judged he with ⟨_, rfl⟩ | ⟨a, _, rfl⟩
            · rfl
            · rfl

/-- A server that is asked for is the one at the index. -/
theorem Makes.resolves {call : Call A} (h : Makes c call c') (hvalid : c.Valid)
    {server : ServerInfo} {answer : Option UInt32}
    (hmem : .resolveDns server answer ∈ call.events) :
    c.servers[c.currentServer]? = some server := by
  rcases h.cases hvalid with ⟨_, _, _, _, _, htrace⟩ | ⟨_, _, _, _, htrace⟩
  · exact htrace.resolves hmem
  · have hasked : server ∈ call.events.filterMap Event.asked :=
      List.mem_filterMap.mpr ⟨_, hmem, rfl⟩
    rw [htrace.asks hvalid] at hasked
    cases hasked

theorem Makes.asks_of_send {call : Call A} (h : Makes c call c') (hvalid : c.Valid)
    (hsend : call.IsSend) : call.asked.map some = [c.servers[c.currentServer]?] := by
  obtain ⟨_, _, hop⟩ := hsend
  obtain ⟨_, _, _, htrace⟩ := h.sends hvalid hop
  obtain ⟨server, hserver, hasked⟩ := htrace.asks
  rw [Call.asked, hasked, hserver]
  rfl

theorem Makes.asks_of_rotates {call : Call A} (h : Makes c call c') (hvalid : c.Valid)
    (hrotates : call.rotates = true) : call.asked = [] := by
  rcases h.cases hvalid with ⟨_, _, _, result, hcall, _⟩ | ⟨_, _, _, _, htrace⟩
  · rw [hcall, Call.rotates] at hrotates
    cases result <;> cases hrotates
  · exact htrace.asks hvalid

end Turns

section Rounds

variable [Authenticator A] {c c' : Client A}

/-- The server list is the one the client was built with. -/
theorem servers_run {calls : List (Call A)} (hreach : Reachable c)
    (hrun : Run Makes c calls c') : c'.servers = c.servers :=
  (Prod.mk.inj (config_run hreach hrun)).1

/-- Over a run the index counts the calls that gave their server up. -/
theorem currentServer_run {calls : List (Call A)} (hreach : Reachable c)
    (hrun : Run Makes c calls c') :
    c'.currentServer = place c.servers.length c.currentServer (calls.countP Call.rotates) := by
  have hguard :
      Run (fun s call t => (s.Valid ∧ s.servers = c.servers) ∧ Makes s call t) c calls c' :=
    hrun.guard (fun hs hcall => ⟨hcall.valid hs.1,
      (Prod.mk.inj (hcall.config hs.1)).1.trans hs.2⟩) ⟨hreach.valid, rfl⟩
  refine place_of_run ?_ hguard hreach.valid.index
  intro s call t hstep
  obtain ⟨⟨hvalid, hservers⟩, hcall⟩ := hstep
  rw [← hservers]
  exact hcall.turns hvalid

/-- A send, and then a receive call that gives the server up. -/
def IsRound (round : Call A × Call A) : Prop := round.1.IsSend ∧ round.2.rotates = true

/-- The calls of a sequence of rounds. -/
def roundCalls (rounds : List (Call A × Call A)) : List (Call A) :=
  rounds.flatMap fun round => [round.1, round.2]

omit [Authenticator A] in
theorem roundCalls_cons (round : Call A × Call A) (rounds : List (Call A × Call A)) :
    roundCalls (round :: rounds) = [round.1, round.2] ++ roundCalls rounds := rfl

theorem run_round {send receive : Call A} {rounds : List (Call A × Call A)} {c₁ c₂ : Client A}
    (hsend : Makes c send c₁) (hreceive : Makes c₁ receive c₂)
    (hrun : Run Makes c₂ (roundCalls rounds) c') :
    Run Makes c (roundCalls ((send, receive) :: rounds)) c' :=
  .cons hsend (.cons hreceive hrun)

/-- A round asks the server at the index, and moves on. -/
theorem asked_round {round : Call A × Call A} (hreach : Reachable c)
    (hrun : Run Makes c [round.1, round.2] c') (hround : IsRound round) :
    (round.1.asked ++ round.2.asked).map some = [c.servers[c.currentServer]?] ∧
      c'.currentServer = place c.servers.length c.currentServer 1 := by
  obtain ⟨hsend, hrotates⟩ := hround
  obtain ⟨c₁, h₁, h₂⟩ := Run.split (show Run Makes c ([round.1] ++ [round.2]) c' from hrun)
  have hcall₁ : Makes c round.1 c₁ := h₁.of_single
  have hcall₂ : Makes c₁ round.2 c' := h₂.of_single
  have hvalid := hreach.valid
  have hvalid₁ := hcall₁.valid hvalid
  have hservers : c₁.servers = c.servers := servers_run hreach h₁
  have hindex : c₁.currentServer = c.currentServer := by
    obtain ⟨_, _, hop⟩ := hsend
    obtain ⟨_, _, _, htrace⟩ := hcall₁.sends hvalid hop
    exact htrace.index
  constructor
  · rw [hcall₂.asks_of_rotates hvalid₁ hrotates, List.append_nil]
    exact hcall₁.asks_of_send hvalid hsend
  · rw [hcall₂.turns hvalid₁, if_pos hrotates, hservers, hindex]

/-- Rounds ask one server after the other. -/
theorem asked_rounds {rounds : List (Call A × Call A)} (hreach : Reachable c)
    (hrun : Run Makes c (roundCalls rounds) c') (hrounds : ∀ round ∈ rounds, IsRound round) :
    ((roundCalls rounds).flatMap Call.asked).map some
        = visits c.servers c.currentServer rounds.length ∧
      c'.currentServer = place c.servers.length c.currentServer rounds.length := by
  induction rounds generalizing c with
  | nil =>
    cases hrun
    exact ⟨rfl, (place_zero hreach.valid.index).symm⟩
  | cons round rounds ih =>
    rw [List.forall_mem_cons] at hrounds
    obtain ⟨hround, hrounds⟩ := hrounds
    rw [roundCalls_cons] at hrun ⊢
    obtain ⟨c₁, hfirst, hrest⟩ := hrun.split
    obtain ⟨hasked, hindex⟩ := asked_round hreach hfirst hround
    obtain ⟨hlater, hend⟩ := ih (hreach.run hfirst) hrest hrounds
    have hservers := servers_run hreach hfirst
    rw [hservers, hindex] at hlater hend
    constructor
    · have hpair : [round.1, round.2].flatMap Call.asked = round.1.asked ++ round.2.asked := by
        simp
      rw [List.flatMap_append, List.map_append, hpair, hasked, hlater, List.length_cons,
        visits_succ hreach.valid.index]
      rfl
    · rw [hend, place_place, List.length_cons, Nat.add_comm]

/-- **Servers are asked round robin**, over every run of a client. -/
theorem round_robin {c₀ : Client A} (h₀ : Initial c₀) :
    -- the index counts the calls that gave their server up, and only they move it
    (∀ calls c, Run Makes c₀ calls c →
      c.currentServer = calls.countP Call.rotates % c₀.servers.length) ∧
    (∀ (c : Client A) call c', Reachable c → Makes c call c' → call.rotates = false →
      c'.currentServer = c.currentServer) ∧
    -- and it is the server at the index that is asked for
    (∀ pre call post c, Run Makes c₀ (pre ++ call :: post) c →
      ∀ server answer, .resolveDns server answer ∈ call.events →
        c₀.servers[pre.countP Call.rotates % c₀.servers.length]? = some server) ∧
    -- so a round for each server asks each of them once
    ∀ calls c rounds c', Run Makes c₀ calls c → Run Makes c (roundCalls rounds) c' →
      (∀ round ∈ rounds, IsRound round) → rounds.length = c₀.servers.length →
      (roundCalls rounds).flatMap Call.asked = c₀.servers.rotate c.currentServer ∧
        ((roundCalls rounds).flatMap Call.asked).Perm c₀.servers ∧
        c'.currentServer = c.currentServer := by
  have hcount : ∀ calls c, Run Makes c₀ calls c →
      c.currentServer = calls.countP Call.rotates % c₀.servers.length := by
    intro calls c hrun
    have hindex := currentServer_run h₀.reachable hrun
    rwa [h₀.currentServer, place, Nat.zero_add] at hindex
  refine ⟨hcount, ?_, ?_, ?_⟩
  · intro c call c' hreach hcall hkeeps
    rw [hcall.turns hreach.valid, hkeeps, if_neg Bool.false_ne_true]
  · intro pre call post c hrun server answer hmem
    obtain ⟨c₁, c₂, hpre, hcall, _⟩ := hrun.split_cons
    rw [← hcount pre c₁ hpre, ← servers_run h₀.reachable hpre]
    exact hcall.resolves (Reachable.valid ⟨c₀, pre, h₀, hpre⟩) hmem
  · intro calls c rounds c' hrun hrounds hround hlen
    have hreach : Reachable c := ⟨c₀, calls, h₀, hrun⟩
    have hservers := servers_run h₀.reachable hrun
    obtain ⟨hasked, hindex⟩ := asked_rounds hreach hrounds hround
    rw [hlen, ← hservers, visits_round] at hasked
    have hrotate : (roundCalls rounds).flatMap Call.asked = c₀.servers.rotate c.currentServer := by
      rw [← hservers]
      exact List.map_injective_iff.mpr (Option.some_injective _) hasked
    refine ⟨hrotate, ?_, ?_⟩
    · rw [hrotate]
      exact List.rotate_perm _ _
    · rw [hindex, hlen, ← hservers, place_length hreach.valid.index]

/-- Two rounds of a client with two servers: it asks both, and is back at the
first. -/
theorem round_robin_of_two :
    let timeout₁ := (perform 2 (.receive 100) (pending NoAuth.noAuth) (nothingAt ⟨1006, 0⟩)).1
    let request₂ := (perform 2 (.send 0 100) timeout₁.after sentAt1000).1
    let timeout₂ := (perform 2 (.receive 100) request₂.after (nothingAt ⟨1006, 0⟩)).1
    (roundCalls [(request NoAuth.noAuth, timeout₁), (request₂, timeout₂)]).flatMap Call.asked
        = [⟨"a", 123⟩, ⟨"b", 1123⟩] ∧
      timeout₂.after.currentServer = 0 := by
  intro timeout₁ request₂ timeout₂
  have h₂ : Makes (pending NoAuth.noAuth) timeout₁ timeout₁.after :=
    perform_makes 2 (.receive 100) (pending NoAuth.noAuth) (nothingAt ⟨1006, 0⟩)
  have h₃ : Makes timeout₁.after request₂ request₂.after :=
    perform_makes 2 (.send 0 100) timeout₁.after sentAt1000
  have h₄ : Makes request₂.after timeout₂ timeout₂.after :=
    perform_makes 2 (.receive 100) request₂.after (nothingAt ⟨1006, 0⟩)
  have hrun : Run Makes (twoServers NoAuth.noAuth)
      (roundCalls [(request NoAuth.noAuth, timeout₁), (request₂, timeout₂)]) timeout₂.after :=
    run_round (request_makes NoAuth.noAuth) h₂ (run_round h₃ h₄ (.nil _))
  have hrounds : ∀ round ∈ [(request NoAuth.noAuth, timeout₁), (request₂, timeout₂)],
      IsRound round := by
    intro round hround
    rcases List.mem_pair.mp hround with rfl | rfl
    · exact ⟨⟨0, 100, perform_op 2 _ _ _⟩, by decide +kernel⟩
    · exact ⟨⟨0, 100, perform_op 2 _ _ _⟩, by decide +kernel⟩
  obtain ⟨hasked, _, hindex⟩ := (round_robin (twoServers_initial NoAuth.noAuth)).2.2.2 [] _ _ _
    (.nil _) hrun hrounds rfl
  exact ⟨hasked.trans (by decide), hindex⟩

end Rounds

end Sntp
