import Sntp.Client.Deadlines
import Sntp.Client.Rotation
import Sntp.Wire.Deserialize

/-!
# One good server is enough

The loop a caller is told to run is: send a request, call for the response until
that is decided, and begin again. Each time round is a `Pass`. A pass that does
not synchronise has given its server up, so the next one asks the next server, and
a server whose answers arrive is reached within one lap of the list, whatever the
others do and whatever state the client is in (`synchronises_within_lap`).
-/

namespace Sntp

open Transition RoundRobin

variable {A : Type}

/-- One pass of the caller's loop: a request, the calls that found nothing to
decide, and the one that did. -/
structure Pass (A : Type) where
  send : Call A
  waits : List (Call A)
  last : Call A

namespace Pass

/-- The calls of a pass, in order. -/
def calls (pass : Pass A) : List (Call A) := pass.send :: (pass.waits ++ [pass.last])

/-- The response was decided: accepted, refused, or given up. -/
def Decided (call : Call A) : Prop :=
  call.Returned (.ok .synchronised) ∨ call.Returned (.ok .rejected) ∨
    call.Returned (.ok .timedOut)

/-- The caller went on as long as nothing was decided, and no longer. -/
structure Complete (pass : Pass A) : Prop where
  send : pass.send.IsSend
  waits : ∀ call ∈ pass.waits, call.IsReceive ∧ ¬ Decided call
  last : Decided pass.last

/-- The request was stamped, and its answer arrived: in its last call a packet is
read in full that answers it and gives the time, and no authenticator refused it. -/
def Answered [Authenticator A] (pass : Pass A) : Prop :=
  ∃ stored packet receivedAt h, pass.send.stamp = some stored ∧
    pass.last.ReadsFull packet receivedAt ∧ Header.Of packet h ∧ h.Answers stored ∧
    h.stratum ≠ kissOfDeathStratum ∧ (Authenticator.configured A = true →
      ∀ server packet e, .validateServerAuth server packet (.error e) ∉ pass.last.events)

theorem not_rotates {call : Call A} (h : ¬ Decided call) :
    call.rotates = false := by
  unfold Decided Call.Returned at h
  unfold Call.rotates
  split
  · next hout => exact absurd (Or.inr (Or.inr hout)) h
  · next hout => exact absurd (Or.inr (Or.inl hout)) h
  · rfl

end Pass

section Recovery

variable [Authenticator A] {c c' : Client A}

/-- A pass, from its calls: the send, the calls that wait, and the last. -/
theorem Pass.split {pass : Pass A} (h : Run Makes c pass.calls c') :
    ∃ c₁ c₂, Makes c pass.send c₁ ∧ Run Makes c₁ pass.waits c₂ ∧ Makes c₂ pass.last c' := by
  cases h with
  | @cons _ c₁ _ _ _ hsend hrest =>
    obtain ⟨c₂, hwaits, hlast⟩ := hrest.split
    exact ⟨c₁, c₂, hsend, hwaits, hlast.of_single⟩

/-- The calls that wait leave the request and the server as they were. -/
theorem Pass.Complete.waiting {pass : Pass A} (hpass : pass.Complete)
    {c₁ c₂ : Client A} (hreach : Reachable c₁) (hrun : Run Makes c₁ pass.waits c₂) :
    c₂.lastRequestTime = c₁.lastRequestTime ∧ c₂.currentServer = c₁.currentServer := by
  constructor
  · refine keepsRequest_run hreach hrun fun call hcall => ?_
    obtain ⟨hreceive, hundecided⟩ := hpass.waits call hcall
    exact ⟨hreceive, fun h => hundecided (Or.inl h), fun _ h => hundecided (Or.inr (Or.inl h))⟩
  · have hnone : pass.waits.countP Call.rotates = 0 := by
      rw [List.countP_eq_zero]
      intro call hcall
      obtain ⟨_, hundecided⟩ := hpass.waits call hcall
      rw [Pass.not_rotates hundecided]
      exact Bool.false_ne_true
    rw [currentServer_run hreach hrun, hnone, place_zero hreach.valid.index]

/-- **An answer that arrives is accepted.** -/
theorem Pass.Complete.synchronises {pass : Pass A} (hpass : pass.Complete)
    (hreach : Reachable c) (hrun : Run Makes c pass.calls c') (hanswered : pass.Answered) :
    pass.last.Returned (.ok .synchronised) := by
  obtain ⟨c₁, c₂, hsend, hwaits, hlast⟩ := Pass.split hrun
  have hreach₁ := hreach.makes hsend
  have hvalid₂ := (hreach₁.run hwaits).valid
  obtain ⟨stored, packet, receivedAt, h, hstamp, ⟨⟨blockTimeMs, hop⟩, pre, address, port, buffer,
    rest, hevents⟩, hof, hanswers, hstratum, hpassed⟩ := hanswered
  have hrequest : c₂.lastRequestTime = stored :=
    (hpass.waiting hreach₁ hwaits).1.trans (hsend.request_of_stamp hreach.valid hstamp).1
  obtain ⟨server, r, _, hreturned, _, hjudged, _⟩ := hlast.judged hvalid₂ hop pre hevents
  cases hjudged with
  | @refused e hconfigured =>
    refine absurd ?_ (hpassed hconfigured server packet e)
    rw [hevents]
    simp
  | passed =>
    have hverdict := deserializeResponse_answers receivedAt hof.length hof hanswers
    rw [hrequest, hverdict] at hreturned
    unfold Header.verdict at hreturned
    rw [if_neg hstratum] at hreturned
    exact hreturned

/-- Otherwise the pass gives its server up, and leaves the client at the next. -/
theorem Pass.Complete.turns {pass : Pass A} (hpass : pass.Complete) (hreach : Reachable c)
    (hrun : Run Makes c pass.calls c') (hmissed : ¬ pass.last.Returned (.ok .synchronised)) :
    c'.currentServer = place c.servers.length c.currentServer 1 := by
  obtain ⟨c₁, c₂, hsend, hwaits, hlast⟩ := Pass.split hrun
  have hreach₁ := hreach.makes hsend
  have hreach₂ := hreach₁.run hwaits
  have hservers : c₂.servers = c.servers :=
    servers_run hreach (.append (.single hsend) hwaits)
  have hindex : c₂.currentServer = c.currentServer := by
    obtain ⟨_, _, hop⟩ := hpass.send
    obtain ⟨_, _, _, htrace⟩ := hsend.sends hreach.valid hop
    rw [(hpass.waiting hreach₁ hwaits).2, htrace.index]
  have hrotates : pass.last.rotates = true := by
    unfold Call.rotates
    rcases hpass.last with h | h | h
    · exact absurd h hmissed
    · rw [h]
    · rw [h]
  rw [hlast.turns hreach₂.valid, if_pos hrotates, hservers, hindex]

/-- A pass asks the server at the index. -/
theorem Pass.Complete.asks {pass : Pass A} (hpass : pass.Complete) (hreach : Reachable c)
    (hrun : Run Makes c pass.calls c') {server : ServerInfo}
    (hserver : c.servers[c.currentServer]? = some server) : server ∈ pass.send.asked := by
  obtain ⟨c₁, _, hsend, _⟩ := Pass.split hrun
  have hasked := hsend.asks_of_send hreach.valid hpass.send
  rw [hserver] at hasked
  have hmem : some server ∈ pass.send.asked.map some := by
    rw [hasked]
    exact List.mem_singleton_self _
  obtain ⟨asked, hmem, heq⟩ := List.mem_map.mp hmem
  exact Option.some.inj heq ▸ hmem

/-- **One good server is enough.** From any reachable client, run the caller's loop.
If the requests made to `good`, which stands at place `g` of the list, are answered,
then some pass synchronises, at the latest the one that reaches place `g`: whatever
the other servers do, that is within one lap of the list. -/
theorem synchronises_within_lap {passes : List (Pass A)} {good : ServerInfo} {g : ℕ}
    (hreach : Reachable c) (hrun : Run Makes c (passes.flatMap Pass.calls) c')
    (hcomplete : ∀ pass ∈ passes, pass.Complete) (hgood : c.servers[g]? = some good)
    (hanswered : ∀ pass ∈ passes, good ∈ pass.send.asked → pass.Answered)
    (hlen : distance c.servers.length c.currentServer g < passes.length) :
    ∃ k ≤ distance c.servers.length c.currentServer g, k < c.servers.length ∧
      ∃ pass, passes[k]? = some pass ∧ pass.last.Returned (.ok .synchronised) := by
  obtain ⟨hg, _⟩ := List.getElem?_eq_some_iff.mp hgood
  have hsearch := (hrun.blocks.of_forall
    (fun pass hpass => And.intro (hcomplete pass hpass) (hanswered pass hpass))).guard
      (I := fun s => Reachable s ∧ s.servers = c.servers)
      (fun ⟨hs, hservers⟩ ⟨_, hpass⟩ => ⟨hs.run hpass, (servers_run hs hpass).trans hservers⟩)
      ⟨hreach, rfl⟩
  have hfound := hits_of_run (fun pass : Pass A => pass.last.Returned (.ok .synchronised))
    Client.currentServer hg ?_ hsearch hreach.valid.index hlen
  · obtain ⟨k, hk, pass, hpass, hsynchronised⟩ := hfound
    exact ⟨k, hk, hk.trans_lt (distance_lt _ g (Nat.zero_lt_of_lt hg)), pass, hpass,
      hsynchronised⟩
  · intro s pass t ⟨⟨hs, hservers⟩, ⟨hcomplete, hanswered⟩, hpass⟩
    by_cases hhit : pass.last.Returned (.ok .synchronised)
    · exact Or.inl hhit
    · refine Or.inr ⟨?_, ?_⟩
      · -- at `g` it would have been answered
        intro hplace
        have hserver : s.servers[s.currentServer]? = some good := by
          rw [hservers, hplace]
          exact hgood
        exact hhit (hcomplete.synchronises hs hpass (hanswered (hcomplete.asks hs hpass hserver)))
      · rw [← hservers]
        exact hcomplete.turns hs hpass hhit

/-- Resolves the second server, and sends at 1002 s. -/
def sentAt1002 : Script where
  addresses := [some 8]
  readings := [⟨1002, 0⟩, ⟨1002, 5⟩]
  sends := [.ok 48]
  reads := []

/-- Its answer, read at 1003 s. -/
def answeredAt1003 : Script where
  addresses := []
  readings := [⟨1002, 9⟩, ⟨1003, 0⟩]
  sends := []
  reads := [(.ok 48, reply 1 ⟨1002, 0⟩ ⟨1002, 9⟩ ⟨1002, 10⟩)]

/-- Too early to read an answer of the first server. -/
def tooEarly : Call NoAuth := (perform 2 (.receive 0) (pending .noAuth) (nothingAt ⟨1000, 9⟩)).1

/-- Its refusal, which moves the client to the second server. -/
def refusedByA : Call NoAuth :=
  (perform 2 (.receive 100) tooEarly.after (readsAt1001 kissOfDeath)).1

/-- The request to that one. -/
def askedB : Call NoAuth := (perform 2 (.send 0 100) refusedByA.after sentAt1002).1

/-- And its answer. -/
def answeredByB : Call NoAuth := (perform 2 (.receive 100) askedB.after answeredAt1003).1

theorem tooEarly_makes : Makes (pending NoAuth.noAuth) tooEarly tooEarly.after :=
  perform_makes 2 (.receive 0) (pending NoAuth.noAuth) (nothingAt ⟨1000, 9⟩)

theorem refusedByA_makes : Makes tooEarly.after refusedByA refusedByA.after :=
  perform_makes 2 (.receive 100) tooEarly.after (readsAt1001 kissOfDeath)

theorem askedB_makes : Makes refusedByA.after askedB askedB.after :=
  perform_makes 2 (.send 0 100) refusedByA.after sentAt1002

set_option maxRecDepth 1000 in
theorem answeredByB_makes : Makes askedB.after answeredByB answeredByB.after :=
  perform_makes 2 (.receive 100) askedB.after answeredAt1003

set_option maxRecDepth 1000 in
theorem refusedByA_rejected : refusedByA.Returned (.ok .rejected) := rfl

theorem refusedByA_missed : ¬ refusedByA.Returned (.ok .synchronised) := by
  unfold Call.Returned
  rw [refusedByA_rejected]
  nofun

theorem firstPass_complete : Pass.Complete ⟨request NoAuth.noAuth, [tooEarly], refusedByA⟩ := by
  refine ⟨⟨0, 100, perform_op 2 _ _ _⟩, ?_, Or.inr (Or.inl refusedByA_rejected)⟩
  intro call hcall
  obtain rfl := List.mem_singleton.mp hcall
  refine ⟨⟨0, perform_op 2 _ _ _⟩, ?_⟩
  rintro (h | h | h) <;> cases h

set_option maxRecDepth 1000 in
theorem secondPass_complete : Pass.Complete ⟨askedB, [], answeredByB⟩ :=
  ⟨⟨0, 100, perform_op 2 _ _ _⟩, List.forall_mem_nil _, Or.inl rfl⟩

set_option maxRecDepth 1000 in
theorem secondPass_answered : Pass.Answered ⟨askedB, [], answeredByB⟩ :=
  ⟨⟨1002, 0⟩, reply 1 ⟨1002, 0⟩ ⟨1002, 9⟩ ⟨1002, 10⟩, ⟨1003, 0⟩,
    ⟨0x24, 1, 0, ⟨1002, 0⟩, ⟨1002, 9⟩, ⟨1002, 10⟩⟩, rfl,
    ⟨⟨100, rfl⟩, [.now ⟨1002, 9⟩], 8, 1123, _, _, rfl⟩, ⟨rfl, rfl, rfl, rfl, rfl, rfl⟩,
    ⟨by decide, by decide, by decide, by decide, rfl⟩, by decide, nofun⟩

set_option maxRecDepth 1000 in
/-- The first of two servers refuses, after a call that came too early; the second
is asked next, and answers. -/
theorem synchronises_within_lap_of_two :
    refusedByA.Returned (.ok .rejected) ∧ answeredByB.Returned (.ok .synchronised) := by
  let first : Pass NoAuth := ⟨request NoAuth.noAuth, [tooEarly], refusedByA⟩
  let second : Pass NoAuth := ⟨askedB, [], answeredByB⟩
  have hrun : Run Makes (twoServers NoAuth.noAuth) ([first, second].flatMap Pass.calls)
      answeredByB.after :=
    .cons (request_makes _) (.cons tooEarly_makes (.cons refusedByA_makes
      (.cons askedB_makes (.single answeredByB_makes))))
  have hgood : (twoServers NoAuth.noAuth).servers[1]? = some ⟨"b", 1123⟩ := rfl
  have hfound := synchronises_within_lap (twoServers_initial NoAuth.noAuth).reachable hrun ?_
    hgood ?_ (by decide)
  · obtain ⟨k, _, _, pass, hpass, hsynchronised⟩ := hfound
    refine ⟨refusedByA_rejected, ?_⟩
    rcases k with _ | _ | k
    · obtain rfl : first = pass := Option.some.inj hpass
      exact absurd hsynchronised refusedByA_missed
    · obtain rfl : second = pass := Option.some.inj hpass
      exact hsynchronised
    · cases hpass
  · simp only [List.forall_mem_cons]
    exact ⟨firstPass_complete, secondPass_complete, List.forall_mem_nil _⟩
  · simp only [List.forall_mem_cons]
    refine ⟨?_, fun _ => secondPass_answered, List.forall_mem_nil _⟩
    -- the first pass did not ask the second server
    intro hasked
    have hnot : (⟨"b", 1123⟩ : ServerInfo) ∉ (request NoAuth.noAuth).asked := by decide
    exact absurd hasked hnot

end Recovery

end Sntp
