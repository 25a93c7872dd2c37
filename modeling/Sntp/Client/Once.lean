import Sntp.Client.Replay

/-!
# No packet sets the clock twice

Two requests may carry the same timestamp: the clock may have stood still, and the
random bits are only OR-ed in. An answer to the first is then an answer to the second,
and is accepted again. The random bits never reach the upper half of the fraction, so
it is enough that the clock gets past one 65536th of a second between any two requests
(`Timestamp.coarse`): then `packet_sets_clock_once`, over the whole run and whatever is
replayed.

It is a property of challenges: the ones redeemed are some of those issued, in order
(`Challenge.redeemed_sublist`).
-/

namespace Sntp

open Transition

variable {A : Type}

/-- A timestamp to the 65536th of a second. -/
def Timestamp.coarse (t : Timestamp) : UInt32 × ℕ := (t.seconds, t.fractions.toNat / 2 ^ 16)

/-- The random bits do not reach it. -/
theorem coarse_stamped (reading : Timestamp) (randomNumber : UInt32) :
    (stamped reading randomNumber).coarse = reading.coarse :=
  Prod.ext rfl (or_random_bounds reading.fractions randomNumber).2

/-- The reading a send call made its request on, if it did. -/
def Call.askedAt (call : Call A) : Option Timestamp :=
  match call.op with
  | .receive _ => none
  | .send _ _ => (firstReading call.events).filter (· ≠ .zero)

/-- A stamp is of the reading. -/
theorem Call.coarse_stamp (call : Call A) :
    call.stamp.map Timestamp.coarse = call.askedAt.map Timestamp.coarse := by
  unfold Call.stamp Call.askedAt
  cases call.op with
  | receive _ => rfl
  | send randomNumber _ =>
    dsimp only
    cases firstReading call.events with
    | none => rfl
    | some reading =>
      by_cases hzero : reading = .zero
      · simp [hzero]
      · simp [hzero, coarse_stamped]

/-- So stamps are all different when the readings are, coarsely. -/
theorem stamps_nodup {calls : List (Call A)}
    (h : (calls.filterMap Call.askedAt).map Timestamp.coarse |>.Nodup) :
    (calls.filterMap Call.stamp).Nodup := by
  have hcoarse : (calls.filterMap Call.stamp).map Timestamp.coarse
      = (calls.filterMap Call.askedAt).map Timestamp.coarse := by
    rw [List.map_filterMap, List.map_filterMap]
    exact congrArg (List.filterMap · calls) (funext Call.coarse_stamp)
  exact List.Nodup.of_map Timestamp.coarse (hcoarse ▸ h)

section Once

variable [Authenticator A]

/-- The packet a call adjusts the clock on echoes the stored request. -/
theorem Makes.adjusts_on_echo {c c' : Client A} {call : Call A} (h : Makes c call c')
    (hvalid : c.Valid) (hadjusts : call.adjusts ≠ []) {packet : Buffer} {receivedAt : Timestamp}
    (hread : call.ReadsFull packet receivedAt) :
    timestampAt packet Field.originSeconds Field.originFractions = some c.lastRequestTime := by
  obtain ⟨⟨_, hop⟩, pre, _, _, _, rest, hevents⟩ := hread
  obtain ⟨server, r, _, _, hfilter, hjudged, _⟩ := h.judged hvalid hop pre hevents
  rw [hfilter] at hadjusts
  cases hjudged with
  | refused _ => exact absurd rfl hadjusts
  | passed =>
    rw [judged_adjusts] at hadjusts
    cases hverdict : deserializeResponse c.lastRequestTime receivedAt packet with
    | error e =>
      rw [hverdict] at hadjusts
      exact absurd rfl hadjusts
    | ok v =>
      obtain ⟨_, header, hof, hanswers, _⟩ := answers_of_deserializeResponse hverdict
      rw [hof.origin, hanswers.echo]

/-- **No packet sets the clock twice.** In a run whose requests were made on readings
that differ by more than the random bits can hide, two calls that adjust the clock do
so on different packets. -/
theorem packet_sets_clock_once {c₀ c : Client A} {pre mid post : List (Call A)}
    {first second : Call A} {packet packet' : Buffer} {receivedAt receivedAt' : Timestamp}
    (h₀ : Initial c₀) (hrun : Run Makes c₀ (pre ++ first :: (mid ++ second :: post)) c)
    (hclock : (((pre ++ first :: (mid ++ second :: post)).filterMap Call.askedAt).map
      Timestamp.coarse).Nodup)
    (hfirst : first.adjusts ≠ []) (hsecond : second.adjusts ≠ [])
    (hread : first.ReadsFull packet receivedAt) (hread' : second.ReadsFull packet' receivedAt') :
    packet ≠ packet' := by
  have hreach := h₀.reachable
  have hchallenge := challenge_run h₀.valid hrun
  rw [Client.challenge_eq_none.mpr h₀.lastRequestTime, List.map_append, List.map_cons,
    List.map_append, List.map_cons] at hchallenge
  obtain ⟨c₁, c₁', hpre, hmakes, hrest⟩ := hrun.split_cons
  obtain ⟨c₂, c₂', hmid, hmakes', _⟩ := hrest.split_cons
  have hreach₁ := hreach.run hpre
  have hreach₂ := (hreach₁.makes hmakes).run hmid
  have hstamps := stamps_nodup hclock
  rw [← issued_acts, List.map_append, List.map_cons, List.map_append, List.map_cons] at hstamps
  have hne := Challenge.redeemed_once hchallenge (hmakes.act_redeemed hreach₁.valid hfirst)
    (hmakes'.act_redeemed hreach₂.valid hsecond) hstamps
  rintro rfl
  have hecho := hmakes.adjusts_on_echo hreach₁.valid hfirst hread
  rw [hmakes'.adjusts_on_echo hreach₂.valid hsecond hread'] at hecho
  exact hne (Option.some.inj hecho).symm

end Once

/-- The request, its answer, and a request and an answer two seconds later. -/
def twoExchanges : List (Call NoAuth) × Client NoAuth :=
  let answer := (perform 2 (.receive 100) (pending NoAuth.noAuth) (readsAt1001 genuine)).1
  let again := (perform 1 (.send 0 100) answer.after
    (⟨[some 7], [⟨1002, 0⟩, ⟨1002, 5⟩], [.ok 48], []⟩ : Script)).1
  let answered := (perform 1 (.receive 100) again.after
    (⟨[], [⟨1002, 9⟩, ⟨1003, 0⟩], [], [(.ok 48, reply 1 ⟨1002, 0⟩ ⟨1002, 9⟩ ⟨1002, 10⟩)]⟩ :
      Script)).1
  ([request NoAuth.noAuth, answer, again, answered], answered.after)

theorem twoExchanges_run :
    Run Makes (twoServers NoAuth.noAuth) twoExchanges.1 twoExchanges.2 :=
  .cons (request_makes NoAuth.noAuth) (.cons (perform_makes _ _ _ _)
    (.cons (perform_makes _ _ _ _) (.cons (perform_makes _ _ _ _) (.nil _))))

/-- They set the clock on two packets. -/
theorem packet_sets_clock_once_of_two :
    genuine ≠ reply 1 ⟨1002, 0⟩ ⟨1002, 9⟩ ⟨1002, 10⟩ := by
  refine @packet_sets_clock_once NoAuth _ _ _ [request NoAuth.noAuth] [_] [] _ _ _ _ ⟨1001, 0⟩
    ⟨1003, 0⟩ (twoServers_initial NoAuth.noAuth) twoExchanges_run ?_ ?_ ?_ ?_ ?_
  · decide
  · exact List.cons_ne_nil _ _
  · exact List.cons_ne_nil _ _
  · exact ⟨⟨100, rfl⟩, [.now ⟨1000, 9⟩], 7, 123, _, _, rfl⟩
  · exact ⟨⟨100, rfl⟩, [.now ⟨1002, 9⟩], 7, 123, _, _, rfl⟩

/-- With the clock stopped the same answer sets it again. -/
example :
    let answer := (perform 2 (.receive 100) (pending NoAuth.noAuth) (readsAt1001 genuine)).1
    let again := (perform 2 (.send 0 100) answer.after sentAt1000).1
    (perform 2 (.receive 100) again.after (readsAt1001 genuine)).1.adjusts = answer.adjusts := rfl

end Sntp
