import Sntp.Client.Steady
import Sntp.Client.Steps
import Sntp.Lib.Mask

/-!
# Guessing a request

Without an authenticator the stored request time is all a response is checked by, so
an attacker who cannot see the request has to guess it. The clock is no secret; the
16 random bits are, and they are OR-ed into the fraction, where every one bit of the
clock hides one of them. `blind_guesses_bounded` counts the random numbers for which
one of the packets an attacker sends is heard: at most `2 ^ (16 + k)` of the `2 ^ 32`
for each packet, where `k` is the number of ones in the lower half of the fraction the
clock read. `blind_guess_heard` says that one packet is indeed heard for that many.

So the chance of a guess is one in `2 ^ (16 - k)`. It is certain when the clock reads
ones there throughout, whatever the random number.
-/

namespace Sntp

open Transition

variable {A : Type}

/-! ## The stamps of a reading -/

/-- The number of random bits a reading hides. -/
def Timestamp.hidden (t : Timestamp) : ℕ := (Mask.ones 16 t.fractions.toNat).card

/-- The random numbers that stamp `reading` as `request`. -/
def stampers (reading request : Timestamp) : Finset ℕ :=
  (Finset.range (2 ^ 32)).filter fun r => stamped reading (UInt32.ofNat r) = request

/-- The stamp shows the upper half of the random number, where the reading lets it. -/
theorem stamped_ofNat_eq_iff {reading request : Timestamp} {r : ℕ} (hr : r < 2 ^ 32) :
    stamped reading (UInt32.ofNat r) = request ↔
      reading.seconds = request.seconds ∧
        reading.fractions.toNat ||| r / 2 ^ 16 = request.fractions.toNat := by
  have hnat : (reading.fractions ||| (UInt32.ofNat r >>> 16)).toNat
      = reading.fractions.toNat ||| r / 2 ^ 16 := by
    rw [UInt32.toNat_or, UInt32.toNat_shiftRight, UInt32.toNat_ofNat_of_lt' hr,
      show (16 : UInt32).toNat % 32 = 16 from rfl, Nat.shiftRight_eq_div_pow]
  obtain ⟨seconds, fractions⟩ := request
  rw [stamped, Timestamp.mk.injEq, ← UInt32.toNat_inj (b := fractions), hnat]

/-- How many random numbers give a word of `n` and `m` bits the same upper half. -/
theorem card_stampers_eq (reading request : Timestamp)
    (hseconds : reading.seconds = request.seconds) :
    (stampers reading request).card
      = ((Finset.range (2 ^ 16)).filter fun x =>
          reading.fractions.toNat ||| x = request.fractions.toNat).card * 2 ^ 16 := by
  have hsplit : 2 ^ 32 = 2 ^ 16 * 2 ^ 16 := by norm_num
  have hcount := Mask.card_div (2 ^ 16) (Nat.two_pow_pos 16)
    (fun x => reading.fractions.toNat ||| x = request.fractions.toNat)
  rw [← hsplit] at hcount
  rw [← hcount, stampers]
  apply congrArg Finset.card
  apply Finset.filter_congr
  intro r hr
  rw [stamped_ofNat_eq_iff (Finset.mem_range.mp hr)]
  exact and_iff_right hseconds

/-- **Few random numbers make any one request**: half of the number is thrown away, and
of the other half the reading hides its ones. -/
theorem card_stampers_le (reading request : Timestamp) :
    (stampers reading request).card ≤ 2 ^ (16 + reading.hidden) := by
  by_cases hseconds : reading.seconds = request.seconds
  · rw [card_stampers_eq reading request hseconds, Nat.pow_add, Nat.mul_comm]
    exact Nat.mul_le_mul_left _ (Mask.card_or_eq_le 16 _ _)
  · have hnone : stampers reading request = ∅ := by
      apply Finset.filter_eq_empty_iff.mpr
      intro r hr hstamped
      exact hseconds ((stamped_ofNat_eq_iff (Finset.mem_range.mp hr)).mp hstamped).1
    rw [hnone, Finset.card_empty]
    exact Nat.zero_le _

/-- And no fewer, of a request the reading can be stamped as. -/
theorem card_stampers (reading : Timestamp) {r : ℕ} (hr : r < 2 ^ 32) :
    (stampers reading (stamped reading (UInt32.ofNat r))).card = 2 ^ (16 + reading.hidden) := by
  have hself : stamped reading (UInt32.ofNat r) = stamped reading (UInt32.ofNat r) := rfl
  obtain ⟨hseconds, hfractions⟩ := (stamped_ofNat_eq_iff hr).mp hself
  rw [card_stampers_eq reading _ hseconds, ← hfractions,
    Mask.card_or_eq (Nat.div_lt_of_lt_mul (by omega)), Nat.pow_add, Nat.mul_comm]
  rfl

/-! ## What is heard answers the request -/

/-- The call took a packet for an answer, a rejection being one. -/
def Call.Heard (call : Call A) : Prop :=
  call.Returned (.ok .synchronised) ∨ call.Returned (.ok .rejected)

section Runs

variable [Authenticator A]

/-- A full read that answers a call answers the request. -/
theorem Judged.answers {c : Client A} {server : ServerInfo} {packet : Buffer}
    {receivedAt : Timestamp} {rest : List Event} {r : Reception}
    (h : Judged c server packet receivedAt rest (.ok r)) :
    ∃ hd : Header, hd.Of packet ∧ hd.Answers c.lastRequestTime := by
  generalize hresult : (Except.ok r : Except ReceiveError Reception) = result at h
  cases h with
  | refused _ => cases hresult
  | passed =>
    cases hverdict : deserializeResponse c.lastRequestTime receivedAt packet with
    | error e =>
      rw [hverdict] at hresult
      cases hresult
    | ok v =>
      obtain ⟨_, hd, hof, hanswers, _⟩ := answers_of_deserializeResponse hverdict
      exact ⟨hd, hof, hanswers⟩

/-- A packet that is heard was read in full and echoes the outstanding request. -/
theorem Makes.heard {c c' : Client A} {call : Call A} (h : Makes c call c') (hvalid : c.Valid)
    (hheard : call.Heard) :
    ∃ packet receivedAt, call.ReadsFull packet receivedAt ∧
      ∃ hd : Header, hd.Of packet ∧ hd.Answers c.lastRequestTime := by
  obtain ⟨_, _, _, _, hcall, _⟩ | ⟨blockTimeMs, watch, result, hcall, htrace⟩ := h.cases hvalid
  · have hsent := Call.not_returned (congrArg Call.outcome hcall)
    exact (hheard.elim (hsent _) (hsent _)).elim
  · have hr : ∃ r : Reception, result = some (.ok r) ∧ (r = .synchronised ∨ r = .rejected) := by
      rcases hheard with hheard | hheard
      · exact ⟨_, (Call.returned_iff (hcall ▸ rfl)).mp hheard, Or.inl rfl⟩
      · exact ⟨_, (Call.returned_iff (hcall ▸ rfl)).mp hheard, Or.inr rfl⟩
    obtain ⟨r, rfl, hr⟩ := hr
    obtain ⟨server, _, hshape⟩ := htrace.quiet_or_full hvalid
    rcases hshape with ⟨_, hfruitless⟩ |
      ⟨before, buffer, packet, receivedAt, rest, _, hevents, _, _, hjudged, hr'⟩
    · cases hfruitless with
      | timedOut => rcases hr with hr | hr <;> cases hr
      | nothingYet => rcases hr with hr | hr <;> cases hr
    · obtain rfl := Option.some.inj hr'
      have hread : call.ReadsFull packet receivedAt :=
        ⟨⟨blockTimeMs, by rw [hcall]⟩, before, c.currentServerAddr, server.port, buffer, rest, by
          rw [h.before, hevents]⟩
      exact ⟨packet, receivedAt, hread, hjudged.answers⟩

/-- A request made on the reading `reading` with the random number `r`, and the
receive calls that wait for its answer. -/
structure Attempt (c : Client A) (reading : Timestamp) (r : UInt32) (send : Call A)
    (waits : List (Call A)) : Prop where
  run : ∃ c', Run Makes c (send :: waits) c'
  random : ∃ blockTimeMs, send.op = .send r blockTimeMs
  clock : firstReading send.events = some reading
  receives : ∀ call ∈ waits, call.IsReceive

/-- What is heard in an attempt echoes its stamp. -/
theorem Attempt.echo {c : Client A} {reading : Timestamp} {r : UInt32} {send call : Call A}
    {waits : List (Call A)} (h : Attempt c reading r send waits) (hreach : Reachable c)
    (hcall : call ∈ waits) (hheard : call.Heard) :
    ∃ packet receivedAt, call.ReadsFull packet receivedAt ∧
      ∃ hd : Header, hd.Of packet ∧ hd.origin = stamped reading r := by
  obtain ⟨_, hrun⟩ := h.run
  obtain ⟨_, hop⟩ := h.random
  obtain ⟨pre, post, rfl⟩ := List.append_of_mem hcall
  cases hrun with
  | @cons _ c₁ _ _ _ hsend hrest =>
    obtain ⟨_, _, _, htrace⟩ := hsend.sends hreach.valid hop
    have hrequest := htrace.request
    rw [h.clock] at hrequest
    obtain ⟨s, s', hpre, hmakes, _⟩ := hrest.split_cons
    have hreach₁ := hreach.makes hsend
    -- the receive calls before it kept the stamp or lost it
    have hkept := hpre.inv_of_forall
      (I := fun s => Reachable s ∧ (s.lastRequestTime = .zero ∨
        s.lastRequestTime = stamped reading r)) (P := Call.IsReceive) ?_
      (fun call hmem => h.receives call (List.mem_append_left _ hmem)) ⟨hreach₁, ?_⟩
    · obtain ⟨hreach', hs⟩ := hkept
      obtain ⟨packet, receivedAt, hread, hd, hof, hanswers⟩ := hmakes.heard hreach'.valid hheard
      refine ⟨packet, receivedAt, hread, hd, hof, ?_⟩
      rcases hs with hs | hs
      · exact absurd (hanswers.echo.trans hs) hanswers.origin_ne
      · rw [hanswers.echo, hs]
    · intro s call t ⟨hs, hrequest⟩ ⟨_, hreceive⟩ hstep
      have hstamp : call.stamp = none := by
        unfold Call.stamp
        rw [hreceive]
      refine ⟨hs.makes hstep, ?_⟩
      rcases hstep.request_of_no_stamp hs.valid hstamp with ht | ht
      · rw [ht]
        exact hrequest
      · exact Or.inl ht
    · by_cases hzero : reading = .zero
      · exact Or.inl (hrequest.trans (if_pos hzero))
      · exact Or.inr (hrequest.trans (if_neg hzero))

end Runs

/-! ## A host to guess against -/

/-- The host of an attempt: the clock reads `reading`, and `packet` comes back. -/
def echoing (reading : Timestamp) (packet : Buffer) : Steady :=
  ⟨some 0, reading, .ok 48, .ok 48, packet⟩

/-- The request of an attempt without a block time. -/
def guessedSend (c : Client NoAuth) (reading : Timestamp) (packet : Buffer) (r : ℕ) :
    Call NoAuth :=
  (echoing reading packet).call 1 (.send (UInt32.ofNat r) 0) c

/-- The receive call after it. -/
def guessedWait (c : Client NoAuth) (reading : Timestamp) (packet : Buffer) (r : ℕ) :
    Call NoAuth :=
  (echoing reading packet).call 1 (.receive 0) (guessedSend c reading packet r).after

section Guessed

variable {c : Client NoAuth} {reading : Timestamp} {packet : Buffer}

/-- The host resolves, so the send call reads its clock. -/
theorem guessed_clock (hvalid : c.Valid) (r : ℕ) :
    firstReading (guessedSend c reading packet r).events = some reading := by
  let := (echoing reading packet).host
  have hgives := (echoing reading packet).gives 1 (.send (UInt32.ofNat r) 0) c
  obtain ⟨events, result, c', hcall, htrace⟩ := perform_send 1 (UInt32.ofNat r) 0 () hvalid
  have hcall' : guessedSend c reading packet r
    = ⟨.send (UInt32.ofNat r) 0, c, events, result.map .sent, c'⟩ := hcall
  rw [show (echoing reading packet).call 1 (.send (UInt32.ofNat r) 0) c = _ from hcall'] at hgives
  rw [hcall']
  dsimp only at hgives ⊢
  have hnow : ∀ t, .now t ∈ events → t = reading := fun _ hmem => hgives _ hmem
  cases htrace with
  | @unresolved server _ =>
    have hanswer : (none : Option UInt32) = some 0 :=
      hgives (.resolveDns server none) List.mem_cons_self
    cases hanswer
  | zeroClock _ => exact congrArg some (hnow _ (by simp))
  | unsigned _ _ _ => exact congrArg some (hnow _ (by simp))
  | tried _ _ _ _ => exact congrArg some (hnow _ (by simp))

theorem guessed_attempt (hvalid : c.Valid) (r : ℕ) :
    Attempt c reading (UInt32.ofNat r) (guessedSend c reading packet r)
      [guessedWait c reading packet r] := by
  refine ⟨⟨_, .cons ((echoing reading packet).makes 1 _ c)
    (.single ((echoing reading packet).makes 1 _ _))⟩, ⟨0, rfl⟩, guessed_clock hvalid r, ?_⟩
  intro call hcall
  obtain rfl := List.mem_singleton.mp hcall
  exact ⟨0, rfl⟩

/-- The request is stored under its stamp. -/
theorem guessed_request (hvalid : c.Valid) (hreading : reading ≠ .zero) (r : ℕ) :
    (guessedSend c reading packet r).after.lastRequestTime = stamped reading (UInt32.ofNat r) := by
  have hmakes := (echoing reading packet).makes 1 (.send (UInt32.ofNat r) 0) c
  obtain ⟨_, _, _, htrace⟩ := hmakes.sends hvalid rfl
  have hrequest := htrace.request
  have hclock : firstReading ((echoing reading packet).call 1 (.send (UInt32.ofNat r) 0) c).events
      = some reading := guessed_clock hvalid r
  rw [hclock] at hrequest
  exact hrequest.trans (if_neg hreading)

/-- The host gives its packet to every full read. -/
theorem guessed_reads (hvalid : c.Valid) (hpacket : packet.length = 48) (r : ℕ) :
    ∀ call ∈ [guessedWait c reading packet r], ∀ p receivedAt, call.ReadsFull p receivedAt →
      p = packet := by
  intro call hcall p receivedAt hread
  rw [List.mem_singleton.mp hcall] at hread
  obtain ⟨_, pre, address, port, buffer, rest, hevents⟩ := hread
  have hmakes := (echoing reading packet).makes 1 (.send (UInt32.ofNat r) 0) c
  have hgives := (echoing reading packet).gives 1 (.receive 0)
    (guessedSend c reading packet r).after
  have hmem : .recvFrom address port buffer p
      (.ok (guessedWait c reading packet r).before.packetSize.toNat)
        ∈ (guessedWait c reading packet r).events := by
    rw [hevents]
    exact List.mem_append_right _ List.mem_cons_self
  have hread := hgives _ hmem
  exact hread.2 (hpacket.trans ((hmakes.valid hvalid).bare rfl).symm)

/-- A reply that echoes `stored` is heard exactly when that is the request. -/
theorem guessed_heard (hvalid : c.Valid) (hreading : reading ≠ .zero) {stored : Timestamp}
    (r : ℕ) :
    (guessedWait c reading (reply 1 stored ⟨1, 0⟩ ⟨1, 0⟩) r).Heard ↔
      stamped reading (UInt32.ofNat r) = stored := by
  generalize hpacket : reply 1 stored ⟨1, 0⟩ ⟨1, 0⟩ = packet
  have hlen : packet.length = 48 := hpacket ▸ rfl
  have hvalid' := ((echoing reading packet).makes 1 (.send (UInt32.ofNat r) 0) c).valid hvalid
  have hsize : (guessedSend c reading packet r).after.packetSize.toNat = 48 := hvalid'.bare rfl
  have hrequest : (guessedSend c reading packet r).after.lastRequestTime
      = stamped reading (UInt32.ofNat r) := guessed_request hvalid hreading r
  have hreception : (echoing reading packet).reception (guessedSend c reading packet r).after
      = receptionOf (deserializeResponse (stamped reading (UInt32.ofNat r)) reading packet) := by
    rw [← hrequest]
    exact if_pos hsize.symm
  have hreturned : (guessedWait c reading packet r).Returned
      (receptionOf (deserializeResponse (stamped reading (UInt32.ofNat r)) reading packet)) := by
    rw [← hreception]
    exact (echoing reading packet).receives hvalid' (hlen.trans hsize.symm)
  have hne := stamped_ne_zero hreading (UInt32.ofNat r)
  by_cases heq : stamped reading (UInt32.ofNat r) = stored
  · obtain ⟨v, hv, hreception⟩ := reply_answers 1 reading hne
    rw [← hpacket, ← heq, hv, hreception] at hreturned
    exact iff_of_true (Or.inl (hpacket ▸ heq ▸ hreturned)) heq
  · have hof := hpacket ▸ reply_of 1 stored ⟨1, 0⟩ ⟨1, 0⟩
    rw [deserializeResponse_invalid (hlen ▸ le_rfl) hne hof fun h => heq h.echo.symm] at hreturned
    refine iff_of_false ?_ heq
    rintro (hheard | hheard)
    · cases hreturned.symm.trans hheard
    · cases hreturned.symm.trans hheard

end Guessed

/-! ## The bound -/

open Classical in
/-- **Blind guesses are seldom heard.** Fix a reachable client, the clock reading its
request is made on, and the packets an attacker sends, in any order and as often as it
likes. Among the `2 ^ 32` random numbers the client may draw, each packet is heard for
`2 ^ (16 + k)` at most, where `k` is the number of bits the reading hides. -/
theorem blind_guesses_bounded [Authenticator A] {c : Client A} {reading : Timestamp}
    {packets : List Buffer} {sends : ℕ → Call A} {waits : ℕ → List (Call A)} (hreach : Reachable c)
    (hattempt : ∀ r < 2 ^ 32, Attempt c reading (UInt32.ofNat r) (sends r) (waits r))
    (hblind : ∀ r < 2 ^ 32, ∀ call ∈ waits r, ∀ packet receivedAt,
      call.ReadsFull packet receivedAt → packet ∈ packets) :
    ((Finset.range (2 ^ 32)).filter fun r => ∃ call ∈ waits r, call.Heard).card
      ≤ packets.length * 2 ^ (16 + reading.hidden) := by
  let origin (packet : Buffer) : Timestamp :=
    (timestampAt packet Field.originSeconds Field.originFractions).getD .zero
  have hcover : (Finset.range (2 ^ 32)).filter (fun r => ∃ call ∈ waits r, call.Heard)
      ⊆ packets.toFinset.biUnion fun packet => stampers reading (origin packet) := by
    intro r hr
    obtain ⟨hlt, call, hcall, hheard⟩ := Finset.mem_filter.mp hr
    have hr' := Finset.mem_range.mp hlt
    obtain ⟨packet, receivedAt, hread, hd, hof, hecho⟩ :=
      (hattempt r hr').echo hreach hcall hheard
    refine Finset.mem_biUnion.mpr ⟨packet, List.mem_toFinset.mpr
      (hblind r hr' call hcall packet receivedAt hread), Finset.mem_filter.mpr ⟨hlt, ?_⟩⟩
    show _ = (timestampAt packet Field.originSeconds Field.originFractions).getD .zero
    rw [hof.origin, Option.getD_some, hecho]
  calc _ ≤ (packets.toFinset.biUnion fun packet => stampers reading (origin packet)).card :=
        Finset.card_le_card hcover
    _ ≤ packets.toFinset.card * 2 ^ (16 + reading.hidden) :=
        Finset.card_biUnion_le_card_mul _ _ _ fun packet _ => card_stampers_le reading _
    _ ≤ packets.length * 2 ^ (16 + reading.hidden) :=
        Nat.mul_le_mul_right _ (List.toFinset_card_le packets)

open Classical in
/-- At a whole second the clock hides nothing: one random number in 65536 has the
packet heard. -/
theorem blind_guesses_bounded_at_1000 :
    ((Finset.range (2 ^ 32)).filter fun r =>
      ∃ call ∈ [guessedWait (twoServers NoAuth.noAuth) ⟨1000, 0⟩ genuine r], call.Heard).card
        ≤ 65536 := by
  have hreach := (twoServers_initial NoAuth.noAuth).reachable
  have hattempt : ∀ r < 2 ^ 32, Attempt (twoServers NoAuth.noAuth) ⟨1000, 0⟩ (UInt32.ofNat r)
      (guessedSend (twoServers NoAuth.noAuth) ⟨1000, 0⟩ genuine r)
      [guessedWait (twoServers NoAuth.noAuth) ⟨1000, 0⟩ genuine r] := fun r _ =>
    guessed_attempt hreach.valid r
  have hblind : ∀ r < 2 ^ 32,
      ∀ call ∈ [guessedWait (twoServers NoAuth.noAuth) ⟨1000, 0⟩ genuine r],
      ∀ packet receivedAt, call.ReadsFull packet receivedAt → packet ∈ [genuine] := by
    intro r _ call hcall packet receivedAt hread
    exact List.mem_singleton.mpr
      (guessed_reads hreach.valid (by decide) r call hcall packet receivedAt hread)
  have hhidden : Timestamp.hidden ⟨1000, 0⟩ = 0 := by decide
  have hbound := blind_guesses_bounded hreach hattempt hblind
  rw [hhidden] at hbound
  exact hbound

open Classical in
/-- **The bound is met by every guess that could be right**: of the random numbers,
`2 ^ (16 + k)` have the reply to any one of the stamps heard, and no more. -/
theorem blind_guess_heard {c : Client NoAuth} {reading : Timestamp} {r₀ : ℕ}
    (hreach : Reachable c) (hreading : reading ≠ .zero) (hr₀ : r₀ < 2 ^ 32) :
    ∃ (packet : Buffer) (sends : ℕ → Call NoAuth) (waits : ℕ → List (Call NoAuth)),
      (∀ r < 2 ^ 32, Attempt c reading (UInt32.ofNat r) (sends r) (waits r) ∧
        ∀ call ∈ waits r, ∀ p receivedAt, call.ReadsFull p receivedAt → p = packet) ∧
      timestampAt packet Field.originSeconds Field.originFractions
        = some (stamped reading (UInt32.ofNat r₀)) ∧
      ((Finset.range (2 ^ 32)).filter fun r => ∃ call ∈ waits r, call.Heard).card
        = 2 ^ (16 + reading.hidden) := by
  let stored := stamped reading (UInt32.ofNat r₀)
  let packet := reply 1 stored ⟨1, 0⟩ ⟨1, 0⟩
  refine ⟨packet, guessedSend c reading packet, fun r => [guessedWait c reading packet r], ?_,
    (reply_of 1 stored _ _).origin, ?_⟩
  · exact fun r _ => ⟨guessed_attempt hreach.valid r, guessed_reads hreach.valid rfl r⟩
  · rw [← card_stampers reading hr₀, stampers]
    apply congrArg Finset.card
    apply Finset.filter_congr
    intro r _
    rw [← guessed_heard hreach.valid hreading r]
    refine ⟨fun ⟨call, hcall, hheard⟩ => ?_, fun h => ⟨_, List.mem_singleton_self _, h⟩⟩
    obtain rfl := List.mem_singleton.mp hcall
    exact hheard

open Classical in
/-- A clock that reads ones throughout hides them all: any packet that echoes the one
stamp there is gets heard for every random number. -/
theorem blind_guess_heard_of_ones :
    ∃ waits : ℕ → List (Call NoAuth), ((Finset.range (2 ^ 32)).filter fun r =>
      ∃ call ∈ waits r, call.Heard).card = 2 ^ 32 := by
  have hhidden : Timestamp.hidden ⟨1000, 0xffff⟩ = 16 := by decide
  obtain ⟨_, _, waits, _, _, hcard⟩ := @blind_guess_heard _ ⟨1000, 0xffff⟩ 0
    (twoServers_initial NoAuth.noAuth).reachable (by decide) (by norm_num)
  rw [hhidden] at hcard
  exact ⟨waits, hcard⟩

end Sntp
