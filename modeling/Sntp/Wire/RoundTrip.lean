import Sntp.Wire.Packet

/-!
# A request round-trips through its own response

`serializeRequest` mutates the timestamp it is given, and a server echoes the
mutated value. This file closes the circle between the two entry points:
whatever else a reply says, one that copies the transmit field of the request
into its originate field answers the *mutated* timestamp
(`Header.Of.answers_of_echo`), and it answers the original one exactly when the
mutation changed nothing (`stamped_eq_self_iff`).
-/

namespace Sntp

/-- The OR changes a timestamp exactly when the random bits set a bit its
fractions lack. -/
theorem stamped_eq_self_iff {t : Timestamp} {r : UInt32} :
    stamped t r = t ↔
      ¬ ∃ i, (r >>> 16).toNat.testBit i = true ∧ t.fractions.toNat.testBit i = false := by
  have hor : stamped t r = t ↔ t.fractions.toNat ||| (r >>> 16).toNat = t.fractions.toNat := by
    cases t with
    | mk s f => simp [stamped, ← UInt32.toNat_inj]
  rw [hor]
  constructor
  · intro h hextra
    obtain ⟨i, hr, hf⟩ := hextra
    have hbit := congrArg (fun n => n.testBit i) h
    simp only [Nat.testBit_or, hr, hf, Bool.false_or] at hbit
    cases hbit
  · intro h
    apply Nat.eq_of_testBit_eq
    intro i
    rw [Nat.testBit_or]
    by_cases hr : (r >>> 16).toNat.testBit i = true
    · have hf : t.fractions.toNat.testBit i = true := by
        by_contra hf
        exact h ⟨i, hr, by simpa using hf⟩
      rw [hf, Bool.true_or]
    · rw [Bool.not_eq_true] at hr
      rw [hr, Bool.or_false]

namespace Header

/-- A reply that echoes `requestTime` and is otherwise well formed answers it. -/
theorem Of.answers_of_echo {reply : Buffer} {h : Header} {requestTime receive transmit : Timestamp}
    {mode : UInt8} (hof : h.Of reply)
    (hecho : timestampAt reply Field.originSeconds Field.originFractions = some requestTime)
    (hmode : reply[Field.leapVersionMode]? = some mode)
    (hserver : mode &&& modeBitsMask = modeServer)
    (hreceive : timestampAt reply Field.receiveSeconds Field.receiveFractions = some receive)
    (hreceive₀ : receive ≠ .zero)
    (htransmit : timestampAt reply Field.transmitSeconds Field.transmitFractions = some transmit)
    (htransmit₀ : transmit ≠ .zero) (hreq : requestTime ≠ .zero) : h.Answers requestTime := by
  have e₁ : h.origin = requestTime := Option.some.inj (hof.origin.symm.trans hecho)
  have e₂ : h.leapVersionMode = mode := Option.some.inj (hof.leapVersionMode.symm.trans hmode)
  have e₃ : h.receive = receive := Option.some.inj (hof.receive.symm.trans hreceive)
  have e₄ : h.transmit = transmit := Option.some.inj (hof.transmit.symm.trans htransmit)
  exact ⟨e₂ ▸ hserver, e₁ ▸ hreq, e₃ ▸ hreceive₀, e₄ ▸ htransmit₀, e₁⟩

end Header

/-- **A serialized request round-trips through its own response.** For every
nonzero timestamp `t`, random number `r` and buffer, and every reply from a
server that copies the request's transmit field into its originate field and
has nonzero receive and transmit fields: the timestamp `serializeRequest` left
behind accepts the reply (or hears its refusal, at stratum 0), and the original
`t` calls it invalid exactly when `r` set a bit `t` lacked. -/
theorem request_round_trips {t : Timestamp} {r : UInt32} {buf reply : Buffer}
    {rx receive transmit : Timestamp} {mode : UInt8} (ht : t ≠ .zero)
    (hbuf : packetBaseSize ≤ buf.length) (hreply : packetBaseSize ≤ reply.length)
    (hmode : reply[0]? = some mode) (hserver : mode &&& 0x07 = 4)
    (hcopy : Bytes.slice reply 24 32 = Bytes.slice (serializeRequest t r buf).2.2 40 48)
    (hreceive : timestampAt reply 32 36 = some receive) (hreceive₀ : receive ≠ .zero)
    (htransmit : timestampAt reply 40 44 = some transmit) (htransmit₀ : transmit ≠ .zero) :
    let sent := serializeRequest t r buf
    let request' := sent.2.1
    sent.1 = .ok () ∧
    (reply[1]? = some 0 → ∃ code, Bytes.slice reply 12 16 = some (Bytes.toBeBytes code) ∧
      deserializeResponse request' rx reply = .ok (.rejected ⟨code, rejectionKind code⟩)) ∧
    (reply[1]? ≠ some 0 → ∃ a, deserializeResponse request' rx reply = .ok (.accepted a) ∧
      a.serverTime = transmit) ∧
    (deserializeResponse t rx reply = .error .invalidResponse ↔
      ∃ i, (r >>> 16).toNat.testBit i = true ∧ t.fractions.toNat.testBit i = false) ∧
    ((¬ ∃ i, (r >>> 16).toNat.testBit i = true ∧ t.fractions.toNat.testBit i = false) →
      deserializeResponse t rx reply = deserializeResponse request' rx reply) := by
  have hsent := serializeRequest_ok (r := r) hbuf ht
  rw [hsent] at hcopy ⊢
  dsimp only at hcopy ⊢
  rw [requestHeader_transmit] at hcopy
  have hecho : timestampAt reply Field.originSeconds Field.originFractions = some (stamped t r) :=
    timestampAt_of_slice hcopy
  obtain ⟨h, hof⟩ := Header.exists_of hreply
  have hans : h.Answers (stamped t r) :=
    hof.answers_of_echo hecho hmode hserver hreceive hreceive₀ htransmit htransmit₀
      (stamped_ne_zero ht r)
  have hverdict := deserializeResponse_answers rx hreply hof hans
  have hstratum : reply[1]? = some h.stratum := hof.stratum
  refine ⟨rfl, ?_, ?_, ?_, ?_⟩
  · intro hkiss
    have hzero : h.stratum = kissOfDeathStratum := Option.some.inj (hstratum.symm.trans hkiss)
    refine ⟨h.refId, slice_of_wordAt hof.refId, ?_⟩
    rw [hverdict, Header.verdict, if_pos hzero]
  · intro hnokiss
    have hzero : h.stratum ≠ kissOfDeathStratum := by
      intro hz
      exact hnokiss (hstratum.trans (congrArg some hz))
    rw [hverdict, Header.verdict, if_neg hzero]
    exact ⟨_, rfl, Option.some.inj (hof.transmit.symm.trans htransmit)⟩
  · constructor
    · intro hinvalid
      by_contra hnone
      rw [stamped_eq_self_iff.mpr hnone] at hverdict
      rw [hverdict] at hinvalid
      cases hinvalid
    · intro hbit
      refine deserializeResponse_invalid hreply ht hof ?_
      -- an answer to `t` would echo `t`, but the reply echoes the stamped one
      intro hans'
      exact stamped_eq_self_iff.mp (hans.echo.symm.trans hans'.echo) hbit
  · intro hnone
    rw [stamped_eq_self_iff.mpr hnone]

/-- A request at second 1000 whose random bits land in empty fractions, and a
stratum-1 reply to it. -/
theorem request_round_trips_at_1000 :
    ∃ a, deserializeResponse ⟨1000, 0xABCD⟩ ⟨1001, 0⟩
        ([0x24, 1] ++ List.replicate 22 0 ++ timestampBytes ⟨1000, 0xABCD⟩ ++
          timestampBytes ⟨1000, 1⟩ ++ timestampBytes ⟨1000, 2⟩) = .ok (.accepted a) ∧
      a.serverTime = ⟨1000, 2⟩ :=
  (@request_round_trips ⟨1000, 0⟩ 0xABCD1234 (List.replicate 48 0) _ ⟨1001, 0⟩ ⟨1000, 1⟩ ⟨1000, 2⟩
    0x24 (by decide) (by decide) (by decide) rfl (by decide) (by decide) (by decide) (by decide)
    (by decide) (by decide)).2.2.1 (by decide)

end Sntp
