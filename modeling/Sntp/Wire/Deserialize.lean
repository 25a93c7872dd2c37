import Sntp.Wire.Packet

/-!
# The grammar of a response

What `deserializeResponse` accepts, said of the bytes and not of the code: a
packet `Lays` the fields of a header out at the offsets of the wire format, and
seven guards, in order, decide between the five outcomes
(`deserializeResponse_grammar`).

The guards look at bytes 0, 1 and 24 to 48, and at 12 to 16 in a refusal. Two
packets that agree there are the same response, whatever their lengths
(`deserializeResponse_reads`): version, poll, precision, root fields, reference
timestamp and everything after byte 48 are ignored.
-/

namespace Sntp

/-- The bytes of a text. -/
def ascii (text : String) : Buffer := text.toList.map fun c => UInt8.ofNat c.toNat

namespace Header

/-- `buf` has the fields of `h` at their places, big-endian. -/
structure Lays (buf : Buffer) (h : Header) : Prop where
  leapVersionMode : buf[0]? = some h.leapVersionMode
  stratum : buf[1]? = some h.stratum
  refId : Bytes.slice buf 12 16 = some (Bytes.toBeBytes h.refId)
  origin : Bytes.slice buf 24 32 = some (timestampBytes h.origin)
  receive : Bytes.slice buf 32 40 = some (timestampBytes h.receive)
  transmit : Bytes.slice buf 40 48 = some (timestampBytes h.transmit)

/-- A header that fails validation, by the first guard it fails. -/
def Improper (requestTime : Timestamp) (h : Header) : Prop :=
  h.leapVersionMode.toNat % 8 ≠ 4 ∨
    (h.origin = .zero ∨ h.receive = .zero ∨ h.transmit = .zero) ∨ h.origin ≠ requestTime

end Header

/-- What a refusal says: its code as it stands in the packet, and the kind that
goes with it. -/
structure Rejected.Says (r : Rejected) (bytes : Buffer) : Prop where
  code : Bytes.toBeBytes r.code = bytes
  changeServer : r.kind = .changeServer ↔ bytes = ascii "DENY" ∨ bytes = ascii "RSTR"
  retryWithBackoff : r.kind = .retryWithBackoff ↔ bytes = ascii "RATE"
  other : r.kind = .other ↔ bytes ≠ ascii "DENY" ∧ bytes ≠ ascii "RSTR" ∧ bytes ≠ ascii "RATE"

/-- The two-bit leap indicator of a leap second. -/
def LeapSecond.indicator : LeapSecond → ℕ
  | none => 0
  | lastMinuteHas61Seconds => 1
  | lastMinuteHas59Seconds => 2
  | alarmServerNotSynchronized => 3

/-- The two packets agree on the bytes a response is judged by. -/
structure Agree (b₁ b₂ : Buffer) : Prop where
  leapVersionMode : b₁[0]? = b₂[0]?
  stratum : b₁[1]? = b₂[1]?
  refId : b₁[1]? = some 0 → ∀ i, 12 ≤ i → i < 16 → b₁[i]? = b₂[i]?
  timestamps : ∀ i, 24 ≤ i → i < 48 → b₁[i]? = b₂[i]?

/-! ## The code's readers and the bytes -/

/-- A timestamp read out of a buffer stands there byte for byte. -/
theorem slice_of_timestampAt {buf : Buffer} {offset : ℕ} {t : Timestamp}
    (h : timestampAt buf offset (offset + 4) = some t) :
    Bytes.slice buf offset (offset + 8) = some (timestampBytes t) := by
  unfold timestampAt at h
  split at h
  next seconds fractions hseconds hfractions =>
    cases h
    exact Bytes.slice_join (slice_of_wordAt hseconds) (slice_of_wordAt hfractions)
  next => cases h

namespace Header

/-- What the code reads is what stands there. -/
theorem Of.lays {buf : Buffer} {h : Header} (hof : h.Of buf) : h.Lays buf :=
  ⟨hof.leapVersionMode, hof.stratum, slice_of_wordAt hof.refId, slice_of_timestampAt hof.origin,
    slice_of_timestampAt hof.receive, slice_of_timestampAt hof.transmit⟩

/-- A packet that has fields has room for the last of them. -/
theorem Of.length {buf : Buffer} {h : Header} (hof : h.Of buf) : packetBaseSize ≤ buf.length := by
  by_contra hshort
  have htransmit := hof.lays.transmit
  rw [Bytes.slice, if_neg fun hfits => hshort hfits.2] at htransmit
  cases htransmit

/-- The low three bits of a byte. -/
theorem mode_eq_iff (b : UInt8) : b &&& modeBitsMask = modeServer ↔ b.toNat % 8 = 4 := by
  have hand : (b &&& modeBitsMask).toNat = b.toNat % 8 := by
    rw [UInt8.toNat_and]
    exact Nat.and_two_pow_sub_one_eq_mod b.toNat 3
  rw [← UInt8.toNat_inj, hand]
  rfl

theorem answers_iff {h : Header} {requestTime : Timestamp} :
    h.Answers requestTime ↔ ¬ h.Improper requestTime := by
  unfold Improper
  constructor
  · intro hans himproper
    rcases himproper with hmode | (horigin | hreceive | htransmit) | hecho
    · exact hmode ((mode_eq_iff _).mp hans.mode)
    · exact hans.origin_ne horigin
    · exact hans.receive_ne hreceive
    · exact hans.transmit_ne htransmit
    · exact hecho hans.echo
  · intro hproper
    simp only [not_or, ne_eq, not_not] at hproper
    obtain ⟨hmode, ⟨horigin, hreceive, htransmit⟩, hecho⟩ := hproper
    exact ⟨(mode_eq_iff _).mpr hmode, horigin, hreceive, htransmit, hecho⟩

end Header

/-- The bytes of a word determine it. -/
theorem toBeBytes_inj {x y : UInt32} (h : Bytes.toBeBytes x = Bytes.toBeBytes y) : x = y := by
  have hx := Bytes.ofBeBytes_toBeBytes x
  have hy := Bytes.ofBeBytes_toBeBytes y
  simp only [Bytes.toBeBytes, List.cons.injEq, and_true] at h
  obtain ⟨h₀, h₁, h₂, h₃⟩ := h
  rw [← hx, ← hy, h₀, h₁, h₂, h₃]

/-- The three kiss codes, as the characters they are. -/
theorem toBeBytes_eq_ascii (x : UInt32) :
    (Bytes.toBeBytes x = ascii "DENY" ↔ x = kodDeny) ∧
    (Bytes.toBeBytes x = ascii "RSTR" ↔ x = kodRstr) ∧
    (Bytes.toBeBytes x = ascii "RATE" ↔ x = kodRate) := by
  have hdeny : ascii "DENY" = Bytes.toBeBytes kodDeny := by decide
  have hrstr : ascii "RSTR" = Bytes.toBeBytes kodRstr := by decide
  have hrate : ascii "RATE" = Bytes.toBeBytes kodRate := by decide
  rw [hdeny, hrstr, hrate]
  exact ⟨⟨toBeBytes_inj, congrArg _⟩, ⟨toBeBytes_inj, congrArg _⟩, ⟨toBeBytes_inj, congrArg _⟩⟩

theorem rejectionKind_says (code : UInt32) :
    (Rejected.mk code (rejectionKind code)).Says (Bytes.toBeBytes code) := by
  obtain ⟨hdeny, hrstr, hrate⟩ := toBeBytes_eq_ascii code
  refine ⟨rfl, ?_, ?_, ?_⟩
  all_goals
    simp only [hdeny, hrstr, hrate, ne_eq, rejectionKind]
    split
    next hchange => rcases hchange with rfl | rfl <;> simp [kodDeny, kodRstr, kodRate]
    next hkeep =>
      rw [not_or] at hkeep
      split <;> simp_all

theorem leapSecondOf_indicator (b : UInt8) : (leapSecondOf b).indicator = b.toNat / 64 := by
  have hb := b.toNat_lt
  have hshift : (b >>> leapIndicatorLsbPosition).toNat = b.toNat / 64 := by
    rw [UInt8.toNat_shiftRight, Nat.shiftRight_eq_div_pow]
    rfl
  unfold leapSecondOf
  rw [hshift]
  split
  next h => rw [h]; rfl
  next h => rw [h]; rfl
  next h => rw [h]; rfl
  next h₀ h₁ h₂ =>
    have hne : b.toNat / 64 ≠ 0 ∧ b.toNat / 64 ≠ 1 ∧ b.toNat / 64 ≠ 2 := ⟨h₀, h₁, h₂⟩
    show 3 = b.toNat / 64
    omega

/-! ## The grammar -/

/-- A packet that is too short, whatever else is wrong. -/
theorem deserializeResponse_short {requestTime rx : Timestamp} {buf : Buffer}
    (hshort : buf.length < packetBaseSize) :
    deserializeResponse requestTime rx buf = .error .bufferTooSmall := by
  unfold deserializeResponse
  rw [if_pos hshort]

/-- No request, whatever is wrong with the packet. -/
theorem deserializeResponse_bad {rx : Timestamp} {buf : Buffer}
    (hlen : packetBaseSize ≤ buf.length) :
    deserializeResponse .zero rx buf = .error .badParameter := by
  unfold deserializeResponse
  rw [if_neg (Nat.not_lt.mpr hlen)]
  rfl

/-- What the two verdicts say of the header. -/
theorem Header.verdict_says (requestTime rx : Timestamp) (h : Header) :
    (h.stratum = 0 → ∃ r, h.verdict requestTime rx = .rejected r ∧
      r.Says (Bytes.toBeBytes h.refId)) ∧
    (h.stratum ≠ 0 → ∃ a, h.verdict requestTime rx = .accepted a ∧ a.serverTime = h.transmit ∧
      a.leapSecond.indicator = h.leapVersionMode.toNat / 64 ∧
      a.clockOffsetMs = calculateClockOffset requestTime h.receive h.transmit rx) := by
  constructor
  · intro hstratum
    exact ⟨_, if_pos hstratum, rejectionKind_says h.refId⟩
  · intro hstratum
    exact ⟨_, if_neg hstratum, rfl, leapSecondOf_indicator _, rfl⟩

/-- A word is read from its four bytes. -/
theorem wordAt_congr {b₁ b₂ : Buffer} {offset : ℕ} (h₁ : offset + 4 ≤ b₁.length)
    (h₂ : offset + 4 ≤ b₂.length)
    (hagree : ∀ i, offset ≤ i → i < offset + 4 → b₁[i]? = b₂[i]?) :
    wordAt b₁ offset = wordAt b₂ offset := by
  rw [wordAt, wordAt, Bytes.slice_congr h₁ h₂ hagree]

theorem timestampAt_congr {b₁ b₂ : Buffer} {offset : ℕ} (h₁ : offset + 8 ≤ b₁.length)
    (h₂ : offset + 8 ≤ b₂.length)
    (hagree : ∀ i, offset ≤ i → i < offset + 8 → b₁[i]? = b₂[i]?) :
    timestampAt b₁ offset (offset + 4) = timestampAt b₂ offset (offset + 4) := by
  have hseconds : wordAt b₁ offset = wordAt b₂ offset :=
    wordAt_congr (by omega) (by omega) (fun i hi hj => hagree i hi (by omega))
  have hfractions : wordAt b₁ (offset + 4) = wordAt b₂ (offset + 4) :=
    wordAt_congr (by omega) (by omega) (fun i hi hj => hagree i (by omega) (by omega))
  rw [timestampAt, timestampAt, hseconds, hfractions]

/-- Packets that agree have the same header, up to a code that is not read. -/
theorem Agree.header {b₁ b₂ : Buffer} (hagree : Agree b₁ b₂) (h₁ : packetBaseSize ≤ b₁.length)
    (h₂ : packetBaseSize ≤ b₂.length) {h : Header} (hof : h.Of b₁) :
    ∃ refId, ({ h with refId } : Header).Of b₂ ∧ (h.stratum = 0 → refId = h.refId) := by
  have hlen₁ : 48 ≤ b₁.length := h₁
  have hlen₂ : 48 ≤ b₂.length := h₂
  obtain ⟨h', hof'⟩ := Header.exists_of h₂
  have horigin : timestampAt b₁ 24 28 = timestampAt b₂ 24 28 :=
    timestampAt_congr (by omega) (by omega) fun i hi hj => hagree.timestamps i hi (by omega)
  have hreceive : timestampAt b₁ 32 36 = timestampAt b₂ 32 36 :=
    timestampAt_congr (by omega) (by omega) fun i hi hj => hagree.timestamps i (by omega) (by omega)
  have htransmit : timestampAt b₁ 40 44 = timestampAt b₂ 40 44 :=
    timestampAt_congr (by omega) (by omega) fun i hi hj => hagree.timestamps i (by omega) hj
  refine ⟨h'.refId, ⟨hagree.leapVersionMode ▸ hof.leapVersionMode, hagree.stratum ▸ hof.stratum,
    hof'.refId, horigin ▸ hof.origin, hreceive ▸ hof.receive, htransmit ▸ hof.transmit⟩, ?_⟩
  intro hstratum
  have hzero : b₁[1]? = some 0 := hstratum ▸ hof.stratum
  have hrefId : wordAt b₁ Field.refId = wordAt b₂ Field.refId :=
    wordAt_congr (by unfold Field.refId; omega) (by unfold Field.refId; omega) (hagree.refId hzero)
  exact Option.some.inj (hof'.refId.symm.trans (hrefId.symm.trans hof.refId))

/-- Nothing else is read. -/
theorem Agree.deserializeResponse_eq {b₁ b₂ : Buffer} (hagree : Agree b₁ b₂)
    (h₁ : packetBaseSize ≤ b₁.length) (h₂ : packetBaseSize ≤ b₂.length)
    (requestTime rx : Timestamp) :
    deserializeResponse requestTime rx b₁ = deserializeResponse requestTime rx b₂ := by
  by_cases hreq : requestTime = .zero
  · rw [hreq, deserializeResponse_bad h₁, deserializeResponse_bad h₂]
  · obtain ⟨h, hof⟩ := Header.exists_of h₁
    obtain ⟨refId, hof', hrefId⟩ := hagree.header h₁ h₂ hof
    by_cases hans : h.Answers requestTime
    · have hans' : ({ h with refId } : Header).Answers requestTime :=
        ⟨hans.mode, hans.origin_ne, hans.receive_ne, hans.transmit_ne, hans.echo⟩
      rw [deserializeResponse_answers rx h₁ hof hans, deserializeResponse_answers rx h₂ hof' hans']
      unfold Header.verdict
      dsimp only
      split
      next hstratum => rw [hrefId hstratum]
      next => rfl
    · have hans' : ¬ ({ h with refId } : Header).Answers requestTime := fun hans' =>
        hans ⟨hans'.mode, hans'.origin_ne, hans'.receive_ne, hans'.transmit_ne, hans'.echo⟩
      rw [deserializeResponse_invalid h₁ hreq hof hans,
        deserializeResponse_invalid h₂ hreq hof' hans']

/-- **A response is accepted by its grammar and by nothing else**: which of the
five outcomes it is, guard by guard, what each of the verdicts says, and that no
other byte matters. -/
theorem deserializeResponse_grammar (requestTime rx : Timestamp) (buf : Buffer) :
    let result := deserializeResponse requestTime rx buf
    (result = .error .bufferTooSmall ↔ buf.length < 48) ∧
    (48 ≤ buf.length →
      (result = .error .badParameter ↔ requestTime = .zero) ∧
      (∃ h : Header, h.Lays buf ∧
        (requestTime ≠ .zero →
          (result = .error .invalidResponse ↔ h.Improper requestTime) ∧
          (¬ h.Improper requestTime →
            (h.stratum = 0 → ∃ r, result = .ok (.rejected r) ∧
              r.Says (Bytes.toBeBytes h.refId)) ∧
            (h.stratum ≠ 0 → ∃ a, result = .ok (.accepted a) ∧ a.serverTime = h.transmit ∧
              a.leapSecond.indicator = h.leapVersionMode.toNat / 64 ∧
              a.clockOffsetMs = calculateClockOffset requestTime h.receive h.transmit rx)))) ∧
      (∀ other : Buffer, 48 ≤ other.length → Agree buf other →
        deserializeResponse requestTime rx other = result)) := by
  intro result
  rcases Nat.lt_or_ge buf.length 48 with hshort | hlen
  · have hresult : result = .error .bufferTooSmall := deserializeResponse_short hshort
    rw [hresult]
    exact ⟨⟨fun _ => hshort, fun _ => rfl⟩, fun hlen => absurd hlen (by omega)⟩
  · obtain ⟨h, hof⟩ := Header.exists_of hlen
    have hreads : ∀ other : Buffer, 48 ≤ other.length → Agree buf other →
        deserializeResponse requestTime rx other = result := fun other hother hagree =>
      (hagree.deserializeResponse_eq hlen hother requestTime rx).symm
    have hlong : ¬ buf.length < 48 := by omega
    by_cases hreq : requestTime = .zero
    · have hresult : result = .error .badParameter := by
        subst hreq
        exact deserializeResponse_bad hlen
      rw [hresult] at hreads ⊢
      exact ⟨⟨nofun, fun hshort => absurd hshort hlong⟩, fun _ => ⟨⟨fun _ => hreq, fun _ => rfl⟩,
        ⟨h, hof.lays, fun hnonzero => absurd hreq hnonzero⟩, hreads⟩⟩
    · by_cases himproper : h.Improper requestTime
      · have hresult : result = .error .invalidResponse := deserializeResponse_invalid hlen hreq hof
          (fun hans => Header.answers_iff.mp hans himproper)
        rw [hresult] at hreads ⊢
        refine ⟨⟨nofun, fun hshort => absurd hshort hlong⟩,
          fun _ => ⟨⟨nofun, fun hzero => absurd hzero hreq⟩, ⟨h, hof.lays, fun _ => ?_⟩, hreads⟩⟩
        exact ⟨⟨fun _ => himproper, fun _ => rfl⟩, fun hproper => absurd himproper hproper⟩
      · have hresult : result = .ok (h.verdict requestTime rx) :=
          deserializeResponse_answers rx hlen hof (Header.answers_iff.mpr himproper)
        obtain ⟨hrejected, haccepted⟩ := h.verdict_says requestTime rx
        rw [hresult] at hreads ⊢
        refine ⟨⟨nofun, fun hshort => absurd hshort hlong⟩,
          fun _ => ⟨⟨nofun, fun hzero => absurd hzero hreq⟩, ⟨h, hof.lays, fun _ => ?_⟩, hreads⟩⟩
        refine ⟨⟨nofun, fun h => absurd h himproper⟩, fun _ => ⟨?_, ?_⟩⟩
        · intro hstratum
          obtain ⟨r, hr, hsays⟩ := hrejected hstratum
          exact ⟨r, congrArg _ hr, hsays⟩
        · intro hstratum
          obtain ⟨a, ha, hsays⟩ := haccepted hstratum
          exact ⟨a, congrArg _ ha, hsays⟩

end Sntp
