import Sntp.Wire.Packet
import Sntp.Wire.Unix

/-!
# Poisons that do not fire

A poison is a small change made to the code to see whether a test notices. Four of
them are not noticed, and here is why each cannot be: the changed function is the
same function.

- `safeTimeDifferenceStrict` compares with `<` where the code has `≤`: the two
  differ on a tie at half an era, and that is a case of its own before it;
- `convertToUnixTimeStrict` tells the eras apart with `>` for `≥`: the two formulas
  agree on the second where it matters;
- `deserializeResponseUnchecked` and `serializeRequestUnchecked` index without
  looking: the one length check covers every offset.

The special case of the tie is another matter. Without it `safeTimeDifferenceUntied`
is antisymmetric, and the code is not (`tie_is_the_only_asymmetry`).
-/

namespace Sntp

/-! ## The era comparison -/

/-- `safeTimeDifference` with `<` in the three-way comparison. -/
def safeTimeDifferenceStrict (server client : Timestamp) : Int64 :=
  let serverMs := asMillis server
  let clientMs := asMillis client
  let sameEra := Saturating.sub serverMs clientMs
  let absSameEra := absoluteOf sameEra
  if absSameEra == clockOffsetMaxTimeDifference then clockOffsetMaxTimeDifference
  else
    let serverEraAhead :=
      Saturating.sub (Saturating.add serverMs totalMillisecondsInNtpEra) clientMs
    let clientEraAhead :=
      Saturating.sub serverMs (Saturating.add totalMillisecondsInNtpEra clientMs)
    let absServerAhead := absoluteOf serverEraAhead
    let absClientAhead := absoluteOf clientEraAhead
    if absSameEra < absServerAhead ∧ absSameEra < absClientAhead then sameEra
    else if absServerAhead < absSameEra then serverEraAhead
    else clientEraAhead

/-- `safeTimeDifference` without the special case of the tie. -/
def safeTimeDifferenceUntied (server client : Timestamp) : Int64 :=
  let serverMs := asMillis server
  let clientMs := asMillis client
  let sameEra := Saturating.sub serverMs clientMs
  let absSameEra := absoluteOf sameEra
  let serverEraAhead :=
    Saturating.sub (Saturating.add serverMs totalMillisecondsInNtpEra) clientMs
  let clientEraAhead :=
    Saturating.sub serverMs (Saturating.add totalMillisecondsInNtpEra clientMs)
  let absServerAhead := absoluteOf serverEraAhead
  let absClientAhead := absoluteOf clientEraAhead
  if absSameEra ≤ absServerAhead ∧ absSameEra ≤ absClientAhead then sameEra
  else if absServerAhead < absSameEra then serverEraAhead
  else clientEraAhead

/-- The absolute values of the three candidates. -/
theorem absolutes_toInt (server client : Timestamp) :
    (absoluteOf (Saturating.sub (asMillis server) (asMillis client))).toInt
        = (server.ms - client.ms).natAbs ∧
    (absoluteOf (Saturating.sub (Saturating.add (asMillis server) totalMillisecondsInNtpEra)
      (asMillis client))).toInt = (server.ms - client.ms + era).natAbs ∧
    (absoluteOf (Saturating.sub (asMillis server)
      (Saturating.add totalMillisecondsInNtpEra (asMillis client)))).toInt
        = (server.ms - client.ms - era).natAbs := by
  have hs₀ := server.ms_nonneg
  have hs₁ := server.ms_lt
  have hc₀ := client.ms_nonneg
  have hc₁ := client.ms_lt
  have hera := era_eq
  obtain ⟨hsame, hahead, hbehind⟩ := candidates_toInt server client
  rw [absoluteOf_toInt (by omega) (by omega), absoluteOf_toInt (by omega) (by omega),
    absoluteOf_toInt (by omega) (by omega), hsame, hahead, hbehind]
  exact ⟨rfl, rfl, rfl⟩

/-- The comparisons are equal only where the special case has returned. -/
theorem safeTimeDifferenceStrict_eq (server client : Timestamp) :
    safeTimeDifferenceStrict server client = safeTimeDifference server client := by
  have hs₀ := server.ms_nonneg
  have hs₁ := server.ms_lt
  have hc₀ := client.ms_nonneg
  have hc₁ := client.ms_lt
  have hera := era_eq
  obtain ⟨habs₁, habs₂, habs₃⟩ := absolutes_toInt server client
  have hhalf : clockOffsetMaxTimeDifference.toInt = 2147483648000 := rfl
  unfold safeTimeDifferenceStrict safeTimeDifference
  simp only [beq_iff_eq, ← Int64.toInt_inj, Int64.le_iff_toInt_le, Int64.lt_iff_toInt_lt,
    habs₁, habs₂, habs₃, hhalf]
  by_cases htie : ((server.ms - client.ms).natAbs : ℤ) = 2147483648000
  · rw [if_pos htie, if_pos htie]
  · rw [if_neg htie, if_neg htie]
    by_cases hmin : ((server.ms - client.ms).natAbs : ℤ) < (server.ms - client.ms + era).natAbs ∧
        ((server.ms - client.ms).natAbs : ℤ) < (server.ms - client.ms - era).natAbs
    · rw [if_pos hmin, if_pos ⟨hmin.1.le, hmin.2.le⟩]
    · have hmin' : ¬ (((server.ms - client.ms).natAbs : ℤ) ≤ (server.ms - client.ms + era).natAbs ∧
          ((server.ms - client.ms).natAbs : ℤ) ≤ (server.ms - client.ms - era).natAbs) := by
        omega
      rw [if_neg hmin, if_neg hmin']

/-- Without the special case the tie goes to the same era. -/
theorem safeTimeDifferenceUntied_toInt (server client : Timestamp) :
    (safeTimeDifferenceUntied server client).toInt =
      if server.ms - client.ms = -(era / 2) then -(era / 2)
      else (safeTimeDifference server client).toInt := by
  have hs₀ := server.ms_nonneg
  have hs₁ := server.ms_lt
  have hc₀ := client.ms_nonneg
  have hc₁ := client.ms_lt
  have hera := era_eq
  obtain ⟨hsame, hahead, hbehind⟩ := candidates_toInt server client
  obtain ⟨habs₁, habs₂, habs₃⟩ := absolutes_toInt server client
  obtain ⟨⟨hlo, hhi⟩, hcand⟩ := safeTimeDifference_spec server client
  unfold safeTimeDifferenceUntied
  simp only [Int64.le_iff_toInt_le, Int64.lt_iff_toInt_lt, habs₁, habs₂, habs₃]
  by_cases hmin : ((server.ms - client.ms).natAbs : ℤ) ≤ (server.ms - client.ms + era).natAbs ∧
      ((server.ms - client.ms).natAbs : ℤ) ≤ (server.ms - client.ms - era).natAbs
  · rw [if_pos hmin, hsame]
    split
    next htie => exact htie
    next htie => omega
  · have hfar : server.ms - client.ms ≠ -(era / 2) := by omega
    rw [if_neg hmin, if_neg hfar]
    by_cases hlt : ((server.ms - client.ms + era).natAbs : ℤ) < (server.ms - client.ms).natAbs
    · rw [if_pos hlt, hahead]
      omega
    · rw [if_neg hlt, hbehind]
      omega

/-- **The special case of the tie is the only asymmetry of the era arithmetic**, and it
shows on one side only. Taken away, nothing changes but the difference to a server
exactly half an era behind, which is half an era and would be minus that; and then
exchanging server and client negates every difference. The code's own difference is
negated exactly when there is no tie. -/
theorem tie_is_the_only_asymmetry (server client : Timestamp) :
    (safeTimeDifferenceUntied server client = safeTimeDifference server client ↔
      server.ms - client.ms ≠ -(era / 2)) ∧
    (safeTimeDifferenceUntied client server).toInt
      = -(safeTimeDifferenceUntied server client).toInt ∧
    ((safeTimeDifference client server).toInt = -(safeTimeDifference server client).toInt ↔
      (server.ms - client.ms).natAbs ≠ era / 2) := by
  have hera := era_eq
  have hhere := safeTimeDifferenceUntied_toInt server client
  have hthere := safeTimeDifferenceUntied_toInt client server
  obtain ⟨⟨hlo, hhi⟩, hcand⟩ := safeTimeDifference_spec server client
  obtain ⟨⟨hlo', hhi'⟩, hcand'⟩ := safeTimeDifference_spec client server
  refine ⟨?_, ?_, ?_⟩
  · rw [← Int64.toInt_inj, hhere]
    split
    next htie => omega
    next htie => exact ⟨fun _ => htie, fun _ => rfl⟩
  · rw [hhere, hthere]
    by_cases hbehind : server.ms - client.ms = -(era / 2)
    · rw [if_pos hbehind, if_neg (by omega)]
      omega
    · rw [if_neg hbehind]
      split
      next hahead => omega
      next hahead => omega
  · omega

/-! ## UNIX time -/

/-- `convertToUnixTime` with `>` for `≥`. -/
def convertToUnixTimeStrict (sntpTime : Timestamp) : UInt32 × UInt32 :=
  let seconds :=
    if sntpTime.seconds > timeAtUnixEpochSecs then
      MachineNat.saturatingSub sntpTime.seconds timeAtUnixEpochSecs
    else unixTimeSecsAtSntpEra1SmallestTime + sntpTime.seconds
  let microseconds := sntpTime.fractions / fractionValuePerMicrosecond
  (seconds, microseconds)

/-- In the second that is told apart differently, the two formulas agree. -/
theorem convertToUnixTimeStrict_eq (t : Timestamp) :
    convertToUnixTimeStrict t = convertToUnixTime t := by
  unfold convertToUnixTimeStrict convertToUnixTime
  by_cases hboundary : t.seconds = timeAtUnixEpochSecs
  · rw [hboundary]
    rfl
  · have hiff : t.seconds > timeAtUnixEpochSecs ↔ t.seconds ≥ timeAtUnixEpochSecs := by
      rw [gt_iff_lt, ge_iff_le, UInt32.lt_iff_toNat_lt, UInt32.le_iff_toNat_le]
      have hne : t.seconds.toNat ≠ timeAtUnixEpochSecs.toNat := fun h =>
        hboundary (UInt32.toNat_inj.mp h)
      omega
    simp only [hiff]

/-! ## Indexing without looking -/

/-- `wordAt` by plain indexing. Past the end it reads `junk`. -/
def wordAtUnchecked (junk : UInt8) (buf : Buffer) (offset : ℕ) : UInt32 :=
  Bytes.ofBeBytes (buf.getD offset junk) (buf.getD (offset + 1) junk)
    (buf.getD (offset + 2) junk) (buf.getD (offset + 3) junk)

/-- `timestampAt` by plain indexing. -/
def timestampAtUnchecked (junk : UInt8) (buf : Buffer) (secondsAt fractionsAt : ℕ) : Timestamp :=
  ⟨wordAtUnchecked junk buf secondsAt, wordAtUnchecked junk buf fractionsAt⟩

/-- `deserializeResponse` by plain indexing. -/
def deserializeResponseUnchecked (junk : UInt8) (requestTime responseRxTime : Timestamp)
    (buffer : Buffer) : Except DeserializeError Verdict :=
  if buffer.length < packetBaseSize then .error .bufferTooSmall
  else if requestTime.isZero then .error .badParameter
  else
    let leapVersionMode := buffer.getD Field.leapVersionMode junk
    if leapVersionMode &&& modeBitsMask ≠ modeServer then .error .invalidResponse
    else
      let origin := timestampAtUnchecked junk buffer Field.originSeconds Field.originFractions
      let receive := timestampAtUnchecked junk buffer Field.receiveSeconds Field.receiveFractions
      let transmit :=
        timestampAtUnchecked junk buffer Field.transmitSeconds Field.transmitFractions
      if origin.isZero || receive.isZero || transmit.isZero then .error .invalidResponse
      else if origin ≠ requestTime then .error .invalidResponse
      else if buffer.getD Field.stratum junk = kissOfDeathStratum then
        let code := wordAtUnchecked junk buffer Field.refId
        .ok (.rejected ⟨code, rejectionKind code⟩)
      else
        .ok (.accepted ⟨transmit, leapSecondOf leapVersionMode,
          calculateClockOffset requestTime receive transmit responseRxTime⟩)

/-- `serializeRequest` by plain writes. -/
def serializeRequestUnchecked (requestTime : Timestamp) (randomNumber : UInt32)
    (buffer : Buffer) : Except SerializeError Unit × Timestamp × Buffer :=
  if buffer.length < packetBaseSize then (.error .bufferTooSmall, requestTime, buffer)
  else if requestTime.isZero then (.error .badParameter, requestTime, buffer)
  else
    let packet := List.replicate packetBaseSize 0
    let packet := packet.set Field.leapVersionMode ((version <<< versionLsbPosition) ||| modeClient)
    let requestTime :=
      { requestTime with fractions := requestTime.fractions ||| (randomNumber >>> 16) }
    let packet :=
      Bytes.splice packet Field.transmitSeconds (Bytes.toBeBytes requestTime.seconds)
    let packet :=
      Bytes.splice packet Field.transmitFractions (Bytes.toBeBytes requestTime.fractions)
    (.ok (), requestTime, Bytes.splice buffer 0 packet)

/-- A word that can be read is read by plain indexing. -/
theorem wordAtUnchecked_eq (junk : UInt8) {buf : Buffer} {offset : ℕ} {x : UInt32}
    (h : wordAt buf offset = some x) : wordAtUnchecked junk buf offset = x := by
  unfold wordAt at h
  split at h
  next a b c d hslice =>
    unfold Bytes.slice at hslice
    split at hslice
    next hfits =>
      have hbytes : ∀ i < 4, buf[offset + i]? = ([a, b, c, d] : Buffer)[i]? := by
        intro i hi
        rw [← Option.some.inj hslice, List.getElem?_drop, List.getElem?_take_of_lt (by omega)]
      unfold wordAtUnchecked
      rw [List.getD_eq_getElem?_getD, List.getD_eq_getElem?_getD, List.getD_eq_getElem?_getD,
        List.getD_eq_getElem?_getD, hbytes 1 (by omega), hbytes 2 (by omega), hbytes 3 (by omega),
        show buf[offset]? = _ from hbytes 0 (by omega)]
      exact Option.some.inj h
    next => cases hslice
  next => cases h

theorem timestampAtUnchecked_eq (junk : UInt8) {buf : Buffer} {s f : ℕ} {t : Timestamp}
    (h : timestampAt buf s f = some t) : timestampAtUnchecked junk buf s f = t := by
  unfold timestampAt at h
  split at h
  next seconds fractions hs hf =>
    unfold timestampAtUnchecked
    rw [wordAtUnchecked_eq junk hs, wordAtUnchecked_eq junk hf]
    exact Option.some.inj h
  next => cases h

/-- Every offset lies inside the 48 bytes the length check is about. -/
theorem deserializeResponseUnchecked_eq (junk : UInt8) (requestTime rx : Timestamp)
    (buf : Buffer) :
    deserializeResponseUnchecked junk requestTime rx buf
      = deserializeResponse requestTime rx buf := by
  unfold deserializeResponseUnchecked deserializeResponse
  by_cases hshort : buf.length < packetBaseSize
  · rw [if_pos hshort, if_pos hshort]
  · rw [if_neg hshort, if_neg hshort]
    obtain ⟨h, hof⟩ := Header.exists_of (Nat.le_of_not_lt hshort)
    simp only [hof.leapVersionMode, hof.stratum, hof.refId, hof.origin, hof.receive, hof.transmit,
      List.getD_eq_getElem?_getD, Option.getD_some, wordAtUnchecked_eq junk hof.refId,
      timestampAtUnchecked_eq junk hof.origin, timestampAtUnchecked_eq junk hof.receive,
      timestampAtUnchecked_eq junk hof.transmit]

theorem serializeRequestUnchecked_eq (t : Timestamp) (r : UInt32) (buf : Buffer) :
    serializeRequestUnchecked t r buf = serializeRequest t r buf := by
  by_cases hshort : buf.length < packetBaseSize
  · rw [serializeRequest_short hshort]
    unfold serializeRequestUnchecked
    rw [if_pos hshort]
  · have hlen := Nat.le_of_not_lt hshort
    unfold serializeRequestUnchecked
    rw [if_neg hshort]
    by_cases hzero : t = .zero
    · rw [hzero, serializeRequest_zero hlen]
      rfl
    · rw [serializeRequest_ok hlen hzero, Timestamp.isZero_eq_false_iff.mpr hzero,
        if_neg (by decide)]
      simp only [Bytes.splice_zero]
      rfl

/-- **The poisons that do not fire change nothing**: the stricter comparison of the
three candidate differences, the stricter one of the two eras of UNIX time, and
reading and writing the packet without looking whether an offset is inside it. -/
theorem poisons_do_not_fire :
    safeTimeDifferenceStrict = safeTimeDifference ∧
    convertToUnixTimeStrict = convertToUnixTime ∧
    (∀ junk, deserializeResponseUnchecked junk = deserializeResponse) ∧
    serializeRequestUnchecked = serializeRequest := by
  refine ⟨?_, ?_, ?_, ?_⟩
  · funext server client
    exact safeTimeDifferenceStrict_eq server client
  · funext t
    exact convertToUnixTimeStrict_eq t
  · intro junk
    funext requestTime rx buf
    exact deserializeResponseUnchecked_eq junk requestTime rx buf
  · funext t r buf
    exact serializeRequestUnchecked_eq t r buf

end Sntp
