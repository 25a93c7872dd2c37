import Sntp.Lib.Bytes
import Sntp.Wire.Era

/-!
# The packet codec: what a request is, and what a response is judged by

`serializeRequest` and `deserializeResponse` with the field readers and writers
they stand on, transcribed with their guards in the source's order. The codec
never trusts a length twice: every reader is total and returns `none` past the
end, although the one length check at the top already covers every offset.

Three equations carry everything said about the codec later:

- `serializeRequest_ok`: a successful request is the 48 bytes `requestHeader`
  of the mutated timestamp, in front of whatever the buffer held from byte 48;
- `deserializeResponse_answers` and `deserializeResponse_invalid`: from 48 bytes
  on, a response is judged by the six fields of its `Header` and by nothing else.
-/

namespace Sntp

/-- A `[u8]`, its length included. -/
abbrev Buffer := List UInt8

/-- `PACKET_BASE_SIZE`: a packet without authentication data. -/
def packetBaseSize : ℕ := 48

def version : UInt8 := 4
def modeBitsMask : UInt8 := 0x07
def modeClient : UInt8 := 3
def modeServer : UInt8 := 4
def leapIndicatorLsbPosition : UInt8 := 6
def versionLsbPosition : UInt8 := 3
def kissOfDeathStratum : UInt8 := 0

/-- The three kiss codes the specification names, as big-endian ASCII. -/
def kodDeny : UInt32 := 0x44454E59
def kodRstr : UInt32 := 0x52535452
def kodRate : UInt32 := 0x52415445

/-! The offsets of the fields the codec reads. -/

namespace Field

def leapVersionMode : ℕ := 0
def stratum : ℕ := 1
def refId : ℕ := 12
def originSeconds : ℕ := 24
def originFractions : ℕ := 28
def receiveSeconds : ℕ := 32
def receiveFractions : ℕ := 36
def transmitSeconds : ℕ := 40
def transmitFractions : ℕ := 44

end Field

/-- `word_at`: `none` past the end. -/
def wordAt (buf : Buffer) (offset : ℕ) : Option UInt32 :=
  match Bytes.slice buf offset (offset + 4) with
  | some [a, b, c, d] => some (Bytes.ofBeBytes a b c d)
  | _ => none

/-- `put_word`: a no-op past the end. -/
def putWord (buf : Buffer) (offset : ℕ) (value : UInt32) : Buffer :=
  if offset + 4 ≤ buf.length then Bytes.splice buf offset (Bytes.toBeBytes value) else buf

/-- `timestamp_at`. -/
def timestampAt (buf : Buffer) (secondsAt fractionsAt : ℕ) : Option Timestamp :=
  match wordAt buf secondsAt, wordAt buf fractionsAt with
  | some seconds, some fractions => some ⟨seconds, fractions⟩
  | _, _ => none

/-- `serialize_request`. The timestamp and the buffer are in-out parameters, so
both come back whatever the result is. -/
def serializeRequest (requestTime : Timestamp) (randomNumber : UInt32) (buffer : Buffer) :
    Except SerializeError Unit × Timestamp × Buffer :=
  if buffer.length < packetBaseSize then (.error .bufferTooSmall, requestTime, buffer)
  else if requestTime.isZero then (.error .badParameter, requestTime, buffer)
  else
    match Bytes.slice buffer 0 packetBaseSize with
    | none => (.error .bufferTooSmall, requestTime, buffer)
    | some packet =>
      let packet := List.replicate packet.length 0
      let packet :=
        packet.set Field.leapVersionMode ((version <<< versionLsbPosition) ||| modeClient)
      -- an OR and not an add, so it can never carry into the seconds
      let requestTime :=
        { requestTime with fractions := requestTime.fractions ||| (randomNumber >>> 16) }
      let packet := putWord packet Field.transmitSeconds requestTime.seconds
      let packet := putWord packet Field.transmitFractions requestTime.fractions
      (.ok (), requestTime, Bytes.splice buffer 0 packet)

/-- What a kiss code asks the client to do. -/
def rejectionKind (code : UInt32) : Rejection :=
  if code = kodDeny ∨ code = kodRstr then .changeServer
  else if code = kodRate then .retryWithBackoff
  else .other

/-- The leap indicator, from the top two bits of byte 0. -/
def leapSecondOf (leapVersionMode : UInt8) : LeapSecond :=
  match (leapVersionMode >>> leapIndicatorLsbPosition).toNat with
  | 0 => .none
  | 1 => .lastMinuteHas61Seconds
  | 2 => .lastMinuteHas59Seconds
  | _ => .alarmServerNotSynchronized

/-- `deserialize_response`. -/
def deserializeResponse (requestTime responseRxTime : Timestamp) (buffer : Buffer) :
    Except DeserializeError Verdict :=
  if buffer.length < packetBaseSize then .error .bufferTooSmall
  else if requestTime.isZero then .error .badParameter
  else
    match buffer[Field.leapVersionMode]? with
    | none => .error .bufferTooSmall
    | some leapVersionMode =>
      if leapVersionMode &&& modeBitsMask ≠ modeServer then .error .invalidResponse
      else
        match timestampAt buffer Field.originSeconds Field.originFractions,
          timestampAt buffer Field.receiveSeconds Field.receiveFractions,
          timestampAt buffer Field.transmitSeconds Field.transmitFractions with
        | some origin, some receive, some transmit =>
          -- the subtle one is the originate field: a cleared request time is zero
          if origin.isZero || receive.isZero || transmit.isZero then .error .invalidResponse
          else if origin ≠ requestTime then .error .invalidResponse
          else
            match buffer[Field.stratum]? with
            | none => .error .bufferTooSmall
            | some stratum =>
              if stratum = kissOfDeathStratum then
                match wordAt buffer Field.refId with
                | none => .error .bufferTooSmall
                | some code => .ok (.rejected ⟨code, rejectionKind code⟩)
              else
                .ok (.accepted ⟨transmit, leapSecondOf leapVersionMode,
                  calculateClockOffset requestTime receive transmit responseRxTime⟩)
        | _, _, _ => .error .bufferTooSmall

/-! ## Readers -/

/-- A word that lies inside the buffer can be read. -/
theorem wordAt_isSome {buf : Buffer} {offset : ℕ} (h : offset + 4 ≤ buf.length) :
    ∃ x, wordAt buf offset = some x := by
  have hs : Bytes.slice buf offset (offset + 4) = some ((buf.take (offset + 4)).drop offset) :=
    Bytes.slice_eq_some (by omega) h
  have hlen := Bytes.slice_length hs
  unfold wordAt
  rw [hs]
  match hw : (buf.take (offset + 4)).drop offset with
  | [a, b, c, d] => exact ⟨_, rfl⟩
  | [] | [_] | [_, _] | [_, _, _] | _ :: _ :: _ :: _ :: _ :: _ =>
    rw [hw] at hlen
    simp at hlen

theorem timestampAt_isSome {buf : Buffer} {s f : ℕ} (hs : s + 4 ≤ buf.length)
    (hf : f + 4 ≤ buf.length) : ∃ t, timestampAt buf s f = some t := by
  obtain ⟨seconds, hseconds⟩ := wordAt_isSome hs
  obtain ⟨fractions, hfractions⟩ := wordAt_isSome hf
  exact ⟨⟨seconds, fractions⟩, by rw [timestampAt, hseconds, hfractions]⟩

/-- The word a buffer holds where the four bytes of `x` stand is `x`. -/
theorem wordAt_of_slice {buf : Buffer} {offset : ℕ} {x : UInt32}
    (h : Bytes.slice buf offset (offset + 4) = some (Bytes.toBeBytes x)) :
    wordAt buf offset = some x := by
  unfold wordAt
  rw [h]
  exact congrArg some (Bytes.ofBeBytes_toBeBytes x)

/-- A word read out of a buffer stands there byte for byte. -/
theorem slice_of_wordAt {buf : Buffer} {offset : ℕ} {x : UInt32} (h : wordAt buf offset = some x) :
    Bytes.slice buf offset (offset + 4) = some (Bytes.toBeBytes x) := by
  unfold wordAt at h
  split at h
  next a b c d hs => rw [hs, ← Option.some.inj h, Bytes.toBeBytes_ofBeBytes]
  next => cases h

/-! ## The 48 bytes of a request -/

/-- The eight bytes of a timestamp on the wire. -/
def timestampBytes (t : Timestamp) : Buffer :=
  Bytes.toBeBytes t.seconds ++ Bytes.toBeBytes t.fractions

@[simp] theorem timestampBytes_length (t : Timestamp) : (timestampBytes t).length = 8 := rfl

/-- The timestamp a buffer holds where the eight bytes of `t` stand is `t`. -/
theorem timestampAt_of_slice {buf : Buffer} {offset : ℕ} {t : Timestamp}
    (h : Bytes.slice buf offset (offset + 8) = some (timestampBytes t)) :
    timestampAt buf offset (offset + 4) = some t := by
  have hself : Bytes.slice (timestampBytes t) 0 8 = some (timestampBytes t) :=
    Bytes.slice_append [] (timestampBytes t) [] ▸ by simp
  have hseconds : wordAt buf offset = some t.seconds := by
    apply wordAt_of_slice
    rw [← Nat.add_zero offset, Nat.add_assoc, Bytes.slice_sub h hself (by omega) (by simp)]
    rfl
  have hfractions : wordAt buf (offset + 4) = some t.fractions := by
    apply wordAt_of_slice
    rw [Nat.add_assoc, Bytes.slice_sub h hself (by omega) (by simp)]
    rfl
  rw [timestampAt, hseconds, hfractions]

/-- A request: leap indicator 0, version 4, mode 3, then zeros up to the
transmit timestamp. -/
def requestHeader (t : Timestamp) : Buffer :=
  0x23 :: (List.replicate 39 0 ++ timestampBytes t)

@[simp] theorem requestHeader_length (t : Timestamp) : (requestHeader t).length = 48 := rfl

/-- The timestamp a request made at `reading` carries and the client remembers:
the top half of the random number OR-ed into the low half of the fractions. -/
def stamped (reading : Timestamp) (randomNumber : UInt32) : Timestamp :=
  { reading with fractions := reading.fractions ||| (randomNumber >>> 16) }

/-- OR-ing 16 random bits into a word keeps its upper half and never lowers it. -/
theorem or_random_bounds (f r : UInt32) :
    f.toNat ≤ (f ||| (r >>> 16)).toNat ∧ (f ||| (r >>> 16)).toNat / 2 ^ 16 = f.toNat / 2 ^ 16 := by
  have hr := r.toNat_lt
  have hbits : (r >>> 16).toNat < 2 ^ 16 := by
    rw [UInt32.toNat_shiftRight, show (16 : UInt32).toNat % 32 = 16 from rfl,
      Nat.shiftRight_eq_div_pow]
    omega
  rw [UInt32.toNat_or]
  refine ⟨Nat.left_le_or, ?_⟩
  rw [Nat.or_div_two_pow, Nat.div_eq_of_lt hbits, Nat.or_zero]

/-- An OR cannot make a nonzero timestamp zero. -/
theorem stamped_ne_zero {t : Timestamp} (h : t ≠ .zero) (r : UInt32) : stamped t r ≠ .zero := by
  intro hz
  apply h
  cases t with
  | mk s f =>
    simp only [stamped, Timestamp.zero, Timestamp.mk.injEq] at hz ⊢
    refine ⟨hz.1, ?_⟩
    have hor : f ||| (r >>> 16) = 0 := hz.2
    have hle := (or_random_bounds f r).1
    rw [hor] at hle
    exact UInt32.toNat_inj.mp (Nat.le_zero.mp hle)

/-- **A request that is built is `requestHeader` of the mutated timestamp**, in
front of the bytes the buffer already held from 48 on. -/
theorem serializeRequest_ok {t : Timestamp} {r : UInt32} {buf : Buffer}
    (hlen : packetBaseSize ≤ buf.length) (ht : t ≠ .zero) :
    serializeRequest t r buf
      = (.ok (), stamped t r, requestHeader (stamped t r) ++ buf.drop 48) := by
  have hz : t.isZero = false := Timestamp.isZero_eq_false_iff.mpr ht
  have hslice := Bytes.slice_zero hlen
  have htake : (buf.take packetBaseSize).length = 48 := by
    rw [List.length_take]
    unfold packetBaseSize at *
    omega
  unfold serializeRequest
  rw [if_neg (Nat.not_lt.mpr hlen), hz, if_neg (by decide), hslice]
  simp only [htake, Bytes.splice_zero]
  rfl

/-- The transmit field of a request is its timestamp. -/
theorem requestHeader_transmit (t : Timestamp) (rest : Buffer) :
    Bytes.slice (requestHeader t ++ rest) 40 48 = some (timestampBytes t) := by
  have h := Bytes.slice_append (0x23 :: List.replicate 39 0) (timestampBytes t) rest
  simpa [requestHeader] using h

/-- The other two outcomes leave both in-out parameters alone. -/
theorem serializeRequest_zero {r : UInt32} {buf : Buffer} (hlen : packetBaseSize ≤ buf.length) :
    serializeRequest .zero r buf = (.error .badParameter, .zero, buf) := by
  unfold serializeRequest
  rw [if_neg (Nat.not_lt.mpr hlen)]
  rfl

theorem serializeRequest_short {t : Timestamp} {r : UInt32} {buf : Buffer}
    (hlen : buf.length < packetBaseSize) :
    serializeRequest t r buf = (.error .bufferTooSmall, t, buf) := by
  unfold serializeRequest
  rw [if_pos hlen]

/-! ## The fields a response is judged by -/

/-- The fields of a response that the codec looks at. -/
structure Header where
  leapVersionMode : UInt8
  stratum : UInt8
  refId : UInt32
  origin : Timestamp
  receive : Timestamp
  transmit : Timestamp

namespace Header

/-- `h.Of buf`: `h` is what stands at the fields' offsets in `buf`. -/
structure Of (buf : Buffer) (h : Header) : Prop where
  leapVersionMode : buf[Field.leapVersionMode]? = some h.leapVersionMode
  stratum : buf[Field.stratum]? = some h.stratum
  refId : wordAt buf Field.refId = some h.refId
  origin : timestampAt buf Field.originSeconds Field.originFractions = some h.origin
  receive : timestampAt buf Field.receiveSeconds Field.receiveFractions = some h.receive
  transmit : timestampAt buf Field.transmitSeconds Field.transmitFractions = some h.transmit

/-- Every packet of at least 48 bytes has its fields. -/
theorem exists_of {buf : Buffer} (hlen : packetBaseSize ≤ buf.length) : ∃ h, Of buf h := by
  have hlen' : 48 ≤ buf.length := hlen
  obtain ⟨refId, hrefId⟩ : ∃ x, wordAt buf Field.refId = some x :=
    wordAt_isSome (by unfold Field.refId; omega)
  obtain ⟨origin, horigin⟩ :
      ∃ t, timestampAt buf Field.originSeconds Field.originFractions = some t :=
    timestampAt_isSome (by unfold Field.originSeconds; omega)
      (by unfold Field.originFractions; omega)
  obtain ⟨receive, hreceive⟩ :
      ∃ t, timestampAt buf Field.receiveSeconds Field.receiveFractions = some t :=
    timestampAt_isSome (by unfold Field.receiveSeconds; omega)
      (by unfold Field.receiveFractions; omega)
  obtain ⟨transmit, htransmit⟩ :
      ∃ t, timestampAt buf Field.transmitSeconds Field.transmitFractions = some t :=
    timestampAt_isSome (by unfold Field.transmitSeconds; omega)
      (by unfold Field.transmitFractions; omega)
  exact ⟨⟨buf[0], buf[1], refId, origin, receive, transmit⟩,
    ⟨List.getElem?_eq_getElem (i := 0) (by omega), List.getElem?_eq_getElem (i := 1) (by omega),
      hrefId, horigin, hreceive, htransmit⟩⟩

/-- A response that answers the request stamped `requestTime`: from a server,
no timestamp zero, and the request echoed exactly. -/
structure Answers (requestTime : Timestamp) (h : Header) : Prop where
  mode : h.leapVersionMode &&& modeBitsMask = modeServer
  origin_ne : h.origin ≠ .zero
  receive_ne : h.receive ≠ .zero
  transmit_ne : h.transmit ≠ .zero
  echo : h.origin = requestTime

/-- The verdict of an answer: a refusal at stratum 0, the time otherwise. -/
def verdict (requestTime responseRxTime : Timestamp) (h : Header) : Verdict :=
  if h.stratum = kissOfDeathStratum then .rejected ⟨h.refId, rejectionKind h.refId⟩
  else .accepted ⟨h.transmit, leapSecondOf h.leapVersionMode,
    calculateClockOffset requestTime h.receive h.transmit responseRxTime⟩

end Header

/-- With no request outstanding nothing is a response. -/
theorem deserializeResponse_zero (rx : Timestamp) (buf : Buffer) :
    ∃ e, deserializeResponse .zero rx buf = .error e := by
  unfold deserializeResponse
  split
  · exact ⟨_, rfl⟩
  · exact ⟨_, rfl⟩

/-- So a verdict is only given while a request is outstanding. -/
theorem request_ne_zero_of_verdict {requestTime rx : Timestamp} {buf : Buffer} {v : Verdict}
    (h : deserializeResponse requestTime rx buf = .ok v) : requestTime ≠ .zero := by
  intro hzero
  obtain ⟨e, he⟩ := deserializeResponse_zero rx buf
  rw [hzero, he] at h
  cases h

/-- **A response is judged by its header**: one that answers the request is
its verdict, and any other is invalid. -/
theorem deserializeResponse_answers {requestTime : Timestamp} (rx : Timestamp) {buf : Buffer}
    {h : Header} (hlen : packetBaseSize ≤ buf.length) (hof : h.Of buf)
    (hans : h.Answers requestTime) :
    deserializeResponse requestTime rx buf = .ok (h.verdict requestTime rx) := by
  have hreq : requestTime.isZero = false :=
    Timestamp.isZero_eq_false_iff.mpr (hans.echo ▸ hans.origin_ne)
  have hreceive := Timestamp.isZero_eq_false_iff.mpr hans.receive_ne
  have htransmit := Timestamp.isZero_eq_false_iff.mpr hans.transmit_ne
  unfold deserializeResponse
  rw [if_neg (Nat.not_lt.mpr hlen), hreq, if_neg (by decide), hof.leapVersionMode]
  simp only [hans.mode, hof.origin, hof.receive, hof.transmit, hof.stratum, hof.refId, hans.echo,
    hreq, hreceive, htransmit, ne_eq, not_true_eq_false, Bool.or_self, Bool.false_eq_true, if_false,
    Header.verdict]
  split <;> rfl

theorem deserializeResponse_invalid {requestTime rx : Timestamp} {buf : Buffer} {h : Header}
    (hlen : packetBaseSize ≤ buf.length) (hreq : requestTime ≠ .zero) (hof : h.Of buf)
    (hans : ¬ h.Answers requestTime) :
    deserializeResponse requestTime rx buf = .error .invalidResponse := by
  unfold deserializeResponse
  rw [if_neg (Nat.not_lt.mpr hlen), Timestamp.isZero_eq_false_iff.mpr hreq, if_neg (by decide),
    hof.leapVersionMode]
  simp only [hof.origin, hof.receive, hof.transmit]
  split
  next => rfl
  next hmode =>
    split
    next => rfl
    next hzero =>
      split
      next => rfl
      next hecho =>
        -- every guard passed, so the header does answer
        exfalso
        simp only [Bool.or_eq_true, not_or, Bool.not_eq_true, Timestamp.isZero_eq_false_iff]
          at hzero
        exact hans ⟨not_not.mp hmode, hzero.1.1, hzero.1.2, hzero.2, not_not.mp hecho⟩

/-- A verdict comes from a packet whose header answers the request. -/
theorem answers_of_deserializeResponse {requestTime rx : Timestamp} {buf : Buffer} {v : Verdict}
    (h : deserializeResponse requestTime rx buf = .ok v) :
    packetBaseSize ≤ buf.length ∧
      ∃ hd : Header, hd.Of buf ∧ hd.Answers requestTime ∧ v = hd.verdict requestTime rx := by
  have hlen : packetBaseSize ≤ buf.length := by
    by_contra hshort
    unfold deserializeResponse at h
    rw [if_pos (Nat.lt_of_not_le hshort)] at h
    cases h
  have hreq := request_ne_zero_of_verdict h
  obtain ⟨hd, hof⟩ := Header.exists_of hlen
  by_cases hans : hd.Answers requestTime
  · rw [deserializeResponse_answers rx hlen hof hans] at h
    exact ⟨hlen, hd, hof, hans, (Except.ok.inj h).symm⟩
  · rw [deserializeResponse_invalid hlen hreq hof hans] at h
    cases h

end Sntp
