import Sntp.Wire.Packet

/-!
# What writing a request changes

`serializeRequest` has two in-out parameters, the timestamp and the caller's
buffer, and this file is its frame condition. A refusal changes neither. A
request changes the first 48 bytes of the buffer, to something that does not
depend on what stood there, and the low 16 bits of the fractions of the
timestamp, which it only ever sets: so the timestamp goes forward by less than
`2^16` ticks, and asking again changes nothing more.
-/

namespace Sntp

/-- A timestamp as one 64-bit number of ticks. -/
def Timestamp.ticks (t : Timestamp) : ℕ := t.seconds.toNat * 2 ^ 32 + t.fractions.toNat

/-- The big-endian number a window of bytes spells. -/
def beNumber (window : Buffer) : ℕ := window.foldl (fun n b => n * 256 + b.toNat) 0

/-- The eight bytes of a timestamp spell its ticks. -/
theorem beNumber_timestampBytes (t : Timestamp) : beNumber (timestampBytes t) = t.ticks := by
  have hs := t.seconds.toNat_lt
  have hf := t.fractions.toNat_lt
  simp only [beNumber, timestampBytes, Bytes.toBeBytes, List.cons_append, List.nil_append,
    List.foldl_cons, List.foldl_nil, UInt8.toNat_ofNat', Timestamp.ticks]
  omega

/-- The random bits move a timestamp forward, by less than `2^16` ticks. -/
theorem stamped_ticks (t : Timestamp) (r : UInt32) :
    t.ticks ≤ (stamped t r).ticks ∧ (stamped t r).ticks ≤ t.ticks + 65535 := by
  obtain ⟨hge, hhigh⟩ := or_random_bounds t.fractions r
  unfold Timestamp.ticks stamped
  dsimp only
  omega

/-- They leave the upper half of its fractions alone. -/
theorem stamped_high (t : Timestamp) (r : UInt32) :
    (stamped t r).fractions >>> 16 = t.fractions >>> 16 := by
  apply UInt32.toNat_inj.mp
  have hhigh := (or_random_bounds t.fractions r).2
  rw [UInt32.toNat_shiftRight, UInt32.toNat_shiftRight, show (16 : UInt32).toNat % 32 = 16 from rfl,
    Nat.shiftRight_eq_div_pow, Nat.shiftRight_eq_div_pow]
  exact hhigh

/-- Stamping twice with the same number is stamping once. -/
theorem stamped_stamped (t : Timestamp) (r : UInt32) : stamped (stamped t r) r = stamped t r := by
  have hor : (t.fractions ||| (r >>> 16)) ||| (r >>> 16) = t.fractions ||| (r >>> 16) := by
    rw [UInt32.or_assoc, UInt32.or_self]
  rw [stamped, stamped]
  dsimp only
  rw [hor]

/-- The three outcomes, by the two guards in their order. -/
theorem serializeRequest_cases (t : Timestamp) (r : UInt32) (buf : Buffer) :
    (buf.length < 48 ∧ serializeRequest t r buf = (.error .bufferTooSmall, t, buf)) ∨
    (48 ≤ buf.length ∧ t = .zero ∧ serializeRequest t r buf = (.error .badParameter, t, buf)) ∨
    (48 ≤ buf.length ∧ t ≠ .zero ∧ serializeRequest t r buf
      = (.ok (), stamped t r, requestHeader (stamped t r) ++ buf.drop 48)) := by
  rcases Nat.lt_or_ge buf.length 48 with hshort | hlen
  · exact Or.inl ⟨hshort, serializeRequest_short hshort⟩
  · by_cases hzero : t = .zero
    · subst hzero
      exact Or.inr (Or.inl ⟨hlen, rfl, serializeRequest_zero hlen⟩)
    · exact Or.inr (Or.inr ⟨hlen, hzero, serializeRequest_ok hlen hzero⟩)

/-- **Writing a request is atomic on an error and minimal on success**, for every
timestamp, random number and buffer. -/
theorem serializeRequest_atomic (t : Timestamp) (r : UInt32) (buf : Buffer) :
    let (result, t', buf') := serializeRequest t r buf
    -- which outcome it is, and what an error leaves
    (result = .error .bufferTooSmall ↔ buf.length < 48) ∧
    (48 ≤ buf.length → (result = .error .badParameter ↔ t = .zero)) ∧
    (∀ e, result = .error e → t' = t ∧ buf' = buf) ∧
    (result = .ok () →
      -- the buffer: a new front that is always the same, and the old rest
      buf'.length = buf.length ∧ buf'.drop 48 = buf.drop 48 ∧
      (∀ other : Buffer, 48 ≤ other.length →
        (serializeRequest t r other).2.2.take 48 = buf'.take 48) ∧
      -- the timestamp: at most `2^16 - 1` ticks later, and what the packet carries
      t'.seconds = t.seconds ∧ t'.fractions >>> 16 = t.fractions >>> 16 ∧
      t.ticks ≤ t'.ticks ∧ t'.ticks ≤ t.ticks + 65535 ∧ t' ≠ .zero ∧
      (∃ window, Bytes.slice buf' 40 48 = some window ∧ beNumber window = t'.ticks) ∧
      -- and asking again changes nothing
      serializeRequest t' r buf' = (.ok (), t', buf')) := by
  rcases serializeRequest_cases t r buf with
    ⟨hshort, hsent⟩ | ⟨hlen, hzero, hsent⟩ | ⟨hlen, hnonzero, hsent⟩
  · rw [hsent]
    refine ⟨⟨fun _ => hshort, fun _ => rfl⟩, fun hlen => absurd hlen (by omega), ?_, nofun⟩
    exact fun _ _ => ⟨rfl, rfl⟩
  · rw [hsent]
    refine ⟨⟨nofun, fun hshort => absurd hlen (by omega)⟩, fun _ => ⟨fun _ => hzero, fun _ => rfl⟩,
      ?_, nofun⟩
    exact fun _ _ => ⟨rfl, rfl⟩
  · rw [hsent]
    have hheader := requestHeader_length (stamped t r)
    have hdrop : (requestHeader (stamped t r) ++ buf.drop 48).drop 48 = buf.drop 48 :=
      List.drop_left' hheader
    have htake : ∀ rest : Buffer,
        (requestHeader (stamped t r) ++ rest).take 48 = requestHeader (stamped t r) :=
      fun rest => List.take_left' hheader
    have hlength : (requestHeader (stamped t r) ++ buf.drop 48).length = buf.length := by
      rw [List.length_append, hheader, List.length_drop]
      omega
    obtain ⟨hforward, hnear⟩ := stamped_ticks t r
    have hagain := serializeRequest_ok (r := r) (hlength ▸ hlen :
      packetBaseSize ≤ (requestHeader (stamped t r) ++ buf.drop 48).length)
      (stamped_ne_zero hnonzero r)
    rw [stamped_stamped, hdrop] at hagain
    refine ⟨⟨nofun, fun hshort => absurd hlen (by omega)⟩,
      fun _ => ⟨nofun, fun hzero => absurd hzero hnonzero⟩, nofun, fun _ => ?_⟩
    refine ⟨hlength, hdrop, ?_, rfl, stamped_high t r, hforward, hnear,
      stamped_ne_zero hnonzero r, ?_, hagain⟩
    · intro other hother
      rw [serializeRequest_ok hother hnonzero, htake, htake]
    · exact ⟨_, requestHeader_transmit (stamped t r) (buf.drop 48), beNumber_timestampBytes _⟩

end Sntp
