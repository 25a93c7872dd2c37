import Sntp.Wire.Deserialize

/-!
# The benchmark's corpus

`bench/sntp-ir`: `main` serialises a request, makes a reply to it with a writer of its
own, and has the codec judge that reply, for every byte of `LVM`, every second of
`SECONDS` and so many repetitions; the verdicts it counts are its anchors.
`corpus_counts` says what they are for any number of repetitions. A repetition has 24
replies accepted or rejected and 24 refused, all but the first one: its request at
second zero is the zero timestamp, which is never serialised, so four more are refused.

`main` divides the totals by the repetitions, so it prints 23 and 24, out of 48.
-/

namespace Sntp

namespace Bench

/-- `SECONDS`. -/
def seconds : List UInt32 := [0, 1, 3913056000, 4294967294, 4294967295, 2085978496]

/-- `LVM`. -/
def lvms : List UInt8 := [0x24, 0x1C, 0x04, 0xE4, 0x00, 0xFF, 0x23, 0x25]

/-- A loop of `write_ts`: the bytes that have a slot are written. -/
def writeBytes (buf : Buffer) (offset : ℕ) (bytes : Buffer) : Buffer :=
  bytes.zipIdx.foldl (fun buf (b, i) => buf.set (offset + i) b) buf

/-- `write_ts`. -/
def writeTs (buf : Buffer) (offset : ℕ) (seconds fractions : UInt32) : Buffer :=
  writeBytes (writeBytes buf offset (Bytes.toBeBytes seconds)) (offset + 4)
    (Bytes.toBeBytes fractions)

/-- The reply `main` makes to a request. -/
def reply (requestTime : Timestamp) (secs : UInt32) (si : ℕ) (lvm : UInt8) : Buffer :=
  let reply := List.replicate packetBaseSize 0
  let reply := writeTs reply 24 requestTime.seconds requestTime.fractions
  let reply := writeTs reply 32 (max (secs + 1) 1) 0x40000000
  let reply := writeTs reply 40 (max (secs + 2) 1) 0x80000000
  let reply := reply.set 0 lvm
  -- `u8::try_from(si).unwrap_or(0)`
  reply.set 1 (if si < 256 then UInt8.ofNat si else 0)

/-- The totals `main` keeps. -/
structure Totals where
  ok : UInt64
  refused : UInt64
  checksum : UInt64

/-- The body of the loops of `main`. -/
def judge (rep secs : UInt32) (si : ℕ) (lvm : UInt8) (li : ℕ) (totals : Totals) : Totals :=
  let buf := List.replicate packetBaseSize 0
  let (result, requestTime, _) := serializeRequest ⟨secs, rep * 7⟩ (rep + 1) buf
  let totals :=
    match result with
    | .ok () =>
      { totals with
        checksum :=
          totals.checksum + requestTime.seconds.toUInt64 + requestTime.fractions.toUInt64 }
    | .error _ => totals
  let rx := ⟨secs + 1, 0⟩
  match deserializeResponse requestTime rx (reply requestTime secs si lvm) with
  | .ok _ =>
    { totals with
      ok := totals.ok + 1
      checksum := totals.checksum + UInt64.ofNat (si * lvms.length + li) + 1 }
  | .error _ => { totals with refused := totals.refused + 1 }

/-- One repetition: every second with every byte. -/
def repetition (rep : UInt32) (totals : Totals) : Totals :=
  seconds.zipIdx.foldl (fun totals (secs, si) =>
    lvms.zipIdx.foldl (fun totals (lvm, li) => judge rep secs si lvm li totals) totals) totals

/-- The loop over the repetitions. -/
def corpus (reps : UInt32) : Totals :=
  (List.range reps.toNat).foldl (fun totals rep => repetition (UInt32.ofNat rep) totals) ⟨0, 0, 0⟩

/-- What `main` prints. -/
structure Report where
  checksum : UInt64
  reps : UInt32
  calls : UInt64
  ok : UInt64
  refused : UInt64
deriving DecidableEq, Repr

/-- `main`, for `REPS` repetitions. -/
def main (reps : UInt32) : Report :=
  let totals := corpus reps
  ⟨totals.checksum, reps, totals.ok + totals.refused, totals.ok / reps.toUInt64,
    totals.refused / reps.toUInt64⟩

/-! ## The writer -/

/-- Where the bytes all have slots, they overwrite a window. -/
theorem writeBytes_eq_splice {buf : Buffer} {offset : ℕ} {bytes : Buffer}
    (h : offset + bytes.length ≤ buf.length) :
    writeBytes buf offset bytes = Bytes.splice buf offset bytes := by
  have hfrom : ∀ (k : ℕ) (buf : Buffer), offset + k + bytes.length ≤ buf.length →
      (bytes.zipIdx k).foldl (fun buf (b, i) => buf.set (offset + i) b) buf
        = Bytes.splice buf (offset + k) bytes := by
    clear h
    induction bytes with
    | nil =>
      intro k buf _
      exact (List.take_append_drop _ _).symm
    | cons b bytes ih =>
      intro k buf h
      rw [List.length_cons] at h
      have hlen : offset + (k + 1) + bytes.length ≤ (buf.set (offset + k) b).length := by
        rw [List.length_set]
        omega
      rw [Bytes.splice_cons (by omega), List.zipIdx_cons, List.foldl_cons]
      exact ih (k + 1) _ hlen
  exact hfrom 0 buf h

/-- The benchmark's writer and the codec's write the same timestamp. -/
theorem writeTs_eq_putWord {buf : Buffer} {offset : ℕ} (seconds fractions : UInt32)
    (h : offset + 8 ≤ buf.length) :
    writeTs buf offset seconds fractions
      = putWord (putWord buf offset seconds) (offset + 4) fractions := by
  have hseconds : offset + (Bytes.toBeBytes seconds).length ≤ buf.length := by
    rw [show (Bytes.toBeBytes seconds).length = 4 from rfl]
    omega
  have hfractions : offset + 4 + (Bytes.toBeBytes fractions).length
      ≤ (Bytes.splice buf offset (Bytes.toBeBytes seconds)).length := by
    rw [Bytes.splice_length hseconds, show (Bytes.toBeBytes fractions).length = 4 from rfl]
    exact h
  rw [writeTs, writeBytes_eq_splice hseconds, writeBytes_eq_splice hfractions, putWord,
    putWord, if_pos (show offset + 4 ≤ buf.length by omega)]
  exact (if_pos hfractions).symm

/-! ## One reply -/

/-- The benchmark's writer lays the fields out where the codec reads them. -/
theorem writeTs_layout (origin receive transmit : Timestamp) (lvm stratum : UInt8) :
    ((writeTs (writeTs (writeTs (List.replicate packetBaseSize 0) 24 origin.seconds
      origin.fractions) 32 receive.seconds receive.fractions) 40 transmit.seconds
      transmit.fractions).set 0 lvm).set 1 stratum
      = lvm :: stratum :: (List.replicate 22 0 ++
        (timestampBytes origin ++ (timestampBytes receive ++ timestampBytes transmit))) := by
  have horigin : writeTs (List.replicate packetBaseSize 0) 24 origin.seconds origin.fractions
      = List.replicate 24 0 ++ (timestampBytes origin ++ List.replicate 16 0) :=
    writeTs_eq_putWord _ _ (by decide)
  have hreceive : writeTs (List.replicate 24 0 ++ (timestampBytes origin ++ List.replicate 16 0))
      32 receive.seconds receive.fractions
      = List.replicate 24 0 ++ (timestampBytes origin ++ (timestampBytes receive ++
        List.replicate 8 0)) :=
    writeTs_eq_putWord _ _ (by simp)
  have htransmit : writeTs (List.replicate 24 0 ++ (timestampBytes origin ++
      (timestampBytes receive ++ List.replicate 8 0))) 40 transmit.seconds transmit.fractions
      = List.replicate 24 0 ++ (timestampBytes origin ++ (timestampBytes receive ++
        timestampBytes transmit)) :=
    writeTs_eq_putWord _ _ (by simp)
  rw [horigin, hreceive, htransmit]
  rfl

theorem reply_of (requestTime : Timestamp) (secs : UInt32) (si : ℕ) (lvm : UInt8) :
    (⟨lvm, if si < 256 then UInt8.ofNat si else 0, 0, requestTime,
      ⟨max (secs + 1) 1, 0x40000000⟩, ⟨max (secs + 2) 1, 0x80000000⟩⟩ : Header).Of
        (reply requestTime secs si lvm) := by
  unfold reply
  generalize (if si < 256 then UInt8.ofNat si else 0) = stratum
  generalize max (secs + 1) 1 = received
  generalize max (secs + 2) 1 = sent
  have hlayout := writeTs_layout requestTime ⟨received, 0x40000000⟩ ⟨sent, 0x80000000⟩ lvm stratum
  dsimp only at hlayout ⊢
  rw [hlayout]
  refine ⟨rfl, rfl, rfl, timestampAt_of_slice ?_, timestampAt_of_slice ?_,
    timestampAt_of_slice ?_⟩
  · exact Bytes.slice_append (lvm :: stratum :: List.replicate 22 0) (timestampBytes requestTime) _
  · exact Bytes.slice_append
      (lvm :: stratum :: (List.replicate 22 0 ++ timestampBytes requestTime)) (timestampBytes _)
      (timestampBytes _)
  · rfl

/-- Whether the codec takes the reply: it has a request, and the byte is in server
mode. -/
theorem reply_verdict (requestTime rx : Timestamp) (secs : UInt32) (si : ℕ) (lvm : UInt8) :
    (∃ v, deserializeResponse requestTime rx (reply requestTime secs si lvm) = .ok v) ↔
      requestTime ≠ .zero ∧ lvm &&& modeBitsMask = modeServer := by
  have hof := reply_of requestTime secs si lvm
  have hne : ∀ s f : UInt32, f ≠ 0 → (⟨s, f⟩ : Timestamp) ≠ .zero := fun _ _ hf hzero =>
    hf (congrArg Timestamp.fractions hzero)
  by_cases hrequest : requestTime = .zero
  · rw [hrequest] at hof ⊢
    rw [deserializeResponse_bad hof.length]
    exact iff_of_false nofun fun h => h.1 rfl
  · by_cases hmode : lvm &&& modeBitsMask = modeServer
    · refine iff_of_true ⟨_, deserializeResponse_answers rx hof.length hof ?_⟩ ⟨hrequest, hmode⟩
      exact ⟨hmode, hrequest, hne _ _ (by decide), hne _ _ (by decide), rfl⟩
    · rw [deserializeResponse_invalid hof.length hrequest hof fun h => hmode h.mode]
      exact iff_of_false nofun fun h => hmode h.2

/-! ## The counts -/

/-- So many verdicts of each kind were added. -/
structure Adds (totals totals' : Totals) (ok refused : ℕ) : Prop where
  ok : totals'.ok = totals.ok + UInt64.ofNat ok
  refused : totals'.refused = totals.refused + UInt64.ofNat refused

namespace Adds

theorem nothing (totals : Totals) : Adds totals totals 0 0 :=
  ⟨(UInt64.add_zero _).symm, (UInt64.add_zero _).symm⟩

theorem trans {t₁ t₂ t₃ : Totals} {a b a' b' : ℕ} (h : Adds t₁ t₂ a b) (h' : Adds t₂ t₃ a' b') :
    Adds t₁ t₃ (a + a') (b + b') := by
  refine ⟨?_, ?_⟩
  · rw [h'.ok, h.ok, UInt64.ofNat_add, UInt64.add_assoc]
  · rw [h'.refused, h.refused, UInt64.ofNat_add, UInt64.add_assoc]

/-- A loop adds what its rounds add. -/
theorem foldl {α : Type} {f : Totals → α → Totals} {ok refused : α → ℕ} (xs : List α)
    (h : ∀ totals x, Adds totals (f totals x) (ok x) (refused x)) (totals : Totals) :
    Adds totals (xs.foldl f totals) (xs.map ok).sum (xs.map refused).sum := by
  induction xs generalizing totals with
  | nil => exact nothing totals
  | cons x xs ih =>
    rw [List.foldl_cons, List.map_cons, List.map_cons, List.sum_cons, List.sum_cons]
    exact (h totals x).trans (ih (f totals x))

end Adds

/-- Whether a reply is taken: its request is not at zero, and its byte is in server
mode. -/
def Taken (rep secs : UInt32) (lvm : UInt8) : Prop :=
  ¬ (secs = 0 ∧ rep * 7 = 0) ∧ lvm &&& modeBitsMask = modeServer

instance (rep secs : UInt32) (lvm : UInt8) : Decidable (Taken rep secs lvm) :=
  inferInstanceAs (Decidable (_ ∧ _))

/-- The request time is the stamp of a reading that is not zero. -/
theorem request_ne_zero (rep secs : UInt32) :
    (serializeRequest ⟨secs, rep * 7⟩ (rep + 1) (List.replicate packetBaseSize 0)).2.1 ≠ .zero ↔
      ¬ (secs = 0 ∧ rep * 7 = 0) := by
  by_cases hzero : secs = 0 ∧ rep * 7 = 0
  · obtain ⟨hsecs, hrep⟩ := hzero
    rw [hsecs, hrep, show (⟨0, 0⟩ : Timestamp) = .zero from rfl,
      serializeRequest_zero List.length_replicate.ge]
    exact iff_of_false (fun h => h rfl) (fun h => h ⟨rfl, rfl⟩)
  · have hne : (⟨secs, rep * 7⟩ : Timestamp) ≠ .zero := fun h =>
      hzero ⟨congrArg Timestamp.seconds h, congrArg Timestamp.fractions h⟩
    rw [serializeRequest_ok List.length_replicate.ge hne]
    exact iff_of_true (stamped_ne_zero hne _) hzero

/-- One reply is counted once. -/
theorem judge_adds (rep secs : UInt32) (si : ℕ) (lvm : UInt8) (li : ℕ) (totals : Totals) :
    Adds totals (judge rep secs si lvm li totals) (if Taken rep secs lvm then 1 else 0)
      (if Taken rep secs lvm then 0 else 1) := by
  have hrequest := request_ne_zero rep secs
  unfold judge
  dsimp only
  generalize serializeRequest ⟨secs, rep * 7⟩ (rep + 1) (List.replicate packetBaseSize 0) = answer
    at hrequest ⊢
  obtain ⟨result, requestTime, buf⟩ := answer
  have hverdict := reply_verdict requestTime ⟨secs + 1, 0⟩ secs si lvm
  dsimp only at hrequest hverdict ⊢
  -- the checksum of the request touches neither count
  generalize hsummed : (match result with
    | .ok () =>
      { totals with
        checksum :=
          totals.checksum + requestTime.seconds.toUInt64 + requestTime.fractions.toUInt64 }
    | .error _ => totals : Totals) = summed
  obtain ⟨hok, hrefused⟩ : summed.ok = totals.ok ∧ summed.refused = totals.refused := by
    rw [← hsummed]
    cases result with
    | error e => exact ⟨rfl, rfl⟩
    | ok _ => exact ⟨rfl, rfl⟩
  by_cases htaken : Taken rep secs lvm
  · obtain ⟨v, hv⟩ := hverdict.mpr ⟨hrequest.mpr htaken.1, htaken.2⟩
    rw [hv, if_pos htaken, if_pos htaken]
    exact ⟨congrArg (· + 1) hok, hrefused.trans (UInt64.add_zero _).symm⟩
  · rw [if_neg htaken, if_neg htaken]
    cases hv : deserializeResponse requestTime ⟨secs + 1, 0⟩ (reply requestTime secs si lvm) with
    | error e => exact ⟨hok.trans (UInt64.add_zero _).symm, congrArg (· + 1) hrefused⟩
    | ok v =>
      have hof := hverdict.mp ⟨v, hv⟩
      exact absurd ⟨hrequest.mp hof.1, hof.2⟩ htaken

/-- A repetition has 24 replies taken and 24 refused; the first has four fewer taken. -/
theorem repetition_adds (rep : UInt32) (totals : Totals) :
    Adds totals (repetition rep totals) (if rep * 7 = 0 then 20 else 24)
      (if rep * 7 = 0 then 28 else 24) := by
  have hadds := Adds.foldl seconds.zipIdx (fun totals (s : UInt32 × ℕ) =>
    Adds.foldl lvms.zipIdx (fun totals (l : UInt8 × ℕ) =>
      judge_adds rep s.1 s.2 l.1 l.2 totals) totals) totals
  by_cases hzero : rep * 7 = 0
  · rw [if_pos hzero, if_pos hzero]
    simp only [Taken, hzero] at hadds
    exact hadds
  · rw [if_neg hzero, if_neg hzero]
    simp only [Taken, hzero] at hadds
    exact hadds

/-- Seven is odd. -/
theorem mul_seven_eq_zero {rep : UInt32} : rep * 7 = 0 ↔ rep = 0 := by
  rw [← UInt32.toNat_inj, ← UInt32.toNat_inj, UInt32.toNat_mul]
  show rep.toNat * 7 % 2 ^ 32 = 0 ↔ rep.toNat = 0
  have hcoprime : Nat.Coprime (2 ^ 32) 7 := by decide
  refine ⟨fun h => ?_, fun h => by rw [h]⟩
  exact Nat.eq_zero_of_dvd_of_lt (hcoprime.dvd_of_dvd_mul_right (Nat.dvd_of_mod_eq_zero h))
    rep.toNat_lt

/-- The first repetitions, up to `n` of them. -/
theorem corpus_adds (n : ℕ) (hn : n < 2 ^ 32) (totals : Totals) :
    Adds totals
      ((List.range (n + 1)).foldl (fun totals rep => repetition (UInt32.ofNat rep) totals) totals)
      (20 + 24 * n) (28 + 24 * n) := by
  induction n with
  | zero =>
    have hfirst := repetition_adds (UInt32.ofNat 0) totals
    rw [if_pos (by decide), if_pos (by decide)] at hfirst
    rw [List.range_succ, List.range_zero, List.nil_append, List.foldl_cons, List.foldl_nil]
    exact hfirst
  | succ n ih =>
    have hlater : ¬ UInt32.ofNat (n + 1) * 7 = 0 := by
      rw [mul_seven_eq_zero, ← UInt32.toNat_inj, UInt32.toNat_ofNat_of_lt' hn]
      exact Nat.succ_ne_zero n
    have hlast := repetition_adds (UInt32.ofNat (n + 1))
      ((List.range (n + 1)).foldl (fun totals rep => repetition (UInt32.ofNat rep) totals) totals)
    rw [if_neg hlater, if_neg hlater] at hlast
    rw [List.range_succ, List.foldl_append, List.foldl_cons, List.foldl_nil, Nat.mul_succ,
      ← Nat.add_assoc, ← Nat.add_assoc]
    exact (ih (Nat.lt_of_succ_lt hn)).trans hlast

/-- **The verdicts of the benchmark**, for any number of repetitions: 24 of the 48 of
each are taken, but for the four that have no request. -/
theorem corpus_counts (reps : UInt32) (hreps : reps ≠ 0) :
    (corpus reps).ok.toNat + 4 = 24 * reps.toNat ∧
      (corpus reps).refused.toNat = 24 * reps.toNat + 4 := by
  have hlt := reps.toNat_lt
  have hne : reps.toNat ≠ 0 := fun h => hreps (UInt32.toNat_inj.mp h)
  obtain ⟨n, hn⟩ := Nat.exists_eq_succ_of_ne_zero hne
  have hadds := corpus_adds n (by omega) ⟨0, 0, 0⟩
  rw [← Nat.succ_eq_add_one, ← hn] at hadds
  have hok : (corpus reps).ok = UInt64.ofNat (20 + 24 * n) := hadds.ok.trans (UInt64.zero_add _)
  have hrefused : (corpus reps).refused = UInt64.ofNat (28 + 24 * n) :=
    hadds.refused.trans (UInt64.zero_add _)
  rw [hok, hrefused, UInt64.toNat_ofNat_of_lt' (by unfold UInt64.size; omega),
    UInt64.toNat_ofNat_of_lt' (by unfold UInt64.size; omega), hn]
  omega

/-- **What the benchmark prints**, for more than four repetitions: all the calls, and
per repetition 23 taken and 24 refused, which is one short of the 48 there are. -/
theorem main_report (reps : UInt32) (hreps : 4 < reps) :
    (main reps).calls.toNat = 48 * reps.toNat ∧ (main reps).ok = 23 ∧ (main reps).refused = 24 := by
  have hmany : 4 < reps.toNat := hreps
  have hlt := reps.toNat_lt
  obtain ⟨hok, hrefused⟩ := corpus_counts reps fun h => by
    rw [h] at hmany
    cases hmany
  refine ⟨?_, ?_, ?_⟩
  · show ((corpus reps).ok + (corpus reps).refused).toNat = 48 * reps.toNat
    rw [UInt64.toNat_add, Nat.mod_eq_of_lt (by omega)]
    omega
  · apply UInt64.toNat_inj.mp
    show ((corpus reps).ok / reps.toUInt64).toNat = 23
    rw [UInt64.toNat_div, UInt32.toNat_toUInt64]
    exact Nat.div_eq_of_lt_le (by omega) (by omega)
  · apply UInt64.toNat_inj.mp
    show ((corpus reps).refused / reps.toUInt64).toNat = 24
    rw [UInt64.toNat_div, UInt32.toNat_toUInt64]
    exact Nat.div_eq_of_lt_le (by omega) (by omega)

/-- As many repetitions as the program makes. -/
theorem main_report_of_400 : (main 400).calls.toNat = 19200 ∧ (main 400).ok = 23 := by
  obtain ⟨hcalls, hok, _⟩ := main_report 400 (by decide)
  exact ⟨hcalls, hok⟩

end Bench

end Sntp
