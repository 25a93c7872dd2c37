import Mathlib.Data.List.Basic
import Mathlib.Data.UInt

/-!
# Windows into a byte buffer, and 32-bit big-endian words

A buffer is a list. `slice` reads a window out of it and fails where the window
is not inside; `splice` overwrites a window in place. `toBeBytes` and
`ofBeBytes` are the two directions of the big-endian word, and
`ofBeBytes_toBeBytes` / `toBeBytes_ofBeBytes` say they are inverse. Nothing
here knows a packet format.
-/

namespace Bytes

variable {α : Type*}

/-- The window `start .. stop` of a buffer, if the buffer has one. -/
def slice (buf : List α) (start stop : ℕ) : Option (List α) :=
  if start ≤ stop ∧ stop ≤ buf.length then some ((buf.take stop).drop start) else none

/-- The buffer with `new` written over it from `start` on. -/
def splice (buf : List α) (start : ℕ) (new : List α) : List α :=
  buf.take start ++ (new ++ buf.drop (start + new.length))

theorem slice_eq_some {buf : List α} {start stop : ℕ} (h₁ : start ≤ stop)
    (h₂ : stop ≤ buf.length) : slice buf start stop = some ((buf.take stop).drop start) :=
  if_pos ⟨h₁, h₂⟩

theorem slice_zero {buf : List α} {stop : ℕ} (h : stop ≤ buf.length) :
    slice buf 0 stop = some (buf.take stop) := by
  rw [slice_eq_some (Nat.zero_le _) h, List.drop_zero]

theorem slice_length {buf w : List α} {start stop : ℕ} (h : slice buf start stop = some w) :
    w.length = stop - start := by
  unfold slice at h
  split at h
  next hb =>
    rw [← Option.some.inj h, List.length_drop, List.length_take]
    omega
  next => cases h

/-- What stands in the middle of a buffer is its window there. -/
theorem slice_append (pre w post : List α) :
    slice (pre ++ (w ++ post)) pre.length (pre.length + w.length) = some w := by
  rw [slice_eq_some (by omega) (by simp), List.take_append, List.take_of_length_le (by omega)]
  simp

/-- Two buffers that agree on a window agree on every window inside it. -/
theorem slice_sub {b₁ b₂ w : List α} {s₁ t₁ s₂ t₂ i j : ℕ} (h₁ : slice b₁ s₁ t₁ = some w)
    (h₂ : slice b₂ s₂ t₂ = some w) (hij : i ≤ j) (hj : j ≤ w.length) :
    slice b₁ (s₁ + i) (s₁ + j) = slice b₂ (s₂ + i) (s₂ + j) := by
  have sub : ∀ {b : List α} {s t : ℕ}, slice b s t = some w →
      slice b (s + i) (s + j) = some ((w.take j).drop i) := by
    intro b s t h
    have hlen := slice_length h
    unfold slice at h
    split at h
    next hb =>
      rw [slice_eq_some (by omega) (by omega), ← Option.some.inj h, List.take_drop, List.drop_drop,
        List.take_take, Nat.min_eq_left (by omega)]
    next => cases h
  rw [sub h₁, sub h₂]

/-- Two windows side by side are one. -/
theorem slice_join {buf u v : List α} {start mid stop : ℕ} (hu : slice buf start mid = some u)
    (hv : slice buf mid stop = some v) : slice buf start stop = some (u ++ v) := by
  unfold slice at hu hv
  split at hu
  next h₁ =>
    split at hv
    next h₂ =>
      have hsplit := List.take_append_drop (mid - start) ((buf.take stop).drop start)
      have hleft : ((buf.take stop).drop start).take (mid - start) = u := by
        rw [← Option.some.inj hu, List.take_drop, List.take_take]
        congr 2
        omega
      have hright : ((buf.take stop).drop start).drop (mid - start) = v := by
        rw [← Option.some.inj hv, List.drop_drop]
        congr 1
        omega
      rw [slice_eq_some (by omega) (by omega), ← hsplit, hleft, hright]
    next => cases hv
  next => cases hu

/-- A window is what stands in it: buffers that agree there have the same one. -/
theorem slice_congr {b₁ b₂ : List α} {start stop : ℕ} (h₁ : stop ≤ b₁.length)
    (h₂ : stop ≤ b₂.length) (hagree : ∀ i, start ≤ i → i < stop → b₁[i]? = b₂[i]?) :
    slice b₁ start stop = slice b₂ start stop := by
  by_cases hle : start ≤ stop
  · rw [slice_eq_some hle h₁, slice_eq_some hle h₂]
    congr 1
    apply List.ext_getElem?
    intro i
    rw [List.getElem?_drop, List.getElem?_drop]
    by_cases hi : start + i < stop
    · rw [List.getElem?_take_of_lt hi, List.getElem?_take_of_lt hi, hagree _ (by omega) hi]
    · rw [List.getElem?_eq_none (by rw [List.length_take]; omega),
        List.getElem?_eq_none (by rw [List.length_take]; omega)]
  · rw [slice, slice, if_neg (fun h => hle h.1), if_neg (fun h => hle h.1)]

@[simp] theorem splice_length {buf new : List α} {start : ℕ}
    (h : start + new.length ≤ buf.length) : (splice buf start new).length = buf.length := by
  simp only [splice, List.length_append, List.length_take, List.length_drop]
  omega

/-- Writing at the front replaces the front and keeps the rest. -/
theorem splice_zero {buf new : List α} : splice buf 0 new = new ++ buf.drop new.length := by
  rw [splice, List.take_zero, List.nil_append, Nat.zero_add]

/-- A window is overwritten entry by entry. -/
theorem splice_cons {buf new : List α} {start : ℕ} {x : α} (h : start < buf.length) :
    splice buf start (x :: new) = splice (buf.set start x) (start + 1) new := by
  have hfront : (buf.set start x).take (start + 1) = buf.take start ++ [x] := by
    rw [List.take_succ_eq_append_getElem (by rwa [List.length_set]), List.getElem_set_self,
      List.take_set_of_le le_rfl]
  have hback : (buf.set start x).drop (start + 1 + new.length)
      = buf.drop (start + (x :: new).length) := by
    rw [List.drop_set_of_lt (by omega), List.length_cons]
    congr 1
    omega
  rw [splice, splice, hfront, hback, List.append_assoc]
  rfl

/-! ## Big-endian words -/

/-- The four bytes of a word, most significant first. -/
def toBeBytes (x : UInt32) : List UInt8 :=
  [UInt8.ofNat (x.toNat / 2 ^ 24), UInt8.ofNat (x.toNat / 2 ^ 16), UInt8.ofNat (x.toNat / 2 ^ 8),
    UInt8.ofNat x.toNat]

/-- The word four bytes spell, most significant first. -/
def ofBeBytes (a b c d : UInt8) : UInt32 :=
  UInt32.ofNat (a.toNat * 2 ^ 24 + b.toNat * 2 ^ 16 + c.toNat * 2 ^ 8 + d.toNat)

theorem ofBeBytes_toBeBytes (x : UInt32) :
    ofBeBytes (UInt8.ofNat (x.toNat / 2 ^ 24)) (UInt8.ofNat (x.toNat / 2 ^ 16))
      (UInt8.ofNat (x.toNat / 2 ^ 8)) (UInt8.ofNat x.toNat) = x := by
  have hx := x.toNat_lt
  apply UInt32.toNat_inj.mp
  simp only [ofBeBytes, UInt32.toNat_ofNat', UInt8.toNat_ofNat']
  omega

theorem toBeBytes_ofBeBytes (a b c d : UInt8) : toBeBytes (ofBeBytes a b c d) = [a, b, c, d] := by
  have ha := a.toNat_lt
  have hb := b.toNat_lt
  have hc := c.toNat_lt
  have hd := d.toNat_lt
  simp only [toBeBytes, ofBeBytes, UInt32.toNat_ofNat', List.cons.injEq, and_true]
  refine ⟨?_, ?_, ?_, ?_⟩ <;> apply UInt8.toNat_inj.mp <;> rw [UInt8.toNat_ofNat'] <;> omega

end Bytes
