import Mathlib.Data.Int.Basic
import Mathlib.Data.Nat.Log
import Mathlib.Data.UInt

/-!
# Saturating and checked unsigned arithmetic

A word of `w` bits stands for a natural number below `2 ^ w`. Its `saturating_*`
operations clamp the exact result to the type and its `checked_*` operations
fail where they would have to; both are stated once, for the exact result as an
integer, so that for a result in range they agree with each other and with it
(`toNat_saturating`, `checked_of_eq`).

The leading zeros of a nonzero word are the logarithm of its value, counted
from the other end (`log_add_leadingZeros`).
-/

namespace MachineNat

/-- Words of `w` bits. -/
class Word (α : Type) (w : outParam ℕ) where
  toNat : α → ℕ
  ofNat : ℕ → α
  toNat_ofNat (n : ℕ) : toNat (ofNat n) = n % 2 ^ w
  ofNat_toNat (a : α) : ofNat (toNat a) = a

instance : Word UInt32 32 where
  toNat := UInt32.toNat
  ofNat := UInt32.ofNat
  toNat_ofNat _ := UInt32.toNat_ofNat'
  ofNat_toNat _ := UInt32.ofNat_toNat

instance : Word UInt64 64 where
  toNat := UInt64.toNat
  ofNat := UInt64.ofNat
  toNat_ofNat _ := UInt64.toNat_ofNat'
  ofNat_toNat _ := UInt64.ofNat_toNat

section Words

variable {α : Type} {w : ℕ} [Word α w]

/-- The value `x`, clamped to the type. -/
def saturating (x : ℤ) : α := Word.ofNat (min x.toNat (2 ^ w - 1))

/-- The value `x`, if it is one of the type. -/
def checked (x : ℤ) : Option α :=
  if 0 ≤ x ∧ x < 2 ^ w then some (Word.ofNat x.toNat) else none

/-- `saturating_mul`. -/
def saturatingMul (a b : α) : α := saturating (Word.toNat a * Word.toNat b)

/-- `saturating_sub`, down to zero. -/
def saturatingSub (a b : α) : α := saturating (Word.toNat a - Word.toNat b)

/-- `checked_add`: the exact sum, or nothing. -/
def checkedAdd (a b : α) : Option α := checked (Word.toNat a + Word.toNat b)

/-- `checked_sub`: nothing below zero. -/
def checkedSub (a b : α) : Option α := checked (Word.toNat a - Word.toNat b)

/-- `checked_mul`: the exact product, or nothing. -/
def checkedMul (a b : α) : Option α := checked (Word.toNat a * Word.toNat b)

/-- A division fails on a zero divisor and nowhere else. -/
def checkedDiv (a b : α) : Option α :=
  if Word.toNat b = 0 then none else some (Word.ofNat (Word.toNat a / Word.toNat b))

/-- A value of the type is kept. -/
theorem toNat_ofNat_of_lt {n : ℕ} (h : n < 2 ^ w) : Word.toNat (Word.ofNat n : α) = n := by
  rw [Word.toNat_ofNat, Nat.mod_eq_of_lt h]

theorem toNat_lt (a : α) : Word.toNat a < 2 ^ w := by
  rw [← Word.ofNat_toNat a, Word.toNat_ofNat]
  exact Nat.mod_lt _ (Nat.two_pow_pos w)

/-- In range, nothing is clamped. -/
theorem toNat_saturating {n : ℕ} {x : ℤ} (hx : x = n) (h : n < 2 ^ w) :
    Word.toNat (saturating x : α) = n := by
  have hmin : min x.toNat (2 ^ w - 1) = n := by omega
  rw [saturating, hmin, toNat_ofNat_of_lt h]

/-- The value of a word is one of the type. -/
theorem checked_of_eq {x : ℤ} {a : α} (h : x = Word.toNat a) : checked x = some a := by
  have hlt : x < 2 ^ w := by
    rw [h]
    exact_mod_cast toNat_lt a
  rw [checked, if_pos ⟨by omega, hlt⟩, h, Int.toNat_natCast, Word.ofNat_toNat]

/-- A value below zero is not. -/
theorem checked_of_neg {x : ℤ} (h : x < 0) : (checked x : Option α) = none :=
  if_neg (by omega)

/-- A product in range, saturating or checked. -/
theorem exists_mul (a b : α) (h : Word.toNat a * Word.toNat b < 2 ^ w) :
    ∃ c, saturatingMul a b = c ∧ checkedMul a b = some c ∧
      Word.toNat c = Word.toNat a * Word.toNat b := by
  have hvalue : Word.toNat (saturatingMul a b) = Word.toNat a * Word.toNat b :=
    toNat_saturating (Int.natCast_mul _ _).symm h
  exact ⟨_, rfl, checked_of_eq (by rw [hvalue, Int.natCast_mul]), hvalue⟩

/-- A difference in range, saturating or checked. -/
theorem exists_sub (a b : α) (h : Word.toNat b ≤ Word.toNat a) :
    ∃ c, saturatingSub a b = c ∧ checkedSub a b = some c ∧
      Word.toNat c = Word.toNat a - Word.toNat b := by
  have hvalue : Word.toNat (saturatingSub a b) = Word.toNat a - Word.toNat b :=
    toNat_saturating (Int.ofNat_sub h).symm ((Nat.sub_le _ _).trans_lt (toNat_lt a))
  exact ⟨_, rfl, checked_of_eq (by rw [hvalue, Int.ofNat_sub h]), hvalue⟩

/-- A quotient is always one of the type. -/
theorem exists_div (a b : α) (h : 0 < Word.toNat b) :
    ∃ c, checkedDiv a b = some c ∧ Word.toNat c = Word.toNat a / Word.toNat b := by
  have hlt := (Nat.div_le_self (Word.toNat a) (Word.toNat b)).trans_lt (toNat_lt a)
  exact ⟨_, if_neg (by omega), toNat_ofNat_of_lt hlt⟩

end Words

/-! ## The wrapping operations, where they do not wrap -/

theorem checkedSub_uint32 {a b : UInt32} (h : b ≤ a) : checkedSub a b = some (a - b) := by
  have hle : b.toNat ≤ a.toNat := UInt32.le_iff_toNat_le.mp h
  refine checked_of_eq ?_
  show (a.toNat : ℤ) - b.toNat = (a - b).toNat
  rw [UInt32.toNat_sub_of_le a b h, Int.ofNat_sub hle]

theorem checkedSub_uint64 {a b : UInt64} (h : b ≤ a) : checkedSub a b = some (a - b) := by
  have hle : b.toNat ≤ a.toNat := UInt64.le_iff_toNat_le.mp h
  refine checked_of_eq ?_
  show (a.toNat : ℤ) - b.toNat = (a - b).toNat
  rw [UInt64.toNat_sub_of_le a b h, Int.ofNat_sub hle]

theorem checkedAdd_uint64 {a b : UInt64} (h : a.toNat + b.toNat < 2 ^ 64) :
    checkedAdd a b = some (a + b) := by
  refine checked_of_eq ?_
  show (a.toNat : ℤ) + b.toNat = (a + b).toNat
  rw [UInt64.toNat_add, Nat.mod_eq_of_lt h, Int.natCast_add]

theorem checkedMul_uint64 {a b : UInt64} (h : a.toNat * b.toNat < 2 ^ 64) :
    checkedMul a b = some (a * b) := by
  refine checked_of_eq ?_
  show (a.toNat : ℤ) * b.toNat = (a * b).toNat
  rw [UInt64.toNat_mul, Nat.mod_eq_of_lt h, Int.natCast_mul]

/-! ## Bits -/

/-- A shift by the width of the type, or by more, fails. -/
def checkedShl (a n : UInt32) : Option UInt32 := if n < 32 then some (a <<< n) else none

/-- The zero bits above the highest set bit. -/
def leadingZeros (a : UInt32) : UInt32 := .ofBitVec a.toBitVec.clz

/-- The highest set bit of a bit vector is the logarithm of its value. -/
theorem log_add_clz {w : ℕ} {x : BitVec w} (hx : x ≠ 0#w) :
    Nat.log 2 x.toNat + x.clz.toNat + 1 = w := by
  have hclz : x.clz.toNat < w := by
    have h := BitVec.clz_lt_iff_ne_zero.mpr hx
    have hw := BitVec.toNat_ofNat w w
    rw [BitVec.lt_def] at h
    exact h.trans_le (hw.trans_le (Nat.mod_le _ _))
  have hle := BitVec.two_pow_sub_clz_le_toNat_of_ne_zero (by omega) hx
  have hlt : x.toNat < 2 ^ (w - 1 - x.clz.toNat + 1) := by
    have h := BitVec.toNat_lt_two_pow_sub_clz (x := x)
    rwa [show w - x.clz.toNat = w - 1 - x.clz.toNat + 1 by omega] at h
  rw [Nat.log_eq_of_pow_le_of_lt_pow hle hlt]
  omega

theorem log_add_leadingZeros {a : UInt32} (ha : a ≠ 0) :
    Nat.log 2 a.toNat + (leadingZeros a).toNat + 1 = 32 :=
  log_add_clz fun h => ha (UInt32.toBitVec_inj.mp h)

/-- A power of two that fits is one shifted bit. -/
theorem toNat_one_shiftLeft {n : UInt32} (h : n < 32) :
    ((1 : UInt32) <<< n).toNat = 2 ^ n.toNat := by
  have hn : n.toNat < 32 := UInt32.lt_iff_toNat_lt.mp h
  have hpow : 2 ^ n.toNat < 2 ^ 32 := Nat.pow_lt_pow_right (by decide) hn
  rw [UInt32.toNat_shiftLeft, Nat.mod_eq_of_lt hn, Nat.shiftLeft_eq,
    show (1 : UInt32).toNat = 1 from rfl, one_mul, Nat.mod_eq_of_lt hpow]

end MachineNat
