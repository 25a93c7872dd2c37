import Mathlib.Algebra.Group.Int.Defs
import Mathlib.Data.Int.Basic

/-!
# Saturating 64-bit arithmetic

The `saturating_*` operations of a signed 64-bit integer: the exact result,
clamped to the type. `Fits` says a result needs no clamping, and each operation
has one lemma: where the exact result fits, it is the answer.

The `checked_*` operations do the same and fail where they would have to clamp.
A computation that does not saturate is one that succeeds with them, and comes to
the same (`checked_add` and its siblings).
-/

namespace Saturating

/-- `saturating_add`. -/
def add (a b : Int64) : Int64 := Int64.ofIntClamp (a.toInt + b.toInt)

/-- `saturating_sub`. -/
def sub (a b : Int64) : Int64 := Int64.ofIntClamp (a.toInt - b.toInt)

/-- `saturating_mul`. -/
def mul (a b : Int64) : Int64 := Int64.ofIntClamp (a.toInt * b.toInt)

/-- `saturating_abs`: of the least value, the greatest. -/
def abs (a : Int64) : Int64 := Int64.ofIntClamp a.toInt.natAbs

/-- `x` is a value of the type: computing it saturates nothing. -/
def Fits (x : Int) : Prop := -2 ^ 63 ≤ x ∧ x < 2 ^ 63

instance (x : Int) : Decidable (Fits x) := inferInstanceAs (Decidable (_ ∧ _))

theorem toInt_ofIntClamp {x : Int} (h : Fits x) : (Int64.ofIntClamp x).toInt = x := by
  obtain ⟨hlo, hhi⟩ := h
  have hlo' : Int64.minValue.toInt ≤ x := hlo
  have hhi' : x ≤ Int64.maxValue.toInt := Int.le_of_lt_add_one hhi
  rw [Int64.ofIntClamp, dif_pos hlo', dif_pos hhi', Int64.toInt_ofIntLE]

theorem toInt_add {a b : Int64} (h : Fits (a.toInt + b.toInt)) :
    (add a b).toInt = a.toInt + b.toInt :=
  toInt_ofIntClamp h

theorem toInt_sub {a b : Int64} (h : Fits (a.toInt - b.toInt)) :
    (sub a b).toInt = a.toInt - b.toInt :=
  toInt_ofIntClamp h

theorem toInt_mul {a b : Int64} (h : Fits (a.toInt * b.toInt)) :
    (mul a b).toInt = a.toInt * b.toInt :=
  toInt_ofIntClamp h

theorem toInt_abs {a : Int64} (h : Fits a.toInt.natAbs) : (abs a).toInt = a.toInt.natAbs :=
  toInt_ofIntClamp h

/-! ## Checked operations -/

/-- The value `x`, if it is one of the type. -/
def checked (x : Int) : Option Int64 := if Fits x then some (Int64.ofIntClamp x) else none

/-- `checked_add`: the exact sum, or nothing. -/
def checkedAdd (a b : Int64) : Option Int64 := checked (a.toInt + b.toInt)

/-- `checked_sub`: the exact difference, or nothing. -/
def checkedSub (a b : Int64) : Option Int64 := checked (a.toInt - b.toInt)

/-- `checked_mul`: the exact product, or nothing. -/
def checkedMul (a b : Int64) : Option Int64 := checked (a.toInt * b.toInt)

/-- `checked_abs`: the absolute value, or nothing for the least value. -/
def checkedAbs (a : Int64) : Option Int64 := checked a.toInt.natAbs

theorem checked_add {a b : Int64} (h : Fits (a.toInt + b.toInt)) :
    checkedAdd a b = some (add a b) :=
  if_pos h

theorem checked_sub {a b : Int64} (h : Fits (a.toInt - b.toInt)) :
    checkedSub a b = some (sub a b) :=
  if_pos h

theorem checked_mul {a b : Int64} (h : Fits (a.toInt * b.toInt)) :
    checkedMul a b = some (mul a b) :=
  if_pos h

theorem checked_abs {a : Int64} (h : Fits a.toInt.natAbs) : checkedAbs a = some (abs a) := by
  rw [checkedAbs, checked, if_pos h, abs]

/-- A checked step that does not fail goes on with its value. -/
theorem bind_of_eq_some {β : Type} {x : Option Int64} {a : Int64} (h : x = some a)
    (f : Int64 → Option β) : (x >>= f) = f a := by
  rw [h]
  rfl

end Saturating
