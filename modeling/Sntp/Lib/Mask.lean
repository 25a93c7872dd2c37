import Mathlib.Data.Finset.Powerset
import Mathlib.Data.Finset.Prod
import Mathlib.Data.Nat.Bitwise

/-!
# What an OR lets through

`f ||| x` shows the bits of `x` where `f` has a zero and hides the others. So of the
`2 ^ n` masks of `n` bits, the ones that look alike after the OR are as many as there
are ways to fill the places it hides: `card_or_eq`. A value that ignores the lower
digits of its argument is taken equally often for each of them (`card_div`).
-/

namespace Mask

/-- The places below `n` where `f` has a one. -/
def ones (n f : ℕ) : Finset ℕ := (Finset.range n).filter fun i => f.testBit i = true

theorem mem_ones {n f i : ℕ} : i ∈ ones n f ↔ i < n ∧ f.testBit i = true := by
  rw [ones, Finset.mem_filter, Finset.mem_range]

/-- Two masks look alike when they agree on the zeros of `f`. -/
theorem or_eq_iff {f x y : ℕ} :
    f ||| x = f ||| y ↔ ∀ i, f.testBit i = false → x.testBit i = y.testBit i := by
  refine ⟨fun h i hf => ?_, fun h => Nat.eq_of_testBit_eq fun i => ?_⟩
  · have hbit := congrArg (Nat.testBit · i) h
    simp only [Nat.testBit_or, hf, Bool.false_or] at hbit
    exact hbit
  · rw [Nat.testBit_or, Nat.testBit_or]
    cases hf : f.testBit i with
    | true => rw [Bool.true_or, Bool.true_or]
    | false => rw [h i hf]

/-- A number below `2 ^ n` has no ones from `n` on. -/
theorem testBit_eq_false {n x i : ℕ} (hx : x < 2 ^ n) (hi : ¬ i < n) : x.testBit i = false :=
  Nat.testBit_lt_two_pow (hx.trans_le (Nat.pow_le_pow_right Nat.two_pos (Nat.not_lt.mp hi)))

/-- The mask that has `s` in the places `f` hides and is `x₀` in the others. -/
def fill (n f x₀ : ℕ) (s : Finset ℕ) : ℕ :=
  Nat.ofBits fun i : Fin n => if f.testBit i then decide (i.val ∈ s) else x₀.testBit i

section Fill

variable {n f x₀ i : ℕ} {s : Finset ℕ}

theorem fill_lt : fill n f x₀ s < 2 ^ n := Nat.ofBits_lt_two_pow _

theorem testBit_fill (hi : i < n) :
    (fill n f x₀ s).testBit i = if f.testBit i then decide (i ∈ s) else x₀.testBit i :=
  Nat.testBit_ofBits_lt _ i hi

theorem or_fill (hx₀ : x₀ < 2 ^ n) : f ||| fill n f x₀ s = f ||| x₀ := by
  apply or_eq_iff.mpr
  intro i hf
  by_cases hi : i < n
  · rw [testBit_fill hi, hf, if_neg Bool.false_ne_true]
  · rw [testBit_eq_false fill_lt hi, testBit_eq_false hx₀ hi]

/-- What is in the places hidden is `s`. -/
theorem hidden_fill (hs : s ⊆ ones n f) :
    ((ones n f).filter fun i => (fill n f x₀ s).testBit i = true) = s := by
  ext i
  rw [Finset.mem_filter]
  constructor
  · intro ⟨hmem, hbit⟩
    obtain ⟨hi, hf⟩ := mem_ones.mp hmem
    rw [testBit_fill hi, if_pos hf] at hbit
    exact of_decide_eq_true hbit
  · intro his
    obtain ⟨hi, hf⟩ := mem_ones.mp (hs his)
    refine ⟨hs his, ?_⟩
    rw [testBit_fill hi, if_pos hf]
    exact decide_eq_true his

end Fill

/-- **The masks that look like a given one** are told apart by what they have in the
places hidden, and have anything there. -/
theorem card_or_eq {n f x₀ : ℕ} (hx₀ : x₀ < 2 ^ n) :
    ((Finset.range (2 ^ n)).filter fun x => f ||| x = f ||| x₀).card = 2 ^ (ones n f).card := by
  rw [← Finset.card_powerset]
  apply Finset.card_bij fun x _ => (ones n f).filter fun i => x.testBit i = true
  · intro x _
    exact Finset.mem_powerset.mpr (Finset.filter_subset _ _)
  · intro x hx y hy hxy
    obtain ⟨hxlt, hxf⟩ := Finset.mem_filter.mp hx
    obtain ⟨hylt, hyf⟩ := Finset.mem_filter.mp hy
    have hshown := or_eq_iff.mp (hxf.trans hyf.symm)
    apply Nat.eq_of_testBit_eq
    intro i
    by_cases hi : i < n
    · cases hf : f.testBit i with
      | false => exact hshown i hf
      | true =>
        have hmem := congrArg (i ∈ ·) hxy
        simp only [Finset.mem_filter, mem_ones, hi, hf, true_and, eq_iff_iff] at hmem
        exact Bool.eq_iff_iff.mpr hmem
    · rw [testBit_eq_false (Finset.mem_range.mp hxlt) hi,
        testBit_eq_false (Finset.mem_range.mp hylt) hi]
  · intro s hs
    exact ⟨fill n f x₀ s, Finset.mem_filter.mpr ⟨Finset.mem_range.mpr fill_lt, or_fill hx₀⟩,
      hidden_fill (Finset.mem_powerset.mp hs)⟩

/-- So many masks at most look like any given word. -/
theorem card_or_eq_le (n f y : ℕ) :
    ((Finset.range (2 ^ n)).filter fun x => f ||| x = y).card ≤ 2 ^ (ones n f).card := by
  rcases ((Finset.range (2 ^ n)).filter fun x => f ||| x = y).eq_empty_or_nonempty
    with hnone | hsome
  · rw [hnone, Finset.card_empty]
    exact Nat.zero_le _
  · obtain ⟨x₀, hx₀⟩ := hsome
    obtain ⟨hlt, rfl⟩ := Finset.mem_filter.mp hx₀
    exact (card_or_eq (Finset.mem_range.mp hlt)).le

/-- A property of the upper digits holds of each of the `b` numbers that have them. -/
theorem card_div (a : ℕ) {b : ℕ} (hb : 0 < b) (P : ℕ → Prop) [DecidablePred P] :
    ((Finset.range (a * b)).filter fun r => P (r / b)).card
      = ((Finset.range a).filter P).card * b := by
  have hpairs : (((Finset.range a).filter P) ×ˢ Finset.range b).card
      = ((Finset.range a).filter P).card * b := by
    rw [Finset.card_product, Finset.card_range]
  rw [← hpairs]
  apply Finset.card_bij fun r _ => (r / b, r % b)
  · intro r hr
    obtain ⟨hlt, hP⟩ := Finset.mem_filter.mp hr
    rw [Finset.mem_product, Finset.mem_filter, Finset.mem_range, Finset.mem_range]
    exact ⟨⟨Nat.div_lt_of_lt_mul (Nat.mul_comm a b ▸ Finset.mem_range.mp hlt), hP⟩,
      Nat.mod_lt r hb⟩
  · intro r _ r' _ heq
    obtain ⟨hdiv, hmod⟩ := Prod.mk.inj heq
    rw [← Nat.div_add_mod r b, hdiv, hmod, Nat.div_add_mod]
  · intro ⟨x, low⟩ hx
    rw [Finset.mem_product, Finset.mem_filter, Finset.mem_range, Finset.mem_range] at hx
    obtain ⟨⟨hxa, hP⟩, hlow⟩ := hx
    have hdiv : (x * b + low) / b = x := by
      rw [Nat.mul_comm, Nat.mul_add_div hb, Nat.div_eq_of_lt hlow, Nat.add_zero]
    have hmod : (x * b + low) % b = low := by
      rw [Nat.mul_comm, Nat.mul_add_mod, Nat.mod_eq_of_lt hlow]
    refine ⟨x * b + low, Finset.mem_filter.mpr ⟨Finset.mem_range.mpr ?_, hdiv.symm ▸ hP⟩,
      Prod.ext hdiv hmod⟩
    calc x * b + low < x * b + b := Nat.add_lt_add_left hlow _
      _ = (x + 1) * b := (Nat.succ_mul x b).symm
      _ ≤ a * b := Nat.mul_le_mul_right b hxa

end Mask
