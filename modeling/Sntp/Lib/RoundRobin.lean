import Mathlib.Data.List.Rotate
import Sntp.Lib.Run

/-!
# Round robin

A pointer into a ring of `n` places. Some steps of a system turn it, to the next
place, and the others leave it alone: `place_of_run` counts the turns of a run. A
whole round of turns brings the pointer back (`place_length`), and visits the
entries of a list in the order of the list, rotated to where the pointer stood
(`visits_round`). A search that turns the pointer after every miss finds what stands
at a place within the distance to it (`hits_of_run`).
-/

namespace RoundRobin

open Transition

/-- The place `k` turns after `i`, of `n`. -/
def place (n i k : ℕ) : ℕ := (i + k) % n

theorem place_zero {n i : ℕ} (hi : i < n) : place n i 0 = i := Nat.mod_eq_of_lt hi

theorem place_place (n i j k : ℕ) : place n (place n i j) k = place n i (j + k) := by
  rw [place, place, place, Nat.mod_add_mod, Nat.add_assoc]

/-- A whole round ends where it started. -/
theorem place_length {n i : ℕ} (hi : i < n) : place n i n = i := by
  rw [place, Nat.add_mod_right, Nat.mod_eq_of_lt hi]

/-- Only whole rounds bring the pointer back. -/
theorem place_eq_iff {n i k : ℕ} (hi : i < n) : place n i k = i ↔ n ∣ k := by
  rw [place]
  constructor
  · intro h
    have hrest := Nat.sub_mod_eq_zero_of_mod_eq (h.trans (Nat.mod_eq_of_lt hi).symm)
    rw [Nat.add_sub_cancel_left] at hrest
    exact Nat.dvd_of_mod_eq_zero hrest
  · rintro ⟨rounds, rfl⟩
    rw [Nat.add_mul_mod_self_left, Nat.mod_eq_of_lt hi]

/-- The entries of `l` at the next `k` places from `i` on. -/
def visits {α : Type*} (l : List α) (i k : ℕ) : List (Option α) :=
  (List.range k).map fun j => l[place l.length i j]?

theorem visits_succ {α : Type*} {l : List α} {i : ℕ} (hi : i < l.length) (k : ℕ) :
    visits l i (k + 1) = l[i]? :: visits l (place l.length i 1) k := by
  rw [visits, List.range_succ_eq_map, List.map_cons, place_zero hi, List.map_map, visits]
  congr 1
  apply List.map_congr_left
  intro j _
  rw [place_place, Nat.add_comm 1 j]
  rfl

/-- **A whole round visits every entry**, in the order of the list rotated to the
place it started at. -/
theorem visits_round {α : Type*} (l : List α) (i : ℕ) :
    visits l i l.length = (l.rotate i).map some := by
  apply List.ext_getElem
  · rw [visits, List.length_map, List.length_map, List.length_range, List.length_rotate]
  · intro j h _
    rw [visits, List.length_map, List.length_range] at h
    simp only [visits, List.getElem_map, List.getElem_range, List.getElem_rotate]
    rw [place, Nat.add_comm i j, List.getElem?_eq_getElem]

/-- The place of a pointer after a run is the number of turns on from where it
stood. -/
theorem place_of_run {σ ι : Type*} {step : σ → ι → σ → Prop} {turns : ι → Bool}
    {pointer : σ → ℕ} {n : ℕ}
    (hstep : ∀ {s l t}, step s l t →
      pointer t = if turns l then place n (pointer s) 1 else pointer s)
    {s t : σ} {ls : List ι} (h : Run step s ls t) (hs : pointer s < n) :
    pointer t = place n (pointer s) (ls.countP turns) := by
  induction h with
  | nil s => exact (place_zero hs).symm
  | @cons s t u l ls hl _ ih =>
    have ht := hstep hl
    cases hturn : turns l with
    | true =>
      rw [hturn, if_pos rfl] at ht
      rw [ih (ht ▸ Nat.mod_lt _ (Nat.zero_lt_of_lt hs)), ht, place_place,
        List.countP_cons_of_pos hturn, Nat.add_comm]
    | false =>
      rw [hturn, if_neg Bool.false_ne_true] at ht
      rw [ih (ht ▸ hs), ht, List.countP_cons_of_neg (Bool.eq_false_iff.mp hturn)]

/-! ## Looking for a place -/

/-- How many turns it is from place `i` to place `g`. -/
def distance (n i g : ℕ) : ℕ := (g + (n - i)) % n

theorem distance_lt {n : ℕ} (i g : ℕ) (hn : 0 < n) : distance n i g < n := Nat.mod_lt _ hn

/-- A turn away from a place brings it nearer. -/
theorem distance_place {n i g : ℕ} (hi : i < n) (hg : g < n) (hne : i ≠ g) :
    distance n (place n i 1) g + 1 = distance n i g := by
  unfold distance place
  by_cases hlast : i + 1 = n
  · rw [hlast, Nat.mod_self, Nat.sub_zero, Nat.add_mod_right, Nat.mod_eq_of_lt hg,
      Nat.mod_eq_of_lt (by omega)]
    omega
  · rw [Nat.mod_eq_of_lt (show i + 1 < n by omega)]
    by_cases hle : i ≤ g
    · rw [show g + (n - (i + 1)) = n + (g - (i + 1)) by omega,
        show g + (n - i) = n + (g - i) by omega, Nat.add_mod_left, Nat.add_mod_left,
        Nat.mod_eq_of_lt (by omega), Nat.mod_eq_of_lt (by omega)]
      omega
    · rw [Nat.mod_eq_of_lt (by omega), Nat.mod_eq_of_lt (by omega)]
      omega

/-- **A search that turns after every miss, and does not miss at `g`, hits** by
the time the pointer is at `g`. -/
theorem hits_of_run {σ ι : Type*} {step : σ → ι → σ → Prop} (hit : ι → Prop) (pointer : σ → ℕ)
    {n g : ℕ} (hg : g < n)
    (hstep : ∀ {s l t}, step s l t →
      hit l ∨ pointer s ≠ g ∧ pointer t = place n (pointer s) 1)
    {s t : σ} {ls : List ι} (h : Run step s ls t) (hs : pointer s < n)
    (hlen : distance n (pointer s) g < ls.length) :
    ∃ k ≤ distance n (pointer s) g, ∃ l, ls[k]? = some l ∧ hit l := by
  induction h with
  | nil s => cases hlen
  | @cons s t u l ls hl _ ih =>
    rcases hstep hl with hhit | ⟨hne, ht⟩
    · exact ⟨0, Nat.zero_le _, l, rfl, hhit⟩
    · have hnearer := distance_place hs hg hne
      rw [← ht] at hnearer
      rw [List.length_cons] at hlen
      obtain ⟨k, hk, found, hfound, hhit⟩ :=
        ih (ht ▸ Nat.mod_lt _ (Nat.zero_lt_of_lt hs)) (by omega)
      exact ⟨k + 1, by omega, found, hfound, hhit⟩

end RoundRobin
