import Mathlib.Order.Monotone.Basic

/-!
# Ranges that tile the numbers below a bound

A range is given by its first number and its last. `Tiles` says that the ranges are in order, that none is empty, and
that every number below the bound lies in one of them and in no other. The ranges between increasing cuts tile
(`tiles_of_cuts`), and so do those of one width of which the last is cut off at the bound (`tiles_of_width`).
-/

namespace Lib

structure Tiles (total n : Nat) (start stop : Nat → Nat) : Prop where
  start_le_stop : ∀ i < n, start i ≤ stop i
  stop_lt : ∀ i < n, stop i < total
  /-- In order, so that no two have a number in common. -/
  stop_lt_start : ∀ i j, i < j → j < n → stop i < start j
  covered : ∀ b < total, ∃! i, i < n ∧ start i ≤ b ∧ b ≤ stop i

variable {total n : Nat} {start stop cut : Nat → Nat}

theorem cut_le_cut (h : ∀ i < n, cut i ≤ cut (i + 1)) {i j : Nat} (hij : i ≤ j) (hj : j ≤ n) : cut i ≤ cut j := by
  induction hij with
  | refl => exact le_rfl
  | @step j hij ih => exact (ih (by omega)).trans (h j hj)

/-- What lies between the first cut and the last lies between two cuts that follow each other. -/
theorem exists_between_cuts {b : Nat} (hfirst : cut 0 ≤ b) (hlast : b < cut n) :
    ∃ i < n, cut i ≤ b ∧ b < cut (i + 1) := by
  induction n with
  | zero => omega
  | succ n ih =>
    by_cases h : b < cut n
    · obtain ⟨i, hi, hcut⟩ := ih h
      exact ⟨i, by omega, hcut⟩
    · exact ⟨n, by omega, by omega, hlast⟩

theorem tiles_of_cuts (cut : Nat → Nat) (hfirst : cut 0 = 0) (hcut : ∀ i < n, cut i < cut (i + 1))
    (hlast : cut n = total) (hstart : ∀ i < n, start i = cut i)
    (hstop : ∀ i < n, stop i + 1 = cut (i + 1)) : Tiles total n start stop := by
  have hle {i j : Nat} := cut_le_cut (i := i) (j := j) fun i hi => (hcut i hi).le
  have hordered : ∀ i j, i < j → j < n → stop i < start j := by
    intro i j hij hj
    have hnext : cut (i + 1) ≤ cut j := hle hij hj.le
    have hi := hstop i (by omega)
    rw [hstart j hj]
    omega
  refine ⟨fun i hi => ?_, fun i hi => ?_, hordered, fun b hb => ?_⟩
  · have hlt := hcut i hi
    have hi' := hstop i hi
    rw [hstart i hi]
    omega
  · have hend : cut (i + 1) ≤ cut n := hle hi le_rfl
    have hi' := hstop i hi
    omega
  · obtain ⟨i, hi, hib, hbi⟩ := exists_between_cuts (show cut 0 ≤ b by omega) (show b < cut n by omega)
    have hi' := hstop i hi
    refine ⟨i, ⟨hi, by rw [hstart i hi]; exact hib, by omega⟩, ?_⟩
    -- another range that has `b` comes before or after this one
    rintro j ⟨hj, hjb, hbj⟩
    rcases Nat.lt_trichotomy i j with hij | rfl | hij
    · have := hordered i j hij hj
      omega
    · rfl
    · have := hordered j i hij hi
      rw [hstart i hi] at this
      omega

theorem tiles_of_width {width : Nat} (hwidth : 0 < width) (hlast : (n - 1) * width < total) (hcover : total ≤ n * width)
    (hstart : ∀ i < n, start i = i * width) (hstop : ∀ i < n, stop i + 1 = min ((i + 1) * width) total) :
    Tiles total n start stop := by
  have hbefore : ∀ i < n, i * width < total := by
    intro i hi
    have hmul : i * width ≤ (n - 1) * width := Nat.mul_le_mul_right _ (by omega)
    omega
  refine tiles_of_cuts (fun i => min (i * width) total) (by simp) (fun i hi => ?_) (Nat.min_eq_right hcover)
    (fun i hi => ?_) hstop
  · have hi' := hbefore i hi
    rw [Nat.add_mul, Nat.one_mul]
    omega
  · rw [hstart i hi, Nat.min_eq_left (hbefore i hi).le]

end Lib
