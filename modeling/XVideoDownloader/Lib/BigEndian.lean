import Mathlib.Algebra.GroupWithZero.Nat
import Mathlib.Data.List.Induction

/-!
# Numbers in network byte order

`ofBe` reads bytes as a number, the most significant byte first, and `toBe` writes a number in a given number of
bytes. What is written is read back up to what does not fit (`ofBe_toBe`), and what is read is written again
(`toBe_ofBe`).
-/

namespace Lib

def ofBe (bs : List UInt8) : Nat := bs.foldl (fun n b => 256 * n + b.toNat) 0

def toBe : Nat → Nat → List UInt8
  | 0, _ => []
  | width + 1, n => toBe width (n / 256) ++ [UInt8.ofNat n]

@[simp] theorem length_toBe (width n : Nat) : (toBe width n).length = width := by
  induction width generalizing n with
  | zero => rfl
  | succ width ih => simp [toBe, ih]

theorem ofBe_concat (bs : List UInt8) (b : UInt8) : ofBe (bs ++ [b]) = 256 * ofBe bs + b.toNat := by
  simp [ofBe]

theorem ofBe_toBe (width n : Nat) : ofBe (toBe width n) = n % 256 ^ width := by
  induction width generalizing n with
  | zero => simp [toBe, ofBe, Nat.mod_one]
  | succ width ih =>
    rw [toBe, ofBe_concat, ih, Nat.pow_succ, Nat.mul_comm _ 256, Nat.mod_mul, UInt8.toNat_ofNat']
    omega

theorem toBe_ofBe (bs : List UInt8) : toBe bs.length (ofBe bs) = bs := by
  induction bs using List.reverseRecOn with
  | nil => rfl
  | append_singleton bs b ih =>
    have hb : b.toNat < 256 := b.toNat_lt
    have hdiv : (256 * ofBe bs + b.toNat) / 256 = ofBe bs := by omega
    have hlast : UInt8.ofNat (256 * ofBe bs + b.toNat) = b := by
      refine UInt8.toNat_inj.1 ?_
      rw [UInt8.toNat_ofNat']
      omega
    rw [List.length_append, List.length_singleton, toBe, ofBe_concat, hdiv, hlast, ih]

theorem ofBe_lt (bs : List UInt8) : ofBe bs < 256 ^ bs.length := by
  have h := ofBe_toBe bs.length (ofBe bs)
  rw [toBe_ofBe] at h
  rw [h]
  exact Nat.mod_lt _ (Nat.pow_pos (by decide))

end Lib
