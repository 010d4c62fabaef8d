import Mathlib.Logic.Function.Basic

/-!
# Xor-shifts

A word combined with its own shift can be recovered: what two words with the same result
differ in is its own shift, hence its shift by any multiple, which is zero in the end.
-/

namespace Foundation

namespace XorShift

variable {w k : Nat} {x : BitVec w}

theorem eq_ushiftRight_mul (fixed : x = x >>> k) (n : Nat) : x = x >>> (k * n) := by
  induction n with
  | zero => simp
  | succ n ih => rw [Nat.mul_succ, BitVec.shiftRight_add, ← ih, ← fixed]

theorem eq_shiftLeft_mul (fixed : x = x <<< k) (n : Nat) : x = x <<< (k * n) := by
  induction n with
  | zero => simp
  | succ n ih => rw [Nat.mul_succ, BitVec.shiftLeft_add, ← ih, ← fixed]

/-- Only zero is its own shift. -/
theorem eq_zero_of_eq_ushiftRight (positive : 0 < k) (fixed : x = x >>> k) : x = 0#w := by
  rw [eq_ushiftRight_mul fixed w]
  exact BitVec.ushiftRight_eq_zero (Nat.le_mul_of_pos_left w positive)

theorem eq_zero_of_eq_shiftLeft (positive : 0 < k) (fixed : x = x <<< k) : x = 0#w := by
  rw [eq_shiftLeft_mul fixed w]
  exact BitVec.shiftLeft_eq_zero (Nat.le_mul_of_pos_left w positive)

/-- A map that distributes over differences and fixes only zero can be xored on. -/
theorem injective_of_fixed {f : BitVec w → BitVec w} (distrib : ∀ x y, f (x ^^^ y) = f x ^^^ f y)
    (fixed : ∀ x, x = f x → x = 0#w) : Function.Injective fun x => x ^^^ f x := by
  intro x y same
  have same : x ^^^ f x = y ^^^ f y := same
  refine BitVec.xor_eq_zero_iff.mp (fixed _ ?_)
  rw [distrib]
  calc
    x ^^^ y = (x ^^^ f x) ^^^ (f x ^^^ y) := by
      rw [BitVec.xor_assoc, ← BitVec.xor_assoc (f x) (f x), BitVec.xor_self, BitVec.zero_xor]
    _ = (y ^^^ f y) ^^^ (f x ^^^ y) := by rw [same]
    _ = (y ^^^ y) ^^^ (f x ^^^ f y) := by ac_rfl
    _ = f x ^^^ f y := by rw [BitVec.xor_self, BitVec.zero_xor]

theorem injective_ushiftRight (positive : 0 < k) :
    Function.Injective fun x : BitVec w => x ^^^ (x >>> k) :=
  injective_of_fixed (fun x y => BitVec.ushiftRight_xor_distrib x y k)
    fun _ => eq_zero_of_eq_ushiftRight positive

theorem injective_shiftLeft (positive : 0 < k) :
    Function.Injective fun x : BitVec w => x ^^^ (x <<< k) :=
  injective_of_fixed (fun x y => BitVec.shiftLeft_xor_distrib x y k)
    fun _ => eq_zero_of_eq_shiftLeft positive

end XorShift

end Foundation
