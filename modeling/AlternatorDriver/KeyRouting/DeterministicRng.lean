import AlternatorDriver.Foundation.XorShift
import Mathlib.Algebra.Group.Nat.Defs
import Mathlib.Data.Fin.Basic

/-!
# The generator behind affinity orders

A small xor-shift generator with a 64-bit state, used to derive a stable order of the
affinity nodes from a partition-key hash.
-/

namespace AlternatorDriver

open Foundation

structure DeterministicRng where
  state : BitVec 64
  deriving DecidableEq

namespace DeterministicRng

/-- The generator of a seed, whose bits are those of the source's signed argument. -/
def new (seed : BitVec 64) : DeterministicRng :=
  ⟨if seed = 0 then 0x9e3779b97f4a7c15 else seed⟩

def nextU64 (rng : DeterministicRng) : BitVec 64 × DeterministicRng :=
  let value := rng.state ^^^ (rng.state >>> 12)
  let value := value ^^^ (value <<< 25)
  let value := value ^^^ (value >>> 27)
  (value * 0x2545f4914f6cdd1d, ⟨value⟩)

/-- The upper half of the 128-bit product of a 64-bit word and a bound is below the bound. -/
theorem mulHigh_lt (word : BitVec 64) {upperBound : Nat} (positive : 0 < upperBound) :
    word.toNat * upperBound / 2 ^ 64 < upperBound := by
  refine Nat.div_lt_of_lt_mul ?_
  exact Nat.mul_lt_mul_of_pos_right word.isLt positive

/-- An index below a bound, which the source asserts to be positive. -/
def index (rng : DeterministicRng) (upperBound : Nat) (positive : 0 < upperBound) :
    Fin upperBound × DeterministicRng :=
  let (word, rng) := rng.nextU64
  (⟨word.toNat * upperBound / 2 ^ 64, mulHigh_lt word positive⟩, rng)

/-- The same index in the words of a 64-bit target: the product has 128 bits, and what is
left of it after the shift is converted back. -/
def indexWord (rng : DeterministicRng) (upperBound : BitVec 64) : BitVec 64 :=
  (((rng.nextU64.1.setWidth 128 * upperBound.setWidth 128) >>> 64).setWidth 64)

/-- A positive bound of the machine's word size. -/
structure UpperBound where
  value : Nat
  positive : 0 < value
  below : value < 2 ^ 64

/-- The generator after some draws. -/
def after (rng : DeterministicRng) (bounds : List UpperBound) : DeterministicRng :=
  bounds.foldl (fun rng bound => (rng.index bound.value bound.positive).2) rng

/-- What a draw makes of the state. -/
def nextState (state : BitVec 64) : BitVec 64 := (nextU64 ⟨state⟩).2.state

theorem nextState_injective : Function.Injective nextState := by
  have first : Function.Injective fun x : BitVec 64 => x ^^^ (x >>> 12) :=
    XorShift.injective_ushiftRight (by decide)
  have second : Function.Injective fun x : BitVec 64 => x ^^^ (x <<< 25) :=
    XorShift.injective_shiftLeft (by decide)
  have third : Function.Injective fun x : BitVec 64 => x ^^^ (x >>> 27) :=
    XorShift.injective_ushiftRight (by decide)
  exact third.comp (second.comp first)

theorem nextState_ne_zero {state : BitVec 64} (nonzero : state ≠ 0) : nextState state ≠ 0 := by
  intro zero
  have fixed : nextState 0 = 0 := by decide
  exact nonzero (nextState_injective (zero.trans fixed.symm))

theorem new_state_ne_zero (seed : BitVec 64) : (new seed).state ≠ 0 := by
  by_cases zero : seed = 0
  · rw [new, if_pos zero]
    decide
  · rwa [new, if_neg zero]

theorem after_state_ne_zero {rng : DeterministicRng} (nonzero : rng.state ≠ 0)
    (bounds : List UpperBound) : (rng.after bounds).state ≠ 0 := by
  induction bounds generalizing rng with
  | nil => exact nonzero
  | cons bound bounds ih => exact ih (nextState_ne_zero nonzero)

/-- The upper half of a product is exact in words of the double width. -/
theorem toNat_mulHigh {w : Nat} (x y : BitVec w) :
    (((x.setWidth (w + w) * y.setWidth (w + w)) >>> w).setWidth w).toNat =
      x.toNat * y.toNat / 2 ^ w := by
  have wide (z : BitVec w) : z.toNat < 2 ^ (w + w) :=
    Nat.lt_of_lt_of_le z.isLt (Nat.pow_le_pow_right (by decide) (Nat.le_add_left w w))
  have product : x.toNat * y.toNat < 2 ^ (w + w) := by
    rw [Nat.pow_add]
    exact Nat.mul_lt_mul'' x.isLt y.isLt
  have half : x.toNat * y.toNat / 2 ^ w < 2 ^ w := by
    refine Nat.div_lt_of_lt_mul ?_
    rwa [← Nat.pow_add]
  rw [BitVec.toNat_setWidth, BitVec.toNat_ushiftRight, BitVec.toNat_mul, BitVec.toNat_setWidth,
    BitVec.toNat_setWidth, Nat.mod_eq_of_lt (wide x), Nat.mod_eq_of_lt (wide y),
    Nat.mod_eq_of_lt product, Nat.shiftRight_eq_div_pow, Nat.mod_eq_of_lt half]

/-- Neither the product nor the conversion loses anything. -/
theorem indexWord_eq_index (rng : DeterministicRng) (bound : UpperBound) :
    rng.nextU64.1.toNat * bound.value < 2 ^ (64 + 64) ∧
      rng.nextU64.1.toNat * bound.value / 2 ^ 64 < 2 ^ 64 ∧
      (rng.indexWord (BitVec.ofNat 64 bound.value)).toNat =
        (rng.index bound.value bound.positive).1 := by
  refine ⟨?_, Nat.lt_trans (mulHigh_lt _ bound.positive) bound.below, ?_⟩
  · rw [Nat.pow_add]
    exact Nat.mul_lt_mul'' rng.nextU64.1.isLt bound.below
  · have high := toNat_mulHigh rng.nextU64.1 (BitVec.ofNat 64 bound.value)
    rw [BitVec.toNat_ofNat, Nat.mod_eq_of_lt bound.below] at high
    exact high

/-- The generator never degenerates and stays in range. For any seed and after any draws,
its state is not zero; the next draw takes different states to different ones, and its
index is below the bound, computed in machine words without overflow or truncation. -/
theorem generator_never_degenerates (seed : BitVec 64) (bounds : List UpperBound) :
    ((new seed).after bounds).state ≠ 0 ∧
    (∀ state, state ≠ 0 → nextState state ≠ 0) ∧
    Function.Injective nextState ∧
    ∀ bound : UpperBound,
      let rng := (new seed).after bounds
      (rng.indexWord (BitVec.ofNat 64 bound.value)).toNat < bound.value ∧
      rng.nextU64.1.toNat * bound.value < 2 ^ 128 ∧
      rng.nextU64.1.toNat * bound.value / 2 ^ 64 < 2 ^ 64 ∧
      (rng.indexWord (BitVec.ofNat 64 bound.value)).toNat =
        (rng.index bound.value bound.positive).1 := by
  refine ⟨after_state_ne_zero (new_state_ne_zero seed) bounds, fun state => nextState_ne_zero,
    nextState_injective, fun bound => ?_⟩
  obtain ⟨product, half, same⟩ := ((new seed).after bounds).indexWord_eq_index bound
  refine ⟨?_, by simpa only [Nat.reduceAdd] using product, half, same⟩
  rw [same]
  exact Fin.isLt _

/-- The seed of an empty key, after one draw. -/
theorem generator_never_degenerates_first :
    ((new 0).after [⟨3, by decide, by decide⟩]).state ≠ 0 ∧ nextState 1 ≠ 0 :=
  have degenerate := generator_never_degenerates 0 [⟨3, by decide, by decide⟩]
  ⟨degenerate.1, degenerate.2.1 1 (by decide)⟩

end DeterministicRng

end AlternatorDriver
