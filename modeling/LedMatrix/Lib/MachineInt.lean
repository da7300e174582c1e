import Mathlib.Data.Int.Order.Basic
import Mathlib.Order.Lattice

/-!
# Clamping, narrowing and bit tests of C integers

The fixed-width types of C are Lean's own. This file adds what their values are
after the macro `CLAMP`, after a narrowing cast and after the reinterpretation
of a signed word as unsigned, all as statements about integers.
-/

namespace MachineInt

/-- `CLAMP(val, low, high)`: `low` for a value at most `low`, otherwise the
smaller of the value and `high`. The arguments are the integers that the
operands denote in their common type. -/
def clamp (val low high : ℤ) : ℤ := if val ≤ low then low else min val high

/-- A clamped value lies between its bounds. -/
theorem clamp_mem (val : ℤ) {low high : ℤ} (h : low ≤ high) :
    low ≤ clamp val low high ∧ clamp val low high ≤ high := by
  unfold clamp
  split <;> omega

/-- Clamping is the composition of the two bounds. -/
theorem clamp_eq (val : ℤ) {low high : ℤ} (h : low ≤ high) :
    clamp val low high = max low (min val high) := by
  unfold clamp
  split <;> omega

/-- `val & BIT(n)` is not zero, in two's complement. -/
def hasBit (val : Int32) (n : ℕ) : Bool := val.toBitVec.getLsbD n

/-- Narrowing to eight bits reduces modulo `2 ^ 8`. -/
theorem toNat_ofInt_uint8 (v : ℤ) : ((UInt8.ofInt v).toNat : ℤ) = v % 256 := by
  simp only [UInt8.ofInt, UInt8.toNat_ofNat']
  omega

/-- Narrowing to sixteen bits reduces modulo `2 ^ 16`. -/
theorem toNat_ofInt_uint16 (v : ℤ) : ((UInt16.ofInt v).toNat : ℤ) = v % 65536 := by
  simp only [UInt16.ofInt, UInt16.toNat_ofNat']
  omega

/-- A signed word read as unsigned is its value modulo `2 ^ 32`. -/
theorem toNat_toUInt32 (v : Int32) : (v.toUInt32.toNat : ℤ) = v.toInt % 4294967296 := by
  have hbits : v.toUInt32.toNat = v.toBitVec.toNat := rfl
  have hlt := v.toBitVec.isLt
  rw [hbits, Int32.toInt, BitVec.toInt_eq_toNat_cond]
  split <;> omega

end MachineInt
