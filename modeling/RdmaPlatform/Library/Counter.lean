import Mathlib.Data.Int.Order.Basic

/-! Signed 64-bit counters: one step up below a bound and one step down above
zero are exact. -/
namespace RdmaPlatform.Library.Counter

theorem toInt_succ {count bound : Int64} (below : count < bound) :
    (count + 1).toInt = count.toInt + 1 := by
  have strict := Int64.lt_iff_toInt_lt.mp below
  have upper := bound.toInt_lt
  have lower := count.le_toInt
  rw [Int64.toInt_add,Int64.toInt_one]
  apply Int.bmod_eq_of_le <;> omega

theorem toInt_pred {count : Int64} (positive : 0 < count) :
    (count - 1).toInt = count.toInt - 1 := by
  have strict := Int64.lt_iff_toInt_lt.mp positive
  have upper := count.toInt_lt
  rw [Int64.toInt_zero] at strict
  rw [Int64.toInt_sub,Int64.toInt_one]
  apply Int.bmod_eq_of_le <;> omega

theorem nonneg_iff {count : Int64} : 0 ≤ count ↔ 0 ≤ count.toInt := by
  rw [Int64.le_iff_toInt_le,Int64.toInt_zero]

theorem pos_iff {count : Int64} : 0 < count ↔ 0 < count.toInt := by
  rw [Int64.lt_iff_toInt_lt,Int64.toInt_zero]

/-- The low 32 bits of a counter are its value exactly where that value has 32 bits. -/
theorem toUInt32_exact_iff {count : Int64} :
    (count.toUInt64.toUInt32.toNat : Int) = count.toInt ↔ 0 ≤ count.toInt ∧
      count.toInt < 4294967296 := by
  have bits : count.toInt = count.toBitVec.toInt := rfl
  have same : count.toUInt64.toNat = count.toBitVec.toNat := rfl
  have below := count.toBitVec.isLt
  rw [UInt64.toNat_toUInt32,bits,same,BitVec.toInt_eq_toNat_cond]
  split <;> omega

end RdmaPlatform.Library.Counter
