import Mathlib.Algebra.Order.Ring.Nat

/-! # Durations as signed 64-bit integers

Below `2 ^ 63` a natural number and its 64-bit image are compared, subtracted and divided
alike; sums and products only have to stay below that bound.
-/

namespace PilotProtocol.Library

section Duration

variable {m n : Nat}

section

variable (hm : m < 2 ^ 63)
include hm

theorem toInt_ofNat64 : (Int64.ofNat m).toInt = m := Int64.toInt_ofNat_of_lt hm

theorem ofNat64_lt (hn : n < 2 ^ 63) : Int64.ofNat m < Int64.ofNat n ↔ m < n := by
  rw [Int64.lt_iff_toInt_lt, toInt_ofNat64 hm, toInt_ofNat64 hn]
  omega

theorem ofNat64_eq_zero : Int64.ofNat m = 0 ↔ m = 0 := by
  have hzero : (0 : Int64).toInt = 0 := rfl
  rw [← Int64.toInt_inj, toInt_ofNat64 hm, hzero]
  omega

theorem ofNat64_div (hn : n < 2 ^ 63) : Int64.ofNat m / Int64.ofNat n = Int64.ofNat (m / n) := by
  have hquotient : m / n < 2 ^ 63 := Nat.lt_of_le_of_lt (Nat.div_le_self m n) hm
  apply Int64.toInt_inj.mp
  rw [Int64.toInt_div, toInt_ofNat64 hm, toInt_ofNat64 hn, toInt_ofNat64 hquotient]
  rw [← Int.ofNat_tdiv]
  generalize m / n = quotient at hquotient ⊢
  rw [Int.bmod_eq_of_le]
  · omega
  · omega

theorem ofNat64_dist (hn : n < 2 ^ 63) :
    (if Int64.ofNat m - Int64.ofNat n < 0 then -(Int64.ofNat m - Int64.ofNat n)
      else Int64.ofNat m - Int64.ofNat n) = Int64.ofNat (max (m - n) (n - m)) := by
  have hzero : (0 : Int64).toInt = 0 := rfl
  have hsub : (Int64.ofNat m - Int64.ofNat n).toInt = (m : Int) - n := by
    rw [Int64.toInt_sub, toInt_ofNat64 hm, toInt_ofNat64 hn, Int.bmod_eq_of_le]
    · omega
    · omega
  apply Int64.toInt_inj.mp
  rw [toInt_ofNat64 (by omega)]
  split
  next hneg =>
    rw [Int64.lt_iff_toInt_lt, hsub, hzero] at hneg
    rw [Int64.toInt_neg, hsub, Int.bmod_eq_of_le]
    · omega
    · omega
    · omega
  next hpos =>
    rw [Int64.lt_iff_toInt_lt, hsub, hzero] at hpos
    omega

theorem ofNat64_max (hn : n < 2 ^ 63) :
    (if Int64.ofNat m < Int64.ofNat n then Int64.ofNat n else Int64.ofNat m) =
      Int64.ofNat (max m n) := by
  by_cases h : m < n
  · rw [if_pos ((ofNat64_lt hm hn).mpr h), Nat.max_eq_right (Nat.le_of_lt h)]
  · rw [if_neg (mt (ofNat64_lt hm hn).mp h), Nat.max_eq_left (Nat.le_of_not_lt h)]

theorem ofNat64_min (hn : n < 2 ^ 63) :
    (if Int64.ofNat n < Int64.ofNat m then Int64.ofNat n else Int64.ofNat m) =
      Int64.ofNat (min m n) := by
  by_cases h : n < m
  · rw [if_pos ((ofNat64_lt hn hm).mpr h), Nat.min_eq_right (Nat.le_of_lt h)]
  · rw [if_neg (mt (ofNat64_lt hn hm).mp h), Nat.min_eq_left (Nat.le_of_not_lt h)]

end

theorem ofNat64_scale {k d : Nat} (hm : m * k < 2 ^ 63) (hd : d < 2 ^ 63) :
    Int64.ofNat m * Int64.ofNat k / Int64.ofNat d = Int64.ofNat (m * k / d) := by
  rw [← Int64.ofNat_mul, ofNat64_div hm hd]

end Duration

end PilotProtocol.Library
