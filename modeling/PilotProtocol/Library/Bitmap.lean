import Mathlib.Logic.Function.Basic
import Mathlib.Data.Fintype.Pi

/-! # Bitmaps over 64-bit words

A bitmap of `words` machine words addresses `64 * words` bits; bit `i` is bit
`i % 64` of word `i / 64`. The two lemmas at the end are all that clients need:
setting or clearing a bit changes that bit only.
-/

namespace PilotProtocol.Library

abbrev Bitmap (words : Nat) := Fin words → BitVec 64

namespace Bitmap

variable {words : Nat}

def word (i : Fin (64 * words)) : Fin words := ⟨i / 64, by have := i.isLt; omega⟩

def mask (i : Fin (64 * words)) : BitVec 64 := 1#64 <<< (i.val % 64)

def empty : Bitmap words := fun _ => 0#64

def has (b : Bitmap words) (i : Fin (64 * words)) : Bool := (b (word i) &&& mask i) != 0#64

def set (b : Bitmap words) (i : Fin (64 * words)) : Bitmap words :=
  Function.update b (word i) (b (word i) ||| mask i)

def clear (b : Bitmap words) (i : Fin (64 * words)) : Bitmap words :=
  Function.update b (word i) (b (word i) &&& ~~~ mask i)

variable (b : Bitmap words) (i : Fin (64 * words))

theorem getLsbD_mask (k : Nat) : (mask i).getLsbD k = decide (k = i.val % 64) := by
  unfold mask
  rw [BitVec.getLsbD_shiftLeft, BitVec.getLsbD_one, Bool.eq_iff_iff]
  simp only [Bool.and_eq_true, Bool.not_eq_true', decide_eq_true_eq, decide_eq_false_iff_not]
  omega

theorem has_eq_getLsbD : has b i = (b (word i)).getLsbD (i.val % 64) := by
  unfold has
  cases hbit : (b (word i)).getLsbD (i.val % 64) with
  | true =>
    rw [bne_iff_ne]
    intro hzero
    have hlsb := congrArg (fun v : BitVec 64 => v.getLsbD (i.val % 64)) hzero
    simp [BitVec.getLsbD_and, getLsbD_mask, hbit] at hlsb
  | false =>
    rw [bne_eq_false_iff_eq]
    apply BitVec.eq_of_getLsbD_eq
    intro k hk
    rw [BitVec.getLsbD_and, getLsbD_mask, BitVec.getLsbD_zero]
    by_cases heq : k = i.val % 64
    · rw [heq, hbit, Bool.false_and]
    · rw [decide_eq_false heq, Bool.and_false]

theorem word_and_bit_eq {i j : Fin (64 * words)} (hw : word i = word j)
    (hb : i.val % 64 = j.val % 64) : i = j := by
  have hdiv : i.val / 64 = j.val / 64 := congrArg Fin.val hw
  omega

@[simp] theorem has_empty : has (empty : Bitmap words) i = false := by
  simp [has, empty]

theorem has_set (j : Fin (64 * words)) : has (set b i) j = (decide (j = i) || has b j) := by
  rw [has_eq_getLsbD, has_eq_getLsbD]
  unfold set
  by_cases hw : word j = word i
  · rw [hw, Function.update_self, BitVec.getLsbD_or, getLsbD_mask, Bool.or_comm]
    congr 1
    rw [decide_eq_decide]
    exact ⟨fun hb => word_and_bit_eq hw hb, fun h => h ▸ rfl⟩
  · have hne : j ≠ i := fun h => hw (h ▸ rfl)
    rw [Function.update_of_ne hw, decide_eq_false hne, Bool.false_or]

theorem has_clear (j : Fin (64 * words)) : has (clear b i) j = (!decide (j = i) && has b j) := by
  rw [has_eq_getLsbD, has_eq_getLsbD]
  have hj : j.val % 64 < 64 := Nat.mod_lt _ (by decide)
  unfold clear
  by_cases hw : word j = word i
  · rw [hw, Function.update_self, BitVec.getLsbD_and, BitVec.getLsbD_not, getLsbD_mask, Bool.and_comm]
    rw [decide_eq_true hj, Bool.true_and]
    congr 2
    rw [decide_eq_decide]
    exact ⟨fun hb => word_and_bit_eq hw hb, fun h => h ▸ rfl⟩
  · have hne : j ≠ i := fun h => hw (h ▸ rfl)
    rw [Function.update_of_ne hw, decide_eq_false hne, Bool.not_false, Bool.true_and]

end Bitmap

end PilotProtocol.Library
