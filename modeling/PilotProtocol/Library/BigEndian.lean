import Mathlib.Data.UInt

/-! # Big-endian integers in byte strings

`putBE w n` is the low `w` bytes of `n`, most significant first, and `getBE`
reads a whole byte string back.
-/

namespace PilotProtocol.Library

abbrev Bytes := List UInt8

def putBE : (width n : Nat) → Bytes
  | 0, _ => []
  | width + 1, n => putBE width (n / 256) ++ [UInt8.ofNat n]

def getBE (bytes : Bytes) : Nat := bytes.foldl (fun acc b => acc * 256 + b.toNat) 0

@[simp] theorem length_putBE (width n : Nat) : (putBE width n).length = width := by
  induction width generalizing n with
  | zero => rfl
  | succ width ih => simp [putBE, ih]

theorem getBE_putBE (width n : Nat) : getBE (putBE width n) = n % 256 ^ width := by
  induction width generalizing n with
  | zero => simp [putBE, getBE, Nat.mod_one]
  | succ width ih =>
    have hrest := ih (n / 256)
    have hlow : (UInt8.ofNat n).toNat = n % 256 := by simp
    have hpow : 256 ^ (width + 1) = 256 * 256 ^ width := Nat.pow_succ'
    unfold getBE at hrest ⊢
    rw [putBE, List.foldl_append, hrest, List.foldl_cons, List.foldl_nil, hlow, hpow, Nat.mod_mul]
    omega

end PilotProtocol.Library
