import Mathlib.Data.UInt

/-! # Serial numbers over unwrapped positions

A 32-bit sequence number is a position of an unbounded stream, taken modulo
`2 ^ 32`. Two positions less than `2 ^ 31` apart are ordered by their sequence
numbers exactly as they are in the stream; the lemmas here are the only ones
that look at the wrap.
-/

namespace PilotProtocol.Library

def wrap (pos : Nat) : UInt32 := UInt32.ofNat pos

def Near (p q : Nat) : Prop := p < q + 2 ^ 31 ∧ q < p + 2 ^ 31

instance (p q : Nat) : Decidable (Near p q) :=
  inferInstanceAs (Decidable (p < q + 2 ^ 31 ∧ q < p + 2 ^ 31))

theorem Near.add_left {p q : Nat} (h : Near p q) (base : Nat) : Near (base + p) (base + q) := by
  obtain ⟨hlo, hhi⟩ := h
  exact ⟨by omega, by omega⟩

@[simp] theorem wrap_add (p n : Nat) : wrap p + UInt32.ofNat n = wrap (p + n) := by
  simp [wrap, UInt32.ofNat_add]

theorem toNat_wrap (pos : Nat) : (wrap pos).toNat = pos % 2 ^ 32 := by
  simp [wrap]

theorem toInt32_pos (x : UInt32) : 0 < x.toInt32 ↔ 0 < x.toNat ∧ x.toNat < 2 ^ 31 := by
  rw [Int32.lt_iff_toInt_lt]
  have hx : x.toInt32.toInt = x.toBitVec.toInt := rfl
  have hn : x.toBitVec.toNat = x.toNat := rfl
  have hz : (0 : Int32).toInt = 0 := rfl
  rw [hx, hz, BitVec.toInt_eq_toNat_cond, hn]
  split <;> omega

theorem toNat_wrap_sub (p q : Nat) :
    (wrap p - wrap q).toNat = (2 ^ 32 - q % 2 ^ 32 + p % 2 ^ 32) % 2 ^ 32 := by
  rw [UInt32.toNat_sub, toNat_wrap, toNat_wrap]

theorem wrap_inj_of_near {p q : Nat} (h : Near p q) : wrap p = wrap q ↔ p = q := by
  constructor
  · intro heq
    have hmod := congrArg UInt32.toNat heq
    rw [toNat_wrap, toNat_wrap] at hmod
    obtain ⟨h₁, h₂⟩ := h
    omega
  · rintro rfl; rfl

theorem wrap_sub_pos_of_near {p q : Nat} (h : Near p q) :
    0 < (wrap p - wrap q).toInt32 ↔ q < p := by
  obtain ⟨h₁, h₂⟩ := h
  rw [toInt32_pos, toNat_wrap_sub]
  omega

end PilotProtocol.Library
