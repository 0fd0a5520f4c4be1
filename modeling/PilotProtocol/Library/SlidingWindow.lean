import Mathlib.Data.Nat.ModEq

/-! # Anti-replay windows

A window of `W` positions remembers the largest number recorded and, by residue
modulo `W`, which of the `W` numbers up to it have been recorded. Zero doubles
as the mark of a window that has recorded nothing, so nothing is said about the
number zero. What clients use is `Window.Remembers`: a number that was recorded
is refused from then on, whatever is recorded in between. `Window.Exact` is the
other direction too: a window that was empty at the start refuses nothing else in
its reach.
-/

namespace PilotProtocol.Library

@[ext]
structure Window (W : Nat) where
  max : Nat
  seen : Fin W → Bool

namespace Window

variable {W : Nat} [NeZero W]

def wouldAccept (w : Window W) (n : Nat) : Bool :=
  if w.max = 0 then true
  else if w.max < n then true
  else if W ≤ w.max - n then false
  else !w.seen (Fin.ofNat W n)

/-- The residues of the numbers above the old maximum, up to the new one. -/
def fresh (w : Window W) (n : Nat) (i : Fin W) : Bool :=
  (List.range (n - w.max)).any fun s => Fin.ofNat W (n - s) == i

def record (w : Window W) (n : Nat) : Window W :=
  if w.max = 0 then
    { max := n, seen := fun i => decide (i = Fin.ofNat W n) || w.seen i }
  else if w.max < n then
    { max := n
      seen := fun i => decide (i = Fin.ofNat W n) ||
        (!(decide (W ≤ n - w.max) || w.fresh n i) && w.seen i) }
  else { max := w.max, seen := fun i => decide (i = Fin.ofNat W n) || w.seen i }

/-- The recorded numbers other than zero are below the maximum, and those the window
still reaches are marked. -/
def Remembers (w : Window W) (recorded : Nat → Prop) : Prop :=
  ∀ n, recorded n → n ≠ 0 → n ≤ w.max ∧ (w.max - n < W → w.seen (Fin.ofNat W n) = true)

omit [NeZero W] in
theorem mod_ne_of_lt_add {a b : Nat} (hlt : a < b) (hnear : b < a + W) : a % W ≠ b % W := by
  intro heq
  have hdvd : W ∣ b - a := (Nat.modEq_iff_dvd' (Nat.le_of_lt hlt)).mp heq
  have hle := Nat.le_of_dvd (by omega) hdvd
  omega

variable {w : Window W} {n : Nat} {recorded : Nat → Prop}

theorem not_fresh_of_near {m : Nat} (hm : m ≤ w.max) (hnear : n - m < W) :
    w.fresh n (Fin.ofNat W m) = false := by
  unfold fresh
  rw [List.any_eq_false]
  intro s hs heq
  have hs' := List.mem_range.mp hs
  have hval : (n - s) % W = m % W := congrArg Fin.val (beq_iff_eq.mp heq)
  exact mod_ne_of_lt_add (W := W) (a := m) (b := n - s) (by omega) (by omega) hval.symm

theorem refuses_of_remembers (h : w.Remembers recorded) (hn : recorded n) (hzero : n ≠ 0) :
    w.wouldAccept n = false := by
  obtain ⟨hle, hseen⟩ := h n hn hzero
  unfold wouldAccept
  rw [if_neg (by omega), if_neg (by omega)]
  by_cases hold : W ≤ w.max - n
  · rw [if_pos hold]
  · rw [if_neg hold, hseen (by omega), Bool.not_true]

theorem remembers_record (h : w.Remembers recorded) (hn : w.wouldAccept n = true) :
    (w.record n).Remembers fun k => recorded k ∨ k = n := by
  intro k hk hzero
  unfold record
  by_cases hmax : w.max = 0
  · rw [if_pos hmax]
    have hkn : k = n := by
      rcases hk with hk | hk
      · have := (h k hk hzero).1
        omega
      · exact hk
    subst hkn
    exact ⟨Nat.le_refl k, fun _ => by simp⟩
  rw [if_neg hmax]
  by_cases hgt : w.max < n
  · rw [if_pos hgt]
    rcases hk with hk | rfl
    · obtain ⟨hle, hseen⟩ := h k hk hzero
      refine ⟨by simp only; omega, fun hnear => ?_⟩
      simp only at hnear ⊢
      have hreached : decide (W ≤ n - w.max) = false := decide_eq_false (by omega)
      have hfresh := not_fresh_of_near hle hnear
      rw [hreached, hfresh, hseen (by omega)]
      simp
    · exact ⟨Nat.le_refl k, fun _ => by simp⟩
  · rw [if_neg hgt]
    rcases hk with hk | rfl
    · obtain ⟨hle, hseen⟩ := h k hk hzero
      refine ⟨hle, fun hnear => ?_⟩
      simp only
      rw [hseen hnear, Bool.or_true]
    · exact ⟨by simp only; omega, fun _ => by simp⟩

/-! ## Exact windows -/

/-- The recorded numbers are positive and the maximum is the largest of them; in the reach
of the window they are the marked ones. -/
structure Exact (w : Window W) (recorded : Nat → Prop) : Prop where
  pos : ∀ n, recorded n → 0 < n
  le_max : ∀ n, recorded n → n ≤ w.max
  max : w.max = 0 ∨ recorded w.max
  seen : ∀ n, 0 < n → n ≤ w.max → w.max < n + W → (w.seen (Fin.ofNat W n) = true ↔ recorded n)
  unused : w.max = 0 → ∀ i, w.seen i = false

theorem ofNat_inj_of_near {a b : Nat} (hlo : a < b + W) (hhi : b < a + W) :
    Fin.ofNat W a = Fin.ofNat W b ↔ a = b := by
  constructor
  · intro heq
    have hmod : a % W = b % W := congrArg Fin.val heq
    rcases Nat.lt_trichotomy a b with hlt | heq | hlt
    · exact absurd hmod (mod_ne_of_lt_add hlt hhi)
    · exact heq
    · exact absurd hmod.symm (mod_ne_of_lt_add hlt hlo)
  · rintro rfl
    rfl

theorem exact_empty (hmax : w.max = 0) (hseen : ∀ i, w.seen i = false) :
    w.Exact fun _ => False where
  pos := fun _ h => h.elim
  le_max := fun _ h => h.elim
  max := .inl hmax
  seen := by
    intro n hpos hle
    omega
  unused := fun _ => hseen

theorem Exact.wouldAccept_iff (h : w.Exact recorded) (hpos : 0 < n) :
    w.wouldAccept n = true ↔ ¬ recorded n ∧ w.max < n + W := by
  unfold wouldAccept
  by_cases hnew : w.max < n
  · have hfresh : ¬ recorded n := fun hrec => absurd (h.le_max n hrec) (by omega)
    have haccept : (if w.max = 0 then true else if w.max < n then true
        else if W ≤ w.max - n then false else !w.seen (Fin.ofNat W n)) = true := by
      split <;> rfl
    exact ⟨fun _ => ⟨hfresh, by omega⟩, fun _ => haccept⟩
  · rw [if_neg (by omega), if_neg hnew]
    by_cases hold : W ≤ w.max - n
    · rw [if_pos hold]
      exact ⟨nofun, fun hin => absurd hin.2 (by omega)⟩
    · have hseen := h.seen n hpos (by omega) (by omega)
      rw [if_neg hold, Bool.not_eq_true', ← Bool.not_eq_true, hseen]
      exact ⟨fun hrec => ⟨hrec, by omega⟩, fun hin => hin.1⟩

theorem fresh_of_above {m : Nat} (habove : w.max < m) (hle : m ≤ n) :
    w.fresh n (Fin.ofNat W m) = true := by
  unfold fresh
  rw [List.any_eq_true]
  refine ⟨n - m, List.mem_range.mpr (by omega), ?_⟩
  rw [show n - (n - m) = m by omega]
  exact beq_self_eq_true _

theorem Exact.record (h : w.Exact recorded) (hpos : 0 < n) (hn : w.wouldAccept n = true) :
    (w.record n).Exact fun k => recorded k ∨ k = n := by
  have hreach := ((h.wouldAccept_iff hpos).mp hn).2
  have hpos' : ∀ k, recorded k ∨ k = n → 0 < k := by
    rintro k (hk | rfl)
    · exact h.pos k hk
    · exact hpos
  unfold Window.record
  by_cases hmax : w.max = 0
  · rw [if_pos hmax]
    have hnone : ∀ k, ¬ recorded k := by
      intro k hk
      have hle := h.le_max k hk
      have hk0 := h.pos k hk
      omega
    refine ⟨hpos', ?_, .inr (.inr rfl), ?_, fun hzero => absurd hzero (Nat.ne_of_gt hpos)⟩
    · rintro k (hk | rfl)
      · exact absurd hk (hnone k)
      · exact Nat.le_refl k
    · intro k _ hle hnear
      dsimp only at hle hnear ⊢
      rw [h.unused hmax, Bool.or_false, decide_eq_true_eq, ofNat_inj_of_near (by omega) (by omega)]
      exact ⟨.inr, fun hk => hk.resolve_left (hnone k)⟩
  rw [if_neg hmax]
  by_cases hgt : w.max < n
  · rw [if_pos hgt]
    refine ⟨hpos', ?_, .inr (.inr rfl), ?_, fun hzero => absurd hzero (Nat.ne_of_gt hpos)⟩
    · rintro k (hk | rfl)
      · exact (h.le_max k hk).trans (Nat.le_of_lt hgt)
      · exact Nat.le_refl k
    · intro k hk hle hnear
      dsimp only at hle hnear ⊢
      rw [Bool.or_eq_true, decide_eq_true_eq, ofNat_inj_of_near (by omega) (by omega)]
      by_cases hkmax : k ≤ w.max
      · -- still in reach: the mark stays
        have hshift : decide (W ≤ n - w.max) = false := decide_eq_false (by omega)
        have hkept := not_fresh_of_near hkmax (show n - k < W by omega)
        rw [hshift, hkept, Bool.or_false, Bool.not_false, Bool.true_and,
          h.seen k hk hkmax (by omega)]
        exact or_comm
      · -- newly covered: the mark is cleared
        have hnew : ¬ recorded k := fun hrec => hkmax (h.le_max k hrec)
        rw [fresh_of_above (by omega) hle, Bool.or_true, Bool.not_true, Bool.false_and]
        exact ⟨fun hk => .inr (hk.resolve_right nofun),
          fun hk => .inl (hk.resolve_left hnew)⟩
  · rw [if_neg hgt]
    refine ⟨hpos', ?_, ?_, ?_, fun hzero => absurd hzero hmax⟩
    · rintro k (hk | rfl)
      · exact h.le_max k hk
      · exact Nat.le_of_not_lt hgt
    · exact h.max.imp id .inl
    · intro k hk hle hnear
      dsimp only at hle hnear ⊢
      rw [Bool.or_eq_true, decide_eq_true_eq, ofNat_inj_of_near (by omega) (by omega),
        h.seen k hk hle hnear]
      exact or_comm

end Window

end PilotProtocol.Library
