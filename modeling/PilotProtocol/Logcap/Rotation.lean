import PilotProtocol.Library.GoMap

/-! # Rotation of the daemon's log

The files of one log: the log, the copy `<log>.pilot.1` that a rotation stages, and the
generations `<log>.pilot.<g>.gz`, each as the text that was compressed into it. `Faults` says
which operations of a round fail. A failed operation changes nothing, except that a failed
copy may leave a part of it; renaming a name that does not exist is no failure.
-/

namespace PilotProtocol.Logcap

open Library

abbrev Text := List UInt8

structure Files where
  log : Text
  staged : Option Text
  gens : GoMap Nat Text
  /-- The generations that a rename of another one has overwritten; the code does not read it. -/
  overwritten : List Nat := []

structure CompressFaults where
  /-- Anything up to the rename of the temp file. -/
  write : Bool := false
  remove : Bool := false

structure Faults where
  openByPath : Bool := false
  outOfScope : Bool := false
  checkDir : Bool := false
  /-- Looking the copy up, opening it or locking it. -/
  openStaged : Bool := false
  finish : CompressFaults := {}
  lookup : Nat → Bool := fun _ => false
  /-- Looking up or removing a generation beyond the oldest. -/
  beyond : Nat → Bool := fun _ => false
  shift : Nat → Bool := fun _ => false
  /-- What a failed copy leaves. -/
  createStaged : Option (Option Text) := none
  truncate : Bool := false
  removeStaged : Bool := false
  unshift : Nat → Bool := fun _ => false
  dropParked : Bool := false
  compress : CompressFaults := {}

namespace Files

variable (f : Faults) (keep : Nat) (s : Files)

def rename (src dst : Nat) (text : Text) : Files :=
  { s with
    gens := (s.gens.erase src).insert dst text
    overwritten := if (s.gens.lookup dst).isSome then dst :: s.overwritten else s.overwritten }

/-- A loop of renames along the slots, each to the one before it, up to the first that fails. -/
def renameAll (fails : Nat → Bool) (slot : Nat → Nat) : Nat → Nat → Files → Files × Bool
  | 0, _, s => (s, false)
  | left + 1, i, s =>
    match s.gens.lookup (slot (i + 1)) with
    | none => renameAll fails slot left (i + 1) s
    | some text =>
      if fails (slot (i + 1)) then (s, true)
      else renameAll fails slot left (i + 1) (s.rename (slot (i + 1)) (slot i) text)

/-- The loop that removes from `gen` up, to the first gap; each round takes a generation. -/
def removeBeyond (f : Faults) : Nat → Nat → GoMap Nat Text → GoMap Nat Text
  | 0, _, gens => gens
  | left + 1, gen, gens =>
    if (gens.lookup gen).isSome && !f.beyond gen then
      removeBeyond f left (gen + 1) (gens.erase gen)
    else gens

def trim : Files := { s with gens := removeBeyond f s.gens.len (keep + 1) s.gens }

structure Shift where
  files : Files
  parked : Bool
  failed : Bool

def shiftBackups : Shift :=
  if (List.range' 1 (keep + 1)).any f.lookup then ⟨s, false, true⟩
  else
    let (files, failed) := (s.trim f keep).renameAll f.shift (keep + 1 - ·) keep 0
    ⟨files, (s.gens.lookup keep).isSome && !f.shift keep, failed⟩

def unshiftBackups (parked : Bool) (s : Files) : Files × Bool :=
  let top := if parked then keep + 1 else keep
  s.renameAll f.unshift (· + 1) (top - 1) 0

def dropParked (parked : Bool) (s : Files) : Files :=
  if parked && !f.dropParked then { s with gens := s.gens.erase (keep + 1) } else s

def compress (f : CompressFaults) (s : Files) : Files × Bool :=
  match s.staged with
  | none => (s, true)
  | some text =>
    if f.write then (s, true)
    else if f.remove then ({ s with gens := s.gens.insert 1 text }, true)
    else ({ s with gens := s.gens.insert 1 text, staged := none }, false)

def finishStaged : Files × Bool :=
  if f.openStaged then (s, true)
  else if s.staged.isSome then s.compress f.finish
  else (s, false)

structure Staging where
  files : Files
  held : Bool
  parked : Bool
  failed : Bool

def stage : Staging :=
  if f.checkDir then ⟨s, false, false, true⟩
  else
    let (finished, failed) := s.finishStaged f
    if failed then ⟨finished, false, false, true⟩
    else
      let shifted := finished.shiftBackups f keep
      if shifted.failed then
        ⟨shifted.files.dropParked f keep shifted.parked, false, false, true⟩
      else
        match f.createStaged with
        | some left =>
          let files := { shifted.files with staged := left }
          ⟨files.dropParked f keep shifted.parked, false, false, true⟩
        | none =>
          ⟨{ shifted.files with staged := some shifted.files.log }, true, shifted.parked, false⟩

def unstage (parked : Bool) (s : Files) : Files :=
  if f.removeStaged then s.dropParked f keep parked
  else ({ s with staged := none }.unshiftBackups f keep parked).1

structure Round where
  files : Files
  truncated : Bool
  failed : Bool

def rotate : Round :=
  if !f.openByPath && f.outOfScope then ⟨s, false, true⟩
  else
    let st : Staging :=
      if f.openByPath then ⟨s, false, false, true⟩
      else if 0 < keep then s.stage f keep
      else ⟨s, false, false, false⟩
    if f.truncate then
      ⟨if st.held then st.files.unstage f keep st.parked else st.files, false, true⟩
    else
      let emptied := { st.files with log := [] }
      if st.held then
        let (files, failed) := (emptied.dropParked f keep st.parked).compress f.compress
        ⟨files, true, failed⟩
      else ⟨emptied, true, st.failed⟩

/-! ## The loops -/

section

variable (f : Faults) (keep : Nat) {s : Files}

theorem lookup_rename (s : Files) (src dst : Nat) (text : Text) (g : Nat) :
    (s.rename src dst text).gens.lookup g =
      if g = dst then some text else if g = src then none else s.gens.lookup g := by
  rw [rename, GoMap.lookup_insert_ite, GoMap.lookup_erase_ite]

/-- The slots from `i` on hold what the next one held, for `m` of them; the one after them is
free, and the others are as they were. -/
structure Passed (slot : Nat → Nat) (i m left : Nat) (s r : Files) : Prop where
  le : m ≤ left
  moved : ∀ k, i ≤ k → k < i + m → r.gens.lookup (slot k) =
    (s.gens.lookup (slot (k + 1))).or (if k = i then s.gens.lookup (slot i) else none)
  hole : 0 < m ∨ s.gens.lookup (slot i) = none → ∀ k, k = i + m → r.gens.lookup (slot k) = none
  other : ∀ g, (∀ k, i ≤ k → k ≤ i + m → g ≠ slot k) → r.gens.lookup g = s.gens.lookup g
  overwritten : s.gens.lookup (slot i) = none → r.overwritten = s.overwritten
  log : r.log = s.log

variable {slot : Nat → Nat}

theorem Passed.refl (slot : Nat → Nat) (i left : Nat) (s : Files) : Passed slot i 0 left s s where
  le := Nat.zero_le left
  moved := by omega
  hole h k hk := by rw [hk]; exact h.resolve_left (by omega)
  other _ _ := rfl
  overwritten _ := rfl
  log := rfl

theorem renameAll_spec (fails : Nat → Bool) (slot : Nat → Nat) (left : Nat) {i : Nat}
    (hslot : ∀ k l, i ≤ k → k < l → l ≤ i + left → slot k ≠ slot l) :
    ∃ m, Passed slot i m left s (s.renameAll fails slot left i).1 ∧
      ((s.renameAll fails slot left i).2 = false → m = left) := by
  induction left generalizing i s with
  | zero => exact ⟨0, .refl slot i 0 s, fun _ => rfl⟩
  | succ left ih =>
    have ih := fun s : Files => ih (s := s) (i := i + 1) fun k l hk hl hle =>
      hslot k l (by omega) hl (by omega)
    have hfirst (k : Nat) (hk : i + 1 ≤ k) (hle : k ≤ i + 1 + left) : slot i ≠ slot k :=
      hslot i k le_rfl (by omega) (by omega)
    unfold renameAll
    cases hnext : s.gens.lookup (slot (i + 1)) with
    | none =>
      obtain ⟨m, h, hdone⟩ := ih s
      have hm := h.le
      refine ⟨m + 1, ⟨Nat.succ_le_succ hm, fun k hk hlt => ?_,
        fun _ k hk => h.hole (.inr hnext) k (by omega),
        fun g hg => h.other g fun k hk hle => hg k (by omega) (by omega),
        fun _ => h.overwritten hnext, h.log⟩, fun hok => by rw [hdone hok]⟩
      by_cases hki : k = i
      · rw [hki, h.other _ fun k hk hle => hfirst k hk (by omega), hnext, if_pos rfl,
          Option.none_or]
      · rw [h.moved k (by omega) (by omega), hnext, ite_self, if_neg hki]
    | some text =>
      dsimp only
      split
      · exact ⟨0, .refl slot i _ s, nofun⟩
      · have hrename := lookup_rename s (slot (i + 1)) (slot i) text
        have hfree : (s.rename (slot (i + 1)) (slot i) text).gens.lookup (slot (i + 1)) = none := by
          rw [hrename, if_neg (hfirst (i + 1) le_rfl (by omega)).symm, if_pos rfl]
        obtain ⟨m, h, hdone⟩ := ih (s.rename (slot (i + 1)) (slot i) text)
        have hm := h.le
        refine ⟨m + 1, ⟨Nat.succ_le_succ hm, fun k hk hlt => ?_,
          fun _ k hk => h.hole (.inr hfree) k (by omega), fun g hg => ?_, fun hi => ?_, h.log⟩,
          fun hok => by rw [hdone hok]⟩
        · by_cases hki : k = i
          · rw [hki, h.other _ fun k hk hle => hfirst k hk (by omega), hrename, if_pos rfl, hnext,
              Option.some_or]
          · rw [h.moved k (by omega) (by omega), hfree, ite_self, if_neg hki, hrename,
              if_neg (hfirst (k + 1) (by omega) (by omega)).symm,
              if_neg (hslot (i + 1) (k + 1) (by omega) (by omega) (by omega)).symm]
        · rw [h.other g fun k hk hle => hg k (by omega) (by omega), hrename,
            if_neg (hg i le_rfl (by omega)), if_neg (hg (i + 1) (by omega) (by omega))]
        · rw [h.overwritten hfree]
          simp [rename, hi]

theorem renameAll_failed (fails : Nat → Bool) (slot : Nat → Nat) (left : Nat) {i : Nat}
    (hslot : ∀ k l, i ≤ k → k < l → l ≤ i + left → slot k ≠ slot l) :
    (s.renameAll fails slot left i).2 = true ↔ ∃ k, (i < k ∧ k ≤ i + left) ∧
      (s.gens.lookup (slot k)).isSome = true ∧ fails (slot k) = true := by
  induction left generalizing i s with
  | zero => exact iff_of_false Bool.false_ne_true fun ⟨k, hk, _⟩ => by omega
  | succ left ih =>
    have ih := fun s : Files => ih (s := s) (i := i + 1) fun k l hk hl hle =>
      hslot k l (by omega) hl (by omega)
    have hsplit (k : Nat) : i < k ∧ k ≤ i + (left + 1) ↔
        k = i + 1 ∨ i + 1 < k ∧ k ≤ i + 1 + left := by omega
    simp only [hsplit, or_and_right, exists_or, exists_eq_left]
    unfold renameAll
    cases hnext : s.gens.lookup (slot (i + 1)) with
    | none => simpa using ih s
    | some text =>
      by_cases hfails : fails (slot (i + 1)) = true
      · simp [hfails]
      · simp only [hfails, if_false, ih, Bool.false_eq_true, and_false, false_or]
        refine exists_congr fun k => and_congr_right fun ⟨hlt, hle⟩ => ?_
        rw [lookup_rename, if_neg (hslot i k (by omega) (by omega) (by omega)).symm,
          if_neg (hslot (i + 1) k (by omega) hlt (by omega)).symm]

theorem Passed.moved_free {i m left k : Nat} {r : Files} (h : Passed slot i m left s r)
    (hfree : s.gens.lookup (slot i) = none) (hk : i ≤ k) (hlt : k < i + m) :
    r.gens.lookup (slot k) = s.gens.lookup (slot (k + 1)) := by
  rw [h.moved k hk hlt, hfree, ite_self, Option.or_none]

/-- A generation with a name in `p` holds the text. -/
def Held (p : Nat → Prop) (gens : GoMap Nat Text) (text : Text) : Prop :=
  ∃ g, p g ∧ gens.lookup g = some text

/-- The renames move texts among the slots. As long as the first slot is free they lose none. -/
theorem renameAll_held {p : Nat → Prop} (fails : Nat → Bool) (slot : Nat → Nat) {left i : Nat}
    (hp : ∀ k, i ≤ k → k ≤ i + left → p (slot k))
    (hslot : ∀ k l, i ≤ k → k < l → l ≤ i + left → slot k ≠ slot l)
    (hfree : s.gens.lookup (slot i) = none) (text : Text) :
    Held p (s.renameAll fails slot left i).1.gens text ↔ Held p s.gens text := by
  obtain ⟨m, h, -⟩ := renameAll_spec (s := s) fails slot left hslot
  have hm := h.le
  refine ⟨fun ⟨g, hg, htext⟩ => ?_, fun ⟨g, hg, htext⟩ => ?_⟩ <;>
    by_cases hmoved : ∃ k, i ≤ k ∧ k ≤ i + m ∧ g = slot k
  · obtain ⟨k, hk, hle, rfl⟩ := hmoved
    rcases Nat.lt_or_eq_of_le hle with hlt | rfl
    · exact ⟨slot (k + 1), hp _ (by omega) (by omega), h.moved_free hfree hk hlt ▸ htext⟩
    · simp [h.hole (.inr hfree) _ rfl] at htext
  · exact ⟨g, hg, h.other g (by simpa using hmoved) ▸ htext⟩
  · obtain ⟨k, hk, hle, rfl⟩ := hmoved
    rcases Nat.lt_or_eq_of_le hk with hlt | rfl
    · obtain ⟨k, rfl⟩ : ∃ l, k = l + 1 := ⟨k - 1, by omega⟩
      exact ⟨slot k, hp k (by omega) (by omega),
        (h.moved_free hfree (by omega) (by omega)).trans htext⟩
    · simp [hfree] at htext
  · exact ⟨g, hg, (h.other g (by simpa using hmoved)).trans htext⟩

/-- The renames as they are when none of them fails. -/
theorem renameAll_passed (slot : Nat → Nat) (left : Nat)
    (hslot : ∀ k l, 0 ≤ k → k < l → l ≤ 0 + left → slot k ≠ slot l) (s : Files) :
    (s.renameAll (fun _ => false) slot left 0).2 = false ∧
      Passed slot 0 left left s (s.renameAll (fun _ => false) slot left 0).1 := by
  have hok : (s.renameAll (fun _ => false) slot left 0).2 = false := by
    rw [← Bool.not_eq_true, renameAll_failed _ slot left hslot]
    simp
  obtain ⟨m, h, hm⟩ := renameAll_spec (s := s) (fun _ => false) slot left hslot
  exact ⟨hok, hm hok ▸ h⟩

/-- `removeBeyond` takes the generation: from `gen` up to it there is no gap and no failure. -/
def Removed (f : Faults) (gens : GoMap Nat Text) (gen g : Nat) : Prop :=
  gen ≤ g ∧ ∀ k, k ≤ g → gen ≤ k → (gens.lookup k).isSome = true ∧ f.beyond k = false

theorem removeBeyond_iff {left gen : Nat} {gens : GoMap Nat Text} (hleft : gens.len ≤ left)
    (g : Nat) (text : Text) : (removeBeyond f left gen gens).lookup g = some text ↔
      gens.lookup g = some text ∧ ¬ Removed f gens gen g := by
  induction left generalizing gen gens with
  | zero =>
    have hnone : gens.lookup g = none := by
      rw [← Option.not_isSome_iff_eq_none, GoMap.lookup_isSome_iff]
      intro hmem
      have hpos := List.length_pos_of_mem hmem
      rw [← GoMap.len_eq_keys] at hpos
      omega
    simp [removeBeyond, hnone]
  | succ left ih =>
    unfold removeBeyond
    split
    next hnext =>
      rw [Bool.and_eq_true, Bool.not_eq_true'] at hnext
      rw [ih (by rw [GoMap.len_erase, if_pos hnext.1]; omega), GoMap.lookup_erase_ite]
      by_cases hg : g = gen
      · refine iff_of_false (by simp [hg]) fun h => h.2 ⟨Nat.le_of_eq hg.symm, fun k hk hle => ?_⟩
        obtain rfl : k = gen := by omega
        exact hnext
      · rw [if_neg hg]
        refine and_congr_right fun _ => not_congr ⟨fun h => ⟨by have := h.1; omega, fun k hk hle => ?_⟩,
          fun h => ⟨by have := h.1; omega, fun k hk hle => ?_⟩⟩
        · by_cases hkg : k = gen
          · rwa [hkg]
          · have hrest := h.2 k hk (by omega)
            rwa [GoMap.lookup_erase_ite, if_neg hkg] at hrest
        · rw [GoMap.lookup_erase_ite, if_neg (by omega)]
          exact h.2 k hk (by omega)
    next hnext =>
      refine (and_iff_left fun h => hnext ?_).symm
      obtain ⟨hsome, hbeyond⟩ := h.2 gen h.1 le_rfl
      simp [hsome, hbeyond]

theorem trim_iff (s : Files) (g : Nat) (text : Text) : (s.trim f keep).gens.lookup g = some text ↔
      s.gens.lookup g = some text ∧ ¬ Removed f s.gens (keep + 1) g :=
  removeBeyond_iff f le_rfl g text

theorem lookup_trim {g : Nat} (h : g ≤ keep) (s : Files) :
    (s.trim f keep).gens.lookup g = s.gens.lookup g := by
  apply Option.ext
  intro text
  rw [trim_iff, and_iff_left fun hremoved => absurd hremoved.1 (by omega)]

theorem trim_idle (h : s.gens.lookup (keep + 1) = none) : s.trim f keep = s := by
  unfold trim
  cases s.gens.len <;> simp [removeBeyond, h]

theorem shiftBackups_done (s : Files) (hok : (s.shiftBackups f keep).failed = false) :
    Passed (keep + 1 - ·) 0 keep keep (s.trim f keep) (s.shiftBackups f keep).files := by
  unfold shiftBackups at hok ⊢
  split at hok
  · cases hok
  next h =>
    obtain ⟨m, hup, hm⟩ := renameAll_spec (s := s.trim f keep) (i := 0) f.shift (keep + 1 - ·) keep
      fun k l _ hl hle => by omega
    rw [if_neg h]
    rwa [hm hok] at hup

theorem Passed.up {n g : Nat} {r : Files} (h : Passed (n + 1 - ·) 0 n n s r) (hpos : 1 ≤ g)
    (hle : g ≤ n) : r.gens.lookup (g + 1) =
      (s.gens.lookup g).or (if g = n then s.gens.lookup (n + 1) else none) := by
  have hmoved := h.moved (n - g) (Nat.zero_le _) (by omega)
  have hdst : n + 1 - (n - g) = g + 1 := by omega
  have hsrc : n + 1 - (n - g + 1) = g := by omega
  rw [hdst, hsrc] at hmoved
  rw [hmoved]
  by_cases hg : g = n
  · rw [if_pos hg, if_pos (by omega)]
    rfl
  · rw [if_neg hg, if_neg (by omega)]

theorem Passed.up_free {n : Nat} {r : Files} (h : Passed (n + 1 - ·) 0 n n s r)
    (hfree : 0 < n ∨ s.gens.lookup (n + 1) = none) : r.gens.lookup 1 = none := by
  have hhole := h.hole hfree n (by omega)
  rwa [show n + 1 - n = 1 by omega] at hhole

/-- When nothing fails, the shift moves every generation one up and overwrites none, and
`unshiftBackups` brings back what was there. -/
theorem unshift_undoes_shift (keep : Nat) (s : Files)
    (hgens : ∀ g text, s.gens.lookup g = some text → 1 ≤ g ∧ g ≤ keep) :
    let shifted := s.shiftBackups {} keep
    let restored := shifted.files.unshiftBackups {} keep shifted.parked
    (shifted.failed = false ∧ restored.2 = false) ∧
    (∀ g, restored.1.gens.lookup g = s.gens.lookup g) ∧
    shifted.files.gens.lookup 1 = none ∧ shifted.files.overwritten = s.overwritten ∧
    ∀ g, 1 ≤ g → shifted.files.gens.lookup (g + 1) = s.gens.lookup g := by
  have hnone (g : Nat) (hg : g < 1 ∨ keep < g) : s.gens.lookup g = none := by
    cases hlookup : s.gens.lookup g with
    | none => rfl
    | some text => have := hgens g text hlookup; omega
  intro shifted restored
  have hshifted : shifted = ⟨_, _, _⟩ := if_neg (by simp)
  rw [trim_idle {} keep (hnone _ (by omega))] at hshifted
  obtain ⟨hok, hup⟩ := renameAll_passed (keep + 1 - ·) keep (fun k l _ hl hle => by omega) s
  replace hup : Passed (keep + 1 - ·) 0 keep keep s shifted.files := hshifted ▸ hup
  have hfree := hup.up_free (.inr (hnone _ (by omega)))
  have hlookup (g : Nat) (hpos : 1 ≤ g) :
      shifted.files.gens.lookup (g + 1) = s.gens.lookup g := by
    by_cases hle : g ≤ keep
    · rw [hup.up hpos hle, hnone (keep + 1) (by omega), ite_self, Option.or_none]
    · rw [hup.other _ fun k _ hk => by omega, hnone g (by omega), hnone _ (by omega)]
  generalize htop : (if shifted.parked then keep + 1 else keep) - 1 = n at *
  have hend (g : Nat) (hg : n < g) : s.gens.lookup g = none := by
    cases hkeep : s.gens.lookup keep with
    | some text =>
      have hparked : shifted.parked = true := by simp [hshifted, hkeep]
      rw [hparked] at htop
      exact hnone g (.inr (by simp at htop; omega))
    | none =>
      by_cases hlast : g = keep
      · rw [hlast, hkeep]
      · exact hnone g (by split at htop <;> omega)
  obtain ⟨hback, hdown⟩ := renameAll_passed (· + 1) n (fun k l _ hl hle => by omega) shifted.files
  have hrestored : restored = shifted.files.renameAll (fun _ => false) (· + 1) n 0 := by
    rw [← htop]
    rfl
  rw [hrestored]
  refine ⟨⟨by rw [hshifted]; exact hok, hback⟩, fun g => ?_, hfree,
    hup.overwritten (hnone _ (by omega)), hlookup⟩
  rcases Nat.eq_zero_or_pos g with rfl | hpos
  · rw [hdown.other 0 fun k _ _ => by omega, hup.other 0 fun k _ hk => by omega]
  obtain ⟨k, rfl⟩ : ∃ k, g = k + 1 := ⟨g - 1, by omega⟩
  rcases Nat.lt_trichotomy k n with hlt | rfl | hgt
  · rw [hdown.moved_free hfree (Nat.zero_le k) (by omega), hlookup (k + 1) hpos]
  · rw [hdown.hole (.inr hfree) k (by omega), hend _ (by omega)]
  · rw [hdown.other _ fun j _ hj => by omega, hlookup k (by omega), hend k hgt, hend _ (by omega)]

/-- Generation 2, with a gap before it. -/
def sample : Files where
  log := [9]
  staged := none
  gens := (∅ : GoMap Nat Text).insert 2 [2]

theorem sample_restored :
    ((sample.shiftBackups {} 2).files.unshiftBackups {} 2 true).1.gens.lookup 2 = some [2] := by
  refine (unshift_undoes_shift 2 sample fun g text hg => ?_).2.1 2
  rw [sample, GoMap.lookup_insert_ite] at hg
  by_contra hne
  rw [if_neg (by omega)] at hg
  cases hg

/-! ## Rounds -/

theorem unshiftBackups_held (parked : Bool) (hfree : s.gens.lookup 1 = none) (text : Text) :
    Held (1 ≤ ·) (s.unshiftBackups f keep parked).1.gens text ↔ Held (1 ≤ ·) s.gens text :=
  renameAll_held f.unshift (· + 1) (fun k _ _ => Nat.le_add_left 1 k) (fun k l _ hl _ => by omega)
    hfree text

theorem compress_spec (f : CompressFaults) (s : Files) : (s.compress f).1.log = s.log ∧
      ((s.compress f).1.gens = s.gens ∧ (s.compress f).2 = true ∨
        ∃ text, s.staged = some text ∧ (s.compress f).1.gens = s.gens.insert 1 text) := by
  unfold compress
  split
  · exact ⟨rfl, .inl ⟨rfl, rfl⟩⟩
  next text hstaged =>
    split_ifs
    · exact ⟨rfl, .inl ⟨rfl, rfl⟩⟩
    · exact ⟨rfl, .inr ⟨text, hstaged, rfl⟩⟩
    · exact ⟨rfl, .inr ⟨text, hstaged, rfl⟩⟩

/-- The round gets to the backup and can open and lock a copy that is left over. -/
def backsUp (f : Faults) (keep : Nat) : Bool :=
  !f.openByPath && !f.outOfScope && decide (0 < keep) && !f.checkDir && !f.openStaged

/-- The generations as the shift finds them: a copy that is left over has been compressed into
the first. -/
def before (f : Faults) (keep : Nat) (s : Files) : GoMap Nat Text :=
  match s.staged with
  | none => s.gens
  | some text => if backsUp f keep && !f.finish.write then s.gens.insert 1 text else s.gens

/-- The round gets to the shift, and no slot holds anything foreign. -/
def shifts (f : Faults) (keep : Nat) (s : Files) : Bool :=
  backsUp f keep && (s.staged.isNone || !f.finish.write && !f.finish.remove) &&
    !(List.range' 1 (keep + 1)).any f.lookup

def parks (f : Faults) (keep : Nat) (gens : GoMap Nat Text) : Bool :=
  (gens.lookup keep).isSome && !f.shift keep

/-- A rename of the shift, the copy or the removal of the copy fails. -/
def stuck (f : Faults) (keep : Nat) (gens : GoMap Nat Text) : Bool :=
  (List.range' 1 keep).any (fun g => (gens.lookup g).isSome && f.shift g) ||
    f.createStaged.isSome || f.removeStaged

/-- A round that shifts but cannot truncate loses the generation: the oldest is parked, not put
back and dropped; one beyond it is removed, or overwritten by the parked one. -/
def Lost (f : Faults) (keep : Nat) (gens : GoMap Nat Text) (g : Nat) : Prop :=
  g = keep ∧ parks f keep gens = true ∧ stuck f keep gens = true ∧ f.dropParked = false ∨
    g = keep + 1 ∧ parks f keep gens = true ∨ Removed f gens (keep + 1) g

/-- What each generation up to `keep` held is held by a generation that a round which cannot
truncate leaves. -/
def Spared (f : Faults) (keep : Nat) (s : Files) : Prop :=
  ∀ g text, 1 ≤ g → g ≤ keep → s.gens.lookup g = some text →
    ∃ g', 1 ≤ g' ∧ (s.before f keep).lookup g' = some text ∧
      ¬ (s.shifts f keep = true ∧ Lost f keep (s.before f keep) g')

theorem shiftBackups_failed (hlookup : (List.range' 1 (keep + 1)).any f.lookup = false) (s : Files) :
    (s.shiftBackups f keep).failed =
      (List.range' 1 keep).any fun g => (s.gens.lookup g).isSome && f.shift g := by
  unfold shiftBackups
  rw [if_neg (by rw [hlookup]; exact Bool.false_ne_true), Bool.eq_iff_iff, List.any_eq_true]
  simp only [List.mem_range'_1, Bool.and_eq_true]
  rw [renameAll_failed f.shift _ keep fun k l _ hl hle => by omega]
  constructor
  · rintro ⟨k, hk, hsome, hfails⟩
    rw [lookup_trim f keep (by omega)] at hsome
    exact ⟨keep + 1 - k, by omega, hsome, hfails⟩
  · rintro ⟨g, hg, hsome, hfails⟩
    refine ⟨keep + 1 - g, by omega, ?_⟩
    rw [Nat.sub_sub_self (by omega), lookup_trim f keep (by omega)]
    exact ⟨hsome, hfails⟩

/-- The shift loses what `removeBeyond` takes, and the generation that the parked one has
overwritten; with the parked generation set aside, also the oldest. -/
theorem shiftBackups_held (hlookup : (List.range' 1 (keep + 1)).any f.lookup = false)
    (hkeep : 0 < keep) {s : Files} {aside : Prop} (haside : aside → parks f keep s.gens = true)
    (text : Text) :
    Held (fun g => 1 ≤ g ∧ (aside → g ≠ keep + 1)) (s.shiftBackups f keep).files.gens text ↔
      ∃ g, 1 ≤ g ∧ s.gens.lookup g = some text ∧ ¬ (g = keep ∧ aside ∨
        g = keep + 1 ∧ parks f keep s.gens = true ∨ Removed f s.gens (keep + 1) g) := by
  obtain ⟨n, rfl⟩ : ∃ n, keep = n + 1 := ⟨keep - 1, by omega⟩
  have hheld (T : Files) (hfree : T.gens.lookup (n + 1) = none) :
      Held (fun g => 1 ≤ g ∧ (aside → g ≠ n + 1 + 1))
        (T.renameAll f.shift (n + 1 + 1 - ·) n 1).1.gens text ↔ Held _ T.gens text :=
    renameAll_held f.shift (n + 1 + 1 - ·)
      (fun k _ _ => ⟨by omega, fun _ => by omega⟩) (fun k l _ hl hle => by omega) hfree text
  have htrim := trim_iff f (n + 1) s
  have hbelow : ¬ Removed f s.gens (n + 1 + 1) (n + 1) := fun h => absurd h.1 (by omega)
  have hidle (hparks : parks f (n + 1) s.gens = false) :
      Held (fun g => 1 ≤ g ∧ (aside → g ≠ n + 1 + 1)) (s.trim f (n + 1)).gens text ↔
        ∃ g, 1 ≤ g ∧ s.gens.lookup g = some text ∧ ¬ (g = n + 1 ∧ aside ∨
          g = n + 1 + 1 ∧ parks f (n + 1) s.gens = true ∨ Removed f s.gens (n + 1 + 1) g) := by
    have hnot : ¬ aside := fun h => by rw [haside h] at hparks; cases hparks
    simp [Held, htrim, hparks, hnot]
  have hshift : (s.shiftBackups f (n + 1)).files =
      ((s.trim f (n + 1)).renameAll f.shift (n + 1 + 1 - ·) (n + 1) 0).1 := by
    unfold shiftBackups
    rw [if_neg (by rw [hlookup]; exact Bool.false_ne_true)]
  have hfirst : (s.trim f (n + 1)).gens.lookup (n + 1 + 1 - (0 + 1)) = _ :=
    lookup_trim f (n + 1) le_rfl s
  rw [hshift]
  unfold renameAll
  simp only [Nat.zero_add, Nat.add_sub_cancel, Nat.sub_zero]
  cases hoccupied : s.gens.lookup (n + 1) with
  | none =>
    rw [hoccupied] at hfirst
    rw [hfirst]
    refine (hheld _ hfirst).trans ?_
    exact hidle (by simp [parks, hoccupied])
  | some oldest =>
    rw [hoccupied] at hfirst
    rw [hfirst]
    cases hfails : f.shift (n + 1) with
    | true => exact hidle (by simp [parks, hfails])
    | false =>
      have hparks : parks f (n + 1) s.gens = true := by simp [parks, hoccupied, hfails]
      have hrename := lookup_rename (s.trim f (n + 1)) (n + 1) (n + 1 + 1) oldest
      simp only [Bool.false_eq_true, if_false]
      rw [hheld _ (by rw [hrename, if_neg (by omega), if_pos rfl]), hparks]
      constructor
      · rintro ⟨g, ⟨hg, hne⟩, hlookup⟩
        rw [hrename] at hlookup
        split_ifs at hlookup with hparked hlast
        · have hnot : ¬ aside := fun h => hne h hparked
          exact ⟨n + 1, hkeep, hoccupied.trans hlookup, by simp [hbelow, hnot]⟩
        · rw [htrim] at hlookup
          exact ⟨g, hg, hlookup.1, by simp [hparked, hlast, hlookup.2]⟩
      · rintro ⟨g, hg, hlookup, hkept⟩
        simp only [and_true, not_or, not_and] at hkept
        by_cases hlast : g = n + 1
        · refine ⟨n + 1 + 1, ⟨by omega, fun h => absurd h (hkept.1 hlast)⟩, ?_⟩
          rw [hrename, if_pos rfl, ← hoccupied, ← hlast, hlookup]
        · refine ⟨g, ⟨hg, fun _ => hkept.2.1⟩, ?_⟩
          rw [hrename, if_neg hkept.2.1, if_neg hlast, htrim]
          exact ⟨hlookup, hkept.2.2⟩

theorem finishStaged_log (s : Files) : (s.finishStaged f).1.log = s.log := by
  unfold finishStaged
  split_ifs
  · rfl
  · exact (compress_spec f.finish s).1
  · rfl

theorem stage_spec (s : Files) : (s.stage f keep).held = false ∧ (s.stage f keep).failed = true ∨
      (s.stage f keep).held = true ∧ (s.stage f keep).files.staged = some s.log ∧
      ∀ g text, 1 ≤ g → g < keep → (s.finishStaged f).1.gens.lookup g = some text →
        (s.stage f keep).files.gens.lookup (g + 1) = some text := by
  unfold stage
  dsimp only
  split_ifs with hcheck hfinished hok
  · exact .inl ⟨rfl, rfl⟩
  · exact .inl ⟨rfl, rfl⟩
  · exact .inl ⟨rfl, rfl⟩
  split
  · exact .inl ⟨rfl, rfl⟩
  · have hup := shiftBackups_done f keep _ (by simpa using hok)
    refine .inr ⟨rfl, congrArg some (hup.log.trans (finishStaged_log f s)),
      fun g text hpos hlt hg => ?_⟩
    rw [hup.up hpos (by omega), lookup_trim f keep (by omega), hg, Option.some_or]

theorem lookup_dropParked {parked : Bool} {g : Nat} (h : g ≤ keep) (s : Files) :
    (s.dropParked f keep parked).gens.lookup g = s.gens.lookup g := by
  unfold dropParked
  split
  · rw [GoMap.lookup_erase_ite, if_neg (by omega)]
  · rfl

theorem staged_dropParked {parked : Bool} (s : Files) :
    (s.dropParked f keep parked).staged = s.staged := by
  unfold dropParked
  split <;> rfl

theorem dropParked_held (parked : Bool) (s : Files) (text : Text) :
    Held (1 ≤ ·) (s.dropParked f keep parked).gens text ↔
      Held (fun g => 1 ≤ g ∧ (parked = true ∧ f.dropParked = false → g ≠ keep + 1)) s.gens text := by
  unfold dropParked Held
  refine exists_congr fun g => ?_
  dsimp only
  split
  next h =>
    rw [Bool.and_eq_true, Bool.not_eq_true'] at h
    rw [GoMap.lookup_erase_ite]
    simp [h, and_assoc]
  next h =>
    rw [Bool.and_eq_true, Bool.not_eq_true'] at h
    rw [and_iff_left fun hdrop => absurd hdrop h]

theorem finishStaged_spec (hopen : f.openStaged = false) (hbacks : backsUp f keep = true) (s : Files) :
    (s.finishStaged f).1.gens = s.before f keep ∧
      (s.finishStaged f).2 = !(s.staged.isNone || !f.finish.write && !f.finish.remove) := by
  unfold finishStaged before compress
  rw [hopen, hbacks]
  cases hstaged : s.staged with
  | none => simp
  | some text => cases hwrite : f.finish.write <;> cases hremove : f.finish.remove <;> simp

/-- What a round that cannot truncate leaves, once it has got to the shift. -/
theorem stage_held {shifted : Shift} (hcheck : f.checkDir = false)
    (hfinished : (s.finishStaged f).2 = false)
    (hshifted : (s.finishStaged f).1.shiftBackups f keep = shifted)
    (hfree : shifted.failed = false → shifted.files.gens.lookup 1 = none) (text : Text) :
    Held (1 ≤ ·) (if (s.stage f keep).held then
        (s.stage f keep).files.unstage f keep (s.stage f keep).parked
      else (s.stage f keep).files).gens text ↔ Held (fun g => 1 ≤ g ∧ (shifted.parked = true ∧
        (shifted.failed || f.createStaged.isSome || f.removeStaged) = true ∧ f.dropParked = false →
          g ≠ keep + 1)) shifted.files.gens text := by
  simp only [stage, hcheck, hfinished, hshifted, Bool.false_eq_true, if_false]
  cases hfailed : shifted.failed with
  | true => simpa using dropParked_held f keep shifted.parked shifted.files text
  | false =>
    cases hcreate : f.createStaged with
    | some left =>
      simpa using dropParked_held f keep shifted.parked { shifted.files with staged := left } text
    | none =>
      simp only [Bool.false_eq_true, if_false, if_true, Option.isSome_none, Bool.false_or, unstage]
      cases f.removeStaged with
      | true =>
        simpa using dropParked_held f keep shifted.parked
          { shifted.files with staged := some shifted.files.log } text
      | false =>
        simpa using unshiftBackups_held (s := { shifted.files with staged := none }) f keep
          shifted.parked (hfree hfailed) text

theorem rotate_idle (htruncate : f.truncate = true) (h : backsUp f keep = false) (s : Files) :
    (s.rotate f keep).files = s := by
  cases hopen : f.openByPath with
  | true => simp [rotate, hopen, htruncate]
  | false =>
    cases hscope : f.outOfScope with
    | true => simp [rotate, hopen, hscope]
    | false =>
      by_cases hkeep : 0 < keep
      · have hstage : s.stage f keep = ⟨s, false, false, true⟩ := by
          unfold stage finishStaged
          cases hcheck : f.checkDir with
          | true => rfl
          | false =>
            have hstaged : f.openStaged = true := by
              simpa [backsUp, hopen, hscope, hkeep, hcheck] using h
            rw [hstaged]
            rfl
        simp [rotate, hopen, hscope, htruncate, hkeep, hstage]
      · simp [rotate, hopen, hscope, htruncate, hkeep]

theorem rotate_held (htruncate : f.truncate = true) (s : Files) (text : Text) :
    Held (1 ≤ ·) (s.rotate f keep).files.gens text ↔
      ∃ g, 1 ≤ g ∧ (s.before f keep).lookup g = some text ∧
        ¬ (s.shifts f keep = true ∧ Lost f keep (s.before f keep) g) := by
  cases hbacks : backsUp f keep with
  | false =>
    have hbefore : s.before f keep = s.gens := by
      unfold before
      split <;> simp [hbacks]
    rw [rotate_idle f keep htruncate hbacks, hbefore]
    simp [shifts, hbacks, Held]
  | true =>
    obtain ⟨⟨⟨⟨hopen, hscope⟩, hkeep⟩, hcheck⟩, hstaged⟩ : (((f.openByPath = false ∧
        f.outOfScope = false) ∧ 0 < keep) ∧ f.checkDir = false) ∧ f.openStaged = false := by
      simpa [backsUp] using hbacks
    obtain ⟨hbefore, hfinished⟩ := finishStaged_spec f keep hstaged hbacks s
    have hfiles : (s.rotate f keep).files =
        if (s.stage f keep).held then (s.stage f keep).files.unstage f keep (s.stage f keep).parked
        else (s.stage f keep).files := by
      simp [rotate, hopen, hscope, hkeep, htruncate]
    rw [hfiles, ← hbefore]
    cases hcopy : s.staged.isNone || !f.finish.write && !f.finish.remove with
    | false =>
      have hstage : s.stage f keep = ⟨(s.finishStaged f).1, false, false, true⟩ := by
        simp [stage, hcheck, hfinished, hcopy]
      rw [hstage]
      simp [shifts, hcopy, Held]
    | true =>
      rw [hcopy] at hfinished
      cases hlookup : (List.range' 1 (keep + 1)).any f.lookup with
      | true =>
        have hshift : (s.finishStaged f).1.shiftBackups f keep = ⟨(s.finishStaged f).1, false, true⟩ :=
          if_pos hlookup
        rw [stage_held f keep hcheck hfinished hshift nofun]
        simp [shifts, hlookup, Held]
      | false =>
        have hparked : ((s.finishStaged f).1.shiftBackups f keep).parked =
            parks f keep (s.finishStaged f).1.gens := by
          simp [shiftBackups, hlookup, parks]
        have hshifts : s.shifts f keep = true := by simp [shifts, hbacks, hcopy, hlookup]
        rw [stage_held f keep hcheck hfinished rfl fun hok =>
          (shiftBackups_done f keep _ hok).up_free (.inl hkeep), hparked,
          shiftBackups_failed f keep hlookup, hshifts]
        simp only [true_and]
        exact shiftBackups_held f keep hlookup hkeep (fun h => h.1) text

theorem rotate_files (s : Files) (h : (s.rotate f keep).truncated = false) :
    f.truncate = true ∨ (s.rotate f keep).files = s := by
  by_cases htruncate : f.truncate = true
  · exact .inl htruncate
  right
  unfold rotate at h ⊢
  split at h
  next hscope => rw [if_pos hscope]
  next =>
    simp only [apply_ite Round.truncated, ite_self] at h
    cases h

theorem rotate_truncated (htruncate : f.truncate = true) (s : Files) :
    (s.rotate f keep).truncated = false := by
  unfold rotate
  simp only [htruncate, if_true]
  split <;> rfl

theorem rotate_succeeds (s : Files) (htruncated : (s.rotate f keep).truncated = true)
    (hok : (s.rotate f keep).failed = false) (hkeep : 1 ≤ keep) :
    (s.rotate f keep).files.gens.lookup 1 = some s.log ∧
      ∀ g text, 1 ≤ g → g < keep → (s.finishStaged f).1.gens.lookup g = some text →
        (s.rotate f keep).files.gens.lookup (g + 1) = some text := by
  unfold rotate at htruncated hok ⊢
  split at htruncated
  · cases htruncated
  next hscope =>
    rw [if_neg hscope] at hok ⊢
    by_cases hopen : f.openByPath = true
    · simp only [if_pos hopen] at htruncated hok
      split at htruncated
      · cases htruncated
      next htruncate => simp [if_neg htruncate] at hok
    simp only [if_neg hopen, if_pos (show 0 < keep from hkeep)] at htruncated hok ⊢
    split at htruncated
    · cases htruncated
    next htruncate =>
      rw [if_neg htruncate] at hok ⊢
      rcases stage_spec f keep s with ⟨hheld, hfailed⟩ | ⟨hheld, hstaged, hgens⟩
      · simp [hheld, hfailed] at hok
      · rw [hheld] at hok ⊢
        simp only [if_true] at hok ⊢
        rcases (compress_spec f.compress _).2 with ⟨-, hfailed⟩ | ⟨text, htext, heq⟩
        · exact absurd (hfailed.symm.trans hok) (by decide)
        rw [staged_dropParked, hstaged] at htext
        rw [heq, ← Option.some.inj htext]
        refine ⟨AList.lookup_insert _, fun g text hpos hlt hg => ?_⟩
        rw [GoMap.lookup_insert_ite, if_neg (by omega), lookup_dropParked f keep (by omega)]
        exact hgens g text hpos hlt hg

/-- A round that does not truncate the log keeps the content of every generation, and one that
succeeds leaves the log's old text in generation 1 and the generations after it one up,
exactly if a failing truncation finds the generations spared. -/
theorem history_kept (f : Faults) (keep : Nat) (s : Files) :
    let r := s.rotate f keep
    ((r.truncated = false → ∀ g text, 1 ≤ g → g ≤ keep → s.gens.lookup g = some text →
        ∃ g', 1 ≤ g' ∧ r.files.gens.lookup g' = some text) ∧
      (r.truncated = true → r.failed = false → 1 ≤ keep →
        r.files.gens.lookup 1 = some s.log ∧
        ∀ g text, 1 ≤ g → g < keep → (s.finishStaged f).1.gens.lookup g = some text →
          r.files.gens.lookup (g + 1) = some text)) ↔
    (f.truncate = true → s.Spared f keep) := by
  intro r
  constructor
  · intro h htruncate g text hpos hle hg
    exact (rotate_held f keep htruncate s text).mp
      (h.1 (rotate_truncated f keep htruncate s) g text hpos hle hg)
  · refine fun hspared => ⟨fun htruncated g text hpos hle hg => ?_, rotate_succeeds f keep s⟩
    rcases rotate_files f keep s htruncated with htruncate | hfiles
    · exact (rotate_held f keep htruncate s text).mpr (hspared htruncate g text hpos hle hg)
    · exact ⟨g, hpos, by rw [show r.files = s from hfiles, hg]⟩

theorem sample_kept :
    ∃ g, 1 ≤ g ∧ (sample.rotate { truncate := true } 2).files.gens.lookup g = some [2] := by
  refine ((history_kept { truncate := true } 2 sample).mpr fun _ g text hpos hle hg => ?_).1
    (by decide) 2 [2] (by decide) (by decide) (by decide)
  refine ⟨g, hpos, hg, fun hlost => ?_⟩
  rcases hlost.2 with ⟨-, -, hstuck, -⟩ | ⟨hparked, -⟩ | hremoved
  · exact absurd hstuck (by decide)
  · omega
  · exact absurd hremoved.1 (by omega)

/-- With the copy failing too, the oldest generation is dropped and the log not truncated. -/
theorem oldest_lost :
    let r := sample.rotate { truncate := true, createStaged := some none } 2
    sample.gens.lookup 2 = some [2] ∧ r.truncated = false ∧ ∀ g, r.files.gens.lookup g = none := by
  intro r
  have hgens : r.files.gens.entries = [] := by decide
  refine ⟨by decide, by decide, fun g => ?_⟩
  rw [AList.lookup, hgens]
  rfl

end

end Files

end PilotProtocol.Logcap
