import Mathlib.Logic.Function.Basic
import PilotProtocol.Library.Run

/-! # The cache of the catalogue's pins

Every `Refresh` writes the pins it fetched to the same temporary file and renames it to the
cache. Another `Refresh` that has opened the temporary file before then goes on writing to the
renamed file.
-/

namespace PilotProtocol.Catalogue

open Library

abbrev Bytes := List UInt8

/-- Writing past the end fills the gap with zeros. -/
def writeAt (content : Bytes) (offset : Nat) (data : Bytes) : Bytes :=
  content.take offset ++ List.replicate (offset - content.length) 0 ++ data ++
    content.drop (offset + data.length)

/-- The name under which an open file is found. -/
inductive Name
  | tmp
  | cache
  | none

/-- How far a call of `Refresh` is. -/
inductive Point (Pins : Type)
  | idle
  | loading
  | fetched (pins : Pins)
  | writing (pins : Pins) (file : Name) (offset : Nat)

namespace Point

variable {Pins : Type}

def writes : Point Pins → Bool
  | .writing _ _ _ => true
  | _ => false

def renamed : Point Pins → Point Pins
  | .writing pins .tmp offset => .writing pins .cache offset
  | .writing pins .cache offset => .writing pins .none offset
  | p => p

theorem renamed_of_quiet {p : Point Pins} (h : p.writes = false) : p.renamed = p := by
  cases p with
  | writing pins file offset => cases h
  | _ => rfl

end Point

/-- What is in the two files, if there are any; `loaded` are the pin sets that were fetched. -/
structure System (Pins : Type) where
  tmp : Option Bytes
  cache : Option Bytes
  calls : Nat → Point Pins
  loaded : List Pins

/-- The steps of call `i`, each with whether the operation succeeds. -/
inductive Input (Pins : Type)
  | refresh (i : Nat)
  | loadPublishers (i : Nat) (answer : Option Pins)
  | openTmp (i : Nat) (ok : Bool)
  | write (i n : Nat) (ok : Bool)
  | rename (i : Nat) (ok : Bool)
  | crash

namespace System

variable {Pins : Type}

def empty : System Pins := ⟨none, none, fun _ => .idle, []⟩

def goto (s : System Pins) (i : Nat) (p : Point Pins) : System Pins :=
  { s with calls := Function.update s.calls i p }

def write (s : System Pins) (file : Name) (offset : Nat) (data : Bytes) : System Pins :=
  match file with
  | .tmp => { s with tmp := s.tmp.map (writeAt · offset data) }
  | .cache => { s with cache := s.cache.map (writeAt · offset data) }
  | .none => s

def rename (s : System Pins) : System Pins :=
  if s.tmp.isSome then
    { s with tmp := none, cache := s.tmp, calls := fun i => (s.calls i).renamed }
  else s

variable (marshal : Pins → Bytes)

def step (s : System Pins) : Input Pins → System Pins
  | .refresh i =>
    match s.calls i with
    | .idle => s.goto i .loading
    | _ => s
  | .loadPublishers i answer =>
    match s.calls i, answer with
    | .loading, none => s.goto i .idle
    | .loading, some pins => { s.goto i (.fetched pins) with loaded := pins :: s.loaded }
    | _, _ => s
  | .openTmp i ok =>
    match s.calls i with
    | .fetched pins =>
      if ok then { s.goto i (.writing pins .tmp 0) with tmp := some [] } else s.goto i .idle
    | _ => s
  | .write i n ok =>
    match s.calls i with
    | .writing pins file offset =>
      let data := ((marshal pins).drop offset).take n
      if ok then (s.write file offset data).goto i (.writing pins file (offset + data.length))
      else s.goto i .idle
    | _ => s
  | .rename i ok =>
    match s.calls i with
    | .writing pins _ offset =>
      if offset < (marshal pins).length then s
      else if ok then s.rename.goto i .idle
      else s.goto i .idle
    | _ => s
  | .crash => { s with calls := fun _ => .idle }

/-- The cache is absent, or holds all of the pins that some call fetched. -/
def Whole (s : System Pins) : Prop :=
  ∀ data, s.cache = some data → ∃ pins ∈ s.loaded, data = marshal pins

/-- No call opens the temporary file while another writes. -/
def InTurn (s : System Pins) : Input Pins → Prop
  | .openTmp _ _ => ∀ j, (s.calls j).writes = false
  | _ => True

def Fits (s : System Pins) : Point Pins → Prop
  | .fetched pins => pins ∈ s.loaded
  | .writing pins file offset => pins ∈ s.loaded ∧ file = .tmp ∧ offset ≤ (marshal pins).length ∧
      s.tmp = some ((marshal pins).take offset)
  | _ => True

structure Inv (s : System Pins) : Prop where
  whole : s.Whole marshal
  fits : ∀ i, s.Fits marshal (s.calls i)
  alone : ∀ i j, (s.calls i).writes = true → (s.calls j).writes = true → i = j

variable {marshal} {s s' : System Pins} {i : Nat}

theorem Inv.others (h : s.Inv marshal) (hi : (s.calls i).writes = true) (j : Nat) (hj : j ≠ i) :
    (s.calls j).writes = false := by
  cases hw : (s.calls j).writes with
  | false => rfl
  | true => exact absurd (h.alone j i hw hi) hj

/-- Call `i` moves to `p`, and either the other calls do not write, or `i` does not and leaves
the temporary file as it is. -/
theorem Inv.move {p : Point Pins} (h : s.Inv marshal) (hwhole : s'.Whole marshal)
    (hcalls : s'.calls = Function.update s.calls i p) (hloaded : s.loaded ⊆ s'.loaded)
    (hp : s'.Fits marshal p)
    (hothers : (∀ j, j ≠ i → (s.calls j).writes = false) ∨ s'.tmp = s.tmp ∧ p.writes = false) :
    s'.Inv marshal := by
  have hfits (j : Nat) (hj : j ≠ i) : s'.Fits marshal (s.calls j) := by
    have hfit := h.fits j
    cases hcall : s.calls j with
    | fetched pins =>
      rw [hcall] at hfit
      exact hloaded hfit
    | writing pins file offset =>
      rw [hcall] at hfit
      obtain hquiet | ⟨htmp, -⟩ := hothers
      · cases hcall ▸ hquiet j hj
      · exact ⟨hloaded hfit.1, htmp ▸ hfit.2⟩
    | _ => trivial
  refine ⟨hwhole, fun j => ?_, fun j k => ?_⟩
  · rw [hcalls, Function.update_apply]
    split
    · exact hp
    next hj => exact hfits j hj
  · have halone := h.alone j k
    rw [hcalls, Function.update_apply, Function.update_apply]
    grind

theorem Inv.goto (h : s.Inv marshal) {p : Point Pins} (hp : p.writes = false)
    (hfit : s.Fits marshal p) : (s.goto i p).Inv marshal := by
  refine h.move (show (s.goto i p).Whole marshal from h.whole) rfl (fun _ => id) ?_ (.inr ⟨rfl, hp⟩)
  cases p with
  | writing pins file offset => cases hp
  | _ => exact hfit

theorem writeAt_take (data : Bytes) {offset : Nat} (n : Nat) (hle : offset ≤ data.length) :
    writeAt (data.take offset) offset ((data.drop offset).take n) =
      data.take (offset + ((data.drop offset).take n).length) := by
  simp [writeAt, hle, List.take_add, List.take_take, List.drop_eq_nil_of_le]

theorem Inv.step (h : s.Inv marshal) (input : Input Pins) (hturn : s.InTurn input) :
    (s.step marshal input).Inv marshal := by
  cases input <;> unfold System.step <;> dsimp only
  case crash => exact ⟨h.whole, fun _ => trivial, nofun⟩
  case refresh i =>
    split
    · exact h.goto rfl trivial
    · exact h
  case loadPublishers i answer =>
    split
    · exact h.goto rfl trivial
    · refine h.move (fun data hdata => ?_) rfl (List.subset_cons_self _ _) (.head _)
        (.inr ⟨rfl, rfl⟩)
      obtain ⟨pins, hpins, hmarshal⟩ := h.whole data hdata
      exact ⟨pins, .tail _ hpins, hmarshal⟩
    · exact h
  case openTmp i ok =>
    split
    next pins hcall =>
      have hpins : s.Fits marshal (.fetched pins) := hcall ▸ h.fits i
      split
      · exact h.move h.whole rfl (fun _ => id) ⟨hpins, rfl, Nat.zero_le _, rfl⟩
          (.inl fun j _ => hturn j)
      · exact h.goto rfl trivial
    · exact h
  case write i n ok =>
    split
    next pins file offset hcall =>
      obtain ⟨hpins, rfl, hle, htmp⟩ : s.Fits marshal (.writing pins file offset) :=
        hcall ▸ h.fits i
      split
      · refine h.move h.whole rfl (fun _ => id) ⟨hpins, rfl, ?_, ?_⟩
          (.inl (h.others (by rw [hcall]; rfl)))
        · simp
          omega
        · show s.tmp.map _ = _
          rw [htmp, Option.map_some, writeAt_take _ n hle]
      · exact h.goto rfl trivial
    · exact h
  case rename i ok =>
    split
    next pins file offset hcall =>
      have hothers := h.others (i := i) (by rw [hcall]; rfl)
      obtain ⟨hpins, rfl, hle, htmp⟩ : s.Fits marshal (.writing pins file offset) :=
        hcall ▸ h.fits i
      split
      · exact h
      next hend =>
        split
        · rw [List.take_of_length_le (Nat.le_of_not_lt hend)] at htmp
          have hcalls : Function.update (fun j => (s.calls j).renamed) i .idle =
              Function.update s.calls i .idle := by
            funext j
            simp only [Function.update_apply]
            split
            · rfl
            next hj => exact Point.renamed_of_quiet (hothers j hj)
          rw [rename, htmp]
          refine h.move (fun data hdata => ⟨pins, hpins, ?_⟩) hcalls (fun _ => id) trivial
            (.inl hothers)
          cases hdata
          rfl
        · exact h.goto rfl trivial
    · exact h

/-- If no two calls write at the same time, the cache is absent or complete at every moment, so
also when no call is running and after a crash. -/
theorem cache_whole_in_turn (marshal : Pins → Bytes) (inputs : List (Input Pins))
    (hturn : AllSteps (step marshal) InTurn empty inputs) :
    (inputs.foldl (step marshal) empty).Whole marshal := by
  have hinv : (inputs.foldl (step marshal) empty).Inv marshal :=
    run_invariant (Inv marshal) (fun s i h hi => h.step i hi) ⟨nofun, fun _ => trivial, nofun⟩ hturn
  exact hinv.whole

def bothLoaded : List (Input Bytes) :=
  [.refresh 0, .loadPublishers 0 (some [1, 2]), .refresh 1, .loadPublishers 1 (some [3])]

/-- Two calls that overlap before they write. -/
theorem second_call_replaces :
    let inputs := bothLoaded ++ [.openTmp 0 true, .write 0 1 true, .write 0 1 true, .rename 0 true,
      .openTmp 1 true, .write 1 5 true, .rename 1 true]
    let s := inputs.foldl (step id) empty
    s.Whole id ∧ s.cache = some [3] := by
  refine ⟨cache_whole_in_turn id _ ⟨trivial, trivial, trivial, trivial, fun j => ?_, trivial, trivial,
    trivial, fun j => ?_, trivial, trivial, trivial⟩, rfl⟩
  all_goals
    match j with
    | 0 | 1 | _ + 2 => rfl

/-- The second call has opened the temporary file before the first is done, and writes to the
file that the first has renamed. -/
theorem cache_torn :
    let inputs := bothLoaded ++ [.openTmp 0 true, .openTmp 1 true, .write 0 2 true, .rename 0 true,
      .write 1 1 true, .rename 1 true]
    let s := inputs.foldl (step id) empty
    (∀ i, s.calls i = .idle) ∧ s.cache = some [3, 2] ∧ s.loaded = [[3], [1, 2]] := by
  refine ⟨fun i => ?_, rfl, rfl⟩
  match i with
  | 0 | 1 | _ + 2 => rfl

end System

end PilotProtocol.Catalogue
