import Mathlib.Algebra.Order.Ring.Nat
import Mathlib.Data.List.Basic

/-! # Runs of a deterministic machine

A machine is a step function from a state and an input to the next state; a run
is the left fold of its inputs. With the rules below an invariant is proved for
one step and read off at every prefix, and a two-run property is proved for one
step of each side and read off at the end.
-/

namespace PilotProtocol.Library

variable {σ τ ι κ : Type*}

/-- Every input meets `ok` in the state it is applied to. -/
def AllSteps (step : σ → ι → σ) (ok : σ → ι → Prop) : σ → List ι → Prop
  | _, [] => True
  | s, i :: rest => ok s i ∧ AllSteps step ok (step s i) rest

@[simp] theorem allSteps_nil (step : σ → ι → σ) (ok : σ → ι → Prop) (s : σ) :
    AllSteps step ok s [] := trivial

@[simp] theorem allSteps_cons {step : σ → ι → σ} {ok : σ → ι → Prop} {s : σ} {i : ι}
    {rest : List ι} :
    AllSteps step ok s (i :: rest) ↔ ok s i ∧ AllSteps step ok (step s i) rest := Iff.rfl

instance instDecidableAllSteps (step : σ → ι → σ) (ok : σ → ι → Prop) [∀ s i, Decidable (ok s i)] :
    ∀ s inputs, Decidable (AllSteps step ok s inputs)
  | _, [] => .isTrue trivial
  | s, i :: rest =>
    have := instDecidableAllSteps step ok (step s i) rest
    inferInstanceAs (Decidable (ok s i ∧ AllSteps step ok (step s i) rest))

variable {step : σ → ι → σ} {ok : σ → ι → Prop} {s : σ} {inputs : List ι}

theorem AllSteps.and {ok' : σ → ι → Prop} (h : AllSteps step ok s inputs)
    (h' : AllSteps step ok' s inputs) : AllSteps step (fun s i => ok s i ∧ ok' s i) s inputs := by
  induction inputs generalizing s with
  | nil => trivial
  | cons i rest ih => exact ⟨⟨h.1, h'.1⟩, ih h.2 h'.2⟩

theorem AllSteps.imp {ok' : σ → ι → Prop} (h : AllSteps step ok s inputs)
    (himp : ∀ s i, ok s i → ok' s i) : AllSteps step ok' s inputs := by
  induction inputs generalizing s with
  | nil => trivial
  | cons i rest ih => exact ⟨himp s i h.1, ih h.2⟩

theorem allSteps_of_inputs {P : ι → Prop} (step : σ → ι → σ) (s : σ) (h : ∀ i ∈ inputs, P i) :
    AllSteps step (fun _ i => P i) s inputs := by
  induction inputs generalizing s with
  | nil => trivial
  | cons i rest ih => exact ⟨h i (.head _), ih _ fun j hj => h j (List.mem_cons_of_mem i hj)⟩

theorem allSteps_append {first second : List ι} : AllSteps step ok s (first ++ second) ↔
      AllSteps step ok s first ∧ AllSteps step ok (first.foldl step s) second := by
  induction first generalizing s with
  | nil => simp
  | cons i rest ih => simp [ih, and_assoc]

theorem AllSteps.take {start : List ι} (h : AllSteps step ok s inputs) (hp : start <+: inputs) :
    AllSteps step ok s start := by
  obtain ⟨rest, rfl⟩ := hp
  exact (allSteps_append.mp h).1

theorem run_invariant (Inv : σ → Prop) (hstep : ∀ s i, Inv s → ok s i → Inv (step s i)) (hs : Inv s)
    (hok : AllSteps step ok s inputs) : Inv (inputs.foldl step s) := by
  induction inputs generalizing s with
  | nil => exact hs
  | cons i rest ih => exact ih (hstep s i hs hok.1) hok.2

theorem run_invariant_all (Inv : σ → Prop) (hstep : ∀ s i, Inv s → Inv (step s i)) (inputs : List ι)
    (hs : Inv s) : Inv (inputs.foldl step s) := by
  induction inputs generalizing s with
  | nil => exact hs
  | cons i rest ih => exact ih (hstep s i hs)

theorem run_every_step {Inv : σ → Prop} {Good : σ → ι → Prop}
    (hstep : ∀ s i, Inv s → ok s i → Inv (step s i)) (hgood : ∀ s i, Inv s → ok s i → Good s i)
    (hs : Inv s) (hok : AllSteps step ok s inputs) : AllSteps step Good s inputs := by
  induction inputs generalizing s with
  | nil => trivial
  | cons i rest ih => exact ⟨hgood s i hs hok.1, ih (hstep s i hs hok.1) hok.2⟩

theorem run_log_extends {α : Type*} {log : σ → List α} (hext : ∀ s i, log s <+: log (step s i))
    (s : σ) (inputs : List ι) : log s <+: log (inputs.foldl step s) := by
  induction inputs generalizing s with
  | nil => exact List.prefix_rfl
  | cons i rest ih => exact (hext s i).trans (ih (step s i))

/-- The entries that a state's log has beyond an earlier log. -/
def newEntries {α : Type*} (before after : List α) : List α := after.drop before.length

theorem newEntries_append {α : Type*} (before added : List α) :
    newEntries before (before ++ added) = added := by
  simp [newEntries]

/-- The log has grown by entries that satisfy `P`. -/
def Appends {α : Type*} (P : α → Prop) (before after : List α) : Prop :=
  ∃ added, after = before ++ added ∧ ∀ a ∈ added, P a

namespace Appends

variable {α : Type*} {P : α → Prop} {before after last : List α}

theorem of_eq (h : after = before) : Appends P before after :=
  ⟨[], by rw [h, List.append_nil], nofun⟩

theorem single {a : α} (h : P a) : Appends P before (before ++ [a]) :=
  ⟨[a], rfl, fun _ ha => List.mem_singleton.mp ha ▸ h⟩

theorem trans (h : Appends P before after) (h' : Appends P after last) : Appends P before last := by
  obtain ⟨added, rfl, hadded⟩ := h
  obtain ⟨added', rfl, hadded'⟩ := h'
  refine ⟨added ++ added', List.append_assoc before added added', fun a ha => ?_⟩
  rcases List.mem_append.mp ha with ha | ha
  · exact hadded a ha
  · exact hadded' a ha

theorem new (h : Appends P before after) : ∀ a ∈ newEntries before after, P a := by
  obtain ⟨added, rfl, hadded⟩ := h
  rwa [newEntries_append]

end Appends

theorem allSteps_of_log {α : Type*} {log : σ → List α} {P : α → Prop}
    (hext : ∀ s i, log s <+: log (step s i))
    (h : ∀ c ∈ newEntries (log s) (log (inputs.foldl step s)), P c) :
    AllSteps step (fun s i => ∀ c ∈ newEntries (log s) (log (step s i)), P c) s inputs := by
  induction inputs generalizing s with
  | nil => trivial
  | cons i rest ih =>
    obtain ⟨added, hadded⟩ := hext s i
    obtain ⟨later, hlater⟩ := run_log_extends hext (step s i) rest
    rw [List.foldl_cons, ← hlater, ← hadded, List.append_assoc, newEntries_append] at h
    refine ⟨?_, ih ?_⟩
    · intro c hc
      rw [← hadded, newEntries_append] at hc
      exact h c (List.mem_append_left later hc)
    · intro c hc
      rw [← hlater, newEntries_append] at hc
      exact h c (List.mem_append_right added hc)

/-- Two runs over the same list of labels, the second one skipping the labels in
`hidden`: a relation that a hidden step on the left keeps, and that a visible
step on both sides keeps, relates the two final states. -/
theorem run_purge {hidden : ι → Bool} (ok : ι → Prop) (R : σ → σ → Prop)
    (hhidden : ∀ s t i, ok i → hidden i = true → R s t → R (step s i) t)
    (hvisible : ∀ s t i, hidden i = false → R s t → R (step s i) (step t i)) {t : σ}
    (hok : ∀ i ∈ inputs, ok i) (h : R s t) :
    R (inputs.foldl step s) ((inputs.filter fun i => !hidden i).foldl step t) := by
  induction inputs generalizing s t with
  | nil => exact h
  | cons i rest ih =>
    have hrest : ∀ j ∈ rest, ok j := fun j hj => hok j (List.mem_cons_of_mem i hj)
    cases hi : hidden i with
    | true =>
      have hstep := hhidden s t i (hok i (.head _)) hi h
      simpa [List.filter_cons, hi] using ih hrest hstep
    | false => simpa [List.filter_cons, hi] using ih hrest (hvisible s t i hi h)

end PilotProtocol.Library
