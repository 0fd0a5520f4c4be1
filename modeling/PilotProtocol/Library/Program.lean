import Mathlib.Data.List.Basic

/-! # Programs of fallible operations

A program is a tree of operations: each asks the machine for one operation and
goes on with its answer. A machine executes an operation under a choice, which
stands for everything the program cannot know (whether the operation fails, what
others do meanwhile), and says through which states the operation passes. A run
takes one choice for each operation and ends where the choices end, so every
prefix of a run is a run that stopped there.

`wp` is the weakest precondition of a program under a condition on choices and an
invariant of every state passed through; its rules follow the program.
-/

namespace PilotProtocol.Library

/-- Programs over the operations `F`, where `F β` are the operations that answer a `β`. -/
inductive Prog (F : Type → Type) (α : Type) : Type 1
  | pure (a : α)
  | op {β : Type} (o : F β) (k : β → Prog F α)

namespace Prog

variable {F : Type → Type} {α β : Type}

def bind : Prog F α → (α → Prog F β) → Prog F β
  | .pure a, f => f a
  | .op o k, f => .op o fun b => (k b).bind f

instance : Monad (Prog F) where
  pure := .pure
  bind := .bind

def call (o : F α) : Prog F α := .op o .pure

/-- Goes on with what a step answered, unless the step failed. -/
def andOk {ε : Type} (p : Prog F (Except ε α)) (f : α → Prog F (Except ε β)) :
    Prog F (Except ε β) :=
  p >>= fun
    | .ok a => f a
    | .error e => Pure.pure (.error e)

/-- Every operation the program can come to satisfies `P`, and every result `A`, whatever
the operations answer. -/
def Sat (P : ∀ β, F β → Prop) (A : α → Prop) : Prog F α → Prop
  | .pure a => A a
  | .op o k => P _ o ∧ ∀ b, (k b).Sat P A

abbrev Within (P : ∀ β, F β → Prop) (p : Prog F α) : Prop := p.Sat P fun _ => True

section

variable {P P' : ∀ β, F β → Prop} {A A' : α → Prop} {B : β → Prop}

theorem sat_call {o : F α} (h : P α o) : (call o).Within P := ⟨h, fun _ => trivial⟩

theorem sat_bind {p : Prog F α} {f : α → Prog F β} (hp : p.Sat P A)
    (hf : ∀ a, A a → (f a).Sat P B) : (p >>= f).Sat P B := by
  induction p with
  | pure a => exact hf a hp
  | op o k ih => exact ⟨hp.1, fun b => ih b (hp.2 b)⟩

theorem sat_call_bind {o : F α} {f : α → Prog F β} (h : P α o) (hf : ∀ a, (f a).Sat P B) :
    (call o >>= f).Sat P B := ⟨h, hf⟩

theorem sat_try {ε : Type} {p : Prog F (Except ε α)} {f : Except ε α → Prog F β}
    (hp : p.Within P) (herror : ∀ e, (f (.error e)).Sat P B)
    (hok : ∀ a, (f (.ok a)).Sat P B) : (p >>= f).Sat P B := by
  apply sat_bind hp
  intro r _
  cases r with
  | error e => exact herror e
  | ok a => exact hok a

theorem sat_map {p : Prog F α} {f : α → β} (hp : p.Sat P A) (hf : ∀ a, A a → B (f a)) :
    (f <$> p).Sat P B := sat_bind hp hf

theorem sat_andOk {ε : Type} {p : Prog F (Except ε α)} {f : α → Prog F (Except ε β)}
    (hp : p.Within P) (hf : ∀ a, (f a).Within P) : (p.andOk f).Within P := by
  refine sat_bind hp fun r _ => ?_
  cases r with
  | ok a => exact hf a
  | error e => trivial

theorem sat_foldlM {f : β → α → Prog F β} {xs : List α}
    (h : ∀ b, B b → ∀ x ∈ xs, (f b x).Sat P B) {b : β} (hb : B b) : (xs.foldlM f b).Sat P B := by
  induction xs generalizing b with
  | nil => exact hb
  | cons x rest ih =>
    exact sat_bind (h b hb x (.head _)) fun b' hb' =>
      ih (fun b hb y hy => h b hb y (List.mem_cons_of_mem x hy)) hb'

end

end Prog

/-- Executes an operation under a choice: the answer, and the states passed through. -/
structure Machine (F : Type → Type) (σ γ : Type) where
  exec : ∀ {β : Type}, γ → F β → σ → β × List σ

/-- How a run ends: `result` is `none` for a run whose choices ended first. -/
structure Ended (σ α : Type) where
  moments : List σ
  final : σ
  result : Option α

namespace Machine

variable {F : Type → Type} {σ γ α β : Type} (M : Machine F σ γ)

def after (c : γ) (o : F β) (s : σ) : σ := (M.exec c o s).2.getLastD s

def run : Prog F α → List γ → σ → Ended σ α
  | .pure a, _, s => ⟨[], s, some a⟩
  | .op _ _, [], s => ⟨[], s, none⟩
  | .op o k, c :: cs, s =>
    let rest := run (k (M.exec c o s).1) cs (M.after c o s)
    { rest with moments := (M.exec c o s).2 ++ rest.moments }

/-- Every choice of the run meets `ok` where it is made. -/
def Meets (ok : ∀ β, γ → F β → σ → Prop) : Prog F α → List γ → σ → Prop
  | .pure _, _, _ => True
  | .op _ _, [], _ => True
  | .op o k, c :: cs, s => ok _ c o s ∧ Meets ok (k (M.exec c o s).1) cs (M.after c o s)

instance instDecidableMeets (ok : ∀ β, γ → F β → σ → Prop)
    [∀ β c (o : F β) s, Decidable (ok β c o s)] :
    ∀ (p : Prog F α) (cs : List γ) (s : σ), Decidable (M.Meets ok p cs s)
  | .pure _, _, _ => .isTrue trivial
  | .op _ _, [], _ => .isTrue trivial
  | .op o k, c :: cs, s =>
    have := instDecidableMeets ok (k (M.exec c o s).1) cs (M.after c o s)
    inferInstanceAs (Decidable (ok _ c o s ∧
      M.Meets ok (k (M.exec c o s).1) cs (M.after c o s)))

/-- Whatever choices meet `ok`, every state passed through satisfies `I`, and `Q` holds of
the result and the last state. -/
def wp (ok : ∀ β, γ → F β → σ → Prop) (I : σ → Prop) : Prog F α → (α → σ → Prop) → σ → Prop
  | .pure a, Q, s => Q a s
  | .op o k, Q, s => ∀ c, ok _ c o s →
      (∀ m ∈ (M.exec c o s).2, I m) ∧ wp ok I (k (M.exec c o s).1) Q (M.after c o s)

section

variable {M} {ok : ∀ β, γ → F β → σ → Prop} {I : σ → Prop} {Q Q' : α → σ → Prop} {s : σ}

/-! ## Rules -/

variable {p : Prog F α}

theorem wp_bind {f : α → Prog F β} {Q : β → σ → Prop} :
    M.wp ok I (p >>= f) Q s ↔ M.wp ok I p (fun a s => M.wp ok I (f a) Q s) s := by
  induction p generalizing s with
  | pure a => exact Iff.rfl
  | op o k ih =>
    constructor
    · intro h c hc
      exact ⟨(h c hc).1, (ih _).mp (h c hc).2⟩
    · intro h c hc
      exact ⟨(h c hc).1, (ih _).mpr (h c hc).2⟩

theorem wp_map {f : α → β} {Q : β → σ → Prop} :
    M.wp ok I (f <$> p) Q s ↔ M.wp ok I p (fun a s => Q (f a) s) s := wp_bind

theorem wp_mono (h : M.wp ok I p Q s) (hQ : ∀ a s, Q a s → Q' a s) : M.wp ok I p Q' s := by
  induction p generalizing s with
  | pure a => exact hQ a s h
  | op o k ih => exact fun c hc => ⟨(h c hc).1, ih _ (h c hc).2⟩

theorem wp_weaken {ok' : ∀ β, γ → F β → σ → Prop} {I' : σ → Prop} (h : M.wp ok I p Q s)
    (hI : ∀ s, I s → I' s) (hok : ∀ β c (o : F β) s, ok' β c o s → ok β c o s) :
    M.wp ok' I' p Q s := by
  induction p generalizing s with
  | pure a => exact h
  | op o k ih =>
    intro c hc
    obtain ⟨hmoments, hrest⟩ := h c (hok _ c o s hc)
    exact ⟨fun m hm => hI m (hmoments m hm), ih _ hrest⟩

theorem getLastD_of_forall {P : σ → Prop} {ms : List σ} (hs : P s) (hms : ∀ m ∈ ms, P m) :
    P (ms.getLastD s) := by
  cases ms with
  | nil => exact hs
  | cons m rest =>
    rw [List.getLastD_cons]
    exact hms _ List.getLastD_mem_cons

theorem wp_of_sat {K : σ → Prop} {A : α → Prop}
    (h : p.Sat (fun β o => ∀ c s, ok β c o s → K s → ∀ m ∈ (M.exec c o s).2, K m) A) (hs : K s) :
    M.wp ok K p (fun a s => A a ∧ K s) s := by
  induction p generalizing s with
  | pure a => exact ⟨h, hs⟩
  | op o k ih =>
    intro c hc
    have hmoments := h.1 c s hc hs
    exact ⟨hmoments, ih _ (h.2 _) (getLastD_of_forall hs hmoments)⟩

/-! ## Adequacy -/

theorem run_of_wp {cs : List γ} (h : M.wp ok I p Q s) (hs : I s) (hmeets : M.Meets ok p cs s) :
    (∀ m ∈ (M.run p cs s).moments, I m) ∧ I (M.run p cs s).final ∧
      ∀ a, (M.run p cs s).result = some a → Q a (M.run p cs s).final := by
  induction p generalizing s cs with
  | pure a =>
    refine ⟨nofun, hs, fun b hb => ?_⟩
    cases hb
    exact h
  | op o k ih =>
    cases cs with
    | nil => exact ⟨nofun, hs, nofun⟩
    | cons c cs =>
      obtain ⟨hmoments, hrest⟩ := h c hmeets.1
      have hnext : I (M.after c o s) := getLastD_of_forall hs hmoments
      obtain ⟨hlater, hfinal, hpost⟩ := ih _ hrest hnext hmeets.2
      refine ⟨fun m hm => ?_, hfinal, hpost⟩
      obtain hm | hm := List.mem_append.mp hm
      · exact hmoments m hm
      · exact hlater m hm

end

/-! ## Programs one after another -/

/-- Runs each program from where the one before it ended or stopped: the states passed
through, and the last state. -/
def runs : List (Prog F α × List γ) → σ → List σ × σ
  | [], s => ([], s)
  | (p, cs) :: rest, s =>
    let r := M.run p cs s
    let later := runs rest r.final
    (r.moments ++ later.1, later.2)

/-- Every choice of every run meets `ok`. -/
def MeetsAll (ok : ∀ β, γ → F β → σ → Prop) : List (Prog F α × List γ) → σ → Prop
  | [], _ => True
  | (p, cs) :: rest, s => M.Meets ok p cs s ∧ MeetsAll ok rest (M.run p cs s).final

instance instDecidableMeetsAll (ok : ∀ β, γ → F β → σ → Prop)
    [∀ β c (o : F β) s, Decidable (ok β c o s)] :
    ∀ (jobs : List (Prog F α × List γ)) (s : σ), Decidable (M.MeetsAll ok jobs s)
  | [], _ => .isTrue trivial
  | (p, cs) :: rest, s =>
    have := instDecidableMeetsAll ok rest (M.run p cs s).final
    inferInstanceAs (Decidable (M.Meets ok p cs s ∧ M.MeetsAll ok rest (M.run p cs s).final))

theorem runs_of_wp {ok : ∀ β, γ → F β → σ → Prop} {I : σ → Prop}
    {jobs : List (Prog F α × List γ)} {s : σ}
    (h : ∀ job ∈ jobs, ∀ s, I s → M.wp ok I job.1 (fun _ _ => True) s) (hs : I s)
    (hmeets : M.MeetsAll ok jobs s) : (∀ m ∈ (M.runs jobs s).1, I m) ∧ I (M.runs jobs s).2 := by
  induction jobs generalizing s with
  | nil => exact ⟨nofun, hs⟩
  | cons job rest ih =>
    obtain ⟨p, cs⟩ := job
    obtain ⟨hmoments, hfinal, -⟩ := run_of_wp (h (p, cs) (.head _) s hs) hs hmeets.1
    obtain ⟨hlater, hlast⟩ := ih (fun job hjob => h job (.tail _ hjob)) hfinal hmeets.2
    refine ⟨fun m hm => ?_, hlast⟩
    obtain hm | hm := List.mem_append.mp hm
    · exact hmoments m hm
    · exact hlater m hm

end Machine

end PilotProtocol.Library
