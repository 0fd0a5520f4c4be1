import PilotProtocol.Library.Run

/-! # Handshake polls

The scheduler of the polls for relayed handshakes, and the daemon's triggers around it.
The scheduler's methods run under its lock, so each is one step; any number of callers of
`pollHandshakes` are between their checks and those steps. What a caller does after its
poll has begun is to wait, which changes nothing.
-/

namespace PilotProtocol.HandshakePoll

open Library

/-! ## The scheduler

Times are nanoseconds of the scheduler's clock, which is read once in each method.
-/

def handshakePokeBurst : Nat := 3

def handshakePokeRefill : Nat := 5 * 10 ^ 9

structure Sched where
  /-- When the latest poll started, if one has. -/
  lastPoll : Option Nat
  pokeDue : Bool
  pokeTokens : Nat
  pokeFill : Option Nat
  /-- The poll in flight. -/
  running : Option Nat
  closed : Bool

def Sched.new : Sched := ⟨none, false, handshakePokeBurst, none, none, false⟩

/-- Whether a poll may start now. The start is recorded if so. -/
def Sched.claimLocked (s : Sched) (minGap now : Nat) : Bool × Sched :=
  if s.lastPoll.any fun last => now < last + minGap then (false, s)
  else (true, { s with lastPoll := some now, pokeDue := false })

/-- The poll that covers a trigger, if there is one, and whether the caller is to run it.
`poll` is the channel made for a new one. -/
def Sched.begin (s : Sched) (poll minGap now : Nat) : (Option Nat × Bool) × Sched :=
  match s.running with
  | some running => ((some running, false), s)
  | none =>
    if s.closed then ((none, false), s)
    else
      match s.claimLocked minGap now with
      | (false, s') => ((none, false), s')
      | (true, s') => ((some poll, true), { s' with running := some poll })

def Sched.endPoll (s : Sched) : Sched := { s with running := none }

def Sched.shutdown (s : Sched) : Sched := { s with closed := true }

/-- The tokens that time has added since the bucket was last filled. -/
def Sched.refill (s : Sched) (now : Nat) : Sched :=
  let fill := s.pokeFill.getD now
  let n := (now - fill) / handshakePokeRefill
  if n = 0 then { s with pokeFill := some fill }
  else if handshakePokeBurst ≤ s.pokeTokens + n then
    { s with pokeTokens := handshakePokeBurst, pokeFill := some now }
  else
    { s with pokeTokens := s.pokeTokens + n, pokeFill := some (fill + n * handshakePokeRefill) }

/-- Whether the poke is accepted: a poll is due on its account. -/
def Sched.poke (s : Sched) (now : Nat) : Bool × Sched :=
  if s.pokeDue then (false, s)
  else if (s.refill now).pokeTokens = 0 then (false, s.refill now)
  else
    (true, { s.refill now with pokeTokens := (s.refill now).pokeTokens - 1, pokeDue := true })

/-- A poll starts only when none is in flight, the scheduler is open and the latest start
is the gap behind; otherwise nothing changes. -/
theorem Sched.begin_cases (s : Sched) (poll minGap now : Nat) :
    ((s.begin poll minGap now).1.2 = true ∧ s.running = none ∧ s.closed = false ∧
      (∀ last, s.lastPoll = some last → last + minGap ≤ now) ∧ (s.begin poll minGap now).2 =
        { s with lastPoll := some now, pokeDue := false, running := some poll }) ∨
    ((s.begin poll minGap now).1.2 = false ∧ (s.begin poll minGap now).2 = s) := by
  unfold begin
  cases hrunning : s.running with
  | some running => exact .inr ⟨rfl, rfl⟩
  | none =>
    by_cases hclosed : s.closed = true
    · rw [if_pos hclosed]
      exact .inr ⟨rfl, rfl⟩
    · rw [if_neg hclosed]
      unfold claimLocked
      by_cases hgap : (s.lastPoll.any fun last => now < last + minGap) = true
      · rw [if_pos hgap]
        exact .inr ⟨rfl, rfl⟩
      · rw [if_neg hgap]
        refine .inl ⟨rfl, rfl, Bool.eq_false_iff.mpr hclosed, fun last hlast => ?_, rfl⟩
        rw [hlast] at hgap
        simpa using hgap

theorem Sched.poke_spec (s : Sched) (now : Nat) :
    (s.poke now).2.running = s.running ∧ (s.poke now).2.lastPoll = s.lastPoll ∧
    (s.poke now).2.closed = s.closed ∧
    (s.pokeDue = true ∨ (s.poke now).1 = true → (s.poke now).2.pokeDue = true) := by
  have hrefill : (s.refill now).running = s.running ∧ (s.refill now).lastPoll = s.lastPoll ∧
      (s.refill now).closed = s.closed := by
    unfold refill
    dsimp only
    split
    · exact ⟨rfl, rfl, rfl⟩
    · split <;> exact ⟨rfl, rfl, rfl⟩
  obtain ⟨hrunning, hlast, hclosed⟩ := hrefill
  unfold poke
  by_cases hdue : s.pokeDue = true
  · rw [if_pos hdue]
    exact ⟨rfl, rfl, rfl, fun _ => hdue⟩
  · rw [if_neg hdue]
    split
    · exact ⟨hrunning, hlast, hclosed, fun h => absurd h (by simp [hdue])⟩
    · exact ⟨hrunning, hlast, hclosed, fun _ => rfl⟩

/-! ## Triggers -/

/-- How far a caller of `pollHandshakes` has come. -/
inductive Call
  /-- The daemon was not stopping. -/
  | entered (minGap : Nat)
  /-- There was no registry; nothing is to stay due. -/
  | missing
  | present (minGap : Nat)
  deriving DecidableEq

structure PollStart where
  minGap : Nat
  time : Nat

structure System where
  sched : Sched
  /-- Whether the daemon has a registry client. -/
  registry : Bool
  /-- Whether the poll loop and the IPC server run. -/
  serving : Bool
  stopping : Bool
  calls : List Call
  /-- The polls that have started and not ended. -/
  inFlight : List Nat
  /-- The polls that have started, the latest one last. -/
  starts : List PollStart

inductive Input
  /-- `Start` stores the registry client before it starts anything that polls; later the
  client is only replaced by another. -/
  | storeRegistry
  | serve
  | call (minGap : Nat)
  | readRegistry (minGap : Nat)
  | clear
  | begin (minGap now : Nat)
  | endPoll (poll : Nat)
  | poke (now : Nat)
  | stop
  | shutdown

namespace System

def initial : System := ⟨Sched.new, false, false, false, [], [], []⟩

def beginPoll (s : System) (minGap now : Nat) : System :=
  let r := s.sched.begin s.starts.length minGap now
  { s with
    sched := r.2
    calls := s.calls.erase (.present minGap)
    inFlight := if r.1.2 then s.starts.length :: s.inFlight else s.inFlight
    starts := if r.1.2 then s.starts ++ [⟨minGap, now⟩] else s.starts }

def step (s : System) : Input → System
  | .storeRegistry => if s.serving then s else { s with registry := true }
  | .serve => { s with serving := true }
  | .call minGap =>
    if s.serving && !s.stopping then { s with calls := .entered minGap :: s.calls } else s
  | .readRegistry minGap =>
    if .entered minGap ∈ s.calls then
      { s with
        calls := (if s.registry then .present minGap else .missing) ::
          s.calls.erase (.entered minGap) }
    else s
  | .clear =>
    if .missing ∈ s.calls then
      { s with sched := { s.sched with pokeDue := false }, calls := s.calls.erase .missing }
    else s
  | .begin minGap now => if .present minGap ∈ s.calls then s.beginPoll minGap now else s
  | .endPoll poll =>
    if poll ∈ s.inFlight then
      { s with sched := s.sched.endPoll, inFlight := s.inFlight.erase poll }
    else s
  | .poke now => { s with sched := (s.sched.poke now).2 }
  | .stop => { s with stopping := true }
  | .shutdown => { s with sched := s.sched.shutdown }

/-! ## One step -/

structure Inv (s : System) : Prop where
  flight : s.inFlight = s.sched.running.toList
  recent : ∀ p ∈ s.starts, ∃ last, s.sched.lastPoll = some last ∧ p.time ≤ last
  spaced : s.starts.Pairwise fun p q => p.time + q.minGap ≤ q.time
  /-- A registry that was found missing still is. -/
  missing : .missing ∈ s.calls → s.registry = false
  served : ∀ c ∈ s.calls, s.serving = true

theorem initial_inv : initial.Inv where
  flight := rfl
  recent := nofun
  spaced := List.Pairwise.nil
  missing := nofun
  served := nofun

theorem Inv.beginPoll {s : System} (h : s.Inv) (minGap now : Nat) : (s.beginPoll minGap now).Inv := by
  have hmissing : .missing ∈ s.calls.erase (.present minGap) → s.registry = false :=
    fun hm => h.missing (List.mem_of_mem_erase hm)
  have hserved : ∀ c ∈ s.calls.erase (.present minGap), s.serving = true :=
    fun c hc => h.served c (List.mem_of_mem_erase hc)
  unfold System.beginPoll
  rcases s.sched.begin_cases s.starts.length minGap now with
    ⟨hstart, hrunning, -, hgap, hsched⟩ | ⟨hstart, hsched⟩
  · dsimp only
    rw [hstart, hsched, if_pos rfl, if_pos rfl]
    refine ⟨?_, ?_, ?_, hmissing, hserved⟩
    · rw [h.flight, hrunning]
      rfl
    · intro p hp
      refine ⟨now, rfl, ?_⟩
      rcases List.mem_append.mp hp with hp | hp
      · obtain ⟨last, hlast, hle⟩ := h.recent p hp
        exact hle.trans ((Nat.le_add_right last minGap).trans (hgap last hlast))
      · rw [List.mem_singleton.mp hp]
    · rw [List.pairwise_append]
      refine ⟨h.spaced, List.pairwise_singleton _ _, fun p hp q hq => ?_⟩
      obtain ⟨last, hlast, hle⟩ := h.recent p hp
      rw [List.mem_singleton.mp hq]
      exact (Nat.add_le_add_right hle minGap).trans (hgap last hlast)
  · dsimp only
    rw [hstart, hsched]
    exact { h with missing := hmissing, served := hserved }

theorem step_inv {s : System} (h : s.Inv) (i : Input) : (s.step i).Inv := by
  cases i <;> simp only [step]
  case storeRegistry =>
    split
    next => exact h
    next hserving => exact { h with missing := fun hm => absurd (h.served _ hm) hserving }
  case serve => exact { h with served := fun _ _ => rfl }
  case call minGap =>
    split
    next hserving =>
      refine { h with missing := fun hm => ?_, served := fun _ _ => (Bool.and_eq_true_iff.mp hserving).1 }
      rcases List.mem_cons.mp hm with heq | hm
      · cases heq
      · exact h.missing hm
    next => exact h
  case readRegistry minGap =>
    split
    next hmem =>
      refine { h with missing := fun hm => ?_, served := fun _ _ => h.served _ hmem }
      rcases List.mem_cons.mp hm with heq | hm
      · cases hreg : s.registry with
        | true => rw [hreg] at heq; cases heq
        | false => rfl
      · exact h.missing (List.mem_of_mem_erase hm)
    next => exact h
  case clear =>
    split
    next =>
      exact { h with
        missing := fun hm => h.missing (List.mem_of_mem_erase hm)
        served := fun c hc => h.served c (List.mem_of_mem_erase hc) }
    next => exact h
  case begin minGap now =>
    split
    · exact h.beginPoll minGap now
    · exact h
  case endPoll poll =>
    split
    next hmem =>
      refine { h with flight := ?_ }
      have hflight := h.flight
      cases hrunning : s.sched.running with
      | none => simp [hflight, hrunning] at hmem
      | some running =>
        rw [hrunning] at hflight
        rw [hflight] at hmem ⊢
        rw [List.mem_singleton.mp hmem]
        exact List.erase_cons_head _ _
    next => exact h
  case poke now =>
    obtain ⟨hrunning, hlast, -, -⟩ := s.sched.poke_spec now
    exact { h with
      flight := h.flight.trans (congrArg Option.toList hrunning.symm)
      recent := hlast ▸ h.recent }
  case stop | shutdown => exact { h with }

theorem step_closed {s : System} (h : s.sched.closed = true) (i : Input) :
    (s.step i).sched.closed = true ∧ (s.step i).starts = s.starts := by
  cases i with
  | begin minGap now =>
    simp only [step]
    split
    · unfold System.beginPoll
      rcases s.sched.begin_cases s.starts.length minGap now with
        ⟨-, -, hopen, -⟩ | ⟨hstart, hsched⟩
      · simp [h] at hopen
      · dsimp only
        rw [hstart, hsched]
        exact ⟨h, rfl⟩
    · exact ⟨h, rfl⟩
  | poke now => exact ⟨(s.sched.poke_spec now).2.2.1.trans h, rfl⟩
  | shutdown => exact ⟨rfl, rfl⟩
  | storeRegistry | call minGap | readRegistry minGap | clear | endPoll poll =>
    simp only [step]; split <;> exact ⟨h, rfl⟩
  | serve | stop => exact ⟨h, rfl⟩

/-- A poll is due, or one has started since `before` had, or there will be no registry. -/
def Owed (before : Nat) (s : System) : Prop :=
  s.sched.pokeDue = true ∨ before < s.starts.length ∨ (s.registry = false ∧ s.serving = true)

theorem step_owed {before : Nat} {s : System} (hinv : s.Inv) (h : Owed before s)
    (hbefore : before ≤ s.starts.length) (i : Input) :
    Owed before (s.step i) ∧ before ≤ (s.step i).starts.length := by
  cases i with
  | begin minGap now =>
    simp only [step]
    split
    · unfold System.beginPoll Owed
      rcases s.sched.begin_cases s.starts.length minGap now with ⟨hstart, -⟩ | ⟨hstart, hsched⟩
      · dsimp only
        rw [hstart, if_pos rfl, List.length_append, List.length_singleton]
        exact ⟨.inr (.inl (Nat.lt_succ_of_le hbefore)), hbefore.trans (Nat.le_succ _)⟩
      · dsimp only
        rw [hstart, hsched]
        exact ⟨h, hbefore⟩
    · exact ⟨h, hbefore⟩
  | clear =>
    simp only [step]
    split
    next hmem => exact ⟨.inr (.inr ⟨hinv.missing hmem, hinv.served _ hmem⟩), hbefore⟩
    next => exact ⟨h, hbefore⟩
  | poke now => exact ⟨h.imp_left fun hdue => (s.sched.poke_spec now).2.2.2 (.inl hdue), hbefore⟩
  | storeRegistry =>
    simp only [step]
    split
    next => exact ⟨h, hbefore⟩
    next hserving =>
      exact ⟨h.imp_right (Or.imp_right fun hmissing => absurd hmissing.2 hserving), hbefore⟩
  | serve => exact ⟨h.imp_right (Or.imp_right fun hmissing => ⟨hmissing.1, rfl⟩), hbefore⟩
  | call minGap | readRegistry minGap | endPoll poll =>
    simp only [step]; split <;> exact ⟨h, hbefore⟩
  | stop | shutdown => exact ⟨h, hbefore⟩

/-! ## Whole runs -/

/-- In every run at most one poll is in flight; a poll that was triggered with a gap starts
at least that long after every earlier one; none starts on a scheduler that has been closed;
and after a poke that is accepted a poll stays due, whatever follows, until one starts,
unless there is no registry. -/
theorem polls_spaced_and_owed (inputs : List Input) :
    let s := inputs.foldl step initial
    s.inFlight.length ≤ 1 ∧
    (s.starts.Pairwise fun p q => p.time + q.minGap ≤ q.time) ∧
    (s.sched.closed = true → ∀ later : List Input, (later.foldl step s).starts = s.starts) ∧
    ∀ now, (s.sched.poke now).1 = true → ∀ later : List Input,
      let s' := later.foldl step (s.step (.poke now))
      s'.sched.pokeDue = true ∨ s.starts.length < s'.starts.length ∨ s'.registry = false := by
  intro s
  have hinv : s.Inv := run_invariant_all Inv (fun _ i h => step_inv h i) inputs initial_inv
  refine ⟨?_, hinv.spaced, ?_, ?_⟩
  · rw [hinv.flight]
    cases s.sched.running with
    | none => exact Nat.zero_le 1
    | some running => exact Nat.le_refl 1
  · intro hclosed later
    refine (run_invariant_all (fun s' : System => s'.sched.closed = true ∧ s'.starts = s.starts)
      (fun s' i h => ?_) later ⟨hclosed, rfl⟩).2
    obtain ⟨hstill, hsame⟩ := step_closed h.1 i
    exact ⟨hstill, hsame.trans h.2⟩
  · intro now haccepted later s'
    have hstart : Owed s.starts.length (s.step (.poke now)) :=
      .inl ((s.sched.poke_spec now).2.2.2 (.inr haccepted))
    have howed := run_invariant_all
      (fun s' : System => s'.Inv ∧ Owed s.starts.length s' ∧ s.starts.length ≤ s'.starts.length)
      (fun s' i h => ⟨step_inv h.1 i, step_owed h.1 h.2.1 h.2.2 i⟩) later
      ⟨step_inv hinv (.poke now), hstart, le_rfl⟩
    exact howed.2.1.imp_right (Or.imp_right And.left)

def polling : List Input := [.storeRegistry, .serve, .call 0, .readRegistry 0, .begin 0 10]

/-- A poke that is accepted while the poll is in flight still has a poll due when it ends. -/
theorem polling_poke_owed :
    let s := polling.foldl step initial
    s.inFlight = [0] ∧ (s.sched.poke 11).1 = true ∧
    ([Input.endPoll 0].foldl step (s.step (.poke 11))).sched.pokeDue = true := by
  have haccepted : ((polling.foldl step initial).sched.poke 11).1 = true := by decide
  refine ⟨by decide, haccepted, ?_⟩
  rcases (polls_spaced_and_owed polling).2.2.2 11 haccepted [.endPoll 0] with hdue | hstarted | hmissing
  · exact hdue
  · exact absurd hstarted (by decide)
  · exact absurd hmissing (by decide)

end System

end PilotProtocol.HandshakePoll
