import Mathlib.Algebra.Order.BigOperators.Group.List
import PilotProtocol.Library.DecimalLines
import PilotProtocol.Library.Run

/-! # The inbound-path watchdog

A tick looks whether the transport is wedged, tries soft recoveries and then exits for the
supervisor to start a new process, unless the exits written beside the identity file say that
this has been done too often. A tick that comes much later than the last one is taken as the
end of a suspend. `Time.Sub` measures that on the monotonic clock, which on Linux stands still
while the host is suspended.
-/

namespace PilotProtocol.RxWatchdog

open Library

def second : Nat := 1000000000

def minute : Nat := 60 * second

def rxWatchdogTickInterval : Nat := 30 * second

def suspendGapThreshold : Nat := 4 * rxWatchdogTickInterval

def rxSilenceThreshold : Nat := 3 * minute

def rxSilenceMinSentDelta : UInt64 := 30

def dialWedgeThreshold : UInt64 := 4

def rxWatchdogSoftMax : Nat := 3

def rxWedgeMinUptime : Nat := 30 * minute

def rxWedgeRegistryFresh : Nat := 5 * minute

def rxWedgeLoopWindow : Nat := 120 * minute

def rxWedgeLoopMax : Nat := 3

/-- A `time.Time`: nanoseconds since 1970, and the monotonic clock's reading if there is one. -/
structure GoTime where
  wall : Nat
  mono : Option Nat
  deriving DecidableEq

def GoTime.sub (t u : GoTime) : Int :=
  match t.mono, u.mono with
  | some m, some n => m - n
  | _, _ => t.wall - u.wall

/-! ## The exit log -/

def rxWedgeExitLogPath (identityPath : String) : String :=
  if identityPath = "" then "" else identityPath ++ ".rxwedge"

/-- What the file at the path holds, `none` if it is missing. -/
abbrev File := Option (List Char)

def recentRxWedgeExits (path : String) (file : File) (now : GoTime) : List Int :=
  if path = "" then []
  else
    match file with
    | none => []
    | some text => (readLines text).filter fun ts => (now.wall : Int) - rxWedgeLoopWindow ≤ ts

def recordRxWedgeExit (path : String) (file : File) (now : GoTime) : File :=
  if path = "" then file
  else some (writeLines (recentRxWedgeExits path file now ++ [(now.wall : Int)]))

/-! ## A tick -/

structure RxWatchdogState where
  lastProgress : GoTime
  recvSeen : UInt64
  sentAtProgress : UInt64
  softAttempts : Nat
  suspendSeen : Bool

inductive Action
  | none
  | progress
  | softRecover
  | exitWithheld
  | exit
  | restartLoop
  deriving DecidableEq

/-- The counters that a tick loads, and before it the resume handler, if it runs.
`registryOK` is 0 if the registry has not answered yet. -/
structure Reading where
  resumeRecv : UInt64
  resumeSent : UInt64
  recv : UInt64
  sent : UInt64
  dialTimeouts : UInt64
  registryOK : Nat
  deriving DecidableEq

def Reading.registryAge (r : Reading) (now : GoTime) : Int :=
  if 0 < r.registryOK then now.sub ⟨r.registryOK, none⟩ else -1

structure Process where
  startTime : GoTime
  st : RxWatchdogState
  lastTick : GoTime

def escalate (path : String) (file : File) (startTime now : GoTime) (r : Reading)
    (st : RxWatchdogState) : RxWatchdogState × File × Action :=
  let withheld := { st with softAttempts := 0 }
  if st.softAttempts < rxWatchdogSoftMax then
    ({ st with softAttempts := st.softAttempts + 1 }, file, .softRecover)
  else if st.recvSeen = 0 ∧ st.suspendSeen = false then (withheld, file, .exitWithheld)
  else if r.registryAge now < 0 ∨ rxWedgeRegistryFresh < r.registryAge now then
    (withheld, file, .exitWithheld)
  else if now.sub startTime < rxWedgeMinUptime then (withheld, file, .exitWithheld)
  else if rxWedgeLoopMax ≤ (recentRxWedgeExits path file now).length then
    (withheld, file, .restartLoop)
  else (st, recordRxWedgeExit path file now, .exit)

def rxWatchdogTick (path : String) (file : File) (startTime now : GoTime) (r : Reading)
    (st : RxWatchdogState) : RxWatchdogState × File × Action :=
  let progressed := { st with recvSeen := r.recv, sentAtProgress := r.sent, lastProgress := now }
  let dialWedged := dialWedgeThreshold ≤ r.dialTimeouts
  if r.recv ≠ st.recvSeen ∧ ¬ dialWedged then
    ({ progressed with softAttempts := 0 }, file, .progress)
  else
    let st₁ := if r.recv ≠ st.recvSeen then progressed else st
    let rxSilentWedge := rxSilenceThreshold ≤ now.sub st₁.lastProgress ∧
      rxSilenceMinSentDelta ≤ r.sent - st₁.sentAtProgress
    if ¬ rxSilentWedge ∧ ¬ dialWedged then (st₁, file, .none)
    else escalate path file startTime now r st₁

def rxWatchdogResume (now : GoTime) (r : Reading) (st : RxWatchdogState) : RxWatchdogState :=
  { st with
    recvSeen := r.resumeRecv
    sentAtProgress := r.resumeSent
    lastProgress := now
    softAttempts := 0
    suspendSeen := true }

/-! ## A host -/

/-- What stays the same over the processes: where the identity is kept, and whether the
host's monotonic clock goes on in a suspend. -/
structure Machine where
  identityPath : String
  monoInSuspend : Bool

/-- `exits` are the wall times of the hard exits, the last one first. -/
structure Host where
  wall : Nat
  mono : Nat
  exitLog : File
  process : Option Process
  exits : List Nat

inductive Event
  | advance (d : Nat)
  | suspend (d : Nat)
  | spawn (startTime : GoTime) (recv sent : UInt64)
  | stop
  | tick (r : Reading)
  deriving DecidableEq

namespace Host

def now (h : Host) : GoTime := ⟨h.wall, some h.mono⟩

def resumes (h : Host) : Bool :=
  h.process.any fun p => decide (suspendGapThreshold ≤ h.now.sub p.lastTick)

def loopTick (M : Machine) (h : Host) (p : Process) (r : Reading) : Host :=
  let st := if h.resumes then rxWatchdogResume h.now r p.st else p.st
  let (st₁, exitLog, action) :=
    rxWatchdogTick (rxWedgeExitLogPath M.identityPath) h.exitLog p.startTime h.now r st
  if action = .exit then { h with exitLog, process := none, exits := h.wall :: h.exits }
  else { h with exitLog, process := some { p with st := st₁, lastTick := h.now } }

def step (M : Machine) (h : Host) : Event → Host
  | .advance d => { h with wall := h.wall + d, mono := h.mono + d }
  | .suspend d =>
    { h with wall := h.wall + d, mono := if M.monoInSuspend then h.mono + d else h.mono }
  | .spawn startTime recv sent =>
    { h with process := some ⟨startTime, ⟨h.now, recv, sent, 0, false⟩, h.now⟩ }
  | .stop => { h with process := none }
  | .tick r =>
    match h.process with
    | none => h
    | some p => h.loopTick M p r

def run (M : Machine) (h : Host) (events : List Event) : Host := events.foldl (step M) h

/-! ## The breaker -/

variable {M : Machine} {h : Host}

def logged (h : Host) : List Int := h.exitLog.elim [] readLines

/-- The exits that the log is asked about at `now` or later are in it. -/
structure Breaker (h : Host) : Prop where
  past : ∀ t ∈ h.exits, t ≤ h.wall
  logged : ∀ now, h.wall ≤ now →
    h.exits.countP (fun t => now ≤ t + rxWedgeLoopWindow) ≤
      h.logged.countP fun ts => (now : Int) - rxWedgeLoopWindow ≤ ts
  bounded : ∀ a, h.exits.countP (fun t => a ≤ t ∧ t ≤ a + rxWedgeLoopWindow) ≤ rxWedgeLoopMax

/-- A tick leaves the log as it is, or exits and records it. -/
inductive Ticked (path : String) (file : File) (now : GoTime) : RxWatchdogState × File × Action → Prop
  | kept (st : RxWatchdogState) (action : Action) (haction : action ≠ .exit) :
      Ticked path file now (st, file, action)
  | exit (st : RxWatchdogState) (hroom : (recentRxWedgeExits path file now).length < rxWedgeLoopMax) :
      Ticked path file now (st, recordRxWedgeExit path file now, .exit)

theorem rxWatchdogTick_ticked (path : String) (file : File) (startTime now : GoTime) (r : Reading)
    (st : RxWatchdogState) : Ticked path file now (rxWatchdogTick path file startTime now r st) := by
  have hescalate (st : RxWatchdogState) :
      Ticked path file now (escalate path file startTime now r st) := by
    unfold escalate
    split_ifs
    case neg hroom => exact .exit _ (Nat.lt_of_not_le hroom)
    all_goals exact .kept _ _ (by decide)
  unfold rxWatchdogTick
  dsimp only
  generalize (if r.recv ≠ st.recvSeen then _ else st) = st₁
  split_ifs
  · exact .kept _ _ (by decide)
  · exact .kept _ _ (by decide)
  · exact hescalate st₁

theorem loopTick_cases (M : Machine) (h : Host) (p : Process) (r : Reading) :
    (∃ st, h.loopTick M p r = { h with process := some ⟨p.startTime, st, h.now⟩ }) ∨
      (recentRxWedgeExits (rxWedgeExitLogPath M.identityPath) h.exitLog h.now).length < rxWedgeLoopMax ∧
        h.loopTick M p r = { h with
          exitLog := recordRxWedgeExit (rxWedgeExitLogPath M.identityPath) h.exitLog h.now
          process := none
          exits := h.wall :: h.exits } := by
  have hticked := rxWatchdogTick_ticked (rxWedgeExitLogPath M.identityPath) h.exitLog p.startTime h.now
    r (if h.resumes then rxWatchdogResume h.now r p.st else p.st)
  unfold loopTick
  dsimp only
  generalize rxWatchdogTick _ _ _ _ _ _ = result at hticked ⊢
  cases hticked with
  | kept st action haction =>
    rw [if_neg haction]
    exact .inl ⟨st, rfl⟩
  | exit st hroom => exact .inr ⟨hroom, rfl⟩

theorem logged_record {path : String} {file : File} {now : GoTime} (hpath : path ≠ "")
    (hrange : now.wall < 2 ^ 63) : (recordRxWedgeExit path file now).elim [] readLines =
      recentRxWedgeExits path file now ++ [(now.wall : Int)] := by
  unfold recordRxWedgeExit
  rw [if_neg hpath]
  apply readLines_writeLines
  intro n hn
  rcases List.mem_append.mp hn with hold | hnew
  · unfold recentRxWedgeExits at hold
    rw [if_neg hpath] at hold
    cases file with
    | none => cases hold
    | some text => exact readLines_range (List.mem_of_mem_filter hold)
  · rw [List.mem_singleton.mp hnew]
    omega

theorem recent_eq {path : String} (file : File) (now : GoTime) (hpath : path ≠ "") :
    recentRxWedgeExits path file now =
      (file.elim [] readLines).filter fun ts => (now.wall : Int) - rxWedgeLoopWindow ≤ ts := by
  unfold recentRxWedgeExits
  rw [if_neg hpath]
  cases file <;> rfl

/-- An exit that the breaker lets through is the last of at most `rxWedgeLoopMax`. -/
theorem Breaker.exit (hb : h.Breaker) {path : String} (hpath : path ≠ "") (hrange : h.wall < 2 ^ 63)
    (hroom : (recentRxWedgeExits path h.exitLog h.now).length < rxWedgeLoopMax) : Breaker { h with
      exitLog := recordRxWedgeExit path h.exitLog h.now
      process := none
      exits := h.wall :: h.exits } where
  past t ht := by
    rcases List.mem_cons.mp ht with rfl | hold
    · exact le_rfl
    · exact hb.past t hold
  logged now hnow := by
    have hnow : h.wall ≤ now := hnow
    have hold := hb.logged now hnow
    have hkept : (recentRxWedgeExits path h.exitLog h.now).countP
        (fun ts => (now : Int) - rxWedgeLoopWindow ≤ ts) =
        h.logged.countP fun ts => (now : Int) - rxWedgeLoopWindow ≤ ts := by
      rw [recent_eq _ _ hpath, List.countP_filter]
      apply List.countP_congr
      intro ts _
      have hwall : h.now.wall = h.wall := rfl
      simp only [Bool.and_eq_true, decide_eq_true_eq]
      omega
    have hnew : ((now : Int) - rxWedgeLoopWindow ≤ h.wall) ↔ now ≤ h.wall + rxWedgeLoopWindow := by
      omega
    show _ ≤ List.countP _ ((recordRxWedgeExit path h.exitLog h.now).elim [] readLines)
    rw [logged_record hpath hrange, List.countP_append, hkept, List.countP_cons, List.countP_singleton]
    simp only [Host.now, decide_eq_true_eq, hnew]
    omega
  bounded a := by
    have hbefore := hb.bounded a
    rw [List.countP_cons]
    split
    next hin =>
      rw [decide_eq_true_eq] at hin
      have hrecent : h.exits.countP (fun t => a ≤ t ∧ t ≤ a + rxWedgeLoopWindow) ≤
          h.exits.countP fun t => h.wall ≤ t + rxWedgeLoopWindow := by
        apply List.countP_mono_left
        intro t _ ht
        simp only [decide_eq_true_eq] at ht ⊢
        omega
      have hlogged := hb.logged h.wall le_rfl
      rw [recent_eq _ _ hpath, ← List.countP_eq_length_filter] at hroom
      exact Nat.lt_of_le_of_lt (hrecent.trans hlogged) hroom
    next => exact hbefore

theorem Breaker.later (hb : h.Breaker) {h' : Host} (hwall : h.wall ≤ h'.wall)
    (hlog : h'.exitLog = h.exitLog) (hexits : h'.exits = h.exits) : h'.Breaker where
  past t ht := (hb.past t (hexits ▸ ht)).trans hwall
  logged now hnow := by
    unfold Host.logged
    rw [hlog, hexits]
    exact hb.logged now (hwall.trans hnow)
  bounded a := by
    rw [hexits]
    exact hb.bounded a

theorem wall_le_step (h : Host) (e : Event) : h.wall ≤ (step M h e).wall := by
  cases e with
  | advance d | suspend d => exact Nat.le_add_right _ _
  | tick r =>
    unfold step
    cases h.process with
    | none => exact le_rfl
    | some p =>
      obtain ⟨st, hstep⟩ | ⟨-, hstep⟩ := loopTick_cases M h p r
      all_goals
        dsimp only
        rw [hstep]
  | _ => exact le_rfl

theorem Breaker.step (hb : h.Breaker) (hpath : M.identityPath ≠ "") (hrange : h.wall < 2 ^ 63)
    (e : Event) : (step M h e).Breaker := by
  have hwall : h.wall ≤ (Host.step M h e).wall := wall_le_step h e
  cases e with
  | tick r =>
    unfold Host.step
    cases h.process with
    | none => exact hb
    | some p =>
      have hlog : rxWedgeExitLogPath M.identityPath ≠ "" := by
        unfold rxWedgeExitLogPath
        rw [if_neg hpath]
        exact fun hempty => absurd (congrArg String.length hempty) (by simp)
      obtain ⟨st, hstep⟩ | ⟨hroom, hstep⟩ := loopTick_cases M h p r
      · dsimp only
        rw [hstep]
        exact hb.later le_rfl rfl rfl
      · dsimp only
        rw [hstep]
        exact hb.exit hlog hrange hroom
  | _ => exact hb.later hwall rfl rfl

/-- Over any number of processes that write to the same log, no period as long as the window
has more than `rxWedgeLoopMax` hard exits. The wall clock stays in the range of `UnixNano`. -/
theorem exits_in_window_bounded (M : Machine) (hpath : M.identityPath ≠ "") (h : Host)
    (hnone : h.exits = []) (events : List Event) (hrange : (run M h events).wall < 2 ^ 63) (a : Nat) :
    (run M h events).exits.countP (fun t => a ≤ t ∧ t ≤ a + rxWedgeLoopWindow) ≤ rxWedgeLoopMax := by
  have hstart : h.wall < 2 ^ 63 → h.Breaker := fun _ =>
    ⟨by simp [hnone], fun _ _ => by simp [hnone], fun _ => by simp [hnone]⟩
  have hrun : (run M h events).wall < 2 ^ 63 → (run M h events).Breaker := by
    apply run_invariant_all (fun h : Host => h.wall < 2 ^ 63 → h.Breaker) (fun h e ih hwall => ?_)
      events hstart
    have hbefore : h.wall < 2 ^ 63 := Nat.lt_of_le_of_lt (wall_le_step h e) hwall
    exact (ih hbefore).step hpath hbefore e
  exact (hrun hrange).bounded a

/-- A process that receives, and then one dial after the other times out. -/
def wedgedLifetime : List Event :=
  let wedged : Event := .tick ⟨1, 0, 1, 0, 4, rxWedgeMinUptime⟩
  [.spawn ⟨0, none⟩ 1 0, .advance rxWatchdogTickInterval, wedged, wedged, wedged, wedged]

def booted : Host := ⟨rxWedgeMinUptime, 0, none, none, []⟩

def linux : Machine := ⟨"id", false⟩

/-- Of four processes in a row that are wedged, the breaker lets three exit. -/
theorem fourth_exit_withheld :
    let events := (List.replicate 4 wedgedLifetime).flatten
    (run linux booted events).exits.length = 3 ∧
      (run linux booted events).exits.countP (fun t => 0 ≤ t ∧ t ≤ 0 + rxWedgeLoopWindow) ≤
        rxWedgeLoopMax :=
  ⟨by decide +kernel, exits_in_window_bounded linux (by decide) booted rfl _ (by decide +kernel) 0⟩

end Host

/-! ## Suspends -/

namespace Event

def elapsed : Event → Nat
  | .advance d => d
  | .suspend d => d
  | _ => 0

def ticked (M : Machine) : Event → Nat
  | .advance d => d
  | .suspend d => if M.monoInSuspend then d else 0
  | _ => 0

def isClock : Event → Bool
  | .advance _ | .suspend _ => true
  | _ => false

def marks : Event → Bool
  | .spawn _ _ _ | .tick _ => true
  | _ => false

theorem ticked_le_elapsed (M : Machine) (e : Event) : e.ticked M ≤ e.elapsed := by
  cases e with
  | suspend d =>
    unfold ticked elapsed
    dsimp only
    split <;> omega
  | _ => exact le_rfl

end Event

namespace Host

variable {M : Machine} {h : Host}

theorem run_clock {between : List Event} (hclock : ∀ e ∈ between, e.isClock = true) :
    run M h between = { h with
      wall := h.wall + (between.map Event.elapsed).sum
      mono := h.mono + (between.map (Event.ticked M)).sum } := by
  induction between generalizing h with
  | nil => rfl
  | cons e rest ih =>
    have hstep : step M h e =
        { h with wall := h.wall + e.elapsed, mono := h.mono + e.ticked M } := by
      have he := hclock e (.head _)
      cases e with
      | advance d => rfl
      | suspend d => cases hmono : M.monoInSuspend <;> simp [step, Event.elapsed, Event.ticked, hmono]
      | _ => cases he
    have hrest := ih (h := step M h e) fun e he => hclock e (.tail _ he)
    simp only [run, List.foldl_cons] at hrest ⊢
    rw [hrest, hstep]
    simp [Nat.add_assoc]

theorem lastTick_of_marks {e : Event} {p : Process} (he : e.marks = true)
    (hp : (step M h e).process = some p) : p.lastTick = (step M h e).now := by
  cases e with
  | spawn startTime recv sent =>
    cases hp
    rfl
  | tick r =>
    unfold step at hp ⊢
    cases hprocess : h.process with
    | none =>
      simp only [hprocess] at hp
      cases hp
    | some q =>
      simp only [hprocess] at hp ⊢
      obtain ⟨st, hstep⟩ | ⟨-, hstep⟩ := loopTick_cases M h q r
      · rw [hstep] at hp ⊢
        cases hp
        rfl
      · simp [hstep] at hp
  | _ => cases he

/-- A tick resumes exactly if the monotonic clock has moved by the threshold since the loop
last noted the time. That much real time has then passed; and where the clock goes on in a
suspend, a suspend of that length is noticed. -/
theorem resumes_on_monotonic_gap (M : Machine) (h : Host) (before between : List Event)
    (first : Event) (hfirst : first.marks = true) (hclock : ∀ e ∈ between, e.isClock = true)
    (halive : (run M h (before ++ first :: between)).process.isSome = true) :
    ((run M h (before ++ first :: between)).resumes = true ↔
      suspendGapThreshold ≤ (between.map (Event.ticked M)).sum) ∧
    ((run M h (before ++ first :: between)).resumes = true →
      suspendGapThreshold ≤ (between.map Event.elapsed).sum) ∧
    (M.monoInSuspend = true → ∀ d, .suspend d ∈ between → suspendGapThreshold ≤ d →
      (run M h (before ++ first :: between)).resumes = true) := by
  have hsplit : run M h (before ++ first :: between) = run M (step M (run M h before) first) between := by
    simp [run]
  rw [hsplit, run_clock hclock] at halive ⊢
  obtain ⟨p, hp⟩ := Option.isSome_iff_exists.mp halive
  have hp : (step M (run M h before) first).process = some p := hp
  have hlast := lastTick_of_marks hfirst hp
  generalize step M (run M h before) first = marked at hp hlast ⊢
  have hiff : ({ marked with
      wall := marked.wall + (between.map Event.elapsed).sum
      mono := marked.mono + (between.map (Event.ticked M)).sum } : Host).resumes = true ↔
      suspendGapThreshold ≤ (between.map (Event.ticked M)).sum := by
    simp only [resumes, hp, Option.any_some, decide_eq_true_eq, hlast, now, GoTime.sub]
    omega
  refine ⟨hiff, fun hresumes => ?_, fun hmono d hd hle => hiff.mpr ?_⟩
  · exact (hiff.mp hresumes).trans (List.sum_le_sum fun e _ => e.ticked_le_elapsed M)
  · have hterm : Event.ticked M (.suspend d) ≤ (between.map (Event.ticked M)).sum :=
      List.single_le_sum (by simp) _ (List.mem_map_of_mem hd)
    simp only [Event.ticked, if_pos hmono] at hterm
    omega

def quietTick : Event := .tick ⟨1, 0, 1, 0, 0, 0⟩

def sleep : List Event := [.advance (10 * second), .suspend (60 * minute), .advance (20 * second)]

theorem hour_noticed :
    (run ⟨"id", true⟩ booted ([.spawn ⟨0, none⟩ 1 0] ++ quietTick :: sleep)).resumes = true :=
  (resumes_on_monotonic_gap ⟨"id", true⟩ booted [.spawn ⟨0, none⟩ 1 0] sleep quietTick rfl
    (by decide) (by decide +kernel)).2.2 rfl (60 * minute) (by decide) (by decide)

/-- Where the monotonic clock stands still in a suspend, the hour goes unnoticed at the next
tick and at the one after it. -/
theorem hour_unnoticed :
    let woken := run linux booted ([.spawn ⟨0, none⟩ 1 0] ++ quietTick :: sleep)
    let later := run linux woken [quietTick, .advance rxWatchdogTickInterval]
    .suspend (60 * minute) ∈ sleep ∧ suspendGapThreshold ≤ 60 * minute ∧
      woken.process.isSome = true ∧ woken.resumes = false ∧
      later.process.isSome = true ∧ later.resumes = false := by
  decide +kernel

end Host

end PilotProtocol.RxWatchdog
