import Mathlib.Logic.Function.Basic
import PilotProtocol.Library.Run

/-! # The WSS transport

The supervisor reads the installed connection and dials a new one when it is lost; `Send` and
the idle ping take a connection out when it fails. `Close` waits for the supervisor. A
supervisor that has read a frame waits for room in the receive buffer, whether or not the
transport is closed. A connection that is taken out is closed by whoever has it in hand, if
anybody has. The websocket library may also close it when a call on it fails, as it does when
the context of the call is cancelled; whether it does is an input.
-/

namespace PilotProtocol.WSS

open Library

/-- Where the supervisor is, with the connection it has in hand. -/
inductive Supervisor
  | top
  | load
  | check (c : Nat)
  | read (c : Nat)
  | failed (c : Nat)
  | push (c : Nat)
  | drained (c : Nat)
  | clear (c : Nat)
  | drop (c : Nat)
  | sleep
  | dial
  | dialed (c : Option Nat)
  | abandon (c : Nat)
  | install (c : Nat)
  | exited
  deriving DecidableEq

/-- Where `Close` is. -/
inductive Closer
  | idle
  | cancel
  | take
  | closeConn (c : Nat)
  | wait
  | closeRecv
  | returned
  deriving DecidableEq

/-- Where a call of `Send` or the idle ping is. -/
inductive Caller
  | idle
  | load
  | write (c : Nat)
  | failed (c : Nat)
  | clear (c : Nat)
  | closeConn (c : Nat)
  deriving DecidableEq

/-- Connections are numbered as they are dialed; `recv` is how many items are in `recvCh`. -/
structure Transport where
  closed : Bool
  cancelled : Bool
  conn : Option Nat
  dialed : Nat
  shut : List Nat
  recv : Nat
  supervisor : Supervisor
  closer : Closer
  /-- The idle ping is `none`. -/
  callers : Option Nat → Caller

/-- What `conn.Read` returns: an error, with which the library may close the connection, a frame
that is ignored, or a binary one. -/
inductive Read
  | error (closes : Bool)
  | ignored
  | frame

inductive Input
  | supervise (read : Read) (timer dialOk : Bool)
  | close
  | call (k : Option Nat) (ok closes : Bool)
  | recv

namespace Transport

/-- A transport that `Dial` has returned. -/
def fresh : Transport := ⟨false, false, some 0, 1, [], 0, .top, .idle, fun _ => .idle⟩

def goto (s : Transport) (p : Supervisor) : Transport := { s with supervisor := p }

def closeConn (s : Transport) (c : Nat) : Transport := { s with shut := c :: s.shut }

def takeOut (s : Transport) (c : Nat) : Transport :=
  if s.conn = some c then { s with conn := none } else s

theorem takeOut_cases (s : Transport) (c : Nat) :
    s.takeOut c = { s with conn := none } ∧ s.conn = some c ∨ s.takeOut c = s ∧ s.conn ≠ some c := by
  unfold takeOut
  split
  next h => exact .inl ⟨rfl, h⟩
  next h => exact .inr ⟨rfl, h⟩

variable (recvBuffer : Nat)

def supervise (s : Transport) (read : Read) (timer dialOk : Bool) : Transport :=
  match s.supervisor with
  | .top => if s.closed then s.goto .exited else s.goto .load
  | .load =>
    match s.conn with
    | some c => s.goto (.check c)
    | none => s.goto .sleep
  | .check c => if s.closed then s.goto (.drained c) else s.goto (.read c)
  | .read c =>
    match read with
    | .error closes => (if closes then s.closeConn c else s).goto (.failed c)
    | .ignored => s.goto (.check c)
    | .frame => s.goto (.push c)
  | .failed c =>
    { s.goto (.drained c) with
      recv := if s.closed && decide (s.recv < recvBuffer) then s.recv + 1 else s.recv }
  -- the other case of the select waits for the supervisor itself to exit
  | .push c => if s.recv < recvBuffer then { s.goto (.check c) with recv := s.recv + 1 } else s
  | .drained c => if s.closed then s.goto .exited else s.goto (.clear c)
  | .clear c => (s.takeOut c).goto (.drop c)
  | .drop c => (s.closeConn c).goto .sleep
  | .sleep => if timer then s.goto .dial else if s.closed then s.goto .exited else s
  | .dial =>
    if dialOk then { s.goto (.dialed (some s.dialed)) with dialed := s.dialed + 1 }
    else s.goto (.dialed none)
  | .dialed none => if s.closed then s.goto .exited else s.goto .top
  | .dialed (some c) => if s.closed then s.goto (.abandon c) else s.goto (.install c)
  | .abandon c => (s.closeConn c).goto .exited
  | .install c => { s.goto .top with conn := some c }
  | .exited => s

def close (s : Transport) : Transport :=
  match s.closer with
  | .idle => { s with closed := true, closer := .cancel }
  | .cancel => { s with cancelled := true, closer := .take }
  | .take =>
    match s.conn with
    | some c => { s with conn := none, closer := .closeConn c }
    | none => { s with closer := .wait }
  | .closeConn c => { s.closeConn c with closer := .wait }
  | .wait => if s.supervisor = .exited then { s with closer := .closeRecv } else s
  | .closeRecv => { s with closer := .returned }
  | .returned => s

def call (s : Transport) (k : Option Nat) (ok closes : Bool) : Transport :=
  let goto (s : Transport) (p : Caller) : Transport :=
    { s with callers := Function.update s.callers k p }
  match s.callers k with
  | .idle => if s.closed then s else goto s .load
  | .load =>
    match s.conn with
    | some c => goto s (.write c)
    | none => goto s .idle
  | .write c =>
    if ok then goto s .idle else goto (if closes then s.closeConn c else s) (.failed c)
  | .failed c => goto s (if s.closed then .idle else .clear c)
  | .clear c => goto (s.takeOut c) (if k = none then .closeConn c else .idle)
  | .closeConn c => goto (s.closeConn c) .idle

def step (s : Transport) : Input → Transport
  | .supervise read timer dialOk => s.supervise recvBuffer read timer dialOk
  | .close => s.close
  | .call k ok closes => s.call k ok closes
  | .recv => { s with recv := s.recv - 1 }

/-! ## Closing -/

/-- A step of the supervisor or of `Close`; a blocked `Read` or `Dial` returns because the
context is cancelled, and the library closes the connection. -/
def Own (s : Transport) : Input → Prop
  | .supervise read _ dialOk =>
    ((∃ c, s.supervisor = .read c) → s.cancelled = true ∧ read = .error true) ∧
      (s.supervisor = .dial → s.cancelled = true ∧ dialOk = false)
  | .close => True
  | _ => False

def Done (s : Transport) : Prop := s.supervisor = .exited ∧ s.closer = .returned

attribute [grind =] goto closeConn takeOut

/-- `Close` stores the flag first and waits only after the cancellation. -/
structure Ordered (s : Transport) : Prop where
  closed : s.closer ≠ .idle → s.closed = true
  cancelled : s.closer ≠ .idle → s.closer ≠ .cancel → s.cancelled = true
  exited : s.closer = .closeRecv ∨ s.closer = .returned → s.supervisor = .exited

variable {recvBuffer : Nat} {s : Transport} {i : Input}

theorem supervise_closer (recvBuffer : Nat) (s : Transport) (read : Read) (timer dialOk : Bool) :
    (s.supervise recvBuffer read timer dialOk).closed = s.closed ∧
    (s.supervise recvBuffer read timer dialOk).cancelled = s.cancelled ∧
    (s.supervise recvBuffer read timer dialOk).closer = s.closer ∧
    (s.supervisor = .exited → (s.supervise recvBuffer read timer dialOk).supervisor = .exited) := by
  unfold supervise takeOut
  split
  all_goals
    repeat' split
    all_goals exact ⟨rfl, rfl, rfl, by simp_all⟩

theorem Ordered.step (h : s.Ordered) (recvBuffer : Nat) (i : Input) : (s.step recvBuffer i).Ordered := by
  obtain ⟨hclosed, hcancelled, hexited⟩ := h
  cases i with
  | supervise read timer dialOk =>
    obtain ⟨hflag, hcontext, hcloser, hstays⟩ := supervise_closer recvBuffer s read timer dialOk
    constructor <;> simp only [Transport.step, hflag, hcontext, hcloser]
    · exact hclosed
    · exact hcancelled
    · exact fun h => hstays (hexited h)
  | close => constructor <;> grind -linarith [Transport.step, close]
  | call k ok closes => constructor <;> grind -linarith [Transport.step, call]
  | recv => exact ⟨hclosed, hcancelled, hexited⟩

/-- How many steps a supervisor that finds the transport closed is from its exit. -/
def rank (s : Transport) : Nat :=
  match s.supervisor with
  | .exited => 0
  | .top | .drained _ | .sleep | .abandon _ => 1
  | .check _ | .failed _ | .drop _ | .dialed _ | .install _ => 2
  | .load | .read _ | .push _ | .clear _ | .dial => 3

def closeRank (s : Transport) : Nat :=
  match s.closer with
  | .idle => 6
  | .cancel => 5
  | .take => 4
  | .closeConn _ => 3
  | .wait => 2
  | .closeRecv => 1
  | .returned => 0

/-- The supervisor does not wait for room in the receive buffer. -/
def Roomy (recvBuffer : Nat) (s : Transport) : Prop :=
  ∀ c, s.supervisor = .push c → s.recv < recvBuffer

theorem supervise_rank (hclosed : s.closed = true) (hroom : s.Roomy recvBuffer)
    (hne : s.supervisor ≠ .exited) :
    (s.supervise recvBuffer (.error true) false false).rank < s.rank ∧
      ∀ c, (s.supervise recvBuffer (.error true) false false).supervisor ≠ .push c := by
  unfold supervise
  split
  all_goals
    repeat' split
    all_goals simp_all [rank, goto, closeConn, Roomy]

theorem close_rank (hwait : s.closer = .wait → s.supervisor = .exited) (hne : s.closer ≠ .returned) :
    s.close.closeRank < s.closeRank ∧ s.close.supervisor = s.supervisor ∧ s.close.recv = s.recv ∧
      s.close.closer ≠ .idle := by
  unfold close
  split
  all_goals
    repeat' split
    all_goals simp_all [closeRank, closeConn]

theorem progress (h : s.Ordered) (hcalled : s.closer ≠ .idle) (hroom : s.Roomy recvBuffer)
    (hdone : ¬ s.Done) : ∃ i, s.Own i ∧
      (s.step recvBuffer i).rank + (s.step recvBuffer i).closeRank < s.rank + s.closeRank ∧
      (s.step recvBuffer i).closer ≠ .idle ∧ (s.step recvBuffer i).Roomy recvBuffer := by
  by_cases hwait : s.closer = .wait ∧ s.supervisor ≠ .exited
  · have hcancelled := h.cancelled hcalled (by simp [hwait])
    obtain ⟨hless, hpush⟩ := supervise_rank (h.closed hcalled) hroom hwait.2
    obtain ⟨-, -, hcloser, -⟩ := supervise_closer recvBuffer s (.error true) false false
    refine ⟨.supervise (.error true) false false, by simp [Own, hcancelled], ?_, ?_,
      fun c hc => absurd hc (hpush c)⟩
    · simp only [step, closeRank, hcloser]
      omega
    · exact hcloser ▸ hcalled
  · have hreturned : s.closer ≠ .returned := fun hr => hdone ⟨h.exited (.inr hr), hr⟩
    obtain ⟨hless, hsame, hrecv, hcalled⟩ := close_rank (by simpa using hwait) hreturned
    refine ⟨.close, trivial, ?_, hcalled, ?_⟩
    · simp only [step, rank, hsame]
      omega
    · simpa only [step, Roomy, hsame, hrecv] using hroom

theorem exists_path (h : s.Ordered) (hcalled : s.closer ≠ .idle) (hroom : s.Roomy recvBuffer) :
    ∃ path, AllSteps (step recvBuffer) Own s path ∧ (path.foldl (step recvBuffer) s).Done := by
  induction hrank : s.rank + s.closeRank using Nat.strong_induction_on generalizing s with
  | _ n ih =>
    by_cases hdone : s.Done
    · exact ⟨[], trivial, hdone⟩
    obtain ⟨i, hown, hless, hcalled', hroom'⟩ := progress h hcalled hroom hdone
    obtain ⟨path, hsteps, hdone⟩ := ih _ (hrank ▸ hless) (h.step recvBuffer i) hcalled' hroom' rfl
    exact ⟨i :: path, ⟨hown, hsteps⟩, hdone⟩

/-- A supervisor that waits for room keeps waiting, whatever it and `Close` do. -/
theorem not_roomy_step (h : ¬ s.Roomy recvBuffer) (hown : s.Own i) :
    ¬ (s.step recvBuffer i).Roomy recvBuffer := by
  obtain ⟨c, hpush, hfull⟩ : ∃ c, s.supervisor = .push c ∧ ¬ s.recv < recvBuffer := by
    simpa [Roomy] using h
  have hsame : (s.step recvBuffer i).supervisor = .push c ∧ (s.step recvBuffer i).recv = s.recv := by
    cases i with
    | supervise read timer dialOk => simp [step, supervise, hpush, hfull]
    | close =>
      simp only [step]
      unfold close
      repeat' split
      all_goals exact ⟨hpush, rfl⟩
    | call | recv => cases hown
  exact fun hroom => hfull (hsame.2 ▸ hroom c hsame.1)

/-- From a state that is reached after `Close` has been called, there are steps of the
supervisor and of `Close` after which both are done exactly if the supervisor does not wait for
room in the receive buffer; before that some such step changes the state. -/
theorem close_completes (recvBuffer : Nat) (inputs : List Input) :
    let s := inputs.foldl (step recvBuffer) fresh
    s.closer ≠ .idle →
    ((∃ path, AllSteps (step recvBuffer) Own s path ∧ (path.foldl (step recvBuffer) s).Done) ↔
      s.Roomy recvBuffer) ∧
    (s.Roomy recvBuffer → s.Done ∨ ∃ i, s.Own i ∧ s.step recvBuffer i ≠ s) := by
  intro s hcalled
  have hordered : s.Ordered :=
    run_invariant_all Ordered (fun _ i h => h.step recvBuffer i) inputs ⟨nofun, nofun, by simp [fresh]⟩
  refine ⟨⟨fun ⟨path, hown, hdone⟩ => ?_, exists_path hordered hcalled⟩, fun hroom => ?_⟩
  · by_contra hfull
    refine run_invariant (fun s => ¬ s.Roomy recvBuffer) (fun _ _ h hi => not_roomy_step h hi) hfull
      hown fun c hpush => ?_
    cases hdone.1.symm.trans hpush
  · by_cases hdone : s.Done
    · exact .inl hdone
    obtain ⟨i, hown, hless, -⟩ := progress hordered hcalled hroom hdone
    refine .inr ⟨i, hown, fun heq => ?_⟩
    rw [heq] at hless
    exact Nat.lt_irrefl _ hless

/-- The supervisor reads a frame and puts it into the buffer, if there is room. -/
def frameRead : List Input :=
  [.supervise .frame false false, .supervise .frame false false, .supervise .frame false false]

def quiet : Input := .supervise (.error true) false false

def connected : List Input := [quiet, quiet]

theorem reading_transport_closes :
    let s := (connected ++ frameRead ++ [Input.close]).foldl (step 1) fresh
    ∃ path, AllSteps (step 1) Own s path ∧ (path.foldl (step 1) s).Done :=
  (close_completes 1 (connected ++ frameRead ++ [Input.close]) (by decide)).1.mpr nofun

/-- With a buffer of one and two frames read, the supervisor waits for room and `Close` for the
supervisor: no step of either changes anything. -/
theorem full_buffer_blocks_close :
    let s := (connected ++ frameRead ++ frameRead ++ List.replicate 5 Input.close).foldl (step 1) fresh
    s.closer = .wait ∧ s.supervisor = .push 0 ∧ ∀ i, s.Own i → s.step 1 i = s := by
  refine ⟨by decide, by decide, fun i hi => ?_⟩
  cases i with
  | supervise | close => rfl
  | call | recv => cases hi

/-! ## Connections -/

def reads (s : Transport) (c : Nat) : Bool :=
  match s.supervisor with
  | .check d | .read d | .failed d | .push d | .drained d => d = c
  | _ => false

/-- A failed `Send` or ping takes out only a connection that the supervisor reads; after `Close`
has begun, only one that it waits on in `Read`. `Close` does not begin while the supervisor looks
which connection is installed or is about to install one, nor while it has one in hand that is
neither installed nor closed, unless it waits on it in `Read`. Such a `Read` then fails, and the
library closes the connection. -/
def Careful (s : Transport) : Input → Prop
  | .call k _ _ =>
    ∀ c, s.callers k = .clear c → s.conn = some c →
      s.reads c = true ∧ (s.closed = false ∨ s.supervisor = .read c)
  | .close =>
    s.closer = .idle → s.supervisor ≠ .load ∧ (∀ c, s.supervisor ≠ .install c) ∧
      ∀ c, s.reads c = true → s.conn = some c ∨ c ∈ s.shut ∨ s.supervisor = .read c
  | .supervise read _ _ =>
    ∀ c, s.supervisor = .read c → s.closed = true →
      s.conn = some c ∨ s.closer = .closeConn c ∨ c ∈ s.shut ∨ read = .error true
  | .recv => True

/-- Why the connection will be closed, by where the supervisor is. -/
def Held (s : Transport) (c : Nat) : Prop :=
  match s.supervisor with
  | .top | .exited => s.conn = some c ∨ s.closer = .closeConn c
  | .load => s.conn = some c
  | .check d | .failed d | .push d | .drained d =>
    d = c ∧ (s.closed = false ∨ s.conn = some c ∨ s.closer = .closeConn c)
  | .read d | .clear d | .drop d | .dialed (some d) | .abandon d | .install d => d = c
  | .sleep | .dial | .dialed none => False

structure Inv (s : Transport) : Prop where
  ordered : s.Ordered
  closed : s.closed = true → s.supervisor ≠ .load ∧ ∀ c, s.supervisor ≠ .install c
  taken : s.closer ≠ .idle → s.closer ≠ .cancel → s.closer ≠ .take → s.conn = none
  held : ∀ c < s.dialed, c ∉ s.shut → s.Held c

/-- A step that leaves the supervisor where it is. -/
theorem Held.of_same {s' : Transport} {c : Nat} (h : s.Held c) (hsup : s'.supervisor = s.supervisor)
    (hconn : s.conn = some c → s'.conn = some c ∨ s'.closer = .closeConn c ∧ s.supervisor ≠ .load ∨
      s.reads c = true ∧ (s'.closed = false ∨ s.supervisor = .read c))
    (hcloser : s.closer = .closeConn c → s'.closer = .closeConn c)
    (hclosed : s.closed = false → s.reads c = true →
      s'.closed = false ∨ s'.conn = some c ∨ s.supervisor = .read c) : s'.Held c := by
  unfold Held at h ⊢
  rw [hsup]
  cases hs : s.supervisor <;> rw [hs] at h
  case top | exited =>
    rcases h with hc | hc
    · rcases hconn hc with hc | ⟨hc, -⟩ | ⟨hr, -⟩
      · exact .inl hc
      · exact .inr hc
      · simp [reads, hs] at hr
    · exact .inr (hcloser hc)
  case load =>
    rcases hconn h with hc | ⟨-, hne⟩ | ⟨hr, -⟩
    · exact hc
    · exact absurd hs hne
    · simp [reads, hs] at hr
  case check d | failed d | push d | drained d =>
    obtain ⟨rfl, h⟩ := h
    have hr : s.reads d = true := by simp [reads, hs]
    refine ⟨rfl, ?_⟩
    rcases h with hc | hc | hc
    · rcases hclosed hc hr with hc | hc | hc
      · exact .inl hc
      · exact .inr (.inl hc)
      · cases hs.symm.trans hc
    · rcases hconn hc with hc | ⟨hc, -⟩ | ⟨-, hc | hc⟩
      · exact .inr (.inl hc)
      · exact .inr (.inr hc)
      · exact .inl hc
      · cases hs.symm.trans hc
    · exact .inr (.inr (hcloser hc))
  case dialed d => cases d <;> exact h
  all_goals exact h

theorem Inv.supervise (h : s.Inv) {read : Read} {timer dialOk : Bool}
    (hok : s.Careful (.supervise read timer dialOk)) :
    (s.supervise recvBuffer read timer dialOk).Inv := by
  obtain ⟨hordered, hclosed, htaken, hheld⟩ := h
  refine ⟨hordered.step recvBuffer (.supervise read timer dialOk), ?_, ?_, fun c => ?_⟩
  · cases hsup : s.supervisor with
    | _ => grind -linarith [Transport.supervise]
  · have hflag := hordered.closed
    cases hsup : s.supervisor with
    | _ => grind -linarith [Transport.supervise]
  have hcloser : s.closed = false → s.closer ≠ .closeConn c := fun hflag hclosing =>
    absurd (hflag.symm.trans (hordered.closed (by simp [hclosing]))) (by decide)
  have hbefore := hheld c
  unfold Held at hbefore
  unfold Transport.supervise
  cases hsup : s.supervisor <;> rw [hsup] at hbefore
  case top =>
    cases hflag : s.closed with
    | true => exact hbefore
    | false => exact fun hc hopen => (hbefore hc hopen).resolve_right (hcloser hflag)
  case load =>
    have hflag : s.closed = false := by
      by_contra hflag
      exact (hclosed (by simpa using hflag)).1 hsup
    cases hconn : s.conn with
    | some d =>
      exact fun hc hopen => ⟨Option.some.inj (hconn.symm.trans (hbefore hc hopen)), .inl hflag⟩
    | none => exact fun hc hopen => nomatch hconn.symm.trans (hbefore hc hopen)
  case check d =>
    cases hflag : s.closed with
    | true => exact hbefore
    | false => exact fun hc hopen => (hbefore hc hopen).1
  case read d =>
    -- a read that does not close the connection leaves it to someone else, once Close has begun
    have hkept (hread : read ≠ .error true) (hc : c < s.dialed) (hopen : c ∉ s.shut) :
        d = c ∧ (s.closed = false ∨ s.conn = some c ∨ s.closer = .closeConn c) := by
      obtain rfl := hbefore hc hopen
      cases hflag : s.closed with
      | false => exact ⟨rfl, .inl rfl⟩
      | true =>
        rcases hok d hsup hflag with hconn | hclosing | hshut | herror
        · exact ⟨rfl, .inr (.inl hconn)⟩
        · exact ⟨rfl, .inr (.inr hclosing)⟩
        · exact absurd hshut hopen
        · exact absurd herror hread
    cases read with
    | error closes =>
      cases closes with
      | true =>
        exact fun hc hopen => absurd (hbefore hc fun h => hopen (List.mem_cons_of_mem d h))
          fun heq => hopen (heq ▸ (.head _))
      | false => exact hkept nofun
    | ignored | frame => exact hkept nofun
  case failed d => exact hbefore
  case push d =>
    dsimp only
    split
    · exact hbefore
    · intro hc hopen
      unfold Held
      rw [hsup]
      exact hbefore hc hopen
  case drained d =>
    cases hflag : s.closed with
    | true => exact fun hc hopen => (hbefore hc hopen).2.resolve_left (by rw [hflag]; exact nofun)
    | false => exact fun hc hopen => (hbefore hc hopen).1
  case clear d =>
    dsimp only
    rcases s.takeOut_cases d with ⟨heq, -⟩ | ⟨heq, -⟩ <;> (rw [heq]; exact hbefore)
  case drop d | abandon d =>
    exact fun hc hopen => absurd (hbefore hc fun h => hopen (List.mem_cons_of_mem d h))
      fun heq => hopen (heq ▸ (.head _))
  case sleep =>
    dsimp only
    split_ifs <;> exact fun hc hopen => (hbefore hc hopen).elim
  case dial =>
    cases dialOk with
    | true =>
      intro hc hopen
      rcases Nat.lt_succ_iff_lt_or_eq.mp hc with hold | hnew
      · exact (hbefore hold hopen).elim
      · exact hnew.symm
    | false => exact fun hc hopen => (hbefore hc hopen).elim
  case dialed d =>
    cases d with
    | none => cases hflag : s.closed <;> exact fun hc hopen => (hbefore hc hopen).elim
    | some d => cases hflag : s.closed <;> exact hbefore
  case install d => exact fun hc hopen => .inl (congrArg some (hbefore hc hopen))
  case exited =>
    intro hc hopen
    unfold Held
    rw [hsup]
    exact hbefore hc hopen

theorem Inv.close (h : s.Inv) (hok : s.Careful .close) : s.close.Inv := by
  obtain ⟨hordered, hclosed, htaken, hheld⟩ := h
  have hflag := hordered.closed
  refine ⟨hordered.step 0 .close, ?_, ?_, fun c => ?_⟩
  · grind -linarith [Transport.close, Careful]
  · grind -linarith [Transport.close]
  have hbefore := hheld c
  unfold Transport.close
  cases hcloser : s.closer with
  | idle =>
    refine fun hc hopen => (hbefore hc hopen).of_same rfl .inl (by simp [hcloser]) fun _ hr => ?_
    rcases (hok hcloser).2.2 c hr with hconn | hshut | hread
    · exact .inr (.inl hconn)
    · exact absurd hshut hopen
    · exact .inr (.inr hread)
  | cancel =>
    exact fun hc hopen => (hbefore hc hopen).of_same rfl .inl (by simp [hcloser]) fun hf _ => .inl hf
  | take =>
    have hload := (hclosed (hflag (by simp [hcloser]))).1
    cases hconn : s.conn with
    | some d =>
      refine fun hc hopen => (hbefore hc hopen).of_same rfl (fun hd => ?_) (by simp [hcloser])
        fun hf _ => .inl hf
      exact .inr (.inl ⟨congrArg Closer.closeConn (Option.some.inj (hconn.symm.trans hd)), hload⟩)
    | none =>
      exact fun hc hopen => (hbefore hc hopen).of_same rfl (by simp [hconn]) (by simp [hcloser])
        fun hf _ => .inl hf
  | closeConn d =>
    have hnone : s.conn = none := htaken (by simp [hcloser]) (by simp [hcloser]) (by simp [hcloser])
    intro hc hopen
    refine (hbefore hc fun h => hopen (List.mem_cons_of_mem d h)).of_same rfl (by simp [hnone])
      (fun hd => ?_) fun hf _ => .inl hf
    rw [hcloser] at hd
    cases hd
    exact absurd (.head _) hopen
  | wait =>
    dsimp only
    split
    · exact fun hc hopen => (hbefore hc hopen).of_same rfl .inl (by simp [hcloser]) fun hf _ => .inl hf
    · exact hbefore
  | closeRecv =>
    exact fun hc hopen => (hbefore hc hopen).of_same rfl .inl (by simp [hcloser]) fun hf _ => .inl hf
  | returned => exact hbefore

theorem Inv.call (h : s.Inv) {k : Option Nat} {ok closes : Bool}
    (hok : s.Careful (.call k ok closes)) : (s.call k ok closes).Inv := by
  obtain ⟨hordered, hclosed, htaken, hheld⟩ := h
  refine ⟨hordered.step 0 (.call k ok closes), ?_, ?_, fun c => ?_⟩
  · grind -linarith [Transport.call]
  · grind -linarith [Transport.call]
  have hbefore := hheld c
  have hmore (d : Nat) (callers : Option Nat → Caller) (hc : c < s.dialed) (hopen : c ∉ d :: s.shut) :
      Held { s.closeConn d with callers } c :=
    hbefore hc fun h => hopen (List.mem_cons_of_mem d h)
  unfold Transport.call
  cases hcaller : s.callers k with
  | idle =>
    dsimp only
    split <;> exact hbefore
  | load => cases hconn : s.conn <;> exact hbefore
  | write d =>
    cases ok with
    | true => exact hbefore
    | false =>
      cases closes with
      | true => exact hmore d _
      | false => exact hbefore
  | failed d => exact hbefore
  | clear d =>
    dsimp only
    rcases s.takeOut_cases d with ⟨heq, hconn⟩ | ⟨heq, -⟩
    · rw [heq]
      refine fun hc hopen => (hbefore hc hopen).of_same rfl (fun hd => ?_) id fun hf _ => .inl hf
      obtain rfl := Option.some.inj (hconn.symm.trans hd)
      exact .inr (.inr (hok d hcaller hconn))
    · rwa [heq]
  | closeConn d => exact hmore d _

theorem Inv.step (h : s.Inv) (hok : s.Careful i) : (s.step recvBuffer i).Inv := by
  cases i with
  | supervise read timer dialOk => exact h.supervise hok
  | close => exact h.close hok
  | call k ok closes => exact h.call hok
  | recv => exact ⟨h.ordered.step recvBuffer .recv, h.closed, h.taken, h.held⟩

/-- In a careful run every connection is closed when `Close` has returned, and whenever the
supervisor dials. -/
theorem connections_closed (recvBuffer : Nat) (inputs : List Input)
    (hcareful : AllSteps (Transport.step recvBuffer) Careful fresh inputs) :
    let s := inputs.foldl (Transport.step recvBuffer) fresh
    s.closer = .returned ∨ s.supervisor = .dial → ∀ c < s.dialed, c ∈ s.shut := by
  intro s hend c hc
  have hinv : s.Inv := by
    refine run_invariant Inv (fun _ _ h hi => h.step hi)
      ⟨⟨nofun, nofun, by simp [fresh]⟩, nofun, nofun, ?_⟩ hcareful
    intro c hc hopen
    have hzero : c = 0 := Nat.lt_one_iff.mp hc
    exact .inl (congrArg some hzero.symm)
  by_contra hopen
  have hheld := hinv.held c hc hopen
  rcases hend with hreturned | hdial
  · have hnone := hinv.taken (by simp [hreturned]) (by simp [hreturned]) (by simp [hreturned])
    simp [Held, hinv.ordered.exited (.inr hreturned), hnone, hreturned] at hheld
  · simp [Held, hdial] at hheld

def failedSend : List Input := List.replicate 5 (.call (some 0) false false)

/-- It takes the connection out while the supervisor waits in `Read`; `Close` cancels the
context, and the library closes the connection. -/
theorem closed_connection_closed :
    let inputs := connected ++ quiet :: (failedSend ++ List.replicate 3 Input.close ++
      [quiet, quiet, quiet] ++ List.replicate 2 Input.close)
    let s := inputs.foldl (Transport.step 1) fresh
    s.closer = .returned ∧ s.conn = none ∧ 0 ∈ s.shut := by
  refine ⟨by decide, by decide, connections_closed 1 _ ?_ (.inl (by decide)) 0 (by decide)⟩
  refine ⟨nofun, nofun, nofun, nofun, nofun, nofun, nofun, ?_, ?_, nofun, nofun, ?_, nofun, nofun,
    nofun, nofun, trivial⟩
  · intro c _ hconn
    obtain rfl : 0 = c := Option.some.inj hconn
    exact ⟨rfl, .inl rfl⟩
  · refine fun _ => ⟨nofun, nofun, fun c hr => .inr (.inr ?_)⟩
    exact congrArg Supervisor.read (of_decide_eq_true hr : 0 = c)
  · exact fun c _ _ => .inr (.inr (.inr rfl))

/-- A failed `Send` takes the connection out while the supervisor has it in hand, and `Close` then
finds none: the supervisor sees the flag before it reads, and neither closes it. Before the
supervisor has looked, it dials a new one over it. -/
theorem taken_connection_left_open :
    (let s := (connected ++ failedSend ++ List.replicate 3 Input.close ++ connected ++
      List.replicate 2 Input.close).foldl (Transport.step 1) fresh
     s.closer = .returned ∧ 0 < s.dialed ∧ 0 ∉ s.shut) ∧
    (let s := (failedSend ++ connected ++ [Input.supervise (.error true) true false]).foldl
       (Transport.step 1) fresh
     s.supervisor = .dial ∧ s.conn ≠ some 0 ∧ 0 < s.dialed ∧ 0 ∉ s.shut) := by
  decide

end Transport

end PilotProtocol.WSS
