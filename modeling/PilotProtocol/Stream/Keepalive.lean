import PilotProtocol.Library.Run
import PilotProtocol.Stream.Ports

/-! # Keepalive between two daemons

Two daemons hold the two ends of one idle connection. Each runs `keepaliveSweep` on a
timer of its own, and the packets between them take time. A probe is a bare ACK: it
refreshes the end it arrives at and is not answered.
-/

namespace PilotProtocol.Keepalive

open Library Ports
open PilotProtocol.Stream (ConnState Seq)

inductive End
  | left
  | right
  deriving DecidableEq

def End.peer : End → End
  | .left => .right
  | .right => .left

@[simp] theorem End.peer_peer (x : End) : x.peer.peer = x := by cases x <;> rfl

@[simp] theorem End.peer_ne (x : End) : x.peer ≠ x := by cases x <;> decide

@[simp] theorem End.ne_peer (x : End) : x ≠ x.peer := by cases x <;> decide

theorem End.all (x : End) {P : End → Prop} (hx : P x) (hpeer : P x.peer) (y : End) : P y := by
  cases x <;> cases y <;> assumption

instance (P : End → Prop) [DecidablePred P] : Decidable (∀ x, P x) :=
  decidable_of_iff (P .left ∧ P .right)
    ⟨fun h x => by cases x with
      | left => exact h.1
      | right => exact h.2, fun h => ⟨h .left, h .right⟩⟩

/-- Packets without payload. -/
inductive Packet
  | ack (seq ack : Seq)
  | fin (seq : Seq)
  | finAck (seq ack : Seq)
  deriving DecidableEq

structure InFlight where
  pkt : Packet
  sentAt : Nat
  deriving DecidableEq

structure Link where
  now : Nat
  conn : End → Conn
  /-- When each end last ran its sweep. -/
  swept : End → Option Nat
  /-- What is on its way to each end. -/
  flight : End → List InFlight
  /-- The ends that a sweep closed while the other end was ESTABLISHED. -/
  reaped : List End

namespace Link

def setConn (s : Link) (x : End) (c : Conn) : Link := { s with conn := Function.update s.conn x c }

def send (s : Link) (x : End) (pkt : Packet) (now : Nat) : Link :=
  { s with flight := Function.update s.flight x.peer (s.flight x.peer ++ [⟨pkt, now⟩]) }

/-- `CloseConnection` of an established connection with nothing unacknowledged. -/
def closeConnection (s : Link) (x : End) (now : Nat) : Link :=
  let c := s.conn x
  (s.setConn x { c with state := .finWait, sendSeq := c.sendSeq + 1, lastActivity := now }).send x
    (.fin c.sendSeq) now

def keepaliveSweep (s : Link) (x : End) (keepaliveInterval now : Nat) : Link :=
  let c := s.conn x
  if c.idle now keepaliveInterval then
    if 3 ≤ c.keepaliveUnacked then
      { s.closeConnection x now with
        reaped := if (s.conn x.peer).state = .established then s.reaped ++ [x] else s.reaped }
    else
      (s.setConn x { c with keepaliveUnacked := c.keepaliveUnacked + 1 }).send x
        (.ack c.sendSeq c.recvAck) now
  else s

/-- A FIN: nothing is missing before it when no data is under way. -/
def acceptFIN (s : Link) (x : End) (finSeq : Seq) (now : Nat) : Link :=
  let c := s.conn x
  let wasTimeWait := c.state = .timeWait
  let s := s.setConn x { c with
    state := .timeWait
    lastActivity := if wasTimeWait then c.lastActivity else now
    keepaliveUnacked := 0 }
  if wasTimeWait then s else s.send x (.finAck c.sendSeq (finSeq + 1)) now

/-- An ACK without payload acknowledges nothing new and gets no answer. -/
def handleStreamPacket (s : Link) (x : End) (pkt : Packet) (now : Nat) : Link :=
  match pkt with
  | .ack _ _ => s.setConn x { s.conn x with lastActivity := now, keepaliveUnacked := 0 }
  | .fin seq | .finAck seq _ => s.acceptFIN x seq now

end Link

inductive Event
  | sweep (x : End) (now : Nat)
  | deliver (x : End) (i : Nat) (now : Nat)
  deriving DecidableEq

def Event.now : Event → Nat
  | .sweep _ now => now
  | .deliver _ _ now => now

def Link.step (keepaliveInterval : Nat) (s : Link) (e : Event) : Link :=
  let s := { s with now := e.now }
  match e with
  | .sweep x now =>
    { s.keepaliveSweep x keepaliveInterval now with swept := Function.update s.swept x (some now) }
  | .deliver x i now =>
    match (s.flight x)[i]? with
    | none => s
    | some p =>
      { s with flight := Function.update s.flight x ((s.flight x).eraseIdx i) }.handleStreamPacket
        x p.pkt now

/-! ## What is asked of a run -/

/-- An end's sweeps are at least `interval` apart. -/
def Spaced (interval : Nat) (s : Link) : Event → Prop
  | .sweep x now => ∀ last ∈ s.swept x, last + interval ≤ now
  | .deliver _ _ _ => True

/-- Time does not run back, and nothing stays in flight for longer than `delay`. -/
def Timely (delay : Nat) (s : Link) (e : Event) : Prop :=
  s.now ≤ e.now ∧ ∀ x, ∀ p ∈ s.flight x, e.now ≤ p.sentAt + delay

/-- A packet arrives only at an end that has sent a probe since it last heard from the
other end. -/
def Crossing (s : Link) : Event → Prop
  | .sweep _ _ => True
  | .deliver x i _ => i < (s.flight x).length → 0 < (s.conn x).keepaliveUnacked

instance (interval : Nat) (s : Link) (e : Event) : Decidable (Spaced interval s e) := by
  cases e <;> dsimp only [Spaced] <;> infer_instance

instance (delay : Nat) (s : Link) (e : Event) : Decidable (Timely delay s e) :=
  inferInstanceAs (Decidable (_ ∧ _))

instance (s : Link) (e : Event) : Decidable (Crossing s e) := by
  cases e <;> dsimp only [Crossing] <;> infer_instance

/-- Both ends are established, with no probe out and nothing in flight. -/
structure Calm (s : Link) : Prop where
  established : ∀ x, (s.conn x).state = .established
  unacked : ∀ x, (s.conn x).keepaliveUnacked = 0
  flight : ∀ x, s.flight x = []
  swept : ∀ x, ∀ last ∈ s.swept x, last ≤ s.now
  reaped : s.reaped = []

/-! ## Probes that cross -/

def Link.unacked (s : Link) (x : End) : Nat := (s.conn x).keepaliveUnacked

/-- Where the other end's next packet is, by the number of probes an end has out. -/
structure Inv (s : Link) : Prop where
  established : ∀ x, (s.conn x).state = .established
  acks : ∀ x, ∀ p ∈ s.flight x, ∃ seq ack, p.pkt = .ack seq ack
  sent : ∀ x, ∀ p ∈ s.flight x.peer, ∃ last ∈ s.swept x, p.sentAt ≤ last
  past : ∀ x, ∀ last ∈ s.swept x, last ≤ s.now
  one : ∀ x, 1 ≤ s.unacked x → s.flight x.peer ≠ [] ∨ (1 ≤ s.unacked x.peer → s.flight x ≠ [])
  two : ∀ x, 2 ≤ s.unacked x → 1 ≤ s.unacked x.peer → s.flight x ≠ []
  either : ∀ x, 2 ≤ s.unacked x → s.flight x.peer ≠ [] ∨ s.flight x ≠ []
  three : ∀ x, 3 ≤ s.unacked x → ∃ p ∈ s.flight x, ∃ last ∈ s.swept x, p.sentAt ≤ last
  reaped : s.reaped = []

theorem Calm.inv {s : Link} (h : Calm s) : Inv s := by
  have hnone : ∀ x, s.unacked x = 0 := h.unacked
  have hempty : ∀ x, ∀ p, p ∉ s.flight x := fun x p hp => by
    simp [h.flight x] at hp
  exact
    { established := h.established
      acks := fun x p hp => absurd hp (hempty x p)
      sent := fun x p hp => absurd hp (hempty x.peer p)
      past := h.swept
      one := fun x hx => by rw [hnone x] at hx; omega
      two := fun x hx => by rw [hnone x] at hx; omega
      either := fun x hx => by rw [hnone x] at hx; omega
      three := fun x hx => by rw [hnone x] at hx; omega
      reaped := h.reaped }

section Sweeps

variable {s : Link} {interval delay now : Nat} {x : End}

theorem Inv.delivered (h : Inv s) (hdelay : delay < interval)
    (hspaced : Spaced interval s (.sweep x now)) (htimely : Timely delay s (.sweep x now)) :
    s.flight x.peer = [] := by
  rw [List.eq_nil_iff_forall_not_mem]
  intro p hp
  obtain ⟨last, hlast, hsent⟩ := h.sent x p hp
  have hnext : last + interval ≤ now := hspaced last hlast
  have harrives : now ≤ p.sentAt + delay := htimely.2 x.peer p hp
  omega

/-- An end never sweeps with three probes out: a packet that would have to be in flight
for longer than `delay` has arrived. -/
theorem Inv.unacked_lt (h : Inv s) (hdelay : delay < interval)
    (hspaced : Spaced interval s (.sweep x now)) (htimely : Timely delay s (.sweep x now)) :
    s.unacked x < 3 := by
  refine Nat.lt_of_not_le fun hthree => ?_
  obtain ⟨p, hp, last, hlast, hsent⟩ := h.three x hthree
  have hnext : last + interval ≤ now := hspaced last hlast
  have harrives : now ≤ p.sentAt + delay := htimely.2 x p hp
  omega

theorem Inv.quiet (h : Inv s) (hnow : s.now ≤ now) :
    Inv { s with now := now, swept := Function.update s.swept x (some now) } := by
  have hlater : ∀ y, ∀ last ∈ s.swept y, ∃ last' ∈ Function.update s.swept x (some now) y,
      last ≤ last' := by
    intro y last hlast
    by_cases hxy : y = x
    · subst hxy
      exact ⟨now, by simp, (h.past y last hlast).trans hnow⟩
    · exact ⟨last, by rwa [Function.update_of_ne hxy], le_rfl⟩
  refine { h with sent := ?_, past := ?_, three := ?_ }
  · intro y p hp
    obtain ⟨last, hlast, hsent⟩ := h.sent y p hp
    obtain ⟨last', hlast', hle⟩ := hlater y last hlast
    exact ⟨last', hlast', hsent.trans hle⟩
  · intro y last hlast
    replace hlast : last ∈ Function.update s.swept x (some now) y := hlast
    by_cases hxy : y = x
    · subst hxy
      simp only [Function.update_self, Option.mem_def, Option.some.injEq] at hlast
      exact Nat.le_of_eq hlast.symm
    · rw [Function.update_of_ne hxy] at hlast
      exact (h.past y last hlast).trans hnow
  · intro y hthree
    obtain ⟨p, hp, last, hlast, hsent⟩ := h.three y hthree
    obtain ⟨last', hlast', hle⟩ := hlater y last hlast
    exact ⟨p, hp, last', hlast', hsent.trans hle⟩

/-- A sweep that sends a probe, with nothing of its own left in flight: whatever the other
end has sent since it heard from this one is still on its way. -/
theorem Inv.probe (h : Inv s) (hswept : now ∈ s.swept x) (hnow : s.now = now)
    (hflight : s.flight x.peer = []) (seq ack : Seq) :
    Inv ((s.setConn x { s.conn x with keepaliveUnacked := s.unacked x + 1 }).send x
      (.ack seq ack) now) := by
  generalize hs' : (s.setConn x { s.conn x with keepaliveUnacked := s.unacked x + 1 }).send x
    (.ack seq ack) now = s'
  have hmine : s'.unacked x = s.unacked x + 1 := by
    simp [← hs', Link.unacked, Link.send, Link.setConn]
  have htheirs : s'.unacked x.peer = s.unacked x.peer := by
    simp [← hs', Link.unacked, Link.send, Link.setConn]
  have hout : s'.flight x.peer = [⟨.ack seq ack, now⟩] := by
    simp [← hs', Link.send, Link.setConn, hflight]
  have hin : s'.flight x = s.flight x := by simp [← hs', Link.send, Link.setConn]
  have hsame : s'.swept = s.swept ∧ s'.now = s.now ∧ s'.reaped = s.reaped := by
    simp [← hs', Link.send, Link.setConn]
  have hpeer : s'.flight x.peer ≠ [] := by simp [hout]
  constructor
  case established =>
    exact End.all x (by simpa [← hs', Link.send, Link.setConn] using h.established x)
      (by simpa [← hs', Link.send, Link.setConn] using h.established x.peer)
  case acks =>
    refine End.all x (fun p hp => h.acks x p (hin ▸ hp)) fun p hp => ?_
    rw [hout, List.mem_singleton] at hp
    exact ⟨seq, ack, by rw [hp]⟩
  case sent =>
    rw [hsame.1]
    refine End.all x (fun p hp => ?_) fun p hp => ?_
    · rw [hout, List.mem_singleton] at hp
      exact ⟨now, hswept, by rw [hp]⟩
    · rw [End.peer_peer, hin] at hp
      exact h.sent x.peer p (by rwa [End.peer_peer])
  case past =>
    rw [hsame.1, hsame.2.1]
    exact h.past
  case reaped => rw [hsame.2.2, h.reaped]
  case one => exact End.all x (fun _ => .inl hpeer) fun _ => .inr fun _ => hpeer
  case two =>
    refine End.all x (fun hx hother => ?_) fun _ _ => hpeer
    rw [htheirs] at hother
    rw [hin]
    exact (h.one x (by omega)).resolve_left (· hflight) hother
  case either => exact End.all x (fun _ => .inl hpeer) fun _ => .inr hpeer
  case three =>
    rw [hsame.1]
    refine End.all x (fun hx => ?_) fun hother => ?_
    · rw [hin]
      obtain ⟨p, hp⟩ :=
        List.exists_mem_of_ne_nil _ ((h.either x (by omega)).resolve_left (· hflight))
      obtain ⟨last, hlast, hsent⟩ := h.sent x.peer p (by rwa [End.peer_peer])
      exact ⟨p, hp, now, hswept, hsent.trans (hnow ▸ h.past x.peer last hlast)⟩
    · obtain ⟨p, hp, -⟩ := h.three x.peer (htheirs ▸ hother)
      simp [hflight] at hp

end Sweeps

theorem Inv.arrive {s : Link} {x : End} {now : Nat} (h : Inv s) (hnow : s.now ≤ now)
    (hcrossing : 0 < s.unacked x) (i : Nat) : Inv { s with
      now := now
      conn := Function.update s.conn x { s.conn x with lastActivity := now, keepaliveUnacked := 0 }
      flight := Function.update s.flight x ((s.flight x).eraseIdx i) } := by
  generalize hs' : ({ s with
      now := now
      conn := Function.update s.conn x { s.conn x with lastActivity := now, keepaliveUnacked := 0 }
      flight := Function.update s.flight x ((s.flight x).eraseIdx i) } : Link) = s'
  have hmine : s'.unacked x = 0 := by simp [← hs', Link.unacked]
  have htheirs : s'.unacked x.peer = s.unacked x.peer := by simp [← hs', Link.unacked]
  have hin : s'.flight x = (s.flight x).eraseIdx i := by simp [← hs']
  have hout : s'.flight x.peer = s.flight x.peer := by simp [← hs']
  have hsame : s'.swept = s.swept ∧ s'.now = now ∧ s'.reaped = s.reaped := by simp [← hs']
  have hfewer : ∀ y, ∀ p ∈ s'.flight y, p ∈ s.flight y :=
    End.all x (fun p hp => List.mem_of_mem_eraseIdx (hin ▸ hp)) fun p hp => hout ▸ hp
  constructor
  case established =>
    exact End.all x (by simpa [← hs'] using h.established x)
      (by simpa [← hs'] using h.established x.peer)
  case acks => exact fun y p hp => h.acks y p (hfewer y p hp)
  case sent =>
    rw [hsame.1]
    exact fun y p hp => h.sent y p (hfewer y.peer p hp)
  case past =>
    rw [hsame.1, hsame.2.1]
    exact fun y last hlast => (h.past y last hlast).trans hnow
  case reaped => rw [hsame.2.2, h.reaped]
  case one =>
    refine End.all x (fun hx => by omega) fun _ => .inr fun hx => ?_
    rw [End.peer_peer, hmine] at hx
    omega
  case two =>
    refine End.all x (fun hx => by omega) fun _ hx => ?_
    rw [End.peer_peer, hmine] at hx
    omega
  case either =>
    refine End.all x (fun hx => by omega) fun hother => ?_
    -- The end that has just heard from the other has sent a probe that this has not heard of.
    rw [htheirs] at hother
    rw [hout]
    exact .inr (h.two x.peer hother (by rwa [End.peer_peer]))
  case three =>
    rw [hsame.1]
    refine End.all x (fun hx => by omega) fun hother => ?_
    rw [hout]
    exact h.three x.peer (htheirs ▸ hother)

theorem Inv.step {s : Link} (keepaliveInterval : Nat) {interval delay : Nat} (hdelay : delay < interval)
    {e : Event} (h : Inv s) (hspaced : Spaced interval s e) (htimely : Timely delay s e)
    (hcrossing : Crossing s e) : Inv (s.step keepaliveInterval e) := by
  cases e with
  | sweep x now =>
    have hflight := h.delivered hdelay hspaced htimely
    have hfew : ¬ 3 ≤ (s.conn x).keepaliveUnacked :=
      Nat.not_le.mpr (h.unacked_lt hdelay hspaced htimely)
    have hquiet : Inv { s with now := now, swept := Function.update s.swept x (some now) } :=
      h.quiet htimely.1
    simp only [Link.step, Event.now, Link.keepaliveSweep, hfew, if_false]
    split
    · exact hquiet.probe (by simp) rfl hflight _ _
    · exact hquiet
  | deliver x i now =>
    simp only [Link.step, Event.now]
    split
    · exact { h with past := fun y last hlast => (h.past y last hlast).trans htimely.1 }
    next p hp =>
      obtain ⟨seq, ack, hpkt⟩ := h.acks x p (List.mem_of_getElem? hp)
      rw [hpkt]
      exact h.arrive htimely.1 (hcrossing (List.getElem?_eq_some_iff.mp hp).1) i

/-- When every probe meets one of the other end on its way, no sweep closes the
connection while the other end holds it established. -/
theorem crossing_probes_keep_connection (keepaliveInterval interval delay : Nat)
    (hdelay : delay < interval) (s : Link) (hs : Calm s) (events : List Event)
    (hspaced : AllSteps (Link.step keepaliveInterval) (Spaced interval) s events)
    (htimely : AllSteps (Link.step keepaliveInterval) (Timely delay) s events)
    (hcrossing : AllSteps (Link.step keepaliveInterval) Crossing s events) :
    (events.foldl (Link.step keepaliveInterval) s).reaped = [] :=
  (run_invariant Inv (fun _ _ h hok => h.step keepaliveInterval hdelay hok.1 hok.2.1 hok.2.2)
    hs.inv (hspaced.and (htimely.and hcrossing))).reaped

def idlePair : Link where
  now := 0
  conn x :=
    { id := 1, localPort := 50000, remoteAddr := ⟨0, if x = .left then 2 else 1⟩, remotePort := 50000,
      state := .established, lastActivity := 0, keepaliveUnacked := 0, sendSeq := 1, recvAck := 1 }
  swept _ := none
  flight _ := []
  reaped := []

theorem idlePair_calm : Calm idlePair where
  established _ := rfl
  unacked _ := rfl
  flight _ := rfl
  swept x last hlast := by cases hlast
  reaped := rfl

def keepaliveInterval : Nat := 60 * second
def idleSweepInterval : Nat := 15 * second

/-- Both ends sweep every 15 s, at the same moments; a packet takes a second. -/
def inStep (n : Nat) : List Event :=
  let t := n * idleSweepInterval
  [.sweep .left t, .sweep .right t, .deliver .left 0 (t + second), .deliver .right 0 (t + second)]

theorem probes_in_step_keep_connection :
    let events := (List.range 20).flatMap inStep
    AllSteps (Link.step keepaliveInterval) Crossing idlePair events ∧
    (events.foldl (Link.step keepaliveInterval) idlePair).now = 286 * second ∧
    (events.foldl (Link.step keepaliveInterval) idlePair).reaped = [] :=
  ⟨by decide +kernel, by decide +kernel,
    crossing_probes_keep_connection keepaliveInterval idleSweepInterval second (by decide) idlePair
      idlePair_calm _ (by decide +kernel) (by decide +kernel) (by decide +kernel)⟩

/-- The right end sweeps 5 s after the left one, and so is the first to be idle. -/
def outOfStep (n : Nat) : List Event :=
  let t := n * idleSweepInterval
  [.sweep .left t, .sweep .right (t + 5 * second), .deliver .left 0 (t + 6 * second)]

/-- Every probe of one end arrives within a second and keeps the other end from sending
one: the first end is never answered and closes the connection that its peer holds. -/
theorem suppressed_probes_close_connection :
    let events := (List.range 8).flatMap outOfStep
    Calm idlePair ∧
    AllSteps (Link.step keepaliveInterval) (Spaced idleSweepInterval) idlePair events ∧
    AllSteps (Link.step keepaliveInterval) (Timely second) idlePair events ∧
    (events.foldl (Link.step keepaliveInterval) idlePair).reaped = [.right] :=
  ⟨idlePair_calm, by decide +kernel, by decide +kernel, by decide +kernel⟩

end PilotProtocol.Keepalive
