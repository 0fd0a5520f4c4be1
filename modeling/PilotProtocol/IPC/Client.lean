import PilotProtocol.Stream.EphemeralPorts

/-! # An IPC client and the connections on its ports

One client of the IPC server: the ports it binds, the goroutines that push accepted
connections to it, the handlers of its requests and the cleanup after it disconnects. The
packet goroutine accepts connections beside them. A step is one critical section or one
channel operation.
-/

namespace PilotProtocol.IPC

open Library
open PilotProtocol.Stream (ConnState)
open PilotProtocol.Ports (PortManager Conn Addr)

/-! ## Listeners -/

def acceptQueueLen : Nat := 64

structure Listener where
  port : UInt16
  acceptCh : List Nat
  closed : Bool

/-- The listener with the connection queued, or `none` if it is closed or its queue full. -/
def Listener.trySend (ln : Listener) (ref : Nat) : Option Listener :=
  if ln.closed = true ∨ acceptQueueLen ≤ ln.acceptCh.length then none
  else some { ln with acceptCh := ln.acceptCh ++ [ref] }

def Listener.close (ln : Listener) : Listener := { ln with closed := true }

/-- The listeners ever made and those in the port manager's map. -/
structure Listeners where
  objects : List Listener
  bound : GoMap UInt16 Nat

namespace Listeners

def modify (ls : Listeners) (l : Nat) (f : Listener → Listener) : Listeners :=
  { ls with objects := ls.objects.modify l f }

/-- `none` if the port is bound already. -/
def bind (ls : Listeners) (port : UInt16) : Option (Nat × Listeners) :=
  match ls.bound.lookup port with
  | some _ => none
  | none =>
    some (ls.objects.length,
      { objects := ls.objects ++ [⟨port, [], false⟩]
        bound := ls.bound.insert port ls.objects.length })

def unbind (ls : Listeners) (port : UInt16) : Listeners :=
  match ls.bound.lookup port with
  | none => ls
  | some l => { ls.modify l Listener.close with bound := ls.bound.erase port }

end Listeners

/-! ## The system -/

/-- A goroutine that pushes a listener's connections to the client. -/
inductive PusherAt
  | receiving
  /-- It has taken a connection from the queue. -/
  | tracking (ref : Nat)
  | pushing (ref : Nat)
  deriving DecidableEq

inductive SynAt
  | idle
  | looked (l : Nat)
  | created (l ref : Nat)
  | established (l ref : Nat)
  deriving DecidableEq

inductive Request
  | bind (port : UInt16)
  | unbind (port : UInt16)
  | close (id : UInt32)
  deriving DecidableEq

inductive Handler
  | dispatched (r : Request)
  | bindTrack (port : UInt16) (l : Nat)
  | bindReply (l : Nat)
  | unbindPort (port : UInt16)
  | closeRemove (id : UInt32)
  deriving DecidableEq

/-- The deferred cleanup, with the connections it has still to close and the ports it has
still to unbind. -/
inductive Cleanup
  | pending
  | closing (conns : List UInt32) (ports : List UInt16)
  | done
  deriving DecidableEq

structure System where
  ports : PortManager
  /-- The connections whose `RecvBuf` is closed. Whoever closes it sets the state next. -/
  ending : List Nat
  /-- The connections that were made for a SYN on one of the client's ports. -/
  accepted : List Nat
  listeners : Listeners
  syn : SynAt
  /-- Whether the client's requests are still read. -/
  reading : Bool
  /-- Whether the client's socket is broken or closed, so that writes to it fail. -/
  broken : Bool
  conns : List UInt32
  clientPorts : List UInt16
  handlers : List Handler
  /-- The accept pushers, each with its listener. -/
  pushers : List (Nat × PusherAt)
  /-- The connections whose data a goroutine pushes to the client. -/
  recvPushers : List Nat
  cleanup : Cleanup

inductive Input
  | request (r : Request)
  /-- A handler's next step; `ok` is whether its reply could be written. -/
  | handle (h : Handler) (ok : Bool)
  | breakSocket
  | disconnect
  | copy
  | closeNext
  | unbindNext
  | finish
  | synLookup (port : UInt16)
  /-- The trust gate, a policy or a limit refuses the SYN, or it is a resend. -/
  | synDrop
  | synCreate (remoteAddr : Addr) (remotePort : UInt16) (now : Nat)
  | synEstablish
  | trySend
  | receive (l : Nat)
  | track (l ref : Nat)
  | push (l ref : Nat) (ok : Bool)
  | recvEnd (ref : Nat)
  /-- A FIN, a reset, a close or the sweeper begins to end a connection. -/
  | closeRecvBuf (ref : Nat)
  | setState (ref : Nat) (state : ConnState)
  | removeConnection (id : UInt32)
  /-- A dial, or a SYN on a port of someone else. -/
  | connectElsewhere (localPort : UInt16) (remoteAddr : Addr) (remotePort : UInt16) (now : Nat)

namespace System

def initial : System where
  ports := PortManager.new
  ending := []
  accepted := []
  listeners := ⟨[], ∅⟩
  syn := .idle
  reading := true
  broken := false
  conns := []
  clientPorts := []
  handlers := []
  pushers := []
  recvPushers := []
  cleanup := .pending

variable (s : System)

def setConnState (ref : Nat) (state : ConnState) : System :=
  { s with ports := s.ports.modifyConn ref fun c => { c with state := state } }

/-- `CloseConnection`: the receive side ends and the state becomes FIN_WAIT. -/
def closeConnection (ref : Nat) : System :=
  { s.setConnState ref .finWait with ending := ref :: s.ending }

def closeByID (id : UInt32) : System :=
  match s.ports.connections.lookup id with
  | none => s
  | some ref => s.closeConnection ref

def trackConn (ref : Nat) : System :=
  match s.ports.conn ref with
  | none => s
  | some c => { s with conns := s.conns ++ [c.id] }

def removeConn (id : UInt32) : System := { s with conns := s.conns.erase id }

def dispatch : Request → System
  | .bind port =>
    match s.listeners.bind port with
    | none => s
    | some (l, ls) => { s with listeners := ls, handlers := .bindTrack port l :: s.handlers }
  | .unbind port =>
    if port ∈ s.clientPorts then
      { s with
        clientPorts := s.clientPorts.erase port
        handlers := .unbindPort port :: s.handlers }
    else s
  | .close id =>
    let s' := s.closeByID id
    { s' with handlers := .closeRemove id :: s'.handlers }

def handleNext (ok : Bool) : Handler → System
  | .dispatched r => s.dispatch r
  | .bindTrack port l =>
    { s with
      clientPorts := s.clientPorts ++ [port]
      handlers := .bindReply l :: s.handlers }
  | .bindReply l => if ok then { s with pushers := (l, .receiving) :: s.pushers } else s
  | .unbindPort port => { s with listeners := s.listeners.unbind port }
  | .closeRemove id => s.removeConn id

def refuse (ref : Nat) : System :=
  match s.ports.conn ref with
  | none => s
  | some c =>
    let s' := s.setConnState ref .closed
    { s' with ports := s'.ports.removeConnection c.id }

def trySend (l ref : Nat) : System :=
  match s.listeners.objects[l]? with
  | none => s
  | some ln =>
    match ln.trySend ref with
    | some ln' => { s with listeners := s.listeners.modify l fun _ => ln' }
    | none => s.refuse ref

def synCreate (l : Nat) (port : UInt16) (remoteAddr : Addr) (remotePort : UInt16)
    (now : Nat) : System :=
  let made := s.ports.newConnection port remoteAddr remotePort now
  let s' := { s with ports := made.2, accepted := made.1 :: s.accepted, syn := .created l made.1 }
  s'.setConnState made.1 .synReceived

def movePusher (l : Nat) (p q : PusherAt) : System :=
  { s with pushers := (l, q) :: s.pushers.erase (l, p) }

def endPusher (l : Nat) (p : PusherAt) : System := { s with pushers := s.pushers.erase (l, p) }

/-- A pusher's turn at its queue. It waits while the queue is empty and open. -/
def receive (l : Nat) (ln : Listener) : System :=
  match ln.acceptCh with
  | ref :: rest =>
    let s' := s.movePusher l .receiving (.tracking ref)
    { s' with listeners := s'.listeners.modify l fun ln => { ln with acceptCh := rest } }
  | [] => if ln.closed then s.endPusher l .receiving else s

def pushed (l ref : Nat) (ok : Bool) : System :=
  if ok then
    let s' := s.movePusher l (.pushing ref) .receiving
    { s' with recvPushers := ref :: s'.recvPushers }
  else s.endPusher l (.pushing ref)

/-- A write can fail only on a socket that is broken. -/
def mayWrite (ok : Bool) : Bool := ok || s.broken

def step : Input → System
  | .request r => if s.reading then { s with handlers := .dispatched r :: s.handlers } else s
  | .handle h ok =>
    if h ∈ s.handlers ∧ s.mayWrite ok = true then
      { s with handlers := s.handlers.erase h }.handleNext ok h
    else s
  | .breakSocket => { s with broken := true }
  | .disconnect => { s with reading := false }
  | .copy =>
    if s.reading = false ∧ s.handlers = [] ∧ s.cleanup = .pending then
      { s with cleanup := .closing s.conns s.clientPorts }
    else s
  | .closeNext =>
    match s.cleanup with
    | .closing (id :: rest) ports => { s.closeByID id with cleanup := .closing rest ports }
    | _ => s
  | .unbindNext =>
    match s.cleanup with
    | .closing [] (port :: rest) =>
      { s with listeners := s.listeners.unbind port, cleanup := .closing [] rest }
    | _ => s
  | .finish =>
    match s.cleanup with
    | .closing [] [] => { s with broken := true, cleanup := .done }
    | _ => s
  | .synLookup port =>
    match s.syn, s.listeners.bound.lookup port with
    | .idle, some l => { s with syn := .looked l }
    | _, _ => s
  | .synDrop =>
    match s.syn with
    | .looked _ => { s with syn := .idle }
    | _ => s
  | .synCreate remoteAddr remotePort now =>
    match s.syn with
    | .looked l =>
      match s.listeners.objects[l]? with
      | some ln => s.synCreate l ln.port remoteAddr remotePort now
      | none => s
    | _ => s
  | .synEstablish =>
    match s.syn with
    | .created l ref => { s.setConnState ref .established with syn := .established l ref }
    | _ => s
  | .trySend =>
    match s.syn with
    | .established l ref => { s.trySend l ref with syn := .idle }
    | _ => s
  | .receive l =>
    if (l, .receiving) ∈ s.pushers then
      match s.listeners.objects[l]? with
      | some ln => s.receive l ln
      | none => s
    else s
  | .track l ref =>
    if (l, .tracking ref) ∈ s.pushers then
      (s.trackConn ref).movePusher l (.tracking ref) (.pushing ref)
    else s
  | .push l ref ok =>
    if (l, .pushing ref) ∈ s.pushers ∧ s.mayWrite ok = true then s.pushed l ref ok else s
  | .recvEnd ref =>
    if ref ∈ s.recvPushers ∧ (ref ∈ s.ending ∨ s.broken = true) then
      match s.ports.conn ref with
      | none => s
      | some c => { s.removeConn c.id with recvPushers := s.recvPushers.erase ref }
    else s
  | .closeRecvBuf ref => { s with ending := ref :: s.ending }
  | .setState ref state => if state = .established then s else s.setConnState ref state
  | .removeConnection id => { s with ports := s.ports.removeConnection id }
  | .connectElsewhere localPort remoteAddr remotePort now =>
    { s with ports := (s.ports.newConnection localPort remoteAddr remotePort now).2 }

end System

end PilotProtocol.IPC
