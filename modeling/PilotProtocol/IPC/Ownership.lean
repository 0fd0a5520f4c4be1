import PilotProtocol.IPC.Bindings

/-! # Who closes an accepted connection

A connection that was accepted on a client's port is in the hands of the packet goroutine,
in an accept queue, with an accept pusher or tracked by the client, and from the cleanup's
copy on it is among those that the cleanup closes. Where the queues are empty when the copy
is taken and stay so, none is left over.
-/

namespace PilotProtocol.IPC

open Library
open PilotProtocol.Stream (ConnState)
open PilotProtocol.Ports (PortManager Conn Addr)

/-! ## Open connections -/

/-- In the table, ESTABLISHED, and nobody has begun to end it. -/
structure Open (pm : PortManager) (ending : List Nat) (ref : Nat) (c : Conn) : Prop where
  conn : pm.conn ref = some c
  entry : pm.connections.lookup c.id = some ref
  established : c.state = .established
  notEnding : ref ∉ ending

variable {pm : PortManager} {ending : List Nat} {ref r : Nat} {c : Conn}

theorem Open.of_setState {state : ConnState}
    (h : Open (pm.modifyConn r fun c => { c with state := state }) ending ref c)
    (hstate : state ≠ .established ∨ ref ≠ r) : Open pm ending ref c ∧ ref ≠ r := by
  obtain ⟨hconn, hentry, hest, hending⟩ := h
  rw [PortManager.modifyConn_conn] at hconn
  by_cases href : ref = r
  · rw [if_pos href] at hconn
    obtain ⟨d, -, rfl⟩ := Option.map_eq_some_iff.mp hconn
    exact absurd hest (hstate.resolve_right fun hne => hne href)
  · rw [if_neg href] at hconn
    exact ⟨⟨hconn, hentry, hest, hending⟩, href⟩

theorem Open.of_removeConnection {id : UInt32} (h : Open (pm.removeConnection id) ending ref c) :
    Open pm ending ref c ∧ c.id ≠ id := by
  obtain ⟨hconn, hentry, hest, hending⟩ := h
  rw [PortManager.removeConnection_conn] at hconn
  rw [PortManager.removeConnection_lookup] at hentry
  by_cases hid : c.id = id
  · simp [if_pos hid] at hentry
  · rw [if_neg hid] at hentry
    exact ⟨⟨hconn, hentry, hest, hending⟩, hid⟩

theorem Open.of_newConnection {port remotePort : UInt16} {addr : Addr} {now : Nat}
    (h : Open (pm.newConnection port addr remotePort now).2 ending ref c) :
    Open pm ending ref c ∧ ref ≠ pm.objects.length := by
  obtain ⟨hconn, hentry, hest, hending⟩ := h
  have hne : ref ≠ pm.objects.length := by
    rintro rfl
    rw [PortManager.newConnection_conn] at hconn
    cases hconn
    cases hest
  have hlt : ref < pm.objects.length := by
    have hlt := (List.getElem?_eq_some_iff.mp hconn).1
    rw [PortManager.newConnection_objects, List.length_append, List.length_singleton] at hlt
    omega
  unfold PortManager.conn at hconn
  rw [PortManager.newConnection_objects, List.getElem?_append_left hlt] at hconn
  rw [PortManager.newConnection_connections, GoMap.lookup_insert_ite] at hentry
  split at hentry
  · cases hentry
    exact absurd rfl hne
  · exact ⟨⟨hconn, hentry, hest, hending⟩, hne⟩

theorem Open.of_ending (h : Open pm (r :: ending) ref c) : Open pm ending ref c ∧ ref ≠ r := by
  obtain ⟨hconn, hentry, hest, hending⟩ := h
  rw [List.mem_cons, not_or] at hending
  exact ⟨⟨hconn, hentry, hest, hending.2⟩, hending.1⟩

/-! ## Owners -/

def SynAt.Holds : SynAt → Nat → Prop
  | .created _ r, ref => r = ref
  | .established _ r, ref => r = ref
  | _, _ => False

namespace System

variable {s s' : System} {id : UInt32}

/-- In an accept queue, or taken from one and not tracked yet. -/
def Queued (s : System) (ref : Nat) : Prop :=
  (∃ ln ∈ s.listeners.objects, ref ∈ ln.acceptCh) ∨ ∃ l, (l, .tracking ref) ∈ s.pushers

/-- Somebody has the connection and will close it or hand it on. -/
def Owned (s : System) (ref : Nat) (id : UInt32) : Prop :=
  s.syn.Holds ref ∨
    match s.cleanup with
    | .pending => s.Queued ref ∨ id ∈ s.conns
    | .closing conns _ => id ∈ conns
    | .done => False

def AllOwned (s : System) : Prop :=
  ∀ ref ∈ s.accepted, ∀ c, Open s.ports s.ending ref c → s.Owned ref c.id

def Unopened (s : System) (id : UInt32) : Prop := ∀ ref c, Open s.ports s.ending ref c → c.id ≠ id

/-- When the cleanup takes its copy no connection is on its way to the client, and none is
queued afterwards; until then a connection that is open is not taken from the client's
list. -/
def Careful (s : System) : Input → Prop
  | .copy => ∀ ref, ¬ s.Queued ref
  | .trySend =>
    s.cleanup ≠ .pending → ∀ l ref ln, s.syn = .established l ref →
      s.listeners.objects[l]? = some ln → ln.closed = true
  | .recvEnd ref => s.cleanup = .pending → ∀ c, s.ports.conn ref = some c → s.Unopened c.id
  | .handle (.closeRemove id) _ => s.cleanup = .pending → s.Unopened id
  | _ => True

theorem AllOwned.mono (h : s.AllOwned) (hacc : s'.accepted = s.accepted)
    (hback : ∀ ref c, Open s'.ports s'.ending ref c →
      Open s.ports s.ending ref c ∧ (s.Owned ref c.id → s'.Owned ref c.id)) : s'.AllOwned := by
  intro ref href c hopen
  obtain ⟨hopen', howned⟩ := hback ref c hopen
  exact howned (h ref (hacc ▸ href) c hopen')

theorem Owned.mono (h : s.Owned ref id) (hsyn : s'.syn = s.syn) (hclean : s'.cleanup = s.cleanup)
    (hqueued : s.Queued ref → s'.Queued ref ∨ id ∈ s'.conns)
    (hconns : s.cleanup = .pending → id ∈ s.conns → id ∈ s'.conns) : s'.Owned ref id := by
  unfold Owned at h ⊢
  rw [hsyn, hclean]
  refine h.imp_right fun h => ?_
  cases hc : s.cleanup with
  | pending =>
    rw [hc] at h
    exact h.elim hqueued fun hid => .inr (hconns hc hid)
  | closing conns ports | done => rw [hc] at h; exact h

theorem AllOwned.of_queued (h : s.AllOwned) (hports : s'.ports = s.ports)
    (hending : s'.ending = s.ending) (hacc : s'.accepted = s.accepted) (hsyn : s'.syn = s.syn)
    (hclean : s'.cleanup = s.cleanup) (hconns : s'.conns = s.conns)
    (hqueued : ∀ ref, s.Queued ref → s'.Queued ref) : s'.AllOwned := by
  refine h.mono hacc fun ref c hopen => ⟨hports ▸ hending ▸ hopen, fun howned => ?_⟩
  exact howned.mono hsyn hclean (fun hq => .inl (hqueued ref hq)) fun _ hid => hconns ▸ hid

variable {l : Nat} {port : UInt16}

theorem queued_modify {f : Listener → Listener} (h : s.Queued ref)
    (hf : ∀ ln, s.listeners.objects[l]? = some ln → ref ∈ ln.acceptCh → ref ∈ (f ln).acceptCh) :
    Queued { s with listeners := s.listeners.modify l f } ref := by
  refine h.imp_left ?_
  rintro ⟨ln, hln, href⟩
  obtain ⟨i, hi⟩ := List.mem_iff_getElem?.mp hln
  have hmodify : (s.listeners.objects.modify l f)[i]? =
      some (if l = i then f ln else ln) := by
    rw [List.getElem?_modify, hi]
    rfl
  refine ⟨_, List.mem_of_getElem? hmodify, ?_⟩
  split
  next heq => exact hf ln (heq ▸ hi) href
  next => exact href

theorem queued_unbind (h : s.Queued ref) :
    Queued { s with listeners := s.listeners.unbind port } ref := by
  unfold Listeners.unbind
  split
  · exact h
  next l _ => exact queued_modify (l := l) h fun _ _ href => href

theorem queued_bind {ls : Listeners} (h : s.Queued ref)
    (hbind : s.listeners.bind port = some (l, ls)) : Queued { s with listeners := ls } ref := by
  unfold Listeners.bind at hbind
  split at hbind
  · cases hbind
  · cases hbind
    refine h.imp_left fun ⟨ln, hln, href⟩ => ⟨ln, List.mem_append_left _ hln, href⟩

theorem queued_endPusher {p : PusherAt} (h : s.Queued ref) (hp : p ≠ .tracking ref) :
    (s.endPusher l p).Queued ref := by
  refine h.imp_right fun ⟨l', hl'⟩ => ⟨l', (List.mem_erase_of_ne fun heq => ?_).mpr hl'⟩
  exact hp (congrArg Prod.snd heq).symm

theorem queued_movePusher {p q : PusherAt} (h : s.Queued ref) (hp : p ≠ .tracking ref) :
    (s.movePusher l p q).Queued ref :=
  (queued_endPusher (l := l) h hp).imp_right fun ⟨l', hl'⟩ => ⟨l', .tail _ hl'⟩

/-! ## One step -/

theorem open_of_closeByID (h : Open (s.closeByID id).ports (s.closeByID id).ending ref c) :
    Open s.ports s.ending ref c ∧ c.id ≠ id := by
  unfold closeByID at h
  split at h
  next hnone =>
    refine ⟨h, fun hid => ?_⟩
    rw [← hid, h.entry] at hnone
    cases hnone
  next r hr =>
    obtain ⟨hstate, hne⟩ := h.of_ending
    obtain ⟨hopen, -⟩ := hstate.of_setState (.inr hne)
    refine ⟨hopen, fun hid => hne ?_⟩
    rw [← hid, hopen.entry] at hr
    exact Option.some.inj hr

section

variable (h : s.AllOwned)
include h

theorem AllOwned.removeConn (hid : s.cleanup = .pending → s.Unopened id) :
    (s.removeConn id).AllOwned := by
  refine h.mono rfl fun ref c hopen => ⟨hopen, fun howned => ?_⟩
  refine howned.mono rfl rfl .inl fun hpending hmem => ?_
  exact (List.mem_erase_of_ne (hid hpending ref c hopen)).mpr hmem

theorem AllOwned.dispatch (r : Request) : (s.dispatch r).AllOwned := by
  cases r with
  | bind port =>
    simp only [System.dispatch]
    split
    · exact h
    next l ls hbind => exact h.of_queued rfl rfl rfl rfl rfl rfl fun _ hq => queued_bind hq hbind
  | unbind port =>
    simp only [System.dispatch]
    split <;> exact h
  | close id =>
    obtain ⟨ports, ending, hframe⟩ := closeByID_frame s id
    refine h.mono (by simp only [System.dispatch, hframe]) fun ref c hopen => ?_
    refine ⟨(open_of_closeByID hopen).1, fun howned => ?_⟩
    simp only [System.dispatch, hframe]
    exact howned

theorem AllOwned.handleNext (ok : Bool) {hd : Handler}
    (hremove : ∀ id, hd = .closeRemove id → s.cleanup = .pending → s.Unopened id) :
    (s.handleNext ok hd).AllOwned := by
  cases hd with
  | dispatched r => exact h.dispatch r
  | bindTrack port l => exact h
  | bindReply l =>
    simp only [System.handleNext]
    split
    · exact h.of_queued rfl rfl rfl rfl rfl rfl fun _ hq =>
        hq.imp_right (Exists.imp fun _ hl => .tail _ hl)
    · exact h
  | unbindPort port => exact h.of_queued rfl rfl rfl rfl rfl rfl fun _ hq => queued_unbind hq
  | closeRemove id => exact h.removeConn (hremove id rfl)

theorem AllOwned.trySend (hsyn : s.syn = .established l r)
    (hclosed : s.cleanup ≠ .pending → ∀ ln, s.listeners.objects[l]? = some ln → ln.closed = true)
    (hlisted : (s.listeners.objects[l]?).isSome = true) :
    AllOwned { s.trySend l r with syn := .idle } := by
  obtain ⟨ln, hln⟩ := Option.isSome_iff_exists.mp hlisted
  -- of the other connections the packet goroutine is not the owner
  have hother : ∀ {ref : Nat} {id : UInt32}, s.Owned ref id → ref ≠ r →
      match s.cleanup with
      | .pending => s.Queued ref ∨ id ∈ s.conns
      | .closing conns _ => id ∈ conns
      | .done => False := by
    intro ref id howned hne
    refine howned.resolve_left fun hholds => hne ?_
    rw [hsyn] at hholds
    exact hholds.symm
  unfold System.trySend
  rw [hln]
  dsimp only
  cases hsend : ln.trySend r with
  | some ln' =>
    unfold Listener.trySend at hsend
    split at hsend
    · cases hsend
    next hopen =>
      cases hsend
      have hpending : s.cleanup = .pending := by
        by_contra hne
        exact hopen (.inl (hclosed hne ln hln))
      refine h.mono rfl fun ref c hop => ⟨hop, fun howned => .inr ?_⟩
      rw [hpending]
      by_cases hr : ref = r
      · have hnew : (s.listeners.objects.modify l fun _ =>
            { ln with acceptCh := ln.acceptCh ++ [r] })[l]? =
            some { ln with acceptCh := ln.acceptCh ++ [r] } := by
          rw [List.getElem?_modify, hln]
          simp
        exact .inl (.inl ⟨_, List.mem_of_getElem? hnew, by simp [hr]⟩)
      · have hrest := hother howned hr
        rw [hpending] at hrest
        refine hrest.imp_left fun hq => queued_modify (l := l) hq fun ln'' hln'' href => ?_
        rw [hln] at hln''
        cases hln''
        exact List.mem_append_left _ href
  | none =>
    unfold System.refuse
    cases hc : s.ports.conn r with
    | none =>
      refine h.mono rfl fun ref c hop => ⟨hop, fun howned => .inr (hother howned ?_)⟩
      rintro rfl
      rw [hop.conn] at hc
      cases hc
    | some d =>
      refine h.mono rfl fun ref c hop => ?_
      obtain ⟨hop, -⟩ := Open.of_removeConnection hop
      obtain ⟨hop, hne⟩ := hop.of_setState (.inl (by decide))
      exact ⟨hop, fun howned => .inr (hother howned hne)⟩

theorem AllOwned.receive {ln : Listener}
    (hln : s.listeners.objects[l]? = some ln) : (s.receive l ln).AllOwned := by
  unfold System.receive
  cases hch : ln.acceptCh with
  | nil =>
    dsimp only
    split
    · exact h.of_queued rfl rfl rfl rfl rfl rfl fun _ hq =>
        queued_endPusher hq nofun
    · exact h
  | cons first rest =>
    refine h.of_queued rfl rfl rfl rfl rfl rfl fun ref hq => ?_
    by_cases hfirst : ref = first
    · exact .inr ⟨l, hfirst ▸ (.head _)⟩
    · have hmoved : Queued (s.movePusher l .receiving (.tracking first)) ref :=
        queued_movePusher hq nofun
      refine queued_modify (l := l) hmoved fun ln' hln' href => ?_
      have heq : ln = ln' := Option.some.inj (hln.symm.trans hln')
      rw [← heq, hch] at href
      exact (List.mem_cons.mp href).resolve_left hfirst

theorem AllOwned.track : ((s.trackConn r).movePusher l (.tracking r) (.pushing r)).AllOwned := by
  unfold System.trackConn
  cases hr : s.ports.conn r with
  | none =>
    refine h.mono rfl fun ref c hopen => ⟨hopen, fun howned => ?_⟩
    refine howned.mono rfl rfl (fun hq => .inl ?_) fun _ hid => hid
    refine queued_movePusher hq fun heq => ?_
    cases heq
    exact absurd (hopen.conn.symm.trans hr) nofun
  | some d =>
    refine h.mono rfl fun ref c hopen => ⟨hopen, fun howned => ?_⟩
    refine howned.mono rfl rfl (fun hq => ?_) fun _ hid => List.mem_append_left _ hid
    by_cases href : ref = r
    · have hcd : c = d := Option.some.inj (hopen.conn.symm.trans (href ▸ hr))
      exact .inr (List.mem_append_right _ (by simp [hcd]))
    · refine .inl (queued_movePusher (s := { s with conns := s.conns ++ [d.id] }) hq
        fun heq => href ?_)
      cases heq
      rfl

theorem AllOwned.pushed (ok : Bool) : (s.pushed l r ok).AllOwned := by
  unfold System.pushed
  split
  · exact h.of_queued rfl rfl rfl rfl rfl rfl fun _ hq =>
      queued_movePusher (s := s) hq nofun
  · exact h.of_queued rfl rfl rfl rfl rfl rfl fun _ hq =>
      queued_endPusher hq nofun

theorem AllOwned.synCreate {remotePort : UInt16} {addr : Addr} {now : Nat}
    (hsyn : s.syn = .looked l) : (s.synCreate l port addr remotePort now).AllOwned := by
  intro ref href c hopen
  obtain ⟨hopen, hne⟩ := Open.of_setState hopen (.inl (by decide))
  obtain ⟨hopen, -⟩ := hopen.of_newConnection
  have howned := h ref ((List.mem_cons.mp href).resolve_left hne) c hopen
  unfold Owned at howned
  rw [hsyn] at howned
  exact .inr (howned.resolve_left id)

theorem AllOwned.synEstablish (hsyn : s.syn = .created l r) :
    AllOwned { s.setConnState r .established with syn := .established l r } := by
  intro ref href c hopen
  by_cases hr : ref = r
  · exact .inl hr.symm
  · obtain ⟨hopen, -⟩ := Open.of_setState hopen (.inr hr)
    have howned := h ref href c hopen
    unfold Owned at howned
    rw [hsyn] at howned
    exact .inr (howned.resolve_left fun hholds => hr hholds.symm)

theorem AllOwned.of_syn {syn : SynAt} (hsyn : ∀ ref, ¬ s.syn.Holds ref) :
    AllOwned { s with syn := syn } :=
  fun ref href c hopen => .inr ((h ref href c hopen).resolve_left (hsyn ref))

theorem AllOwned.copy (hpending : s.cleanup = .pending) (hnone : ∀ ref, ¬ s.Queued ref) :
    AllOwned { s with cleanup := .closing s.conns s.clientPorts } := by
  intro ref href c hopen
  have howned := h ref href c hopen
  unfold Owned at howned
  rw [hpending] at howned
  exact howned.imp_right fun howned => howned.resolve_left (hnone ref)

theorem AllOwned.closeNext {rest : List UInt32} {ports : List UInt16}
    (hclean : s.cleanup = .closing (id :: rest) ports) :
    AllOwned { s.closeByID id with cleanup := .closing rest ports } := by
  obtain ⟨pm, ending, hframe⟩ := closeByID_frame s id
  refine h.mono (by rw [hframe]) fun ref c hopen => ?_
  obtain ⟨hopen, hne⟩ := open_of_closeByID hopen
  refine ⟨hopen, fun howned => ?_⟩
  unfold Owned at howned ⊢
  rw [hclean] at howned
  rw [hframe]
  exact howned.imp_right fun hmem => (List.mem_cons.mp hmem).resolve_left hne

end

/-! ## Every step -/

structure Inv (s : System) : Prop where
  bindings : s.Bindings
  owned : s.AllOwned

theorem initial_inv : initial.Inv where
  bindings :=
    { named := nofun
      held := nofun
      quiet := fun h => absurd rfl h
      listed := fun _ h => (nomatch h) }
  owned := nofun

section

variable (h : s.Inv)
include h

theorem Inv.request (r : Request) : (s.step (.request r)).Inv := by
  simp only [step]
  split
  next hreading =>
    have hpending : s.cleanup = .pending := by
      by_contra hne
      simp [(h.bindings.quiet hne).1] at hreading
    refine ⟨h.bindings.of_info (fun _ => rfl) rfl rfl (fun _ hl => hl) (absurd hpending) ?_, h.owned⟩
    intro port l hhold
    unfold Holding at hhold ⊢
    rw [hpending] at hhold ⊢
    exact hhold.imp_right (Or.imp (List.mem_cons_of_mem _) (List.mem_cons_of_mem _))
  next => exact h

theorem Inv.handle {hd : Handler} {ok : Bool} (hok : s.Careful (.handle hd ok)) :
    (s.step (.handle hd ok)).Inv := by
  simp only [step]
  split
  next hmem =>
    have hrest : AllOwned { s with handlers := s.handlers.erase hd } := h.owned
    refine ⟨h.bindings.handle hmem.1 ok, hrest.handleNext ok fun id hid => ?_⟩
    subst hid
    exact hok
  next => exact h

theorem Inv.closeNext : (s.step .closeNext).Inv := by
  simp only [step]
  split
  next id rest ports hclean =>
    obtain ⟨pm, ending, hframe⟩ := closeByID_frame s id
    refine ⟨?_, h.owned.closeNext hclean⟩
    rw [hframe]
    refine h.bindings.of_info (fun _ => rfl) rfl rfl (fun _ hl => hl)
      (fun _ => h.bindings.quiet (by rw [hclean]; exact nofun)) ?_
    intro port l hhold
    unfold Holding at hhold
    rwa [hclean] at hhold
  next => exact h

theorem Inv.unbindNext : (s.step .unbindNext).Inv := by
  simp only [step]
  split
  next port rest hclean =>
    refine ⟨h.bindings.of_unbind rfl rfl
      (fun _ => h.bindings.quiet (by rw [hclean]; exact nofun)) ?_, ?_⟩
    · intro port' l hne hhold
      unfold Holding at hhold
      rw [hclean] at hhold
      exact (List.mem_cons.mp hhold).resolve_left hne
    · refine h.owned.mono rfl fun ref c hopen => ⟨hopen, fun howned => ?_⟩
      unfold Owned at howned
      rwa [hclean] at howned
  next => exact h

theorem Inv.finish : (s.step .finish).Inv := by
  simp only [step]
  split
  next hclean =>
    refine ⟨h.bindings.of_info (fun _ => rfl) rfl rfl (fun _ hl => hl)
      (fun _ => h.bindings.quiet (by rw [hclean]; exact nofun)) ?_, ?_⟩
    · intro port l hhold
      unfold Holding at hhold
      simp [hclean] at hhold
    · refine h.owned.mono rfl fun ref c hopen => ⟨hopen, fun howned => ?_⟩
      unfold Owned at howned
      rw [hclean] at howned
      exact howned.imp_right nofun
  next => exact h

theorem Inv.synLookup (port : UInt16) : (s.step (.synLookup port)).Inv := by
  simp only [step]
  split
  next l hsyn hbound =>
    refine ⟨{ h.bindings with listed := ?_ }, h.owned.of_syn ?_⟩
    · rintro i hi
      cases hi
      have hinfo := h.bindings.named port l hbound
      obtain ⟨ln, hln, -⟩ := Option.map_eq_some_iff.mp hinfo
      exact (List.getElem?_eq_some_iff.mp hln).1
    · intro ref hholds
      rwa [hsyn] at hholds
  next => exact h

theorem Inv.trySend (hok : s.Careful .trySend) : (s.step .trySend).Inv := by
  simp only [step]
  split
  next l ref hsyn =>
    have hlt : l < s.listeners.objects.length := h.bindings.listed l (by rw [hsyn]; rfl)
    refine ⟨h.bindings.trySend, h.owned.trySend hsyn (fun hne ln hln => hok hne l ref ln hsyn hln) ?_⟩
    rw [List.getElem?_eq_getElem hlt]
    rfl
  next => exact h

theorem Inv.synCreate (remoteAddr : Addr) (remotePort : UInt16) (now : Nat) :
    (s.step (.synCreate remoteAddr remotePort now)).Inv := by
  simp only [step]
  split
  next l hsyn =>
    split
    · refine ⟨{ h.bindings with listed := fun i hi => h.bindings.listed i ?_ }, h.owned.synCreate hsyn⟩
      rwa [hsyn]
    · exact h
  next => exact h

theorem Inv.synEstablish : (s.step .synEstablish).Inv := by
  simp only [step]
  split
  next l ref hsyn =>
    refine ⟨{ h.bindings with listed := fun i hi => h.bindings.listed i ?_ }, h.owned.synEstablish hsyn⟩
    rwa [hsyn]
  next => exact h

theorem Inv.synDrop : (s.step .synDrop).Inv := by
  simp only [step]
  split
  next l hsyn =>
    refine ⟨{ h.bindings with listed := nofun }, h.owned.of_syn fun ref hholds => ?_⟩
    rwa [hsyn] at hholds
  next => exact h

theorem step_inv {i : Input} (hok : s.Careful i) : (s.step i).Inv := by
  -- a step that can only end connections
  have hends : ∀ {ports ending}, (∀ ref c, Open ports ending ref c → Open s.ports s.ending ref c) →
      Inv { s with ports := ports, ending := ending } := fun hback =>
    ⟨{ h.bindings with }, h.owned.mono rfl fun ref c hopen => ⟨hback ref c hopen, fun ho => ho⟩⟩
  cases i <;> simp only [step]
  case request r => exact h.request r
  case handle hd ok => exact h.handle hok
  case breakSocket => exact ⟨{ h.bindings with }, h.owned⟩
  case disconnect =>
    exact ⟨{ h.bindings with quiet := fun hne => ⟨rfl, (h.bindings.quiet hne).2⟩ }, h.owned⟩
  case copy =>
    split
    next hcopy => exact ⟨h.bindings.copy hcopy.1 hcopy.2.1 hcopy.2.2, h.owned.copy hcopy.2.2 hok⟩
    next => exact h
  case closeNext => exact h.closeNext
  case unbindNext => exact h.unbindNext
  case finish => exact h.finish
  case synLookup port => exact h.synLookup port
  case synDrop => exact h.synDrop
  case synCreate remoteAddr remotePort now => exact h.synCreate remoteAddr remotePort now
  case synEstablish => exact h.synEstablish
  case trySend => exact h.trySend hok
  case receive l =>
    split
    · split
      next ln hln => exact ⟨h.bindings.receive, h.owned.receive hln⟩
      next => exact h
    · exact h
  case track l ref =>
    split
    · refine ⟨?_, h.owned.track⟩
      unfold System.trackConn
      split <;> exact { h.bindings with }
    · exact h
  case push l ref ok =>
    split
    · refine ⟨?_, h.owned.pushed ok⟩
      unfold System.pushed
      split <;> exact { h.bindings with }
    · exact h
  case recvEnd ref =>
    split
    · split
      · exact h
      next c hc => exact ⟨{ h.bindings with }, h.owned.removeConn fun hpending => hok hpending c hc⟩
    · exact h
  case closeRecvBuf ref => exact hends fun _ _ hopen => hopen.of_ending.1
  case setState ref state =>
    split
    · exact h
    next hne => exact hends fun _ _ hopen => (hopen.of_setState (.inl hne)).1
  case removeConnection id => exact hends fun _ _ hopen => hopen.of_removeConnection.1
  case connectElsewhere localPort remoteAddr remotePort now =>
    exact hends fun _ _ hopen => hopen.of_newConnection.1

end

/-! ## Whole runs -/

/-- In every careful run, once the cleanup is done, a connection that was accepted on the
client's ports and is still ESTABLISHED in the table is one that somebody has begun to end,
or one that the packet goroutine is about to offer to a listener; all of them are closed, so
it will be refused and closed. -/
theorem accepted_closed_with_client {inputs : List Input}
    (hok : AllSteps step Careful initial inputs) :
    let s := inputs.foldl step initial
    s.cleanup = .done → ∀ ref ∈ s.accepted, ∀ c, s.ports.conn ref = some c →
      s.ports.connections.lookup c.id = some ref → c.state = .established →
      ref ∈ s.ending ∨ s.syn.Holds ref ∧ ∀ ln ∈ s.listeners.objects, ln.closed = true := by
  intro s hdone ref href c hconn hentry hest
  have hinv : s.Inv := run_invariant Inv (fun _ _ h hi => step_inv h hi) initial_inv hok
  by_cases hending : ref ∈ s.ending
  · exact .inl hending
  · refine .inr ⟨?_, fun ln hln => ?_⟩
    · have howned := hinv.owned ref href c ⟨hconn, hentry, hest, hending⟩
      unfold Owned at howned
      rw [hdone] at howned
      exact howned.resolve_right id
    · obtain ⟨l, hl⟩ := List.mem_iff_getElem?.mp hln
      by_contra hopen
      have hinfo : s.listeners.info l = some (ln.port, false) := by
        unfold Listeners.info
        rw [hl, Option.map_some, Bool.eq_false_iff.mpr hopen]
      have hhold := (hinv.bindings.held ln.port l hinfo).2
      unfold Holding at hhold
      rwa [hdone] at hhold

def listening : List Input :=
  [.request (.bind 1000), .handle (.dispatched (.bind 1000)) true, .handle (.bindTrack 1000 0) true,
    .handle (.bindReply 0) true]

def connecting (port : UInt16) : List Input :=
  [.synLookup 1000, .synCreate ⟨0, 7⟩ port 0, .synEstablish, .trySend]

def leaving : List Input := [.disconnect, .copy, .closeNext, .unbindNext, .finish]

/-- A connection is accepted and pushed to the client before it leaves. -/
def served : List Input :=
  listening ++ (connecting 80 ++ ([.receive 0, .track 0 0, .push 0 0 true] ++ leaving))

theorem served_closed :
    let s := served.foldl step initial
    s.cleanup = .done ∧ 0 ∈ s.accepted ∧ s.ports.connections.lookup 1 = some 0 ∧
    ∀ c, s.ports.conn 0 = some c → c.state = .established → 0 ∈ s.ending ∨ s.syn.Holds 0 := by
  have hok : AllSteps step Careful initial served := by
    refine ⟨trivial, trivial, trivial, trivial, trivial, trivial, trivial, fun hne => absurd rfl hne,
      trivial, trivial, trivial, trivial, ?_, trivial, trivial, trivial, trivial⟩
    rintro ref (⟨ln, hln, href⟩ | ⟨l, hl⟩)
    · simp [List.mem_singleton.mp hln] at href
    · cases List.mem_singleton.mp hl
  have hdone : (served.foldl step initial).cleanup = .done := by decide +kernel
  have haccepted : 0 ∈ (served.foldl step initial).accepted := by decide +kernel
  have hentry : (served.foldl step initial).ports.connections.lookup 1 = some 0 := by decide +kernel
  have hid : ((served.foldl step initial).ports.conn 0).map Conn.id = some 1 := by decide +kernel
  refine ⟨hdone, haccepted, hentry, fun c hc hest => ?_⟩
  rw [hc] at hid
  have hcid : c.id = 1 := Option.some.inj hid
  exact (accepted_closed_with_client hok hdone 0 haccepted c hc (hcid ▸ hentry) hest).imp_right
    And.left

/-- Two peers connect and the socket breaks: the pusher gives up on the first connection
and leaves the second in the queue. -/
def abandoned : List Input :=
  listening ++ (connecting 80 ++ (connecting 81 ++
    ([.breakSocket, .receive 0, .track 0 0, .push 0 0 false] ++ leaving)))

/-- The second connection stays ESTABLISHED in the table with the cleanup and the pusher
gone. -/
theorem abandoned_outlives_client :
    let s := abandoned.foldl step initial
    s.cleanup = .done ∧ s.pushers = [] ∧ s.handlers = [] ∧ s.recvPushers = [] ∧ s.syn = .idle ∧
    1 ∈ s.accepted ∧ s.ports.connections.lookup 2 = some 1 ∧
    (s.ports.conn 1).map Conn.id = some 2 ∧
    (s.ports.conn 1).map Conn.state = some .established ∧ 1 ∉ s.ending := by
  decide +kernel

end System

end PilotProtocol.IPC
