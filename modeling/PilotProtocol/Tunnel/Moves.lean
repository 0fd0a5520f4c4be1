import Mathlib.Logic.Relation
import PilotProtocol.Routing.Calls
import PilotProtocol.Tunnel.Daemon

/-! # Moves

What the functions of the tunnel are made of: a frame is written, or one table changes for
one peer. Each function is shown once to be a sequence of moves. What it does to the
sessions, to the frames written or to the tables of some peer is then read off the moves.
-/

namespace PilotProtocol.Routing

def Call.At (now : Nat) : Call → Prop
  | .recordDirectRecv _ t => t = now
  | .recordOutboundSend _ t => t = now
  | _ => True

end PilotProtocol.Routing

namespace PilotProtocol.Tunnel

open Library KeyExchange Envelope
open Routing (UDPAddr WriteErr Route)
open TunnelManager RekeyTable

theorem logSent_appends {P : Sent → Prop} {peer : NodeID} {frame : Bytes}
    {result : Except WriteErr Route} (t : TunnelManager)
    (h : ∀ route, result = .ok route → P ⟨peer, frame, route⟩) :
    Appends P t.sent (t.logSent peer frame result).sent := by
  cases result with
  | ok route => exact .single (h route rfl)
  | error e => exact .of_eq rfl

/-! ## Frames of the node's own -/

theorem buildAuthFrame_congr (P : Primitives) {m m' : KeyExchange.Manager} (hsetup : m'.setup = m.setup)
    (hnode : m'.env.localNodeID = m.env.localNodeID) : m'.buildAuthFrame P = m.buildAuthFrame P := by
  unfold Manager.buildAuthFrame
  rw [hsetup, hnode]

theorem buildUnauthFrame_congr {m m' : KeyExchange.Manager} (hsetup : m'.setup = m.setup)
    (hnode : m'.env.localNodeID = m.env.localNodeID) : m'.buildUnauthFrame = m.buildUnauthFrame := by
  unfold Manager.buildUnauthFrame
  rw [hsetup, hnode]

theorem magicOf_encryptWith (P : Primitives) (node : NodeID) (c : Crypto) (plaintext : Bytes) :
    magicOf (encryptWith P node c plaintext).1 = some .secure := by
  have htake : (encryptWith P node c plaintext).1.take 4 = tunnelMagicSecure := rfl
  unfold magicOf
  rw [htake]
  decide

/-- A key-exchange frame of the node, an encrypted one, or any if frames go out in plain. -/
inductive Made (P : Primitives) (plain : Prop) (m : KeyExchange.Manager) : Bytes → Prop
  | auth (frame : Bytes) (h : m.buildAuthFrame P = some frame) : Made P plain m frame
  | unauth (frame : Bytes) (h : m.buildUnauthFrame = some frame) : Made P plain m frame
  | secure (frame : Bytes) (h : magicOf frame = some .secure) : Made P plain m frame
  | plain (frame : Bytes) (h : plain) : Made P plain m frame

theorem Made.congr {P : Primitives} {plain : Prop} {m m' : KeyExchange.Manager} {frame : Bytes}
    (h : Made P plain m frame) (hsetup : m'.setup = m.setup)
    (hnode : m'.env.localNodeID = m.env.localNodeID) : Made P plain m' frame := by
  cases h with
  | auth h => exact .auth frame ((buildAuthFrame_congr P hsetup hnode).trans h)
  | unauth h => exact .unauth frame ((buildUnauthFrame_congr hsetup hnode).trans h)
  | secure h => exact .secure frame h
  | plain h => exact .plain frame h

/-! ## Moves -/

structure Scope where
  /-- Whose path is noted. -/
  path : NodeID → Prop
  /-- To whom frames are written and for whom keys and queues are kept. -/
  act : NodeID → Prop
  forget : NodeID → Prop
  /-- Whether sessions come and go and packets are delivered. -/
  sessions : Prop
  /-- Whether frames go out unencrypted. -/
  plain : Prop
  path_of_act : ∀ q, act q → path q

def Scope.quiet : Scope := ⟨fun _ => True, fun _ => True, fun _ => True, False, True, fun _ _ => trivial⟩

inductive Move (W : World) (now : Nat) (S : Scope) (t : TunnelManager) : TunnelManager → Prop
  | write (q : NodeID) (addr : Option UDPAddr) (frame : Bytes) (hq : S.act q)
      (hframe : Made W.P S.plain t.kx frame) : Move W now S t (t.writeFrame W now q addr frame).2
  | relay (q : NodeID) (frame : Bytes) (hq : S.act q) (hframe : Made W.P S.plain t.kx frame) :
      Move W now S t (t.sendRelayFrame W q frame)
  | encrypt (q : NodeID) (c : Crypto) (plaintext : Bytes) (hq : S.act q)
      (hc : t.core.session q = some (TunnelManager.forgetSends c)) :
      Move W now S t (t.encryptFrame W q c plaintext).2
  | rekey (q : NodeID) (rk : RekeyTable) (hq : S.act q) (hrk : t.kx.rk.Touches now q rk) :
      Move W now S t (t.withRekey rk)
  | scan : Move W now S t (t.withRekey (t.kx.rk.scanPending now).2.2)
  | route (c : Routing.Call) (hat : c.At now)
      (hscope : if c.forgets then S.forget c.node else S.path c.node) :
      Move W now S t { t with routing := t.routing.call c }
  | learn (q : NodeID) (addr : UDPAddr) (hq : S.path q) :
      Move W now S t { t with peers := t.peers.insert q addr }
  | queue (q : NodeID) (pending : GoMap NodeID (List Bytes)) (pendingSince : GoMap NodeID Nat)
      (hq : S.act q) (hpending : ∀ x, x ≠ q → pending.lookup x = t.pending.lookup x)
      (hsince : ∀ x, x ≠ q → pendingSince.lookup x = t.pendingSince.lookup x)
      (hnow : pendingSince.lookup q = t.pendingSince.lookup q ∨
        ∀ since, pendingSince.lookup q = some since → since = now) :
      Move W now S t { t with pending, pendingSince }
  | use (q : NodeID) (last : Nat) : Move W now S t (t.noteAppActivity q last)
  | limit (lastRekeyReq : GoMap NodeID Nat) (kxRateLim : GoMap Nat SrcKxBucket)
      (relayKxLim : GoMap NodeID SrcKxBucket) :
      Move W now S t { t with lastRekeyReq, kxRateLim, relayKxLim }
  | session (q : NodeID) (env : Store) (hsessions : S.sessions) (hq : S.act q)
      (hnode : env.localNodeID = t.kx.env.localNodeID)
      (hothers : ∀ x, x ≠ q → env.get x = t.kx.env.get x) : Move W now S t (t.withEnv env)
  | accept (q : NodeID) (kx : KeyExchange.Manager) (hsessions : S.sessions) (hq : S.act q)
      (hkx : t.kx.Handles q kx) : Move W now S t { t with kx }
  | receive (recvCh : List IncomingPacket) (opened : List (Nat × SecureFrame))
      (hsessions : S.sessions) : Move W now S t { t with recvCh, opened }
  | dropCrypto (q : NodeID) (hsessions : S.sessions) (hq : S.forget q) :
      Move W now S t (t.dropCrypto q)
  | removePeer (q : NodeID) (hsessions : S.sessions) (hq : S.forget q) :
      Move W now S t (t.removePeer q)

abbrev Moves (W : World) (now : Nat) (S : Scope) : TunnelManager → TunnelManager → Prop :=
  Relation.ReflTransGen (Move W now S)

section

variable {W : World} {now : Nat} {S : Scope} {t t' : TunnelManager}

theorem Move.setup (h : Move W now S t t') :
    t'.kx.setup = t.kx.setup ∧ t'.kx.env.localNodeID = t.kx.env.localNodeID := by
  cases h with
  | write q addr frame hq hframe =>
    have hcore := writeFrame_core W now t q addr frame
    exact ⟨congrArg Core.setup hcore, congrArg Core.localNodeID hcore⟩
  | session q env hsessions hq hnode hothers => exact ⟨rfl, hnode⟩
  | accept q kx hsessions hq hkx => exact ⟨hkx.setup, hkx.node⟩
  | _ => exact ⟨rfl, rfl⟩

theorem Move.core (h : Move W now S t t') (hquiet : ¬S.sessions) : t'.core = t.core := by
  cases h with
  | write q addr frame hq hframe => exact writeFrame_core W now t q addr frame
  | encrypt q c plaintext hq hc => exact encryptFrame_core plaintext hc
  | session q env hsessions | accept q kx hsessions | receive recvCh opened hsessions
  | dropCrypto q hsessions | removePeer q hsessions => exact absurd hsessions hquiet
  | _ => rfl

namespace Moves

theorem setup (h : Moves W now S t t') :
    t'.kx.setup = t.kx.setup ∧ t'.kx.env.localNodeID = t.kx.env.localNodeID := by
  induction h with
  | refl => exact ⟨rfl, rfl⟩
  | tail _ hmove ih => exact ⟨hmove.setup.1.trans ih.1, hmove.setup.2.trans ih.2⟩

theorem core (h : Moves W now .quiet t t') : t'.core = t.core := by
  induction h with
  | refl => rfl
  | tail _ hmove ih => exact (hmove.core id).trans ih

section

variable (h : Moves W now S t t')
include h

theorem trans {t'' : TunnelManager} (h' : Moves W now S t' t'') :
    Moves W now S t t'' := Relation.ReflTransGen.trans h h'

theorem made {frame : Bytes} (hframe : Made W.P S.plain t.kx frame) :
    Made W.P S.plain t'.kx frame := hframe.congr h.setup.1 h.setup.2

theorem write {q : NodeID} (hq : S.act q) (addr : Option UDPAddr)
    {frame : Bytes} (hframe : Made W.P S.plain t.kx frame) :
    Moves W now S t (t'.writeFrame W now q addr frame).2 := h.tail (.write q addr frame hq (h.made hframe))

theorem rekey {q : NodeID} (hq : S.act q) {rk : RekeyTable}
    (hrk : t'.kx.rk.Touches now q rk) : Moves W now S t (t'.withRekey rk) :=
  h.tail (.rekey q rk hq hrk)

theorem use (q : NodeID) (last : Nat) :
    Moves W now S t (t'.noteAppActivity q last) := h.tail (.use q last)

theorem ite (c : Prop) [Decidable c] {t'' : TunnelManager} (h' : Moves W now S t t'') :
    Moves W now S t (if c then t' else t'') := by
  split <;> assumption

end

end Moves

end

namespace TunnelManager

section

variable {W : World} {now : Nat} {S : Scope} {q : NodeID}

/-! ## Writing -/

variable (t : TunnelManager)

section

variable (hq : S.act q) (addr source : Option UDPAddr) (fromRelay : Bool)
include hq

theorem takeKeyRequest_moves (authed : Bool) : Moves W now S t (t.takeKeyRequest q authed).2 := by
  unfold takeKeyRequest
  split
  · exact .single (.rekey q _ hq (touches_takeKeyRequest now q _))
  · exact .refl

theorem kxSendKeyExchange_moves : Moves W now S t (t.kxSendKeyExchange W now q).2 := by
  unfold kxSendKeyExchange
  cases hunauth : t.kx.buildUnauthFrame with
  | none => exact .refl
  | some unauthFrame =>
    have hfirst : Made W.P S.plain t.kx ((t.kx.buildAuthFrame W.P).getD unauthFrame) := by
      cases hauth : t.kx.buildAuthFrame W.P with
      | none => exact .unauth unauthFrame hunauth
      | some frame => exact .auth frame hauth
    have htaken : Moves W now S t (t.takeKeyRequest q (t.kx.buildAuthFrame W.P).isSome).2 :=
      takeKeyRequest_moves t hq _
    have hwritten := htaken.write hq (t.peerAddr q) hfirst
    simp only
    split
    next h => rwa [h] at hwritten
    next h =>
      rw [h] at hwritten
      split
      · exact (hwritten.write hq _ (.unauth unauthFrame hunauth)).rekey hq
          (touches_markPendingRekey now q _)
      · exact hwritten.rekey hq (touches_markPendingRekey now q _)

theorem sendKeyExchangeToNode_moves : Moves W now S t (t.sendKeyExchangeToNode W now q) := by
  have hkx : Moves W now S t (t.kxSendKeyExchange W now q).2 := kxSendKeyExchange_moves t hq
  unfold sendKeyExchangeToNode
  simp only
  split
  · exact hkx
  · split
    · exact hkx
    next frame hframe =>
      have hmade : Made W.P S.plain (t.kxSendKeyExchange W now q).2.kx frame := by
        obtain hauth | ⟨_, hunauth⟩ := Option.or_eq_some_iff.mp hframe
        · exact .auth frame hauth
        · exact .unauth frame hunauth
      have hcopied := hkx.tail (.relay q frame hq hmade)
      split
      next request _ hrequest => exact hcopied.tail (.relay q request hq (.unauth request hrequest))
      · exact hcopied

/-! ## Key installs -/

theorem sendUnder_moves (ref : Nat) (plaintexts : List Bytes) (t : TunnelManager) :
    Moves W now S t (sendUnder W now q addr ref plaintexts t) := by
  induction plaintexts generalizing t with
  | nil => exact .refl
  | cons plaintext rest ih =>
    unfold sendUnder
    split
    · exact .refl
    next c hc =>
      split
      · have hsealed : Moves W now S t (t.encryptFrame W q c plaintext).2 :=
          .single (.encrypt q c plaintext hq (session_of_get hc))
        exact (hsealed.write hq addr (.secure _ (magicOf_encryptWith ..))).trans (ih _)
      · exact .refl

theorem replaySalvage_moves (old new : Crypto) :
    Moves W now S t (t.replaySalvage W now old new q addr) := by
  unfold replaySalvage
  split
  · exact .refl
  · exact sendUnder_moves hq addr _ _ t

theorem flushPending_moves : Moves W now S t (t.flushPending W now q) := by
  have htaken : Moves W now S t (t.takePending q).2 := .single (.queue q _ _ hq
    (fun x hx => AList.lookup_erase_ne hx) (fun x hx => AList.lookup_erase_ne hx)
    (.inr fun since hsome => nomatch (AList.lookup_erase _ _).symm.trans hsome))
  unfold flushPending
  simp only
  split
  · exact htaken
  · exact htaken.trans (sendUnder_moves hq _ _ _ _)

theorem admitRelayFromBeacon_moves :
    Moves W now S t { t with routing := t.routing.admitRelayFromBeacon q } :=
  .single (.route (.admitRelayFromBeacon q) trivial (S.path_of_act q hq))

theorem learnEndpoint_moves : Moves W now S t (t.learnEndpoint q source fromRelay) := by
  have hpath := S.path_of_act q hq
  unfold learnEndpoint
  repeat' split
  · exact .refl
  · exact .single (.learn q _ hpath)
  · exact .refl
  · exact .refl
  · exact (admitRelayFromBeacon_moves t hq).tail (.learn q _ hpath)

theorem recordInboundDecrypt_moves : Moves W now S t (t.recordInboundDecrypt q now) := by
  have hnoted : Moves W now S t
      (t.withRekey ((t.kx.rk.recordInboundDecrypt q now).clearRekeyGaveUp q)) :=
    .single (.rekey q _ hq (touches_recordInboundDecrypt now q _))
  exact hnoted.tail (.route (.clearSendErrCount q) trivial (S.path_of_act q hq))

theorem replyIfStale_moves : Moves W now S t (t.replyIfStale W now q) := by
  unfold replyIfStale
  split
  · have hmarked : Moves W now S t (t.withRekey
        (t.kx.rk.markReplyKeyExchangeSent q (t.kx.whitelisted q) now).2) :=
      .single (.rekey q _ hq (touches_markReplyKeyExchangeSent now q _ _))
    exact (hmarked.trans (kxSendKeyExchange_moves _ hq)).ite _ hmarked
  · exact .refl

theorem clearPendingRekey_moves : Moves W now S t (t.clearPendingRekey q) :=
  .single (.rekey q _ hq (touches_clearPendingRekey now q _))

end

variable (data : Bytes) (ev : Install) (source : Option UDPAddr) (fromRelay : Bool)

section

variable (hq : S.act ev.peer)
include hq

theorem onKeyInstalled_moves : Moves W now S t (t.onKeyInstalled W now ev source fromRelay) := by
  have hnoted : Moves W now S t (if ev.hadCrypto then t.recordInboundDecrypt ev.peer now
      else (t.recordInboundDecrypt ev.peer now).noteAppActivity ev.peer now) :=
    (recordInboundDecrypt_moves t hq).ite _ ((recordInboundDecrypt_moves t hq).use _ _)
  have hlearned := hnoted.trans (learnEndpoint_moves _ hq source fromRelay)
  unfold onKeyInstalled
  simp only
  split
  · exact (hlearned.trans (replaySalvage_moves _ hq _ _ _)).trans (flushPending_moves _ hq)
  · exact hlearned.trans (flushPending_moves _ hq)

theorem afterInstall_moves : Moves W now S t (t.afterInstall W now ev source fromRelay) :=
  Moves.ite .refl _ (onKeyInstalled_moves t ev source fromRelay hq)

theorem installed_moves {rest : TunnelManager}
    (hrest : Moves W now S (t.afterInstall W now ev source fromRelay) rest) :
    Moves W now S t ((if ev.replaces then
        ((t.afterInstall W now ev source fromRelay).kxSendKeyExchange W now ev.peer).2
      else rest).clearPendingRekey ev.peer) := by
  have hafter : Moves W now S t (t.afterInstall W now ev source fromRelay) :=
    afterInstall_moves t ev source fromRelay hq
  exact ((hafter.trans (kxSendKeyExchange_moves _ hq)).ite _ (hafter.trans hrest)).trans
    (clearPendingRekey_moves _ hq)

end

theorem admits_peer {reg : Registry} {auth : Bool} {allowed : NodeID → Bytes → Prop} {node : NodeID}
    {ev : Install} {m m' : KeyExchange.Manager}
    (h : Manager.Admits reg now auth allowed node m (.admitted ev) m') :
    ∃ x25519, allowed ev.peer x25519 := by
  cases h with
  | kept _ pubKeys allocated hverdict hle => exact absurd rfl (hverdict ev)
  | admitted peer pc key x25519 noncePrefix pubKeys hpc hallowed => exact ⟨x25519, hallowed⟩

theorem handleAuthFrame_moves (hsessions : S.sessions)
    (hpeer : ∀ f, parseAuth data = some f → S.act f.peer) :
    Moves W now S t (t.handleAuthFrame W now data source fromRelay) := by
  have hadmits := Manager.admitAuth_admits W.P W.registry W.entropy now t.kx data
  cases hparse : parseAuth data with
  | none => rw [handleAuthFrame, Manager.admitAuth, hparse]
  | some f =>
    have hq := hpeer f hparse
    have hkept : Moves W now S t
        { t with kx := (t.kx.admitAuth W.P W.registry W.entropy now data).2 } :=
      .single (.accept _ _ hsessions (Manager.parseAuth_peer hparse ▸ hq)
        (Manager.admitAuth_handles ..))
    unfold handleAuthFrame
    split
    next ev kx h =>
      rw [h] at hadmits hkept
      obtain ⟨x25519, f', _, hparse', hev, _⟩ := admits_peer hadmits
      cases hparse.symm.trans hparse'
      exact hkept.trans (installed_moves _ ev source fromRelay (hev ▸ hq)
        (replyIfStale_moves _ (hev ▸ hq)))
    next h => rwa [h] at hkept

theorem handleUnauthFrame_moves (hsessions : S.sessions)
    (hpeer : ∀ f, parseUnauth data = some f → S.act f.peer) :
    Moves W now S t (t.handleUnauthFrame W now data source fromRelay) := by
  have hadmits := Manager.admitUnauth_admits W.P W.registry W.entropy now t.kx data
  cases hparse : parseUnauth data with
  | none => rw [handleUnauthFrame, Manager.admitUnauth, hparse]
  | some f =>
    have hq := hpeer f hparse
    have hkept : Moves W now S t
        { t with kx := (t.kx.admitUnauth W.P W.registry W.entropy now data).2 } :=
      .single (.accept _ _ hsessions (Manager.parseUnauth_peer hparse ▸ hq)
        (Manager.admitUnauth_handles ..))
    unfold handleUnauthFrame
    split
    next ev kx h =>
      rw [h] at hadmits hkept
      obtain ⟨x25519, f', hparse', hev, _⟩ := admits_peer hadmits
      cases hparse.symm.trans hparse'
      exact hkept.trans (installed_moves _ ev source fromRelay (hev ▸ hq) .refl)
    next q kx h =>
      obtain ⟨f', hparse', hev⟩ := Manager.admitUnauth_refused h
      cases hparse.symm.trans hparse'
      rw [h] at hkept
      exact hkept.trans (kxSendKeyExchange_moves _ (hev ▸ hq))
    next h => rwa [h] at hkept

/-! ## Datagrams -/

theorem allowRekey_moves (q : NodeID) : Moves W now S t (t.allowRekey q now).2 := by
  unfold allowRekey
  simp only
  split
  · exact .single (.limit _ t.kxRateLim t.relayKxLim)
  · split
    · exact .refl
    · exact .single (.limit _ t.kxRateLim t.relayKxLim)

section

variable (hq : S.act q)
include hq

theorem noteRekeyPath_moves : Moves W now S t (t.noteRekeyPath q source) := by
  have hrouted : Moves W now S t { t with
      routing := if t.routing.isFromBeacon source && !t.hasDirect q then
          t.routing.admitRelayFromBeacon q
        else t.routing } := by
    split
    · exact admitRelayFromBeacon_moves t hq
    · exact .refl
  unfold noteRekeyPath
  split
  · exact hrouted.trans (.single (.learn q _ (S.path_of_act q hq)))
  · exact hrouted

theorem maybeRequestRekey_moves : Moves W now S t (t.maybeRequestRekey W now q source) := by
  have hallowed : Moves W now S t (t.allowRekey q now).2 := allowRekey_moves t q
  have hnoted := hallowed.trans (noteRekeyPath_moves _ source hq)
  unfold maybeRequestRekey
  simp only
  split_ifs
  · exact .refl
  · exact hnoted.trans (sendKeyExchangeToNode_moves _ hq)
  · exact (hnoted.rekey hq (touches_markKeyRequestDue now q _)).trans
      (sendKeyExchangeToNode_moves _ hq)
  · exact hallowed

theorem dropDiverged_moves (e : DecryptErr) (hsessions : S.sessions) :
    Moves W now S t (t.dropDiverged W now e q source) := by
  unfold dropDiverged
  repeat' split
  any_goals exact .refl
  next env h =>
    have henv : env = t.kx.env.drop q := by
      unfold Store.compareAndDrop at h
      split at h <;> cases h
      rfl
    have hdropped : Moves W now S t (t.withEnv env) := by
      rw [henv]
      refine .single (.session q _ hsessions hq rfl fun x hx => ?_)
      rw [Store.get_drop, if_neg hx]
    exact hdropped.trans (maybeRequestRekey_moves _ source hq)

theorem noteDirect_moves : Moves W now S t (t.noteDirect q source now) := by
  have hpath := S.path_of_act q hq
  unfold noteDirect
  cases source with
  | none => exact .refl
  | some addr =>
    have hcleared : Moves W now S t
        { t with routing := t.routing.clearRelayOnDirect q (some addr) } :=
      .single (.route (.clearRelayOnDirect q addr) trivial hpath)
    exact hcleared.ite _
      ((hcleared.tail (.route (.recordDirectRecv q now) rfl hpath)).tail (.learn q addr hpath))

theorem deliver_moves (plaintext : Option Bytes) (hsessions : S.sessions) :
    Moves W now S t (t.deliver W now q plaintext source) := by
  have hopened : Moves W now S t
      (((t.recordInboundDecrypt q now).clearPendingRekey q).noteDirect q source now) :=
    ((recordInboundDecrypt_moves t hq).trans (clearPendingRekey_moves _ hq)).trans
      (noteDirect_moves _ source hq)
  unfold deliver
  repeat' split
  · exact .refl
  · exact .refl
  · exact hopened
  · exact hopened.tail (.receive _ _ hsessions)
  · exact (hopened.use q now).tail (.receive _ _ hsessions)

end

theorem decryptFrame_others {P : Primitives} {s : Store} {data : Bytes} {f : SecureFrame}
    (hparse : parseSecure data = some f) : (decryptFrame P s data).1.peerNodeID = f.peer ∧
      (decryptFrame P s data).2.localNodeID = s.localNodeID ∧
      ∀ x, x ≠ f.peer → (decryptFrame P s data).2.get x = s.get x := by
  cases hready : s.getReady f.peer with
  | none =>
    rw [decryptFrame_noKey hparse hready]
    exact ⟨rfl, rfl, fun _ _ => rfl⟩
  | some c =>
    rw [decryptFrame_keyed hparse hready]
    refine ⟨decryptWith_peer P c f, noteOpen_localNodeID .., fun x hx => ?_⟩
    rw [Store.get_install, if_neg hx, noteOpen_get]

theorem handleEncrypted_moves (hsessions : S.sessions)
    (hpeer : ∀ f, parseSecure data = some f → S.act f.peer) :
    Moves W now S t (t.handleEncrypted W now data source) := by
  unfold handleEncrypted
  simp only
  cases hparse : parseSecure data with
  | none =>
    rw [decryptFrame_tooShort hparse]
    exact .refl
  | some f =>
    have hq := hpeer f hparse
    obtain ⟨hf, hnode, hothers⟩ := decryptFrame_others (P := W.P) (s := t.kx.env) hparse
    have hopened : Moves W now S t (t.withEnv (decryptFrame W.P t.kx.env data).2) :=
      .single (.session f.peer _ hsessions hq hnode hothers)
    rw [hf]
    split
    · exact hopened
    · exact hopened.trans (maybeRequestRekey_moves _ source hq)
    · exact hopened.trans (dropDiverged_moves _ source hq _ hsessions)
    · exact (hopened.tail (.receive _ _ hsessions)).trans
        (deliver_moves _ source hq _ hsessions)

theorem deliverPlaintext_moves (hsessions : S.sessions) :
    Moves W now S t (t.deliverPlaintext W data source) := by
  unfold deliverPlaintext
  repeat' split
  any_goals exact .refl
  exact .single (.receive _ _ hsessions)

end

end TunnelManager

/-! ## Dispatch -/

def named : Option (Magic × Bytes) → Option NodeID
  | some (.authEx, data) => (parseAuth data).map (·.peer)
  | some (.keyEx, data) => (parseUnauth data).map (·.peer)
  | some (.secure, data) => (parseSecure data).map (·.peer)
  | _ => none

def tunnelFrame (frame : Bytes) : Option (Magic × Bytes) :=
  (magicOf frame).map fun magic => (magic, frame.drop 4)

/-- The tunnel frame that a datagram is, or carries in a relay-deliver message. -/
def carried (frame : Bytes) : Option (Magic × Bytes) :=
  if frame.head? = some beaconMsgRelayDeliver then tunnelFrame (frame.drop 5) else tunnelFrame frame

/-- The node that the beacon names as the sender of a datagram that it delivers. -/
def relayedFrom (frame : Bytes) : Option NodeID :=
  if frame.head? = some beaconMsgRelayDeliver ∧ 6 ≤ frame.length then some (readNode (frame.drop 1))
  else none

namespace TunnelManager

section

variable {W : World} {now : Nat} {S : Scope} {q : NodeID} (t : TunnelManager)

/-- From `t` to `t'` only paths and limits are noted, the path of `src` at most. -/
structure Noted (W : World) (now : Nat) (src : Option NodeID) (t t' : TunnelManager) : Prop where
  moves : ∀ S : Scope, (∀ p, src = some p → S.path p) → Moves W now S t t'
  same : t' = { t' with kx := t.kx, encrypt := t.encrypt, recvCh := t.recvCh, opened := t.opened }

/-- At most one handler runs, on the frame that the datagram carries. -/
inductive Dispatched (W : World) (now : Nat) (frame : Option (Magic × Bytes)) (t : TunnelManager) :
    TunnelManager → Prop
  | ignored : Dispatched W now frame t t
  | auth (data : Bytes) (source : Option UDPAddr) (fromRelay : Bool)
      (h : frame = some (.authEx, data)) :
      Dispatched W now frame t (t.handleAuthFrame W now data source fromRelay)
  | unauth (data : Bytes) (source : Option UDPAddr) (fromRelay : Bool)
      (h : frame = some (.keyEx, data)) :
      Dispatched W now frame t (t.handleUnauthFrame W now data source fromRelay)
  | secure (data : Bytes) (source : Option UDPAddr) (h : frame = some (.secure, data)) :
      Dispatched W now frame t (t.handleEncrypted W now data source)
  | plain (data : Bytes) (source : Option UDPAddr) :
      Dispatched W now frame t (t.deliverPlaintext W data source)

def Handled (W : World) (now : Nat) (src : Option NodeID) (frame : Option (Magic × Bytes))
    (t t' : TunnelManager) : Prop :=
  ∃ t₁, Noted W now src t t₁ ∧ Dispatched W now frame t₁ t'

variable {src : Option NodeID} {carries : Option (Magic × Bytes)}

theorem Noted.refl : Noted W now src t t := ⟨fun _ _ => .refl, rfl⟩

theorem Noted.handled {t t₁ t' : TunnelManager} (h : Noted W now src t t₁)
    (h' : Handled W now src carries t₁ t') : Handled W now src carries t t' := by
  obtain ⟨t₂, hnoted, hdispatched⟩ := h'
  refine ⟨t₂, ⟨fun S hS => (h.moves S hS).trans (hnoted.moves S hS), ?_⟩, hdispatched⟩
  rw [hnoted.same, h.same]

theorem passKx_noted (data : Bytes) (source : Option UDPAddr) (fromRelay : Bool) :
    Noted W now src t (t.passKx W now data source fromRelay).2 := by
  unfold passKx
  split
  · exact .refl t
  · cases fromRelay <;> cases source
    any_goals exact .refl t
    exact ⟨fun S _ => .single (.limit t.lastRekeyReq _ t.relayKxLim), rfl⟩

theorem handleAuthKeyExchange_handled {data : Bytes} (h : carries = some (.authEx, data))
    (source : Option UDPAddr) (fromRelay : Bool) :
    Handled W now src carries t (t.handleAuthKeyExchange W now data source fromRelay) := by
  refine ⟨_, passKx_noted t data source fromRelay, ?_⟩
  unfold handleAuthKeyExchange
  simp only
  split
  · exact .auth data source fromRelay h
  · exact .ignored

theorem handleKeyExchange_handled {data : Bytes} (h : carries = some (.keyEx, data))
    (source : Option UDPAddr) (fromRelay : Bool) :
    Handled W now src carries t (t.handleKeyExchange W now data source fromRelay) := by
  refine ⟨_, passKx_noted t data source fromRelay, ?_⟩
  unfold handleKeyExchange
  simp only
  split
  · exact .unauth data source fromRelay h
  · exact .ignored

theorem admitRelayed_noted (q : NodeID) : Noted W now (some q) t (t.admitRelayed q).2 := by
  unfold admitRelayed
  simp only
  split
  · exact .refl t
  · have hmarked : ∀ S : Scope, S.path q → Moves W now S t { t with routing :=
        (t.routing.markRelayActivatedIfHadCrypto q (t.kx.env.has q)).2.2 } := fun S hq =>
      .single (.route (.markRelayActivatedIfHadCrypto q (t.kx.env.has q)) trivial hq)
    split
    · exact ⟨fun S hS => (hmarked S (hS q rfl)).tail (.learn q _ (hS q rfl)), rfl⟩
    · exact ⟨fun S hS => hmarked S (hS q rfl), rfl⟩

theorem handleRelayDeliver_handled {data : Bytes} (hlength : ¬data.length < 5) :
    Handled W now (some (readNode data)) (tunnelFrame (data.drop 4)) t
      (t.handleRelayDeliver W now data) := by
  have hkind : ∀ magic, magicOf (data.drop 4) = some magic →
      tunnelFrame (data.drop 4) = some (magic, (data.drop 4).drop 4) := fun magic h => by
    rw [tunnelFrame, h]
    rfl
  have hadmitted : Noted W now (some (readNode data)) t (t.admitRelayed (readNode data)).2 :=
    admitRelayed_noted t _
  have hlimited (t₁ : TunnelManager) : Noted W now (some (readNode data)) t₁
      (t₁.allowKxFromRelaySrc (readNode data) now).2 := ⟨fun S _ => .single (.limit _ _ _), rfl⟩
  unfold handleRelayDeliver
  rw [if_neg hlength]
  apply hadmitted.handled
  simp only
  split
  · exact ⟨_, .refl _, .ignored⟩
  · split
    next h =>
      apply (hlimited _).handled
      split
      · exact handleAuthKeyExchange_handled _ (hkind _ h) _ _
      · exact ⟨_, .refl _, .ignored⟩
    next h =>
      apply (hlimited _).handled
      split
      · exact handleKeyExchange_handled _ (hkind _ h) _ _
      · exact ⟨_, .refl _, .ignored⟩
    next h => exact ⟨_, .refl _, .secure _ _ (hkind _ h)⟩
    · exact ⟨_, .refl _, .plain _ _⟩
    · exact ⟨_, .refl _, .ignored⟩

variable (W now) in
theorem readLoopOneIter_handled (frame : Bytes) (remote : Option UDPAddr) :
    Handled W now (relayedFrom frame) (carried frame) t (t.readLoopOneIter W now frame remote) := by
  unfold readLoopOneIter
  split
  · unfold handleBeaconMessage
    split
    next h =>
      by_cases hlength : (frame.drop 1).length < 5
      · rw [handleRelayDeliver, if_pos hlength]
        exact ⟨t, .refl t, .ignored⟩
      · have hfrom : relayedFrom frame = some (readNode (frame.drop 1)) :=
          if_pos ⟨h.1, by rw [List.length_drop] at hlength; omega⟩
        rw [hfrom, carried, if_pos h.1]
        have hdelivered : Handled W now _ _ t (t.handleRelayDeliver W now (frame.drop 1)) :=
          handleRelayDeliver_handled t hlength
        rwa [List.drop_drop] at hdelivered
    · exact ⟨t, .refl t, .ignored⟩
  next hbeacon =>
    have hdirect : frame.head? ≠ some beaconMsgRelayDeliver := fun h => hbeacon (by
      rw [h]
      decide)
    have hkind : ∀ magic, magicOf frame = some magic →
        carried frame = some (magic, frame.drop 4) := fun magic h => by
      rw [carried, if_neg hdirect, tunnelFrame, h]
      rfl
    split
    next h => exact handleAuthKeyExchange_handled t (hkind _ h) _ _
    next h => exact handleKeyExchange_handled t (hkind _ h) _ _
    next h => exact ⟨t, .refl t, .secure _ _ (hkind _ h)⟩
    · exact ⟨t, .refl t, .plain _ _⟩
    · exact ⟨t, .refl t, .ignored⟩

theorem readLoopOneIter_moves (frame : Bytes) (remote : Option UDPAddr) (hsessions : S.sessions)
    (hsrc : ∀ p, relayedFrom frame = some p → S.path p)
    (hnamed : ∀ p, named (carried frame) = some p → S.act p) :
    Moves W now S t (t.readLoopOneIter W now frame remote) := by
  obtain ⟨t₁, hnoted, hdispatched⟩ := readLoopOneIter_handled W now t frame remote
  apply (hnoted.moves S hsrc).trans
  generalize t.readLoopOneIter W now frame remote = t' at hdispatched ⊢
  cases hdispatched with
  | ignored => exact .refl
  | auth data source fromRelay h =>
    exact handleAuthFrame_moves t₁ data source fromRelay hsessions fun f hf =>
      hnamed f.peer (by simp [h, named, hf])
  | unauth data source fromRelay h =>
    exact handleUnauthFrame_moves t₁ data source fromRelay hsessions fun f hf =>
      hnamed f.peer (by simp [h, named, hf])
  | secure data source h =>
    exact handleEncrypted_moves t₁ data source hsessions fun f hf =>
      hnamed f.peer (by simp [h, named, hf])
  | plain data source => exact deliverPlaintext_moves t₁ data source hsessions

/-! ## Sends, peers and the tick -/

theorem written_snd (r : Except WriteErr Route × TunnelManager) : (written r).2 = r.2 := by
  unfold written
  split <;> rfl

section

variable (hq : S.act q)
include hq

theorem startKeyExchange_moves : Moves W now S t (t.startKeyExchange W now q) :=
  Moves.ite .refl _ (sendKeyExchangeToNode_moves t hq)

theorem enqueue_moves (data : Bytes) : Moves W now S t (t.enqueue q data now).2 := by
  unfold enqueue
  simp only
  split
  · exact .refl
  · split
    · exact .refl
    · refine .single (.queue q _ _ hq (fun x hx => AList.lookup_insert_ne hx) (fun x hx => ?_) ?_)
      · split
        · exact AList.lookup_insert_ne hx
        · rfl
      · split
        · exact .inr fun since hsome => Option.some.inj (hsome.symm.trans (AList.lookup_insert _))
        · exact .inl rfl

theorem sendEncrypted_moves (addr : Option UDPAddr) (data : Bytes) :
    Moves W now S t (t.sendEncrypted W now addr q data).2 := by
  unfold sendEncrypted
  split
  next pc hready =>
    have hsealed : Moves W now S t (t.encryptFrame W q
        (Store.recordSalvage pc data now) data).2 :=
      .single (.encrypt q _ data hq
        (session_of_get (c := pc) (Store.getReady_eq_some.mp hready).1))
    rw [written_snd]
    exact hsealed.write hq addr (.secure _ (magicOf_encryptWith ..))
  · have hstarted : Moves W now S t (t.startKeyExchange W now q) := startKeyExchange_moves t hq
    simp only
    split
    · exact hstarted
    · exact hstarted.trans (enqueue_moves _ hq data)

theorem sendTo_moves (addr : Option UDPAddr) (data : Bytes) (ping : Bool) (hplain : S.plain) :
    Moves W now S t (t.sendTo W now addr q data ping).2 := by
  have hnoted : Moves W now S t (if ping then t else t.noteAppActivity q now) :=
    Moves.ite .refl _ (.single (.use q now))
  have hsent (t₁ : TunnelManager) : Moves W now S t₁ (if t₁.encrypt then
      t₁.sendEncrypted W now addr q data
      else written (t₁.writeFrame W now q addr (tunnelMagic ++ data))).2 := by
    split
    · exact sendEncrypted_moves t₁ hq addr data
    · rw [written_snd]
      exact .single (.write q addr _ hq (.plain _ hplain))
  exact hnoted.trans (hsent _)

theorem addPeer_moves (addr : UDPAddr) : Moves W now S t (t.addPeer W now q addr) := by
  have hadded : Moves W now S t { t with peers := t.peers.insert q addr } :=
    .single (.learn q addr (S.path_of_act q hq))
  exact (hadded.trans (startKeyExchange_moves _ hq)).ite _ hadded

end

theorem retransmit_moves {due : NodeID × Nat} (hq : S.act due.1) :
    Moves W now S t (t.retransmit W now due) := by
  have hforced : Moves W now S t (t.maybeForceRelayOnRekey due.1 (due.2 + 1)) :=
    Moves.ite .refl _ (Moves.ite .refl _
      (.single (.route (.setRelayPeer due.1 true) trivial (S.path_of_act _ hq))))
  exact hforced.trans (kxSendKeyExchange_moves _ hq)

end

end TunnelManager

namespace Daemon

section

variable {W : World} {now : Nat} {S : Scope} {q : NodeID}

@[simp] theorem onRekeyGaveUp_tunnels (W : World) (now : Nat) (d : Daemon) (peer : NodeID) :
    (d.onRekeyGaveUp W now peer).tunnels = d.tunnels := by
  unfold onRekeyGaveUp
  split
  · rfl
  · split <;> rfl

theorem rekeyRetransmitTick_tunnels (W : World) (now : Nat) (d : Daemon) :
    (d.rekeyRetransmitTick W now).tunnels =
      ((d.tunnels.kx.rk.scanPending now).2.1.take maxRetransmitsPerTick).foldl
        (fun t due => t.retransmit W now due)
        (d.tunnels.withRekey (d.tunnels.kx.rk.scanPending now).2.2) := by
  have hgaveUp := run_invariant_all
    (fun d' : Daemon => d'.tunnels = d.tunnels.withRekey (d.tunnels.kx.rk.scanPending now).2.2)
    (fun d' peer h => (onRekeyGaveUp_tunnels W now d' peer).trans h)
    (d.tunnels.kx.rk.scanPending now).1
    (s := d.onTunnels fun t => t.withRekey (d.tunnels.kx.rk.scanPending now).2.2) rfl
  exact congrArg (List.foldl _ · _) hgaveUp

theorem rekeyRetransmitTick_moves (d : Daemon)
    (hdue : ∀ due ∈ (d.tunnels.kx.rk.scanPending now).2.1.take maxRetransmitsPerTick, S.act due.1) :
    Moves W now S d.tunnels (d.rekeyRetransmitTick W now).tunnels := by
  rw [rekeyRetransmitTick_tunnels]
  exact run_invariant (fun t => Moves W now S d.tunnels t)
    (fun t due h hq => h.trans (retransmit_moves t hq)) (.single .scan)
    (allSteps_of_inputs _ _ hdue)

theorem connect_moves (d : Daemon) (hq : S.act q) (r : Resolved) :
    Moves W now S d.tunnels (d.connect W now q r).2.tunnels := by
  unfold connect
  cases r.addr with
  | none => exact .refl
  | some addr =>
    simp only
    split
    · exact (addPeer_moves _ hq addr).head
        (.route (.setRelayPeerPinned q true) trivial (S.path_of_act q hq))
    · exact addPeer_moves _ hq addr

theorem ensureTunnel_moves (d : Daemon) (hq : S.act q) (answer : Option Resolved) :
    Moves W now S d.tunnels (d.ensureTunnel W now q answer).2.tunnels := by
  unfold ensureTunnel
  repeat' split
  · exact .refl
  · exact connect_moves d hq _
  · exact connect_moves { d with resolveCache := d.resolveCache.insert q (_, now) } hq _
  · exact addPeer_moves _ hq _
  · exact .refl

theorem forgetPath_moves (t : TunnelManager) (hsessions : S.sessions) (hq : S.act q)
    (hforget : S.forget q) : Moves W now S t (forgetPath t q) := by
  have hunpinned : Moves W now S t (if t.routing.isRelayPinned q then
      { t with routing := t.routing.setRelayPeerPinned q false } else t) :=
    Moves.ite (.single (.route (.setRelayPeerPinned q false) trivial hforget)) _ .refl
  have hremoved (t₁ : TunnelManager) :
      Moves W now S t₁ (if (t.peerAddr q).isSome then t₁.removePeer q else t₁) :=
    Moves.ite (.single (.removePeer q hsessions hforget)) _ .refl
  have hrelayed (t₃ : TunnelManager) : Moves W now S t₃ (if t.routing.isRelayPeer q then
      { t₃ with routing := t₃.routing.setRelayPeer q true } else t₃) :=
    Moves.ite (.single (.route (.setRelayPeer q true) trivial (S.path_of_act q hq))) _ .refl
  have hcleared (t₄ : TunnelManager) : Moves W now S t₄
      { t₄.withRekey (t₄.kx.rk.clearRekeyGaveUp q) with
        lastRekeyReq := t₄.lastRekeyReq.erase q } := by
    have hrekeyed : Moves W now S t₄ (t₄.withRekey (t₄.kx.rk.clearRekeyGaveUp q)) :=
      .single (.rekey q _ hq ⟨fun _ _ => rfl, .inl rfl⟩)
    exact hrekeyed.tail (.limit _ t₄.kxRateLim t₄.relayKxLim)
  have hgone := hunpinned.trans (hremoved _)
  unfold forgetPath
  cases t.activity.lookup q with
  | none => exact (hgone.trans (hrelayed _)).trans (hcleared _)
  | some last => exact ((hgone.use q last).trans (hrelayed _)).trans (hcleared _)

def forgotten (d : Daemon) (q : NodeID) : Daemon :=
  { d with
    tunnels := forgetPath d.tunnels q
    resolveCache := d.resolveCache.erase q
    epCache := d.epCache.erase q }

theorem resetPeerPath_eq (W : World) (now : Nat) (d : Daemon) (q : NodeID)
    (answer : Option Resolved) : d.resetPeerPath W now q answer = if d.regConn then
        match (d.forgotten q).ensureTunnel W now q answer with
        | (false, d₂) => d₂
        | (true, d₂) => d₂.onTunnels fun t => t.sendKeyExchangeToNode W now q
      else d.forgotten q := rfl

theorem resolve_moves (d : Daemon) (hq : S.act q) (answer : Option Resolved) :
    Moves W now S (forgetPath d.tunnels q) (d.resetPeerPath W now q answer).tunnels := by
  have hensure : Moves W now S (forgetPath d.tunnels q)
      ((d.forgotten q).ensureTunnel W now q answer).2.tunnels :=
    ensureTunnel_moves (d.forgotten q) hq answer
  rw [resetPeerPath_eq]
  split
  · split
    next h => rwa [h] at hensure
    next h =>
      rw [h] at hensure
      exact hensure.trans (sendKeyExchangeToNode_moves _ hq)
  · exact .refl

theorem resetPeerPath_moves (d : Daemon) (hsessions : S.sessions) (hq : S.act q)
    (hforget : S.forget q) (answer : Option Resolved) :
    Moves W now S d.tunnels (d.resetPeerPath W now q answer).tunnels :=
  (forgetPath_moves d.tunnels hsessions hq hforget).trans (resolve_moves d hq answer)

def Op.Within (S : Scope) (d : Daemon) (now : Nat) : Op → Prop
  | .recv frame _ => (∀ q, relayedFrom frame = some q → S.path q) ∧
      ∀ q, named (carried frame) = some q → S.act q
  | .tick => ∀ due ∈ (d.tunnels.kx.rk.scanPending now).2.1.take maxRetransmitsPerTick, S.act due.1
  | .reset q _ => S.act q ∧ S.forget q
  | .sendTo _ q _ _ => S.act q
  | .addPeer q _ => S.act q
  | .removePeer q => S.forget q
  | .dropCrypto q => S.forget q

theorem step_moves (d : Daemon) {op : Op} (hsessions : S.sessions) (hplain : S.plain)
    (h : op.Within S d now) : Moves W now S d.tunnels (step W d ⟨now, op⟩).tunnels := by
  cases op with
  | recv frame remote => exact readLoopOneIter_moves _ frame remote hsessions h.1 h.2
  | tick => exact rekeyRetransmitTick_moves d h
  | reset q answer =>
    unfold step
    simp only
    split
    · exact resetPeerPath_moves { d with resetting := d.resetting.erase q } hsessions h.1 h.2 answer
    · exact .refl
  | sendTo addr q data ping => exact sendTo_moves _ h addr data ping hplain
  | addPeer q addr => exact addPeer_moves _ h addr
  | removePeer q => exact .single (.removePeer q hsessions h)
  | dropCrypto q => exact .single (.dropCrypto q hsessions h)

end

end Daemon

end PilotProtocol.Tunnel
