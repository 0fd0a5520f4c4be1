import PilotProtocol.KeyExchange.Manager

/-! # Handling key-exchange frames

`admitAuth` and `admitUnauth` are the two frame handlers up to the point where
the session is in the store; the replies and the hooks that follow belong to the
tunnel. `Admits` says once what either of them can do to the manager.
-/

namespace PilotProtocol.KeyExchange

open Library

/-! ## Frames -/

def tunnelMagicAuthEx : Bytes := [0x50, 0x49, 0x4C, 0x41]
def tunnelMagicKeyEx : Bytes := [0x50, 0x49, 0x4C, 0x4B]

/-- The text `auth`, the node ID and the X25519 key: what a PILA frame signs. -/
def authChallenge (node : NodeID) (x25519 : Bytes) : Bytes :=
  [0x61, 0x75, 0x74, 0x68] ++ nodeBytes node ++ x25519

namespace Manager

def buildAuthFrame (P : Primitives) (m : Manager) : Option Bytes :=
  match m.setup.pubKey, m.setup.identity with
  | some pub, some identity =>
    let node := m.env.localNodeID
    some (tunnelMagicAuthEx ++ nodeBytes node ++ pub ++ P.ed25519Public identity ++
      P.sign identity (authChallenge node pub))
  | _, _ => none

def buildUnauthFrame (m : Manager) : Option Bytes :=
  m.setup.pubKey.map fun pub => tunnelMagicKeyEx ++ nodeBytes m.env.localNodeID ++ pub

end Manager

structure AuthFrame where
  peer : NodeID
  x25519 : Bytes
  ed25519 : Bytes
  signature : Bytes

def parseAuth (data : Bytes) : Option AuthFrame :=
  if data.length < 4 + 32 + 32 + 64 then none
  else some ⟨readNode data, (data.drop 4).take 32, (data.drop 36).take 32, (data.drop 68).take 64⟩

structure UnauthFrame where
  peer : NodeID
  x25519 : Bytes

def parseUnauth (data : Bytes) : Option UnauthFrame :=
  if data.length < 36 then none else some ⟨readNode data, (data.drop 4).take 32⟩

/-! ## Key derivation -/

/-- The text `pilot-tunnel-v1`. -/
def hkdfInfo : Bytes :=
  [0x70, 0x69, 0x6C, 0x6F, 0x74, 0x2D, 0x74, 0x75, 0x6E, 0x6E, 0x65, 0x6C, 0x2D, 0x76, 0x31]

def deriveKey (P : Primitives) (shared : Bytes) : Bytes :=
  P.hmacSHA256 (P.hmacSHA256 [] shared) (hkdfInfo ++ [0x01])

def freshCrypto (ref : Nat) (key peerX25519Key noncePrefix : Bytes) (now : Nat) : Crypto where
  ref := ref
  key := key
  nonce := 0
  noncePrefix := noncePrefix
  maxRecvNonce := 0
  replayBitmap := Bitmap.empty
  ready := true
  authenticated := false
  peerX25519Key := peerX25519Key
  decryptFailCount := 0
  outsideWindowCount := 0
  replayCount := 0
  createdAt := now
  salvage := []

/-- The random nonce prefix of the `n`-th derived key, `none` when the read fails. -/
abbrev Entropy := Nat → Option Bytes

/-- An admitted frame: the session found, and the one derived from the frame. -/
structure Install where
  peer : NodeID
  old : Option Crypto
  new : Crypto

/-- The outcome of a handled frame: dropped, refused with a reply owed to the peer,
or admitted. -/
inductive Verdict
  | ignored
  | refused (peer : NodeID)
  | admitted (ev : Install)

namespace Install

def hadCrypto (ev : Install) : Bool := ev.old.isSome

def keyChanged (ev : Install) : Bool :=
  ev.old.any fun old => decide (old.peerX25519Key ≠ ev.new.peerX25519Key)

def duplicate (ev : Install) (now : Nat) : Bool :=
  ev.old.any fun old => decide (old.peerX25519Key = ev.new.peerX25519Key) &&
    decide (now - old.createdAt < duplicateHandshakeDebounce)

def replaces (ev : Install) : Bool := !ev.hadCrypto || ev.keyChanged

end Install

namespace Manager

def deriveSecret (P : Primitives) (entropy : Entropy) (now : Nat) (m : Manager) (peerPub : Bytes) :
    Option Crypto × Manager :=
  match m.setup.privKey with
  | none => (none, m)
  | some priv =>
    match P.ecdh priv peerPub with
    | none => (none, m)
    | some shared =>
      let pc := (entropy m.allocated).map fun noncePrefix =>
        freshCrypto m.allocated (deriveKey P shared) peerPub noncePrefix now
      (pc, { m with allocated := m.allocated + 1 })

/-- Installs `pc` unless the session in place has the same X25519 key. -/
def installNew (m : Manager) (peer : NodeID) (pc : Crypto) : Install × Manager :=
  let ev : Install := ⟨peer, m.env.get peer, pc⟩
  (ev, if ev.replaces then { m with env := m.env.install peer pc } else m)

/-- `HandleAuthFrame` up to the update of the peer-key cache. -/
def admitAuth (P : Primitives) (reg : Registry) (entropy : Entropy) (now : Nat) (m : Manager)
    (data : Bytes) : Verdict × Manager :=
  match parseAuth data with
  | none => (.ignored, m)
  | some f =>
    if m.setup.privKey.isNone then (.ignored, m)
    else
      let (key, pubKeys) := m.pubKeys.verifiedKey reg m.setup.verifyFunc now f.peer f.ed25519
      let m₁ := { m with pubKeys }
      match key with
      | none => (.ignored, m₁)
      | some expected =>
        if P.verify expected (authChallenge f.peer f.x25519) f.signature then
          match m₁.deriveSecret P entropy now f.x25519 with
          | (none, m₂) => (.ignored, m₂)
          | (some pc, m₂) =>
            let (ev, m₃) := m₂.installNew f.peer { pc with authenticated := true }
            (.admitted ev, { m₃ with pubKeys := m₃.pubKeys.setPeerPubKey f.peer f.ed25519 })
        else (.ignored, m₁)

/-- The part of `HandleUnauthFrame` after the identity check: the budget check, the
derivation and the install. -/
def admitUnverified (P : Primitives) (entropy : Entropy) (now : Nat) (m : Manager)
    (f : UnauthFrame) : Verdict × Manager :=
  if !m.env.has f.peer && decide (maxCryptoPeers ≤ m.env.len) then (.ignored, m)
  else
    match m.deriveSecret P entropy now f.x25519 with
    | (none, m₁) => (.ignored, m₁)
    | (some pc, m₁) =>
      let (ev, m₂) := m₁.installNew f.peer pc
      (.admitted ev, m₂)

/-- `HandleUnauthFrame` up to the install. -/
def admitUnauth (P : Primitives) (reg : Registry) (entropy : Entropy) (now : Nat) (m : Manager)
    (data : Bytes) : Verdict × Manager :=
  match parseUnauth data with
  | none => (.ignored, m)
  | some f =>
    if m.setup.privKey.isNone then (.ignored, m)
    else if m.setup.identity.isSome then
      match m.getPeerPubKey reg now f.peer with
      | (.ok _, m₁) => (.refused f.peer, m₁)
      | (.error _, m₁) => m₁.admitUnverified P entropy now f
    else m.admitUnverified P entropy now f

/-! ## What a handler can do -/

variable {now : Nat} {auth : Bool} {allowed : NodeID → Bytes → Prop} {m' : Manager}
  {verdict : Verdict} {data : Bytes} (P : Primitives) (reg : Registry) (entropy : Entropy)

theorem deriveSecret_cases (now : Nat) (m : Manager) (peerPub : Bytes) :
    (∃ n, m.allocated ≤ n ∧ m.deriveSecret P entropy now peerPub = (none, { m with allocated := n })) ∨
    (∃ key noncePrefix, m.deriveSecret P entropy now peerPub =
      (some (freshCrypto m.allocated key peerPub noncePrefix now),
        { m with allocated := m.allocated + 1 })) := by
  unfold deriveSecret
  cases m.setup.privKey with
  | none => exact .inl ⟨m.allocated, le_rfl, rfl⟩
  | some priv =>
    simp only
    cases P.ecdh priv peerPub with
    | none => exact .inl ⟨m.allocated, le_rfl, rfl⟩
    | some shared =>
      cases entropy m.allocated with
      | none => exact .inl ⟨m.allocated + 1, Nat.le_succ _, rfl⟩
      | some noncePrefix => exact .inr ⟨_, noncePrefix, rfl⟩

theorem installNew_eq (m : Manager) (peer : NodeID) (pc : Crypto) :
    m.installNew peer pc = (⟨peer, m.env.get peer, pc⟩,
      { m with env := if (⟨peer, m.env.get peer, pc⟩ : Install).replaces then m.env.install peer pc
                      else m.env }) := by
  unfold installNew
  simp only
  split <;> rfl

/-- A PILA frame from `peer` with this X25519 key is signed by the key on record. -/
def AuthVerified (P : Primitives) (reg : Registry) (now : Nat) (m : Manager) (data : Bytes)
    (peer : NodeID) (x25519 : Bytes) : Prop :=
  ∃ f expected, parseAuth data = some f ∧ f.peer = peer ∧ f.x25519 = x25519 ∧
    (m.pubKeys.verifiedKey reg m.setup.verifyFunc now peer f.ed25519).1 = some expected ∧
    P.verify expected (authChallenge peer x25519) f.signature = true

/-- A PILK frame from `peer` with this X25519 key meets no key on record. -/
def UnauthUnknown (reg : Registry) (now : Nat) (m : Manager) (data : Bytes) (peer : NodeID)
    (x25519 : Bytes) : Prop :=
  ∃ f, parseUnauth data = some f ∧ f.peer = peer ∧ f.x25519 = x25519 ∧
    (m.setup.identity.isSome = true → ∃ e, (m.getPeerPubKey reg now peer).1 = .error e)

def Cached (reg : Registry) (now : Nat) (m : Manager) (peer : NodeID) : PubKeyCache → Prop :=
  PubKeyCache.Reaches reg m.setup.verifyFunc now peer m.pubKeys

/-- What handling a frame can do to the manager: change the key cache and use up object
numbers; or, with a session derived from an allowed key, install it if it replaces what
is there. -/
inductive Admits (reg : Registry) (now : Nat) (auth : Bool) (allowed : NodeID → Bytes → Prop)
    (node : NodeID) (m : Manager) : Verdict → Manager → Prop
  | kept (verdict : Verdict) (pubKeys : PubKeyCache) (allocated : Nat)
      (hverdict : ∀ ev, verdict ≠ .admitted ev) (hle : m.allocated ≤ allocated)
      (hcached : m.Cached reg now node pubKeys) :
      Admits reg now auth allowed node m verdict { m with pubKeys, allocated }
  | admitted (peer : NodeID) (pc : Crypto) (key x25519 noncePrefix : Bytes) (pubKeys : PubKeyCache)
      (hpc : pc = { freshCrypto m.allocated key x25519 noncePrefix now with authenticated := auth })
      (hallowed : allowed peer x25519) (hcached : m.Cached reg now node pubKeys) :
      Admits reg now auth allowed node m (.admitted ⟨peer, m.env.get peer, pc⟩)
        { m with
          env := if (⟨peer, m.env.get peer, pc⟩ : Install).replaces then m.env.install peer pc
                 else m.env
          pubKeys
          allocated := m.allocated + 1 }

section

variable {reg : Registry} {node : NodeID} {m : Manager}
  (h : Admits reg now auth allowed node m verdict m')
include h

theorem Admits.allocated_le : m.allocated ≤ m'.allocated := by
  cases h with
  | kept _ pubKeys allocated hverdict hle => exact hle
  | admitted => exact Nat.le_succ _

theorem Admits.cached : Cached reg now m node m'.pubKeys := by
  cases h <;> assumption

theorem Admits.same :
    m'.rk = m.rk ∧ m'.setup = m.setup ∧ m'.env.localNodeID = m.env.localNodeID := by
  cases h with
  | kept => exact ⟨rfl, rfl, rfl⟩
  | admitted =>
    refine ⟨rfl, rfl, ?_⟩
    split <;> rfl

theorem Admits.session (q : NodeID) : m'.env.get q = m.env.get q ∨
      ∃ pc key x25519 noncePrefix, allowed q x25519 ∧ m'.env.get q = some pc ∧
        m'.allocated = m.allocated + 1 ∧
        pc = { freshCrypto m.allocated key x25519 noncePrefix now with authenticated := auth } := by
  cases h with
  | kept => exact .inl rfl
  | admitted peer pc key x25519 noncePrefix pubKeys hpc hallowed =>
    by_cases hreplaces : (⟨peer, m.env.get peer, pc⟩ : Install).replaces = true
    · rw [if_pos hreplaces, Store.get_install]
      by_cases hq : q = peer
      · subst hq
        rw [if_pos rfl]
        exact .inr ⟨pc, key, x25519, noncePrefix, hallowed, rfl, rfl, hpc⟩
      · rw [if_neg hq]
        exact .inl rfl
    · rw [if_neg hreplaces]
      exact .inl rfl

end

theorem parseAuth_peer {f : AuthFrame} (h : parseAuth data = some f) : f.peer = readNode data := by
  unfold parseAuth at h
  split at h <;> cases h
  rfl

theorem parseUnauth_peer {f : UnauthFrame} (h : parseUnauth data = some f) :
    f.peer = readNode data := by
  unfold parseUnauth at h
  split at h <;> cases h
  rfl

theorem admitAuth_admits (now : Nat) (m : Manager) (data : Bytes) :
    Admits reg now true (AuthVerified P reg now m data) (readNode data) m
      (m.admitAuth P reg entropy now data).1 (m.admitAuth P reg entropy now data).2 := by
  have hkept : ∀ {pubKeys : PubKeyCache} {n : Nat}, m.allocated ≤ n →
      Cached reg now m (readNode data) pubKeys →
      Admits reg now true (AuthVerified P reg now m data) (readNode data) m .ignored
        { m with pubKeys, allocated := n } :=
    fun hle hcached => .kept .ignored _ _ nofun hle hcached
  unfold admitAuth
  cases hparse : parseAuth data with
  | none => exact hkept le_rfl .refl
  | some f =>
    obtain ⟨hchecked, hfound⟩ := m.pubKeys.reaches_verifiedKey m.setup.verifyFunc now reg
      f.peer f.ed25519
    rw [← parseAuth_peer hparse] at hkept ⊢
    simp only
    split
    · exact hkept le_rfl .refl
    · cases hkey : m.pubKeys.verifiedKey reg m.setup.verifyFunc now f.peer f.ed25519 with
      | mk key pubKeys =>
        rw [hkey] at hchecked hfound
        cases key with
        | none => exact hkept le_rfl hchecked
        | some expected =>
          simp only
          split
          next hverify =>
            obtain ⟨n, hle, hderive⟩ | ⟨key, noncePrefix, hderive⟩ :=
              deriveSecret_cases P entropy now { m with pubKeys } f.x25519
            · rw [hderive]
              exact hkept hle hchecked
            · rw [hderive]
              simp only [installNew_eq]
              obtain ⟨hcarried, k₀, hreached, hok⟩ := hfound expected rfl
              exact .admitted f.peer _ key f.x25519 noncePrefix _ rfl
                ⟨f, expected, hparse, rfl, rfl, by rw [hkey], hverify⟩
                (hcarried ▸ .enter hchecked hreached hok)
          · exact hkept le_rfl hchecked

theorem admitUnverified_admits (now : Nat) (m : Manager) {node : NodeID} {pubKeys : PubKeyCache}
    (hcached : m.Cached reg now node pubKeys) {f : UnauthFrame}
    (hallowed : allowed f.peer f.x25519) :
    Admits reg now false allowed node m ({ m with pubKeys }.admitUnverified P entropy now f).1
      ({ m with pubKeys }.admitUnverified P entropy now f).2 := by
  unfold admitUnverified
  split
  · exact .kept .ignored pubKeys m.allocated nofun le_rfl hcached
  · obtain ⟨n, hle, hderive⟩ | ⟨key, noncePrefix, hderive⟩ :=
      deriveSecret_cases P entropy now { m with pubKeys } f.x25519
    · rw [hderive]
      exact .kept .ignored pubKeys n nofun hle hcached
    · rw [hderive]
      simp only [installNew_eq]
      exact .admitted f.peer _ key f.x25519 noncePrefix _ rfl hallowed hcached

theorem admitUnauth_admits (now : Nat) (m : Manager) (data : Bytes) :
    Admits reg now false (UnauthUnknown reg now m data) (readNode data) m
      (m.admitUnauth P reg entropy now data).1 (m.admitUnauth P reg entropy now data).2 := by
  have hsame : Admits reg now false (UnauthUnknown reg now m data) (readNode data) m .ignored m :=
    .kept .ignored m.pubKeys m.allocated nofun le_rfl .refl
  unfold admitUnauth
  cases hparse : parseUnauth data with
  | none => exact hsame
  | some f =>
    have hlooked : Cached reg now m f.peer
        (m.pubKeys.getPeerPubKey reg m.setup.verifyFunc now f.peer).2 := .get .refl
    simp only
    split
    · exact hsame
    · split
      · have hunfold : m.getPeerPubKey reg now f.peer =
            ((m.pubKeys.getPeerPubKey reg m.setup.verifyFunc now f.peer).1,
              { m with pubKeys := (m.pubKeys.getPeerPubKey reg m.setup.verifyFunc now f.peer).2 }) :=
          rfl
        rw [← parseUnauth_peer hparse]
        cases hanswer : (m.pubKeys.getPeerPubKey reg m.setup.verifyFunc now f.peer).1 with
        | ok pk =>
          rw [hunfold, hanswer]
          exact .kept (.refused f.peer) _ m.allocated nofun le_rfl hlooked
        | error e =>
          have hunknown : UnauthUnknown reg now m data f.peer f.x25519 :=
            ⟨f, hparse, rfl, rfl, fun _ => ⟨e, by rw [hunfold, hanswer]⟩⟩
          rw [hunfold, hanswer]
          exact admitUnverified_admits P reg entropy now m hlooked hunknown
      next hidentity =>
        exact admitUnverified_admits P reg entropy now m .refl
          ⟨f, hparse, rfl, rfl, fun h => absurd h hidentity⟩

theorem admitAuth_installs {P : Primitives} {reg : Registry} {m : Manager} {priv expected : Bytes}
    {f : AuthFrame} (hparse : parseAuth data = some f) (hpriv : m.setup.privKey = some priv)
    (hkey : (m.pubKeys.verifiedKey reg m.setup.verifyFunc now f.peer f.ed25519).1 = some expected)
    (hverify : P.verify expected (authChallenge f.peer f.x25519) f.signature = true)
    (hecdh : (P.ecdh priv f.x25519).isSome = true) (hentropy : ∀ n, (entropy n).isSome = true)
    (hready : ∀ c, m.env.get f.peer = some c → c.ready = true) :
    ∃ c, (m.admitAuth P reg entropy now data).2.env.get f.peer = some c ∧ c.ready = true ∧
      c.peerX25519Key = f.x25519 := by
  obtain ⟨shared, hshared⟩ := Option.isSome_iff_exists.mp hecdh
  obtain ⟨noncePrefix, hprefix⟩ := Option.isSome_iff_exists.mp (hentropy m.allocated)
  cases hcheck : m.pubKeys.verifiedKey reg m.setup.verifyFunc now f.peer f.ed25519 with
  | mk key pubKeys =>
    rw [hcheck] at hkey
    obtain rfl : key = some expected := hkey
    simp only [admitAuth, hparse, hpriv, Option.isNone_some, Bool.false_eq_true, if_false, hcheck,
      hverify, if_true, deriveSecret, hshared, hprefix, Option.map_some, installNew_eq]
    split
    · exact ⟨_, by rw [Store.get_install, if_pos rfl], rfl, rfl⟩
    next hkeep =>
      cases hold : m.env.get f.peer with
      | none => simp [Install.replaces, Install.hadCrypto, hold] at hkeep
      | some c =>
        have hsame : c.peerX25519Key = f.x25519 := by
          by_contra hchanged
          refine hkeep ?_
          simp [Install.replaces, Install.keyChanged, hold, freshCrypto, hchanged]
        exact ⟨c, rfl, hready c hold, hsame⟩

theorem admitUnauth_refuses {reg : Registry} {m : Manager} {pk : Bytes} {f : UnauthFrame}
    (hparse : parseUnauth data = some f) (hpriv : m.setup.privKey.isSome = true)
    (hid : m.setup.identity.isSome = true)
    (hkey : (m.pubKeys.getPeerPubKey reg m.setup.verifyFunc now f.peer).1 = .ok pk) :
    m.admitUnauth P reg entropy now data = (.refused f.peer,
      { m with pubKeys := (m.pubKeys.getPeerPubKey reg m.setup.verifyFunc now f.peer).2 }) := by
  have hnone : m.setup.privKey.isNone = false := by
    rw [← Option.not_isSome, hpriv, Bool.not_true]
  have hlookup : m.getPeerPubKey reg now f.peer = (.ok pk,
      { m with pubKeys := (m.pubKeys.getPeerPubKey reg m.setup.verifyFunc now f.peer).2 }) := by
    rw [← hkey]
    rfl
  simp only [admitUnauth, hparse, hnone, hid, hlookup, Bool.false_eq_true, if_false, if_true]

theorem admitUnauth_refused {P : Primitives} {reg : Registry} {entropy : Entropy} {m : Manager}
    {peer : NodeID} (h : m.admitUnauth P reg entropy now data = (.refused peer, m')) :
    ∃ f, parseUnauth data = some f ∧ f.peer = peer := by
  have hnever : ∀ (m : Manager) f, (m.admitUnverified P entropy now f).1 ≠ .refused peer := by
    intro m f hrefused
    unfold admitUnverified at hrefused
    repeat' split at hrefused
    all_goals cases hrefused
  unfold admitUnauth at h
  split at h
  · cases h
  next f hparse =>
    repeat' split at h
    · cases h
    · cases h
      exact ⟨f, hparse, rfl⟩
    · exact absurd (congrArg Prod.fst h) (hnever _ f)
    · exact absurd (congrArg Prod.fst h) (hnever _ f)

/-! ## The keys on record -/

theorem AuthVerified.signed {P : Primitives} {reg : Registry} {now : Nat} {m : Manager}
    {node : NodeID} {pk data x25519 : Bytes} (h : AuthVerified P reg now m data node x25519)
    (hreg : ∀ n key, reg n node = some key → key = pk) (hknown : m.pubKeys.Known node pk) :
    ∃ f, parseAuth data = some f ∧ f.peer = node ∧
      P.verify pk (authChallenge node f.x25519) f.signature = true := by
  obtain ⟨f, expected, hparse, hpeer, rfl, hkey, hverify⟩ := h
  obtain ⟨-, k₀, hreached, hok⟩ :=
    (m.pubKeys.reaches_verifiedKey m.setup.verifyFunc now reg node f.ed25519).2 expected hkey
  have hexpected := ((hreached.known hreg hknown).getPeerPubKey m.setup.verifyFunc now hreg node).2
  rw [hexpected rfl expected hok] at hverify
  exact ⟨f, hparse, hpeer, hverify⟩

/-! ## Other nodes -/

/-- From `m` to `m'` nothing changes for other nodes than `peer`, but that failures to look up
a key may be dropped. -/
structure Handles (peer : NodeID) (m m' : Manager) : Prop where
  rk : m'.rk = m.rk
  setup : m'.setup = m.setup
  node : m'.env.localNodeID = m.env.localNodeID
  session : ∀ q, q ≠ peer → m'.env.get q = m.env.get q
  pubKeys : m.pubKeys.Keeps peer m'.pubKeys

theorem Admits.handles {reg : Registry} {node : NodeID} {m : Manager}
    (h : Admits reg now auth allowed node m verdict m')
    (honly : ∀ q x25519, allowed q x25519 → q = node) : m.Handles node m' := by
  obtain ⟨hrk, hsetup, hnode⟩ := h.same
  refine ⟨hrk, hsetup, hnode, fun q hq => ?_, h.cached.keeps⟩
  obtain hsame | ⟨_, _, x25519, _, hallowed, _⟩ := h.session q
  · exact hsame
  · exact absurd (honly q x25519 hallowed) hq

theorem admitAuth_handles (now : Nat) (m : Manager) (data : Bytes) :
    m.Handles (readNode data) (m.admitAuth P reg entropy now data).2 := by
  apply (admitAuth_admits P reg entropy now m data).handles
  rintro q x25519 ⟨f, expected, hparse, hq, -⟩
  rw [← hq, parseAuth_peer hparse]

theorem admitUnauth_handles (now : Nat) (m : Manager) (data : Bytes) :
    m.Handles (readNode data) (m.admitUnauth P reg entropy now data).2 := by
  apply (admitUnauth_admits P reg entropy now m data).handles
  rintro q x25519 ⟨f, hparse, hq, -⟩
  rw [← hq, parseUnauth_peer hparse]

end Manager

end PilotProtocol.KeyExchange
