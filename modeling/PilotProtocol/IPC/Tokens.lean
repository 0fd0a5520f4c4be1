import PilotProtocol.Library.BigEndian
import PilotProtocol.Library.Slices

/-! # Length-prefixed tokens

Two requests of an IPC client carry an admin token behind its length in two bytes: the
broadcast and the setting of a network's policy. Whether the payload is long enough is
checked in `int`; the bounds of the slices are computed in `uint16`.
-/

namespace PilotProtocol.IPC

open Library

def uint16 (bytes : Bytes) : UInt16 := UInt16.ofNat (getBE bytes)

/-- The token and what follows it, behind a header of `header` bytes. -/
def takeToken (payload : Bytes) (header tokenLen : UInt16) (truncated : String) :
    Except Panic (Except String (Bytes × Bytes)) :=
  if payload.length < header.toNat + tokenLen.toNat then pure (.error truncated)
  else do
    let token ← slice payload header.toNat (header + tokenLen).toNat
    let rest ← sliceFrom payload (header + tokenLen).toNat
    pure (.ok (token, rest))

/-- What the handlers ask of the daemon. An error is given by its text. -/
structure Backend where
  broadcastDatagram : (netID dstPort : UInt16) → (data token : Bytes) → Option String
  adminToken : Bytes
  startPolicyRunner : UInt16 → Bytes → Option String
  /-- The policy of the network's runner, if it has one. -/
  policyJSON : UInt16 → Option Bytes
  managedEngine : UInt16 → Bool

inductive PolicyEngine
  | policy (exprPolicy : Bytes)
  | managed
  | none
  deriving DecidableEq

inductive Reply
  | error (msg : String)
  | broadcastOK
  | policyGet (netID : UInt16) (engine : PolicyEngine)
  | policyApplied (netID : UInt16)
  deriving DecidableEq

/-! ## The broadcast -/

structure BroadcastRequest where
  netID : UInt16
  dstPort : UInt16
  token : Bytes
  data : Bytes
  deriving DecidableEq

def parseBroadcast (payload : Bytes) : Except Panic (Except String BroadcastRequest) :=
  if payload.length < 6 then pure (.error "broadcast: missing header")
  else do
    let netID ← slice payload 0 2
    let dstPort ← slice payload 2 4
    let tokenLen ← slice payload 4 6
    match ← takeToken payload 6 (uint16 tokenLen) "broadcast: truncated token" with
    | .error msg => pure (.error msg)
    | .ok (token, data) => pure (.ok ⟨uint16 netID, uint16 dstPort, token, data⟩)

def sendBroadcast (B : Backend) (r : BroadcastRequest) : Reply :=
  match B.broadcastDatagram r.netID r.dstPort r.data r.token with
  | some err => .error ("broadcast: " ++ err)
  | none => .broadcastOK

def handleBroadcast (B : Backend) (payload : Bytes) : Except Panic Reply := do
  match ← parseBroadcast payload with
  | .error msg => pure (.error msg)
  | .ok r => pure (sendBroadcast B r)

/-! ## A network's policy -/

def hexByte (b : UInt8) : String :=
  String.ofList [(Nat.digitChar (b.toNat / 16)).toUpper, (Nat.digitChar (b.toNat % 16)).toUpper]

def parsePolicySet (rest : Bytes) : Except Panic (Except String (Bytes × Bytes)) :=
  if rest.length < 5 then pure (.error "managed policy set: missing token length")
  else do
    let tokenLen ← slice rest 3 5
    takeToken rest 5 (uint16 tokenLen) "managed policy set: truncated token"

/-- A daemon without an admin token takes every token. -/
def applyPolicy (B : Backend) (netID : UInt16) (token policyJSON : Bytes) : Reply :=
  if B.adminToken ≠ [] ∧ token ≠ B.adminToken then
    .error "managed policy set: invalid admin token"
  else if policyJSON.length = 0 then .error "managed policy set: missing policy JSON"
  else
    match B.startPolicyRunner netID policyJSON with
    | some err => .error ("managed policy set: " ++ err)
    | none => .policyApplied netID

def getPolicy (B : Backend) (netID : UInt16) : Reply :=
  .policyGet netID <|
    match B.policyJSON netID with
    | some exprPolicy => .policy exprPolicy
    | none => if B.managedEngine netID then .managed else .none

/-- The policy branch of `handleManaged`; `rest` is what follows the sub-command. -/
def handleManagedPolicy (B : Backend) (rest : Bytes) : Except Panic Reply :=
  if rest.length < 3 then
    pure (.error "managed policy: missing sub-sub-command and network_id")
  else do
    let action := rest.headD 0
    let netID ← slice rest 1 3
    if action = 0 then pure (getPolicy B (uint16 netID))
    else if action = 1 then
      match ← parsePolicySet rest with
      | .error msg => pure (.error msg)
      | .ok (token, policyJSON) => pure (applyPolicy B (uint16 netID) token policyJSON)
    else pure (.error ("managed policy: unknown action 0x" ++ hexByte action))

/-! ## Taking the token -/

section

variable {payload : Bytes} {header tokenLen : UInt16} {truncated : String}

theorem takeToken_truncated (h : payload.length < header.toNat + tokenLen.toNat) :
    takeToken payload header tokenLen truncated = .ok (.error truncated) := if_pos h

theorem takeToken_fits (h : header.toNat + tokenLen.toNat ≤ payload.length)
    (hfits : header.toNat + tokenLen.toNat < UInt16.size) :
    takeToken payload header tokenLen truncated =
      .ok (.ok ((payload.take (header.toNat + tokenLen.toNat)).drop header.toNat,
        payload.drop (header.toNat + tokenLen.toNat))) := by
  have hsum : (header + tokenLen).toNat = header.toNat + tokenLen.toNat := by
    exact Nat.mod_eq_of_lt hfits
  unfold takeToken
  rw [if_neg (Nat.not_lt_of_le h), hsum, slice_ok (Nat.le_add_right _ _) h, sliceFrom_ok h]
  rfl

theorem takeToken_wraps (h : header.toNat + tokenLen.toNat ≤ payload.length)
    (hwraps : UInt16.size ≤ header.toNat + tokenLen.toNat) :
    takeToken payload header tokenLen truncated = .error .sliceBounds := by
  have htoken := tokenLen.toNat_lt
  have hsum : (header + tokenLen).toNat < header.toNat := by
    rw [UInt16.toNat_add]
    have hsize : UInt16.size = 2 ^ 16 := rfl
    omega
  unfold takeToken
  rw [if_neg (Nat.not_lt_of_le h), slice_error hsum]
  rfl

theorem takeToken_panics_iff : takeToken payload header tokenLen truncated = .error .sliceBounds ↔
      header.toNat + tokenLen.toNat ≤ payload.length ∧
        UInt16.size ≤ header.toNat + tokenLen.toNat := by
  by_cases hshort : payload.length < header.toNat + tokenLen.toNat
  · rw [takeToken_truncated hshort]
    exact iff_of_false nofun (by omega)
  · by_cases hfits : header.toNat + tokenLen.toNat < UInt16.size
    · rw [takeToken_fits (Nat.le_of_not_lt hshort) hfits]
      exact iff_of_false nofun (by omega)
    · exact iff_of_true (takeToken_wraps (by omega) (by omega)) ⟨by omega, by omega⟩

end

theorem uint16_putBE {n : Nat} (h : n < UInt16.size) : (uint16 (putBE 2 n)).toNat = n := by
  have hpow : n < 256 ^ 2 := h
  unfold uint16
  rw [getBE_putBE, Nat.mod_eq_of_lt hpow, UInt16.toNat_ofNat_of_lt' h]

theorem uint16_toNat (n : UInt16) : uint16 (putBE 2 n.toNat) = n := by
  apply UInt16.toNat_inj.mp
  exact uint16_putBE n.toNat_lt

/-! ## Both requests -/

/-- The length that a payload declares for its token behind `header` bytes, the last two of
which hold it. -/
def declared (header : Nat) (payload : Bytes) : Nat :=
  (uint16 ((payload.take header).drop (header - 2))).toNat

/-- The payload holds the whole token it declares, and the sum of header and length does not
fit 16 bits. -/
def Overruns (header : Nat) (payload : Bytes) : Prop :=
  header + declared header payload ≤ payload.length ∧ UInt16.size ≤ header + declared header payload

variable {payload rest : Bytes} (B : Backend)

theorem map_error_iff {α β : Type} {x : Except Panic α} {f : α → β} :
    x.map f = .error .sliceBounds ↔ x = .error .sliceBounds := by
  cases x <;> simp [Except.map]

theorem parseBroadcast_eq (h : 6 ≤ payload.length) : parseBroadcast payload =
      (takeToken payload 6 (uint16 ((payload.take 6).drop 4)) "broadcast: truncated token").map
        fun r => r.map fun p =>
          ⟨uint16 ((payload.take 2).drop 0), uint16 ((payload.take 4).drop 2), p.1, p.2⟩ := by
  unfold parseBroadcast
  rw [if_neg (Nat.not_lt_of_le h), slice_ok (by omega) (by omega), slice_ok (by omega) (by omega),
    slice_ok (by omega) (by omega)]
  simp only [bind, Except.bind]
  cases takeToken payload 6 (uint16 ((payload.take 6).drop 4)) "broadcast: truncated token" with
  | error e => rfl
  | ok r => cases r <;> rfl

theorem parsePolicySet_eq (h : 5 ≤ rest.length) : parsePolicySet rest =
      takeToken rest 5 (uint16 ((rest.take 5).drop 3)) "managed policy set: truncated token" := by
  unfold parsePolicySet
  rw [if_neg (Nat.not_lt_of_le h), slice_ok (by omega) (by omega)]
  rfl

theorem parseBroadcast_panics_iff :
    parseBroadcast payload = .error .sliceBounds ↔ Overruns 6 payload := by
  by_cases hheader : 6 ≤ payload.length
  · rw [parseBroadcast_eq hheader, map_error_iff]
    exact takeToken_panics_iff
  · unfold parseBroadcast Overruns
    rw [if_pos (Nat.lt_of_not_le hheader)]
    exact iff_of_false nofun (by omega)

theorem parsePolicySet_panics_iff :
    parsePolicySet rest = .error .sliceBounds ↔ Overruns 5 rest := by
  by_cases hheader : 5 ≤ rest.length
  · rw [parsePolicySet_eq hheader]
    exact takeToken_panics_iff
  · unfold parsePolicySet Overruns
    rw [if_pos (Nat.lt_of_not_le hheader)]
    exact iff_of_false nofun (by omega)

def broadcastPayload (netID dstPort : UInt16) (token data : Bytes) : Bytes :=
  putBE 2 netID.toNat ++ putBE 2 dstPort.toNat ++ putBE 2 token.length ++ token ++ data

def policyPayload (netID : UInt16) (token policyJSON : Bytes) : Bytes :=
  [1] ++ putBE 2 netID.toNat ++ putBE 2 token.length ++ token ++ policyJSON

/-- What comes before the length of the token, the length, the token and what follows it. -/
def framed (head token rest : Bytes) : Bytes := head ++ putBE 2 token.length ++ token ++ rest

section

variable {head token rest : Bytes} (header : UInt16) (hhead : head.length + 2 = header.toNat)
  {truncated : String}

theorem length_framed (head token rest : Bytes) :
    (framed head token rest).length = head.length + 2 + token.length + rest.length := by
  simp [framed, Nat.add_assoc]

theorem framed_head {j k : Nat} (h : k ≤ head.length) :
    ((framed head token rest).take k).drop j = (head.take k).drop j := by
  unfold framed
  rw [List.append_assoc, List.append_assoc, List.take_append_of_le_length h]

include hhead

theorem declared_framed (h : token.length < UInt16.size) :
    declared header.toNat (framed head token rest) = token.length := by
  unfold declared framed
  rw [List.append_assoc, take_drop_middle _ (by omega) (by simp; omega), uint16_putBE h]

theorem takeToken_framed (h : header.toNat + token.length < UInt16.size) :
    takeToken (framed head token rest) header
        (uint16 (((framed head token rest).take header.toNat).drop (header.toNat - 2))) truncated =
      .ok (.ok (token, rest)) := by
  have hlength := length_framed head token rest
  have hdeclared : declared header.toNat (framed head token rest) = token.length :=
    declared_framed header hhead (by omega)
  unfold declared at hdeclared
  have htoken : ((framed head token rest).take (header.toNat + token.length)).drop header.toNat =
      token := by
    exact take_drop_middle _ (by simp [← hhead]) (by simp [← hhead, Nat.add_assoc])
  have hrest : (framed head token rest).drop (header.toNat + token.length) = rest := by
    apply List.drop_left'
    simp [← hhead, Nat.add_assoc]
  rw [takeToken_fits (by omega) (by omega), hdeclared, htoken, hrest]

theorem overruns_framed (h : token.length < UInt16.size) :
    Overruns header.toNat (framed head token rest) ↔ UInt16.size ≤ header.toNat + token.length := by
  have hlength := length_framed head token rest
  unfold Overruns
  rw [declared_framed header hhead h]
  omega

end

section

variable {token : Bytes} (netID dstPort : UInt16) (rest : Bytes)

theorem broadcastPayload_framed : broadcastPayload netID dstPort token rest =
    framed (putBE 2 netID.toNat ++ putBE 2 dstPort.toNat) token rest := rfl

theorem policyPayload_framed :
    policyPayload netID token rest = framed ([1] ++ putBE 2 netID.toNat) token rest := rfl

theorem length_broadcastPayload (netID dstPort : UInt16) (token rest : Bytes) :
    (broadcastPayload netID dstPort token rest).length = 6 + token.length + rest.length := by
  simp [broadcastPayload_framed, length_framed]

theorem length_policyPayload (netID : UInt16) (token rest : Bytes) :
    (policyPayload netID token rest).length = 5 + token.length + rest.length := by
  simp [policyPayload_framed, length_framed]

theorem broadcast_overruns (h : token.length < UInt16.size) :
    Overruns 6 (broadcastPayload netID dstPort token rest) ↔ UInt16.size ≤ 6 + token.length :=
  overruns_framed 6 (by simp) h

theorem policy_overruns (h : token.length < UInt16.size) :
    Overruns 5 (policyPayload netID token rest) ↔ UInt16.size ≤ 5 + token.length :=
  overruns_framed 5 (by simp) h

theorem parseBroadcast_fits (h : 6 + token.length < UInt16.size) :
    parseBroadcast (broadcastPayload netID dstPort token rest) =
      .ok (.ok ⟨netID, dstPort, token, rest⟩) := by
  have hlen := length_broadcastPayload netID dstPort token rest
  rw [parseBroadcast_eq (by omega), broadcastPayload_framed, framed_head (by simp),
    framed_head (by simp)]
  refine (congrArg _ (takeToken_framed 6 (by simp) h)).trans ?_
  have hport : (putBE 2 netID.toNat ++ putBE 2 dstPort.toNat).take 4 = _ :=
    List.take_of_length_le (by simp)
  simp [Except.map, hport, uint16_toNat]

theorem parsePolicySet_fits (h : 5 + token.length < UInt16.size) :
    parsePolicySet (policyPayload netID token rest) = .ok (.ok (token, rest)) := by
  have hlen := length_policyPayload netID token rest
  rw [parsePolicySet_eq (by omega)]
  exact takeToken_framed 5 (by simp) h

end

/-! ## The handlers -/

theorem handleBroadcast_truncated (hheader : 6 ≤ payload.length)
    (hshort : payload.length < 6 + declared 6 payload) :
    handleBroadcast B payload = .ok (.error "broadcast: truncated token") := by
  unfold handleBroadcast
  rw [parseBroadcast_eq hheader, takeToken_truncated hshort]
  rfl

theorem handleBroadcast_panics_iff :
    handleBroadcast B payload = .error .sliceBounds ↔ Overruns 6 payload := by
  rw [← parseBroadcast_panics_iff]
  unfold handleBroadcast
  rcases parseBroadcast payload with e | msg | r
  · cases e
    exact iff_of_true rfl rfl
  · exact iff_of_false nofun nofun
  · exact iff_of_false nofun nofun

theorem handleManagedPolicy_set (hheader : 3 ≤ rest.length) (haction : rest.headD 0 = 1) :
    handleManagedPolicy B rest = (parsePolicySet rest).map fun r =>
      match r with
      | .error msg => .error msg
      | .ok p => applyPolicy B (uint16 ((rest.take 3).drop 1)) p.1 p.2 := by
  unfold handleManagedPolicy
  rw [if_neg (by omega), haction, slice_ok (by omega) (by omega)]
  rcases parsePolicySet rest with e | msg | p <;> rfl

theorem handleManagedPolicy_truncated (hheader : 5 ≤ rest.length) (haction : rest.headD 0 = 1)
    (hshort : rest.length < 5 + declared 5 rest) :
    handleManagedPolicy B rest = .ok (.error "managed policy set: truncated token") := by
  rw [handleManagedPolicy_set B (by omega) haction, parsePolicySet_eq hheader,
    takeToken_truncated hshort]
  rfl

theorem handleManagedPolicy_panics_iff :
    handleManagedPolicy B rest = .error .sliceBounds ↔ rest.headD 0 = 1 ∧ Overruns 5 rest := by
  by_cases hshort : rest.length < 3
  · unfold handleManagedPolicy Overruns
    rw [if_pos hshort]
    exact iff_of_false nofun (by omega)
  · by_cases haction : rest.headD 0 = 1
    · rw [handleManagedPolicy_set B (Nat.le_of_not_lt hshort) haction, map_error_iff,
        parsePolicySet_panics_iff, and_iff_right haction]
    · refine iff_of_false ?_ fun h => haction h.1
      unfold handleManagedPolicy
      rw [if_neg hshort, slice_ok (by omega) (by omega)]
      simp only [bind, Except.bind, if_neg haction]
      split <;> exact nofun

/-- Of all tokens with a 16-bit length, those whose length and header add up to 16 bits are
the ones that the two payloads decode to, with the data. A payload that is too short for the
length it declares is answered so, whatever that length; and a slice expression goes out of
range exactly for a broadcast, or the setting of a policy, that overruns. -/
theorem tokens_parse_exactly (B : Backend) :
    (∀ netID dstPort token data, token.length < UInt16.size →
      (parseBroadcast (broadcastPayload netID dstPort token data) =
          .ok (.ok ⟨netID, dstPort, token, data⟩) ∧
        handleBroadcast B (broadcastPayload netID dstPort token data) =
          .ok (sendBroadcast B ⟨netID, dstPort, token, data⟩) ↔ 6 + token.length < UInt16.size)) ∧
    (∀ netID token policyJSON, token.length < UInt16.size →
      (parsePolicySet (policyPayload netID token policyJSON) = .ok (.ok (token, policyJSON)) ∧
        handleManagedPolicy B (policyPayload netID token policyJSON) =
          .ok (applyPolicy B netID token policyJSON) ↔ 5 + token.length < UInt16.size)) ∧
    (∀ payload : Bytes, 6 ≤ payload.length → payload.length < 6 + declared 6 payload →
      handleBroadcast B payload = .ok (.error "broadcast: truncated token")) ∧
    (∀ rest : Bytes, 5 ≤ rest.length → rest.headD 0 = 1 → rest.length < 5 + declared 5 rest →
      handleManagedPolicy B rest = .ok (.error "managed policy set: truncated token")) ∧
    (∀ payload, handleBroadcast B payload = .error .sliceBounds ↔ Overruns 6 payload) ∧
    (∀ rest, handleManagedPolicy B rest = .error .sliceBounds ↔
      rest.headD 0 = 1 ∧ Overruns 5 rest) := by
  refine ⟨?_, ?_, fun payload => handleBroadcast_truncated B,
    fun rest => handleManagedPolicy_truncated B, fun payload => handleBroadcast_panics_iff B,
    fun rest => handleManagedPolicy_panics_iff B⟩
  · refine fun netID dstPort token data htoken => ⟨fun hexact => ?_, fun hfits => ?_⟩
    · by_contra hlong
      have hpanics := parseBroadcast_panics_iff.mpr
        ((broadcast_overruns netID dstPort data htoken).mpr (Nat.le_of_not_lt hlong))
      cases hexact.1.symm.trans hpanics
    · have hparsed := parseBroadcast_fits netID dstPort data hfits
      refine ⟨hparsed, ?_⟩
      unfold handleBroadcast
      rw [hparsed]
      rfl
  · refine fun netID token policyJSON htoken => ⟨fun hexact => ?_, fun hfits => ?_⟩
    · by_contra hlong
      have hpanics := parsePolicySet_panics_iff.mpr
        ((policy_overruns netID policyJSON htoken).mpr (Nat.le_of_not_lt hlong))
      cases hexact.1.symm.trans hpanics
    · have hparsed := parsePolicySet_fits netID policyJSON hfits
      have hlen := length_policyPayload netID token policyJSON
      have hnet : uint16 (((policyPayload netID token policyJSON).take 3).drop 1) = netID := by
        rw [policyPayload_framed, framed_head (by simp), List.take_of_length_le (by simp)]
        exact uint16_toNat netID
      refine ⟨hparsed, ?_⟩
      rw [handleManagedPolicy_set B (by omega) rfl, hparsed, hnet]
      rfl

def willing : Backend := ⟨fun _ _ _ _ => none, [], fun _ _ => none, fun _ => none, fun _ => false⟩

theorem short_token_parsed :
    parseBroadcast (broadcastPayload 7 80 [1, 2, 3] [9]) = .ok (.ok ⟨7, 80, [1, 2, 3], [9]⟩) ∧
      handleBroadcast willing [0, 7, 0, 80, 0, 3, 1, 2] =
        .ok (.error "broadcast: truncated token") :=
  ⟨(((tokens_parse_exactly willing).1 7 80 [1, 2, 3] [9] (by decide)).mpr (by decide)).1,
    (tokens_parse_exactly willing).2.2.1 _ (by decide) (by decide)⟩

/-! ## The longest tokens -/

/-- A token of 65530 bytes in a broadcast and one of 65531 bytes with a policy, each in a
payload of 65536 bytes, make a slice expression go out of range. -/
theorem longest_tokens_panic : (broadcastPayload 7 80 (List.replicate 65530 0) []).length = 65536 ∧
      handleBroadcast willing (broadcastPayload 7 80 (List.replicate 65530 0) []) =
        .error .sliceBounds ∧ (policyPayload 7 (List.replicate 65531 0) []).length = 65536 ∧
      handleManagedPolicy willing (policyPayload 7 (List.replicate 65531 0) []) =
        .error .sliceBounds := by
  have hbroadcast := length_broadcastPayload 7 80 (List.replicate 65530 0) []
  have hpolicy := length_policyPayload 7 (List.replicate 65531 0) []
  have hfirst : (List.replicate 65530 (0 : UInt8)).length = 65530 := List.length_replicate
  have hsecond : (List.replicate 65531 (0 : UInt8)).length = 65531 := List.length_replicate
  have hsize : UInt16.size = 65536 := rfl
  rw [hfirst] at hbroadcast
  rw [hsecond] at hpolicy
  refine ⟨hbroadcast, ?_, hpolicy, ?_⟩
  · exact (handleBroadcast_panics_iff willing).mpr
      ((broadcast_overruns 7 80 [] (by omega)).mpr (by omega))
  · exact (handleManagedPolicy_panics_iff willing).mpr
      ⟨rfl, (policy_overruns 7 [] (by omega)).mpr (by omega)⟩

end PilotProtocol.IPC
