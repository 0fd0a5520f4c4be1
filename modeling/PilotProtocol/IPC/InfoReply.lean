import PilotProtocol.KeyExchange.Crypto

/-! # The info reply

A reply that one IPC message does not take is cut: the peer rows, those in use first, and if
the connections alone are too many, the connection rows. A list keeps the rows that fit at
the moment it is cut; peer rows dropped beside the whole connection list do not come back
when that is cut too.
-/

namespace PilotProtocol.IPC.InfoReply

open Library
open KeyExchange (NodeID)

def maxMessageSize : Nat := 2 ^ 20

def ipcReplyBudget : Nat := maxMessageSize - 64

def joinComma : List Bytes → Bytes
  | [] => []
  | [piece] => piece
  | piece :: rest => piece ++ 44 :: joinComma rest

def ascii (s : String) : Bytes := s.toList.map fun c => c.toNat.toUInt8

def entry (key : String) (value : Bytes) : Bytes := 34 :: ascii key ++ 34 :: 58 :: value

def marshalList {T : Type} (row : T → Bytes) (rows : List T) : Bytes :=
  91 :: joinComma (rows.map row) ++ [93]

/-- The rows of the two lists, as `json.Marshal` writes them. -/
structure Rows (P C : Type) where
  nodeID : P → NodeID
  peer : P → Bytes
  conn : C → Bytes

/-- The map that is marshalled; `fields` are the keys other than those of the lists. -/
structure Body (P C : Type) where
  fields : List (String × Bytes)
  peerList : List P
  connList : List C
  peerListTruncated : Bool
  connListTruncated : Bool
  deriving DecidableEq

variable {T P C : Type} (J : Rows P C)

def Body.entries (b : Body P C) : List Bytes :=
  b.fields.map (fun f => entry f.1 f.2) ++
    [entry "peer_list" (marshalList J.peer b.peerList),
     entry "conn_list" (marshalList J.conn b.connList)] ++
    (if b.peerListTruncated then [entry "peer_list_truncated" (ascii "true")] else []) ++
    (if b.connListTruncated then [entry "conn_list_truncated" (ascii "true")] else [])

def marshal (b : Body P C) : Bytes := 123 :: joinComma (b.entries J) ++ [125]

/-- The loop of `marshalRowsWithinBudget`: `size` is what is there already, `kept` whether a
row has been kept. -/
def rowsWithinBudget (row : T → Bytes) : Nat → Bool → List T → List T
  | _, _, [] => []
  | size, kept, r :: rest =>
    let add := (row r).length + kept.toNat
    if ipcReplyBudget < size + add then [] else r :: rowsWithinBudget row (size + add) true rest

/-- `put` sets the list under the key, and the mark that it was cut. -/
def marshalRowsWithinBudget (put : List T → Body P C) (row : T → Bytes) (rows : List T) : Body P C :=
  put (rowsWithinBudget row (marshal J (put [])).length false rows)

def cutPeers (b : Body P C) : List P → Body P C :=
  marshalRowsWithinBudget J (fun rows => { b with peerList := rows, peerListTruncated := true }) J.peer

def cutConns (b : Body P C) : List C → Body P C :=
  marshalRowsWithinBudget J (fun rows => { b with connList := rows, connListTruncated := true }) J.conn

/-- Peers with an open connection first, then by node. -/
def sortPeers (isOpen : NodeID → Bool) (peers : List P) : List P :=
  let less (p q : P) : Bool :=
    if isOpen (J.nodeID p) ≠ isOpen (J.nodeID q) then isOpen (J.nodeID p)
    else decide (J.nodeID p < J.nodeID q)
  peers.mergeSort fun p q => !less q p

def replyBody (isOpen : NodeID → Bool) (b : Body P C) : Body P C :=
  if (marshal J b).length ≤ ipcReplyBudget then b
  else
    let cut := cutPeers J b (sortPeers J isOpen b.peerList)
    if (marshal J cut).length ≤ ipcReplyBudget then cut else cutConns J cut cut.connList

def buildInfoReply (isOpen : NodeID → Bool) (b : Body P C) : Bytes := marshal J (replyBody J isOpen b)

/-! ## Sizes -/

def weight (pieces : List Bytes) : Nat := (pieces.map fun piece => piece.length + 1).sum

theorem length_joinComma {pieces : List Bytes} (h : pieces ≠ []) :
    (joinComma pieces).length + 1 = weight pieces := by
  induction pieces with
  | nil => exact absurd rfl h
  | cons piece rest ih =>
    cases rest with
    | nil => simp [joinComma, weight]
    | cons next rest =>
      have hrest := ih (List.cons_ne_nil _ _)
      simp only [joinComma, weight, List.length_append, List.length_cons, List.map_cons,
        List.sum_cons] at hrest ⊢
      omega

def added (row : T → Bytes) : Bool → List T → Nat
  | _, [] => 0
  | kept, r :: rest => (row r).length + kept.toNat + added row true rest

theorem added_true (row : T → Bytes) (rows : List T) :
    added row true rows = weight (rows.map row) := by
  induction rows with
  | nil => rfl
  | cons r rest ih => simp [added, weight, ih]

theorem length_marshalList (row : T → Bytes) (rows : List T) :
    (marshalList row rows).length = added row false rows + 2 := by
  cases rows with
  | nil => rfl
  | cons r rest =>
    have hjoin : (joinComma ((r :: rest).map row)).length + 1 = weight ((r :: rest).map row) :=
      length_joinComma (by simp)
    have hadded : added row false (r :: rest) + 1 = weight ((r :: rest).map row) := by
      simp [added, added_true, weight]
      omega
    simp only [marshalList, List.length_cons, List.length_append, List.length_nil]
    omega

theorem length_marshal_eq (b : Body P C) : (marshal J b).length = weight (b.entries J) + 1 := by
  have hjoin : (joinComma (b.entries J)).length + 1 = weight (b.entries J) :=
    length_joinComma (by simp [Body.entries])
  simp only [marshal, List.length_cons, List.length_append, List.length_nil]
  omega

theorem length_marshal (b : Body P C) :
    (marshal J b).length = (marshal J { b with peerList := [], connList := [] }).length +
      added J.peer false b.peerList + added J.conn false b.connList := by
  simp only [length_marshal_eq, Body.entries, weight, entry, List.map_append, List.sum_append,
    List.map_cons, List.sum_cons, List.length_cons, List.length_append, length_marshalList, added]
  omega

theorem length_marshal_unflagged (b : Body P C) :
    (marshal J { b with connListTruncated := false }).length ≤ (marshal J b).length := by
  simp only [length_marshal_eq, Body.entries, weight, List.map_append, List.sum_append]
  simp

theorem rowsWithinBudget_spec (row : T → Bytes) (size : Nat) (kept : Bool) (rows : List T) :
    ∃ n, rowsWithinBudget row size kept rows = rows.take n ∧
      (size ≤ ipcReplyBudget → size + added row kept (rows.take n) ≤ ipcReplyBudget) ∧
      (ipcReplyBudget < size → n = 0) ∧
      (n < rows.length → ipcReplyBudget < size + added row kept (rows.take (n + 1))) := by
  induction rows generalizing size kept with
  | nil => exact ⟨0, rfl, fun h => h, fun _ => rfl, fun h => absurd h (Nat.lt_irrefl _)⟩
  | cons r rest ih =>
    unfold rowsWithinBudget
    dsimp only
    split
    next hover => exact ⟨0, rfl, fun h => h, fun _ => rfl, fun _ => by simpa [added] using hover⟩
    next hfits =>
      obtain ⟨n, hrows, hle, -, hnext⟩ := ih (size + ((row r).length + kept.toNat)) true
      refine ⟨n + 1, by rw [hrows, List.take_succ_cons], fun _ => ?_, fun _ => by omega, fun hn => ?_⟩
      · simp only [List.take_succ_cons, added]
        omega
      · have hrest := hnext (Nat.lt_of_succ_lt_succ hn)
        simp only [List.take_succ_cons, added] at hrest ⊢
        omega

/-! ## The reply -/

theorem marshalRowsWithinBudget_spec {put : List T → Body P C} {row : T → Bytes}
    (hput : ∀ rows, (marshal J (put rows)).length = (marshal J (put [])).length + added row false rows)
    (rows : List T) : ∃ n, marshalRowsWithinBudget J put row rows = put (rows.take n) ∧
      ((marshal J (put [])).length ≤ ipcReplyBudget →
        (marshal J (put (rows.take n))).length ≤ ipcReplyBudget) ∧
      (ipcReplyBudget < (marshal J (put (rows.take n))).length → n = 0) ∧
      (n < rows.length → ipcReplyBudget < (marshal J (put (rows.take (n + 1)))).length) := by
  obtain ⟨n, hrows, hle, hzero, hnext⟩ :=
    rowsWithinBudget_spec row (marshal J (put [])).length false rows
  refine ⟨n, congrArg put hrows, ?_, ?_, ?_⟩
  · rwa [hput (rows.take n)]
  · rw [hput (rows.take n)]
    intro hover
    by_contra hne
    omega
  · rwa [hput (rows.take (n + 1))]

theorem length_marshal_peers (b : Body P C) (rows : List P) :
    (marshal J { b with peerList := rows, peerListTruncated := true }).length =
      (marshal J { b with peerList := [], peerListTruncated := true }).length +
        added J.peer false rows := by
  rw [length_marshal, length_marshal J { b with peerList := [], peerListTruncated := true }]
  simp only [added]
  omega

theorem length_marshal_conns (b : Body P C) (rows : List C) :
    (marshal J { b with connList := rows, connListTruncated := true }).length =
      (marshal J { b with connList := [], connListTruncated := true }).length +
        added J.conn false rows := by
  rw [length_marshal, length_marshal J { b with connList := [], connListTruncated := true }]
  simp only [added]
  omega

/-- A reply that fits is sent as it is. One that does not is within the budget after the cut:
the peer rows are a beginning of the sorted ones; connections are cut only if they do not fit
without any peer row; and one more row of the list that was cut last does not fit. -/
theorem info_reply_cut (isOpen : NodeID → Bool) (fields : List (String × Bytes)) (peers : List P)
    (conns : List C) (hfit : (marshal J ⟨fields, [], [], true, true⟩).length ≤ ipcReplyBudget) :
    let body : Body P C := ⟨fields, peers, conns, false, false⟩
    let reply := replyBody J isOpen body
    (buildInfoReply J isOpen body).length ≤ ipcReplyBudget ∧
    ((marshal J body).length ≤ ipcReplyBudget → reply = body) ∧
    (ipcReplyBudget < (marshal J body).length → ∃ n m,
      reply = ⟨fields, (sortPeers J isOpen peers).take n, conns.take m, true, reply.connListTruncated⟩ ∧
      (reply.connListTruncated = false → m = conns.length ∧
        (n < peers.length → ipcReplyBudget < (marshal J
          ⟨fields, (sortPeers J isOpen peers).take (n + 1), conns, true, false⟩).length)) ∧
      (reply.connListTruncated = true → n = 0 ∧ m < conns.length ∧
        ipcReplyBudget < (marshal J ⟨fields, [], conns, true, false⟩).length ∧
        ipcReplyBudget < (marshal J ⟨fields, [], conns.take (m + 1), true, true⟩).length)) := by
  intro body reply
  have hsorted : (sortPeers J isOpen peers).length = peers.length := List.length_mergeSort _
  by_cases hsmall : (marshal J body).length ≤ ipcReplyBudget
  · have hreply : reply = body := if_pos hsmall
    refine ⟨?_, fun _ => hreply, fun hbig => absurd hsmall (Nat.not_le_of_lt hbig)⟩
    show (marshal J reply).length ≤ ipcReplyBudget
    rwa [hreply]
  obtain ⟨n, hcut, -, hnone, hnext⟩ := marshalRowsWithinBudget_spec J
    (length_marshal_peers J body) (sortPeers J isOpen peers)
  by_cases hpeers : (marshal J (cutPeers J body (sortPeers J isOpen peers))).length ≤ ipcReplyBudget
  · have hreply : reply = ⟨fields, (sortPeers J isOpen peers).take n, conns, true, false⟩ :=
      ((if_neg hsmall).trans (if_pos hpeers)).trans hcut
    refine ⟨?_, fun h => absurd h hsmall, fun _ => ⟨n, conns.length, ?_, fun _ => ⟨rfl, ?_⟩, ?_⟩⟩
    · show (marshal J reply).length ≤ ipcReplyBudget
      rwa [hreply, ← hcut]
    · rw [hreply, List.take_length]
    · rwa [← hsorted]
    · rw [hreply]
      exact nofun
  · have hover := Nat.lt_of_not_le hpeers
    rw [show cutPeers J body _ = _ from hcut] at hover
    obtain rfl : n = 0 := hnone hover
    obtain ⟨m, hconns, hle, -, hmore⟩ := marshalRowsWithinBudget_spec J
      (length_marshal_conns J ⟨fields, [], conns, true, false⟩) conns
    have hreply : reply = ⟨fields, [], conns.take m, true, true⟩ := by
      refine ((if_neg hsmall).trans (if_neg hpeers)).trans ?_
      rwa [show cutPeers J body (sortPeers J isOpen body.peerList) = _ from hcut]
    refine ⟨?_, fun h => absurd h hsmall, fun _ => ⟨0, m, ?_, ?_, fun _ => ⟨rfl, ?_⟩⟩⟩
    · show (marshal J reply).length ≤ ipcReplyBudget
      rw [hreply]
      exact hle hfit
    · rw [hreply]
      rfl
    · rw [hreply]
      exact nofun
    · -- all the connections with the second mark would be longer than without it
      have hm : m < conns.length := by
        by_contra hall
        have hwhole := hle hfit
        rw [List.take_of_length_le (Nat.le_of_not_lt hall)] at hwhole
        have hmark := length_marshal_unflagged J ⟨fields, [], conns, true, true⟩
        exact Nat.not_lt_of_le (hmark.trans hwhole) hover
      exact ⟨hm, hover, hmore hm⟩

def smallRows : Rows NodeID Unit := ⟨id, fun _ => [0], fun _ => List.replicate ipcReplyBudget 0⟩

theorem long_of_conn (J : Rows NodeID Unit) (hlong : (J.conn ()).length = ipcReplyBudget)
    (peers : List NodeID) (cut : Bool) :
    ipcReplyBudget < (marshal J ⟨[], peers, [()], cut, false⟩).length := by
  have hbase : 0 < (marshal J ⟨[], [], [], cut, false⟩).length := by simp [marshal]
  rw [length_marshal]
  simp only [added, hlong]
  omega

/-- A reply that fits, and one whose connection row alone does not. -/
theorem small_reply_unchanged :
    replyBody smallRows (fun _ => false) ⟨[], [2, 1], [], false, false⟩ =
      ⟨[], [2, 1], [], false, false⟩ ∧
    replyBody smallRows (fun _ => false) ⟨[], [2, 1], [()], false, false⟩ =
      ⟨[], [], [], true, true⟩ := by
  have hlong := long_of_conn smallRows List.length_replicate
  obtain ⟨hle, -, hcut⟩ :=
    info_reply_cut smallRows (fun _ => false) [] [2, 1] [()] (by decide +kernel)
  refine ⟨(info_reply_cut smallRows (fun _ => false) [] [2, 1] [] (by decide +kernel)).2.1
    (by decide +kernel), ?_⟩
  obtain ⟨n, m, hreply, hkept, hdropped⟩ := hcut (hlong _ _)
  cases hmark : (replyBody smallRows (fun _ => false)
    ⟨[], [2, 1], [()], false, false⟩).connListTruncated with
  | false =>
    -- with the connection row the reply would be over the budget
    obtain ⟨rfl, -⟩ := hkept hmark
    rw [hmark] at hreply
    unfold buildInfoReply at hle
    rw [hreply] at hle
    exact absurd hle (Nat.not_le_of_lt (hlong _ _))
  | true =>
    obtain ⟨rfl, hm, -⟩ := hdropped hmark
    obtain rfl : m = 0 := Nat.lt_one_iff.mp hm
    rwa [hmark] at hreply

theorem replyBody_of_long_conn (J : Rows NodeID Unit) (hlong : (J.conn ()).length = ipcReplyBudget) :
    replyBody J (fun _ => false) ⟨[], [1], [()], false, false⟩ = ⟨[], [], [], true, true⟩ := by
  have hbig := long_of_conn J hlong
  have hpeers : cutPeers J ⟨[], [1], [()], false, false⟩ [1] = ⟨[], [], [()], true, false⟩ := by
    obtain ⟨n, hcut, -, hnone, -⟩ := marshalRowsWithinBudget_spec J
      (length_marshal_peers J ⟨[], [1], [()], false, false⟩) [1]
    obtain rfl := hnone (hbig _ _)
    exact hcut
  have hsort : sortPeers J (fun _ => false) [1] = [1] := List.mergeSort_singleton 1
  unfold replyBody
  rw [if_neg (Nat.not_le_of_lt (hbig _ _)), hsort, hpeers, if_neg (Nat.not_le_of_lt (hbig _ _))]
  unfold cutConns marshalRowsWithinBudget rowsWithinBudget
  rw [if_pos]
  simp only [hlong, marshal, List.length_append, List.length_cons]
  omega

/-- With one connection row that does not fit, the peer row is dropped beside it and would
have fitted in the reply that is sent. -/
theorem dropped_peer_would_fit :
    replyBody smallRows (fun _ => false) ⟨[], [1], [()], false, false⟩ = ⟨[], [], [], true, true⟩ ∧
    (marshal smallRows ⟨[], [1], [], true, true⟩).length ≤ ipcReplyBudget :=
  ⟨replyBody_of_long_conn smallRows List.length_replicate, by decide +kernel⟩

end PilotProtocol.IPC.InfoReply
