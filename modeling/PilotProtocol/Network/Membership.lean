import Mathlib.Data.Rat.Floor
import PilotProtocol.Library.GoMap

/-! # Network membership and the port-policy cache

The daemon caches the list of networks it belongs to and, for each of them, the
list of ports a peer may dial. Both caches are filled from registry calls that
can fail; a snapshot on disk bootstraps the second one. Every registry answer
and clock reading is an argument of the operation that makes the call, and the
calls made are logged with their answers.
-/

namespace PilotProtocol.Network

open Library

abbrev NetworkID := UInt16
abbrev Port := UInt16

/-! ## Registry answers -/

/-- A decoded JSON value, as far as the daemon inspects one. A JSON number is a
finite `float64`, hence a rational. -/
inductive Json
  | num (f : Rat)
  | str (s : String)
  | other
  deriving DecidableEq

/-- `math.Trunc`. -/
def trunc (f : Rat) : Int := if 0 ≤ f then f.floor else f.ceil

/-- The conversion `uint16(f)` on amd64, through a 32-bit integer: truncation, then the low 16
bits. A number that does not fit gives the least integer, whose low bits are 0. -/
def toUint16 (f : Rat) : UInt16 :=
  if -2 ^ 31 ≤ trunc f ∧ trunc f < 2 ^ 31 then UInt16.ofNat (trunc f % 65536).toNat else 0

def networkIDInRange (f : Rat) : Bool := f == (trunc f : Rat) && decide (0 ≤ f) && decide (f ≤ 65535)

def networkIDFromJSON : Json → Option NetworkID
  | .num f => if networkIDInRange f then some (toUint16 f) else none
  | _ => none

/-- The `networks` field of a `Lookup` answer, if it is a list. -/
structure LookupResp where
  networks : Option (List Json)

def LookupResp.nets (resp : LookupResp) : List NetworkID :=
  (resp.networks.getD []).filterMap networkIDFromJSON

/-- The `allowed_ports` field of a `GetNetworkPolicy` answer, if it is a list. -/
structure PolicyResp where
  allowedPorts : Option (List Json)

def PolicyResp.ports (resp : PolicyResp) : List Port :=
  (resp.allowedPorts.getD []).filterMap fun
    | .num f => some (toUint16 f)
    | _ => none

/-- The `tags` field of a `GetMemberTags` answer, if it is a list. -/
structure TagsResp where
  tags : Option (List Json)

def TagsResp.values (resp : TagsResp) : List String :=
  (resp.tags.getD []).filterMap fun
    | .str s => some s
    | _ => none

/-- One object of the `networks` field of a `ListNetworks` answer. -/
structure NetworkInfo where
  id : Json
  rules : Option String
  hasExprPolicy : Bool

/-- The elements of that field; `none` is an element that is not an object. -/
structure ListResp where
  networks : Option (List (Option NetworkInfo))

/-- A registry call and its answer; `none` is an error or a timeout. -/
inductive RegistryCall
  | lookup (answer : Option LookupResp)
  | getNetworkPolicy (netID : NetworkID) (answer : Option PolicyResp)
  | getMemberTags (netID : NetworkID) (answer : Option TagsResp)
  | listNetworks (answer : Option ListResp)

/-! ## State -/

inductive NetworkEvent
  | policyLoadFailed (netID : NetworkID) (hadPrior : Bool)
  | joined (netID : NetworkID) (rules exprPolicy : Option String) (memberTags : List String)
  | left (netID : NetworkID)
  | tagsChanged (netID : NetworkID) (tags : List String)
  deriving DecidableEq

/-- The contents of `networks.json`. -/
structure NetworkSnapshot where
  networks : List NetworkID
  policies : GoMap NetworkID (List Port)
  memberTags : GoMap NetworkID (List String)

/-- The part of the daemon that membership and port policies read and write. -/
structure Daemon where
  /-- `reg()` is non-nil. -/
  hasReg : Bool
  /-- `config.IdentityPath` is set, so a snapshot file has a place. -/
  hasIdentityPath : Bool
  nodeNetworksCache : List NetworkID
  /-- `none` is the zero time. -/
  nodeNetworksCacheAt : Option Nat
  netPolicies : GoMap NetworkID (List Port)
  memberTags : GoMap NetworkID (List String)
  /-- Networks with a policy runner, and with a managed engine. -/
  policyRunners : List NetworkID
  managed : List NetworkID
  snapshotFile : Option NetworkSnapshot
  calls : List RegistryCall
  events : List NetworkEvent

namespace Daemon

variable (d : Daemon) (netID : NetworkID)

def logCall (call : RegistryCall) : Daemon := { d with calls := d.calls ++ [call] }

/-! ## The membership list -/

def nodeNetworksTTL : Nat := 1000000000

def cacheFresh (now : Nat) : Bool :=
  match d.nodeNetworksCacheAt with
  | none => false
  | some cachedAt => now - cachedAt < nodeNetworksTTL

/-- A nil result, which only a failed lookup gives, is `none`. -/
def nodeNetworksFresh (answer : Option LookupResp) (answeredAt : Nat) :
    Option (List NetworkID) × Daemon :=
  let d := d.logCall (.lookup answer)
  match answer with
  | none => (none, d)
  | some resp =>
    (some resp.nets,
      { d with nodeNetworksCache := resp.nets, nodeNetworksCacheAt := some answeredAt })

def nodeNetworks (now : Nat) (answer : Option LookupResp) (answeredAt : Nat) :
    Option (List NetworkID) × Daemon :=
  if d.cacheFresh now then (some d.nodeNetworksCache, d)
  else d.nodeNetworksFresh answer answeredAt

def invalidateNodeNetworksCache : Daemon :=
  { d with nodeNetworksCache := [], nodeNetworksCacheAt := none }

/-! ## Port policies -/

/-- One network's fetch outcome; `ports = none` is a fetch error. -/
structure NetPolicyResult where
  netID : NetworkID
  ports : Option (List Port)

/-- The bounded retry around `GetNetworkPolicy`: the calls made and the outcome. -/
def fetchNetworkPolicy (netID : NetworkID) (answer : Nat → Option PolicyResp) (attempt : Nat) :
    Nat → List RegistryCall × Option PolicyResp
  | 0 => ([], none)
  | left + 1 =>
    match answer attempt with
    | some resp => ([.getNetworkPolicy netID (some resp)], some resp)
    | none =>
      let (calls, resp) := fetchNetworkPolicy netID answer (attempt + 1) left
      (.getNetworkPolicy netID none :: calls, resp)

/-- One turn of the loop of `mergeNetworkPolicies`. -/
def mergeNetworkPolicy (prior policies : GoMap NetworkID (List Port)) (r : NetPolicyResult) :
    GoMap NetworkID (List Port) :=
  match r.ports with
  | none =>
    match prior.lookup r.netID with
    | some p => policies.insert r.netID p
    | none => policies
  | some ports => policies.insert r.netID ports

def mergeNetworkPolicies (prior : GoMap NetworkID (List Port)) (results : List NetPolicyResult) :
    GoMap NetworkID (List Port) :=
  results.foldl (mergeNetworkPolicy prior) ∅

/-- The clock readings and registry answers of one policy refresh. `policy i k` is
the answer to the attempt `k` for the network at position `i` of the list. -/
structure PolicyAnswers where
  now : Nat
  lookup : Option LookupResp
  answeredAt : Nat
  policy : Nat → Nat → Option PolicyResp

/-- The loop of `loadNetworkPolicies` over the networks from position `i` on. -/
def fetchNetworkPolicies (policy : Nat → Nat → Option PolicyResp) (i : Nat) :
    List NetworkID → List RegistryCall × List NetPolicyResult
  | [] => ([], [])
  | netID :: rest =>
    let (calls, resp) := fetchNetworkPolicy netID (policy i) 0 3
    let (restCalls, results) := fetchNetworkPolicies policy (i + 1) rest
    (calls ++ restCalls, ⟨netID, resp.map PolicyResp.ports⟩ :: results)

def loadNetworkPolicies (a : PolicyAnswers) : Daemon :=
  let (nets, d) := d.nodeNetworks a.now a.lookup a.answeredAt
  let prior := d.netPolicies
  let (calls, results) := fetchNetworkPolicies a.policy 0 (nets.getD [])
  { d with
    netPolicies := mergeNetworkPolicies prior results
    calls := d.calls ++ calls
    events := d.events ++ results.filterMap fun r =>
      match r.ports with
      | none => some (.policyLoadFailed r.netID (prior.lookup r.netID).isSome)
      | some _ => none }

def isPortAllowed (port : Port) : Bool :=
  let ports := (d.netPolicies.lookup netID).getD []
  if ports.length = 0 then true else ports.any (· == port)

/-! ## The snapshot file -/

def fillGaps {V : Type} (live : GoMap NetworkID V) (saved : GoMap NetworkID V) :
    GoMap NetworkID V :=
  saved.entries.foldl
    (fun m e => match m.lookup e.1 with
      | some _ => m
      | none => m.insert e.1 e.2)
    live

/-- `readable` is whether reading and decoding the file succeeded. -/
def loadNetworkSnapshot (readable : Bool) : Daemon :=
  match d.hasIdentityPath && readable, d.snapshotFile with
  | true, some snap =>
    { d with
      netPolicies := fillGaps d.netPolicies snap.policies
      memberTags := fillGaps d.memberTags snap.memberTags }
  | _, _ => d

/-- `written` is whether the atomic write succeeded. -/
def saveNetworkSnapshot (nets : List NetworkID) (written : Bool) : Daemon :=
  if d.hasIdentityPath && written then
    { d with snapshotFile := some ⟨nets, d.netPolicies, d.memberTags⟩ }
  else d

/-! ## Reconciliation with the registry -/

def clearNetworkState : Daemon :=
  { d with netPolicies := d.netPolicies.erase netID, memberTags := d.memberTags.erase netID }

def knownNetworkSet : List NetworkID :=
  (d.netPolicies.keys.filter (· != 0) ++ d.policyRunners ++ d.managed ++ d.memberTags.keys).dedup

/-- The networks whose tags changed, and the state with the refreshed tags.
`answer i` is the answer for the network at position `i` of the list. -/
def refreshMemberTagsAndDiff (d : Daemon) (answer : Nat → Option TagsResp) (i : Nat) :
    List NetworkID → GoMap NetworkID (List String) × Daemon
  | [] => (∅, d)
  | netID :: rest =>
    if netID = 0 then d.refreshMemberTagsAndDiff answer (i + 1) rest
    else
      let called := d.logCall (.getMemberTags netID (answer i))
      match answer i with
      | none => called.refreshMemberTagsAndDiff answer (i + 1) rest
      | some resp =>
        let (changes, d') :=
          refreshMemberTagsAndDiff
            { called with memberTags := d.memberTags.insert netID resp.values }
            answer (i + 1) rest
        if (d.memberTags.lookup netID).getD [] = resp.values ∨ netID ∈ changes then
          (changes, d')
        else (changes.insert netID resp.values, d')

/-- The network list by id; a later entry for the same id wins. -/
def listByID (answer : Option ListResp) : GoMap NetworkID NetworkInfo :=
  (answer.elim [] fun resp => resp.networks.getD []).foldl
    (fun m raw => match raw with
      | none => m
      | some n =>
        match networkIDFromJSON n.id with
        | none => m
        | some id => m.insert id n)
    ∅

def buildJoinPayload (n : Option NetworkInfo)
    (exprPolicy : NetworkID → Option String) : NetworkEvent :=
  .joined netID (n.bind (·.rules))
    (n.bind fun info => if info.hasExprPolicy then exprPolicy netID else none)
    ((d.memberTags.lookup netID).getD [])

/-- The clock readings and registry answers of one reconciliation, and whether the
snapshot could be written. -/
structure ReconcileAnswers where
  lookup : Option LookupResp
  answeredAt : Nat
  load : PolicyAnswers
  listNetworks : Option ListResp
  memberTags : Nat → Option TagsResp
  exprPolicy : NetworkID → Option String
  written : Bool

/-- Steps 4 to 9 of the reconciliation, after the policy refresh. -/
def publishDeltas (newNets oldSet : List NetworkID) (a : ReconcileAnswers) : Daemon :=
  let d := d.logCall (.listNetworks a.listNetworks)
  let (tagChanges, d) := d.refreshMemberTagsAndDiff a.memberTags 0 newNets
  let joins := (newNets.dedup.filter fun netID => netID != 0 && !oldSet.contains netID).map
    fun netID => d.buildJoinPayload netID ((listByID a.listNetworks).lookup netID) a.exprPolicy
  let gone := oldSet.filter fun netID => !newNets.contains netID
  let d := gone.foldl clearNetworkState d
  let tagEvents := tagChanges.entries.map fun e => NetworkEvent.tagsChanged e.1 e.2
  let d := { d with events := d.events ++ joins ++ gone.map NetworkEvent.left ++ tagEvents }
  d.saveNetworkSnapshot newNets a.written

def reconcileMembership (a : ReconcileAnswers) : Daemon :=
  if d.hasReg then
    match d.nodeNetworksFresh a.lookup a.answeredAt with
    | (none, d) => d
    | (some newNets, d) =>
      (d.loadNetworkPolicies a.load).publishDeltas newNets d.knownNetworkSet a
  else d

/-- `StopPolicyRunner` and `StopManagedEngine`. -/
def stopEngines : Daemon :=
  { d with
    policyRunners := d.policyRunners.filter (· != netID)
    managed := d.managed.filter (· != netID) }

def leaveNetwork (a : PolicyAnswers) : Daemon :=
  ((d.stopEngines netID).clearNetworkState netID).loadNetworkPolicies a

/-! ## Runs -/

/-- The operations that touch the membership list or the port policies. Joining and
leaving invalidate the cached list at once and refresh the policies later, so the
two halves are separate inputs. -/
inductive Input
  | loadNetworkSnapshot (readable : Bool)
  | loadNetworkPolicies (a : PolicyAnswers)
  | reconcileMembership (a : ReconcileAnswers)
  | leaveNetwork (netID : NetworkID) (a : PolicyAnswers)
  | invalidateNodeNetworksCache
  | nodeNetworks (now : Nat) (answer : Option LookupResp) (answeredAt : Nat)

def step : Input → Daemon
  | .loadNetworkSnapshot readable => d.loadNetworkSnapshot readable
  | .loadNetworkPolicies a => d.loadNetworkPolicies a
  | .reconcileMembership a => d.reconcileMembership a
  | .leaveNetwork netID a => d.leaveNetwork netID a
  | .invalidateNodeNetworksCache => d.invalidateNodeNetworksCache
  | .nodeNetworks now answer answeredAt => (d.nodeNetworks now answer answeredAt).2

end Daemon

end PilotProtocol.Network
