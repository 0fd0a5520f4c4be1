import Mathlib.Data.List.TakeWhile
import Mathlib.Logic.Equiv.Nat
import PilotProtocol.Library.BigEndian
import PilotProtocol.Library.MacChain
import PilotProtocol.Library.Run

/-! # The spend log and its anchor

`pilotctl` reads the wallet's spend log under the key that the wallet chains it
with, and remembers in a file beside it how far the chain had got. JSON, base64 and
HMAC-SHA256 are parameters; the scanner, the checks and their order are the source's.
-/

namespace PilotProtocol.AppStore

open Library

structure CapStateJSONNoHMAC (Time : Type) where
  at_ : Time
  asset : String
  amount : UInt64
  deriving DecidableEq

structure CapStateJSON (Time : Type) extends CapStateJSONNoHMAC Time where
  /-- Empty when the line has none. -/
  hmac : String

structure CapStateRecord (Time : Type) extends CapStateJSONNoHMAC Time where
  hmacOK : Bool
  /-- Empty when the record is not authenticated. -/
  chain : Bytes
  deriving DecidableEq

structure CapStateAnchor where
  version : Int
  count : Int
  tail : String
  mac : String
  deriving DecidableEq

/-- The codecs and the keyed hash that the source takes from its libraries. -/
structure Codec (Time : Type) where
  unmarshal : Bytes → Option (CapStateJSON Time)
  marshal : CapStateJSONNoHMAC Time → Bytes
  unmarshalAnchor : Bytes → Option CapStateAnchor
  marshalAnchor : CapStateAnchor → Bytes
  /-- Standard base64. -/
  encode : Bytes → String
  decode : String → Bytes
  hmacSHA256 : (key message : Bytes) → Bytes

inductive FileRead
  | missing
  | failed
  | content (bytes : Bytes)
  deriving DecidableEq

inductive CapStateErr
  | io
  | malformed (line : Nat)
  | hmacMismatch (line : Nat)
  | tooLong
  | mixed
  | anchorMalformed
  | anchorVersion (version : Int)
  | anchorMAC
  | nonePresent (anchored : Int)
  | noAnchor
  | entriesRemoved (present : Nat) (anchored : Int)
  | rewritten (record : Int)
  deriving DecidableEq

/-! ## The log -/

/-- The buffer limit of the scanner: a line must be shorter. -/
def maxLine : Nat := 1024 * 1024

def splitLines : (line : Bytes) → Bytes → List Bytes
  | line, [] => if line.isEmpty then [] else [line]
  | line, b :: rest => if b = 10 then line :: splitLines [] rest else splitLines (line ++ [b]) rest

def dropCR (line : Bytes) : Bytes := if line.getLast? = some 13 then line.dropLast else line

variable {Time : Type}

structure Scan (Time : Type) where
  out : List (CapStateRecord Time)
  prevHMAC : Bytes
  sawHMAC : Bool
  sawPlain : Bool

def scanLine (C : Codec Time) (hmacKey : Option Bytes) (lineNo : Nat) (s : Scan Time) (raw : Bytes) :
    Except CapStateErr (Scan Time) :=
  if raw.isEmpty then .ok s
  else
    match C.unmarshal raw with
    | none => .error (.malformed lineNo)
    | some line =>
      if line.hmac = "" then
        .ok { s with
          out := s.out ++ [⟨line.toCapStateJSONNoHMAC, true, []⟩]
          sawPlain := true }
      else
        match hmacKey with
        | none =>
          .ok { s with
            out := s.out ++ [⟨line.toCapStateJSONNoHMAC, false, []⟩]
            sawHMAC := true }
        | some key =>
          let expected := C.encode
            (C.hmacSHA256 key (C.marshal line.toCapStateJSONNoHMAC ++ s.prevHMAC))
          if line.hmac = expected then
            let chain := C.decode line.hmac
            .ok { s with
              out := s.out ++ [⟨line.toCapStateJSONNoHMAC, true, chain⟩]
              prevHMAC := chain
              sawHMAC := true }
          else .error (.hmacMismatch lineNo)

def scanLines (C : Codec Time) (hmacKey : Option Bytes) :
    (lineNo : Nat) → Scan Time → List Bytes → Except CapStateErr (Scan Time)
  | _, s, [] => .ok s
  | lineNo, s, raw :: rest =>
    if maxLine ≤ raw.length then .error .tooLong
    else
      match scanLine C hmacKey lineNo s (dropCR raw) with
      | .error e => .error e
      | .ok s' => scanLines C hmacKey (lineNo + 1) s' rest

def loadCapStateRecords (C : Codec Time) (hmacKey : Option Bytes) :
    FileRead → Except CapStateErr (List (CapStateRecord Time))
  | .missing => .ok []
  | .failed => .error .io
  | .content bytes =>
    match scanLines C hmacKey 1 ⟨[], [], false, false⟩ (splitLines [] bytes) with
    | .error e => .error e
    | .ok s =>
      if hmacKey.isSome && s.sawHMAC && s.sawPlain then .error .mixed else .ok s.out

/-! ## The anchor -/

def capStateAnchorMAC (C : Codec Time) (key : Bytes) (version count : Int) (tail : String) : String :=
  C.encode (C.hmacSHA256 key ("pilot-cap-state-anchor-v1|" ++ toString version ++ "|" ++
    toString count ++ "|" ++ tail).toUTF8.toList)

def loadCapStateAnchor (C : Codec Time) (key : Bytes) :
    FileRead → Except CapStateErr (Option CapStateAnchor)
  | .missing => .ok none
  | .failed => .error .io
  | .content raw =>
    match C.unmarshalAnchor raw with
    | none => .error .anchorMalformed
    | some a =>
      if a.version ≠ 1 then .error (.anchorVersion a.version)
      else if capStateAnchorMAC C key a.version a.count a.tail ≠ a.mac then .error .anchorMAC
      else .ok (some a)

/-- What a write that succeeds leaves in the anchor file. -/
def writeCapStateAnchor (C : Codec Time) (key : Bytes) (count : Int) (tail : String) : FileRead :=
  .content (C.marshalAnchor ⟨1, count, tail, capStateAnchorMAC C key 1 count tail⟩ ++ [10])

def authenticatedPrefix (records : List (CapStateRecord Time)) : List (CapStateRecord Time) :=
  records.takeWhile fun r => !r.chain.isEmpty

def chainTail (C : Codec Time) (records : List (CapStateRecord Time)) : String :=
  (records.getLast?.map fun r => C.encode r.chain).getD ""

/-- What is returned for records read with the key, and the anchor file afterwards;
`writes` says whether an anchor write succeeds, which a read does not report. -/
def checkAnchor (C : Codec Time) (key : Bytes) (strict writes : Bool)
    (records : List (CapStateRecord Time)) (anchorFile : FileRead) :
    Except CapStateErr (List (CapStateRecord Time)) × FileRead :=
  let authed := authenticatedPrefix records
  let advanced := if writes then writeCapStateAnchor C key authed.length (chainTail C authed)
    else anchorFile
  match loadCapStateAnchor C key anchorFile with
  | .error e => (.error e, anchorFile)
  | .ok none =>
    if authed.isEmpty then (.ok records, anchorFile)
    else if strict then (.error .noAnchor, anchorFile)
    else (.ok records, advanced)
  | .ok (some anchor) =>
    if authed.isEmpty then
      if 0 < anchor.count then (.error (.nonePresent anchor.count), anchorFile)
      else (.ok records, anchorFile)
    else if (authed.length : Int) < anchor.count then
      (.error (.entriesRemoved authed.length anchor.count), anchorFile)
    else if 0 < anchor.count ∧
        (records[(anchor.count - 1).toNat]?.map fun r => C.encode r.chain) ≠ some anchor.tail then
      (.error (.rewritten anchor.count), anchorFile)
    else (.ok records, if anchor.count < authed.length then advanced else anchorFile)

def loadCapStateRecordsAnchored (C : Codec Time) (hmacKey : Option Bytes) (strict writes : Bool)
    (log anchorFile : FileRead) : Except CapStateErr (List (CapStateRecord Time)) × FileRead :=
  match loadCapStateRecords C hmacKey log with
  | .error e => (.error e, anchorFile)
  | .ok records =>
    match hmacKey with
    | none => (.ok records, anchorFile)
    | some key => checkAnchor C key strict writes records anchorFile

/-! ## Chains -/

/-- What the proofs take from the libraries: tags tell messages apart and are never
empty, a marshalled record ends where it ends, and what is written is read back. -/
structure Codec.Faithful (C : Codec Time) (key : Bytes) : Prop where
  hmac_injective : ∀ m m', C.hmacSHA256 key m = C.hmacSHA256 key m' → m = m'
  hmac_nonempty : ∀ m, C.hmacSHA256 key m ≠ []
  marshal_append : ∀ a b x y, C.marshal a ++ x = C.marshal b ++ y → a = b ∧ x = y
  decode_encode : ∀ b, C.decode (C.encode b) = b
  anchor_roundTrip : ∀ a, C.unmarshalAnchor (C.marshalAnchor a ++ [10]) = some a

/-- The tag of a record after one with the tag `previous`. -/
def Codec.link (C : Codec Time) (key : Bytes) (record : CapStateJSONNoHMAC Time)
    (previous : Bytes) : Bytes :=
  C.hmacSHA256 key (C.marshal record ++ previous)

def payloads (records : List (CapStateRecord Time)) : List (CapStateJSONNoHMAC Time) :=
  records.map CapStateRecord.toCapStateJSONNoHMAC

def Chained (C : Codec Time) (key : Bytes) (records : List (CapStateRecord Time)) : Prop :=
  ∀ n r, records[n]? = some r →
    r.hmacOK = true ∧ r.chain = chainTag (C.link key) [] ((payloads records).take (n + 1))

section Chains

variable {C : Codec Time} {key : Bytes}

theorem Codec.Faithful.link_injective (hC : C.Faithful key) (a b : CapStateJSONNoHMAC Time)
    (s t : Bytes) (h : C.link key a s = C.link key b t) : a = b ∧ s = t :=
  hC.marshal_append _ _ _ _ (hC.hmac_injective _ _ h)

theorem Codec.Faithful.encode_injective (hC : C.Faithful key) {b b' : Bytes}
    (h : C.encode b = C.encode b') : b = b' := by
  rw [← hC.decode_encode b, h, hC.decode_encode]

theorem length_payloads (records : List (CapStateRecord Time)) :
    (payloads records).length = records.length := List.length_map _

theorem payloads_concat (records : List (CapStateRecord Time)) (r : CapStateRecord Time) :
    payloads (records ++ [r]) = payloads records ++ [r.toCapStateJSONNoHMAC] :=
  List.map_append

variable {records : List (CapStateRecord Time)} {log before after : FileRead} {strict : Bool}

theorem Chained.concat (h : Chained C key records) (payload : CapStateJSONNoHMAC Time) :
    Chained C key (records ++
      [⟨payload, true, C.link key payload (chainTag (C.link key) [] (payloads records))⟩]) := by
  intro n r hr
  rw [payloads_concat]
  rw [List.getElem?_append] at hr
  split at hr
  next hlt =>
    rw [List.take_append_of_le_length (by rw [length_payloads]; exact hlt)]
    exact h n r hr
  next hle =>
    rw [List.getElem?_singleton] at hr
    split at hr <;> cases hr
    have hall : (payloads records ++ [payload]).length ≤ n + 1 := by
      simp only [List.length_append, length_payloads, List.length_singleton]
      omega
    rw [List.take_of_length_le hall, chainTag_concat]
    exact ⟨rfl, rfl⟩

theorem Chained.chain_ne_nil (hC : C.Faithful key) (h : Chained C key records)
    {r : CapStateRecord Time} (hr : r ∈ records) : r.chain ≠ [] := by
  obtain ⟨n, hn⟩ := List.mem_iff_getElem?.mp hr
  obtain ⟨hlt, -⟩ := List.getElem?_eq_some_iff.mp hn
  have hpayload : n < (payloads records).length := by rw [length_payloads]; exact hlt
  rw [(h n r hn).2, List.take_succ_eq_append_getElem hpayload, chainTag_concat]
  exact hC.hmac_nonempty _

theorem Chained.getElem?_eq (h : Chained C key records) (n : Nat) :
    records[n]? = (payloads records)[n]?.map fun p =>
      ⟨p, true, chainTag (C.link key) [] ((payloads records).take (n + 1))⟩ := by
  cases hr : records[n]? with
  | none => simp [payloads, hr]
  | some r =>
    obtain ⟨hok, hchain⟩ := h n r hr
    rw [← hchain, ← hok, payloads, List.getElem?_map, hr]
    rfl

theorem Chained.take_eq (hC : C.Faithful key) {xs ys : List (CapStateRecord Time)}
    (hxs : Chained C key xs) (hys : Chained C key ys) {n : Nat} {x y : CapStateRecord Time}
    (hx : xs[n]? = some x) (hy : ys[n]? = some y) (hchain : x.chain = y.chain) :
    xs.take (n + 1) = ys.take (n + 1) := by
  obtain ⟨hxlt, -⟩ := List.getElem?_eq_some_iff.mp hx
  obtain ⟨hylt, -⟩ := List.getElem?_eq_some_iff.mp hy
  rw [(hxs n x hx).2, (hys n y hy).2] at hchain
  have hpayloads := chainTag_injective hC.link_injective
    (by simp only [List.length_take, length_payloads]; omega) hchain
  refine List.ext_getElem? fun i => ?_
  rw [List.getElem?_take, List.getElem?_take]
  split
  next hi =>
    -- The tag of record `i` is fixed by the payloads up to it, which the two lists share.
    have hshared := congrArg (List.take (i + 1)) hpayloads
    rw [List.take_take, List.take_take, Nat.min_eq_left hi] at hshared
    have hpayload := congrArg (fun l => l[i]?) hshared
    simp only [List.getElem?_take, Nat.lt_add_one, if_true] at hpayload
    rw [hxs.getElem?_eq, hys.getElem?_eq, hshared, hpayload]
  next => rfl

/-! ## What the scanner accepts -/

/-- As long as no plain line was seen the records are a chain, and as long as no
authenticated one was seen none of them has a tag. -/
structure Scan.Sound (C : Codec Time) (key : Bytes) (s : Scan Time) : Prop where
  plain : s.sawHMAC = false → ∀ r ∈ s.out, r.chain = []
  chained : s.sawPlain = false →
    Chained C key s.out ∧ s.prevHMAC = chainTag (C.link key) [] (payloads s.out)

theorem scanLine_sound (hC : C.Faithful key) {lineNo : Nat} {s s' : Scan Time} {raw : Bytes}
    (h : s.Sound C key) (hscan : scanLine C (some key) lineNo s raw = .ok s') : s'.Sound C key := by
  unfold scanLine at hscan
  dsimp only at hscan
  repeat' split at hscan
  all_goals cases hscan
  · exact h
  · refine ⟨fun hsaw r hr => ?_, nofun⟩
    rcases List.mem_append.mp hr with hr | hr
    · exact h.plain hsaw r hr
    · rw [List.mem_singleton.mp hr]
  next hmac =>
    refine ⟨nofun, fun hsaw => ?_⟩
    obtain ⟨hchained, hprev⟩ := h.chained hsaw
    simp only [hmac, hC.decode_encode, hprev]
    refine ⟨hchained.concat _, ?_⟩
    rw [payloads_concat, chainTag_concat]
    rfl

theorem scanLines_sound (hC : C.Faithful key) {lines : List Bytes} {lineNo : Nat} {s s' : Scan Time}
    (h : s.Sound C key) (hscan : scanLines C (some key) lineNo s lines = .ok s') :
    s'.Sound C key := by
  induction lines generalizing lineNo s with
  | nil =>
    cases hscan
    exact h
  | cons raw rest ih =>
    rw [scanLines] at hscan
    repeat' split at hscan
    · cases hscan
    · cases hscan
    next s₁ hline => exact ih (scanLine_sound hC h hline) hscan

theorem loadCapStateRecords_ok (hC : C.Faithful key)
    (h : loadCapStateRecords C (some key) log = .ok records) :
    (∀ r ∈ records, r.chain = []) ∨ Chained C key records := by
  unfold loadCapStateRecords at h
  repeat' split at h
  all_goals cases h
  · exact .inl nofun
  next s hscan hmixed =>
    have hstart : Scan.Sound C key ⟨[], [], false, false⟩ :=
      ⟨nofun, fun _ => ⟨fun n r hr => by simp at hr, rfl⟩⟩
    have hs := scanLines_sound hC hstart hscan
    cases hhmac : s.sawHMAC with
    | false => exact .inl (hs.plain hhmac)
    | true =>
      have hplain : s.sawPlain = false := by simpa [hhmac] using hmixed
      exact .inr (hs.chained hplain).1

/-! ## The anchor of an accepted read -/

def Authenticated (records : List (CapStateRecord Time)) : Prop := ∃ r ∈ records, r.chain ≠ []

structure AnchoredAt (C : Codec Time) (key : Bytes) (anchorFile : FileRead)
    (records : List (CapStateRecord Time)) : Prop where
  chained : Chained C key records
  nonempty : records ≠ []
  anchored : ∃ a, loadCapStateAnchor C key anchorFile = .ok (some a) ∧
    a.count = records.length ∧ a.tail = chainTail C records

theorem authenticatedPrefix_of_chained (hC : C.Faithful key) (h : Chained C key records) :
    authenticatedPrefix records = records := by
  rw [authenticatedPrefix, List.takeWhile_eq_self_iff]
  intro r hr
  have hne := h.chain_ne_nil hC hr
  simp [hne]

theorem authenticatedPrefix_of_plain (h : ∀ r ∈ records, r.chain = []) :
    authenticatedPrefix records = [] := by
  cases records with
  | nil => rfl
  | cons r rest => simp [authenticatedPrefix, h r (.head _)]

theorem anchoredAt_write (hC : C.Faithful key) (h : Chained C key records) (hne : records ≠ []) :
    AnchoredAt C key (writeCapStateAnchor C key records.length (chainTail C records)) records := by
  refine ⟨h, hne, ⟨1, records.length, chainTail C records,
    capStateAnchorMAC C key 1 records.length (chainTail C records)⟩, ?_, rfl, rfl⟩
  simp [loadCapStateAnchor, writeCapStateAnchor, hC.anchor_roundTrip]

/-- The last record's tag is what `chainTail` encodes. -/
theorem chainTail_eq (hne : records ≠ []) :
    (records[records.length - 1]?.map fun r => C.encode r.chain) = some (chainTail C records) := by
  have hpositive := List.length_pos_iff.mpr hne
  rw [chainTail, List.getLast?_eq_getElem?, List.getElem?_eq_getElem (by omega)]
  rfl

/-- What an accepted read says of the records and of the anchor before and after. -/
inductive Accepts (C : Codec Time) (key : Bytes) (before : FileRead)
    (records : List (CapStateRecord Time)) (after : FileRead) : Prop
  | plain (hplain : ∀ r ∈ records, r.chain = []) (hsame : after = before)
      (hanchor : ∀ a, loadCapStateAnchor C key before = .ok (some a) → a.count ≤ 0)
  | chained (hafter : AnchoredAt C key after records)
      (hanchor : ∀ a, loadCapStateAnchor C key before = .ok (some a) → 0 < a.count →
        a.count ≤ records.length ∧
        (records[(a.count - 1).toNat]?.map fun r => C.encode r.chain) = some a.tail)

theorem checkAnchor_plain {writes : Bool} {result : List (CapStateRecord Time)}
    (hplain : ∀ r ∈ records, r.chain = [])
    (h : checkAnchor C key strict writes records before = (.ok result, after)) :
    Accepts C key before result after := by
  have hauthed := authenticatedPrefix_of_plain hplain
  unfold checkAnchor at h
  simp only [hauthed, List.isEmpty_nil, if_true] at h
  repeat' split at h
  all_goals cases h
  next hanchor => exact .plain hplain rfl fun a ha => by simp [hanchor] at ha
  next a hanchor hcount =>
    refine .plain hplain rfl fun a' ha' => ?_
    cases hanchor.symm.trans ha'
    exact Int.not_lt.mp hcount

theorem checkAnchor_chained (hC : C.Faithful key) {result : List (CapStateRecord Time)}
    (hchained : Chained C key records) (hne : records ≠ [])
    (h : checkAnchor C key strict true records before = (.ok result, after)) :
    Accepts C key before result after := by
  have hauthed := authenticatedPrefix_of_chained hC hchained
  have hwrite := anchoredAt_write hC hchained hne
  unfold checkAnchor at h
  simp only [hauthed, List.isEmpty_iff, hne, if_true, if_false] at h
  split at h
  · cases h
  next hanchor =>
    split at h <;> cases h
    exact .chained hwrite fun a ha => by simp [hanchor] at ha
  next a hanchor =>
    split at h
    · cases h
    next hlength =>
      split at h <;> cases h
      next hmatch =>
      have htail : 0 < a.count →
          (records[(a.count - 1).toNat]?.map fun r => C.encode r.chain) = some a.tail :=
        fun hpos => Decidable.byContradiction fun hne => hmatch ⟨hpos, hne⟩
      refine .chained ?_ fun a' ha' hpos => ?_
      · split
        · exact hwrite
        -- The anchor was already at the last record, and that record matched it.
        have hpositive : 0 < records.length := List.length_pos_iff.mpr hne
        have hcount : a.count = records.length := by omega
        have hlast := htail (by omega)
        rw [hcount, show ((records.length : Int) - 1).toNat = records.length - 1 by omega,
          chainTail_eq hne] at hlast
        exact ⟨hchained, hne, a, hanchor, hcount, (Option.some.inj hlast).symm⟩
      · cases hanchor.symm.trans ha'
        exact ⟨Int.not_lt.mp hlength, htail hpos⟩

theorem loadCapStateRecordsAnchored_accepts (hC : C.Faithful key)
    (h : loadCapStateRecordsAnchored C (some key) strict true log before = (.ok records, after)) :
    Accepts C key before records after := by
  unfold loadCapStateRecordsAnchored at h
  split at h
  · simp at h
  next rs hload =>
    rcases loadCapStateRecords_ok hC hload with hplain | hchained
    · exact checkAnchor_plain hplain h
    · by_cases hne : rs = []
      · exact checkAnchor_plain (fun r hr => absurd (hne ▸ hr) List.not_mem_nil) h
      · exact checkAnchor_chained hC hchained hne h

theorem loadCapStateRecordsAnchored_error {writes : Bool} {e : CapStateErr}
    (h : loadCapStateRecordsAnchored C (some key) strict writes log before = (.error e, after)) :
    after = before := by
  unfold loadCapStateRecordsAnchored checkAnchor at h
  simp only at h
  repeat' split at h
  all_goals simp only [Prod.mk.injEq, reduceCtorEq, false_and] at h
  all_goals exact h.2.symm

theorem Accepts.anchoredAt (h : Accepts C key before records after)
    (hrecords : Authenticated records) : AnchoredAt C key after records := by
  cases h with
  | plain hplain =>
    obtain ⟨r, hr, hne⟩ := hrecords
    exact absurd (hplain r hr) hne
  | chained hafter => exact hafter

theorem Accepts.prolongs (hC : C.Faithful key) {earlier : List (CapStateRecord Time)}
    (hbefore : AnchoredAt C key before earlier) (h : Accepts C key before records after) :
    earlier <+: records ∧ AnchoredAt C key after records := by
  obtain ⟨a, ha, hcount, htail⟩ := hbefore.anchored
  have hpositive : 0 < earlier.length := List.length_pos_iff.mpr hbefore.nonempty
  cases h with
  | plain hplain hsame hanchor =>
    have := hanchor a ha
    omega
  | chained hafter hanchor =>
    refine ⟨?_, hafter⟩
    obtain ⟨hlength, hmatch⟩ := hanchor a ha (by omega)
    rw [hcount, htail, show ((earlier.length : Int) - 1).toNat = earlier.length - 1 by omega]
      at hmatch
    obtain ⟨r, hr, hrchain⟩ := Option.map_eq_some_iff.mp hmatch
    obtain ⟨e, he, hechain⟩ := Option.map_eq_some_iff.mp (chainTail_eq (C := C) hbefore.nonempty)
    have hsame := hbefore.chained.take_eq hC hafter.chained he hr
      (hC.encode_injective (hechain.trans hrchain.symm))
    rw [Nat.sub_add_cancel hpositive, List.take_length] at hsame
    rw [hsame]
    exact List.take_prefix _ _

end Chains

/-! ## Reads between edits -/

structure SpendLog (Time : Type) where
  log : FileRead
  anchor : FileRead
  /-- Every accepted read, in order. -/
  accepted : List (List (CapStateRecord Time))

/-- The wallet appends a line, someone replaces the file, `pilotctl` reads it. -/
inductive LogOp
  | append (line : Bytes)
  | replace (contents : FileRead)
  | read (strict : Bool)

def FileRead.append : FileRead → Bytes → FileRead
  | .content bytes, line => .content (bytes ++ line)
  | .missing, line => .content line
  | .failed, _ => .failed

def SpendLog.step (C : Codec Time) (key : Bytes) (s : SpendLog Time) : LogOp → SpendLog Time
  | .append line => { s with log := s.log.append line }
  | .replace contents => { s with log := contents }
  | .read strict =>
    match loadCapStateRecordsAnchored C (some key) strict true s.log s.anchor with
    | (.error _, anchor) => { s with anchor }
    | (.ok records, anchor) => { s with anchor, accepted := s.accepted ++ [records] }

/-- Every accepted read with an authenticated record is the start of the chain that the
anchor stands for, and of every read accepted after it. -/
structure SpendLog.Anchored (C : Codec Time) (key : Bytes) (s : SpendLog Time) : Prop where
  latest : ∀ records ∈ s.accepted, Authenticated records →
    ∃ newest, AnchoredAt C key s.anchor newest ∧ records <+: newest
  prolonged : s.accepted.Pairwise fun earlier later => Authenticated earlier → earlier <+: later

theorem step_anchored {C : Codec Time} {key : Bytes} (hC : C.Faithful key) (s : SpendLog Time)
    (op : LogOp) (h : s.Anchored C key) : (s.step C key op).Anchored C key := by
  cases op with
  | append line | replace contents => exact ⟨h.latest, h.prolonged⟩
  | read strict =>
    rw [SpendLog.step]
    split
    next e anchor hread =>
      have hanchor : anchor = s.anchor := loadCapStateRecordsAnchored_error hread
      rwa [hanchor]
    next records anchor hread =>
      have haccepts := loadCapStateRecordsAnchored_accepts hC hread
      have hearlier : ∀ earlier ∈ s.accepted, Authenticated earlier →
          earlier <+: records ∧ AnchoredAt C key anchor records := by
        intro earlier hmem hauth
        obtain ⟨newest, hnewest, hpre⟩ := h.latest earlier hmem hauth
        obtain ⟨hext, hafter⟩ := haccepts.prolongs hC hnewest
        exact ⟨hpre.trans hext, hafter⟩
      refine ⟨fun earlier hmem hauth => ?_, List.pairwise_append.mpr ⟨h.prolonged,
        List.pairwise_singleton _ _, fun earlier hmem later hlater hauth => ?_⟩⟩
      · rcases List.mem_append.mp hmem with hmem | hmem
        · obtain ⟨hext, hafter⟩ := hearlier earlier hmem hauth
          exact ⟨records, hafter, hext⟩
        · rw [List.mem_singleton.mp hmem] at hauth ⊢
          exact ⟨records, haccepts.anchoredAt hauth, List.prefix_rfl⟩
      · rw [List.mem_singleton.mp hlater]
        exact (hearlier earlier hmem hauth).1

/-- However the log is edited between them, an accepted read with an authenticated
record is a prefix of every read accepted later. -/
theorem accepted_reads_extend (C : Codec Time) (key : Bytes) (hC : C.Faithful key)
    (log anchor : FileRead) (ops : List LogOp) :
    (ops.foldl (SpendLog.step C key) ⟨log, anchor, []⟩).accepted.Pairwise
      fun earlier later => Authenticated earlier → earlier <+: later := by
  have hstart : SpendLog.Anchored C key ⟨log, anchor, []⟩ := ⟨nofun, List.Pairwise.nil⟩
  exact (run_invariant_all (SpendLog.Anchored C key) (step_anchored hC) ops hstart).prolonged

/-! A codec that meets `Codec.Faithful`: numbers in unary, characters in four bytes. -/

def putNat (n : Nat) : Bytes := List.replicate n 1 ++ [0]

def getNat : Bytes → Nat × Bytes
  | [] => (0, [])
  | b :: rest => if b = 0 then (0, rest) else ((getNat rest).1 + 1, (getNat rest).2)

def putChars (cs : List Char) : Bytes := cs.flatMap fun c => putBE 4 c.toNat

def getChars : Nat → Bytes → List Char × Bytes
  | 0, bytes => ([], bytes)
  | n + 1, bytes =>
    (Char.ofNat (getBE (bytes.take 4)) :: (getChars n (bytes.drop 4)).1,
      (getChars n (bytes.drop 4)).2)

def putText (t : String) : Bytes := putNat t.toList.length ++ putChars t.toList

def getText (bytes : Bytes) : String × Bytes :=
  let (n, rest) := getNat bytes
  (String.ofList (getChars n rest).1, (getChars n rest).2)

theorem getNat_putNat (n : Nat) (tail : Bytes) : getNat (putNat n ++ tail) = (n, tail) := by
  induction n with
  | zero => rfl
  | succ n ih =>
    rw [putNat, List.append_assoc] at ih ⊢
    rw [List.replicate_succ, List.cons_append, getNat, if_neg (by decide), ih]

theorem getChars_putChars (cs : List Char) (tail : Bytes) :
    getChars cs.length (putChars cs ++ tail) = (cs, tail) := by
  induction cs with
  | nil => rfl
  | cons c cs ih =>
    have hsplit : putChars (c :: cs) ++ tail = putBE 4 c.toNat ++ (putChars cs ++ tail) :=
      List.append_assoc _ _ _
    have hlength : (putBE 4 c.toNat).length = 4 := length_putBE _ _
    have hchar : c.toNat % 256 ^ 4 = c.toNat := Nat.mod_eq_of_lt c.val.toNat_lt
    rw [List.length_cons, getChars, hsplit, List.take_left' hlength, List.drop_left' hlength, ih,
      getBE_putBE, hchar, Char.ofNat_toNat]

theorem getText_putText (t : String) (tail : Bytes) : getText (putText t ++ tail) = (t, tail) := by
  rw [putText, getText, List.append_assoc, getNat_putNat]
  simp only [getChars_putChars, String.ofList_toList]

def plainCodec (unmarshal : Bytes → Option (CapStateJSON Nat)) : Codec Nat where
  unmarshal := unmarshal
  marshal p := putNat p.at_ ++ (putNat p.amount.toNat ++ putText p.asset)
  unmarshalAnchor raw :=
    let (version, raw) := getNat raw
    let (count, raw) := getNat raw
    let (tail, raw) := getText raw
    some ⟨Equiv.intEquivNat.symm version, Equiv.intEquivNat.symm count, tail, (getText raw).1⟩
  marshalAnchor a := putNat (Equiv.intEquivNat a.version) ++
    (putNat (Equiv.intEquivNat a.count) ++ (putText a.tail ++ putText a.mac))
  encode b := String.ofList (b.map fun x => Char.ofNat x.toNat)
  decode t := t.toList.map fun c => UInt8.ofNat c.toNat
  hmacSHA256 _ m := 1 :: m

theorem plainCodec_faithful (unmarshal : Bytes → Option (CapStateJSON Nat)) (key : Bytes) :
    (plainCodec unmarshal).Faithful key where
  hmac_injective m m' h := List.tail_eq_of_cons_eq h
  hmac_nonempty m := List.cons_ne_nil _ _
  marshal_append a b x y h := by
    simp only [plainCodec, List.append_assoc] at h
    have hat := congrArg getNat h
    rw [getNat_putNat, getNat_putNat, Prod.mk.injEq] at hat
    have hamount := congrArg getNat hat.2
    rw [getNat_putNat, getNat_putNat, Prod.mk.injEq] at hamount
    have hasset := congrArg getText hamount.2
    rw [getText_putText, getText_putText, Prod.mk.injEq] at hasset
    cases a
    cases b
    simp only [CapStateJSONNoHMAC.mk.injEq]
    exact ⟨⟨hat.1, hasset.1, UInt64.toNat_inj.mp hamount.1⟩, hasset.2⟩
  decode_encode b := by
    simp only [plainCodec, String.toList_ofList, List.map_map]
    conv_rhs => rw [← List.map_id b]
    refine List.map_congr_left fun x _ => ?_
    simp only [Function.comp_apply, id_eq]
    have hvalid : x.toNat.isValidChar := .inl (Nat.lt_trans x.toNat_lt (by decide))
    rw [Char.ofNat, dif_pos hvalid]
    exact UInt8.ofNat_toNat
  anchor_roundTrip a := by
    simp only [plainCodec, List.append_assoc, getNat_putNat, getText_putText,
      Equiv.symm_apply_apply]

def walletLine (raw : Bytes) : Option (CapStateJSON Nat) :=
  let first : CapStateJSONNoHMAC Nat := ⟨1, "a", 5⟩
  let second : CapStateJSONNoHMAC Nat := ⟨2, "b", 7⟩
  let C := plainCodec fun _ => none
  let tag := C.link [] first []
  if raw = [65] then some ⟨first, C.encode tag⟩
  else if raw = [66] then some ⟨second, C.encode (C.link [] second tag)⟩
  else none

/-- One record is read, then both; the log is cut back, read, restored and read. -/
def rewoundRun : SpendLog Nat :=
  [.append [65, 10], .read false, .append [66, 10], .read false, .replace (.content [65, 10]),
    .read false, .replace (.content [65, 10, 66, 10]), .read true].foldl
    (SpendLog.step (plainCodec walletLine) []) ⟨.missing, .missing, []⟩

theorem rewound_read_refused : rewoundRun.accepted.map List.length = [1, 2, 2] ∧
    rewoundRun.accepted.Pairwise fun earlier later => Authenticated earlier → earlier <+: later :=
  ⟨by decide +kernel,
    accepted_reads_extend (plainCodec walletLine) [] (plainCodec_faithful walletLine []) _ _ _⟩

end PilotProtocol.AppStore
