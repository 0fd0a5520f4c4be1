import Mathlib.Data.List.Dedup
import Mathlib.Data.List.Induction
import Mathlib.Data.List.Sort
import Mathlib.Logic.Function.Basic

/-! # A file system

Several directories, each named by an element of `R`, hold trees of names over
shared inodes: two names may lead to one inode, and what is written through one is
read through the other. Directories are names with nothing behind them. A tree
is closed under parents and names only inodes that exist; the operations check
what they need and otherwise leave the system alone, so this is kept by
construction.

The bytes of a file carry a mark of the writer, which goes where they are copied.
-/

namespace PilotProtocol.Library

abbrev Path := List String

/-- What is left of the second path below the first. -/
def below : Path → Path → Option Path
  | [], q => some q
  | _ :: _, [] => none
  | a :: p, b :: q => if a = b then below p q else none

theorem below_eq_some {p q s : Path} : below p q = some s ↔ q = p ++ s := by
  induction p generalizing q with
  | nil => simp [below, eq_comm]
  | cons a p ih =>
    cases q with
    | nil => simp [below]
    | cons b q =>
      by_cases hab : a = b
      · subst hab
        simp [below, ih]
      · simp [below, hab, Ne.symm hab]

/-- A path in one of the directories; the empty path is the directory itself. -/
structure Loc (R : Type) where
  root : R
  path : Path
  deriving DecidableEq

namespace Loc

variable {R : Type}

def sub (l : Loc R) (p : Path) : Loc R := ⟨l.root, l.path ++ p⟩

def parent (l : Loc R) : Loc R := ⟨l.root, l.path.dropLast⟩

@[simp] theorem sub_path (l : Loc R) (p : Path) : (l.sub p).path = l.path ++ p := rfl

@[simp] theorem sub_nil (l : Loc R) : l.sub [] = l := by simp [sub]

theorem sub_append (l : Loc R) (p q : Path) : l.sub (p ++ q) = (l.sub p).sub q := by simp [sub]

theorem sub_inj {l : Loc R} {p q : Path} : l.sub p = l.sub q ↔ p = q := by
  simp [sub]

theorem sub_eq_self {l : Loc R} {p : Path} : l.sub p = l ↔ p = [] := by
  rw [← sub_nil l, ← sub_append, sub_inj, List.nil_append]

theorem parent_sub (l : Loc R) (p : Path) (n : String) : (l.sub (p ++ [n])).parent = l.sub p := by
  simp only [parent, sub, ← List.append_assoc, List.dropLast_concat]

theorem eq_parent_sub {l : Loc R} (h : l.path ≠ []) : ∃ n, l = l.parent.sub [n] := by
  refine ⟨l.path.getLast h, ?_⟩
  cases l with
  | mk r p => simp [parent, sub, List.dropLast_append_getLast h]

variable [DecidableEq R]

def rest (l k : Loc R) : Option Path := if l.root = k.root then below l.path k.path else none

theorem rest_eq_some {l k : Loc R} {p : Path} : l.rest k = some p ↔ k = l.sub p := by
  unfold rest
  cases k with
  | mk r q =>
    by_cases hroot : l.root = r
    · simp [hroot, below_eq_some, sub]
    · simp [hroot, sub, Ne.symm hroot]

@[simp] theorem rest_sub (l : Loc R) (p : Path) : l.rest (l.sub p) = some p := rest_eq_some.mpr rfl

@[simp] theorem rest_self (l : Loc R) : l.rest l = some [] := by
  rw [rest_eq_some, sub_nil]

theorem rest_of_root_ne {l k : Loc R} (h : l.root ≠ k.root) : l.rest k = none := if_neg h

theorem rest_eq_none {l k : Loc R} : l.rest k = none ↔ ∀ p, k ≠ l.sub p := by
  rw [Option.eq_none_iff_forall_ne_some]
  exact forall_congr' fun p => not_congr rest_eq_some

end Loc

/-! ## The system -/

structure Data (T : Type) where
  bytes : List UInt8
  origin : Option T
  deriving DecidableEq

namespace Data

variable {T : Type}

def empty : Data T := ⟨[], none⟩

def append (d e : Data T) : Data T := { d with bytes := d.bytes ++ e.bytes }

end Data

inductive Kind
  | regular | symlink | socket | other
  deriving DecidableEq

structure Inode (T : Type) where
  kind : Kind
  data : Data T
  mtime : Nat

inductive Entry
  | dir
  | node (ino : Nat)
  deriving DecidableEq

inductive Errno
  | notExist | exist | permission | crossDevice | other
  deriving DecidableEq

/-- What `Lstat` tells of a name. -/
inductive Info
  | dir
  | node (ino : Nat) (kind : Kind) (size mtime : Nat)
  deriving DecidableEq

/-- An open file: an inode, a directory, or a file outside of the system, which a symlink
led to. -/
inductive Handle
  | node (ino : Nat)
  | dir
  | outside

def Entry.Below (n : Nat) : Entry → Prop
  | .dir => True
  | .node i => i < n

instance (n : Nat) : ∀ e : Entry, Decidable (e.Below n)
  | .dir => .isTrue trivial
  | .node i => inferInstanceAs (Decidable (i < n))

structure FS (R T : Type) where
  find : Loc R → Option Entry
  keys : List (Loc R)
  inode : Nat → Inode T
  next : Nat
  listed : ∀ l, find l ≠ none → l ∈ keys
  rooted : ∀ (l : Loc R) n, find (l.sub [n]) ≠ none → find l = some .dir
  fresh : ∀ l e, find l = some e → e.Below next

namespace FS

variable {R T : Type}

theorem node_lt (s : FS R T) {l : Loc R} {i : Nat} (h : s.find l = some (.node i)) : i < s.next :=
  s.fresh l (.node i) h

theorem find_above (s : FS R T) {l : Loc R} {p : Path} (hp : p ≠ [])
    (h : s.find (l.sub p) ≠ none) : s.find l = some .dir := by
  induction p using List.reverseRecOn with
  | nil => exact absurd rfl hp
  | append_singleton q n ih =>
    rw [Loc.sub_append] at h
    have hdir := s.rooted (l.sub q) n h
    by_cases hq : q = []
    · rwa [hq, Loc.sub_nil] at hdir
    · exact ih hq (by rw [hdir]; exact Option.some_ne_none _)

/-- What a name holds, if it is not a directory's. -/
def content (s : FS R T) (l : Loc R) : Option (Kind × Data T) :=
  match s.find l with
  | some (.node i) => some ((s.inode i).kind, (s.inode i).data)
  | _ => none

theorem content_eq_some {s : FS R T} {l : Loc R} {x : Kind × Data T} : s.content l = some x ↔
      ∃ i, s.find l = some (.node i) ∧ ((s.inode i).kind, (s.inode i).data) = x := by
  unfold content
  split
  next i hfind => simp [hfind]
  next hno => simpa using fun i hi => absurd hi (hno i)

def empty (inode : Nat → Inode T) : FS R T where
  find _ := none
  keys := []
  inode := inode
  next := 0
  listed _ h := absurd rfl h
  rooted _ _ h := absurd rfl h
  fresh _ _ h := (nomatch h)

/-! ## Changes of the trees -/

section

variable [DecidableEq R]

/-- Nothing is at `l` and something can be. -/
def Vacant (s : FS R T) (l : Loc R) : Prop :=
  s.find l = none ∧ (l.path = [] ∨ s.find l.parent = some .dir)

instance (s : FS R T) (l : Loc R) : Decidable (s.Vacant l) := inferInstanceAs (Decidable (_ ∧ _))

def put (s : FS R T) (l : Loc R) (e : Entry) : FS R T :=
  if h : s.Vacant l ∧ e.Below s.next then
    { s with
      find := fun k => if k = l then some e else s.find k
      keys := l :: s.keys
      listed := by
        intro k hk
        split at hk
        next hkl => exact hkl ▸ (.head _)
        next => exact List.mem_cons_of_mem l (s.listed k hk)
      rooted := by
        intro k n hk
        have hparent : s.find k = some .dir := by
          split at hk
          next hkl =>
            have hdir := h.1.2
            rw [← hkl, show k.sub [n] = k.sub ([] ++ [n]) from rfl, Loc.parent_sub,
              Loc.sub_nil] at hdir
            exact hdir.resolve_left (by simp)
          next => exact s.rooted k n hk
        rw [if_neg, hparent]
        rintro rfl
        simp [h.1.1] at hparent
      fresh := by
        intro k f hk
        split at hk
        · cases hk
          exact h.2
        · exact s.fresh k f hk }
  else s

variable {l : Loc R} (find : Loc R → Option Entry) (s : FS R T) (src dst : Loc R)

theorem find_put {s : FS R T} {e : Entry} (h : s.Vacant l) (he : e.Below s.next) (k : Loc R) :
    (s.put l e).find k = if k = l then some e else s.find k := by
  unfold put
  rw [dif_pos ⟨h, he⟩]

@[simp] theorem inode_put (l : Loc R) (e : Entry) : (s.put l e).inode = s.inode := by
  unfold put
  split <;> rfl

@[simp] theorem next_put (l : Loc R) (e : Entry) : (s.put l e).next = s.next := by
  unfold put
  split <;> rfl

def Leaf (s : FS R T) (l : Loc R) : Prop := ∀ k ∈ s.keys, s.find k ≠ none → k ≠ l → l.rest k = none

instance (s : FS R T) (l : Loc R) : Decidable (s.Leaf l) :=
  inferInstanceAs (Decidable (∀ k ∈ s.keys, _))

theorem leaf_iff {s : FS R T} : s.Leaf l ↔ ∀ p, p ≠ [] → s.find (l.sub p) = none := by
  constructor
  · intro h p hp
    by_contra hne
    have hrest := h (l.sub p) (s.listed _ hne) hne (mt Loc.sub_eq_self.mp hp)
    simp [Loc.rest_sub] at hrest
  · intro h k _ hk hkl
    rw [Loc.rest_eq_none]
    rintro p rfl
    exact hk (h p fun hp => hkl (Loc.sub_eq_self.mpr hp))

theorem leaf_of_node {s : FS R T} {i : Nat} (h : s.find l = some (.node i)) : s.Leaf l := by
  rw [leaf_iff]
  intro p hp
  by_contra hne
  simp [s.find_above hp hne] at h

def erase (s : FS R T) (l : Loc R) : FS R T :=
  if h : s.Leaf l then
    { s with
      find := fun k => if k = l then none else s.find k
      listed := by
        intro k hk
        split at hk
        · exact absurd rfl hk
        · exact s.listed k hk
      rooted := by
        intro k n hk
        split at hk
        · exact absurd rfl hk
        rw [if_neg, s.rooted k n hk]
        rintro rfl
        exact hk (leaf_iff.mp h [n] (by simp))
      fresh := by
        intro k e hk
        split at hk
        · cases hk
        · exact s.fresh k e hk }
  else s

theorem find_erase {s : FS R T} (h : s.Leaf l) (k : Loc R) :
    (s.erase l).find k = if k = l then none else s.find k := by
  unfold erase
  rw [dif_pos h]

@[simp] theorem inode_erase (l : Loc R) : (s.erase l).inode = s.inode := by
  unfold erase
  split <;> rfl

@[simp] theorem next_erase (l : Loc R) : (s.erase l).next = s.next := by
  unfold erase
  split <;> rfl

/-- `find` after everything at and below `src` went to `dst`. -/
def moved (find : Loc R → Option Entry) (src dst k : Loc R) : Option Entry :=
  match dst.rest k with
  | some p => find (src.sub p)
  | none => if (src.rest k).isSome then none else find k

def Movable (s : FS R T) (src dst : Loc R) : Prop := s.Vacant dst ∧ src.rest dst = none

instance (s : FS R T) (src dst : Loc R) : Decidable (s.Movable src dst) :=
  inferInstanceAs (Decidable (_ ∧ _))

theorem moved_sub (p : Path) : moved find src dst (dst.sub p) = find (src.sub p) := by
  simp [moved]

theorem moved_src {src dst : Loc R} (h : ∀ q, dst.sub q ≠ src) (hdst : src.rest dst = none)
    (p : Path) : moved find src dst (src.sub p) = none := by
  have hno : dst.rest (src.sub p) = none := by
    rw [Loc.rest_eq_none]
    intro q hq
    obtain ⟨hroot, hpath⟩ := Loc.mk.inj hq
    obtain ⟨t, ht, -⟩ | ⟨t, ht, -⟩ := List.append_eq_append_iff.mp hpath
    · exact Loc.rest_eq_none.mp hdst t (by simp [Loc.sub, hroot, ← ht])
    · exact h t (by simp [Loc.sub, ← hroot, ← ht])
  simp [moved, hno]

theorem moved_other {src dst k : Loc R} (hdst : dst.rest k = none) (hsrc : src.rest k = none) :
    moved find src dst k = find k := by
  simp [moved, hdst, hsrc]

theorem rest_sub_none {k : Loc R} {n : String} (h : l.rest (k.sub [n]) = none) :
    l.rest k = none := by
  rw [Loc.rest_eq_none] at h ⊢
  rintro p rfl
  exact h (p ++ [n]) (Loc.sub_append l p [n]).symm

def move (s : FS R T) (src dst : Loc R) : FS R T :=
  if h : s.Movable src dst then
    { s with
      find := moved s.find src dst
      keys := s.keys ++ s.keys.filterMap fun k => (src.rest k).map dst.sub
      listed := by
        intro k hk
        rw [List.mem_append, List.mem_filterMap]
        cases hdst : dst.rest k with
        | some p =>
          obtain rfl := Loc.rest_eq_some.mp hdst
          rw [moved_sub] at hk
          exact .inr ⟨src.sub p, s.listed _ hk, by simp⟩
        | none =>
          cases hsrc : src.rest k with
          | some p => simp [moved, hdst, hsrc] at hk
          | none =>
            rw [moved_other _ hdst hsrc] at hk
            exact .inl (s.listed k hk)
      rooted := by
        intro k n hk
        cases hdst : dst.rest (k.sub [n]) with
        | some p =>
          have heq := Loc.rest_eq_some.mp hdst
          by_cases hp : p = []
          · -- `k` is the parent of `dst`, which is a directory and stays where it is.
            have hdstEq : dst = k.sub ([] ++ [n]) := by
              rw [hp, Loc.sub_nil] at heq
              exact heq.symm
            have hdir : s.find k = some .dir := by
              have hparent := h.1.2
              rw [hdstEq, Loc.parent_sub, Loc.sub_nil] at hparent
              exact hparent.resolve_left (by simp)
            have hkdst : dst.rest k = none := by
              rw [Loc.rest_eq_none, hdstEq]
              intro q hq
              have := congrArg (fun l => l.path.length) hq
              simp at this
            have hksrc : src.rest k = none := by
              refine rest_sub_none (n := n) ?_
              rw [heq, hp, Loc.sub_nil]
              exact h.2
            rw [moved_other _ hkdst hksrc, hdir]
          · obtain ⟨q, m, rfl⟩ := (List.eq_nil_or_concat p).resolve_left hp
            have hk' : k = dst.sub q := by
              have := congrArg Loc.parent heq
              rw [show k.sub [n] = k.sub ([] ++ [n]) from rfl, List.concat_eq_append,
                Loc.parent_sub, Loc.parent_sub, Loc.sub_nil] at this
              exact this
            rw [heq, moved_sub, List.concat_eq_append, Loc.sub_append] at hk
            rw [hk', moved_sub]
            exact s.rooted _ m hk
        | none =>
          cases hsrc : src.rest (k.sub [n]) with
          | some p => simp [moved, hdst, hsrc] at hk
          | none =>
            rw [moved_other _ hdst hsrc] at hk
            rw [moved_other _ (rest_sub_none hdst) (rest_sub_none hsrc)]
            exact s.rooted k n hk
      fresh := by
        intro k e hk
        cases hdst : dst.rest k with
        | some p =>
          obtain rfl := Loc.rest_eq_some.mp hdst
          rw [moved_sub] at hk
          exact s.fresh _ e hk
        | none =>
          cases hsrc : src.rest k with
          | some p => simp [moved, hdst, hsrc] at hk
          | none =>
            rw [moved_other _ hdst hsrc] at hk
            exact s.fresh k e hk }
  else s

theorem find_move {s : FS R T} {src dst : Loc R} (h : s.Movable src dst) :
    (s.move src dst).find = moved s.find src dst := by
  unfold move
  rw [dif_pos h]

@[simp] theorem inode_move : (s.move src dst).inode = s.inode := by
  unfold move
  split <;> rfl

@[simp] theorem next_move : (s.move src dst).next = s.next := by
  unfold move
  split <;> rfl

end

/-! ## Changes of the inodes -/

def alloc (s : FS R T) (n : Inode T) : FS R T :=
  { s with
    inode := Function.update s.inode s.next n
    next := s.next + 1
    fresh := by
      intro l e h
      have := s.fresh l e h
      cases e with
      | dir => trivial
      | node i => exact Nat.lt_succ_of_lt this }

def setInode (s : FS R T) (i : Nat) (n : Inode T) : FS R T :=
  { s with inode := Function.update s.inode i n }

/-! ## Operations

Each answers what the system call answers when it is not made to fail.
-/

section

variable [DecidableEq R]

/-- Why nothing is found at `l`: a file is in the way, or it is not there. -/
def miss (s : FS R T) (l : Loc R) : Errno :=
  if (List.range l.path.length).any fun n =>
      match s.find ⟨l.root, l.path.take n⟩ with
      | some (.node _) => true
      | _ => false
  then .other else .notExist

def refusal (s : FS R T) (l : Loc R) : Errno := if (s.find l).isSome then .exist else s.miss l

def info (s : FS R T) : Entry → Info
  | .dir => .dir
  | .node i => .node i (s.inode i).kind (s.inode i).data.bytes.length (s.inode i).mtime

def lstat (s : FS R T) (l : Loc R) : Except Errno Info :=
  match s.find l with
  | none => .error (s.miss l)
  | some e => .ok (s.info e)

def readlink (s : FS R T) (l : Loc R) : Except Errno (Data T) :=
  match s.find l with
  | none => .error (s.miss l)
  | some .dir => .error .other
  | some (.node i) =>
    if (s.inode i).kind = .symlink then .ok (s.inode i).data else .error .other

def mkdir (s : FS R T) (l : Loc R) : Except Errno (FS R T) :=
  if s.Vacant l then .ok (s.put l .dir) else .error (s.refusal l)

def newNode (s : FS R T) (l : Loc R) (n : Inode T) : FS R T := (s.alloc n).put l (.node s.next)

def symlink (s : FS R T) (target : Data T) (l : Loc R) (mtime : Nat) : Except Errno (FS R T) :=
  if s.Vacant l then .ok (s.newNode l ⟨.symlink, target, mtime⟩) else .error (s.refusal l)

def link (s : FS R T) (src dst : Loc R) : Except Errno (FS R T) :=
  match s.find src with
  | none => .error (s.miss src)
  | some .dir => .error .permission
  | some (.node i) => if s.Vacant dst then .ok (s.put dst (.node i)) else .error (s.refusal dst)

def openRead (s : FS R T) (l : Loc R) : Except Errno Handle :=
  match s.find l with
  | none => .error (s.miss l)
  | some .dir => .ok .dir
  | some (.node i) =>
    match (s.inode i).kind with
    | .regular => .ok (.node i)
    | .symlink => .ok .outside
    | _ => .error .other

/-- The inode with its data cut off, unless the file is opened to append. -/
def opened (s : FS R T) (i : Nat) (keep : Bool) (mtime : Nat) : FS R T :=
  if keep then s else s.setInode i { s.inode i with data := .empty, mtime := mtime }

/-- Opens for writing, creating the file; `behind` is where a symlink leads. -/
def openWrite (s : FS R T) (l : Loc R) (keep : Bool) (mtime : Nat) (behind : Option (Loc R)) :
    Except Errno (Handle × FS R T) :=
  match s.find l with
  | none =>
    if s.Vacant l then .ok (.node s.next, s.newNode l ⟨.regular, .empty, mtime⟩)
    else .error (s.refusal l)
  | some .dir => .error .other
  | some (.node i) =>
    match (s.inode i).kind with
    | .regular => .ok (.node i, s.opened i keep mtime)
    | .symlink =>
      match behind.bind s.find with
      | some (.node j) =>
        if (s.inode j).kind = .regular then .ok (.node j, s.opened j keep mtime)
        else .error .other
      | _ => .ok (.outside, s)
    | _ => .error .other

def write (s : FS R T) (h : Handle) (d : Data T) (mtime : Nat) : FS R T :=
  match h with
  | .node i => s.setInode i { s.inode i with data := d, mtime := mtime }
  | _ => s

def append (s : FS R T) (h : Handle) (d : Data T) (mtime : Nat) : FS R T :=
  match h with
  | .node i => s.setInode i { s.inode i with data := (s.inode i).data.append d, mtime := mtime }
  | _ => s

def remove (s : FS R T) (l : Loc R) : Except Errno (FS R T) :=
  match s.find l with
  | none => .error (s.miss l)
  | some _ => if s.Leaf l then .ok (s.erase l) else .error .other

def rename (s : FS R T) (src dst : Loc R) : Except Errno (FS R T) :=
  match s.find src with
  | none => .error (s.miss src)
  | some e =>
    if src = dst then .ok s
    else if (src.rest dst).isSome then .error .other
    else
      match s.find dst, e with
      | none, _ => if s.Vacant dst then .ok (s.move src dst) else .error (s.miss dst)
      | some .dir, .dir =>
        if s.Leaf dst then .ok ((s.erase dst).move src dst) else .error .exist
      | some .dir, .node _ => .error .exist
      | some (.node _), .dir => .error .other
      | some (.node j), .node i =>
        -- Two names of one file: renaming does nothing.
        if i = j then .ok s else .ok ((s.erase dst).move src dst)

/-- The states passed through when the names are removed one after another, those that
have something below them left alone. -/
def removeEach (s : FS R T) : List (Loc R) → List (FS R T)
  | [] => []
  | l :: ls => s.erase l :: (s.erase l).removeEach ls

/-! ## What the operations do -/

variable {s s' : FS R T} {l src dst : Loc R}

omit [DecidableEq R] in
theorem lstat_eq_ok {i : Info} : s.lstat l = .ok i ↔ ∃ e, s.find l = some e ∧ s.info e = i := by
  unfold lstat
  cases s.find l <;> simp

theorem mkdir_ok (h : s.mkdir l = .ok s') : s.Vacant l ∧ s' = s.put l .dir := by
  unfold mkdir at h
  split at h
  next hv => cases h; exact ⟨hv, rfl⟩
  · cases h

theorem find_newNode (h : s.Vacant l) (n : Inode T) (k : Loc R) :
    (s.newNode l n).find k = if k = l then some (.node s.next) else s.find k :=
  find_put (s := s.alloc n) (e := .node s.next) h (Nat.lt_succ_self s.next) k

@[simp] theorem inode_newNode (s : FS R T) (l : Loc R) (n : Inode T) :
    (s.newNode l n).inode = Function.update s.inode s.next n := inode_put _ _ _

@[simp] theorem next_newNode (s : FS R T) (l : Loc R) (n : Inode T) :
    (s.newNode l n).next = s.next + 1 := next_put _ _ _

theorem symlink_ok {target : Data T} {mtime : Nat} (h : s.symlink target l mtime = .ok s') :
    s.Vacant l ∧ s' = s.newNode l ⟨.symlink, target, mtime⟩ := by
  unfold symlink at h
  split at h
  next hv => cases h; exact ⟨hv, rfl⟩
  · cases h

theorem link_ok (h : s.link src dst = .ok s') :
    ∃ i, s.find src = some (.node i) ∧ s.Vacant dst ∧ s' = s.put dst (.node i) := by
  unfold link at h
  split at h
  · cases h
  · cases h
  next i hi =>
    split at h
    next hv => cases h; exact ⟨i, hi, hv, rfl⟩
    · cases h

theorem remove_ok (h : s.remove l = .ok s') : s.find l ≠ none ∧ s.Leaf l ∧ s' = s.erase l := by
  unfold remove at h
  split at h
  · cases h
  next e he =>
    split at h
    next hleaf => cases h; exact ⟨by simp [he], hleaf, rfl⟩
    · cases h

def SameFile (s : FS R T) (l k : Loc R) : Prop :=
  l = k ∨ ∃ i, s.find l = some (.node i) ∧ s.find k = some (.node i)

theorem find_move_erase (hleaf : s.Leaf dst) (hdst : s.find dst ≠ none)
    (hrest : src.rest dst = none) : ((s.erase dst).move src dst).find = moved s.find src dst := by
  have hparent : dst.path = [] ∨ (s.erase dst).find dst.parent = some .dir := by
    by_cases hnil : dst.path = []
    · exact .inl hnil
    · obtain ⟨n, hn⟩ := Loc.eq_parent_sub hnil
      have hne : dst.parent ≠ dst := by
        intro heq
        have hlength := congrArg (fun l => l.path.length) hn
        simp [heq] at hlength
      rw [find_erase hleaf, if_neg hne]
      exact .inr (s.rooted dst.parent n (hn ▸ hdst))
  have hmovable : (s.erase dst).Movable src dst :=
    ⟨⟨by rw [find_erase hleaf, if_pos rfl], hparent⟩, hrest⟩
  rw [find_move hmovable]
  funext k
  cases hk : dst.rest k with
  | some p =>
    obtain rfl := Loc.rest_eq_some.mp hk
    rw [moved_sub, moved_sub, find_erase hleaf, if_neg (Loc.rest_eq_none.mp hrest p).symm]
  | none =>
    have hne : k ≠ dst := by
      rintro rfl
      simp [Loc.rest_self] at hk
    simp only [moved, hk, find_erase hleaf, if_neg hne]

/-- What is renamed over: nothing, another file, or an empty directory. -/
def Gives (s : FS R T) (src dst : Loc R) : Prop :=
  s.Vacant dst ∨
    (∃ i j, s.find src = some (.node i) ∧ s.find dst = some (.node j) ∧ i ≠ j) ∨
    (s.find src = some .dir ∧ s.find dst = some .dir ∧ s.Leaf dst)

theorem rename_ok (h : s.rename src dst = .ok s') :
    s.find src ≠ none ∧ s'.inode = s.inode ∧ s'.next = s.next ∧ (s' = s ∧ s.SameFile src dst ∨
        s'.find = moved s.find src dst ∧ src.rest dst = none ∧ s.Gives src dst) := by
  unfold rename at h
  cases he : s.find src with
  | none => rw [he] at h; cases h
  | some e =>
    refine ⟨nofun, ?_⟩
    rw [he] at h
    dsimp only at h
    split at h
    next heq => cases h; exact ⟨rfl, rfl, .inl ⟨rfl, .inl heq⟩⟩
    split at h
    · cases h
    next hsome =>
      have hrest : src.rest dst = none := Option.not_isSome_iff_eq_none.mp hsome
      repeat' split at h
      all_goals cases h
      next hv =>
        exact ⟨inode_move _ _ _, next_move _ _ _,
          .inr ⟨find_move ⟨hv, hrest⟩, hrest, .inl hv⟩⟩
      next _ hdst hleaf =>
        exact ⟨by simp, by simp, .inr ⟨find_move_erase hleaf (by simp [hdst]) hrest, hrest,
          .inr (.inr ⟨he, hdst, hleaf⟩)⟩⟩
      next j i hdst hij => exact ⟨rfl, rfl, .inl ⟨rfl, .inr ⟨i, he, hij ▸ hdst⟩⟩⟩
      next j i hdst hij =>
        exact ⟨by simp, by simp, .inr ⟨find_move_erase (leaf_of_node hdst) (by simp [hdst]) hrest,
          hrest, .inr (.inl ⟨i, j, he, hdst, hij⟩)⟩⟩

theorem rename_root {p q : R} (h : s.rename ⟨p, []⟩ ⟨q, []⟩ = .ok s') :
    s'.inode = s.inode ∧ s'.next = s.next ∧ (s' = s ∨ p ≠ q ∧ ∀ r path, s'.find ⟨r, path⟩ =
      if r = q then s.find ⟨p, path⟩ else if r = p then none else s.find ⟨r, path⟩) := by
  obtain ⟨-, hinode, hnext, ⟨rfl, -⟩ | ⟨hfind, hrest, -⟩⟩ := rename_ok h
  · exact ⟨rfl, rfl, .inl rfl⟩
  have hpq : p ≠ q := by
    rintro rfl
    simp [Loc.rest_self] at hrest
  refine ⟨hinode, hnext, .inr ⟨hpq, fun r path => ?_⟩⟩
  rw [hfind]
  by_cases hrq : r = q
  · rw [if_pos hrq, hrq]
    exact moved_sub s.find ⟨p, []⟩ ⟨q, []⟩ path
  · rw [if_neg hrq]
    by_cases hrp : r = p
    · rw [if_pos hrp, hrp]
      exact moved_src s.find (fun t ht => hpq (congrArg Loc.root ht).symm) hrest path
    · rw [if_neg hrp]
      exact moved_other _ (Loc.rest_of_root_ne (Ne.symm hrq)) (Loc.rest_of_root_ne (Ne.symm hrp))

theorem Gives.not_below (h : s.Gives src dst) (hsrc : s.find src ≠ none) {t : Path} (ht : t ≠ []) :
    src ≠ dst.sub t := by
  rintro rfl
  have hdir := s.find_above ht hsrc
  obtain ⟨hnone, -⟩ | ⟨i, j, -, hnode, -⟩ | ⟨-, -, hleaf⟩ := h
  · simp [hnone] at hdir
  · simp [hnode] at hdir
  · exact hsrc (leaf_iff.mp hleaf t ht)

theorem rename_missing {dir : Loc R} {a b : String}
    (h : s.rename (dir.sub [a]) (dir.sub [b]) = .error .notExist) :
    s.find (dir.sub [a]) = none := by
  by_contra hsome
  have hdir : s.find (dir.sub [b]).parent = some .dir := by
    rw [← List.nil_append [b], Loc.parent_sub, Loc.sub_nil]
    exact s.rooted dir a hsome
  obtain ⟨e, he⟩ := Option.ne_none_iff_exists'.mp hsome
  simp only [rename, he] at h
  cases hdst : s.find (dir.sub [b]) with
  | none =>
    have hv : s.Vacant (dir.sub [b]) := ⟨hdst, .inr hdir⟩
    simp only [hdst, if_pos hv] at h
    split_ifs at h
    cases h
  | some f => cases f <;> cases e <;> simp only [hdst] at h <;> split_ifs at h <;> cases h

/-- A state passed through is the one in which the names up to some point are gone; what
has something below it may stay. -/
theorem removeEach_moment {m : FS R T} {ls : List (Loc R)} (h : m ∈ s.removeEach ls) :
    m.inode = s.inode ∧ m.next = s.next ∧ ∃ pre post, ls = pre ++ post ∧
      (∀ k, m.find k = s.find k ∨ m.find k = none ∧ k ∈ pre) ∧
      ∀ k ∈ pre, ∀ i, m.find k ≠ some (.node i) := by
  induction ls generalizing s with
  | nil => cases h
  | cons l ls ih =>
    have hfirst : ∀ k, (s.erase l).find k = s.find k ∨ (s.erase l).find k = none ∧ k = l := by
      intro k
      by_cases hleaf : s.Leaf l
      · rw [find_erase hleaf]
        by_cases hk : k = l
        · exact .inr ⟨if_pos hk, hk⟩
        · exact .inl (if_neg hk)
      · unfold erase
        rw [dif_neg hleaf]
        exact .inl rfl
    have hgone : ∀ i, (s.erase l).find l ≠ some (.node i) := by
      intro i hi
      have hnode : s.find l = some (.node i) := by
        obtain hsame | ⟨hnone, -⟩ := hfirst l
        · exact hsame ▸ hi
        · simp [hnone] at hi
      simp [find_erase (leaf_of_node hnode)] at hi
    obtain rfl | h := List.mem_cons.mp h
    · refine ⟨inode_erase s l, next_erase s l, [l], ls, rfl, fun k => ?_, fun k hk => ?_⟩
      · exact (hfirst k).imp id fun hk => ⟨hk.1, List.mem_singleton.mpr hk.2⟩
      · rwa [List.mem_singleton.mp hk]
    · obtain ⟨hinode, hnext, pre, post, hls, hfind, hpre⟩ := ih h
      refine ⟨hinode.trans (inode_erase s l), hnext.trans (next_erase s l), l :: pre, post,
        by rw [hls, List.cons_append], fun k => ?_, fun k hk i hi => ?_⟩
      · obtain hk | ⟨hk, hmem⟩ := hfind k
        · rw [hk]
          exact (hfirst k).imp id fun hl => ⟨hl.1, List.mem_cons.mpr (.inl hl.2)⟩
        · exact .inr ⟨hk, List.mem_cons_of_mem l hmem⟩
      · obtain rfl | hk := List.mem_cons.mp hk
        · obtain hsame | ⟨hnone, -⟩ := hfind k
          · exact hgone i (hsame ▸ hi)
          · simp [hnone] at hi
        · exact hpre k hk i hi

end

end FS

end PilotProtocol.Library
