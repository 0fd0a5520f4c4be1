import Mathlib.Data.String.Basic
import Mathlib.Order.Lex
import PilotProtocol.Library.FileSystem
import PilotProtocol.Library.Program

/-! # Programs over a file system

The operations of a file system as a machine. A choice says whether the operation
fails, what other processes do just before it, in which order a recursive removal
takes the names, and what the clock shows. A failing operation changes nothing,
and an operation fails with "does not exist" only where nothing is. Writing a file
takes several calls (open, write, close); `stage` says at which of them it fails,
and what was done before stays.

A walk lists first and visits afterwards. It lists in lexical order, a directory
before what is in it; of a directory that cannot be read it lists nothing and tells
the visitor so.
-/

namespace PilotProtocol.Library

inductive Fault
  | permission | crossDevice | other
  deriving DecidableEq

def Fault.errno : Fault → Errno
  | .permission => .permission
  | .crossDevice => .crossDevice
  | .other => .other

inductive FileType
  | dir
  | file (kind : Kind)
  deriving DecidableEq

/-- What a walk comes to; `error` when it is a directory that could not be read. -/
structure Event where
  path : Path
  type : FileType
  error : Option Errno
  deriving DecidableEq

inductive Change (R T : Type)
  | write (l : Loc R) (data : Data T) (mtime : Nat)
  | replace (l : Loc R) (node : Inode T)
  | mkdir (l : Loc R)
  | remove (l : Loc R)
  | rename (src dst : Loc R)
  | link (src dst : Loc R)

structure Choice (R T : Type) where
  fail : Option Fault := none
  stage : Nat := 0
  others : List (Change R T) := []
  order : List Path := []
  listing : Option (List Event) := none
  unread : List (Path × Fault) := []
  tries : Nat := 0
  now : Nat := 0
  outside : Data T := .empty
  behind : Option (Loc R) := none

inductive FileOp (R T : Type) : Type → Type
  | lstat (l : Loc R) : FileOp R T (Except Errno Info)
  | readlink (l : Loc R) : FileOp R T (Except Errno (Data T))
  | readFile (l : Loc R) : FileOp R T (Except Errno (Data T))
  | walk (r : R) : FileOp R T (Except Errno (List Event))
  | roots : FileOp R T (Except Errno (List R))
  | firstFree (names : Nat → R) : FileOp R T R
  | now : FileOp R T Nat
  | chmod (l : Loc R) : FileOp R T (Except Errno Unit)
  | prepare (r : R) : FileOp R T (Except Errno Unit)
  | mkdir (l : Loc R) : FileOp R T (Except Errno Unit)
  | symlink (target : Data T) (l : Loc R) : FileOp R T (Except Errno Unit)
  | link (src dst : Loc R) : FileOp R T (Except Errno Unit)
  | writeFile (l : Loc R) (d : Data T) : FileOp R T (Except Errno Unit)
  | appendFile (l : Loc R) (d : Data T) : FileOp R T (Except Errno Unit)
  | copyFile (src dst : Loc R) : FileOp R T (Except Errno Unit)
  | copyToTemp (src dir : Loc R) (base : String) : FileOp R T (Option String × Option Errno)
  | remove (l : Loc R) : FileOp R T (Except Errno Unit)
  | rename (src dst : Loc R) : FileOp R T (Except Errno Unit)
  | removeAll (l : Loc R) : FileOp R T (Except Errno Unit)

section

variable {R T : Type} [DecidableEq R]

namespace FS

variable (s : FS R T)

/-- The error of a change is the other process's own affair. -/
def orSame : Except Errno (FS R T) → FS R T
  | .ok s' => s'
  | .error _ => s

def change : Change R T → FS R T
  | .write l d mtime =>
    match s.find l with
    | some (.node i) =>
      if (s.inode i).kind = .regular then s.write (.node i) d mtime else s
    | _ => s
  | .replace l n =>
    match s.find l with
    | some .dir => s
    | some (.node _) => (s.erase l).newNode l n
    | none => if s.Vacant l then s.newNode l n else s
  | .mkdir l => s.orSame (s.mkdir l)
  | .remove l => s.orSame (s.remove l)
  | .rename src dst => s.orSame (s.rename src dst)
  | .link src dst => s.orSame (s.link src dst)

def changes (cs : List (Change R T)) : FS R T := cs.foldl change s

def fileType : Entry → FileType
  | .dir => .dir
  | .node i => .file (s.inode i).kind

/-- Every path in `r`, a directory before what is in it. -/
def listing (r : R) : List Path :=
  (((s.keys.filter fun k => k.root = r ∧ s.find k ≠ none).map Loc.path).dedup).insertionSort
    (· ≤ ·)

def unlisted (unread : List (Path × Fault)) (p : Path) : Bool :=
  unread.any fun u =>
    match below u.1 p with
    | some (_ :: _) => true
    | _ => false

def eventsAt (r : R) (unread : List (Path × Fault)) (p : Path) : List Event :=
  match s.find ⟨r, p⟩ with
  | none => []
  | some e =>
    if unlisted unread p then []
    else [⟨p, s.fileType e, (unread.find? fun u => u.1 = p).map fun u => u.2.errno⟩]

def events (r : R) (unread : List (Path × Fault)) : List Event :=
  (s.listing r).flatMap (s.eventsAt r unread)

def roots : List R :=
  ((s.keys.filter fun k => k.path = [] ∧ s.find k = some .dir).map Loc.root).dedup

/-- The names a recursive removal of `l` takes, in the order it takes them. -/
def removals (l : Loc R) (c : Choice R T) : List (Loc R) :=
  let listed := c.order.map l.sub
  match c.fail with
  | some _ => listed
  | none =>
    listed ++ (((s.listing l.root).reverse.map fun p => (⟨l.root, p⟩ : Loc R)).filter fun k =>
      (l.rest k).isSome)

def contents (outside : Data T) : Handle → Except Errno (Data T)
  | .node i => .ok (s.inode i).data
  | .dir => .error .other
  | .outside => .ok outside

/-- The least `i` for which nothing is at `names i`. -/
def freeIndex (names : Nat → Loc R) : Nat :=
  ((List.range (s.keys.length + 1)).find? fun i => (s.find (names i)).isNone).getD 0

def createTemp (dir : Loc R) (base : String) (mtime : Nat) :
    Except Errno ((String × Handle) × FS R T) :=
  let name := base ++ toString (s.freeIndex fun i => dir.sub [base ++ toString i])
  if s.Vacant (dir.sub [name]) then
    .ok ((name, .node s.next), s.newNode (dir.sub [name]) ⟨.regular, .empty, mtime⟩)
  else .error (s.refusal (dir.sub [name]))

end FS

namespace Choice

variable {α : Type}

def answer (c : Choice R T) (r : Except Errno α) : Except Errno α :=
  match c.fail with
  | some f => .error f.errno
  | none => r

def attempt (c : Choice R T) (s : FS R T) (r : Except Errno (α × FS R T)) :
    Except Errno α × List (FS R T) :=
  match c.answer r with
  | .ok (a, s') => (.ok a, [s'])
  | .error e => (.error e, [s])

/-- Opens for writing, then changes what was opened: the states passed through, and what
it fails with. -/
def writing (c : Choice R T) (s : FS R T) (opened : Except Errno (Handle × FS R T))
    (change : Handle → FS R T → Except Errno (FS R T)) : Except Errno Unit × List (FS R T) :=
  match opened with
  | .error e => (c.answer (.error e), [s])
  | .ok (h, s₁) =>
    match c.fail, change h s₁ with
    | none, .ok s₂ => (.ok (), [s₁, s₂])
    | none, .error e => (.error e, [s₁])
    | some f, r =>
      match c.stage, r with
      | 0, _ => (.error f.errno, [s])
      | 1, _ => (.error f.errno, [s₁])
      | _, .ok s₂ => (.error f.errno, [s₁, s₂])
      | _, .error e => (.error e, [s₁])

end Choice

def FileOp.exec (c : Choice R T) {β : Type} (o : FileOp R T β) (s : FS R T) : β × List (FS R T) :=
  match o with
  | .lstat l => (c.answer (s.lstat l), [s])
  | .readlink l => (c.answer (s.readlink l), [s])
  | .readFile l => (c.answer ((s.openRead l).bind (s.contents c.outside)), [s])
  | .walk r =>
    (c.answer ((s.lstat ⟨r, []⟩).map fun _ => c.listing.getD (s.events r c.unread)), [s])
  | .roots => (c.answer (.ok s.roots), [s])
  | .firstFree names =>
    let free := s.freeIndex fun i => ⟨names i, []⟩
    (names (if c.fail.isSome then min c.tries free else free), [s])
  | .now => (c.now, [s])
  | .chmod l => (c.answer ((s.lstat l).map fun _ => ()), [s])
  | .prepare _ => (c.answer (.ok ()), [s])
  | .mkdir l => c.attempt s ((s.mkdir l).map ((), ·))
  | .symlink target l => c.attempt s ((s.symlink target l c.now).map ((), ·))
  | .link src dst => c.attempt s ((s.link src dst).map ((), ·))
  | .writeFile l d =>
    c.writing s (s.openWrite l false c.now c.behind) fun h s => .ok (s.write h d c.now)
  | .appendFile l d =>
    c.writing s (s.openWrite l true c.now c.behind) fun h s => .ok (s.append h d c.now)
  | .copyFile src dst =>
    match s.openRead src with
    | .error e => (c.answer (.error e), [s])
    | .ok inp =>
      c.writing s (s.openWrite dst false c.now c.behind) fun h s =>
        (s.contents c.outside inp).map fun d => s.write h d c.now
  | .copyToTemp src dir base =>
    match s.openRead src, s.createTemp dir base c.now with
    | .error e, _ => ((none, some e), [s])
    | .ok _, .error e => ((none, some e), [s])
    | .ok inp, .ok (tmp, s₁) =>
      let r := c.writing s (.ok (tmp.2, s₁)) fun h s =>
        (s.contents c.outside inp).map fun d => s.write h d c.now
      match r.1, c.fail, c.stage with
      | .ok _, _, _ => ((some tmp.1, none), r.2)
      | .error e, some _, 0 => ((none, some e), r.2)
      | .error e, _, _ => ((some tmp.1, some e), r.2)
  | .remove l => c.attempt s ((s.remove l).map ((), ·))
  | .rename src dst => c.attempt s ((s.rename src dst).map ((), ·))
  | .removeAll l =>
    let moments := s.removeEach (s.removals l c)
    if ((moments.getLastD s).find l).isNone then (.ok (), s :: moments)
    else (.error (c.fail.elim .other Fault.errno), s :: moments)

def fileMachine : Machine (FileOp R T) (FS R T) (Choice R T) where
  exec c o s := o.exec c (s.changes c.others)

end

/-! ## Walks -/

/-- What a visitor answers: go on, leave out what is below the directory, or stop. -/
inductive Visit (α ε : Type)
  | next (a : α)
  | skipDir (a : α)
  | stop (a : α) (e : ε)

/-- The event lies at or below a directory that is left out. -/
def skips (skipped : List Path) (ev : Event) : Bool := skipped.any fun d => (below d ev.path).isSome

/-- Calls the visitor, and once more with the error when it wants to go on into a directory
that could not be read. -/
def visit {F : Type → Type} {α ε : Type} (fn : α → Event → Prog F (Visit α ε)) (a : α)
    (ev : Event) : Prog F (Visit α ε) :=
  fn a { ev with error := none } >>= fun
    | .next a => if ev.type = .dir ∧ ev.error ≠ none then fn a ev else pure (.next a)
    | v => pure v

def visitAll {F : Type → Type} {α ε : Type} (fn : α → Event → Prog F (Visit α ε)) :
    List Event → List Path → α → Prog F (α × Option ε)
  | [], _, a => pure (a, none)
  | ev :: rest, skipped, a =>
    if skips skipped ev then visitAll fn rest skipped a
    else visit fn a ev >>= fun
      | .next a => visitAll fn rest skipped a
      | .skipDir a => visitAll fn rest (ev.path :: skipped) a
      | .stop a e => pure (a, some e)

end PilotProtocol.Library
