import Mathlib.Data.List.Infix
import PilotProtocol.Library.BigEndian
import PilotProtocol.Library.Run

/-! # Unpacking a bundle into a directory

A path is cleaned to its parts; `untarUnder` tests the text of the cleaned name of an entry
and joins it to the destination. `Faults` says which calls the system refuses while one entry
is unpacked, so that every way out of the loop is taken by some run.
-/

namespace PilotProtocol.AppStore.Untar

open Library

/-! ## Cleaned paths -/

def slash : UInt8 := 47

def dot : Bytes := [46]

def dotdot : Bytes := [46, 46]

/-- A path as `filepath.Clean` leaves it. -/
structure Path where
  rooted : Bool
  names : List Bytes
deriving DecidableEq, Repr

/-- One part of a path over the parts before it, the last one first. -/
def push (rooted : Bool) (stack : List Bytes) (part : Bytes) : List Bytes :=
  if part = [] ∨ part = dot then stack
  else if part = dotdot then
    match stack with
    | [] => if rooted then [] else [dotdot]
    | top :: below => if top = dotdot then dotdot :: top :: below else below
  else part :: stack

def isRooted (text : Bytes) : Bool := text.head? == some slash

def clean (text : Bytes) : Path :=
  ⟨isRooted text, ((text.splitOn slash).foldl (push (isRooted text)) []).reverse⟩

namespace Path

def text (p : Path) : Bytes :=
  if p.rooted then slash :: [slash].intercalate p.names
  else if p.names = [] then dot
  else [slash].intercalate p.names

def dir (p : Path) : Path := ⟨p.rooted, p.names.dropLast⟩

/-- `p` is this path or lies below it. -/
def Holds (d p : Path) : Prop :=
  p.rooted = d.rooted ∧ ∃ rest, p.names = d.names ++ rest ∧ dotdot ∉ rest

end Path

def join (a b : Bytes) : Path :=
  if a = [] then clean b else if b = [] then clean a else clean (a ++ slash :: b)

def climbs (text : Bytes) : Bool :=
  dotdot.isPrefixOf text || decide (slash :: dotdot ++ [slash] <:+: text)

/-! ## The loop over the entries -/

inductive Node
  | dir
  | file (perm : Nat) (content : Bytes)
deriving DecidableEq, Repr

structure Disk where
  node : Path → Option Node
  /-- Every path that was created, written, truncated or removed; the code does not read it. -/
  touched : List Path := []

def Disk.set (d : Disk) (p : Path) (n : Option Node) : Disk :=
  ⟨Function.update d.node p n, d.touched ++ [p]⟩

inductive Typeflag
  | dir
  | reg
  | other (flag : UInt8)
deriving DecidableEq, Repr

structure Entry where
  name : Bytes
  typeflag : Typeflag
  mode : Nat
  content : Bytes
  /-- The archive cannot be read on after `content`; the error is also that of each later read. -/
  broken : Bool := false

structure Faults where
  /-- Creating or opening the path is refused. -/
  refuses : Path → Bool := fun _ => false
  /-- The write that fails, by the bytes written before it. -/
  full : Option Nat := none
  remove : Bool := false

inductive Error
  | traversal (name : Bytes)
  | mkdir
  | openFile
  | copy
  | overLimit (name : Bytes)
  | read
deriving DecidableEq, Repr

def maxUntarFileSize : Nat := 64 * 2 ^ 20

/-- `os.MkdirAll` of the parts after those in `done`, which exist; false if it fails. -/
def mkdirAll (refuses : Path → Bool) (rooted : Bool) : List Bytes → List Bytes → Disk → Disk × Bool
  | _, [], d => (d, true)
  | done, name :: rest, d =>
    let p : Path := ⟨rooted, done ++ [name]⟩
    match d.node p with
    | some .dir => mkdirAll refuses rooted p.names rest d
    | some (.file ..) => (d, false)
    | none =>
      if refuses p then (d, false) else mkdirAll refuses rooted p.names rest (d.set p (some .dir))

/-- `os.OpenFile` with O_CREATE, O_WRONLY and O_TRUNC: the mode of the file it leaves empty. -/
def openFile (refuses : Path → Bool) (p : Path) (perm : Nat) (d : Disk) : Option (Nat × Disk) :=
  if refuses p then none
  else match d.node p with
    | some .dir => none
    | some (.file old _) => some (old, d.set p (some (.file old [])))
    | none => some (perm, d.set p (some (.file perm [])))

/-- What `io.Copy` of the entry writes, and whether it fails. -/
def copy (e : Entry) (full : Option Nat) : Bytes × Bool :=
  let limited := e.content.take maxUntarFileSize
  match full.filter (· < limited.length) with
  | some n => (limited.take n, true)
  | none => (limited, e.broken && decide (e.content.length < maxUntarFileSize))

def extract (e : Entry) (out : Path) (f : Faults) (d : Disk) : Option Error × Disk :=
  match openFile f.refuses out (e.mode % 512) d with
  | none => (some .openFile, d)
  | some (perm, d) =>
    let (written, failed) := copy e f.full
    let d := d.set out (some (.file perm written))
    if failed then (some .copy, d)
    else if maxUntarFileSize ≤ written.length ∧ maxUntarFileSize < e.content.length then
      (some (.overLimit e.name), if f.remove then d else d.set out none)
    else (none, d)

def unpack (dst : Bytes) (e : Entry) (f : Faults) (d : Disk) : Option Error × Disk :=
  let name := (clean e.name).text
  if climbs name then (some (.traversal e.name), d)
  else
    let out := join dst name
    match e.typeflag with
    | .dir =>
      let (d, made) := mkdirAll f.refuses out.rooted [] out.names d
      (if made then none else some .mkdir, d)
    | .reg =>
      let (d, made) := mkdirAll f.refuses out.dir.rooted [] out.dir.names d
      if made then extract e out f d else (some .mkdir, d)
    | .other _ => (none, d)

/-- `broken` tells that the header after the last entry cannot be read. -/
def untarUnder (dst : Bytes) (broken : Bool) : List (Entry × Faults) → Disk → Option Error × Disk
  | [], d => (if broken then some .read else none, d)
  | (e, f) :: rest, d =>
    match unpack dst e f d with
    | (some err, d) => (some err, d)
    | (none, d) => if e.broken then (some .read, d) else untarUnder dst broken rest d

/-! ## Cleaned names -/

theorem slash_notMem {text part : Bytes} (h : part ∈ text.splitOn slash) : slash ∉ part := by
  induction text generalizing part with
  | nil => simp_all
  | cons c rest ih =>
    rw [List.splitOn_cons_eq_if_modifyHead] at h
    split at h
    · rcases List.mem_cons.mp h with rfl | h
      · simp
      · exact ih h
    next hc =>
      cases hparts : rest.splitOn slash with
      | nil => exact absurd hparts (List.splitOn_ne_nil _ _)
      | cons first more =>
        rw [hparts, List.modifyHead_cons] at h
        rcases List.mem_cons.mp h with rfl | h
        · have hfirst : slash ∉ first := ih (hparts ▸ (.head _))
          rw [List.mem_cons, not_or]
          exact ⟨fun heq => hc (by rw [heq, beq_self_eq_true]), hfirst⟩
        · exact ih (hparts ▸ .tail _ h)

/-- The parts on the stack stand for themselves, and a `..` among them is not above the
bottom of a relative path without another one at the bottom. -/
structure Tidy (rooted : Bool) (stack : List Bytes) : Prop where
  part : ∀ p ∈ stack, p ≠ [] ∧ p ≠ dot ∧ slash ∉ p
  climb : dotdot ∈ stack → rooted = false ∧ stack.getLast? = some dotdot

theorem Tidy.push {rooted : Bool} {stack : List Bytes} {part : Bytes} (h : Tidy rooted stack)
    (hpart : slash ∉ part) : Tidy rooted (push rooted stack part) := by
  unfold Untar.push
  split
  · exact h
  next hplain =>
    obtain ⟨hne, hdot⟩ := not_or.mp hplain
    split
    · subst part
      cases stack with
      | nil => cases rooted <;> constructor <;> simp [dotdot, dot, slash]
      | cons top below =>
        dsimp only
        have hlast := h.climb
        split
        next htop =>
          refine ⟨by simpa [dotdot, dot, slash] using h.part, fun _ => ?_⟩
          simpa using hlast (by simp [htop])
        · refine ⟨fun p hp => h.part p (.tail _ hp), fun hmem => ?_⟩
          cases below with
          | nil => cases hmem
          | cons => simpa using hlast (.tail _ hmem)
    next hdd =>
      refine ⟨by simpa [hne, hdot, hpart] using h.part, fun hmem => ?_⟩
      rcases List.mem_cons.mp hmem with heq | hmem
      · exact absurd heq.symm hdd
      · cases stack with
        | nil => cases hmem
        | cons => simpa using h.climb hmem

theorem clean_tidy (text : Bytes) : Tidy (clean text).rooted (clean text).names.reverse := by
  have hfold : ∀ parts : List Bytes, (∀ p ∈ parts, slash ∉ p) → ∀ stack, Tidy (isRooted text) stack →
      Tidy (isRooted text) (parts.foldl (push (isRooted text)) stack) := by
    intro parts
    induction parts with
    | nil => exact fun _ _ h => h
    | cons p rest ih =>
      intro hparts stack h
      exact ih (fun q hq => hparts q (.tail _ hq)) _
        (h.push (hparts p (.head _)))
  simpa [clean] using hfold _ (fun p => slash_notMem) [] ⟨by simp, by simp⟩

theorem Path.text_climbs {p : Path} {rest : List Bytes} (hrooted : p.rooted = false)
    (hnames : p.names = dotdot :: rest) : climbs p.text = true := by
  have htext : dotdot <+: p.text := by
    cases rest <;> simp [Path.text, hrooted, hnames, List.intercalate]
  simp [climbs, List.isPrefixOf_iff_prefix.mpr htext]

theorem dotdot_notMem {name : Bytes} (h : climbs (clean name).text = false) :
    dotdot ∉ (clean name).names := by
  intro hmem
  obtain ⟨hrooted, hlast⟩ := (clean_tidy name).climb (List.mem_reverse.mpr hmem)
  rw [List.getLast?_reverse] at hlast
  obtain ⟨rest, hnames⟩ := List.head?_eq_some_iff.mp hlast
  simp [Path.text_climbs hrooted hnames] at h

theorem push_plain (rooted : Bool) {parts : List Bytes}
    (hparts : ∀ p ∈ parts, p ≠ [] ∧ p ≠ dot) (hclimb : dotdot ∉ parts) (stack : List Bytes) :
    parts.foldl (push rooted) stack = parts.reverse ++ stack := by
  induction parts generalizing stack with
  | nil => rfl
  | cons p rest ih =>
    have hp := hparts p (.head _)
    have hdd : p ≠ dotdot := fun h => hclimb (h ▸ (.head _))
    rw [List.foldl_cons, ih (fun q hq => hparts q (.tail _ hq))
      (fun hmem => hclimb (.tail _ hmem))]
    simp [push, hp, hdd]

/-- A name that does not climb is appended to the destination part by part. -/
theorem join_names {dst name : Bytes} (hdst : dst ≠ []) (h : climbs (clean name).text = false) :
    join dst (clean name).text = ⟨(clean dst).rooted, (clean dst).names ++ (clean name).names⟩ := by
  have htidy := clean_tidy name
  have hclimb := dotdot_notMem h
  generalize clean name = c at *
  have hpart : ∀ p ∈ c.names, p ≠ [] ∧ p ≠ dot ∧ slash ∉ p :=
    fun p hp => htidy.part p (List.mem_reverse.mpr hp)
  have hparts : ∀ rooted stack, (c.text.splitOn slash).foldl (push rooted) stack =
      c.names.reverse ++ stack := by
    intro rooted stack
    have hnames := push_plain rooted (fun p hp => ⟨(hpart p hp).1, (hpart p hp).2.1⟩) hclimb stack
    by_cases hnil : c.names = []
    · cases hrooted : c.rooted <;> simp only [Path.text, hrooted, hnil] <;> rfl
    · have hsplit : ([slash].intercalate c.names).splitOn slash = c.names :=
        List.splitOn_intercalate slash (fun p hp => (hpart p hp).2.2) hnil
      cases hrooted : c.rooted
      · simpa [Path.text, hrooted, hnil, hsplit] using hnames
      · have hskip := List.splitOn_append_cons_self (a := slash) [] ([slash].intercalate c.names)
        rw [List.nil_append] at hskip
        simpa [Path.text, hrooted, hskip, hsplit, push] using hnames
  have htext : c.text ≠ [] := by
    intro hnil
    have hempty : c.names = [] := by simpa [hnil, push] using hparts false []
    revert hnil
    cases hrooted : c.rooted <;> simp [Path.text, hrooted, hempty, dot]
  have hroot : isRooted (dst ++ slash :: c.text) = isRooted dst := by
    cases dst with
    | nil => exact absurd rfl hdst
    | cons => rfl
  simp [join, hdst, htext, clean, hroot, List.splitOn_append_cons_self, List.foldl_append, hparts]

/-! ## What one entry does to the disk -/

variable {dst : Bytes} {e : Entry} {d before after : Disk} {dir p : Path}

/-- Only paths in the directory change, and each one that does is among those touched. -/
structure Within (dir : Path) (before after : Disk) : Prop where
  touched : Appends dir.Holds before.touched after.touched
  outside : ∀ p, ¬ dir.Holds p → after.node p = before.node p

theorem Within.refl (dir : Path) (d : Disk) : Within dir d d := ⟨Appends.of_eq rfl, fun _ _ => rfl⟩

theorem Within.trans {a b c : Disk} (h : Within dir a b) (h' : Within dir b c) : Within dir a c :=
  ⟨h.touched.trans h'.touched, fun p hp => (h'.outside p hp).trans (h.outside p hp)⟩

theorem Within.set (hp : dir.Holds p) (d : Disk) (n : Option Node) : Within dir d (d.set p n) := by
  refine ⟨Appends.single hp, fun q hq => ?_⟩
  have hne : q ≠ p := fun heq => hq (heq ▸ hp)
  exact Function.update_of_ne hne n d.node

/-- The directory and those above it exist. -/
def Disk.Stands (d : Disk) (dir : Path) : Prop :=
  ∀ names, names <+: dir.names → d.node ⟨dir.rooted, names⟩ = some .dir

/-- Only directories are new. -/
structure Made (dir : Path) (before after : Disk) : Prop where
  within : Within dir before after
  made : ∀ p, after.node p = before.node p ∨ before.node p = none ∧ after.node p = some .dir

theorem Made.refl (dir : Path) (d : Disk) : Made dir d d := ⟨Within.refl dir d, fun _ => .inl rfl⟩

theorem mkdirAll_made {names : List Bytes} (hclimb : dotdot ∉ names) (refuses : Path → Bool)
    (rest : List Bytes) : ∀ (done : List Bytes) (d : Disk),
    d.Stands dir → done ++ rest <+: dir.names ++ names →
    Made dir d (mkdirAll refuses dir.rooted done rest d).1 := by
  induction rest with
  | nil => exact fun done d _ _ => Made.refl dir d
  | cons name rest ih =>
    intro done d hstands hway
    rw [← List.singleton_append, ← List.append_assoc] at hway
    unfold mkdirAll
    dsimp only
    split
    · exact ih _ d hstands hway
    · exact Made.refl dir d
    next hnone =>
      split
      · exact Made.refl dir d
      · have hhere : done ++ [name] <+: dir.names ++ names := (List.prefix_append _ rest).trans hway
        -- what is on the way to the directory exists, so this one is below it
        have hholds : dir.Holds ⟨dir.rooted, done ++ [name]⟩ := by
          rcases List.prefix_or_prefix_of_prefix hhere (List.prefix_append dir.names names) with
            habove | ⟨below, hbelow⟩
          · simp [hstands _ habove] at hnone
          · refine ⟨rfl, below, hbelow.symm, fun hmem => hclimb ?_⟩
            rw [← hbelow, List.prefix_append_right_inj] at hhere
            exact hhere.subset hmem
        have hstands' : (d.set ⟨dir.rooted, done ++ [name]⟩ (some .dir)).Stands dir := by
          intro above habove
          by_cases heq : above = done ++ [name]
          · simp [Disk.set, heq]
          · simpa [Disk.set, Function.update_of_ne, heq] using hstands above habove
        obtain ⟨hwithin, hmade⟩ := ih _ _ hstands' hway
        refine ⟨(Within.set hholds d _).trans hwithin, fun p => ?_⟩
        by_cases heq : p = ⟨dir.rooted, done ++ [name]⟩
        · subst heq
          right
          simpa [Disk.set, hnone] using hmade ⟨dir.rooted, done ++ [name]⟩
        · simpa [Disk.set, Function.update_of_ne heq] using hmade p

theorem Made.keeps_dir (h : Made dir before after) (hp : before.node p = some .dir) :
    after.node p = some .dir := by
  rcases h.made p with heq | ⟨_, hmade⟩
  · rw [heq, hp]
  · exact hmade

theorem Made.file (h : Made dir before after) {perm : Nat} {content : Bytes}
    (hp : after.node p = some (.file perm content)) :
    before.node p = some (.file perm content) := by
  rcases h.made p with heq | ⟨_, hmade⟩
  · rw [← heq, hp]
  · simp [hmade] at hp

def Entry.LandsAt (e : Entry) (dst : Bytes) (p : Path) : Prop :=
  e.typeflag = .reg ∧ join dst (clean e.name).text = p

instance (e : Entry) (dst : Bytes) (p : Path) : Decidable (e.LandsAt dst p) :=
  inferInstanceAs (Decidable (_ ∧ _))

/-- What `unpack` leaves: directories stay, and without an error a file is new or as before. -/
structure Unpacked (dst : Bytes) (e : Entry) (before : Disk) (r : Option Error × Disk) : Prop where
  within : Within (clean dst) before r.2
  dirs : ∀ p, before.node p = some .dir → r.2.node p = some .dir
  files : r.1 = none → ∀ p perm content, r.2.node p = some (.file perm content) →
    e.LandsAt dst p ∧ content = e.content ∧ content.length ≤ maxUntarFileSize ∨
      ¬ e.LandsAt dst p ∧ before.node p = some (.file perm content)

theorem Unpacked.unchanged (dst : Bytes) {err : Option Error} (d : Disk)
    (h : err = none → e.typeflag ≠ .reg) : Unpacked dst e d (err, d) where
  within := Within.refl _ d
  dirs _ hp := hp
  files herr _ _ _ hp := .inr ⟨fun hreg => h herr hreg.1, hp⟩

theorem Unpacked.of_made {made : Disk} {r : Option Error × Disk}
    (hmade : Made (clean dst) before made) (h : Unpacked dst e made r) :
    Unpacked dst e before r where
  within := hmade.within.trans h.within
  dirs p hp := h.dirs p (hmade.keeps_dir hp)
  files herr p perm content hp :=
    (h.files herr p perm content hp).imp_right fun hkept => ⟨hkept.1, hmade.file hkept.2⟩

theorem openFile_some {refuses : Path → Bool} {perm mode : Nat} {opened : Disk}
    (h : openFile refuses p perm d = some (mode, opened)) :
    d.node p ≠ some .dir ∧ opened = d.set p (some (.file mode [])) := by
  unfold openFile at h
  split at h
  · cases h
  · split at h <;> cases h <;> simp_all

theorem copy_whole {full : Option Nat} (h : (copy e full).2 = false) :
    (copy e full).1 = e.content.take maxUntarFileSize := by
  unfold copy at *
  dsimp only at *
  split at h
  · cases h
  · rfl

theorem extract_unpacked {out : Path} (hreg : e.typeflag = .reg)
    (hout : join dst (clean e.name).text = out) (hholds : (clean dst).Holds out) (f : Faults)
    (d : Disk) : Unpacked dst e d (extract e out f d) := by
  unfold extract
  split
  · exact Unpacked.unchanged dst d nofun
  next perm opened hopen =>
    obtain ⟨hdir, rfl⟩ := openFile_some hopen
    have hset : ∀ (d : Disk) (n : Option Node) p, p ≠ out → (d.set out n).node p = d.node p :=
      fun d n p hp => by simp [Disk.set, hp]
    have hopened := Within.set hholds d (some (.file perm []))
    have hwritten := hopened.trans (Within.set hholds _ (some (.file perm (copy e f.full).1)))
    have hkept : ∀ p, d.node p = some .dir → p ≠ out := fun p hp heq => hdir (heq ▸ hp)
    dsimp only
    split_ifs with hfailed hlimit hstuck
    · exact ⟨hwritten, fun p hp => by simp [hset, hkept p hp, hp], nofun⟩
    · exact ⟨hwritten, fun p hp => by simp [hset, hkept p hp, hp], nofun⟩
    · exact ⟨hwritten.trans (Within.set hholds _ none),
        fun p hp => by simp [hset, hkept p hp, hp], nofun⟩
    · have hwhole := copy_whole (Bool.eq_false_of_not_eq_true hfailed)
      refine ⟨hwritten, fun p hp => by simp [hset, hkept p hp, hp], fun _ p mode content hp => ?_⟩
      by_cases heq : p = out
      · subst heq
        have hfits : e.content.length ≤ maxUntarFileSize := by
          rw [hwhole, List.length_take] at hlimit
          omega
        have hcontent : content = e.content := by
          rw [hwhole, List.take_of_length_le hfits] at hp
          simp [Disk.set] at hp
          exact hp.2.symm
        exact .inl ⟨⟨hreg, hout⟩, hcontent, hcontent ▸ hfits⟩
      · refine .inr ⟨fun h => heq (h.2.symm.trans hout), ?_⟩
        simpa [hset, heq] using hp

theorem unpack_unpacked (hdst : dst ≠ []) (hstands : d.Stands (clean dst)) (e : Entry) (f : Faults) :
    Unpacked dst e d (unpack dst e f d) := by
  unfold unpack
  dsimp only
  split
  · exact Unpacked.unchanged dst d nofun
  next hclimbs =>
    have hclimb := Bool.eq_false_of_not_eq_true hclimbs
    have hnames := join_names hdst hclimb
    have hdd := dotdot_notMem hclimb
    have hholds : (clean dst).Holds (join dst (clean e.name).text) := by
      rw [hnames]
      exact ⟨rfl, _, rfl, hdd⟩
    generalize hout : join dst (clean e.name).text = out at *
    have hrooted : out.rooted = (clean dst).rooted := by rw [hnames]
    have hway : ∀ names, names <+: out.names →
        Made (clean dst) d (mkdirAll f.refuses out.rooted [] names d).1 := by
      intro names hprefix
      rw [hrooted]
      rw [hnames] at hprefix
      exact mkdirAll_made hdd f.refuses names [] d hstands hprefix
    split
    next hflag =>
      apply Unpacked.of_made (hway out.names List.prefix_rfl)
      exact Unpacked.unchanged dst _ (fun _ => by simp [hflag])
    next hflag =>
      apply Unpacked.of_made (hway out.names.dropLast ( List.dropLast_prefix _))
      by_cases hok : (mkdirAll f.refuses out.rooted [] out.names.dropLast d).2 = true
      · simpa [Path.dir, hok] using extract_unpacked hflag hout hholds f _
      · simp only [Path.dir, hok]
        exact Unpacked.unchanged dst _ nofun
    next hflag => exact Unpacked.unchanged dst d (fun _ => by simp [hflag])

/-! ## Whole archives -/

/-- The last regular entry that unpacks to `p`. -/
def lastRegular (dst : Bytes) (p : Path) (entries : List Entry) : Option Entry :=
  (entries.filter fun e => e.LandsAt dst p).getLast?

/-- The files in the directory are those of the entries. -/
def Disk.Unpacks (d : Disk) (dst : Bytes) (entries : List Entry) : Prop :=
  ∀ p perm content, (clean dst).Holds p → d.node p = some (.file perm content) →
    content.length ≤ maxUntarFileSize ∧ (lastRegular dst p entries).map (·.content) = some content

/-- `dst` names an empty directory. -/
structure Disk.Fresh (d : Disk) (dst : Bytes) : Prop where
  named : dst ≠ []
  stands : d.Stands (clean dst)
  empty : ∀ p, (clean dst).Holds p → p ≠ clean dst → d.node p = none
  untouched : d.touched = []

theorem Unpacked.unpacks {done : List Entry} (h : Unpacked dst e d (none, after))
    (hdone : d.Unpacks dst done) : after.Unpacks dst (done ++ [e]) := by
  intro p perm content hp hfile
  rcases h.files rfl p perm content hfile with ⟨hlast, rfl, hlen⟩ | ⟨hother, hfile⟩
  · simp [lastRegular, List.filter_append, hlast, hlen]
  · simpa [lastRegular, List.filter_append, hother] using hdone p perm content hp hfile

theorem untarUnder_run (hdst : dst ≠ []) (broken : Bool) (entries : List (Entry × Faults)) :
    ∀ (done : List Entry) (d : Disk), d.Stands (clean dst) → d.Unpacks dst done →
    Within (clean dst) d (untarUnder dst broken entries d).2 ∧
      ((untarUnder dst broken entries d).1 = none →
        (untarUnder dst broken entries d).2.Unpacks dst (done ++ entries.map (·.1))) := by
  induction entries with
  | nil =>
    intro done d _ hdone
    exact ⟨Within.refl _ d, fun _ => by simpa [untarUnder] using hdone⟩
  | cons i rest ih =>
    intro done d hstands hdone
    have hstep := unpack_unpacked hdst hstands i.1 i.2
    unfold untarUnder
    split
    next hres =>
      rw [hres] at hstep
      exact ⟨hstep.within, nofun⟩
    next after hres =>
      rw [hres] at hstep
      split
      · exact ⟨hstep.within, nofun⟩
      · obtain ⟨hwithin, hnil⟩ := ih (done ++ [i.1]) after
          (fun names hprefix => hstep.dirs _ (hstands names hprefix)) (hstep.unpacks hdone)
        refine ⟨hstep.within.trans hwithin, fun h => ?_⟩
        simpa using hnil h

/-- Whatever the archive and whichever calls fail, every path created, written, truncated or
removed is the directory or below it, nothing else changes, and after a nil return each
file there holds the last regular entry of its name. -/
theorem untarUnder_confined (dst : Bytes) (disk : Disk) (hfresh : disk.Fresh dst) (broken : Bool)
    (entries : List (Entry × Faults)) :
    let r := untarUnder dst broken entries disk
    (∀ p ∈ r.2.touched, (clean dst).Holds p) ∧
      (∀ p, ¬ (clean dst).Holds p → r.2.node p = disk.node p) ∧
      (r.1 = none → ∀ p perm content, (clean dst).Holds p →
        r.2.node p = some (.file perm content) → content.length ≤ maxUntarFileSize ∧
          (lastRegular dst p (entries.map (·.1))).map (·.content) = some content) := by
  have hempty : disk.Unpacks dst [] := by
    intro p perm content hp hfile
    by_cases heq : p = clean dst
    · simp [heq, hfresh.stands _ List.prefix_rfl] at hfile
    · simp [hfresh.empty p hp heq] at hfile
  obtain ⟨hwithin, hfiles⟩ :=
    untarUnder_run hfresh.named broken entries [] disk hfresh.stands hempty
  obtain ⟨added, htouched, hadded⟩ := hwithin.touched
  rw [hfresh.untouched, List.nil_append] at htouched
  refine ⟨fun p hp => hadded p (htouched ▸ hp), hwithin.outside, fun hnil => ?_⟩
  simpa [Disk.Unpacks] using hfiles hnil

def here : Disk := { node := fun p => if p = ⟨false, []⟩ then some .dir else none }

theorem here_fresh : here.Fresh dot where
  named := by decide
  stands names hprefix := by
    have hnil : names = [] := List.prefix_nil.mp hprefix
    subst hnil
    rfl
  empty p _ hne := if_neg hne
  untouched := rfl

/-- The file `a`, and again under the name `/b/../a`. -/
def twice : List (Entry × Faults) :=
  [(⟨[97], .reg, 420, [1], false⟩, {}), (⟨[47, 98, 47, 46, 46, 47, 97], .reg, 420, [2], false⟩, {})]

theorem second_kept : (untarUnder dot false twice here).1 = none ∧
      (untarUnder dot false twice here).2.node ⟨false, [[97]]⟩ = some (.file 420 [2]) ∧
      (lastRegular dot ⟨false, [[97]]⟩ (twice.map (·.1))).map (·.content) = some [2] :=
  have hrun : (untarUnder dot false twice here).1 = none ∧
      (untarUnder dot false twice here).2.node ⟨false, [[97]]⟩ = some (.file 420 [2]) := by decide
  have hin : (clean dot).Holds ⟨false, [[97]]⟩ := ⟨rfl, [[97]], rfl, by decide⟩
  ⟨hrun.1, hrun.2, ((untarUnder_confined dot here here_fresh false twice).2.2 hrun.1 _ _ _ hin
    hrun.2).2⟩

end PilotProtocol.AppStore.Untar
