import PilotProtocol.Library.FileProgram
import PilotProtocol.Library.GoMap

/-! # App state across a replacing install

The steps an install takes to keep the state of the app it replaces: the state is
linked or copied into the staging dir, the dirs are swapped, what the old process
changed meanwhile is brought over, and the old dir becomes a backup. Each system
call is one operation of the file system, so a run can fail or end at any of them.

The dirs concerned are those directly under the install root (the live one,
staging, previous and the parked ones) and the backups in each backup location.
-/

namespace PilotProtocol.AppStore
open PilotProtocol.Library

/-! ## Dirs and formats -/

inductive InstallSource
  | catalogue
  | localBundle
  deriving DecidableEq

/-- A place backups are kept in: the configured backup root, the default one beside the
install root, and the dot-dir inside the install root. -/
inductive Location
  | configured
  | beside
  | inRoot
  deriving DecidableEq

/-- A backup's name, which starts with a timestamp of fixed width. -/
structure BackupName where
  stamp : Nat
  suffix : String
  deriving DecidableEq

/-- Names are ordered as their texts are: by time, then by what follows. -/
def BackupName.le (a b : BackupName) : Prop :=
  a.stamp < b.stamp ∨ a.stamp = b.stamp ∧ a.suffix ≤ b.suffix

instance : DecidableRel BackupName.le := fun _ _ => inferInstanceAs (Decidable (_ ∨ _))

inductive Place
  | live
  | staging
  | previous
  | parked (stamp : Nat)
  | backup (loc : Location) (name : BackupName)
  deriving DecidableEq

abbrev Disk := FS Place InstallSource

abbrev File := Data InstallSource

abbrev Act := Prog (FileOp Place InstallSource)

/-- `$PILOT_APPSTORE_BACKUP_ROOT`, when it names another dir than the default one: whether
that dir lies inside the install root. -/
structure Config where
  configured : Option Bool

def backupLocations (cfg : Config) : List Location :=
  match cfg.configured with
  | none => [.beside, .inRoot]
  | some _ => [.configured, .beside, .inRoot]

/-- `binary` is the path as `filepath.Clean` leaves it; none when it is empty or leads out
of the dir. -/
structure Manifest where
  appVersion : String
  binary : Option Path
  sha256 : String
  deriving DecidableEq

inductive BackupKind
  | upgrade | reinstall | resetState | incomplete | recovered | uninstall | unknown
  deriving DecidableEq

def backupKindRotated (kind : BackupKind) : Bool := kind = .upgrade || kind = .reinstall

/-- What stayed only in the old dir: an entry, or a dir with all it holds. -/
inductive Leftover
  | entry (rel : Path)
  | dir (rel : Path)
  deriving DecidableEq

structure AppBackupMeta where
  kind : BackupKind
  fromVersion : String := ""
  toVersion : String := ""
  pinned : Bool := false
  reason : String := ""
  notCarried : List Leftover := []
  createdAt : Nat := 0
  oldBinary : Option Path := none

structure Formats where
  parse : List UInt8 → Option Manifest
  sha256 : List UInt8 → String
  encodeMeta : AppBackupMeta → List UInt8
  decodeMeta : List UInt8 → Option AppBackupMeta

def appBackupKeep : Nat := 3

def appBackupDetachMax : Nat := 2 ^ 20

def manifestName : String := "manifest.json"

def disabledManifestName : String := "manifest.json.disabled"

def sideloadMarkerName : String := ".sideloaded"

def appBackupMetaName : String := ".pilot-backup.json"

def bundleSHAMarker : String := ".bundle-sha256"

def nextStepsFileName : String := "next-steps.json"

def supervisorLogName : String := "supervisor.log"

def appDirControlFiles : List String :=
  [manifestName, "install.json", "install.sh", sideloadMarkerName, ".suspended", ".resume",
    bundleSHAMarker, nextStepsFileName, ".next-steps.checked", ".next-steps.retry", "app.sock",
    appBackupMetaName]

def Place.at (p : Place) (path : Path) : Loc Place := ⟨p, path⟩

def Place.dir (p : Place) : Loc Place := ⟨p, []⟩

def Place.manifest (p : Place) : Loc Place := ⟨p, [manifestName]⟩

def baseName (rel : Path) : String := rel.getLastD ""

/-- Entries that are never app state: top-level control files and the old binary. -/
def skipStateEntry (rel : Path) (oldBin : Option Path) : Bool :=
  (rel.length = 1 && appDirControlFiles.contains (baseName rel)) || oldBin = some rel

def volatileStateFile (rel : Path) : Bool :=
  ["-journal", "-wal", "-shm", ".lock", ".pid", ".tmp", "~"].any fun suffix =>
    (baseName rel).endsWith suffix

inductive Failure
  | os (e : Errno)
  | carry (rel : Path) (e : Errno)
  | missing (rel : Path) (e : Errno)
  | readManifest (e : Errno)
  | manifestDiffers
  | binaryPath
  | binaryDiffers
  | previousExists
  | moveAside (e : Errno)
  | moveIntoPlace (e : Errno)
  | verify (cause : Failure)
  | rejectedNotMoved (cause : Failure) (e : Errno) (previous : Option Place)
  | restored (cause : Failure)
  | notRestored (cause : Failure) (e : Errno) (previous : Option Place)
  | notRemoved (e : Errno) (disable : Option Errno)
  | both (cause also : Failure)
  | restore (e : Errno)
  | retire (cause : Option Failure)
  | notConfigured (failures : List (Location × Option Failure)) (kept : Place)
  | originalLeft (e : Errno) (rest : Place)
  | parkedOnly (failures : List (Location × Option Failure)) (kept : Place)
  | notDisabled (failures : List (Location × Option Failure)) (e : Errno) (kept : Place)
  | fatal (code : String) (cause : Option Failure)

/-! ## Operations by their Go names -/

def lstat (l : Loc Place) : Act (Except Errno Info) := .call (.lstat l)

def readlink (l : Loc Place) : Act (Except Errno File) := .call (.readlink l)

def readFile (l : Loc Place) : Act (Except Errno File) := .call (.readFile l)

def mkdir (l : Loc Place) : Act (Except Errno Unit) := .call (.mkdir l)

def symlink (target : File) (l : Loc Place) : Act (Except Errno Unit) := .call (.symlink target l)

variable (old new : Place) (c : AppStateCarry) (src dst : Loc Place)

def linkFile : Act (Except Errno Unit) := .call (.link src dst)

def remove (l : Loc Place) : Act (Except Errno Unit) := .call (.remove l)

def rename (src dst : Loc Place) : Act (Except Errno Unit) := .call (.rename src dst)

def removeAll (p : Place) : Act (Except Errno Unit) := .call (.removeAll p.dir)

def chmod (l : Loc Place) : Act (Except Errno Unit) := .call (.chmod l)

def timeNow : Act Nat := .call .now

/-- `filepath.WalkDir`: the visitor's last state, and the error it stopped with. -/
def walkDir {α ε : Type} (p : Place) (root : Errno → ε) (a : α)
    (fn : α → Event → Act (Visit α ε)) : Act (α × Option ε) := do
  match ← .call (.walk p) with
  | .error e => pure (a, some (root e))
  | .ok events => visitAll fn events [] a

def writeFile (l : Loc Place) (data : File) : Act (Except Errno Unit) := .call (.writeFile l data)

def copyFile (src dst : Loc Place) : Act (Except Errno Unit) := .call (.copyFile src dst)

def linkOrCopy : Act (Except Errno Unit) := do
  match ← linkFile src dst with
  | .ok _ => pure (.ok ())
  | .error .notExist => pure (.error .notExist)
  | .error _ => (lstat src).andOk fun _ => copyFile src dst

/-- `sha256File`: empty when the file cannot be read. -/
def sha256File (fmt : Formats) (l : Loc Place) : Act String := do
  match ← readFile l with
  | .ok data => pure (fmt.sha256 data.bytes)
  | .error _ => pure ""

def readInstalledManifest (fmt : Formats) (p : Place) : Act (Option Manifest) := do
  match ← readFile p.manifest with
  | .ok data => pure (fmt.parse data.bytes)
  | .error _ => pure none

def openDirs (p : Place) : Act Unit := do
  let _ ← walkDir p id () fun _ ev => do
    if ev.error = none ∧ ev.type = .dir then
      match ← lstat (p.at ev.path) with
      | .ok _ =>
        let _ ← chmod (p.at ev.path)
        pure (Visit.next ())
      | .error _ => pure (Visit.next ())
    else pure (Visit.next ())

def removeAllForce (p : Place) : Act (Except Errno Unit) := do
  match ← removeAll p with
  | .ok _ => pure (.ok ())
  | .error _ =>
    openDirs p
    removeAll p

/-! ## Carry -/

structure CarriedEntry where
  src : Info
  dst : Info
  target : File

structure AppStateCarry where
  carried : List Path := []
  unreadable : List Path := []
  entries : GoMap Path CarriedEntry := ∅
  dirs : List Path := []
  created : List Path := []

def AppStateCarry.record (rel : Path) (src : Info) (dst : Loc Place)
    (target : File) : Act AppStateCarry := do
  let c := { c with carried := c.carried ++ [rel] }
  match ← lstat dst with
  | .ok di => pure { c with entries := c.entries.insert rel ⟨src, di, target⟩ }
  | .error _ => pure c

/-- Unless the entry is gone, which is no error. -/
def orGone (gone : Visit AppStateCarry Failure) (e : Errno) : Visit AppStateCarry Failure :=
  if e = .notExist then gone else .stop c (.os e)

/-- Drops the empty copy made on the first visit of a dir that cannot be listed. -/
def dropCreated (new : Place) (c : AppStateCarry) (rel : Path) : Act AppStateCarry :=
  if rel ∈ c.created then do
    let _ ← remove (new.at rel)
    pure { c with
      created := c.created.filter (· ≠ rel)
      dirs := c.dirs.filter (· ≠ rel) }
  else pure c

def carryUnread (new : Place) (c : AppStateCarry) (rel : Path) (e : Errno) :
    Act (Visit AppStateCarry Failure) := do
  if rel = [] then pure (.stop c (.os e))
  else
    match e with
    | .notExist => pure (.next c)
    | .permission =>
      let c ← dropCreated new c rel
      pure (.skipDir { c with unreadable := c.unreadable ++ [rel] })
    | e => pure (.stop c (.os e))

def carryDir (rel : Path) (existing : Except Errno Info) : Act (Visit AppStateCarry Failure) := do
  match existing with
  | .ok .dir => pure (.next { c with dirs := rel :: c.dirs })
  | .ok (.node ..) => pure (.skipDir c)
  | .error _ =>
    match ← lstat (old.at rel) with
    | .error e => pure (orGone c (.skipDir c) e)
    | .ok _ =>
      match ← mkdir (new.at rel) with
      | .error e => pure (.stop c (.carry rel e))
      | .ok _ => pure (.next { c with dirs := rel :: c.dirs, created := rel :: c.created })

def carrySymlink (rel : Path) : Act (Visit AppStateCarry Failure) := do
  match ← lstat (old.at rel) with
  | .error e => pure (orGone c (.next c) e)
  | .ok src =>
    match ← readlink (old.at rel) with
    | .error e => pure (orGone c (.next c) e)
    | .ok target =>
      match ← symlink target (new.at rel) with
      | .error e => pure (.stop c (.carry rel e))
      | .ok _ => .next <$> c.record rel src (new.at rel) target

def carryRegular (rel : Path) : Act (Visit AppStateCarry Failure) := do
  match ← lstat (old.at rel) with
  | .error e => pure (orGone c (.next c) e)
  | .ok src =>
    match ← linkOrCopy (old.at rel) (new.at rel) with
    | .error .notExist => pure (.next c)
    | .error .permission =>
      let _ ← remove (new.at rel)
      pure (.next { c with unreadable := c.unreadable ++ [rel] })
    | .error e => pure (.stop c (.carry rel e))
    | .ok _ => .next <$> c.record rel src (new.at rel) .empty

def carryVisit (oldBin : Option Path) (c : AppStateCarry) (ev : Event) :
    Act (Visit AppStateCarry Failure) := do
  let rel := ev.path
  match ev.error with
  | some e => carryUnread new c rel e
  | none =>
    if rel = [] then pure (.next c)
    else if skipStateEntry rel oldBin then
      pure (if ev.type = .dir then .skipDir c else .next c)
    else
      let existing ← lstat (new.at rel)
      match ev.type with
      | .dir => carryDir old new c rel existing
      | .file .symlink =>
        if existing.toBool then pure (.next c) else carrySymlink old new c rel
      | .file .regular =>
        if existing.toBool || (baseName rel).endsWith ".sock" then pure (.next c)
        else carryRegular old new c rel
      -- Sockets, named pipes and devices are runtime objects, not state.
      | .file _ => pure (.next c)

def carryAppState (oldBin : Option Path) : Act (AppStateCarry × Option Failure) :=
  walkDir old .os {} (carryVisit old new oldBin)

def verifyCarriedState (dir : Place) (skipVolatile : Bool) : List Path → Act (Except Failure Unit)
  | [] => pure (.ok ())
  | rel :: rest =>
    if skipVolatile && volatileStateFile rel then verifyCarriedState dir skipVolatile rest
    else do
      match ← lstat (dir.at rel) with
      | .error e => pure (.error (.missing rel e))
      | .ok _ => verifyCarriedState dir skipVolatile rest

def verifyInstalledApp (fmt : Formats) (dir : Place) (wantManifest : List UInt8) (m : Manifest)
    (carried : List Path) : Act (Except Failure Unit) := do
  match ← readFile dir.manifest with
  | .error e => pure (.error (.readManifest e))
  | .ok raw =>
    if raw.bytes ≠ wantManifest then pure (.error .manifestDiffers)
    else
      match m.binary with
      | none => pure (.error .binaryPath)
      | some bin =>
        let got ← sha256File fmt (dir.at bin)
        if got ≠ m.sha256 then pure (.error .binaryDiffers)
        else verifyCarriedState dir true carried

/-! ## Swap -/

def disableManifest (p : Place) : Act (Except Errno Unit) := do
  match ← rename p.manifest (p.at [disabledManifestName]) with
  | .error .notExist => pure (.ok ())
  | r => pure r

def discardStagingDir (p : Place) : Act (Except Failure Unit) := do
  match ← lstat p.dir with
  | .error .notExist => pure (.ok ())
  | _ =>
    match ← removeAllForce p with
    | .ok _ => pure (.ok ())
    | .error rmErr =>
      match ← disableManifest p with
      | .error e => pure (.error (.notRemoved rmErr (some e)))
      | .ok _ => pure (.error (.notRemoved rmErr none))

def withStagingDiscarded (p : Place) (cause : Failure) : Act Failure := do
  match ← discardStagingDir p with
  | .error e => pure (.both cause e)
  | .ok _ => pure cause

def locatePreviousInstall : Act (Option Place) := do
  match ← lstat Place.previous.dir with
  | .ok _ => pure (some .previous)
  | .error _ =>
    match ← lstat Place.live.dir with
    | .ok _ => pure (some .live)
    | .error _ => pure none

/-- Puts the previous install back, once nothing is in its place. -/
def restorePrevious (hadOld : Bool) (cause : Failure) : Act Failure :=
  if hadOld then do
    let restored ← rename Place.previous.dir Place.live.dir
    let cause ← withStagingDiscarded .staging cause
    match restored with
    | .error e =>
      let found ← locatePreviousInstall
      pure (.notRestored cause e found)
    | .ok _ => pure (.restored cause)
  else withStagingDiscarded .staging cause

def rollback (placed hadOld : Bool) (cause : Failure) : Act Failure :=
  if placed then do
    -- The rejected new dir goes back to the staging path.
    match ← rename Place.live.dir Place.staging.dir with
    | .error e =>
      if hadOld then do
        let found ← locatePreviousInstall
        pure (.rejectedNotMoved cause e found)
      else pure (.rejectedNotMoved cause e none)
    | .ok _ => restorePrevious hadOld cause
  else restorePrevious hadOld cause

def placeStaging (hadOld : Bool) (verify : Act (Except Failure Unit)) :
    Act (Except Failure (Option Place)) := do
  match ← rename Place.staging.dir Place.live.dir with
  | .error e => .error <$> rollback false hadOld (.moveIntoPlace e)
  | .ok _ =>
    match ← verify with
    | .error e => .error <$> rollback true hadOld (.verify e)
    | .ok _ => pure (.ok (if hadOld then some .previous else none))

def swapInAppDir (verify : Act (Except Failure Unit)) : Act (Except Failure (Option Place)) := do
  match ← lstat Place.previous.dir with
  | .ok _ => .error <$> withStagingDiscarded .staging .previousExists
  | .error _ =>
    match ← lstat Place.live.dir with
    | .ok _ =>
      match ← rename Place.live.dir Place.previous.dir with
      | .error e => .error <$> withStagingDiscarded .staging (.moveAside e)
      | .ok _ => placeStaging true verify
    | .error _ => placeStaging false verify

/-! ## Reconcile -/

structure StateReconcile where
  updated : List Path := []
  removed : List Path := []
  leftover : List Leftover := []

def sameStateEntry : Info → Info → Bool
  | .node i _ size mtime, .node i' _ size' mtime' => i = i' && size = size' && mtime = mtime'
  | _, _ => false

def readlinkIs (l : Loc Place) (target : File) : Act Bool := do
  match ← readlink l with
  | .ok got => pure (got.bytes = target.bytes)
  | .error _ => pure false

def Info.isSymlink : Info → Bool
  | .node _ kind _ _ => kind = .symlink
  | .dir => false

def moveStateEntry : Act (Except Errno Unit) := do
  match ← lstat dst with
  | .ok _ => pure (.error .exist)
  | .error _ =>
    match ← rename src dst with
    | .error .permission =>
      -- Moving a dir to a new parent needs write access to the dir itself.
      match ← lstat src with
      | .ok .dir =>
        match ← chmod src with
        | .error _ => pure (.error .permission)
        | .ok _ =>
          match ← rename src dst with
          | .error e =>
            let _ ← chmod src
            pure (.error e)
          | .ok _ =>
            let _ ← chmod dst
            pure (.ok ())
      | _ => pure (.error .permission)
    | r => pure r

def placeStateEntry (info : Info) : Act (Except Errno Unit) := do
  if Info.isSymlink info then
    match ← readlink src with
    | .error e => pure (.error e)
    | .ok target => symlink target dst
  else
    match ← linkOrCopy src dst with
    | .error .permission =>
      let _ ← remove dst
      moveStateEntry src dst
    | r => pure r

def reconcileTempName (now : Nat) (base : String) : String :=
  ".pilot-reconcile-" ++ (toString now ++ "-" ++ base)

def reconcileTemp (now : Nat) (dst : Loc Place) : Loc Place :=
  dst.parent.sub [reconcileTempName now (baseName dst.path)]

def replaceStateEntry (info : Info) : Act (Except Errno Unit) := do
  let now ← timeNow
  match ← placeStateEntry src (reconcileTemp now dst) info with
  | .error e =>
    let _ ← remove (reconcileTemp now dst)
    pure (.error e)
  | .ok _ =>
    match ← rename (reconcileTemp now dst) dst with
    | .error e =>
      let _ ← remove (reconcileTemp now dst)
      pure (.error e)
    | .ok _ => pure (.ok ())

def moveUnreadable (r : StateReconcile) (rel : Path) : Act StateReconcile := do
  match ← moveStateEntry (old.at rel) (new.at rel) with
  | .ok _ => pure { r with updated := r.updated ++ [rel] }
  | .error _ =>
    match ← lstat (old.at rel) with
    | .error .notExist => pure r
    | _ => pure { r with leftover := r.leftover ++ [.entry rel] }

/-- What a visit of the old dir keeps: the dirs made so far, and the result. -/
structure Reconciling where
  dirs : List Path
  result : StateReconcile

def Reconciling.update (b : Reconciling) (rel : Path) : Reconciling :=
  { b with result := { b.result with updated := b.result.updated ++ [rel] } }

def Reconciling.leave (b : Reconciling) (x : Leftover) : Reconciling :=
  { b with result := { b.result with leftover := b.result.leftover ++ [x] } }

def Reconciling.brought (b : Reconciling) (rel : Path) (p : Act (Except Errno Unit)) :
    Act (Visit Reconciling Errno) := do
  match ← p with
  | .error _ => pure (.next (b.leave (.entry rel)))
  | .ok _ => pure (.next (b.update rel))

def reconcileDir (b : Reconciling) (rel : Path) (live : Except Errno Info) :
    Act (Visit Reconciling Errno) := do
  match live with
  | .ok .dir => pure (.next b)
  | .ok (.node ..) => pure (.skipDir b)
  | .error e =>
    if rel ∈ b.dirs ∨ e ≠ .notExist then pure (.skipDir b)
    else
      match ← lstat (old.at rel) with
      | .error _ => pure (.skipDir b)
      | .ok _ =>
        match ← mkdir (new.at rel) with
        | .error _ => pure (.skipDir (b.leave (.dir rel)))
        | .ok _ => pure (.next { b with dirs := rel :: b.dirs })

/-- An entry that was carried: taken again if the old dir's changed and the new dir's did
not. -/
def reconcileCarried (b : Reconciling) (rel : Path) (isSymlink : Bool)
    (e : CarriedEntry) (cur live : Info) : Act (Visit Reconciling Errno) := do
  if !sameStateEntry live e.dst then pure (.next b)
  else if sameStateEntry cur e.src then
    if isSymlink then
      if ← readlinkIs (old.at rel) e.target then pure (.next b)
      else b.brought rel (replaceStateEntry (old.at rel) (new.at rel) cur)
    else pure (.next b)
  else b.brought rel (replaceStateEntry (old.at rel) (new.at rel) cur)

def reconcileFile (entries : GoMap Path CarriedEntry) (b : Reconciling)
    (rel : Path) (isSymlink : Bool) (live : Except Errno Info) : Act (Visit Reconciling Errno) := do
  match ← lstat (old.at rel) with
  | .error _ => pure (.next b)
  | .ok cur =>
    match entries.lookup rel, live with
    | none, .error .notExist =>
      b.brought rel (placeStateEntry (old.at rel) (new.at rel) cur)
    | none, _ => pure (.next b)
    | some _, .error _ => pure (.next b)
    | some e, .ok live => reconcileCarried old new b rel isSymlink e cur live

def reconcileVisit (oldBin : Option Path) (c : AppStateCarry)
    (b : Reconciling) (ev : Event) : Act (Visit Reconciling Errno) := do
  let rel := ev.path
  match ev.error with
  | some e => pure (if rel = [] then .stop b e else .next b)
  | none =>
    if rel = [] then pure (.next b)
    else if skipStateEntry rel oldBin || rel ∈ c.unreadable then
      pure (if ev.type = .dir then .skipDir b else .next b)
    else
      let live ← lstat (new.at rel)
      match ev.type with
      | .dir => reconcileDir old new b rel live
      | .file .regular =>
        if (baseName rel).endsWith ".sock" then pure (.next b)
        else reconcileFile old new c.entries b rel false live
      | .file .symlink => reconcileFile old new c.entries b rel true live
      | .file _ => pure (.next b)

/-- Drops a volatile file that the app deleted from the old dir after the carry. -/
def dropVolatile (r : StateReconcile) (rel : Path) (e : CarriedEntry) : Act StateReconcile := do
  if !volatileStateFile rel then pure r
  else
    match ← lstat (old.at rel) with
    | .error .notExist =>
      match ← lstat (new.at rel) with
      | .error _ => pure r
      | .ok live =>
        if !sameStateEntry live e.dst then pure r
        else
          match ← remove (new.at rel) with
          | .ok _ => pure { r with removed := r.removed ++ [rel] }
          | .error _ => pure r
    | _ => pure r

def reconcileAppState (oldBin : Option Path) (c : AppStateCarry) : Act StateReconcile := do
  let r ← c.unreadable.foldlM (moveUnreadable old new) {}
  let (b, _) ← walkDir old id ⟨c.dirs, r⟩ (reconcileVisit old new oldBin c)
  c.entries.entries.foldlM (fun r e => dropVolatile old new r e.1 e.2) b.result

end PilotProtocol.AppStore
