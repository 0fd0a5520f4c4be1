import PilotProtocol.AppStore.State

/-! # Backups and recovery

A replaced install is retired: moved into a backup location, stripped of what is not
state, given metadata, and older routine backups are pruned. Recovery repairs what
a crashed install left behind; an install starts with it.
-/

namespace PilotProtocol.AppStore
open PilotProtocol.Library

/-! ## Retiring a replaced install -/

def replacedInstallBackupKind (resetState : Bool) (leftover : List Leftover)
    (fromVersion toVersion : String) : BackupKind :=
  if resetState then .resetState
  else if leftover ≠ [] then .incomplete
  else if fromVersion = "" then .recovered
  else if fromVersion ≠ toVersion then .upgrade
  else .reinstall

/-- `unsafeBackupNameChars.ReplaceAllString`. -/
def safeBackupName (version : String) : String :=
  String.ofList <| version.toList.map fun ch =>
    if ch.isAlphanum || ch = '.' || ch = '_' || ch = '+' || ch = '-' then ch else '_'

def backupName (stamp : Nat) (fromVersion : String) : BackupName :=
  ⟨stamp, if fromVersion = "" then "" else "-v" ++ safeBackupName fromVersion⟩

def BackupName.again (name : BackupName) (i : Nat) : BackupName :=
  if i = 0 then name else { name with suffix := name.suffix ++ "." ++ toString i }

/-- Copies one entry; the old binary, sockets and other special files are left out. -/
def copyEntry (src dst : Place) (oldBin : Option Path) (rel : Path) (type : FileType) :
    Act (Except Errno Unit) :=
  match type with
  | .dir => mkdir (dst.at rel)
  | .file kind =>
    if oldBin = some rel then pure (.ok ())
    else
      match kind with
      | .symlink => (readlink (src.at rel)).andOk fun link => symlink link (dst.at rel)
      | .regular => copyFile (src.at rel) (dst.at rel)
      | _ => pure (.ok ())

def copyVisit (src dst : Place) (oldBin : Option Path) (_ : Unit) (ev : Event) :
    Act (Visit Unit Errno) := do
  match ev.error with
  | some e => pure (.stop () e)
  | none =>
    match ← (lstat (src.at ev.path)).andOk fun _ => copyEntry src dst oldBin ev.path ev.type with
    | .error e => pure (.stop () e)
    | .ok _ => pure (.next ())

def copyTreeForBackup (src dst : Place) (oldBin : Option Path) : Act (Except Errno Unit) := do
  match ← walkDir src id () (copyVisit src dst oldBin) with
  | (_, some e) => pure (.error e)
  | (_, none) => pure (.ok ())

def detachFile (l : Loc Place) : Act (Except Errno Unit) := do
  match ← .call (.copyToTemp l l.parent ".detach-") with
  | (none, e) => pure (.error (e.getD .other))
  | (some tmp, some e) =>
    let _ ← remove (l.parent.sub [tmp])
    pure (.error e)
  | (some tmp, none) =>
    match ← (chmod (l.parent.sub [tmp])).andOk fun _ => rename (l.parent.sub [tmp]) l with
    | .error e =>
      let _ ← remove (l.parent.sub [tmp])
      pure (.error e)
    | .ok _ => pure (.ok ())

def Info.size : Info → Nat
  | .node _ _ size _ => size
  | .dir => 0

def stripVisit (p : Place) (_ : Unit) (ev : Event) : Act (Visit Unit Errno) := do
  match ev.error, ev.type with
  | none, .file .socket =>
    let _ ← remove (p.at ev.path)
    pure (.next ())
  | none, .file .regular =>
    match ← lstat (p.at ev.path) with
    | .error _ => pure (.next ())
    | .ok info =>
      if Info.size info > appBackupDetachMax then pure (.next ())
      else
        let _ ← detachFile (p.at ev.path)
        pure (.next ())
  | _, _ => pure (.next ())

def removeOldBinary (p : Place) : Option Path → Act Unit
  | none => pure ()
  | some bin => do
    let _ ← remove (p.at bin)
    pure ()

def stripBackup (p : Place) (oldBinary : Option Path) : Act Unit := do
  removeOldBinary p oldBinary
  let _ ← walkDir p id () (stripVisit p)
  pure ()

variable (fmt : Formats) (cfg : Config)

def metaFile (m : AppBackupMeta) : File := ⟨fmt.encodeMeta m, none⟩

def finishBackup (p : Place) (oldBinary : Option Path) (m : AppBackupMeta) : Act Unit := do
  stripBackup p oldBinary
  let _ ← writeFile (p.at [appBackupMetaName]) (metaFile fmt m)
  pure ()

/-! ## Retention -/

def readBackupMeta (p : Place) : Act (Option AppBackupMeta) := do
  match ← readFile (p.at [appBackupMetaName]) with
  | .error _ => pure none
  | .ok raw => pure (fmt.decodeMeta raw.bytes)

/-- The routine backups found so far, oldest first, by kind. -/
structure ByKind where
  reinstall : List Place := []
  upgrade : List Place := []

def ByKind.add (b : ByKind) (p : Place) (m : Option AppBackupMeta) : ByKind :=
  match m with
  | none => b
  | some m =>
    if m.pinned then b
    else
      match m.kind with
      | .upgrade => { b with upgrade := b.upgrade ++ [p] }
      | .reinstall => { b with reinstall := b.reinstall ++ [p] }
      | _ => b

def oldest (keep : Nat) (list : List Place) : List Place := list.take (list.length - keep)

def removeBackups (removed : List Place) : List Place → Act (List Place)
  | [] => pure removed
  | p :: rest => do
    match ← removeAllForce p with
    | .ok _ => removeBackups (removed ++ [p]) rest
    | .error _ => removeBackups removed rest

def pruneBackupDirs (paths : List Place) (keep : Nat) : Act (List Place) := do
  let byKind ← paths.foldlM (fun b p => b.add p <$> readBackupMeta fmt p) ({} : ByKind)
  let removed ← removeBackups [] (oldest keep byKind.reinstall)
  removeBackups removed (oldest keep byKind.upgrade)

def backupsIn (loc : Location) (places : List Place) : List BackupName :=
  (places.filterMap fun
    | .backup l name => if l = loc then some name else none
    | _ => none).insertionSort BackupName.le

def pruneAppBackups (loc : Location) (keep : Nat) : Act (List Place) := do
  match ← .call .roots with
  | .error _ => pure []
  | .ok places => pruneBackupDirs fmt ((backupsIn loc places).map (.backup loc)) keep

def parkedStamps (places : List Place) : List Nat :=
  (places.filterMap fun
    | .parked stamp => some stamp
    | _ => none).insertionSort (· ≤ ·)

def parkedBackups : Act (List Place) := do
  match ← .call .roots with
  | .error _ => pure []
  | .ok places => pure ((parkedStamps places).map .parked)

def pruneParked (added : Bool) : Act Unit :=
  if added then do
    let paths ← parkedBackups
    let _ ← pruneBackupDirs fmt paths appBackupKeep
    pure ()
  else pure ()

def parkOriginal (src dst : Place) (e : Errno) : Act (Option Place × Option Failure) := do
  let now ← timeNow
  match ← rename src.dir (Place.parked now).dir with
  | .error _ => pure (some dst, some (.originalLeft e src))
  | .ok _ => pure (some dst, some (.originalLeft e (.parked now)))

def copyIntoBackup (src dst : Place) (oldBinary : Option Path) :
    Act (Option Place × Option Failure) := do
  match ← copyTreeForBackup src dst oldBinary with
  | .error e =>
    let _ ← removeAllForce dst
    pure (none, some (.os e))
  | .ok _ =>
    -- A removal that fails halfway must not leave an adoptable dir behind.
    let _ ← disableManifest src
    match ← removeAllForce src with
    | .ok _ => pure (some dst, none)
    | .error e => parkOriginal src dst e

def moveToBackup (src dst : Place) (oldBinary : Option Path) :
    Act (Option Place × Option Failure) := do
  match ← rename src.dir dst.dir with
  | .ok _ => pure (some dst, none)
  | .error .crossDevice => copyIntoBackup src dst oldBinary
  | .error e => pure (none, some (.os e))

def moveIntoBackupLocation (src : Place) (loc : Location) (name : BackupName)
    (oldBinary : Option Path) : Act (Option Place × Option Failure) := do
  match ← .call (.prepare (.backup loc name)) with
  | .error e => pure (none, some (.os e))
  | .ok _ =>
    let dst ← Prog.call (.firstFree fun i => .backup loc (name.again i))
    moveToBackup src dst oldBinary

/-- Leaves the dir in the install root, without a manifest the supervisor would adopt. -/
def parkAppDir (src : Place) (stamp : Nat) (oldBinary : Option Path)
    (m : AppBackupMeta) (failures : List (Location × Option Failure)) :
    Act (Option Place × Option Failure) := do
  let moved ← rename src.dir (Place.parked stamp).dir
  let parked := if moved.toBool then .parked stamp else src
  match ← disableManifest parked with
  | .error e => pure (some parked, some (.notDisabled failures e parked))
  | .ok _ =>
    finishBackup fmt parked oldBinary m
    pruneParked fmt (parked ≠ src)
    pure (some parked, some (.parkedOnly failures parked))

/-- The loop over the locations; `first` holds for the configured one. -/
def retireInto (fmt : Formats) (cfg : Config) (src : Place) (name : BackupName)
    (oldBinary : Option Path) (m : AppBackupMeta) (first : Bool)
    (failures : List (Location × Option Failure)) :
    List Location → Act (Option Place × Option Failure)
  | [] => parkAppDir fmt src name.stamp oldBinary m failures
  | loc :: rest =>
    if loc = .configured ∧ cfg.configured = some true then
      -- Inside the install root.
      retireInto fmt cfg src name oldBinary m false (failures ++ [(loc, none)]) rest
    else do
      match ← moveIntoBackupLocation src loc name oldBinary with
      | (none, err) =>
        retireInto fmt cfg src name oldBinary m false (failures ++ [(loc, err)]) rest
      | (some dst, err) =>
        finishBackup fmt dst oldBinary m
        let _ ← pruneAppBackups fmt loc appBackupKeep
        pure (some dst, if err.isSome then err
          else if first then none else some (.notConfigured failures dst))

/-- Where the backup is, and a warning; without a place it could not be retired. -/
def retireAppDir (src : Place) (m : AppBackupMeta) : Act (Option Place × Option Failure) := do
  let old ← readInstalledManifest fmt src
  let oldBinary := (old.map Manifest.binary).getD m.oldBinary
  let fromVersion := if m.fromVersion = "" then (old.map Manifest.appVersion).getD "" else m.fromVersion
  let now ← timeNow
  retireInto fmt cfg src (backupName now fromVersion) oldBinary
    { m with fromVersion := fromVersion, createdAt := now, pinned := !backupKindRotated m.kind }
    true [] (backupLocations cfg)

/-! ## Recovery -/

inductive Note
  | restored
  | movedTo (backup : Place)
  | removedStaging

def retirePrevious : Act (Except Failure (List Note)) := do
  match ← retireAppDir fmt cfg .previous
      { kind := .recovered, reason := "left behind by an interrupted install" } with
  | (none, err) => pure (.error (.retire err))
  | (some backup, _) => pure (.ok [.movedTo backup])

/-- The first half: what to do about a previous dir. -/
def recoverPrevious : Act (Except Failure (List Note)) := do
  match ← lstat Place.previous.dir with
  | .error _ => pure (.ok [])
  | .ok _ =>
    match ← lstat Place.live.dir with
    | .error .notExist =>
      match ← rename Place.previous.dir Place.live.dir with
      | .error e => pure (.error (.restore e))
      | .ok _ => pure (.ok [.restored])
    | _ => retirePrevious fmt cfg

def recoverInterruptedInstall : Act (Except Failure (List Note)) :=
  (recoverPrevious fmt cfg).andOk fun notes => do
    match ← lstat Place.staging.dir with
    | .error _ => pure (.ok notes)
    | .ok _ =>
      match ← discardStagingDir .staging with
      | .error e => pure (.error e)
      | .ok _ => pure (.ok (notes ++ [.removedStaging]))

end PilotProtocol.AppStore
