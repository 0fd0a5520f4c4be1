import PilotProtocol.AppStore.Backup

/-! # The install command

`appstore install` from the point where it holds the app's install lock: repair,
stage the bundle, carry the state, write the manifest last, swap, reconcile, retire
the replaced install, and the records written afterwards.
-/

namespace PilotProtocol.AppStore
open PilotProtocol.Library

/-- A bundle that passed the checks made before the lock: its binary has a path inside the
bundle and the digest the manifest pins. -/
structure Bundle (fmt : Formats) where
  raw : List UInt8
  manifest : Manifest
  binaryPath : Path
  binary : List UInt8
  installJson : Option (List UInt8)
  installSh : Option (List UInt8)
  parsed : fmt.parse raw = some manifest
  located : manifest.binary = some binaryPath
  pinned : fmt.sha256 binary = manifest.sha256

/-- The command's arguments and what it records: the audit line, the next-steps graph and
the bundle digest of the catalogue, when there are any. -/
structure InstallArgs (fmt : Formats) where
  source : InstallSource
  bundle : Bundle fmt
  force : Bool
  resetState : Bool
  wantVersion : String := ""
  auditLine : List UInt8 := []
  nextSteps : Option (List UInt8) := none
  bundleSHA : Option (List UInt8) := none

inductive InstallOutcome
  | alreadyInstalled
  | fatal (cause : Failure)
  | installed (carried : List Path) (reconciled : StateReconcile) (backup : Option Place)

section

variable {fmt : Formats} (cfg : Config) (args : InstallArgs fmt)

def bundleFile (bytes : List UInt8) : File := ⟨bytes, none⟩

def InstallArgs.manifestFile : File := ⟨args.bundle.raw, some args.source⟩

def copyFromBundle (dst : Loc Place) (bytes : List UInt8) : Act (Except Errno Unit) :=
  writeFile dst (bundleFile bytes)

def mkdirAll (p : Place) : List Path → Act (Except Errno Unit)
  | [] => pure (.ok ())
  | path :: rest => do
    match ← lstat (p.at path) with
    | .ok .dir => mkdirAll p rest
    | .ok (.node ..) => pure (.error .other)
    | .error _ => (mkdir (p.at path)).andOk fun _ => mkdirAll p rest

def abandonStaging {α : Type} (code : String) (cause : Option Failure) : Act (Except Failure α) := do
  let _ ← removeAll .staging
  pure (.error (.fatal code cause))

def orAbandon (p : Act (Except Errno Unit)) (next : Act (Except Failure Unit)) :
    Act (Except Failure Unit) := do
  match ← p with
  | .error e => abandonStaging "io_error" (some (.os e))
  | .ok _ => next

def copyAux (name : String) (bytes : Option (List UInt8)) : Act (Except Errno Unit) :=
  match bytes with
  | none => pure (.ok ())
  | some bytes => copyFromBundle (Place.staging.at [name]) bytes

def plantMarker : Act (Except Errno Unit) :=
  match args.source with
  | .localBundle => writeFile (Place.staging.at [sideloadMarkerName]) (bundleFile [])
  | .catalogue => pure (.ok ())

/-- Stages the binary, the aux files and the sideload marker, but not the manifest. -/
def stageBundle : Act (Except Failure Unit) := do
  match ← removeAllForce .staging with
  | .error e => pure (.error (.fatal "io_error" (some (.os e))))
  | .ok _ =>
    match ← mkdirAll .staging [[]] with
    | .error e => pure (.error (.fatal "io_error" (some (.os e))))
    | .ok _ =>
      orAbandon (mkdirAll .staging args.bundle.binaryPath.dropLast.inits) <|
      orAbandon (copyFromBundle (Place.staging.at args.bundle.binaryPath)
        args.bundle.binary) do
          let got ← sha256File fmt (Place.staging.at args.bundle.binaryPath)
          if got ≠ args.bundle.manifest.sha256 then abandonStaging "integrity_error" none
          else
            orAbandon (copyAux "install.json" args.bundle.installJson) <|
            orAbandon (copyAux "install.sh" args.bundle.installSh) <|
            orAbandon (plantMarker args) <| pure (.ok ())

def carryState (oldBinary : Option Path) : Act (Except Failure AppStateCarry) := do
  let (carry, err) ← carryAppState .live .staging oldBinary
  match err with
  | some e => .error <$> withStagingDiscarded .staging e
  | none =>
    match ← verifyCarriedState .staging false carry.carried with
    | .error e => .error <$> withStagingDiscarded .staging e
    | .ok _ => pure (.ok carry)

def writeManifest : Act (Except Failure Unit) := do
  match ← writeFile Place.staging.manifest args.manifestFile with
  | .error e => .error <$> withStagingDiscarded .staging (.os e)
  | .ok _ => pure (.ok ())

def writeInstallAudit : Act Unit := do
  let _ ← Prog.call (.appendFile (Place.live.at [supervisorLogName]) (bundleFile args.auditLine))
  pure ()

def writeRecord (name : String) : Option (List UInt8) → Act Unit
  | none => pure ()
  | some bytes => do
    let _ ← writeFile (Place.live.at [name]) (bundleFile bytes)
    pure ()

def reconcileInstall (oldBinary : Option Path) (carry : Option AppStateCarry)
    (previous : Option Place) : Act StateReconcile :=
  match previous, carry with
  | some prev, some c => reconcileAppState prev .live oldBinary c
  | _, _ => pure {}

def retireInstall (oldVersion : String) (leftover : List Leftover) (previous : Option Place) :
    Act (Option Place) :=
  match previous with
  | none => pure none
  | some prev =>
    Prod.fst <$> retireAppDir fmt cfg prev
      { kind := replacedInstallBackupKind args.resetState leftover oldVersion
          args.bundle.manifest.appVersion
        fromVersion := oldVersion
        toVersion := args.bundle.manifest.appVersion
        notCarried := leftover }

/-- What follows the swap: reconcile, retire, and the records. -/
def finishInstall (old : Option Manifest) (carry : Option AppStateCarry) (previous : Option Place) :
    Act InstallOutcome := do
  let reconciled ← reconcileInstall (old.bind Manifest.binary) carry previous
  let backup ← retireInstall cfg args ((old.map Manifest.appVersion).getD "") reconciled.leftover
    previous
  writeInstallAudit args
  writeRecord nextStepsFileName args.nextSteps
  writeRecord bundleSHAMarker (if args.source = .catalogue then args.bundleSHA else none)
  pure (.installed ((carry.map AppStateCarry.carried).getD []) reconciled backup)

def carryInstall (replacing : Bool) (old : Option Manifest) :
    Act (Except Failure (Option AppStateCarry)) :=
  if replacing && !args.resetState then
    (fun r => r.map some) <$> carryState (old.bind Manifest.binary)
  else pure (.ok none)

def swapInstall (old : Option Manifest) (carry : Option AppStateCarry) : Act InstallOutcome := do
  match ← writeManifest args with
  | .error e => pure (.fatal e)
  | .ok _ =>
    match ← swapInAppDir (verifyInstalledApp fmt .live args.bundle.raw args.bundle.manifest
        ((carry.map AppStateCarry.carried).getD [])) with
    | .error e => pure (.fatal e)
    | .ok previous => finishInstall cfg args old carry previous

def replaceInstall (replacing : Bool) (old : Option Manifest) : Act InstallOutcome := do
  match ← stageBundle args with
  | .error e => pure (.fatal e)
  | .ok _ =>
    match ← carryInstall args replacing old with
    | .error e => pure (.fatal e)
    | .ok carry => swapInstall cfg args old carry

/-- Whether a live install stays as it is: none goes ahead. -/
def alreadyInstalled (im : Manifest) : Option InstallOutcome :=
  if args.force then none
  else if (args.wantVersion ≠ "" ∨ args.source = .localBundle) ∧
      args.bundle.manifest.appVersion ≠ im.appVersion then
    some (.fatal (.fatal "conflict" none))
  else some .alreadyInstalled

def cmdAppStoreInstall : Act InstallOutcome := do
  match ← recoverInterruptedInstall fmt cfg with
  | .error e => pure (.fatal (.fatal "io_error" (some e)))
  | .ok _ =>
    match ← lstat Place.live.dir with
    | .error _ => replaceInstall cfg args false none
    | .ok _ =>
      match ← readInstalledManifest fmt .live with
      | none => replaceInstall cfg args true none
      | some im =>
        match alreadyInstalled args im with
        | some outcome => pure outcome
        | none => replaceInstall cfg args true (some im)

end

/-! ## A small instance

Formats of one or two bytes, in which a manifest is a version and a choice between two
binary paths. Runs of the later modules are shown on it.
-/

namespace Sample

def kindByte : BackupKind → UInt8
  | .upgrade => 0
  | .reinstall => 1
  | .resetState => 2
  | .incomplete => 3
  | .recovered => 4
  | .uninstall => 5
  | .unknown => 6

def byteKind (b : UInt8) : BackupKind :=
  if b = 0 then .upgrade else if b = 1 then .reinstall else if b = 2 then .resetState
  else if b = 3 then .incomplete else if b = 4 then .recovered else if b = 5 then .uninstall
  else .unknown

def binaryOf (b : UInt8) : Path := if b = 0 then ["bin"] else ["data"]

def manifest (version bin : UInt8) : Manifest := ⟨toString version.toNat, some (binaryOf bin), ""⟩

def parse : List UInt8 → Option Manifest
  | [version, bin] => some (manifest version bin)
  | _ => none

def decodeMeta : List UInt8 → Option AppBackupMeta
  | [kind, pin] => some { kind := byteKind kind, pinned := pin = 1 }
  | _ => none

def formats : Formats where
  parse := parse
  sha256 _ := ""
  encodeMeta m := [kindByte m.kind, if m.pinned then 1 else 0]
  decodeMeta := decodeMeta

def bundle (version bin : UInt8) : Bundle formats where
  raw := [version, bin]
  manifest := manifest version bin
  binaryPath := binaryOf bin
  binary := [7]
  installJson := none
  installSh := none
  parsed := rfl
  located := rfl
  pinned := rfl

def args (source : InstallSource) (version bin : UInt8) : InstallArgs formats where
  source := source
  bundle := bundle version bin
  force := true
  resetState := false

def noDisk : Disk := FS.empty fun _ => ⟨.regular, .empty, 0⟩

def quiet (n start : Nat) : List (Choice Place InstallSource) :=
  (List.range n).map fun i => { now := start + i }

end Sample

end PilotProtocol.AppStore
