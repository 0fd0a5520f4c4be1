import Mathlib.Data.List.Infix
import PilotProtocol.AppStore.Sideload

/-! # Installs keep sideloads apart

Each function of an install keeps marker and manifest in agreement at every moment.
Two steps need more than the operations they come to: a parked dir is stripped once
its manifest is known to be gone, and the manifest is written once staging is known
to hold the marker or not, as the source asks.
-/

namespace PilotProtocol.AppStore.Sideload
open PilotProtocol.Library Machine Sample

/-! ## Rules -/

theorem tidy_quiet : Quiet Tidy := fun _ _ _ _ h => h.1

theorem keeps_walkDir {K : Disk → Prop} {α ε : Type} (hK : Steady K) (p : Place) (root : Errno → ε)
    (a : α) {fn : α → Event → Act (Visit α ε)} (hfn : ∀ a ev, Keeps K (fn a ev)) :
    Keeps K (walkDir p root a fn) := by
  have hvisit : ∀ a ev, Keeps K (visit fn a ev) := by
    intro a ev
    refine keeps_bind (hfn a _) fun v => ?_
    cases v with
    | next a =>
      dsimp only
      split
      · exact hfn a ev
      · exact keeps_pure _
    | skipDir a | stop a e => exact keeps_pure _
  refine keeps_bind (keeps_call (looks_keeping hK _ _ trivial)) fun r => ?_
  cases r with
  | error e => exact keeps_pure _
  | ok events =>
    intro s hs
    refine wp_visitAll (fun _ _ _ s => K s) (fun _ ev _ _ _ a s hs _ => ?_)
      (fun _ _ _ _ _ _ _ hs _ => hs) (fun _ _ _ hs => hs) hs
    refine wp_mono (hvisit a ev s hs) fun v s hs => ?_
    cases v <;> exact hs

section

variable {α β : Type} {p : Act α} {K : Disk → Prop} {s : Disk} {Q : α → Disk → Prop}

theorem wp_then {f : α → Act β} {R : β → Disk → Prop} (h : fileMachine.wp Tidy Safe p Q s)
    (hf : ∀ a s, Q a s → fileMachine.wp Tidy Safe (f a) R s) :
    fileMachine.wp Tidy Safe (p >>= f) R s := by
  rw [wp_bind]
  exact wp_mono h hf

theorem wp_safe (hK : ∀ s, K s → Safe s) (h : fileMachine.wp Tidy K p Q s) :
    fileMachine.wp Tidy Safe p Q s :=
  wp_weaken h hK fun _ _ _ _ h => h

end

abbrev OnOk {ε : Type} (R : Disk → Prop) (r : Except ε Unit) (s : Disk) : Prop :=
  Safe s ∧ (r = .ok () → R s)

theorem keeps_withStagingDiscarded (p : Place) (cause : Failure) :
    Keeps Safe (withStagingDiscarded p cause) :=
  keeps_of_sat (sat_withStagingDiscarded (looks_keeping steady_safe) (keeping_removeAll p)
    (keeping_disable p) cause)

variable {p src : Place} {s m : Disk} {behind : Option (Loc Place)} (fmt : Formats) (cfg : Config)

theorem wp_abandonStaging {R : Disk → Prop} (code : String) (cause : Option Failure) (hs : Safe s) :
    fileMachine.wp Tidy Safe (abandonStaging code cause) (OnOk R) s :=
  wp_then (keeps_call (keeping_removeAll .staging) s hs) fun _ _ hs => ⟨hs, nofun⟩

/-- What ends a failed install. -/
theorem wp_failed {α : Type} {R : α → Disk → Prop} (e : Failure) (hs : Safe s) :
    fileMachine.wp Tidy Safe (Except.error <$> withStagingDiscarded .staging e)
      (fun r s => Safe s ∧ ∀ a, r = .ok a → R a s) s := by
  rw [wp_map]
  exact wp_mono (keeps_withStagingDiscarded _ e s hs) fun _ _ hs => ⟨hs, nofun⟩

theorem name_notMark (p : Place) {n : String} (hmanifest : n ≠ manifestName)
    (hmarker : n ≠ sideloadMarkerName) : NotMark (p.at [n]) :=
  Plain.notMark (.inr ⟨List.cons_ne_nil n [], fun h => hmanifest (List.cons.inj h).1,
    fun h => hmarker (List.cons.inj h).1⟩)

/-! ## A parked dir -/

def Bare (p : Place) (s : Disk) : Prop := Safe s ∧ s.find p.manifest = none

theorem steady_bare (hp : underRoot p = true) : Steady (Bare p) :=
  fun _ _ hs => ⟨hs.1, fun hm => ⟨hm.safe hs.1, (hm.manifest p hp).trans hs.2⟩⟩

theorem keeping_remove (p : Place) (rel : Path) : Keeping (Bare p) _ (.remove (p.at rel)) := by
  refine keeping_of_effect fun {c s m} _ hs heffect => ?_
  obtain ⟨-, hleaf, rfl⟩ := FS.remove_ok heffect
  have hfind : ∀ {l e}, (s.erase (p.at rel)).find l = some e → s.find l = some e := by
    intro l e hl
    rw [FS.find_erase hleaf] at hl
    split at hl
    · cases hl
    · exact hl
  have hnone : (s.erase (p.at rel)).find p.manifest = none := by
    rw [FS.find_erase hleaf, hs.2, ite_self]
  refine ⟨safe_without hs.1 (FS.inode_erase s _) hnone (fun l hl => ?_)
    fun l i hl hi => ⟨l, hl, hfind hi⟩, hnone⟩
  rw [FS.find_erase hleaf, if_neg]
  rintro rfl
  exact hl rfl

/-- A rename inside the dir, onto anything but the manifest or what holds it. -/
theorem keeping_inside {a b : Path} {tmp : String} (ha : (p.at b).parent.sub [tmp] = p.at a)
    (hb : b ≠ [manifestName]) : Keeping (Bare p) _ (.rename (p.at a) (p.at b)) := by
  refine keeping_of_effect fun {c s m} _ hs heffect => ?_
  obtain ⟨hsrc, hinode, -, ⟨rfl, -⟩ | ⟨hfind, -, hgives⟩⟩ := FS.rename_ok heffect
  · exact hs
  have hnil : b ≠ [] := by
    rintro rfl
    exact hgives.not_below hsrc (List.cons_ne_nil tmp []) ha.symm
  have hrest : (p.at b).rest p.manifest = none := by
    rw [Loc.rest_eq_none]
    intro t ht
    obtain ⟨-, hpath⟩ := Loc.mk.inj ht
    cases b with
    | nil => exact hnil rfl
    | cons x rest =>
      obtain ⟨rfl, hnone⟩ := List.cons.inj hpath
      exact hb (by rw [(List.append_eq_nil_iff.mp hnone.symm).1])
  have hnone : m.find p.manifest = none := by
    rw [hfind, FS.moved, hrest]
    rw [hs.2, ite_self]
  exact ⟨safe_of_inside hs.1 hinode hfind hnone, hnone⟩

theorem detachAllowed (hp : underRoot p = true) {rel : Path} (hrel : rel ≠ [manifestName]) :
    DetachAllowed (Keeping (Bare p)) (p.at rel) where
  looks := looks_keeping (steady_bare hp)
  temp := Tame.keeping (o := .copyToTemp _ _ _) (steady_bare hp) rfl
  rename _ := keeping_inside rfl hrel
  remove _ := keeping_remove p _

theorem keeps_stripVisit (hp : underRoot p = true) (ev : Event) :
    Keeps (Bare p) (stripVisit p () ev) := by
  by_cases hev : ev.path = [manifestName]
  · unfold stripVisit
    cases ev.error with
    | some e => exact keeps_pure _
    | none =>
      cases ev.type with
      | dir => exact keeps_pure _
      | file kind =>
        cases kind with
        | socket => exact keeps_bind (keeps_call (keeping_remove p _)) fun _ => keeps_pure _
        | regular =>
          intro s hs
          rw [wp_bind]
          refine wp_lstat tidy_quiet hs (fun i hi => ?_) fun e _ => hs
          obtain ⟨e, he, -⟩ := FS.lstat_eq_ok.mp hi
          rw [hev, show p.at [manifestName] = p.manifest from rfl, hs.2] at he
          cases he
        | _ => exact keeps_pure _
  · exact keeps_of_sat (sat_stripVisit (keeping_remove p _) (detachAllowed hp hev))

theorem keeps_finishParked (hp : underRoot p = true) (fmt : Formats) (bin : Option Path)
    (m : AppBackupMeta) : Keeps (Bare p) (finishBackup fmt p bin m) := by
  have hnote : NotMark (p.at [appBackupMetaName]) := name_notMark p (by decide) (by decide)
  refine keeps_bind (keeps_bind (keeps_of_sat (sat_removeOldBinary (keeping_remove p) bin))
    fun _ => keeps_bind (keeps_walkDir (steady_bare hp) p id () fun _ ev => keeps_stripVisit hp ev)
      fun _ => keeps_pure _) fun _ => ?_
  exact keeps_bind (keeps_call (Tame.keeping (o := .writeFile _ _) (steady_bare hp) hnote))
    fun _ => keeps_pure _

theorem wp_disableManifest (p : Place) (hs : Safe s) : fileMachine.wp Tidy Safe (disableManifest p)
      (fun r s => Safe s ∧ (r = .ok () → underRoot p = true → s.find p.manifest = none)) s := by
  unfold disableManifest
  rw [wp_bind]
  refine wp_attempt (r := fun _ => s.rename p.manifest (p.at [disabledManifestName]))
    (fun _ => rfl) tidy_quiet hs (fun c s' _ h => ?_) fun c e _ hgone _ => ?_
  · obtain ⟨hsafe, hnone⟩ := safe_of_disable hs h
    exact ⟨hsafe, hsafe, fun _ => hnone⟩
  · cases e with
    | notExist =>
      have hmissing : s.rename (p.dir.sub [manifestName]) (p.dir.sub [disabledManifestName]) =
          .error .notExist := hgone rfl
      exact ⟨hs, fun _ _ => FS.rename_missing hmissing⟩
    | _ => exact ⟨hs, nofun⟩

theorem keeps_pruneParked (added : Bool) : Keeps Safe (pruneParked fmt added) := by
  have hlooks := looks_keeping steady_safe
  refine keeps_of_sat (A := fun _ => True) (sat_ite (fun _ => ?_) fun _ => trivial)
  refine Prog.sat_bind (sat_parkedBackups hlooks) fun paths _ => ?_
  exact Prog.sat_bind (sat_pruneBackupDirs hlooks fmt (fun p _ => keeping_removeAll p) _)
    fun _ _ => trivial

section

variable (hsrc : underRoot src = true)
include hsrc

theorem keeps_parkAppDir (stamp : Nat) (bin : Option Path)
    (m : AppBackupMeta) (failures : List (Location × Option Failure)) :
    Keeps Safe (parkAppDir fmt src stamp bin m failures) := by
  refine keeps_bind (keeps_call (keeping_dirMove hsrc))
    fun moved => ?_
  have hparked : underRoot (if moved.toBool then .parked stamp else src) = true := by
    split
    · rfl
    · exact hsrc
  revert hparked
  generalize (if moved.toBool then Place.parked stamp else src) = parked
  intro hparked s hs
  refine wp_then (wp_disableManifest parked hs) fun r s hr => ?_
  cases r with
  | error e => exact hr.1
  | ok _ =>
    refine wp_then (wp_safe (fun _ h => h.1) (keeps_finishParked hparked fmt bin m s
      ⟨hr.1, hr.2 rfl hparked⟩)) fun _ s hs => ?_
    exact keeps_bind (keeps_pruneParked fmt _) (fun _ => keeps_pure _) s hs.1

/-! ## Retirement and recovery -/

theorem moveAllowed {dst : Place} (hdst : underRoot dst = false) :
    MoveAllowed (Keeping Safe) Plain src dst where
  copy := allows_plain steady_safe
  names _ := .inl hdst
  move := keeping_dirMove hsrc
  disable := keeping_disable src
  park _ := keeping_dirMove hsrc
  remove := keeping_removeAll src
  undo := keeping_removeAll dst

theorem wp_moveIntoBackupLocation (loc : Location) (name : BackupName)
    (bin : Option Path) (hs : Safe s) :
    fileMachine.wp Tidy Safe (moveIntoBackupLocation src loc name bin)
      (fun r s => Safe s ∧ ∀ p, r.1 = some p → underRoot p = false) s := by
  unfold moveIntoBackupLocation
  refine wp_then (keeps_call (looks_keeping steady_safe _ (.prepare (.backup loc name)) trivial) s hs)
    fun r s hs => ?_
  cases r with
  | error e => exact ⟨hs, nofun⟩
  | ok _ =>
    rw [wp_bind]
    refine wp_firstFree tidy_quiet hs fun k => ?_
    refine wp_mono (wp_of_sat (sat_moveToBackup (moveAllowed hsrc rfl) bin) hs)
      fun r s hr => ⟨hr.2, fun p hp => ?_⟩
    rw [hr.1 p hp]
    rfl

theorem keeps_retireInto (name : BackupName) (bin : Option Path)
    (m : AppBackupMeta) (first : Bool) (failures : List (Location × Option Failure))
    (locs : List Location) :
    Keeps Safe (retireInto fmt cfg src name bin m first failures locs) := by
  induction locs generalizing first failures with
  | nil => exact keeps_parkAppDir fmt hsrc name.stamp bin m failures
  | cons loc rest ih =>
    unfold retireInto
    split
    · exact ih _ _
    · intro s hs
      refine wp_then (wp_moveIntoBackupLocation hsrc loc name bin hs) fun r s hr => ?_
      obtain ⟨dst, err⟩ := r
      cases dst with
      | none => exact ih _ _ s hr.1
      | some dst =>
        refine keeps_bind (keeps_of_sat (sat_finishBackup
          (allows_plain steady_safe) (fun _ => .inl (hr.2 dst rfl)) fmt bin m)) (fun _ => ?_) s hr.1
        exact keeps_bind (keeps_of_sat (sat_pruneAppBackups (looks_keeping steady_safe) fmt
          (fun _ => keeping_removeAll _) _)) fun _ => keeps_pure _

theorem keeps_retireAppDir (m : AppBackupMeta) : Keeps Safe (retireAppDir fmt cfg src m) := by
  have hlooks := looks_keeping steady_safe
  refine keeps_bind (keeps_of_sat (sat_readInstalledManifest hlooks fmt src)) fun old => ?_
  exact keeps_bind (keeps_of_sat (hlooks.sat trivial)) fun now =>
    keeps_retireInto fmt cfg hsrc _ _ _ _ _ _

end

theorem keeps_lstat (l : Loc Place) : Keeps Safe (lstat l) :=
  keeps_of_sat ((looks_keeping steady_safe).sat trivial)

theorem keeps_recoverPrevious : Keeps Safe (recoverPrevious fmt cfg) := by
  have hretire : Keeps Safe (retirePrevious fmt cfg) := by
    refine keeps_bind (keeps_retireAppDir fmt cfg rfl _) fun r => ?_
    obtain ⟨backup, err⟩ := r
    cases backup <;> exact keeps_pure _
  refine keeps_try (keeps_lstat _) (fun _ => keeps_pure _) fun i => ?_
  refine keeps_try (keeps_lstat _) (fun e => ?_) fun _ => hretire
  cases e with
  | notExist =>
    exact keeps_try (keeps_call (keeping_dirMove rfl))
      (fun _ => keeps_pure _) fun _ => keeps_pure _
  | _ => exact hretire

theorem keeps_recoverInterruptedInstall : Keeps Safe (recoverInterruptedInstall fmt cfg) := by
  refine keeps_try (keeps_recoverPrevious fmt cfg) (fun _ => keeps_pure _) fun notes => ?_
  refine keeps_try (keeps_lstat _) (fun _ => keeps_pure _) fun i => ?_
  have hdiscard := keeps_of_sat (sat_discardStagingDir (looks_keeping steady_safe)
    (keeping_removeAll .staging) (keeping_disable .staging))
  exact keeps_try hdiscard (fun _ => keeps_pure _) fun _ => keeps_pure _

/-! ## Staging -/

def Cleared (s : Disk) : Prop :=
  Safe s ∧ s.find Place.staging.manifest = none ∧ s.find (marker .staging) = none

/-- Staging holds no manifest, and the marker if the source asks for it. -/
def Staged (source : InstallSource) (s : Disk) : Prop :=
  Safe s ∧ s.find Place.staging.manifest = none ∧
    (source = .localBundle → s.find (marker .staging) ≠ none) ∧
    (source = .catalogue → s.find (marker .staging) = none)

theorem steady_cleared : Steady Cleared := fun _ _ hs =>
  ⟨hs.1, fun hm => ⟨hm.safe hs.1, (hm.manifest .staging rfl).trans hs.2.1,
    (hm.marker .staging rfl).trans hs.2.2⟩⟩

theorem steady_staged (source : InstallSource) : Steady (Staged source) := fun _ _ hs =>
  ⟨hs.1, fun hm => ⟨hm.safe hs.1, (hm.manifest .staging rfl).trans hs.2.1,
    fun h => by rw [hm.marker .staging rfl]; exact hs.2.2.1 h,
    fun h => by rw [hm.marker .staging rfl]; exact hs.2.2.2 h⟩⟩

theorem cleared_of_gone (hs : Safe s) (h : s.find Place.staging.dir = none) : Cleared s :=
  have hgone : ∀ n, s.find (Place.staging.at [n]) = none := fun n => by
    by_contra hsome
    have hdir := s.rooted Place.staging.dir n hsome
    simp [h] at hdir
  ⟨hs, hgone _, hgone _⟩

theorem wp_removeAll_staging (hs : Safe s) : fileMachine.wp Tidy Safe (removeAll .staging)
      (OnOk Cleared) s :=
  wp_removeAll tidy_quiet hs (fun _ _ hc hm => safe_of_removeAll hs hc.2.2 hm)
    fun _ _ hs hgone => ⟨hs, fun hr => cleared_of_gone hs (hgone hr)⟩

theorem wp_removeAllForce_staging (hs : Safe s) : fileMachine.wp Tidy Safe (removeAllForce .staging)
      (OnOk Cleared) s := by
  unfold removeAllForce
  refine wp_then (wp_removeAll_staging hs) fun r s hr => ?_
  cases r with
  | ok _ => exact hr
  | error e =>
    refine wp_then (keeps_of_sat (sat_openDirs (looks_keeping steady_safe) _) s hr.1)
      fun _ s hs => wp_removeAll_staging hs

/-- The binary's path does not pass through one of the two files. -/
def PlainBinary (path : Path) : Prop :=
  path.head? ≠ some manifestName ∧ path.head? ≠ some sideloadMarkerName

instance (path : Path) : Decidable (PlainBinary path) := inferInstanceAs (Decidable (_ ∧ _))

theorem staged_notMark {bin path : Path} (hbin : PlainBinary bin) (hpath : path <+: bin) :
    NotMark (Place.staging.at path) := by
  intro p _
  obtain ⟨rest, rfl⟩ := hpath
  constructor
  · intro h
    rw [(Loc.mk.inj h).2] at hbin
    exact hbin.1 rfl
  · intro h
    rw [(Loc.mk.inj h).2] at hbin
    exact hbin.2 rfl

theorem keeps_mkdirAll {bin : Path} (hbin : PlainBinary bin) {paths : List Path}
    (hpaths : ∀ path ∈ paths, path <+: bin) : Keeps Cleared (mkdirAll .staging paths) := by
  induction paths with
  | nil => exact keeps_pure _
  | cons path rest ih =>
    have ih := ih fun q hq => hpaths q (List.mem_cons_of_mem path hq)
    refine keeps_bind (keeps_of_sat ((looks_keeping steady_cleared).sat trivial)) fun r => ?_
    cases r with
    | ok i =>
      cases i with
      | dir => exact ih
      | node => exact keeps_pure _
    | error e =>
      refine keeps_bind (keeps_call (Tame.keeping (o := .mkdir _) steady_cleared
          (staged_notMark hbin (hpaths path (.head _))))) fun r => ?_
      cases r with
      | ok _ => exact ih
      | error e => exact keeps_pure _

theorem keeps_copyFromBundle {l : Loc Place} (hl : NotMark l) (bytes : List UInt8) :
    Keeps Cleared (copyFromBundle l bytes) :=
  keeps_call (Tame.keeping (o := .writeFile l _) steady_cleared hl)

theorem wp_orAbandon {A R : Disk → Prop} {p : Act (Except Errno Unit)}
    {next : Act (Except Failure Unit)} (hp : fileMachine.wp Tidy Safe p (OnOk A) s)
    (hnext : ∀ s, A s → fileMachine.wp Tidy Safe next (OnOk R) s) :
    fileMachine.wp Tidy Safe (orAbandon p next) (OnOk R) s := by
  unfold orAbandon
  refine wp_then hp fun r s hr => ?_
  cases r with
  | ok _ => exact hnext s (hr.2 rfl)
  | error e => exact wp_abandonStaging _ _ hr.1

theorem wp_cleared {p : Act (Except Errno Unit)} (hp : Keeps Cleared p) (hs : Cleared s) :
    fileMachine.wp Tidy Safe p (OnOk Cleared) s :=
  wp_mono (wp_safe (fun _ h => h.1) (hp s hs)) fun _ _ hs => ⟨hs.1, fun _ => hs⟩

theorem keeps_copyAux {name : String} (hmanifest : name ≠ manifestName)
    (hmarker : name ≠ sideloadMarkerName) (bytes : Option (List UInt8)) :
    Keeps Cleared (copyAux name bytes) := by
  cases bytes with
  | none => exact keeps_pure _
  | some bytes => exact keeps_copyFromBundle (name_notMark _ hmanifest hmarker) bytes

theorem fresh_of_wrote {D : File → Prop} {l : Loc Place} (hl : s.find l = none)
    (h : s.Wrote D behind l m) : ∃ n : Inode InstallSource, D n.data ∧
      (∀ k, m.find k = if k = l then some (.node s.next) else s.find k) ∧
      m.inode = Function.update s.inode s.next n := by
  cases h with
  | fresh n _ hdata _ hfind _ hinode => exact ⟨n, hdata, hfind, hinode⟩
  | existing i n _ _ _ hnamed =>
    rw [hl] at hnamed
    obtain hnamed | ⟨⟨k, hk, -⟩, -⟩ := hnamed
    · cases hnamed
    · cases hk
  | outside _ hsym =>
    obtain ⟨k, hk, -⟩ := hsym
    simp [hl] at hk

theorem staged_of_marker {D : File → Prop} (hs : Cleared s)
    (h : s.Wrote D behind (marker .staging) m) : Staged .localBundle m := by
  obtain ⟨n, -, hfind, hinode⟩ := fresh_of_wrote hs.2.2 h
  have hmanifest : m.find Place.staging.manifest = none := by
    rw [hfind, if_neg (by decide), hs.2.1]
  refine ⟨safe_of_fresh hs.1 hfind hinode (trusted_without fun i => ?_), hmanifest, fun _ => ?_, nofun⟩
  · rw [hmanifest]
    exact nofun
  · rw [hfind, if_pos rfl]
    exact nofun

theorem wp_plantMarker {fmt : Formats} (args : InstallArgs fmt) (hs : Cleared s) :
    fileMachine.wp Tidy Safe (plantMarker args) (OnOk (Staged args.source)) s := by
  unfold plantMarker
  cases args.source with
  | catalogue => exact ⟨hs.1, fun _ => ⟨hs.1, hs.2.1, nofun, fun _ => hs.2.2⟩⟩
  | localBundle =>
    refine wp_writeFile tidy_quiet hs.1 (fun e => ⟨hs.1, nofun⟩) (fun c m _ hm => ?_)
      fun c m _ hm => ?_
    · have hstaged := staged_of_marker hs hm
      exact ⟨hstaged.1, fun e => ⟨hstaged.1, nofun⟩⟩
    · have hstaged := staged_of_marker hs hm
      exact ⟨hstaged.1, fun _ => hstaged⟩

theorem wp_stageBundle {fmt : Formats} (args : InstallArgs fmt)
    (hbin : PlainBinary args.bundle.binaryPath) (hs : Safe s) :
    fileMachine.wp Tidy Safe (stageBundle args) (OnOk (Staged args.source)) s := by
  unfold stageBundle
  refine wp_then (wp_removeAllForce_staging hs) fun r s hr => ?_
  cases r with
  | error e => exact ⟨hr.1, nofun⟩
  | ok _ =>
    have hdir : ∀ path ∈ [[]], path <+: args.bundle.binaryPath := fun path hpath => by
      rw [List.mem_singleton.mp hpath]
      exact List.nil_prefix
    refine wp_then (wp_safe (fun _ h => h.1) (keeps_mkdirAll hbin hdir s (hr.2 rfl))) fun r s hs => ?_
    cases r with
    | error e => exact ⟨hs.1, nofun⟩
    | ok _ =>
      refine wp_orAbandon (wp_cleared (keeps_mkdirAll hbin fun path hpath => ?_) hs) fun s hs => ?_
      · exact ((List.mem_inits _ _).mp hpath).trans (List.dropLast_prefix _)
      refine wp_orAbandon (wp_cleared
        (keeps_copyFromBundle (staged_notMark hbin (List.prefix_refl _)) _) hs) fun s hs => ?_
      refine wp_then (wp_safe (fun _ h => h.1) (keeps_of_sat
        (sat_sha256File (looks_keeping steady_cleared) fmt _) s hs)) fun got s hs => ?_
      split
      · exact wp_abandonStaging _ _ hs.1
      · refine wp_orAbandon (wp_cleared (keeps_copyAux (by decide) (by decide) _) hs) fun s hs => ?_
        refine wp_orAbandon (wp_cleared (keeps_copyAux (by decide) (by decide) _) hs) fun s hs => ?_
        exact wp_orAbandon (wp_plantMarker args hs) fun s hs => ⟨hs.1, fun _ => hs⟩

/-! ## Install -/

/-- The manifest joins a marker that is as the source asks. -/
theorem safe_of_manifest {source : InstallSource} {raw : List UInt8} (hs : Staged source s)
    (h : s.Wrote (fun x => x = .empty ∨ x = ⟨raw, some source⟩) behind Place.staging.manifest m) :
    Safe m := by
  obtain ⟨n, hdata, hfind, hinode⟩ := fresh_of_wrote hs.2.1 h
  have hmarker : m.find (marker .staging) = s.find (marker .staging) := by
    rw [hfind, if_neg (by decide)]
  have hsource : ∀ src, manifestSource m .staging = some src → src = source := by
    intro src hsrc
    obtain ⟨i, hi, horigin⟩ := manifestSource_eq.mp hsrc
    rw [hfind, if_pos rfl] at hi
    cases hi
    rw [hinode, Function.update_self] at horigin
    obtain hempty | hfull := hdata
    · rw [hempty] at horigin
      cases horigin
    · rw [hfull] at horigin
      exact (Option.some.inj horigin).symm
  refine safe_of_fresh hs.1 hfind hinode ⟨fun hm => ?_, fun hm => ?_⟩
  · rw [hmarker]
    exact hs.2.2.1 (hsource _ hm).symm
  · rw [hmarker]
    exact hs.2.2.2 (hsource _ hm).symm

section

variable {fmt : Formats} (cfg : Config) (args : InstallArgs fmt)

theorem keeps_writeManifest {s : Disk} (hs : Staged args.source s) :
    fileMachine.wp Tidy Safe (writeManifest args) (fun _ s => Safe s) s := by
  unfold writeManifest
  rw [wp_bind]
  have hfail (e : Errno) (s : Disk) (hs : Safe s) := wp_mono
    (wp_failed (R := fun (_ : Unit) _ => True) (.os e) hs) fun _ _ h => h.1
  refine wp_writeFile tidy_quiet hs.1 (fun e => hfail e _ hs.1) (fun c m _ hm => ?_)
    fun c m _ hm => ?_
  · have hsafe := safe_of_manifest hs hm
    exact ⟨hsafe, fun e => hfail e _ hsafe⟩
  · exact safe_of_manifest hs (hm.mono fun x hx => .inr hx)

theorem wp_carryState (oldBin : Option Path) {s : Disk} (hs : Staged args.source s) :
    fileMachine.wp Tidy Safe (carryState oldBin) (fun r s => Safe s ∧
      ∀ c, r = .ok c → Staged args.source s ∧ c.InState oldBin) s := by
  have hK := steady_staged args.source
  unfold carryState
  refine wp_then (wp_safe (fun _ h => h.1) (wp_of_sat
    (sat_carryAppState (allows_plain hK) (state_plain .live .staging oldBin)) hs)) fun r s hr => ?_
  obtain ⟨carry, err⟩ := r
  cases err with
  | some e => exact wp_failed e hr.2.1
  | none =>
    refine wp_then (wp_safe (fun _ h => h.1) (keeps_of_sat
      (sat_verifyCarriedState (looks_keeping hK) _ _ _) s hr.2)) fun v s hs => ?_
    cases v with
    | error e => exact wp_failed e hs.1
    | ok _ =>
      refine ⟨hs.1, fun c hc => ?_⟩
      cases hc
      exact ⟨hs, hr.1⟩

theorem wp_carryInstall (replacing : Bool) (old : Option Manifest) {s : Disk}
    (hs : Staged args.source s) : fileMachine.wp Tidy Safe (carryInstall args replacing old)
      (fun r s => Safe s ∧ ∀ carry, r = .ok carry → Staged args.source s ∧
        ∀ c, carry = some c → c.InState (old.bind Manifest.binary)) s := by
  unfold carryInstall
  split
  · rw [wp_map]
    refine wp_mono (wp_carryState args (old.bind Manifest.binary) hs) fun r s hr => ?_
    refine ⟨hr.1, fun carry hcarry => ?_⟩
    cases r with
    | error e => cases hcarry
    | ok c =>
      cases hcarry
      exact ⟨(hr.2 c rfl).1, fun c' hc' => Option.some.inj hc' ▸ (hr.2 c rfl).2⟩
  · refine ⟨hs.1, fun carry hcarry => ?_⟩
    cases hcarry
    exact ⟨hs, nofun⟩

theorem swapAllowed : SwapAllowed (Keeping Safe) where
  looks := looks_keeping steady_safe
  aside := keeping_dirMove rfl
  place := keeping_dirMove rfl
  reject := keeping_dirMove rfl
  restore := keeping_dirMove rfl
  discard := keeping_removeAll _
  disable := keeping_disable _

theorem keeps_writeRecord {name : String} (hmanifest : name ≠ manifestName)
    (hmarker : name ≠ sideloadMarkerName) (bytes : Option (List UInt8)) :
    Keeps Safe (writeRecord name bytes) := by
  cases bytes with
  | none => exact keeps_pure _
  | some bytes =>
    exact keeps_bind (keeps_call (Tame.keeping (o := .writeFile _ _) steady_safe
        (name_notMark .live hmanifest hmarker))) fun _ => keeps_pure _

theorem keeps_finishInstall (old : Option Manifest) {carry : Option AppStateCarry}
    {previous : Option Place} (hcarry : ∀ c, carry = some c → c.InState (old.bind Manifest.binary))
    (hprevious : ∀ p, previous = some p → p = .previous) :
    Keeps Safe (finishInstall cfg args old carry previous) := by
  refine keeps_bind ?_ fun reconciled => keeps_bind ?_ fun backup => keeps_bind ?_ fun _ =>
    keeps_bind (keeps_writeRecord (by decide) (by decide) _) fun _ =>
      keeps_bind (keeps_writeRecord (by decide) (by decide) _) fun _ => keeps_pure _
  · cases previous with
    | none => exact keeps_pure _
    | some prev =>
      cases carry with
      | none => exact keeps_pure _
      | some c => exact keeps_of_sat (sat_reconcileAppState (allows_plain steady_safe)
          (state_plain prev .live _) (fun _ now => temp_plain now _) (hcarry c rfl))
  · cases previous with
    | none => exact keeps_pure _
    | some prev =>
      obtain rfl := hprevious prev rfl
      exact keeps_bind (keeps_retireAppDir fmt cfg rfl _) fun _ => keeps_pure _
  · exact keeps_bind (keeps_call (Tame.keeping (o := .appendFile _ _) steady_safe
        (name_notMark .live (by decide) (by decide)))) fun _ => keeps_pure _

theorem keeps_swapInstall (old : Option Manifest) {carry : Option AppStateCarry}
    (hcarry : ∀ c, carry = some c → c.InState (old.bind Manifest.binary)) {s : Disk}
    (hs : Staged args.source s) :
    fileMachine.wp Tidy Safe (swapInstall cfg args old carry) (fun _ s => Safe s) s := by
  unfold swapInstall
  refine wp_then (keeps_writeManifest args hs) fun r s hs => ?_
  cases r with
  | error e => exact hs
  | ok _ =>
    refine wp_then (wp_of_sat (sat_swapInAppDir swapAllowed
      (sat_verifyInstalledApp swapAllowed.looks fmt _ _ _ _)) hs) fun r s hr => ?_
    cases r with
    | error e => exact hr.2
    | ok previous =>
      exact keeps_finishInstall cfg args old hcarry
        (fun p hp => hr.1 p (by rw [hp])) s hr.2

theorem keeps_replaceInstall (hbin : PlainBinary args.bundle.binaryPath) (replacing : Bool)
    (old : Option Manifest) : Keeps Safe (replaceInstall cfg args replacing old) := by
  intro s hs
  unfold replaceInstall
  refine wp_then (wp_stageBundle args hbin hs) fun r s hr => ?_
  cases r with
  | error e => exact hr.1
  | ok _ =>
    refine wp_then (wp_carryInstall args replacing old (hr.2 rfl)) fun r s hr => ?_
    cases r with
    | error e => exact hr.1
    | ok carry =>
      obtain ⟨hstaged, hcarry⟩ := hr.2 carry rfl
      exact keeps_swapInstall cfg args old hcarry hstaged

theorem keeps_cmdAppStoreInstall (hbin : PlainBinary args.bundle.binaryPath) :
    Keeps Safe (cmdAppStoreInstall cfg args) := by
  refine keeps_try (keeps_recoverInterruptedInstall fmt cfg) (fun _ => keeps_pure _) fun notes => ?_
  refine keeps_try (keeps_lstat _) (fun _ => keeps_replaceInstall cfg args hbin _ _) fun i => ?_
  refine keeps_bind (keeps_of_sat (sat_readInstalledManifest (looks_keeping steady_safe)
    fmt .live)) fun im => ?_
  cases im with
  | none => exact keeps_replaceInstall cfg args hbin _ _
  | some im =>
    dsimp only
    cases alreadyInstalled args im with
    | some outcome => exact keeps_pure _
    | none => exact keeps_replaceInstall cfg args hbin _ _

end

/-! ## Runs -/

/-- What can be run against the install root: an install, or a recovery by itself. -/
inductive Command (fmt : Formats)
  | install (cfg : Config) (args : InstallArgs fmt)
  | recover (cfg : Config)

def Command.act {fmt : Formats} : Command fmt → Act Unit
  | .install cfg args => (fun _ => ()) <$> cmdAppStoreInstall cfg args
  | .recover cfg => (fun _ => ()) <$> recoverInterruptedInstall fmt cfg

/-- The bundle's binary is not named as one of the two files, and not below one. -/
def Command.PlainBundle {fmt : Formats} : Command fmt → Prop
  | .install _ args => PlainBinary args.bundle.binaryPath
  | .recover _ => True

instance {fmt : Formats} (cmd : Command fmt) : Decidable cmd.PlainBundle := by
  cases cmd <;> dsimp only [Command.PlainBundle] <;> infer_instance

def jobs {fmt : Formats} (history : List (Command fmt × List (Choice Place InstallSource))) :
    List (Act Unit × List (Choice Place InstallSource)) :=
  history.map fun job => (job.1.act, job.2)

theorem keeps_command {fmt : Formats} (cmd : Command fmt) (h : cmd.PlainBundle) :
    Keeps Safe cmd.act := by
  cases cmd with
  | install cfg args => exact keeps_bind (keeps_cmdAppStoreInstall cfg args h) fun _ => keeps_pure _
  | recover cfg => exact keeps_bind (keeps_recoverInterruptedInstall fmt cfg) fun _ => keeps_pure _

/-- A sideload that stops before the swap, and the recovery that discards its staging dir,
taking names in the given order. -/
def interruptedSideload (order : List Path) :
    List (Command formats × List (Choice Place InstallSource)) :=
  [(.install ⟨none⟩ (args .localBundle 1 0), quiet 11 0),
    (.recover ⟨none⟩, List.replicate 4 { order := order })]

theorem safe_noDisk : Safe noDisk := ⟨fun _ _ => trusted_without fun _ => nofun, nofun⟩

/-- Removing the marker first shows the manifest without it. -/
theorem discarded_sideload_unmarked : Safe noDisk ∧
    (∀ job ∈ interruptedSideload [[sideloadMarkerName]], job.1.PlainBundle) ∧
    ¬ ∀ m ∈ (fileMachine.runs (jobs (interruptedSideload [[sideloadMarkerName]]))
        noDisk).1, Trusted m := by
  refine ⟨safe_noDisk, by decide +kernel, fun h => ?_⟩
  have hseen : ∃ m ∈ (fileMachine.runs (jobs (interruptedSideload [[sideloadMarkerName]]))
      noDisk).1, manifestSource m .staging = some .localBundle ∧
        m.find (marker .staging) = none := by decide +kernel
  obtain ⟨m, hm, hsource, hmarker⟩ := hseen
  exact ((h m hm) .staging rfl).1 hsource hmarker

/-- However the commands fail and wherever they stop, marker and manifest agree at every
moment, as long as each removal takes the manifest of a dir before its marker. -/
theorem sideload_never_trusted {fmt : Formats}
    (history : List (Command fmt × List (Choice Place InstallSource))) (s : Disk) (hs : Safe s)
    (hplain : ∀ job ∈ history, job.1.PlainBundle)
    (htidy : fileMachine.MeetsAll Tidy (jobs history) s) :
    ∀ m ∈ (fileMachine.runs (jobs history) s).1, Trusted m := by
  intro m hm
  refine ((fileMachine.runs_of_wp (I := Safe) (fun job hjob s hs => ?_) hs htidy).1 m hm).trusted
  obtain ⟨cmd, hcmd, rfl⟩ := List.mem_map.mp hjob
  exact wp_mono (keeps_command cmd.1 (hplain cmd hcmd) s hs) fun _ _ _ => trivial

/-- The interrupted sideload is discarded in order, then the catalogue's app is installed and
a sideload replaces it. -/
def orderlySideloads : List (Command formats × List (Choice Place InstallSource)) :=
  interruptedSideload [[manifestName]] ++
    [(.install ⟨none⟩ (args .catalogue 2 0), quiet 40 100),
      (.install ⟨none⟩ (args .localBundle 3 0), quiet 80 200)]

theorem orderly_sideloads_marked :
    (fileMachine.runs (jobs orderlySideloads) noDisk).2.find (marker .live) ≠ none ∧
    ∀ m ∈ (fileMachine.runs (jobs orderlySideloads) noDisk).1, Trusted m :=
  ⟨by decide +kernel, sideload_never_trusted orderlySideloads noDisk safe_noDisk
    (by decide +kernel) (by decide +kernel)⟩

end PilotProtocol.AppStore.Sideload
