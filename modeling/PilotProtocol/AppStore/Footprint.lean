import PilotProtocol.AppStore.Install
import PilotProtocol.Library.FileEffect

/-! # What each step of an install can touch

For each function, the operations it can come to, whatever the file system answers.
Every invariant of an install is checked once for each kind of operation listed
here.
-/

namespace PilotProtocol.AppStore
open PilotProtocol.Library
open Prog hiding pure

abbrev OpSet := ∀ β, FileOp Place InstallSource β → Prop

section

variable {P : OpSet} {α β ε : Type}

variable {A : α → Prop} {p : Place} {src dst : Loc Place}

theorem sat_ite {c : Prop} [Decidable c] {p q : Act α} (hp : c → p.Sat P A) (hq : ¬c → q.Sat P A) :
    (if c then p else q).Sat P A := by
  split
  next h => exact hp h
  next h => exact hq h

def Looks (P : OpSet) : Prop := ∀ β (o : FileOp Place InstallSource β), o.Reads → P β o

theorem Looks.sat (h : Looks P) {o : FileOp Place InstallSource α} (ho : o.Reads) :
    (call o).Within P := sat_call (h _ o ho)

theorem sat_walkDir (h : Looks P) (p : Place) (root : Errno → ε) {a : α}
    {fn : α → Event → Act (Visit α ε)} (ha : A a)
    (hfn : ∀ a ev, A a → (visit fn a ev).Sat P fun v => A v.state) :
    (walkDir p root a fn).Sat P fun r => A r.1 :=
  sat_try (h.sat trivial) (fun _ => ha) fun events => sat_visitAll hfn events [] ha

theorem sat_visit {fn : α → Event → Act (Visit α ε)}
    (h : ∀ a ev, A a → (fn a ev).Sat P fun v => A v.state) (a : α) (ev : Event) (ha : A a) :
    (visit fn a ev).Sat P fun v => A v.state := by
  refine sat_bind (h a _ ha) fun v hv => ?_
  cases v with
  | next a => exact sat_ite (fun _ => h a ev hv) fun _ => hv
  | skipDir a | stop a e => exact hv

/-! ## Functions that only look -/

section

variable (h : Looks P)
include h

theorem sat_sha256File (fmt : Formats) (l : Loc Place) : (sha256File fmt l).Within P := by
  exact sat_try (h.sat trivial) (fun _ => trivial) fun _ => trivial

theorem sat_readInstalledManifest (fmt : Formats) (p : Place) :
    (readInstalledManifest fmt p).Within P := by
  exact sat_try (h.sat trivial) (fun _ => trivial) fun _ => trivial

theorem sat_readBackupMeta (fmt : Formats) (p : Place) : (readBackupMeta fmt p).Within P := by
  exact sat_try (h.sat trivial) (fun _ => trivial) fun _ => trivial

theorem sat_openDirs (p : Place) : (openDirs p).Within P := by
  refine sat_bind (A := fun _ => True) (sat_walkDir h p id (A := fun _ => True) trivial ?_)
    fun _ _ => trivial
  refine sat_visit fun _ ev _ => sat_ite (fun _ => ?_) fun _ => trivial
  exact sat_try (h.sat trivial) (fun _ => trivial) fun _ => sat_bind (h.sat trivial)
    fun _ _ => trivial

theorem sat_verifyCarriedState (dir : Place) (skipVolatile : Bool)
    (carried : List Path) : (verifyCarriedState dir skipVolatile carried).Within P := by
  induction carried with
  | nil => trivial
  | cons rel rest ih =>
    refine sat_ite (fun _ => ih) fun _ => sat_bind (h.sat trivial) fun r _ => ?_
    cases r with
    | error e => trivial
    | ok i => exact ih

theorem sat_verifyInstalledApp (fmt : Formats) (dir : Place) (want : List UInt8)
    (m : Manifest) (carried : List Path) :
    (verifyInstalledApp fmt dir want m carried).Within P := by
  refine sat_try (h.sat trivial) (fun _ => trivial) fun raw => ?_
  refine sat_ite (fun _ => trivial) fun _ => ?_
  cases m.binary with
  | none => trivial
  | some bin =>
    exact sat_bind (sat_sha256File h fmt _) fun got _ =>
      sat_ite (fun _ => trivial) fun _ => sat_verifyCarriedState h dir true carried

theorem sat_locatePreviousInstall : locatePreviousInstall.Within P := by
  refine sat_try (h.sat trivial) (fun e => ?_) fun _ => trivial
  exact sat_try (h.sat trivial) (fun _ => trivial) fun _ => trivial

/-! ## Removal -/

theorem sat_removeAllForce (hp : P _ (.removeAll p.dir)) : (removeAllForce p).Within P := by
  exact sat_try (sat_call hp) (fun _ => sat_bind (sat_openDirs h p)
    fun _ _ => sat_call hp) fun _ => trivial

end

theorem sat_disableManifest (hp : P _ (.rename p.manifest (p.at [disabledManifestName]))) :
    (disableManifest p).Within P := by
  refine sat_call_bind hp fun r => ?_
  cases r with
  | ok _ => trivial
  | error e => cases e <;> trivial

theorem sat_discardStagingDir (h : Looks P) (hp : P _ (.removeAll p.dir))
    (hd : P _ (.rename p.manifest (p.at [disabledManifestName]))) :
    (discardStagingDir p).Within P := by
  refine sat_bind (h.sat trivial) fun r _ => ?_
  split
  · trivial
  · refine sat_try (sat_removeAllForce h hp) (fun rmErr => ?_) fun _ => trivial
    exact sat_try (sat_disableManifest hd) (fun _ => trivial) fun _ => trivial

theorem sat_withStagingDiscarded (h : Looks P) (hp : P _ (.removeAll p.dir))
    (hd : P _ (.rename p.manifest (p.at [disabledManifestName]))) (cause : Failure) :
    (withStagingDiscarded p cause).Within P := by
  exact sat_try (sat_discardStagingDir h hp hd) (fun _ => trivial) fun _ => trivial

/-! ## Swap -/

/-- What swapping may do: move the three dirs around, and discard staging. -/
structure SwapAllowed (P : OpSet) : Prop where
  looks : Looks P
  aside : P _ (.rename Place.live.dir Place.previous.dir)
  place : P _ (.rename Place.staging.dir Place.live.dir)
  reject : P _ (.rename Place.live.dir Place.staging.dir)
  restore : P _ (.rename Place.previous.dir Place.live.dir)
  discard : P _ (.removeAll Place.staging.dir)
  disable : P _ (.rename Place.staging.manifest (Place.staging.at [disabledManifestName]))

theorem sat_restorePrevious (h : SwapAllowed P) (hadOld : Bool) (cause : Failure) :
    (restorePrevious hadOld cause).Within P := by
  have hdiscard : ∀ cause, (withStagingDiscarded .staging cause).Within P :=
    sat_withStagingDiscarded h.looks h.discard h.disable
  refine sat_ite (fun _ => ?_) fun _ => hdiscard cause
  refine sat_call_bind h.restore fun restored => ?_
  refine sat_bind (hdiscard cause) fun cause _ => ?_
  cases restored with
  | ok _ => trivial
  | error e => exact sat_bind (sat_locatePreviousInstall h.looks) fun _ _ => trivial

theorem sat_rollback (h : SwapAllowed P) (placed hadOld : Bool) (cause : Failure) :
    (rollback placed hadOld cause).Within P := by
  have hrestore := sat_restorePrevious h hadOld cause
  refine sat_ite (fun _ => ?_) fun _ => hrestore
  refine sat_call_bind h.reject fun r => ?_
  cases r with
  | ok _ => exact hrestore
  | error e =>
    exact sat_ite (fun _ => sat_bind (sat_locatePreviousInstall h.looks) fun _ _ => trivial)
      fun _ => trivial

theorem sat_placeStaging (h : SwapAllowed P) (hadOld : Bool) {verify : Act (Except Failure Unit)}
    (hverify : verify.Within P) :
    (placeStaging hadOld verify).Sat P fun r => ∀ p, r = .ok (some p) → p = .previous := by
  have hback : ∀ placed cause, (Except.error <$> rollback placed hadOld cause).Sat P
      fun r : Except Failure (Option Place) => ∀ p, r = .ok (some p) → p = .previous :=
    fun placed cause => sat_map (sat_rollback h placed hadOld cause) fun _ _ _ => nofun
  refine sat_try (sat_call h.place) (fun _ => hback _ _) fun _ => ?_
  refine sat_try hverify (fun _ => hback _ _) fun _ => ?_
  intro p hp
  cases hadOld with
  | true => cases hp; rfl
  | false => cases hp

theorem sat_swapInAppDir (h : SwapAllowed P) {verify : Act (Except Failure Unit)}
    (hverify : verify.Within P) :
    (swapInAppDir verify).Sat P fun r => ∀ p, r = .ok (some p) → p = .previous := by
  have hdiscard : ∀ cause, (Except.error <$> withStagingDiscarded .staging cause).Sat P
      fun r : Except Failure (Option Place) => ∀ p, r = .ok (some p) → p = .previous :=
    fun cause => sat_map (sat_withStagingDiscarded h.looks h.discard h.disable cause)
      fun _ _ _ => nofun
  refine sat_try (h.looks.sat trivial) (fun e => ?_) fun _ => hdiscard _
  refine sat_try (h.looks.sat trivial) (fun _ => sat_placeStaging h false hverify) fun i => ?_
  exact sat_try (sat_call h.aside) (fun _ => hdiscard _)
    fun _ => sat_placeStaging h true hverify

/-- What may be done to the names in `W`. -/
structure Allows (P : OpSet) (W : Loc Place → Prop) : Prop where
  looks : Looks P
  mkdir : ∀ {l}, W l → P _ (.mkdir l)
  symlink : ∀ target {l}, W l → P _ (.symlink target l)
  link : ∀ {src dst}, W src → W dst → P _ (.link src dst)
  copyFile : ∀ src {dst}, W dst → P _ (.copyFile src dst)
  writeFile : ∀ d {l}, W l → P _ (.writeFile l d)
  temp : ∀ l, P _ (.copyToTemp l l.parent ".detach-")
  remove : ∀ {l}, W l → P _ (.remove l)
  rename : ∀ {src dst}, W src → W dst → P _ (.rename src dst)

variable {W : Loc Place → Prop}

/-! ## Carry -/

def IsState (oldBin : Option Path) (rel : Path) : Prop :=
  rel ≠ [] ∧ skipStateEntry rel oldBin = false

def StateIn (W : Loc Place → Prop) (old new : Place) (oldBin : Option Path) : Prop :=
  ∀ rel, IsState oldBin rel → W (old.at rel) ∧ W (new.at rel)

structure AppStateCarry.InState (oldBin : Option Path) (c : AppStateCarry) : Prop where
  unreadable : ∀ rel ∈ c.unreadable, IsState oldBin rel
  entries : ∀ rel e, c.entries.lookup rel = some e → IsState oldBin rel

theorem sat_linkOrCopy (h : Allows P W) (hsrc : W src) (hdst : W dst) :
    (linkOrCopy src dst).Within P := by
  have hrest : ((lstat src).andOk fun _ => copyFile src dst).Within P :=
    sat_andOk (h.looks.sat trivial) fun _ => sat_call (h.copyFile src hdst)
  refine sat_try (sat_call (h.link hsrc hdst)) (fun e => ?_) fun _ => trivial
  cases e with
  | notExist => trivial
  | _ => exact hrest

section

variable {old new : Place} {oldBin : Option Path} {c : AppStateCarry} {rel : Path}

theorem AppStateCarry.InState.insert (hc : c.InState oldBin) (hrel : IsState oldBin rel)
    (e : CarriedEntry) (carried : List Path) : AppStateCarry.InState oldBin
      { c with carried := carried, entries := c.entries.insert rel e } := by
  refine ⟨hc.unreadable, fun q f hq => ?_⟩
  rw [GoMap.lookup_insert_ite] at hq
  split at hq
  next heq => exact heq ▸ hrel
  · exact hc.entries q f hq

theorem AppStateCarry.InState.leave (hc : c.InState oldBin) (hrel : IsState oldBin rel) :
    AppStateCarry.InState oldBin { c with unreadable := c.unreadable ++ [rel] } := by
  refine ⟨fun q hq => ?_, hc.entries⟩
  obtain hq | hq := List.mem_append.mp hq
  · exact hc.unreadable q hq
  · exact List.mem_singleton.mp hq ▸ hrel

theorem sat_record (h : Looks P) (hc : c.InState oldBin) (hrel : IsState oldBin rel) (src : Info)
    (dst : Loc Place) (target : File) :
    (c.record rel src dst target).Sat P (AppStateCarry.InState oldBin) := by
  exact sat_try (h.sat trivial) (fun _ => ⟨hc.unreadable, hc.entries⟩)
    fun _ => hc.insert hrel _ _

theorem sat_orGone (hc : c.InState oldBin) (gone : Visit AppStateCarry Failure)
    (hgone : gone.state = c) (e : Errno) :
    (pure (orGone c gone e) : Act _).Sat P fun v => v.state.InState oldBin := by
  show (orGone c gone e).state.InState oldBin
  unfold orGone
  split
  · exact hgone.symm ▸ hc
  · exact hc

variable (h : Allows P W) (hW : StateIn W old new oldBin)
include h hW

section

variable (hc : c.InState oldBin) (hrel : IsState oldBin rel)
include hc hrel

theorem sat_carryUnread (e : Errno) :
    (carryUnread new c rel e).Sat P fun v => v.state.InState oldBin := by
  refine sat_ite (fun _ => hc) fun _ => ?_
  cases e with
  | permission =>
    refine sat_bind (A := AppStateCarry.InState oldBin) (sat_ite (fun _ => ?_) fun _ => hc)
      fun c' hc' => hc'.leave hrel
    exact sat_call_bind (h.remove (hW rel hrel).2) fun _ => ⟨hc.unreadable, hc.entries⟩
  | _ => exact hc

theorem sat_carryDir (existing : Except Errno Info) :
    (carryDir old new c rel existing).Sat P fun v => v.state.InState oldBin := by
  cases existing with
  | ok i =>
    cases i with
    | dir => exact ⟨hc.unreadable, hc.entries⟩
    | node => exact hc
  | error e =>
    refine sat_try (h.looks.sat trivial) (fun e => sat_orGone hc (.skipDir c) rfl e)
      fun i => ?_
    exact sat_try (sat_call (h.mkdir (hW rel hrel).2)) (fun _ => hc)
      fun _ => ⟨hc.unreadable, hc.entries⟩

theorem sat_carrySymlink : (carrySymlink old new c rel).Sat P fun v => v.state.InState oldBin := by
  refine sat_try (h.looks.sat trivial) (fun e => sat_orGone hc (.next c) rfl e) fun src => ?_
  refine sat_try (h.looks.sat trivial) (fun e => sat_orGone hc (.next c) rfl e)
    fun target => ?_
  exact sat_try (sat_call (h.symlink target (hW rel hrel).2)) (fun _ => hc)
    fun _ => sat_map (sat_record h.looks hc hrel src _ target) fun _ hc' => hc'

theorem sat_carryRegular : (carryRegular old new c rel).Sat P fun v => v.state.InState oldBin := by
  refine sat_try (h.looks.sat trivial) (fun e => sat_orGone hc (.next c) rfl e) fun src => ?_
  refine sat_try (sat_linkOrCopy h (hW rel hrel).1 (hW rel hrel).2) (fun e => ?_)
    fun _ => sat_map (sat_record h.looks hc hrel src _ .empty) fun _ hc' => hc'
  cases e with
  | permission => exact sat_call_bind (h.remove (hW rel hrel).2) fun _ => hc.leave hrel
  | _ => exact hc

end

theorem sat_carryEntry (ev : Event) (hc : c.InState oldBin) (hrel : IsState oldBin ev.path) :
    (carryVisit old new oldBin c ev).Sat P fun v => v.state.InState oldBin := by
  unfold carryVisit
  cases herror : ev.error with
  | some e => exact sat_carryUnread h hW hc hrel e
  | none =>
    refine sat_ite (fun hnil => absurd hnil hrel.1) fun _ =>
      sat_ite (fun hskip => by rw [hrel.2] at hskip; cases hskip) fun _ => ?_
    refine sat_bind (h.looks.sat trivial) fun existing _ => ?_
    cases ev.type with
    | dir => exact sat_carryDir h hW hc hrel existing
    | file kind =>
      cases kind with
      | regular => exact sat_ite (fun _ => hc) fun _ => sat_carryRegular h hW hc hrel
      | symlink => exact sat_ite (fun _ => hc) fun _ => sat_carrySymlink h hW hc hrel
      | _ => exact hc

theorem sat_carryVisit (ev : Event) (hc : c.InState oldBin) :
    (visit (carryVisit old new oldBin) c ev).Sat P fun v => v.state.InState oldBin := by
  by_cases hstate : IsState oldBin ev.path
  · refine sat_bind (sat_carryEntry h hW _ hc hstate) fun v hv => ?_
    cases v with
    | next c' => exact sat_ite (fun _ => sat_carryEntry h hW ev hv hstate) fun _ => hv
    | skipDir c' | stop c' e => exact hv
  · by_cases hnil : ev.path = []
    · have hfirst : carryVisit old new oldBin c { ev with error := none } = pure (.next c) := by
        simp only [carryVisit, hnil, if_true]
      rw [visit, hfirst]
      refine sat_ite (fun herror => ?_) fun _ => hc
      cases he : ev.error with
      | none => exact absurd he herror.2
      | some e =>
        simp only [carryVisit, he, carryUnread, hnil, if_true]
        exact hc
    · have hskip : skipStateEntry ev.path oldBin = true := by
        cases hs : skipStateEntry ev.path oldBin with
        | true => rfl
        | false => exact absurd ⟨hnil, hs⟩ hstate
      have hfirst : carryVisit old new oldBin c { ev with error := none } =
          pure (if ev.type = .dir then .skipDir c else .next c) := by
        simp only [carryVisit, hnil, hskip, if_false, if_true]
      rw [visit, hfirst]
      by_cases hdir : ev.type = .dir
      · rwa [if_pos hdir]
      · rw [if_neg hdir]
        exact sat_ite (fun herror => absurd herror.1 hdir) fun _ => hc

theorem sat_carryAppState : (carryAppState old new oldBin).Sat P fun r => r.1.InState oldBin :=
  sat_walkDir h.looks old _ ⟨nofun, nofun⟩
    fun _ ev hc => sat_carryVisit h hW ev hc

end

/-! ## Reconcile -/

theorem sat_moveStateEntry (h : Looks P) (hrename : P _ (.rename src dst)) :
    (moveStateEntry src dst).Within P := by
  refine sat_try (h.sat trivial) (fun e => ?_) fun _ => trivial
  refine sat_call_bind hrename fun r => ?_
  split
  · refine sat_bind (h.sat trivial) fun r _ => ?_
    split
    · refine sat_try (h.sat trivial) (fun _ => trivial) fun _ => ?_
      exact sat_try (sat_call hrename) (fun _ => sat_bind (h.sat trivial)
        fun _ _ => trivial) fun _ => sat_bind (h.sat trivial) fun _ _ => trivial
    · trivial
  · trivial

theorem sat_placeStateEntry (h : Allows P W) (hsrc : W src) (hdst : W dst) (info : Info) :
    (placeStateEntry src dst info).Within P := by
  refine sat_ite (fun _ => ?_) fun _ => ?_
  · exact sat_try (h.looks.sat trivial) (fun _ => trivial)
      fun target => sat_call (h.symlink target hdst)
  · refine sat_try (sat_linkOrCopy h hsrc hdst) (fun e => ?_) fun _ => trivial
    cases e with
    | permission =>
      exact sat_call_bind (h.remove hdst) fun _ =>
        sat_moveStateEntry h.looks (h.rename hsrc hdst)
    | _ => trivial

theorem sat_replaceStateEntry (h : Allows P W) (hsrc : W src) (hdst : W dst)
    (htemp : ∀ now, W (reconcileTemp now dst)) (info : Info) :
    (replaceStateEntry src dst info).Within P := by
  refine sat_bind (h.looks.sat trivial) fun now _ => ?_
  have hremove := h.remove (htemp now)
  refine sat_try (sat_placeStateEntry h hsrc (htemp now) info)
    (fun _ => sat_call_bind hremove fun _ => trivial) fun _ => ?_
  exact sat_try (sat_call (h.rename (htemp now) hdst))
    (fun _ => sat_call_bind hremove fun _ => trivial) fun _ => trivial

section

variable {old new : Place} {oldBin : Option Path} {rel : Path}

theorem sat_brought {b : Reconciling} {p : Act (Except Errno Unit)} (h : p.Within P) :
    (b.brought rel p).Within P := by
  exact sat_try h (fun _ => trivial) fun _ => trivial

variable (h : Allows P W) (hW : StateIn W old new oldBin)
  (htemp : ∀ rel now, W (reconcileTemp now (new.at rel)))
include h hW

theorem sat_reconcileDir (hrel : IsState oldBin rel) (b : Reconciling) (live : Except Errno Info) :
    (reconcileDir old new b rel live).Within P := by
  cases live with
  | ok i => cases i <;> trivial
  | error e =>
    refine sat_ite (fun _ => trivial) fun _ => ?_
    refine sat_try (h.looks.sat trivial) (fun _ => trivial) fun i => ?_
    exact sat_try (sat_call (h.mkdir (hW rel hrel).2)) (fun _ => trivial) fun _ => trivial

include htemp

theorem sat_reconcileCarried (hrel : IsState oldBin rel) (b : Reconciling)
    (isSymlink : Bool) (e : CarriedEntry) (cur live : Info) :
    (reconcileCarried old new b rel isSymlink e cur live).Within P := by
  have hreplace : (b.brought rel (replaceStateEntry (old.at rel) (new.at rel) cur)).Within P := sat_brought
        (sat_replaceStateEntry h (hW rel hrel).1 (hW rel hrel).2 (htemp rel) cur)
  refine sat_ite (fun _ => trivial) fun _ => sat_ite (fun _ => sat_ite (fun _ => ?_)
    fun _ => trivial) fun _ => hreplace
  refine sat_bind (A := fun _ => True) ?_ fun same _ => ?_
  · exact sat_try (h.looks.sat trivial) (fun _ => trivial) fun _ => trivial
  · exact sat_ite (fun _ => trivial) fun _ => hreplace

theorem sat_reconcileFile (hrel : IsState oldBin rel)
    (entries : GoMap Path CarriedEntry) (b : Reconciling) (isSymlink : Bool)
    (live : Except Errno Info) : (reconcileFile old new entries b rel isSymlink live).Within P := by
  refine sat_try (h.looks.sat trivial) (fun _ => trivial) fun cur => ?_
  cases entries.lookup rel with
  | none =>
    cases live with
    | ok i => trivial
    | error e =>
      cases e with
      | notExist => exact sat_brought (sat_placeStateEntry h (hW rel hrel).1 (hW rel hrel).2 cur)
      | _ => trivial
  | some e =>
    cases live with
    | ok i => exact sat_reconcileCarried h hW htemp hrel b isSymlink e cur i
    | error e => trivial

theorem sat_reconcileVisit (c : AppStateCarry) (b : Reconciling) (ev : Event) :
    (reconcileVisit old new oldBin c b ev).Within P := by
  unfold reconcileVisit
  cases ev.error with
  | some e => trivial
  | none =>
    refine sat_ite (fun _ => trivial) fun hnil => sat_ite (fun _ => trivial) fun hskip => ?_
    have hrel : IsState oldBin ev.path := by
      simp only [Bool.or_eq_true, not_or, Bool.not_eq_true] at hskip
      exact ⟨hnil, hskip.1⟩
    refine sat_bind (h.looks.sat trivial) fun live _ => ?_
    cases ev.type with
    | dir => exact sat_reconcileDir h hW hrel b live
    | file kind =>
      cases kind with
      | regular =>
        exact sat_ite (fun _ => trivial) fun _ =>
          sat_reconcileFile h hW htemp hrel c.entries b false live
      | symlink => exact sat_reconcileFile h hW htemp hrel c.entries b true live
      | _ => trivial

omit htemp in
theorem sat_dropVolatile (hrel : IsState oldBin rel) (r : StateReconcile) (e : CarriedEntry) :
    (dropVolatile old new r rel e).Within P := by
  refine sat_ite (fun _ => trivial) fun _ => sat_bind (h.looks.sat trivial) fun r' _ => ?_
  cases r' with
  | ok i => trivial
  | error e' =>
    cases e' with
    | notExist =>
      refine sat_bind (h.looks.sat trivial) fun r' _ => ?_
      cases r' with
      | error e' => trivial
      | ok live =>
        refine sat_ite (fun _ => trivial) fun _ => ?_
        refine sat_bind (A := fun _ => True) (sat_call (h.remove (hW rel hrel).2))
          fun r' _ => ?_
        cases r' <;> trivial
    | _ => trivial

theorem sat_reconcileAppState {c : AppStateCarry} (hc : c.InState oldBin) :
    (reconcileAppState old new oldBin c).Within P := by
  refine sat_bind (A := fun _ => True) (sat_foldlM ?_ trivial) fun r _ => ?_
  · intro r _ rel hrel
    obtain ⟨hold, hnew⟩ := hW rel (hc.unreadable rel hrel)
    refine sat_bind (sat_moveStateEntry h.looks (h.rename hold hnew)) fun res _ => ?_
    cases res with
    | ok _ => trivial
    | error e =>
      refine sat_bind (h.looks.sat trivial) fun res _ => ?_
      cases res with
      | ok _ => trivial
      | error e => cases e <;> trivial
  · refine sat_bind (sat_walkDir h.looks old id (A := fun _ => True) trivial
      (sat_visit fun b ev _ => sat_reconcileVisit h hW htemp c b ev)) fun r _ => ?_
    refine sat_foldlM (fun r _ e he => ?_) trivial
    exact sat_dropVolatile h hW (hc.entries e.1 e.2 (GoMap.lookup_eq_some_iff.mpr he)) r e.2

end

/-! ## Backups -/

structure DetachAllowed (P : OpSet) (l : Loc Place) : Prop where
  looks : Looks P
  temp : P _ (.copyToTemp l l.parent ".detach-")
  rename : ∀ tmp, P _ (.rename (l.parent.sub [tmp]) l)
  remove : ∀ tmp, P _ (.remove (l.parent.sub [tmp]))

theorem sat_detachFile {l : Loc Place} (h : DetachAllowed P l) : (detachFile l).Within P := by
  refine sat_call_bind h.temp fun r => ?_
  obtain ⟨tmp, e⟩ := r
  cases tmp with
  | none => trivial
  | some tmp =>
    cases e with
    | some e => exact sat_call_bind (h.remove tmp) fun _ => trivial
    | none =>
      refine sat_bind (sat_andOk (h.looks.sat trivial) fun _ =>
        sat_call (h.rename tmp)) fun r _ => ?_
      cases r with
      | error e => exact sat_call_bind (h.remove tmp) fun _ => trivial
      | ok _ => trivial

theorem sat_stripVisit {ev : Event} (hremove : P _ (.remove (p.at ev.path)))
    (hdetach : DetachAllowed P (p.at ev.path)) : (stripVisit p () ev).Within P := by
  unfold stripVisit
  cases ev.error with
  | some e => trivial
  | none =>
    cases ev.type with
    | dir => trivial
    | file kind =>
      cases kind with
      | socket => exact sat_call_bind hremove fun _ => trivial
      | regular =>
        exact sat_try (hdetach.looks.sat trivial) (fun _ => trivial) fun _ => sat_ite
          (fun _ => trivial) fun _ => sat_bind (sat_detachFile hdetach) fun _ _ => trivial
      | _ => trivial

theorem sat_removeOldBinary (h : ∀ rel, P _ (.remove (p.at rel))) (bin : Option Path) :
    (removeOldBinary p bin).Within P := by
  cases bin with
  | none => trivial
  | some bin => exact sat_call_bind (h bin) fun _ => trivial

theorem sat_finishBackup (h : Allows P W) (hp : ∀ rel, W (p.at rel)) (fmt : Formats)
    (bin : Option Path) (m : AppBackupMeta) : (finishBackup fmt p bin m).Within P := by
  refine sat_bind (A := fun _ => True) ?_ fun _ _ =>
    sat_call_bind (h.writeFile _ (hp _)) fun _ => trivial
  have hremove := fun rel => h.remove (hp rel)
  refine sat_bind (sat_removeOldBinary hremove bin) fun _ _ => ?_
  exact sat_bind (sat_walkDir h.looks p id (A := fun _ => True) trivial
    (sat_visit fun _ ev _ => sat_stripVisit (hremove _)
      ⟨h.looks, h.temp _, fun _ => h.rename (hp _) (hp _), fun _ => hremove _⟩)) fun _ _ => trivial

theorem sat_removeBackups (h : Looks P) {paths : List Place}
    (hp : ∀ p ∈ paths, P _ (.removeAll p.dir)) (removed : List Place) :
    (removeBackups removed paths).Within P := by
  induction paths generalizing removed with
  | nil => trivial
  | cons p rest ih =>
    have hrest := fun q hq => hp q (List.mem_cons_of_mem p hq)
    refine sat_bind (sat_removeAllForce h (hp p (.head _))) fun r _ => ?_
    cases r with
    | ok _ | error e => exact ih hrest _

theorem sat_readMetas (h : Looks P) (fmt : Formats) (paths : List Place) :
    (paths.foldlM (fun b p => ByKind.add b p <$> readBackupMeta fmt p) ({} : ByKind)).Sat P
      fun b => b.reinstall ⊆ paths ∧ b.upgrade ⊆ paths := by
  refine sat_foldlM (B := fun b : ByKind => b.reinstall ⊆ paths ∧ b.upgrade ⊆ paths)
    (fun b hb p hp => ?_) ⟨List.nil_subset _, List.nil_subset _⟩
  have hadd : ∀ {ps : List Place}, ps ⊆ paths → ps ++ [p] ⊆ paths := fun hps =>
    List.append_subset.mpr ⟨hps, List.cons_subset.mpr ⟨hp, List.nil_subset _⟩⟩
  refine sat_map (sat_readBackupMeta h fmt p) fun m _ => ?_
  unfold ByKind.add
  cases m with
  | none => exact hb
  | some m =>
    dsimp only
    split
    · exact hb
    · split
      · exact ⟨hb.1, hadd hb.2⟩
      · exact ⟨hadd hb.1, hb.2⟩
      · exact hb

theorem oldest_subset (keep : Nat) (list : List Place) : oldest keep list ⊆ list :=
  (List.take_sublist _ _).subset

theorem sat_pruneBackupDirs (h : Looks P) (fmt : Formats) {paths : List Place}
    (hp : ∀ p ∈ paths, P _ (.removeAll p.dir)) (keep : Nat) :
    (pruneBackupDirs fmt paths keep).Within P := by
  refine sat_bind (sat_readMetas h fmt paths) fun b hb => ?_
  refine sat_bind (sat_removeBackups h (fun p hmem => hp p (hb.1 (oldest_subset _ _ hmem))) [])
    fun removed _ => ?_
  exact sat_removeBackups h (fun p hmem => hp p (hb.2 (oldest_subset _ _ hmem))) removed

theorem sat_pruneAppBackups (h : Looks P) (fmt : Formats) {loc : Location}
    (hp : ∀ name, P _ (.removeAll (Place.backup loc name).dir)) (keep : Nat) :
    (pruneAppBackups fmt loc keep).Within P := by
  refine sat_try (sat_call (h _ _ trivial)) (fun _ => trivial) fun places => ?_
  refine sat_pruneBackupDirs h fmt (fun p hmem => ?_) keep
  obtain ⟨name, -, rfl⟩ := List.mem_map.mp hmem
  exact hp name

theorem sat_parkedBackups (h : Looks P) :
    parkedBackups.Sat P fun ps => ∀ p ∈ ps, ∃ stamp, p = .parked stamp := by
  refine sat_try (sat_call (h _ _ trivial)) (fun _ => nofun)
    fun places => ?_
  intro p hp
  obtain ⟨stamp, -, rfl⟩ := List.mem_map.mp hp
  exact ⟨stamp, rfl⟩

theorem sat_copyTreeForBackup {dst : Place} (h : Allows P W) (hdst : ∀ rel, W (dst.at rel))
    (src : Place) (bin : Option Path) : (copyTreeForBackup src dst bin).Within P := by
  refine sat_bind (sat_walkDir h.looks src id (A := fun _ => True) trivial
    (sat_visit fun _ ev _ => ?_)) fun r _ => ?_
  · unfold copyVisit
    cases ev.error with
    | some e => trivial
    | none =>
      refine sat_bind (sat_andOk (h.looks.sat trivial) fun _ => ?_) fun r _ => ?_
      · cases ev.type with
        | dir => exact sat_call (h.mkdir (hdst _))
        | file kind =>
          refine sat_ite (fun _ => trivial) fun _ => ?_
          cases kind with
          | symlink =>
            exact sat_andOk (h.looks.sat trivial) fun link =>
              sat_call (h.symlink link (hdst _))
          | regular => exact sat_call (h.copyFile _ (hdst _))
          | _ => trivial
      · cases r <;> trivial
  · obtain ⟨_, e⟩ := r
    cases e <;> trivial

structure MoveAllowed (P : OpSet) (W : Loc Place → Prop) (src dst : Place) : Prop where
  copy : Allows P W
  names : ∀ rel, W (dst.at rel)
  move : P _ (.rename src.dir dst.dir)
  disable : P _ (.rename src.manifest (src.at [disabledManifestName]))
  park : ∀ now, P _ (.rename src.dir (Place.parked now).dir)
  remove : P _ (.removeAll src.dir)
  undo : P _ (.removeAll dst.dir)

section

variable {src dst : Place} (h : MoveAllowed P W src dst)
include h

theorem sat_parkOriginal (e : Errno) :
    (parkOriginal src dst e).Sat P fun r => ∀ p, r.1 = some p → p = dst := by
  refine sat_bind (h.copy.looks.sat trivial) fun now _ => ?_
  refine sat_call_bind (h.park now) fun r => ?_
  cases r <;> exact fun p hp => (Option.some.inj hp).symm

theorem sat_copyIntoBackup (bin : Option Path) :
    (copyIntoBackup src dst bin).Sat P fun r => ∀ p, r.1 = some p → p = dst := by
  refine sat_try (sat_copyTreeForBackup h.copy h.names src bin)
    (fun _ => sat_bind (sat_removeAllForce h.copy.looks h.undo) fun _ _ => nofun) fun _ => ?_
  refine sat_bind (sat_disableManifest h.disable) fun _ _ => ?_
  exact sat_try (sat_removeAllForce h.copy.looks h.remove) (fun e => sat_parkOriginal h e)
    fun _ => fun p hp => (Option.some.inj hp).symm

theorem sat_moveToBackup (bin : Option Path) :
    (moveToBackup src dst bin).Sat P fun r => ∀ p, r.1 = some p → p = dst := by
  refine sat_try (sat_call h.move) (fun e => ?_) fun _ =>
    fun p hp => (Option.some.inj hp).symm
  cases e with
  | crossDevice => exact sat_copyIntoBackup h bin
  | _ => exact nofun

end

end

end PilotProtocol.AppStore
