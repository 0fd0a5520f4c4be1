import PilotProtocol.AppStore.Footprint

/-! # A sideloaded bundle is never seen as catalogue-trusted

The supervisor trusts a manifest in a dir directly under the install root as one of
the catalogue unless a sideload marker stands beside it. The marker is planted
before the manifest is written, whole dirs are renamed, and no step of an install
touches either file in another way, so the two agree at every moment. The one
exception is the recursive removal of a dir, which takes its files one by one: the
staging dir of a sideload is discarded without disabling its manifest first, so the
marker may go before the manifest.
-/

namespace PilotProtocol.AppStore.Sideload
open PilotProtocol.Library FS

/-! ## What the supervisor sees -/

def underRoot : Place → Bool
  | .backup .. => false
  | _ => true

def marker (p : Place) : Loc Place := p.at [sideloadMarkerName]

def manifestSource (s : Disk) (p : Place) : Option InstallSource :=
  (s.content p.manifest).bind fun x => x.2.origin

/-- In every dir the marker is there if the manifest came from a local install, and not if
it came from the catalogue. -/
def Trusted (s : Disk) : Prop :=
  ∀ p, underRoot p = true →
    (manifestSource s p = some .localBundle → s.find (marker p) ≠ none) ∧
    (manifestSource s p = some .catalogue → s.find (marker p) = none)

def Unshared (s : Disk) : Prop :=
  ∀ p, underRoot p = true → ∀ i, s.find p.manifest = some (.node i) →
    ∀ l, s.find l = some (.node i) → l = p.manifest

structure Safe (s : Disk) : Prop where
  trusted : Trusted s
  unshared : Unshared s

variable {s m : Disk} {p q : Place} {l : Loc Place} {n : String} {c : Choice Place InstallSource}
  {K : Disk → Prop}

theorem manifestSource_eq {src : InstallSource} : manifestSource s p = some src ↔
      ∃ i, s.find p.manifest = some (.node i) ∧ (s.inode i).data.origin = some src := by
  unfold manifestSource
  rw [Option.bind_eq_some_iff]
  constructor
  · rintro ⟨x, hx, horigin⟩
    obtain ⟨i, hi, rfl⟩ := content_eq_some.mp hx
    exact ⟨i, hi, horigin⟩
  · rintro ⟨i, hi, horigin⟩
    exact ⟨_, content_eq_some.mpr ⟨i, hi, rfl⟩, horigin⟩

/-- What `Trusted` says of one dir. -/
def Agrees (s : Disk) (p : Place) : Prop :=
  (manifestSource s p = some .localBundle → s.find (marker p) ≠ none) ∧
    (manifestSource s p = some .catalogue → s.find (marker p) = none)

theorem Agrees.of_kept (h : Agrees s p) (hmarker : m.find (marker q) = s.find (marker p))
    (hmanifest : ∀ i, m.find q.manifest = some (.node i) → s.find p.manifest = some (.node i) ∧
      (m.inode i).data.origin = (s.inode i).data.origin) : Agrees m q := by
  have hsource : ∀ src, manifestSource m q = some src → manifestSource s p = some src := by
    intro src hm
    obtain ⟨i, hi, horigin⟩ := manifestSource_eq.mp hm
    obtain ⟨hi, hsame⟩ := hmanifest i hi
    exact manifestSource_eq.mpr ⟨i, hi, hsame ▸ horigin⟩
  unfold Agrees
  rw [hmarker]
  exact ⟨fun hm => h.1 (hsource _ hm), fun hm => h.2 (hsource _ hm)⟩

/-! ## Steps that leave both files alone -/

/-- Neither a manifest nor a marker the supervisor looks at. -/
def NotMark (l : Loc Place) : Prop := ∀ p, underRoot p = true → l ≠ p.manifest ∧ l ≠ marker p

def Plain (l : Loc Place) : Prop :=
  underRoot l.root = false ∨
    (l.path ≠ [] ∧ l.path ≠ [manifestName] ∧ l.path ≠ [sideloadMarkerName])

theorem Plain.notMark (h : Plain l) : NotMark l := by
  intro p hp
  obtain hroot | ⟨-, hmanifest, hmarker⟩ := h
  · constructor <;>
    · rintro rfl
      simp [show underRoot p = false from hroot] at hp
  · exact ⟨fun h => hmanifest (congrArg Loc.path h), fun h => hmarker (congrArg Loc.path h)⟩

theorem Plain.rest_eq_none (h : Plain l) (hp : underRoot p = true)
    (hn : n = manifestName ∨ n = sideloadMarkerName) : l.rest (p.at [n]) = none := by
  rw [Loc.rest_eq_none]
  intro t ht
  obtain ⟨hroot, hpath⟩ := Loc.mk.inj ht
  obtain hbackup | ⟨hnil, hmanifest, hmarker⟩ := h
  · simp [← hroot, hp] at hbackup
  · cases hl : l.path with
    | nil => exact hnil hl
    | cons a rest =>
      rw [hl] at hpath
      obtain ⟨rfl, hrest⟩ := List.cons.inj hpath
      rw [(List.append_eq_nil_iff.mp hrest.symm).1] at hl
      obtain rfl | rfl := hn
      · exact hmanifest hl
      · exact hmarker hl

/-- Both files are where they were, and no manifest got another origin. -/
structure Marks (s m : Disk) : Prop where
  manifest : ∀ p, underRoot p = true → m.find p.manifest = s.find p.manifest
  marker : ∀ p, underRoot p = true → m.find (marker p) = s.find (marker p)
  origin : ∀ p i, underRoot p = true → s.find p.manifest = some (.node i) →
    (m.inode i).data.origin = (s.inode i).data.origin
  unshared : Unshared m

theorem Marks.safe (h : Marks s m) (hs : Safe s) : Safe m := by
  refine ⟨fun p hp => Agrees.of_kept (hs.trusted p hp) (h.marker p hp) fun i hi => ?_, h.unshared⟩
  rw [h.manifest p hp] at hi
  exact ⟨hi, h.origin p i hp hi⟩

theorem marks_of_added {e : Entry} (hs : Unshared s) (hl : NotMark l)
    (hfind : ∀ k, m.find k = if k = l then some e else s.find k)
    (hinode : ∀ i, i < s.next → m.inode i = s.inode i)
    (hnode : ∀ p i, underRoot p = true → s.find p.manifest = some (.node i) → e ≠ .node i) :
    Marks s m := by
  have hmanifest : ∀ p, underRoot p = true → m.find p.manifest = s.find p.manifest := fun p hp => by
    rw [hfind, if_neg (hl p hp).1.symm]
  refine ⟨hmanifest, fun p hp => by rw [hfind, if_neg (hl p hp).2.symm],
    fun p i _ hi => by rw [hinode i (s.node_lt hi)], fun p hp i hi k hk => ?_⟩
  rw [hmanifest p hp] at hi
  rw [hfind] at hk
  split at hk
  · exact absurd (Option.some.inj hk) (hnode p i hp hi)
  · exact hs p hp i hi k hk

theorem marks_of_find (hs : Unshared s) (hinode : m.inode = s.inode)
    (hmanifest : ∀ p, underRoot p = true → m.find p.manifest = s.find p.manifest)
    (hmarker : ∀ p, underRoot p = true → m.find (marker p) = s.find (marker p))
    (hnames : ∀ k i, m.find k = some (.node i) → ∃ k', s.find k' = some (.node i) ∧
      ∀ p, underRoot p = true → k' = p.manifest → k = k') : Marks s m := by
  refine ⟨hmanifest, hmarker, fun p i _ _ => by rw [hinode], fun p hp i hi k hk => ?_⟩
  rw [hmanifest p hp] at hi
  obtain ⟨k', hk', heq⟩ := hnames k i hk
  have hk'' := hs p hp i hi k' hk'
  rw [heq p hp hk'', hk'']

theorem marks_of_wrote {D : File → Prop} {behind : Option (Loc Place)} (hs : Unshared s)
    (hl : NotMark l) (hbehind : behind.map Loc.path ≠ some [manifestName])
    (h : s.Wrote D behind l m) : Marks s m := by
  cases h with
  | fresh n _ _ _ hfind _ hinode =>
    refine marks_of_added hs hl hfind (fun i hi => ?_) fun p i hp hi heq => ?_
    · rw [hinode, Function.update_of_ne hi.ne]
    · cases heq
      exact absurd (s.node_lt hi) (lt_irrefl _)
  | existing i n _ _ _ hnamed hfind _ hinode =>
    have hne : ∀ p j, underRoot p = true → s.find p.manifest = some (.node j) → j ≠ i := by
      rintro p j hp hj rfl
      obtain hi | ⟨-, l', hl', hi⟩ := hnamed
      · exact (hl p hp).1 (hs p hp j hj l hi)
      · rw [hl', hs p hp j hj l' hi] at hbehind
        exact hbehind rfl
    refine ⟨fun p _ => by rw [hfind], fun p _ => by rw [hfind], fun p j hp hj => ?_,
      fun p hp j hj k hk => ?_⟩
    · rw [hinode, Function.update_of_ne (hne p j hp hj)]
    · rw [hfind] at hj hk
      exact hs p hp j hj k hk
  | outside hsame _ =>
    subst hsame
    exact ⟨fun _ _ => rfl, fun _ _ => rfl, fun _ _ _ _ => rfl, hs⟩

theorem Marks.refl (hs : Unshared s) : Marks s s :=
  ⟨fun _ _ => rfl, fun _ _ => rfl, fun _ _ _ _ => rfl, hs⟩

theorem marks_of_rename {src dst : Loc Place} (hs : Unshared s) (hsrc : Plain src)
    (hdst : Plain dst) (h : s.rename src dst = .ok m) : Marks s m := by
  obtain ⟨-, hinode, -, ⟨rfl, -⟩ | ⟨hfind, -, -⟩⟩ := rename_ok h
  · exact Marks.refl hs
  · refine marks_of_find hs hinode (fun p hp => ?_) (fun p hp => ?_) fun k i hk => ?_
    · exact (congrFun hfind _).trans
        (moved_other _ (hdst.rest_eq_none hp (.inl rfl)) (hsrc.rest_eq_none hp (.inl rfl)))
    · exact (congrFun hfind _).trans
        (moved_other _ (hdst.rest_eq_none hp (.inr rfl)) (hsrc.rest_eq_none hp (.inr rfl)))
    · rw [hfind] at hk
      cases hrest : dst.rest k with
      | some t =>
        obtain rfl := Loc.rest_eq_some.mp hrest
        rw [moved_sub] at hk
        refine ⟨src.sub t, hk, fun p hp heq => ?_⟩
        have := hsrc.rest_eq_none hp (n := manifestName) (.inl rfl)
        rw [show p.at [manifestName] = p.manifest from rfl, ← heq, Loc.rest_sub] at this
        cases this
      | none =>
        rw [moved, hrest] at hk
        dsimp only at hk
        split at hk
        · cases hk
        · exact ⟨k, hk, fun _ _ _ => rfl⟩

def Tame : OpSet
  | _, .mkdir l => NotMark l
  | _, .symlink _ l => NotMark l
  | _, .link src dst => NotMark src ∧ NotMark dst
  | _, .writeFile l _ => NotMark l
  | _, .appendFile l _ => NotMark l
  | _, .copyFile _ dst => NotMark dst
  | _, .copyToTemp _ _ base => base = ".detach-"
  | _, .remove l => NotMark l
  | _, .rename src dst => Plain src ∧ Plain dst
  | _, .removeAll _ => False
  | _, _ => True

theorem append_ne {start t : String} (h : ¬ start.toList <+: n.toList) : start ++ t ≠ n := by
  rintro rfl
  rw [String.toList_append] at h
  exact h (List.prefix_append _ _)

theorem sub_plain {dir : Loc Place} (hmanifest : n ≠ manifestName)
    (hmarker : n ≠ sideloadMarkerName) : Plain (dir.sub [n]) := by
  have hlast : ∀ k : String, dir.path ++ [n] = [k] → n = k := by
    intro k h
    have := congrArg (fun q => q.getLastD "") h
    simpa using this
  exact .inr ⟨by simp, fun h => hmanifest (hlast _ h), fun h => hmarker (hlast _ h)⟩

theorem detach_plain (dir : Loc Place) (k : Nat) : Plain (dir.sub [".detach-" ++ toString k]) :=
  sub_plain (append_ne (by decide +kernel)) (append_ne (by decide +kernel))

theorem tame_marks {β : Type} {o : FileOp Place InstallSource β} (hs : Unshared s) (ho : Tame β o)
    (hbehind : c.behind.map Loc.path ≠ some [manifestName]) (h : o.Effect c s m) : Marks s m := by
  cases o with
  | mkdir l =>
    obtain ⟨hv, rfl⟩ := mkdir_ok h
    exact marks_of_added hs ho (find_put hv trivial) (fun i _ => by rw [inode_put])
      fun p i _ _ => Entry.noConfusion
  | symlink target l =>
    obtain ⟨hv, rfl⟩ := symlink_ok h
    refine marks_of_added hs ho (find_newNode hv _) (fun i hi => ?_) fun p i hp hi heq => ?_
    · rw [inode_newNode, Function.update_of_ne hi.ne]
    · cases heq
      exact absurd (s.node_lt hi) (lt_irrefl _)
  | link src dst =>
    obtain ⟨i, hi, hv, rfl⟩ := link_ok h
    refine marks_of_added hs ho.2 (find_put hv (s.node_lt hi)) (fun j _ => by rw [inode_put])
      fun p j hp hj heq => ?_
    cases heq
    exact (ho.1 p hp).1 (hs p hp i hj src hi)
  | writeFile l d | appendFile l d | copyFile src dst => exact marks_of_wrote hs ho hbehind h
  | copyToTemp src dir base =>
    obtain ⟨k, -, hwrote⟩ := h
    rw [show base = ".detach-" from ho] at hwrote
    exact marks_of_wrote hs (detach_plain dir k).notMark (by simp) hwrote
  | remove l =>
    obtain ⟨-, hleaf, rfl⟩ := remove_ok h
    refine marks_of_find hs (inode_erase s l) (fun p hp => ?_) (fun p hp => ?_)
      fun k i hk => ?_
    · rw [find_erase hleaf, if_neg (ho p hp).1.symm]
    · rw [find_erase hleaf, if_neg (ho p hp).2.symm]
    · rw [find_erase hleaf] at hk
      split at hk
      · cases hk
      · exact ⟨k, hk, fun _ _ _ => rfl⟩
  | rename src dst => exact marks_of_rename hs ho.1 ho.2 h
  | removeAll l => exact absurd ho id
  | _ => exact absurd h id

/-! ## Steps that move or remove whole dirs -/

theorem trusted_as (hs : Trusted s) (hp : underRoot p = true)
    (hinode : ∀ i, i < s.next → m.inode i = s.inode i)
    (hfind : ∀ n, m.find (q.at [n]) = s.find (p.at [n])) : Agrees m q := by
  refine Agrees.of_kept (hs p hp) (hfind _) fun i hi => ?_
  have hi : s.find p.manifest = some (.node i) := (hfind manifestName).symm.trans hi
  exact ⟨hi, by rw [hinode i (s.node_lt hi)]⟩

theorem trusted_without (h : ∀ i, m.find p.manifest ≠ some (.node i)) : Agrees m p := by
  have hnone : ∀ src, manifestSource m p ≠ some src := by
    intro src hm
    obtain ⟨i, hi, -⟩ := manifestSource_eq.mp hm
    exact h i hi
  exact ⟨fun hm => absurd hm (hnone _), fun hm => absurd hm (hnone _)⟩

theorem safe_of_fresh {node : Inode InstallSource} (hs : Safe s)
    (hfind : ∀ k, m.find k = if k = p.at [n] then some (.node s.next) else s.find k)
    (hinode : m.inode = Function.update s.inode s.next node) (htrust : Agrees m p) : Safe m := by
  have hold : ∀ i, i < s.next → m.inode i = s.inode i := fun i hi => by
    rw [hinode, Function.update_of_ne hi.ne]
  refine ⟨fun r hr => ?_, fun r hr i hi k hk => ?_⟩
  · by_cases hrp : r = p
    · rwa [hrp]
    · refine trusted_as hs.trusted hr hold fun x => ?_
      rw [hfind, if_neg fun h => hrp (congrArg Loc.root h)]
  · rw [hfind] at hi hk
    split at hi
    next hnew =>
      cases hi
      split at hk
      next hkn => rw [hkn, hnew]
      · exact absurd (s.node_lt hk) (lt_irrefl _)
    · split at hk
      · cases hk
        exact absurd (s.node_lt hi) (lt_irrefl _)
      · exact hs.unshared r hr i hi k hk

theorem safe_of_dirMove (hs : Safe s) (hp : underRoot p = true) (h : s.rename p.dir q.dir = .ok m) :
    Safe m := by
  obtain ⟨hinode, -, rfl | ⟨hpq, hfind⟩⟩ := rename_root h
  · exact hs
  refine ⟨fun r hr => ?_, fun r hr i hi l hl => ?_⟩
  · by_cases hrq : r = q
    · exact trusted_as hs.trusted hp (fun i _ => congrFun hinode i) fun n => (hfind r [n]).trans (if_pos hrq)
    · by_cases hrp : r = p
      · refine trusted_without fun i => ?_
        rw [show r.manifest = ⟨r, [manifestName]⟩ from rfl, hfind, if_neg hrq, if_pos hrp]
        exact nofun
      · exact trusted_as hs.trusted hr (fun i _ => congrFun hinode i) fun n =>
          (hfind r [n]).trans ((if_neg hrq).trans (if_neg hrp))
  · -- Both names of the inode were names of one manifest before.
    cases l with
    | mk r' path =>
      rw [show r.manifest = ⟨r, [manifestName]⟩ from rfl, hfind] at hi
      rw [hfind] at hl
      have hone : ∀ {a b : Place}, underRoot a = true → s.find a.manifest = some (.node i) →
          s.find ⟨b, path⟩ = some (.node i) → b = a ∧ path = [manifestName] :=
        fun ha hi hl => Loc.mk.inj (hs.unshared _ ha i hi _ hl)
      split_ifs at hi with hrq hrp
      · split_ifs at hl with hr'q hr'p
        · rw [(hone hp hi hl).2, hr'q, hrq]; rfl
        · exact absurd (hone hp hi hl).1 hr'p
      · split_ifs at hl
        · exact absurd (hone hr hi hl).1.symm hrp
        · rw [(hone hr hi hl).1, (hone hr hi hl).2]; rfl

theorem safe_without (hs : Safe s) (hinode : m.inode = s.inode) (hnone : m.find p.manifest = none)
    (hother : ∀ l, l.root ≠ p → m.find l = s.find l)
    (hnames : ∀ l i, l.root = p → m.find l = some (.node i) →
      ∃ l', l'.root = p ∧ s.find l' = some (.node i)) : Safe m := by
  refine ⟨fun r hr => ?_, fun r hr i hi l hl => ?_⟩
  · by_cases hrp : r = p
    · refine trusted_without fun i => ?_
      rw [hrp, hnone]
      exact nofun
    · exact trusted_as hs.trusted hr (fun i _ => congrFun hinode i) fun n => hother _ hrp
  · have hrp : r ≠ p := by
      rintro rfl
      simp [hnone] at hi
    rw [hother _ hrp] at hi
    by_cases hlp : l.root = p
    · obtain ⟨l', hl', hfind⟩ := hnames l i hlp hl
      exact absurd ((congrArg Loc.root (hs.unshared r hr i hi l' hfind)).symm.trans hl') hrp
    · rw [hother l hlp] at hl
      exact hs.unshared r hr i hi l hl

theorem safe_of_inside {a b : Path} (hs : Safe s) (hinode : m.inode = s.inode)
    (hfind : m.find = moved s.find (p.at a) (p.at b)) (hnone : m.find p.manifest = none) :
    Safe m := by
  refine safe_without hs hinode hnone (fun l hl => ?_) fun l i hl hi => ?_
  · rw [hfind]
    exact moved_other _ (Loc.rest_of_root_ne hl.symm) (Loc.rest_of_root_ne hl.symm)
  · rw [hfind] at hi
    cases hk : (p.at b).rest l with
    | some t =>
      obtain rfl := Loc.rest_eq_some.mp hk
      rw [moved_sub] at hi
      exact ⟨_, rfl, hi⟩
    | none =>
      simp only [moved, hk] at hi
      split at hi
      · cases hi
      · exact ⟨l, hl, hi⟩

theorem disabled_ne (p : Place) (t : Path) : (p.at [disabledManifestName]).sub t ≠ p.manifest := by
  intro h
  obtain ⟨-, hpath⟩ := Loc.mk.inj h
  exact absurd (List.cons.inj hpath).1 (by decide)

theorem safe_of_disable (hs : Safe s)
    (h : s.rename p.manifest (p.at [disabledManifestName]) = .ok m) :
    Safe m ∧ (underRoot p = true → m.find p.manifest = none) := by
  cases hp : underRoot p with
  | false => exact ⟨(marks_of_rename hs.unshared (.inl hp) (.inl hp) h).safe hs, nofun⟩
  | true =>
    obtain ⟨-, hinode, -, ⟨-, hsame⟩ | ⟨hfind, hrest, -⟩⟩ := rename_ok h
    · exfalso
      obtain heq | ⟨i, hi, hi'⟩ := hsame
      · exact disabled_ne p [] (by rw [Loc.sub_nil, heq])
      · exact disabled_ne p [] (by rw [Loc.sub_nil, hs.unshared p hp i hi _ hi'])
    have hnone : m.find p.manifest = none := by
      rw [hfind]
      have hmoved := moved_src s.find (disabled_ne p) hrest []
      rwa [Loc.sub_nil] at hmoved
    exact ⟨safe_of_inside hs hinode hfind hnone, fun _ => hnone⟩

/-- In every prefix of the list that holds `b`, `a` comes too. -/
def Precedes {α : Type} (a b : α) (ls : List α) : Prop :=
  ∀ pre post, ls = pre ++ post → b ∈ pre → a ∈ pre

theorem precedes_cons {α : Type} {a b x : α} {ls : List α} (hx : x ≠ b)
    (h : a = x ∨ Precedes a b ls) : Precedes a b (x :: ls) := by
  intro pre post heq hb
  cases pre with
  | nil => cases hb
  | cons y pre =>
    obtain ⟨rfl, hls⟩ := List.cons.inj heq
    obtain rfl | hprec := h
    · exact .head _
    · exact List.mem_cons_of_mem x (hprec pre post hls ((List.mem_cons.mp hb).resolve_left hx.symm))

/-- The order in which a removal takes a dir's names lets the manifest go first. -/
def ManifestFirst (order : List Path) : Prop :=
  [sideloadMarkerName] ∉ order ∨
    [manifestName] ∈ order.takeWhile fun q => q ≠ [sideloadMarkerName]

instance (order : List Path) : Decidable (ManifestFirst order) :=
  inferInstanceAs (Decidable (_ ∨ _))

/-- What is not in the given order is taken from the end of the alphabet, where the manifest
comes before the marker. -/
theorem precedes_removal {order rest : List Path} (horder : ManifestFirst order)
    (hsorted : rest.Pairwise (fun a b : Path => b ≤ a))
    (hmem : [sideloadMarkerName] ∈ rest → [manifestName] ∈ rest) :
    Precedes [manifestName] [sideloadMarkerName] (order ++ rest) := by
  induction order with
  | nil =>
    intro pre post heq hmarker
    subst heq
    obtain hpre | hpost := List.mem_append.mp (hmem (List.mem_append_left post hmarker))
    · exact hpre
    · have hle := (List.pairwise_append.mp hsorted).2.2 _ hmarker _ hpost
      exact absurd hle (by decide)
  | cons q order ih =>
    obtain hno | htake := horder
    · have hq : q ≠ [sideloadMarkerName] := fun h => hno (h ▸ (.head _))
      exact precedes_cons hq (.inr (ih (.inl fun h => hno (List.mem_cons_of_mem q h))))
    · by_cases hq : q = [sideloadMarkerName]
      · simp [hq] at htake
      · rw [List.takeWhile_cons_of_pos (by simpa using hq)] at htake
        exact precedes_cons hq ((List.mem_cons.mp htake).imp id fun h => ih (.inr h))

theorem safe_of_removeEach {ls : List (Loc Place)} (hs : Safe s) (hls : ∀ l ∈ ls, l.root = p)
    (horder : underRoot p = true → ∀ i, s.find p.manifest = some (.node i) →
      Precedes p.manifest (marker p) ls) (h : m ∈ s.removeEach ls) : Safe m := by
  obtain ⟨hinode, -, pre, post, heq, hfind, hpre⟩ := removeEach_moment h
  have hkept : ∀ {l : Loc Place} {i}, m.find l = some (.node i) → s.find l = some (.node i) := by
    intro l i hl
    obtain hsame | ⟨hnone, -⟩ := hfind l
    · exact hsame ▸ hl
    · simp [hnone] at hl
  refine ⟨fun r hr => ?_, fun r hr i hi l hl => hs.unshared r hr i (hkept hi) l (hkept hl)⟩
  have hsource : ∀ src, manifestSource m r = some src → manifestSource s r = some src := by
    intro src hm
    obtain ⟨i, hi, horigin⟩ := manifestSource_eq.mp hm
    exact manifestSource_eq.mpr ⟨i, hkept hi, hinode ▸ horigin⟩
  refine ⟨fun hm => ?_, fun hm => ?_⟩
  · obtain ⟨i, hi, -⟩ := manifestSource_eq.mp hm
    obtain hsame | ⟨-, hmarker⟩ := hfind (marker r)
    · rw [hsame]
      exact (hs.trusted r hr).1 (hsource _ hm)
    · -- The marker is gone, so the manifest is too.
      have hrp : r = p := hls (marker r) (heq ▸ List.mem_append_left post hmarker)
      subst hrp
      exact absurd hi (hpre _ (horder hr i (hkept hi) pre post heq hmarker) i)
  · have hnone := (hs.trusted r hr).2 (hsource _ hm)
    obtain hsame | ⟨hgone, -⟩ := hfind (marker r)
    · rw [hsame, hnone]
    · exact hgone

theorem removals_dir (s : Disk) (p : Place) (c : Choice Place InstallSource) : s.removals p.dir c =
      (c.order ++ if c.fail = none then (s.listing p).reverse else []).map p.at := by
  have hsub : (p.dir.sub : Path → Loc Place) = p.at := rfl
  have hrest : ∀ q, (p.dir.rest (p.at q)).isSome = true := fun q => by
    rw [← hsub, Loc.rest_sub]
    rfl
  unfold FS.removals
  cases hfail : c.fail with
  | some f => simp [hsub]
  | none =>
    have hall : ((s.listing p).reverse.map p.at).filter (fun k => (p.dir.rest k).isSome) =
        (s.listing p).reverse.map p.at := by
      rw [List.filter_eq_self]
      intro k hk
      obtain ⟨q, -, rfl⟩ := List.mem_map.mp hk
      exact hrest q
    simp only [if_true, List.map_append, hsub]
    exact congrArg _ hall

theorem safe_of_removeAll (hs : Safe s) (horder : s.find p.manifest = none ∨ ManifestFirst c.order)
    (h : m ∈ s.removeEach (s.removals p.dir c)) : Safe m := by
  rw [removals_dir] at h
  refine safe_of_removeEach (p := p) hs (fun l hl => ?_) (fun _ i hi => ?_) h
  · obtain ⟨q, -, rfl⟩ := List.mem_map.mp hl
    rfl
  have hprec : Precedes [manifestName] [sideloadMarkerName]
      (c.order ++ if c.fail = none then (s.listing p).reverse else []) := by
    refine precedes_removal (horder.resolve_left fun hnone => ?_) ?_ fun hmarker => ?_
    · simp [hnone] at hi
    · split
      · exact List.pairwise_reverse.mpr (s.listing_sorted p)
      · exact List.Pairwise.nil
    · split
      · exact List.mem_reverse.mpr (mem_listing.mpr fun hnone => nomatch hnone.symm.trans hi)
      next hfail => rw [if_neg hfail] at hmarker; cases hmarker
  intro pre post heq hmarker
  obtain ⟨pre', post', hpaths, rfl, rfl⟩ := List.map_eq_append_iff.mp heq
  obtain ⟨q, hq, hqeq⟩ := List.mem_map.mp hmarker
  obtain rfl : q = [sideloadMarkerName] := congrArg Loc.path hqeq
  exact List.mem_map.mpr ⟨[manifestName], hprec pre' post' hpaths hq, rfl⟩

/-! ## Programs -/

def removedTree {β : Type} : FileOp Place InstallSource β → Option (Loc Place)
  | .removeAll l => some l
  | _ => none

def InOrder (c : Choice Place InstallSource) (s : Disk) : Option (Loc Place) → Prop
  | none => True
  | some l => s.find (l.sub [manifestName]) = none ∨ ManifestFirst c.order

instance (c : Choice Place InstallSource) (s : Disk) : ∀ o, Decidable (InOrder c s o)
  | none => .isTrue trivial
  | some _ => inferInstanceAs (Decidable (_ ∨ _))

/-- What is asked of a run: no other process acts, nothing is written through a symlink that
leads to a manifest, and a recursive removal takes a dir's manifest before its marker. -/
def Tidy (β : Type) (c : Choice Place InstallSource) (o : FileOp Place InstallSource β)
    (s : Disk) : Prop :=
  c.others = [] ∧ c.behind.map Loc.path ≠ some [manifestName] ∧ InOrder c s (removedTree o)

instance (β : Type) (c : Choice Place InstallSource) (o : FileOp Place InstallSource β) (s : Disk) :
    Decidable (Tidy β c o s) :=
  inferInstanceAs (Decidable (_ ∧ _ ∧ _))

def Keeping (K : Disk → Prop) : OpSet := fun β o =>
  ∀ c s, Tidy β c o s → K s → ∀ m ∈ (fileMachine.exec c o s).2, K m

theorem exec_tidy {β : Type} {o : FileOp Place InstallSource β} (hc : Tidy β c o s)
    (hm : m ∈ (fileMachine.exec c o s).2) : m = s ∨ o.Effect c s m := by
  rw [exec_quiet hc.1] at hm
  exact FileOp.exec_moment hm

theorem keeping_of_effect {β : Type} {o : FileOp Place InstallSource β}
    (h : ∀ {c s m}, Tidy β c o s → K s → o.Effect c s m → K m) : Keeping K β o := by
  intro c s hc hs m hm
  obtain rfl | heffect := exec_tidy hc hm
  · exact hs
  · exact h hc hs heffect

/-- A condition that only speaks of the two files. -/
def Steady (K : Disk → Prop) : Prop := ∀ s m, K s → Safe s ∧ (Marks s m → K m)

theorem Tame.keeping (hK : Steady K) {β : Type} {o : FileOp Place InstallSource β} (ho : Tame β o) :
    Keeping K β o :=
  keeping_of_effect fun {_ s m} hc hs heffect =>
    (hK s m hs).2 (tame_marks (hK s m hs).1.unshared ho hc.2.1 heffect)

theorem steady_safe : Steady Safe := fun _ _ hs => ⟨hs, fun hm => hm.safe hs⟩

theorem keeping_dirMove (hp : underRoot p = true) : Keeping Safe _ (.rename p.dir q.dir) :=
  keeping_of_effect fun _ hs heffect => safe_of_dirMove hs hp heffect

theorem keeping_disable (p : Place) :
    Keeping Safe _ (.rename p.manifest (p.at [disabledManifestName])) :=
  keeping_of_effect fun _ hs heffect => (safe_of_disable hs heffect).1

theorem keeping_removeAll (p : Place) : Keeping Safe _ (.removeAll p.dir) :=
  keeping_of_effect fun hc hs heffect => safe_of_removeAll hs hc.2.2 heffect

section

variable {K : Disk → Prop}

theorem looks_keeping (hK : Steady K) : Looks (Keeping K) := by
  intro β o ho
  refine Tame.keeping hK ?_
  cases o <;> trivial

theorem isState_plain {oldBin : Option Path} {rel : Path} (h : IsState oldBin rel) (p : Place) :
    Plain (p.at rel) := by
  have hcontrol : ∀ n ∈ appDirControlFiles, rel ≠ [n] := by
    rintro n hn rfl
    have hskip := h.2
    simp [skipStateEntry, baseName, hn] at hskip
  exact .inr ⟨h.1, hcontrol _ (by decide), hcontrol _ (by decide)⟩

theorem temp_plain (now : Nat) (l : Loc Place) : Plain (reconcileTemp now l) := by
  have hname : ∀ n : String, ¬ ".pilot-reconcile-".toList <+: n.toList →
      reconcileTempName now (baseName l.path) ≠ n := fun n hn => append_ne hn
  exact sub_plain (hname _ (by decide +kernel)) (hname _ (by decide +kernel))

theorem allows_plain (hK : Steady K) : Allows (Keeping K) Plain where
  looks := looks_keeping hK
  mkdir hl := Tame.keeping (o := .mkdir _) hK hl.notMark
  symlink target _ hl := Tame.keeping (o := .symlink target _) hK hl.notMark
  link hsrc hdst := Tame.keeping (o := .link _ _) hK ⟨hsrc.notMark, hdst.notMark⟩
  copyFile _ _ hdst := Tame.keeping (o := .copyFile _ _) hK hdst.notMark
  writeFile d _ hl := Tame.keeping (o := .writeFile _ d) hK hl.notMark
  temp _ := Tame.keeping (o := .copyToTemp _ _ _) hK rfl
  remove hl := Tame.keeping (o := .remove _) hK hl.notMark
  rename hsrc hdst := Tame.keeping (o := .rename _ _) hK ⟨hsrc, hdst⟩

theorem state_plain (old new : Place) (oldBin : Option Path) : StateIn Plain old new oldBin :=
  fun _ h => ⟨isState_plain h old, isState_plain h new⟩

end

def Keeps {α : Type} (K : Disk → Prop) (p : Act α) : Prop :=
  ∀ s, K s → fileMachine.wp Tidy K p (fun _ s => K s) s

theorem keeps_of_sat {α : Type} {A : α → Prop} {p : Act α} (h : p.Sat (Keeping K) A) :
    Keeps K p := fun _ hs =>
  Machine.wp_mono (Machine.wp_of_sat h hs) fun _ _ hr => hr.2

theorem keeps_call {α : Type} {o : FileOp Place InstallSource α} (h : Keeping K α o) :
    Keeps K (Prog.call o) := keeps_of_sat (Prog.sat_call h)

theorem keeps_bind {α β : Type} {p : Act α} {f : α → Act β} (hp : Keeps K p)
    (hf : ∀ a, Keeps K (f a)) : Keeps K (p >>= f) := by
  intro s hs
  rw [Machine.wp_bind]
  exact Machine.wp_mono (hp s hs) fun a s' hs' => hf a s' hs'

theorem keeps_try {ε α β : Type} {p : Act (Except ε α)} {f : Except ε α → Act β} (hp : Keeps K p)
    (herror : ∀ e, Keeps K (f (.error e))) (hok : ∀ a, Keeps K (f (.ok a))) : Keeps K (p >>= f) := by
  apply keeps_bind hp
  intro r
  cases r with
  | error e => exact herror e
  | ok a => exact hok a

theorem keeps_pure {α : Type} (a : α) : Keeps K (pure a : Act α) := fun _ hs => hs

end PilotProtocol.AppStore.Sideload
