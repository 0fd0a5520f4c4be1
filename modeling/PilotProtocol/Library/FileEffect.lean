import PilotProtocol.Library.FileProgram

/-! # What the operations of a file system do

`Effect` says once, for each operation, which states it can pass through; an
invariant of a program is a case analysis on it. The rules for walks follow.
-/

namespace PilotProtocol.Library

open Choice FileOp

section

variable {R T : Type} [DecidableEq R]
variable {s s₁ m : FS R T} {l src : Loc R} {c : Choice R T} {mtime : Nat} {behind : Option (Loc R)}
  {h : Handle} {D : Data T → Prop}

/-! ## What one operation does -/

def FileOp.Reads {β : Type} : FileOp R T β → Prop
  | .lstat _ | .readlink _ | .readFile _ | .walk _ | .roots | .firstFree _ | .now | .chmod _
  | .prepare _ => True
  | _ => False

namespace FS

theorem mem_listing {r : R} {p : Path} : p ∈ s.listing r ↔ s.find ⟨r, p⟩ ≠ none := by
  unfold listing
  rw [List.mem_insertionSort, List.mem_dedup, List.mem_map]
  constructor
  · rintro ⟨k, hk, rfl⟩
    obtain ⟨hroot, hfind⟩ := of_decide_eq_true (List.mem_filter.mp hk).2
    rwa [← hroot]
  · intro h
    exact ⟨⟨r, p⟩, List.mem_filter.mpr ⟨s.listed _ h, decide_eq_true ⟨rfl, h⟩⟩, rfl⟩

theorem listing_sorted (s : FS R T) (r : R) : (s.listing r).Pairwise (· ≤ ·) :=
  List.pairwise_insertionSort _ _

/-- A file was written at `l`: a new one, or the one that was there or behind a symlink
there. What it holds satisfies `D`. -/
inductive Wrote (D : Data T → Prop) (behind : Option (Loc R)) (l : Loc R) (s m : FS R T) : Prop
  | fresh (n : Inode T) (kind : n.kind = .regular) (data : D n.data) (vacant : s.Vacant l)
      (find : ∀ k, m.find k = if k = l then some (.node s.next) else s.find k)
      (next : m.next = s.next + 1) (inode : m.inode = Function.update s.inode s.next n)
  | existing (i : Nat) (n : Inode T) (kind : n.kind = .regular) (data : D n.data)
      (was : (s.inode i).kind = .regular)
      (named : s.find l = some (.node i) ∨
        (∃ k, s.find l = some (.node k) ∧ (s.inode k).kind = .symlink) ∧
          ∃ l', behind = some l' ∧ s.find l' = some (.node i))
      (find : m.find = s.find) (next : m.next = s.next)
      (inode : m.inode = Function.update s.inode i n)
  | outside (same : m = s) (symlink : ∃ k, s.find l = some (.node k) ∧ (s.inode k).kind = .symlink)

omit [DecidableEq R] in
theorem inode_write (s : FS R T) (i : Nat) (d : Data T) (mtime : Nat) :
    (s.write (.node i) d mtime).inode =
      Function.update s.inode i { s.inode i with data := d, mtime := mtime } := rfl

omit [DecidableEq R] in
@[simp] theorem find_write (s : FS R T) (h : Handle) (d : Data T) (mtime : Nat) :
    (s.write h d mtime).find = s.find := by
  cases h <;> rfl

omit [DecidableEq R] in
@[simp] theorem next_write (s : FS R T) (h : Handle) (d : Data T) (mtime : Nat) :
    (s.write h d mtime).next = s.next := by
  cases h <;> rfl

theorem openWrite_ok {keep : Bool} (hopen : s.openWrite l keep mtime behind = .ok (h, s₁)) :
    (s.Vacant l ∧ h = .node s.next ∧ s₁ = s.newNode l ⟨.regular, .empty, mtime⟩) ∨
    (∃ i, h = .node i ∧ (s.inode i).kind = .regular ∧ s₁ = s.opened i keep mtime ∧
      (s.find l = some (.node i) ∨ (∃ k, s.find l = some (.node k) ∧ (s.inode k).kind = .symlink) ∧
          ∃ l', behind = some l' ∧ s.find l' = some (.node i))) ∨
    (h = .outside ∧ s₁ = s ∧ ∃ k, s.find l = some (.node k) ∧ (s.inode k).kind = .symlink) := by
  unfold openWrite at hopen
  repeat' split at hopen
  all_goals cases hopen
  next hv => exact .inl ⟨hv, rfl, rfl⟩
  next k hk _ hkind => exact .inr (.inl ⟨k, rfl, hkind, rfl, .inl hk⟩)
  next k hk _ hsym _ j hj hkind =>
    obtain ⟨l', hl', hfind⟩ := Option.bind_eq_some_iff.mp hj
    exact .inr (.inl ⟨j, rfl, hkind, rfl, .inr ⟨⟨k, hk, hsym⟩, l', hl', hfind⟩⟩)
  next k hk _ hsym _ _ => exact .inr (.inr ⟨rfl, rfl, k, hk, hsym⟩)

theorem wrote_fresh {d : Data T} (hv : s.Vacant l) (hd : D d) : Wrote D behind l s
    ((s.newNode l ⟨.regular, .empty, mtime⟩).write (.node s.next) d mtime) := by
  refine .fresh ⟨.regular, d, mtime⟩ rfl hd hv (fun k => ?_) ?_ ?_
  · rw [find_write, find_newNode hv]
  · rw [next_write, next_newNode]
  · rw [inode_write, inode_newNode, Function.update_self, Function.update_idem]

theorem wrote_of_new (hv : s.Vacant l) (hempty : D .empty)
    (hm : m = s.newNode l ⟨.regular, .empty, mtime⟩ ∨
      ∃ d, D d ∧ m = (s.newNode l ⟨.regular, .empty, mtime⟩).write (.node s.next) d mtime) :
    Wrote D behind l s m := by
  obtain rfl | ⟨d, hd, rfl⟩ := hm
  · exact .fresh _ rfl hempty hv (find_newNode hv _) (next_newNode _ _ _) (inode_newNode _ _ _)
  · exact wrote_fresh hv hd

theorem wrote_of_write {d : Data T} (hopen : s.openWrite l false mtime behind = .ok (h, s₁))
    (hd : D d) : Wrote D behind l s (s₁.write h d mtime) := by
  obtain ⟨hv, rfl, rfl⟩ | ⟨i, rfl, hkind, rfl, hnamed⟩ | ⟨rfl, rfl, hsym⟩ := openWrite_ok hopen
  · exact wrote_fresh hv hd
  · refine .existing i { s.inode i with data := d, mtime := mtime } hkind hd hkind hnamed rfl rfl ?_
    rw [inode_write, opened, if_neg Bool.false_ne_true, setInode]
    simp only [Function.update_self, Function.update_idem]
  · exact .outside rfl hsym

theorem wrote_of_open (hopen : s.openWrite l false mtime behind = .ok (h, s₁)) (hempty : D .empty)
    (hm : m = s₁ ∨ ∃ d, D d ∧ m = s₁.write h d mtime) : Wrote D behind l s m := by
  obtain rfl | ⟨d, hd, rfl⟩ := hm
  · obtain ⟨hv, rfl, rfl⟩ | ⟨i, rfl, hkind, rfl, hnamed⟩ | ⟨rfl, rfl, hsym⟩ := openWrite_ok hopen
    · exact wrote_of_new hv hempty (.inl rfl)
    · exact .existing i { s.inode i with data := .empty, mtime := mtime } hkind hempty hkind hnamed
        rfl rfl rfl
    · exact .outside rfl hsym
  · exact wrote_of_write hopen hd

theorem wrote_of_append {d : Data T} (hopen : s.openWrite l true mtime behind = .ok (h, s₁))
    (hm : m = s₁ ∨ m = s₁.append h d mtime) :
    Wrote (fun x => x.origin = none ∨ ∃ i, x.origin = (s.inode i).data.origin) behind l s m := by
  obtain ⟨hv, rfl, rfl⟩ | ⟨i, rfl, hkind, hs₁, hnamed⟩ | ⟨rfl, rfl, hsym⟩ := openWrite_ok hopen
  · refine wrote_of_new hv (.inl rfl) (hm.imp id fun hm => ⟨_, .inl ?_, hm⟩)
    rw [inode_newNode, Function.update_self]
    rfl
  · have hs₁ : s₁ = s := hs₁
    rw [hs₁] at hm
    obtain rfl | rfl := hm
    · exact .existing i (m.inode i) hkind (.inr ⟨i, rfl⟩) hkind hnamed rfl rfl
        (Function.update_eq_self _ _).symm
    · exact .existing i { s.inode i with data := (s.inode i).data.append d, mtime := mtime } hkind
        (.inr ⟨i, rfl⟩) hkind hnamed rfl rfl rfl
  · obtain rfl | rfl := hm <;> exact .outside rfl hsym

def Copied (s : FS R T) (src : Loc R) (outside x : Data T) : Prop :=
  x = .empty ∨ (∃ j, s.find src = some (.node j) ∧ x = (s.inode j).data) ∨
    (∃ j, s.find src = some (.node j) ∧ (s.inode j).kind = .symlink) ∧ x = outside

omit [DecidableEq R] in
theorem openRead_ok (hopen : s.openRead l = .ok h) :
    (∃ i, s.find l = some (.node i) ∧ (s.inode i).kind = .regular ∧ h = .node i) ∨ h = .dir ∨
      (∃ i, s.find l = some (.node i) ∧ (s.inode i).kind = .symlink) ∧ h = .outside := by
  unfold openRead at hopen
  repeat' split at hopen
  all_goals cases hopen
  · exact .inr (.inl rfl)
  next i hi _ hkind => exact .inl ⟨i, hi, hkind, rfl⟩
  next i hi _ hkind => exact .inr (.inr ⟨⟨i, hi, hkind⟩, rfl⟩)

omit [DecidableEq R] in
theorem written_of_contents {inp out : Handle} {outside : Data T} (hopen : s.openRead src = .ok inp)
    (hinode : ∀ j, j < s.next → (s₁.inode j).data = (s.inode j).data ∨ (s₁.inode j).data = .empty)
    (hchange : (s₁.contents outside inp).map (fun d => s₁.write out d mtime) = .ok m) :
    ∃ d, s.Copied src outside d ∧ m = s₁.write out d mtime := by
  obtain ⟨j, hj, -, rfl⟩ | rfl | ⟨hsym, rfl⟩ := openRead_ok hopen
  · cases hchange
    obtain hsame | hempty := hinode j (s.node_lt hj)
    · exact ⟨_, .inr (.inl ⟨j, hj, hsame⟩), rfl⟩
    · exact ⟨_, .inl hempty, rfl⟩
  · cases hchange
  · cases hchange
    exact ⟨_, .inr (.inr ⟨hsym, rfl⟩), rfl⟩

theorem openWrite_data (hopen : s.openWrite l false mtime behind = .ok (h, s₁)) {j : Nat}
    (hj : j < s.next) : (s₁.inode j).data = (s.inode j).data ∨ (s₁.inode j).data = .empty := by
  obtain ⟨-, -, rfl⟩ | ⟨i, -, -, rfl, -⟩ | ⟨-, rfl, -⟩ := openWrite_ok hopen
  · rw [inode_newNode, Function.update_of_ne hj.ne]
    exact .inl rfl
  · show (Function.update s.inode i _ j).data = _ ∨ (Function.update s.inode i _ j).data = _
    by_cases hji : j = i
    · rw [hji, Function.update_self]
      exact .inr rfl
    · rw [Function.update_of_ne hji]
      exact .inl rfl
  · exact .inl rfl

theorem createTemp_ok {dir : Loc R} {base name : String}
    (htemp : s.createTemp dir base mtime = .ok ((name, h), s₁)) :
    (∃ k : Nat, name = base ++ toString k) ∧ s.Vacant (dir.sub [name]) ∧ h = .node s.next ∧
      s₁ = s.newNode (dir.sub [name]) ⟨.regular, .empty, mtime⟩ := by
  unfold createTemp at htemp
  dsimp only at htemp
  split at htemp
  next hv => cases htemp; exact ⟨⟨_, rfl⟩, hv, rfl, rfl⟩
  · cases htemp

end FS

omit [DecidableEq R] in
theorem Choice.moment_attempt {α : Type} {r : Except Errno (α × FS R T)} (h : m ∈ (c.attempt s r).2) :
    m = s ∨ ∃ a, r = .ok (a, m) := by
  unfold attempt answer at h
  cases hfail : c.fail with
  | some f =>
    rw [hfail] at h
    exact .inl (List.mem_singleton.mp h)
  | none =>
    rw [hfail] at h
    cases r with
    | error e => exact .inl (List.mem_singleton.mp h)
    | ok as => exact .inr ⟨as.1, by rw [List.mem_singleton.mp h]⟩

omit [DecidableEq R] in
theorem Choice.moment_writing {opened : Except Errno (Handle × FS R T)}
    {change : Handle → FS R T → Except Errno (FS R T)} (h : m ∈ (c.writing s opened change).2) :
    m = s ∨ ∃ out s₁, opened = .ok (out, s₁) ∧ (m = s₁ ∨ change out s₁ = .ok m) := by
  unfold writing at h
  split at h
  · exact .inl (List.mem_singleton.mp h)
  next out s₁ =>
    have hfirst (hm : m ∈ [s₁]) : m = s₁ ∨ change out s₁ = .ok m := .inl (List.mem_singleton.mp hm)
    have hboth {s₂} (hchange : change out s₁ = .ok s₂) (hm : m ∈ [s₁, s₂]) :
        m = s₁ ∨ change out s₁ = .ok m :=
      (List.mem_cons.mp hm).imp id fun hm => by
        rw [List.mem_singleton.mp hm, hchange]
    split at h
    next hchange => exact .inr ⟨out, s₁, rfl, hboth hchange h⟩
    · exact .inr ⟨out, s₁, rfl, hfirst h⟩
    split at h
    · exact .inl (List.mem_singleton.mp h)
    · exact .inr ⟨out, s₁, rfl, hfirst h⟩
    · exact .inr ⟨out, s₁, rfl, hboth (by assumption) h⟩
    · exact .inr ⟨out, s₁, rfl, hfirst h⟩

/-- The states an operation passes through, apart from the one it begins in. -/
def FileOp.Effect (c : Choice R T) {β : Type} (o : FileOp R T β) (s m : FS R T) : Prop :=
  match o with
  | .mkdir l => s.mkdir l = .ok m
  | .symlink target l => s.symlink target l c.now = .ok m
  | .link src dst => s.link src dst = .ok m
  | .writeFile l d => s.Wrote (fun x => x = .empty ∨ x = d) c.behind l m
  | .appendFile l _ =>
    s.Wrote (fun x => x.origin = none ∨ ∃ i, x.origin = (s.inode i).data.origin) c.behind l m
  | .copyFile src dst => s.Wrote (s.Copied src c.outside) c.behind dst m
  | .copyToTemp src dir base =>
    ∃ k : Nat, s.Vacant (dir.sub [base ++ toString k]) ∧
      s.Wrote (s.Copied src c.outside) none (dir.sub [base ++ toString k]) m
  | .remove l => s.remove l = .ok m
  | .rename src dst => s.rename src dst = .ok m
  | .removeAll l => m ∈ s.removeEach (s.removals l c)
  | _ => False

theorem FileOp.moment_copy {dst : Loc R} (h : m ∈ ((copyFile src dst).exec c s).2) :
    m = s ∨ s.Wrote (s.Copied src c.outside) c.behind dst m := by
  simp only [exec] at h
  split at h
  · exact .inl (List.mem_singleton.mp h)
  next inp hinp =>
    refine (moment_writing h).imp id ?_
    rintro ⟨out, s₁, hopen, hm⟩
    refine FS.wrote_of_open hopen (.inl rfl) (hm.imp id fun hchange => ?_)
    exact FS.written_of_contents hinp (fun j hj => FS.openWrite_data hopen hj) hchange

theorem FileOp.moment_temp {dir : Loc R} {base : String}
    (h : m ∈ ((copyToTemp src dir base).exec c s).2) :
    m = s ∨ ∃ k : Nat, s.Vacant (dir.sub [base ++ toString k]) ∧
      s.Wrote (s.Copied src c.outside) none (dir.sub [base ++ toString k]) m := by
  simp only [exec] at h
  split at h
  · exact .inl (List.mem_singleton.mp h)
  · exact .inl (List.mem_singleton.mp h)
  next inp tmp s₁ hinp htemp =>
    obtain ⟨name, out⟩ := tmp
    obtain ⟨⟨k, rfl⟩, hv, rfl, rfl⟩ := FS.createTemp_ok htemp
    have hm : m ∈ (c.writing s (.ok (.node s.next, s.newNode (dir.sub [base ++ toString k])
        ⟨.regular, .empty, c.now⟩)) fun h s =>
          (s.contents c.outside inp).map fun d => s.write h d c.now).2 := by
      split at h <;> exact h
    refine (moment_writing hm).imp id ?_
    rintro ⟨out, s₁, hopen, hm⟩
    cases hopen
    refine ⟨k, hv, FS.wrote_of_new hv (.inl rfl) (hm.imp id fun hchange => ?_)⟩
    refine FS.written_of_contents hinp (fun j hj => .inl ?_) hchange
    rw [FS.inode_newNode, Function.update_of_ne hj.ne]

theorem FileOp.exec_moment {β : Type} {o : FileOp R T β} (h : m ∈ (o.exec c s).2) :
    m = s ∨ o.Effect c s m := by
  have hmap : ∀ {r : Except Errno (FS R T)}, m ∈ (c.attempt s (r.map ((), ·))).2 →
      m = s ∨ r = .ok m := by
    intro r hm
    refine (moment_attempt hm).imp id ?_
    rintro ⟨a, ha⟩
    cases r with
    | error e => cases ha
    | ok s' => cases ha; rfl
  cases o with
  | mkdir l | symlink target l | link src dst | remove l | rename src dst => exact hmap h
  | writeFile l d =>
    refine (moment_writing h).imp id ?_
    rintro ⟨out, s₁, hopen, hm⟩
    exact FS.wrote_of_open hopen (.inl rfl) (hm.imp id fun hchange => ⟨d, .inr rfl, by cases hchange; rfl⟩)
  | appendFile l d =>
    refine (moment_writing h).imp id ?_
    rintro ⟨out, s₁, hopen, hm⟩
    exact FS.wrote_of_append hopen (hm.imp id fun hchange => (Except.ok.inj hchange).symm)
  | copyFile src dst => exact moment_copy h
  | copyToTemp src dir base => exact moment_temp h
  | removeAll l =>
    simp only [exec] at h
    split at h <;> exact List.mem_cons.mp h
  | lstat l | readlink l | readFile l | walk r | roots | firstFree names | now | chmod l
  | prepare r => exact .inl (List.mem_singleton.mp h)

/-! ## Rules for single operations

For machines on which no other process acts.
-/

def Quiet (ok : ∀ β, Choice R T → FileOp R T β → FS R T → Prop) : Prop :=
  ∀ β c (o : FileOp R T β) s, ok β c o s → c.others = []

theorem exec_quiet (hc : c.others = []) {β : Type} (o : FileOp R T β) (s : FS R T) :
    fileMachine.exec c o s = o.exec c s := by
  show o.exec c (s.changes c.others) = o.exec c s
  rw [hc]
  rfl

theorem after_quiet (hc : c.others = []) {β : Type} (o : FileOp R T β) (s : FS R T) :
    fileMachine.after c o s = (o.exec c s).2.getLastD s := by
  unfold Machine.after
  rw [exec_quiet hc]

omit [DecidableEq R] in
theorem Choice.answer_cases {α : Type} (c : Choice R T) (r : Except Errno α) :
    c.answer r = r ∨ ∃ f : Fault, c.answer r = .error f.errno := by
  unfold answer
  cases c.fail with
  | none => exact .inl rfl
  | some f => exact .inr ⟨f, rfl⟩

theorem Fault.errno_ne_notExist (f : Fault) : f.errno ≠ .notExist := by
  cases f <;> nofun

section

variable {ok : ∀ β, Choice R T → FileOp R T β → FS R T → Prop} {I : FS R T → Prop} {s : FS R T}

theorem wp_look {α : Type} {o : FileOp R T (Except Errno α)} {r : Choice R T → Except Errno α}
    (hexec : ∀ c, o.exec c s = (c.answer (r c), [s])) (hq : Quiet ok) (hI : I s)
    {Q : Except Errno α → FS R T → Prop} (hok : ∀ c a, r c = .ok a → Q (.ok a) s)
    (herr : ∀ c e, (e = .notExist → r c = .error .notExist) → Q (.error e) s) :
    fileMachine.wp ok I (.call o) Q s := by
  intro c hc
  rw [after_quiet (hq _ c _ s hc), exec_quiet (hq _ c _ s hc), hexec]
  refine ⟨fun m hm => (List.mem_singleton.mp hm) ▸ hI, ?_⟩
  obtain htrue | ⟨f, hf⟩ := c.answer_cases (r c)
  · rw [htrue]
    cases hr : r c with
    | ok a => exact hok c a hr
    | error e => exact herr c e fun he => he ▸ hr
  · rw [hf]
    exact herr c _ fun he => absurd he f.errno_ne_notExist

theorem wp_lstat (hq : Quiet ok) (hI : I s) {l : Loc R} {Q : Except Errno Info → FS R T → Prop}
    (hok : ∀ i, s.lstat l = .ok i → Q (.ok i) s)
    (herr : ∀ e, (e = .notExist → s.lstat l = .error .notExist) → Q (.error e) s) :
    fileMachine.wp ok I (.call (.lstat l)) Q s :=
  wp_look (r := fun _ => s.lstat l) (fun _ => rfl) hq hI (fun _ => hok) fun _ => herr

theorem wp_attempt {o : FileOp R T (Except Errno Unit)} {r : Choice R T → Except Errno (FS R T)}
    (hexec : ∀ c, o.exec c s = c.attempt s ((r c).map ((), ·))) (hq : Quiet ok) (hI : I s)
    {Q : Except Errno Unit → FS R T → Prop}
    (hok : ∀ c s', ok _ c o s → r c = .ok s' → I s' ∧ Q (.ok ()) s')
    (herr : ∀ c e, ok _ c o s → (e = .notExist → r c = .error .notExist) →
      (c.fail = none → r c = .error e) → Q (.error e) s) : fileMachine.wp ok I (.call o) Q s := by
  intro c hc
  rw [after_quiet (hq _ c _ s hc), exec_quiet (hq _ c _ s hc), hexec]
  unfold attempt answer
  cases hfail : c.fail with
  | some f =>
    refine ⟨fun m hm => (List.mem_singleton.mp hm) ▸ hI, ?_⟩
    exact herr c _ hc (fun he => absurd he f.errno_ne_notExist) fun h => by rw [hfail] at h; cases h
  | none =>
    cases hr : r c with
    | error e =>
      exact ⟨fun m hm => (List.mem_singleton.mp hm) ▸ hI,
        herr c e hc (fun he => he ▸ hr) fun _ => hr⟩
    | ok s' =>
      obtain ⟨hI', hQ⟩ := hok c s' hc hr
      exact ⟨fun m hm => (List.mem_singleton.mp hm) ▸ hI', hQ⟩

omit [DecidableEq R] in
theorem Choice.writing_ok {opened : Except Errno (Handle × FS R T)}
    {change : Handle → FS R T → Except Errno (FS R T)}
    (h : (c.writing s opened change).1 = .ok ()) :
    ∃ out s₁ s₂, (c.writing s opened change).2 = [s₁, s₂] ∧ opened = .ok (out, s₁) ∧
      change out s₁ = .ok s₂ := by
  unfold writing at h ⊢
  split at h
  · obtain htrue | ⟨f, hf⟩ := c.answer_cases (.error _ : Except Errno Unit)
    · cases htrue.symm.trans h
    · cases hf.symm.trans h
  next out s₁ =>
    split at h
    next s₂ _ hs₂ => exact ⟨out, s₁, s₂, rfl, rfl, hs₂⟩
    · cases h
    · split at h <;> cases h

theorem FS.Wrote.mono {D D' : Data T → Prop} {behind : Option (Loc R)} {l : Loc R} {s m : FS R T}
    (h : s.Wrote D behind l m) (hD : ∀ x, D x → D' x) : s.Wrote D' behind l m := by
  cases h with
  | fresh n kind data vacant find next inode => exact .fresh n kind (hD _ data) vacant find next inode
  | existing i n kind data was named find next inode =>
    exact .existing i n kind (hD _ data) was named find next inode
  | outside same symlink => exact .outside same symlink

theorem wp_writeFile (hq : Quiet ok) (hI : I s) {l : Loc R} {d : Data T}
    {Q : Except Errno Unit → FS R T → Prop} (hsame : ∀ e, Q (.error e) s)
    (hpart : ∀ c m, ok _ c (.writeFile l d) s → s.Wrote (fun x => x = .empty ∨ x = d) c.behind l m →
      I m ∧ ∀ e, Q (.error e) m)
    (hok : ∀ c m, ok _ c (.writeFile l d) s → s.Wrote (fun x => x = d) c.behind l m → Q (.ok ()) m) :
    fileMachine.wp ok I (.call (.writeFile l d)) Q s := by
  intro c hc
  rw [after_quiet (hq _ c _ s hc), exec_quiet (hq _ c _ s hc)]
  refine ⟨fun m hm => ?_, ?_⟩
  · obtain rfl | heffect := exec_moment hm
    · exact hI
    · exact (hpart c m hc heffect).1
  · cases hres : ((writeFile l d).exec c s).1 with
    | error e =>
      obtain hlast | heffect := Machine.getLastD_of_forall (P := fun m => m = s ∨
        (writeFile l d).Effect c s m) (.inl rfl) fun m hm => exec_moment hm
      · rw [hlast]
        exact hsame e
      · exact (hpart c _ hc heffect).2 e
    | ok _ =>
      obtain ⟨out, s₁, s₂, hmoments, hopen, hchange⟩ := writing_ok hres
      rw [show ((writeFile l d).exec c s).2 = [s₁, s₂] from hmoments]
      refine hok c s₂ hc ?_
      cases hchange
      exact FS.wrote_of_write hopen rfl

theorem wp_removeAll (hq : Quiet ok) (hI : I s) {l : Loc R} {Q : Except Errno Unit → FS R T → Prop}
    (hmoment : ∀ c m, ok _ c (.removeAll l) s → m ∈ s.removeEach (s.removals l c) → I m)
    (hQ : ∀ r m, I m → (r = .ok () → m.find l = none) → Q r m) :
    fileMachine.wp ok I (.call (.removeAll l)) Q s := by
  intro c hc
  rw [after_quiet (hq _ c _ s hc), exec_quiet (hq _ c _ s hc)]
  have hmoments : ∀ m ∈ ((removeAll l).exec c s).2, I m := by
    intro m hm
    obtain rfl | heffect := exec_moment hm
    · exact hI
    · exact hmoment c m hc heffect
  refine ⟨hmoments, hQ _ _ (Machine.getLastD_of_forall hI hmoments) fun hr => ?_⟩
  simp only [exec] at hr ⊢
  split at hr
  next hgone =>
    rw [if_pos hgone, List.getLastD_cons]
    exact Option.isNone_iff_eq_none.mp hgone
  next => cases hr

theorem wp_firstFree (hq : Quiet ok) (hI : I s) {names : Nat → R} {Q : R → FS R T → Prop}
    (hQ : ∀ k, Q (names k) s) : fileMachine.wp ok I (.call (.firstFree names)) Q s := by
  intro c hc
  rw [after_quiet (hq _ c _ s hc), exec_quiet (hq _ c _ s hc)]
  exact ⟨fun m hm => (List.mem_singleton.mp hm) ▸ hI, hQ _⟩

end

end

/-! ## Walks -/

def Visit.state {α ε : Type} : Visit α ε → α
  | .next a => a
  | .skipDir a => a
  | .stop a _ => a

section

variable {F : Type → Type} {σ γ α ε : Type} {fn : α → Event → Prog F (Visit α ε)}

theorem sat_visitAll {P : ∀ β, F β → Prop} {A : α → Prop}
    (h : ∀ a ev, A a → (visit fn a ev).Sat P fun v => A v.state) (evs : List Event) (skipped : List Path)
    {a : α} (ha : A a) : (visitAll fn evs skipped a).Sat P fun r => A r.1 := by
  induction evs generalizing skipped a with
  | nil => exact ha
  | cons ev rest ih =>
    unfold visitAll
    split
    · exact ih skipped ha
    · refine Prog.sat_bind (h a ev ha) fun v hv => ?_
      cases v with
      | next a => exact ih skipped hv
      | skipDir a => exact ih _ hv
      | stop a e => exact hv

variable {M : Machine F σ γ} {ok : ∀ β, γ → F β → σ → Prop} {I : σ → Prop}

theorem wp_visitAll {evs : List Event} (Inv : List Event → List Path → α → σ → Prop)
    {Q : α × Option ε → σ → Prop}
    (hvisit : ∀ done ev rest, evs = done ++ ev :: rest → ∀ skipped a s, Inv done skipped a s →
      skips skipped ev = false → M.wp ok I (visit fn a ev) (fun v s => match v with
        | .next a => Inv (done ++ [ev]) skipped a s
        | .skipDir a => Inv (done ++ [ev]) (ev.path :: skipped) a s
        | .stop a e => Q (a, some e) s) s)
    (hskip : ∀ done ev rest, evs = done ++ ev :: rest → ∀ skipped a s, Inv done skipped a s →
      skips skipped ev = true → Inv (done ++ [ev]) skipped a s)
    (hdone : ∀ skipped a s, Inv evs skipped a s → Q (a, none) s) {a : α} {s : σ}
    (hs : Inv [] [] a s) : M.wp ok I (visitAll fn evs [] a) Q s := by
  have hfrom : ∀ rest done, evs = done ++ rest → ∀ skipped a s, Inv done skipped a s →
      M.wp ok I (visitAll fn rest skipped a) Q s := by
    intro rest
    induction rest with
    | nil =>
      intro done hevs skipped a s hinv
      rw [List.append_nil] at hevs
      rw [← hevs] at hinv
      exact hdone skipped a s hinv
    | cons ev rest ih =>
      intro done hevs skipped a s hinv
      have hnext : evs = (done ++ [ev]) ++ rest := by
        rw [hevs, List.append_assoc, List.singleton_append]
      unfold visitAll
      split
      next hsk => exact ih _ hnext skipped a s (hskip done ev rest hevs skipped a s hinv hsk)
      next hsk =>
        rw [Machine.wp_bind]
        refine Machine.wp_mono (hvisit done ev rest hevs skipped a s hinv
          (Bool.eq_false_iff.mpr hsk)) fun v s' hv => ?_
        cases v with
        | next a => exact ih _ hnext skipped a s' hv
        | skipDir a => exact ih _ hnext _ a s' hv
        | stop a e => exact hv
  exact hfrom evs [] rfl [] a s hs

end

end PilotProtocol.Library
