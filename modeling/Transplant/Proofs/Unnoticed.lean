import Transplant.Proofs.Agreement
import Transplant.Proofs.Detours

/-! Two runs that differ in what becomes of their snapshots. They see the same of the source and do the
same in the project, so neither notices which snapshots of it could be written. -/
namespace Transplant

open Pipeline (Stage)

namespace Path

/-- Neither of two paths comes to the other. -/
structure Separate (p q : Path) : Prop where
  there : p.Avoids q
  back : q.Avoids p

instance (p q : Path) : Decidable (p.Separate q) :=
  decidable_of_iff (p.Avoids q ∧ q.Avoids p) ⟨fun ⟨h, h'⟩ => ⟨h, h'⟩, fun ⟨h, h'⟩ => ⟨h, h'⟩⟩

/-- Where the path leads through a place above the directory that is missing, it steps back only out of
directories: what it passes by and does not end below is one. -/
def PassesDirs (p dir : Path) (t : FileTree) : Prop :=
  (∃ x ∈ p.way, x ∈ dir.way ∧ t.node? x = none) →
    ∀ y ∈ p.way, y <+: p.place ∨ t.node? y = some .dir

instance (p dir : Path) (t : FileTree) : Decidable (p.PassesDirs dir t) :=
  inferInstanceAs (Decidable (_ → _))

namespace Separate

variable {dir base p : Path}

theorem apart (separate : dir.Separate base) : FileTree.Apart dir.place base.place :=
  ⟨separate.back base.place base.place_mem_way, separate.there dir.place dir.place_mem_way⟩

theorem beyond (separate : dir.Separate base) {x : List String} (below : base.place <+: x) :
    x ∉ dir.way ∧ ¬ dir.place <+: x := by
  obtain ⟨more, rfl⟩ := below
  exact ⟨fun on => separate.there _ on (List.prefix_append _ _), separate.apart.not_within more⟩

theorem within (separate : dir.Separate base) (within : base.Within p) : p.Avoids dir := by
  intro x on
  rcases within.way on with above | below
  · exact separate.back x above
  · exact (separate.beyond below).2

theorem passesDirs {t : FileTree} (separate : dir.Separate base) (passes : base.PassesDirs dir t)
    (within : base.Within p) : p.PassesDirs dir t := by
  rintro ⟨x, on, above, gap⟩ y there
  have shared : x ∈ base.way :=
    (within.way on).resolve_right fun below => (separate.beyond below).1 above
  have down := within.place
  obtain ⟨tail, normal, split⟩ := within
  rw [way, split, mem_wayFrom_append] at there
  rcases there with front | further
  · exact (passes ⟨x, shared, above, gap⟩ y front).imp_left fun ends => ends.trans down
  · left
    have names : .parent ∉ tail := fun up => by
      simpa [Component.isNormal] using List.all_eq_true.mp normal _ up
    rw [place, split, List.foldl_append]
    exact prefix_of_mem_wayFrom names further

end Separate

end Path

namespace World

/-- Two worlds that go on from one tree. Their trees differ by the directory alone, and they are bound
to fail alike, but for what is written in it. -/
structure Parallel (dir : Path) (tree : FileTree) (w v : World) : Prop where
  aside : FileTree.Aside dir w.tree v.tree
  sound : w.tree.Sound
  sound' : v.tree.Sound
  kept : FileTree.Extends tree w.tree
  kept' : FileTree.Extends tree v.tree
  faults : ∀ access p, ¬ (access = .write ∧ dir.Within p) → v.fault? access p = w.fault? access p

/-- An operation gives one value in both worlds, and leaves them parallel. -/
structure Matches {α : Type} (dir : Path) (tree : FileTree) (done done' : α × World) : Prop where
  value : done'.1 = done.1
  parallel : Parallel dir tree done.2 done'.2

namespace Parallel

variable {dir base p : Path} {tree : FileTree} {w v : World}

theorem log (parallel : Parallel dir tree w v) (e e' : Event) :
    Parallel dir tree (w.log e) (v.log e') :=
  ⟨parallel.aside, parallel.sound, parallel.sound', parallel.kept, parallel.kept', parallel.faults⟩

theorem same (parallel : Parallel dir tree w v) {x : List String} (there : tree.node? x ≠ none)
    (apart : ¬ dir.place <+: x) : v.tree.node? x = w.tree.node? x := by
  rcases parallel.aside x apart with same | ⟨_, opened, opened'⟩
  · exact same
  · rw [opened.dir (parallel.kept.some there), opened'.dir (parallel.kept'.some there)]

section Looks

variable (parallel : Parallel dir tree w v) (there : ∀ x ∈ base.way, tree.node? x ≠ none)
  (separate : dir.Separate base) (within : base.Within p)

include parallel there separate within

theorem clear : p.Clear (FileTree.differences w.tree v.tree) := by
  apply Path.Clear.within _ within
  constructor
  · exact FileTree.misses_differences fun x on => parallel.same (there x on) (separate.back x on)
  · intro x differ below
    obtain ⟨off, apart⟩ := separate.beyond below
    exact differ (parallel.aside.node?_eq apart off)

theorem read : Matches dir tree (w.read p) (v.read p) := by
  have same := FileTree.sameBut_differences w.tree v.tree
  unfold World.read
  rw [parallel.faults .read p (by simp)]
  cases w.fault? .read p with
  | some e => exact ⟨rfl, parallel.log _ _⟩
  | none => exact ⟨same.read (parallel.clear there separate within).1, parallel.log _ _⟩

theorem contains : Matches dir tree (w.contains p) (v.contains p) := by
  have same := FileTree.sameBut_differences w.tree v.tree
  exact ⟨same.exists? (parallel.clear there separate within).1, parallel.log _ _⟩

theorem walk : Matches dir tree (w.walk p) (v.walk p) := by
  have same := FileTree.sameBut_differences w.tree v.tree
  have clear := parallel.clear there separate within
  unfold World.walk
  rw [parallel.faults .walk p (by simp)]
  cases w.fault? .walk p with
  | some e => exact ⟨rfl, parallel.log _ _⟩
  | none => exact ⟨same.walk parallel.sound parallel.sound' clear, parallel.log _ _⟩

end Looks

section Changes

variable (parallel : Parallel dir tree w v) (passes : base.PassesDirs dir tree)
  (separate : dir.Separate base) (within : base.Within p)

include parallel passes separate within

/-- A difference stands where something was missing at the start, and then no file is on the way. -/
theorem passable : FileTree.Passable w.tree v.tree p := by
  have avoids := separate.within within
  intro x on differ y there
  have gap : tree.node? x = none := by
    by_contra stood
    exact differ (parallel.same stood (avoids x on))
  obtain ⟨above, _⟩ := (parallel.aside x (avoids x on)).resolve_left differ
  have passed := separate.passesDirs passes within ⟨x, on, above, gap⟩
  have ends : x <+: p.place := (passed x on).resolve_right (by simp [gap])
  rcases passed y there with front | dir
  · exact parallel.aside.opened_of_comparable (avoids x on) (avoids y there) differ
      (List.prefix_or_prefix_of_prefix front ends)
  · exact .inr (parallel.kept.dir dir)

theorem createDir : Matches dir tree (w.createDir p) (v.createDir p) := by
  unfold World.createDir
  rw [parallel.faults .createDir p (by simp)]
  cases w.fault? .createDir p with
  | some e => exact ⟨rfl, parallel.log _ _⟩
  | none =>
    have off := (separate.beyond within.place).1
    obtain ⟨result, aside⟩ :=
      parallel.aside.makeAll (separate.within within) (parallel.passable passes separate within)
        (.inl off)
    have made := FileTree.madeDirs_makeAll w.tree p
    have made' := FileTree.madeDirs_makeAll v.tree p
    exact ⟨result, aside, parallel.sound.madeDirs made, parallel.sound'.madeDirs made',
      parallel.kept.trans (FileTree.keeps_madeDirs made).further,
      parallel.kept'.trans (FileTree.keeps_madeDirs made').further, parallel.faults⟩

theorem write (text : String) : Matches dir tree (w.write p text) (v.write p text) := by
  obtain ⟨off, apart⟩ := separate.beyond within.place
  unfold World.write
  rw [parallel.faults .write p fun ⟨_, inside⟩ => apart inside.place]
  cases w.fault? .write p with
  | some e => exact ⟨rfl, parallel.log _ _⟩
  | none =>
    obtain ⟨result, aside⟩ :=
      parallel.aside.write (separate.within within) off (parallel.passable passes separate within) text
    exact ⟨result, aside, parallel.sound.write p text, parallel.sound'.write p text,
      parallel.kept.trans (FileTree.extends_write _ _ _),
      parallel.kept'.trans (FileTree.extends_write _ _ _), parallel.faults⟩

end Changes

theorem symm (parallel : Parallel dir tree w v) : Parallel dir tree v w :=
  ⟨parallel.aside.symm, parallel.sound', parallel.sound, parallel.kept', parallel.kept,
    fun access p other => (parallel.faults access p other).symm⟩

theorem written (parallel : Parallel dir tree w v) (within : dir.Within p) (text : String) :
    Parallel dir tree (w.write p text).2 v := by
  unfold World.write
  cases w.fault? .write p with
  | some e =>
    exact ⟨parallel.aside, parallel.sound, parallel.sound', parallel.kept, parallel.kept',
      parallel.faults⟩
  | none =>
    exact ⟨(FileTree.aside_write within w.tree text).symm.trans parallel.aside,
      parallel.sound.write p text, parallel.sound', parallel.kept.trans (FileTree.extends_write _ _ _),
      parallel.kept', parallel.faults⟩

theorem snapshot (parallel : Parallel dir tree w v) (within : dir.Within p) (text : String) :
    Parallel dir tree (w.write p text).2 (v.write p text).2 :=
  ((parallel.written within text).symm.written within text).symm

end Parallel

end World

variable {α β τ : Type}

def besides (act : StateM World α) : StateM (World × τ) α :=
  fun e => ((act.run e.1).1, (act.run e.1).2, e.2)

/-- The files of a world, and a collaborator with a memory of its own. -/
def World.outsideWith (c : Collaborator (StateM τ)) : Outside (World × τ) where
  files :=
    { read := fun p => besides (World.read p)
      write := fun p text => besides (World.write p text)
      createDir := fun p => besides (World.createDir p)
      contains := fun p => besides (World.contains p)
      walk := fun p => besides (World.walk p) }
  collaborator := ⟨fun q e => (((c.ask q).run e.2).1, e.1, ((c.ask q).run e.2).2)⟩

def Call.isSnapshot (snapshots : Path) : Call → Bool
  | .write p _ _ => Stage.order.any fun stage => p == snapshots.join (Pipeline.Snapshot.fileName stage)
  | _ => false

def besidesSnapshots (snapshots : Path) (calls : List Call) : List Call :=
  calls.filter fun c => !c.isSnapshot snapshots

theorem besidesSnapshots_concat {snapshots : Path} {calls calls' : List Call}
    (same : besidesSnapshots snapshots calls' = besidesSnapshots snapshots calls) (c : Call) :
    besidesSnapshots snapshots (calls' ++ [c]) = besidesSnapshots snapshots (calls ++ [c]) := by
  simp only [besidesSnapshots, List.filter_append] at *
  rw [same]

/-- Two runs have come equally far: but for snapshots they made the same calls. -/
structure Unmoved (snapshots : Path) (tree : FileTree) (e e' : (World × τ) × List Call) : Prop where
  world : World.Parallel snapshots tree e.1.1 e'.1.1
  memory : e'.1.2 = e.1.2
  calls : besidesSnapshots snapshots e'.2 = besidesSnapshots snapshots e.2

/-- Two computations that notice nothing of the snapshots. -/
def Unnoticed (snapshots : Path) (tree : FileTree) (x y : Recorded (World × τ) α) (P : α → Prop) : Prop :=
  ∀ e e', Unmoved snapshots tree e e' →
    (y.run e').1 = (x.run e).1 ∧ P (x.run e).1 ∧ Unmoved snapshots tree (x.run e).2 (y.run e').2

namespace Unnoticed

variable {snapshots : Path} {tree : FileTree}

theorem pure {P : α → Prop} {a : α} (holds : P a) :
    Unnoticed (τ := τ) snapshots tree (Pure.pure a) (Pure.pure a) P :=
  fun _ _ unmoved => ⟨rfl, holds, unmoved⟩

theorem bind {x y : Recorded (World × τ) α} {f g : α → Recorded (World × τ) β} {P : α → Prop}
    {Q : β → Prop} (first : Unnoticed snapshots tree x y P)
    (rest : ∀ a, P a → Unnoticed snapshots tree (f a) (g a) Q) :
    Unnoticed snapshots tree (x >>= f) (y >>= g) Q := by
  intro e e' unmoved
  obtain ⟨same, holds, unmoved⟩ := first e e' unmoved
  rw [StateT.run_bind, StateT.run_bind]
  generalize x.run e = ran at same holds unmoved
  generalize y.run e' = ran' at same unmoved
  obtain ⟨a, mid⟩ := ran
  obtain ⟨a', mid'⟩ := ran'
  cases same
  exact rest a holds mid mid' unmoved

theorem mono {x y : Recorded (World × τ) α} {P Q : α → Prop}
    (unnoticed : Unnoticed snapshots tree x y P) (implies : ∀ a, P a → Q a) :
    Unnoticed snapshots tree x y Q := by
  intro e e' unmoved
  obtain ⟨same, holds, unmoved⟩ := unnoticed e e' unmoved
  exact ⟨same, implies _ holds, unmoved⟩

theorem file (act : StateM World α) (call : α → Call) {P : α → Prop}
    (holds : ∀ w, w.tree.Sound → P (act.run w).1)
    (alike : ∀ w v, World.Parallel snapshots tree w v →
      World.Matches snapshots tree (act.run w) (act.run v)) :
    Unnoticed (τ := τ) snapshots tree (record (besides act) call) (record (besides act) call) P := by
  intro e e' unmoved
  obtain ⟨value, parallel⟩ := alike e.1.1 e'.1.1 unmoved.world
  refine ⟨value, holds e.1.1 unmoved.world.sound, parallel, unmoved.memory, ?_⟩
  change besidesSnapshots snapshots (e'.2 ++ [call (act.run e'.1.1).1]) = _
  rw [value]
  exact besidesSnapshots_concat unmoved.calls _

theorem ask (c : Collaborator (StateM τ)) (q : Question) :
    Unnoticed snapshots tree ((World.outsideWith c).collaborator.recorded.ask q)
      ((World.outsideWith c).collaborator.recorded.ask q) fun _ => True := by
  rintro ⟨⟨w, memory⟩, calls⟩ ⟨⟨v, memory'⟩, calls'⟩ ⟨parallel, same, unmoved⟩
  cases same
  exact ⟨rfl, trivial, parallel, rfl, besidesSnapshots_concat unmoved _⟩

theorem isSnapshot_snapshotCall (snapshots : Path) (stage : Stage) (s : Pipeline.State)
    (r : Except FileError Unit) :
    (Pipeline.snapshotCall snapshots stage s r).isSnapshot snapshots = true :=
  List.any_eq_true.mpr ⟨stage, by cases stage <;> decide, beq_self_eq_true _⟩

theorem capture (c : Collaborator (StateM τ)) (stage : Stage) (s : Pipeline.State) :
    Unnoticed snapshots tree
      (Pipeline.Snapshot.capture (World.outsideWith c).files.recorded snapshots stage s)
      (Pipeline.Snapshot.capture (World.outsideWith c).files.recorded snapshots stage s)
      fun _ => True := by
  intro e e' unmoved
  have within := (Pipeline.snapshot_below snapshots stage).within
  refine ⟨rfl, trivial, unmoved.world.snapshot within _, unmoved.memory, ?_⟩
  have dropped : ∀ calls r, besidesSnapshots snapshots
      (calls ++ [Pipeline.snapshotCall snapshots stage s r]) = besidesSnapshots snapshots calls := by
    intro calls r
    simp [besidesSnapshots, isSnapshot_snapshotCall]
  exact (dropped _ _).trans (unmoved.calls.trans (dropped _ _).symm)

end Unnoticed

def observing (snapshots : Path) (tree : FileTree) :
    Agreement (Recorded (World × τ)) (Recorded (World × τ)) where
  Agree := Unnoticed snapshots tree
  pure := Unnoticed.pure
  bind := Unnoticed.bind
  mono := Unnoticed.mono

/-- Nothing is noticed near a source that is there, nor in projects that can be reached without the
snapshots, all of them separate from these. -/
theorem observing_files {snapshots input : Path} {roots : List Path} {tree : FileTree}
    (c : Collaborator (StateM τ)) (there : ∀ x ∈ input.way, tree.node? x ≠ none)
    (fromInput : snapshots.Separate input)
    (fromRoots : ∀ root ∈ roots, snapshots.Separate root ∧ root.PassesDirs snapshots tree) :
    (observing snapshots tree).Files [input] roots (World.outsideWith c).files.recorded
      (World.outsideWith c).files.recorded := by
  have within : ∀ {p : Path}, p.Near [input] → input.Within p := by simp [Path.Near]
  constructor
  · intro p near
    exact .file (P := fun _ => True) (World.read p) (.read p) (fun _ _ => trivial)
      fun w v parallel => parallel.read there fromInput (within near)
  · rintro p ⟨root, member, below⟩ text
    obtain ⟨separate, passes⟩ := fromRoots root member
    exact .file (P := fun _ => True) (World.write p text) (.write p text) (fun _ _ => trivial)
      fun w v parallel => parallel.write passes separate below text
  · rintro p ⟨root, member, below⟩
    obtain ⟨separate, passes⟩ := fromRoots root member
    exact .file (P := fun _ => True) (World.createDir p) (.createDir p) (fun _ _ => trivial)
      fun w v parallel => parallel.createDir passes separate below
  · intro p near
    exact .file (P := fun _ => True) (World.contains p) (.contains p) (fun _ _ => trivial)
      fun w v parallel => parallel.contains there fromInput (within near)
  · intro p near
    exact .file (P := fun r => ∀ files, r = .ok files → ∀ q ∈ files, p.Within q) (World.walk p) (.walk p)
      (fun w sound => w.walk_within sound)
      fun w v parallel => parallel.walk there fromInput (within near)

end Transplant
