import Transplant.Proofs.Looking
import Transplant.Rails.Survey
import Transplant.World

/-! What a survey gives. It only looks at the world, so what it gives is told by the files of the world
and by the calls that fail there. -/
namespace Transplant

namespace World

variable {α β : Type} {w : World} {a : α} {b : β}

/-- In all worlds with these files and faults the program gives this result, and keeps both. -/
def Gives (w : World) (x : StateM World α) (a : α) : Prop :=
  ∀ v : World, v.tree = w.tree → v.faults = w.faults →
    (x v).1 = a ∧ (x v).2.tree = w.tree ∧ (x v).2.faults = w.faults

namespace Gives

theorem pure (a : α) : w.Gives (pure a) a := fun _ tree faults => ⟨rfl, tree, faults⟩

theorem bind {x : StateM World α} {f : α → StateM World β} (first : w.Gives x a)
    (next : w.Gives (f a) b) : w.Gives (x >>= f) b := by
  intro v tree faults
  obtain ⟨same, tree, faults⟩ := first v tree faults
  have later := next (x v).2 tree faults
  change (f (x v).1 (x v).2).1 = b ∧ (f (x v).1 (x v).2).2.tree = w.tree ∧
    (f (x v).1 (x v).2).2.faults = w.faults
  rwa [same]

theorem result {x : StateM World α} (h : w.Gives x a) : (x w).1 = a := (h w rfl rfl).1

end Gives

theorem gives_read (p : Path) : w.Gives (files.read p) (w.read p).1 := by
  intro v tree faults
  simp only [files, read, fault?, faults, tree]
  split <;> exact ⟨rfl, tree, faults⟩

theorem gives_contains (p : Path) : w.Gives (files.contains p) (w.tree.exists? p) :=
  fun _ tree faults => ⟨congrArg (·.exists? p) tree, tree, faults⟩

theorem gives_walk (p : Path) : w.Gives (files.walk p) (w.walk p).1 := by
  intro v tree faults
  simp only [files, walk, fault?, faults, tree]
  split <;> exact ⟨rfl, tree, faults⟩

theorem walk_eq_or_error (w : World) (dir : Path) :
    (w.walk dir).1 = w.tree.walk dir ∨ ∃ e, (w.walk dir).1 = .error e := by
  unfold walk
  cases w.fault? .walk dir with
  | none => exact .inl rfl
  | some e => exact .inr ⟨e, rfl⟩

/-- The files that a walk gives, of which there are none where it fails. -/
def listed (w : World) (dir : Path) : List Path :=
  match (w.walk dir).1 with
  | .ok files => files
  | .error _ => []

theorem listed_eq_nil {dir : Path} {e : FileError} (failed : (w.walk dir).1 = .error e) :
    w.listed dir = [] := by
  rw [listed, failed]

theorem listed_eq_listAt {dir : Path} (walked : (w.walk dir).1 = w.tree.walk dir) :
    w.listed dir = w.tree.listAt dir := by
  rw [listed, walked]
  rfl

theorem mem_listAt_of_listed {dir p : Path} (member : p ∈ w.listed dir) : p ∈ w.tree.listAt dir := by
  rcases walk_eq_or_error w dir with walked | ⟨e, failed⟩
  · rwa [← listed_eq_listAt walked]
  · rw [listed_eq_nil failed] at member
    cases member

theorem listed_of_not_exists {dir : Path} (none : w.tree.exists? dir = false) : w.listed dir = [] := by
  rw [List.eq_nil_iff_forall_not_mem]
  intro p member
  obtain ⟨sub, found, _⟩ := FileTree.find_of_mem_listAt (mem_listAt_of_listed member)
  rw [FileTree.exists?, found] at none
  cases none

def textOf (w : World) (p : Path) : String := Build.orEmpty (w.read p).1

theorem gives_readOrEmpty (p : Path) : w.Gives (files.readOrEmpty p) (w.textOf p) := by
  refine (gives_read p).bind ?_
  unfold textOf
  cases (w.read p).1 <;> exact .pure _

theorem gives_list (dir : Path) : w.Gives (files.list dir) (w.listed dir) := by
  refine (gives_contains dir).bind ?_
  cases there : w.tree.exists? dir with
  | true =>
    refine (gives_walk dir).bind ?_
    unfold listed
    cases (w.walk dir).1 <;> exact .pure _
  | false =>
    rw [listed_of_not_exists there]
    exact .pure []

end World

namespace Rails.Survey

open World (Gives)

variable {w : World} {root : Path}

theorem gives_readAll {α : Type} (read? : String → Option α) (ps : List Path) :
    w.Gives (readAll World.files read? ps) (ps.flatMap fun p => (read? (w.textOf p)).toList) := by
  induction ps with
  | nil => exact .pure []
  | cons p ps ih => exact (World.gives_readOrEmpty p).bind (ih.bind (.pure _))

theorem gives_templates (ps : List (Path × String)) : w.Gives (templates World.files ps)
    (ps.map fun p => Template.ofText p.2 (w.textOf p.1)) := by
  induction ps with
  | nil => exact .pure []
  | cons p ps ih => exact (World.gives_readOrEmpty p.1).bind (ih.bind (.pure _))

theorem gives_routes (file : Path) : w.Gives (routes World.files file)
    (if w.tree.exists? file then Route.allOfText (w.textOf file) else []) := by
  refine (World.gives_contains file).bind ?_
  split
  · exact (World.gives_readOrEmpty file).bind (.pure _)
  · exact .pure []

def rubyPaths (w : World) (dir : Path) : List Path :=
  (w.tree.listAt dir).filter fun p => p.extension? == some "rb"

theorem gives_rubyFiles (dir : Path) :
    w.Gives (rubyFiles World.files dir) ((w.listed dir).filter fun p => p.extension? == some "rb") :=
  (World.gives_list dir).bind (.pure _)

theorem gives_templateFiles (views : Path) : w.Gives (templateFiles World.files views)
    ((w.listed views).filterMap (Template.named? views)) :=
  (World.gives_list views).bind (.pure _)

/-- The application that a survey of the world finds below the root. -/
def found (w : World) (root : Path) : Application := (run World.files root w).1

theorem found_eq_listed (w : World) (root : Path) : found w root =
    ⟨((w.listed (root.join modelsDir)).filter fun p => p.extension? == some "rb").flatMap
        fun p => (Record.ofText? (w.textOf p)).toList,
      ((w.listed (root.join controllersDir)).filter fun p => p.extension? == some "rb").flatMap
        fun p => (Controller.ofText? (w.textOf p)).toList,
      if w.tree.exists? (root.join routesFile) then Route.allOfText (w.textOf (root.join routesFile))
      else [],
      ((w.listed (root.join viewsDir)).filterMap (Template.named? (root.join viewsDir))).map
        fun p => Template.ofText p.2 (w.textOf p.1)⟩ := by
  have gives : w.Gives (run World.files root) _ :=
    (gives_rubyFiles (root.join modelsDir)).bind ((gives_readAll Record.ofText? _).bind
      ((gives_rubyFiles (root.join controllersDir)).bind ((gives_readAll Controller.ofText? _).bind
        ((gives_routes (root.join routesFile)).bind
          ((gives_templateFiles (root.join viewsDir)).bind ((gives_templates _).bind (.pure _)))))))
  exact gives.result

theorem found_eq (walks : ∀ p, w.fault? .walk p = none) (root : Path) : found w root =
    ⟨(rubyPaths w (root.join modelsDir)).flatMap fun p => (Record.ofText? (w.textOf p)).toList,
      (rubyPaths w (root.join controllersDir)).flatMap fun p => (Controller.ofText? (w.textOf p)).toList,
      if w.tree.exists? (root.join routesFile) then Route.allOfText (w.textOf (root.join routesFile))
      else [],
      ((w.tree.listAt (root.join viewsDir)).filterMap (Template.named? (root.join viewsDir))).map
        fun p => Template.ofText p.2 (w.textOf p.1)⟩ := by
  have all : ∀ dir, w.listed dir = w.tree.listAt dir := by
    intro dir
    apply World.listed_eq_listAt
    rw [World.walk, walks]
  rw [found_eq_listed, all, all, all]
  rfl

end Rails.Survey

end Transplant
