import Transplant.Proofs.Shares

/-! A survey goes file by file. A file more puts its share among those of the files in front of it and
behind it, and a file that cannot be read counts as an empty one; the shares of all others stay. -/
namespace Transplant

namespace FileTree

variable {t u : FileTree}

theorem contentsAt?_write {written : FileTree} {p : Path} {text : String}
    (wrote : t.write p text = (.ok (), written)) :
    written.contentsAt? p.place = some (.ofText text) ∧
      ∀ q, q ≠ p.place → written.contentsAt? q = t.contentsAt? q := by
  have dirs := t.madeDirs_makeAbove p
  have steps := t.write_wrote p text
  rw [wrote] at steps
  cases steps with
  | written above writing =>
    rw [above] at dirs
    obtain ⟨there, others⟩ := contentsAt?_writeOver writing
    exact ⟨there, fun q other => (others q other).trans (dirs.contentsAt? q)⟩

theorem node?_eq_of_file {q : List String} (kind : SameKind t u q)
    (same : u.contentsAt? q = t.contentsAt? q) : u.node? q = t.node? q := by
  unfold SameKind at kind
  cases before : t.node? q with
  | none => simpa [before] using kind
  | some n =>
    cases n with
    | file contents => rw [← contentsAt?_eq_some_iff, same, contentsAt?_eq_some_iff, before]
    | dir =>
      rw [before, Option.map_some, Option.map_eq_some_iff] at kind
      obtain ⟨n, after, isDir⟩ := kind
      cases n with
      | dir => exact after
      | file contents => cases isDir

theorem isSome_of_sameKind {q : List String} (kind : SameKind t u q) :
    (u.contentsAt? q).isSome = (t.contentsAt? q).isSome := by
  have shape (t : FileTree) : (t.contentsAt? q).isSome = ((t.node? q).map Node.isDir == some false) := by
    rw [contentsAt?, node?]
    cases t.get? q with
    | none => rfl
    | some sub => cases sub <;> rfl
  rw [shape, shape, kind]

theorem extends_of_sameKind (kinds : ∀ q, SameKind t u q) : Extends t u := by
  intro q n there
  have kind := kinds q
  rw [SameKind, there, Option.map_some, Option.map_eq_some_iff] at kind
  exact kind

end FileTree

namespace World

open FileTree (Extends SameKind)

variable {w w' : World} {root : Path} {names : List String}

/-- A directory to survey, in a world where directories can be listed. -/
structure HasSource (w : World) (root : Path) : Prop where
  sound : w.tree.Sound
  leads : w.tree.Leads root
  walks : ∀ p, w.fault? .walk p = none

/-- The other world has one file more, under these names below the root. -/
structure Gains (w w' : World) (root : Path) (names : List String) : Prop where
  sound : w'.tree.Sound
  further : Extends w.tree w'.tree
  faults : w'.faults = w.faults
  missing : w.tree.contentsAt? (root.place ++ names) = none
  there : w'.tree.contentsAt? (root.place ++ names) ≠ none
  others : ∀ q, q ≠ root.place ++ names → w'.tree.contentsAt? q = w.tree.contentsAt? q

/-- The other world has the same files, but the one under these names below the root cannot be read. -/
structure Spoils (w w' : World) (root : Path) (names : List String) : Prop where
  sound : w'.tree.Sound
  kinds : ∀ q, SameKind w.tree w'.tree q
  there : w.tree.contentsAt? (root.place ++ names) ≠ none
  others : ∀ q, q ≠ root.place ++ names → w'.tree.contentsAt? q = w.tree.contentsAt? q
  walks : ∀ p, w'.fault? .walk p = none
  reads : ∀ p : Path, p.place ≠ root.place ++ names → w'.fault? .read p = w.fault? .read p
  fails : ∃ e, (w'.read (root.joinAll names)).1 = .error e

theorem gains_of_write (source : w.HasSource root) (named : ∀ name ∈ names, IsName name)
    (missing : w.tree.contentsAt? (root.place ++ names) = none) {text : String} {tree : FileTree}
    (wrote : w.tree.write (root.joinAll names) text = (.ok (), tree)) :
    w.Gains { w with tree } root names := by
  obtain ⟨there, others⟩ := FileTree.contentsAt?_write wrote
  rw [Path.place_joinAll named] at there others
  have tree_eq : tree = (w.tree.write (root.joinAll names) text).2 := by rw [wrote]
  refine ⟨?_, ?_, rfl, missing, by simp [there], others⟩
  · rw [tree_eq]
    exact source.sound.write _ _
  · rw [tree_eq]
    exact FileTree.extends_write _ _ _

theorem spoils_of_fault (source : w.HasSource root) (named : ∀ name ∈ names, IsName name)
    (there : w.tree.contentsAt? (root.place ++ names) ≠ none) (message : String) :
    w.Spoils { w with faults := ⟨.read, root.joinAll names, message⟩ :: w.faults } root names where
  sound := source.sound
  kinds _ := rfl
  there := there
  others _ _ := rfl
  walks p := by
    have none := source.walks p
    simp_all [fault?]
  reads p apart := by
    have other : (root.joinAll names).samePlace p = false := by
      rw [Path.samePlace, beq_eq_false_iff_ne]
      intro same
      rw [Path.place, ← same, ← Path.place, Path.place_joinAll named] at apart
      exact apart rfl
    simp [fault?, other]
  fails := by
    have here : (root.joinAll names).samePlace (root.joinAll names) = true := beq_self_eq_true _
    exact ⟨.other message, by simp [read, fault?, here]⟩

theorem read_eq_of_tree {p : Path} (fault : w'.fault? .read p = w.fault? .read p)
    (same : w'.tree.read p = w.tree.read p) : w'.textOf p = w.textOf p := by
  simp only [textOf, read, fault, same]
  cases w.fault? .read p <;> rfl

theorem Gains.textOf (gains : w.Gains w' root names) (source : w.HasSource root) {other : List String}
    (listed : other ∈ w.tree.filesBelow root.place) :
    w'.textOf (root.joinAll other) = w.textOf (root.joinAll other) := by
  have named := source.sound.filesBelow_names listed
  obtain ⟨contents, there⟩ := source.sound.mem_filesBelow.mp listed
  have last : w.tree.node? (root.place ++ other) ≠ none := by
    rw [FileTree.contentsAt?_eq_some_iff.mp there]
    simp
  apply read_eq_of_tree
  · rw [fault?, gains.faults, fault?]
  · apply gains.further.read_eq (source.leads.there named last)
    rw [Path.place_joinAll named]
    apply gains.others
    intro same
    rw [same, gains.missing] at there
    cases there

theorem Spoils.textOf (spoils : w.Spoils w' root names) {other : List String}
    (named : ∀ name ∈ other, IsName name) (apart : other ≠ names) :
    w'.textOf (root.joinAll other) = w.textOf (root.joinAll other) := by
  have place : (root.joinAll other).place ≠ root.place ++ names := by
    rw [Path.place_joinAll named]
    exact fun same => apart (List.append_cancel_left same)
  apply read_eq_of_tree (spoils.reads _ place)
  exact FileTree.read_congr (fun q _ => spoils.kinds q)
    (FileTree.node?_eq_of_file (spoils.kinds _) (spoils.others _ place))

theorem Spoils.textOf_self (spoils : w.Spoils w' root names) : w'.textOf (root.joinAll names) = "" := by
  obtain ⟨e, fails⟩ := spoils.fails
  rw [World.textOf, fails]
  rfl

/-- A file more is an entry more in the catalogue, in its place by names. -/
theorem Gains.catalogue (gains : w.Gains w' root names) (source : w.HasSource root) :
    ∃ earlier later, w.catalogue root = earlier ++ later ∧
      w'.catalogue root = earlier ++ (names, w'.textOf (root.joinAll names)) :: later ∧
      (∀ file ∈ earlier, file.1 < names) ∧ ∀ file ∈ later, names < file.1 := by
  have new : names ∉ w.tree.filesBelow root.place := by
    rw [source.sound.mem_filesBelow, gains.missing]
    simp
  have more : ∀ q, q ∈ w'.tree.filesBelow root.place ↔ q = names ∨ q ∈ w.tree.filesBelow root.place := by
    intro q
    rw [gains.sound.mem_filesBelow, source.sound.mem_filesBelow]
    by_cases same : q = names
    · subst same
      simpa using Option.ne_none_iff_exists'.mp gains.there
    · rw [gains.others _ fun h => same (List.append_cancel_left h)]
      simp [same]
  obtain ⟨earlier, later, before, after, less, greater⟩ := FileTree.split_of_ascending
    source.sound.filesBelow_ascend gains.sound.filesBelow_ascend new more
  have texts := fun other (listed : other ∈ w.tree.filesBelow root.place) => gains.textOf source listed
  rw [before, List.forall_mem_append] at texts
  refine ⟨earlier.map fun other => (other, w.textOf (root.joinAll other)),
    later.map fun other => (other, w.textOf (root.joinAll other)), ?_, ?_, ?_, ?_⟩
  · rw [World.catalogue, before, List.map_append]
  · rw [World.catalogue, after, List.map_append, List.map_cons,
      List.map_congr_left fun other member => congrArg (other, ·) (texts.1 other member),
      List.map_congr_left fun other member => congrArg (other, ·) (texts.2 other member)]
  · simpa using less
  · simpa using greater

theorem Spoils.catalogue (spoils : w.Spoils w' root names) (source : w.HasSource root) :
    ∃ earlier later, w.catalogue root = earlier ++ (names, w.textOf (root.joinAll names)) :: later ∧
      w'.catalogue root = earlier ++ (names, "") :: later ∧
      (∀ file ∈ earlier, file.1 < names) ∧ ∀ file ∈ later, names < file.1 := by
  have files : w'.tree.filesBelow root.place = w.tree.filesBelow root.place := by
    apply FileTree.eq_of_ascending spoils.sound.filesBelow_ascend source.sound.filesBelow_ascend
    intro q
    rw [spoils.sound.mem_filesBelow, source.sound.mem_filesBelow, ← Option.isSome_iff_exists,
      ← Option.isSome_iff_exists, FileTree.isSome_of_sameKind (spoils.kinds _)]
  have listed : names ∈ w.tree.filesBelow root.place :=
    source.sound.mem_filesBelow.mpr (Option.ne_none_iff_exists'.mp spoils.there)
  obtain ⟨earlier, later, split, less, greater⟩ :=
    FileTree.split_at_mem source.sound.filesBelow_ascend listed
  have off := FileTree.not_mem_split less greater
  have texts (other : List String) (member : other ∈ earlier ++ later) :
      w'.textOf (root.joinAll other) = w.textOf (root.joinAll other) := by
    have there : other ∈ w.tree.filesBelow root.place := by
      simp only [split, List.mem_append, List.mem_cons] at member ⊢
      exact member.imp_right .inr
    exact spoils.textOf (source.sound.filesBelow_names there) (ne_of_mem_of_not_mem member off)
  rw [List.forall_mem_append] at texts
  refine ⟨earlier.map fun other => (other, w.textOf (root.joinAll other)),
    later.map fun other => (other, w.textOf (root.joinAll other)), ?_, ?_, ?_, ?_⟩
  · rw [World.catalogue, split, List.map_append, List.map_cons]
  · rw [World.catalogue, files, split, List.map_append, List.map_cons, spoils.textOf_self,
      List.map_congr_left fun other member => congrArg (other, ·) (texts.1 other member),
      List.map_congr_left fun other member => congrArg (other, ·) (texts.2 other member)]
  · simpa using less
  · simpa using greater

end World

namespace Rails.Survey

variable {w w' : World} {root : Path} {names : List String}

theorem share_of_no_text (root : Path) (names : List String) (text : String) :
    share root names "" =
      ⟨[], [], [], (share root names text).templates.map fun t => ⟨t.name, [], .nil⟩⟩ := by
  have record : Record.ofText? "" = none := by decide
  have controller : Controller.ofText? "" = none := by decide
  have routes : Route.allOfText "" = [] := by decide
  have instanceVariables : Template.variablesIn "" = [] := by decide
  unfold share
  split_ifs with reach
  · unfold shareAt
    split <;> (try split_ifs) <;> 
      simp [record, controller, routes, Template.ofText, instanceVariables, Application.empty]
  · rfl

/-- What one file changes in a survey. If it comes in, its share comes in between the shares of the
files in front of it and those behind it, by the order of their names, and these stay as they are. If it
can no longer be read, its template loses its variables and the rest of its share is gone. -/
theorem changes_stay_local (source : w.HasSource root) :
    (w.Gains w' root names → ∃ earlier later,
      w.catalogue root = earlier ++ later ∧
      (∀ file ∈ earlier, file.1 < names) ∧ (∀ file ∈ later, names < file.1) ∧
      found w root = gather root earlier ++ gather root later ∧
      found w' root = gather root earlier ++
        share root names (w'.textOf (root.joinAll names)) ++ gather root later) ∧
    (w.Spoils w' root names → ∃ earlier later,
      w.catalogue root = earlier ++ (names, w.textOf (root.joinAll names)) :: later ∧
      (∀ file ∈ earlier, file.1 < names) ∧ (∀ file ∈ later, names < file.1) ∧
      found w root = gather root earlier ++
        share root names (w.textOf (root.joinAll names)) ++ gather root later ∧
      found w' root = gather root earlier ++
        ⟨[], [], [], (share root names (w.textOf (root.joinAll names))).templates.map
          fun t => ⟨t.name, [], .nil⟩⟩ ++ gather root later) := by
  have before : found w root = gather root (w.catalogue root) :=
    found_eq_gather source.walks source.leads source.sound
  constructor
  · intro gains
    have after : found w' root = gather root (w'.catalogue root) :=
      found_eq_gather (fun p => by rw [World.fault?, gains.faults]; exact source.walks p)
        (source.leads.extended gains.further) gains.sound
    obtain ⟨earlier, later, files, more, less, greater⟩ := gains.catalogue source
    refine ⟨earlier, later, files, less, greater, ?_, ?_⟩
    · rw [before, files, gather_append]
    · rw [after, more, gather_append, gather_cons, Application.append_assoc]
  · intro spoils
    have after : found w' root = gather root (w'.catalogue root) :=
      found_eq_gather spoils.walks (source.leads.extended (FileTree.extends_of_sameKind spoils.kinds))
        spoils.sound
    obtain ⟨earlier, later, files, fewer, less, greater⟩ := spoils.catalogue source
    refine ⟨earlier, later, files, less, greater, ?_, ?_⟩
    · rw [before, files, gather_append, gather_cons, Application.append_assoc]
    · rw [after, fewer, gather_append, gather_cons, Application.append_assoc, share_of_no_text]

def blog : World :=
  .ofTree (((FileTree.empty.write ⟨"in/app/models/post.rb"⟩ "class Post < ApplicationRecord").2).write
    ⟨"in/app/views/show.html.erb"⟩ "<%= @post %>").2 []

def authorFile : List String := ["app", "models", "author.rb"]

def showFile : List String := ["app", "views", "show.html.erb"]

def blogWithAuthor : World :=
  { blog with
    tree := (blog.tree.write (Path.joinAll ⟨"in"⟩ authorFile) "class Author < ApplicationRecord").2 }

def blogWithoutShow : World :=
  { blog with faults := [⟨.read, Path.joinAll ⟨"in"⟩ showFile, "unreadable"⟩] }

theorem changes_stay_local_blog :
    blog.HasSource ⟨"in"⟩ ∧ blog.Gains blogWithAuthor ⟨"in"⟩ authorFile ∧
      blog.Spoils blogWithoutShow ⟨"in"⟩ showFile ∧
      (∃ earlier later, found blog ⟨"in"⟩ = gather ⟨"in"⟩ earlier ++ gather ⟨"in"⟩ later ∧
        found blogWithAuthor ⟨"in"⟩ = gather ⟨"in"⟩ earlier ++
          { Application.empty with records := [⟨"Author", [], []⟩] } ++ gather ⟨"in"⟩ later) ∧
      ∃ earlier later, found blog ⟨"in"⟩ = gather ⟨"in"⟩ earlier ++
          { Application.empty with templates := [⟨"show", ["post"], by decide⟩] } ++ gather ⟨"in"⟩ later ∧
        found blogWithoutShow ⟨"in"⟩ = gather ⟨"in"⟩ earlier ++
          { Application.empty with templates := [⟨"show", [], .nil⟩] } ++ gather ⟨"in"⟩ later := by
  have source : blog.HasSource ⟨"in"⟩ :=
    ⟨(FileTree.Sound.empty.write _ _).write _ _, ⟨["in"], by decide +kernel, by decide +kernel⟩,
      fun _ => rfl⟩
  have wrote : blog.tree.write (Path.joinAll ⟨"in"⟩ authorFile) "class Author < ApplicationRecord" =
      (.ok (), blogWithAuthor.tree) := Prod.ext (by decide +kernel) rfl
  have gains : blog.Gains blogWithAuthor ⟨"in"⟩ authorFile :=
    World.gains_of_write source (by decide +kernel) (by decide +kernel) wrote
  have spoils : blog.Spoils blogWithoutShow ⟨"in"⟩ showFile :=
    World.spoils_of_fault source (by decide +kernel) (by decide +kernel) "unreadable"
  refine ⟨source, gains, spoils, ?_, ?_⟩
  · obtain ⟨earlier, later, _, _, _, before, after⟩ := (changes_stay_local source).1 gains
    have author : share ⟨"in"⟩ authorFile (blogWithAuthor.textOf (Path.joinAll ⟨"in"⟩ authorFile)) =
        { Application.empty with records := [⟨"Author", [], []⟩] } := by decide +kernel
    exact ⟨earlier, later, before, author ▸ after⟩
  · obtain ⟨earlier, later, _, _, _, before, after⟩ := (changes_stay_local source).2 spoils
    have show' : share ⟨"in"⟩ showFile (blog.textOf (Path.joinAll ⟨"in"⟩ showFile)) =
        { Application.empty with templates := [⟨"show", ["post"], by decide⟩] } := by decide +kernel
    rw [show'] at before after
    exact ⟨earlier, later, before, after⟩

end Rails.Survey

end Transplant
