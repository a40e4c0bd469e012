import Transplant.Proofs.Catalogue
import Transplant.Proofs.Patterns
import Transplant.Proofs.Surveyed

/-! The share that each file of a source has in its survey. The place of a file below the root tells the
section it goes to, and its text what it puts there, so a survey is put together file by file. -/
namespace Transplant

namespace Path

theorem nameExtension?_eq_some_iff {name ext : List Char} :
    nameExtension? name = some ext ↔ ∃ stem, name = stem ++ '.' :: ext ∧ stem ≠ [] ∧ '.' ∉ ext := by
  have others {cs : List Char} (none : '.' ∉ cs) : ∀ c ∈ cs, decide (c ≠ '.') = true := by
    intro c member
    simpa using ne_of_mem_of_not_mem member none
  constructor
  · intro h
    obtain ⟨whole, kept, stops⟩ := Text.Pattern.run_eq_some.mp
      (rfl : Text.Pattern.run (· ≠ '.') name.reverse = some (_, _))
    simp only [nameExtension?] at h
    generalize name.reverse.takeWhile (· ≠ '.') = tail at h whole kept
    generalize name.reverse.dropWhile (· ≠ '.') = front at whole stops
    split_ifs at h with long
    cases h
    have size := congrArg List.length whole
    rw [List.length_reverse, List.length_append] at size
    cases front with
    | nil => simp only [List.length_nil] at size; omega
    | cons c stem =>
      have dot : c = '.' := by simpa using stops c rfl
      subst dot
      refine ⟨stem.reverse, ?_, ?_, ?_⟩
      · rw [← List.reverse_reverse name, whole]
        simp
      · rintro none
        rw [List.reverse_eq_nil_iff.mp none, List.length_singleton] at size
        omega
      · intro dot
        simpa using List.all_eq_true.mp kept '.' (List.mem_reverse.mp dot)
  · rintro ⟨stem, rfl, some, none⟩
    have size := List.length_pos_of_ne_nil some
    have taken : (stem ++ '.' :: ext).reverse.takeWhile (· ≠ '.') = ext.reverse := by
      rw [List.reverse_append, List.reverse_cons, List.append_assoc,
        List.takeWhile_append_of_pos (others fun dot => none (List.mem_reverse.mp dot))]
      simp
    simp only [nameExtension?, taken, List.length_reverse, List.length_append, List.length_cons,
      List.reverse_reverse]
    rw [if_pos (by omega)]

theorem extension?_joinAll {p : Path} {dir : List String} {file : String}
    (named : ∀ name ∈ dir ++ [file], IsName name) :
    (p.joinAll (dir ++ [file])).extension? = (nameExtension? file.toList).map String.ofList := by
  rw [extension?, components_joinAll named, List.map_append, List.map_singleton, ← List.append_assoc,
    List.getLast?_concat]

end Path

namespace Rails

namespace Application

instance : Append Application where
  append a b :=
    ⟨a.records ++ b.records, a.controllers ++ b.controllers, a.routes ++ b.routes,
      a.templates ++ b.templates⟩

theorem append_def (a b : Application) : a ++ b = ⟨a.records ++ b.records,
    a.controllers ++ b.controllers, a.routes ++ b.routes, a.templates ++ b.templates⟩ := rfl

@[simp] theorem empty_append (a : Application) : empty ++ a = a := by simp [append_def, empty]

@[simp] theorem append_empty (a : Application) : a ++ empty = a := by simp [append_def, empty]

@[simp] theorem append_assoc (a b c : Application) : a ++ b ++ c = a ++ (b ++ c) := by
  simp [append_def]

end Application

namespace Survey

/-- A file with the extension of a Ruby source, which is not all of its name. -/
def isRuby (names : List String) : Bool :=
  names.getLast?.any fun file => ".rb".toList.isSuffixOf file.toList && file != ".rb"

def isTemplate (names : List String) : Bool :=
  names.getLast?.any fun file => ".erb".toList.isSuffixOf file.toList

/-- The names of a template below the views, with slashes between them and without its ending. -/
def templateName (names : List String) : String :=
  (Template.nameOf? (names.map Path.Component.normal)).getD ""

/-- What a file of this text puts into a survey under these names below the root. -/
def shareAt : List String → String → Application
  | "app" :: "models" :: names, text =>
    if isRuby names then { Application.empty with records := (Record.ofText? text).toList } else .empty
  | "app" :: "controllers" :: names, text =>
    if isRuby names then { Application.empty with controllers := (Controller.ofText? text).toList }
    else .empty
  | ["config", "routes.rb"], text => { Application.empty with routes := Route.allOfText text }
  | "app" :: "views" :: names, text =>
    if isTemplate names then
      { Application.empty with templates := [.ofText (templateName names) text] }
    else .empty
  | _, _ => .empty

/-- The share of a file: nothing if the survey does not get to its place. -/
def share (root : Path) (names : List String) (text : String) : Application :=
  if FileTree.inReach root names then shareAt names text else .empty

variable {w : World} {root : Path} {dir : List String} {β : Type}

/-- The shares of all files, in their order. -/
def gather (root : Path) (files : List (List String × String)) : Application :=
  files.foldr (fun file rest => share root file.1 file.2 ++ rest) .empty

@[simp] theorem gather_nil : gather root [] = .empty := rfl

@[simp] theorem gather_cons (file : List String × String) (files : List (List String × String)) :
    gather root (file :: files) = share root file.1 file.2 ++ gather root files := rfl

@[simp] theorem gather_append (files more : List (List String × String)) :
    gather root (files ++ more) = gather root files ++ gather root more := by
  induction files with
  | nil => simp
  | cons file files ih => simp [ih]

theorem gather_eq (root : Path) (files : List (List String × String)) : gather root files =
    ⟨files.flatMap fun file => (share root file.1 file.2).records,
      files.flatMap fun file => (share root file.1 file.2).controllers,
      files.flatMap fun file => (share root file.1 file.2).routes,
      files.flatMap fun file => (share root file.1 file.2).templates⟩ := by
  induction files with
  | nil => rfl
  | cons file files ih => rw [gather_cons, ih]; rfl

theorem isRuby_concat (dir : List String) (file : String) :
    isRuby (dir ++ [file]) = (Path.nameExtension? file.toList == some "rb".toList) := by
  rw [isRuby, List.getLast?_concat, Option.any_some, Bool.eq_iff_iff, beq_iff_eq,
    Path.nameExtension?_eq_some_iff, Bool.and_eq_true, List.isSuffixOf_iff_suffix, bne_iff_ne]
  constructor
  · rintro ⟨⟨stem, split⟩, more⟩
    refine ⟨stem, split.symm, ?_, by decide⟩
    rintro rfl
    exact more (String.toList_inj.mp split.symm)
  · rintro ⟨stem, split, some, _⟩
    refine ⟨⟨stem, split.symm⟩, ?_⟩
    rintro rfl
    have whole : ".rb".toList = stem ++ ".rb".toList := split
    exact some (List.self_eq_append_left.mp whole)

theorem isTemplate_iff {names : List String} :
    isTemplate names = true ↔ ∃ dir stem, names = dir ++ [stem ++ Template.plainEnding] := by
  rcases List.eq_nil_or_concat names with rfl | ⟨dir, file, rfl⟩
  · simp [isTemplate]
  · rw [List.concat_eq_append, isTemplate, List.getLast?_concat, Option.any_some,
      List.isSuffixOf_iff_suffix]
    constructor
    · rintro ⟨stem, split⟩
      refine ⟨dir, .ofList stem, ?_⟩
      rw [List.append_cancel_left_eq, List.singleton_inj, ← String.toList_inj, String.toList_append,
        String.toList_ofList]
      exact split.symm
    · rintro ⟨dir', stem, same⟩
      obtain ⟨_, rfl⟩ := List.append_inj' same rfl |>.imp_right List.singleton_inj.mp
      rw [String.toList_append]
      exact List.suffix_append _ _

theorem nameOf?_isSome (names : List String) :
    (Template.nameOf? (names.map Path.Component.normal)).isSome = isTemplate names := by
  rw [Bool.eq_iff_iff, isTemplate_iff, Option.isSome_iff_exists]
  constructor
  · rintro ⟨name, named⟩
    obtain ⟨dir, stem, rfl | ⟨rfl, _⟩, _⟩ := Template.nameOf?_eq_some_iff.mp named
    · exact ⟨dir, stem ++ ".html", by rw [String.append_assoc]; rfl⟩
    · exact ⟨dir, stem, rfl⟩
  · rintro ⟨dir, stem, rfl⟩
    by_cases page : ".html".toList <:+ stem.toList
    · obtain ⟨front, split⟩ := page
      refine ⟨_, Template.nameOf?_eq_some_iff.mpr ⟨dir, .ofList front, .inl ?_, rfl⟩⟩
      have whole : stem = String.ofList front ++ ".html" := by
        rw [← String.toList_inj, String.toList_append, String.toList_ofList, split]
      rw [whole, String.append_assoc]
      rfl
    · exact ⟨_, Template.nameOf?_eq_some_iff.mpr ⟨dir, stem, .inr ⟨rfl, page⟩, rfl⟩⟩

theorem isRuby_append {dir : List String} (plain : isRuby dir = false) (names : List String) :
    isRuby (dir ++ names) = isRuby names := by
  rcases List.eq_nil_or_concat names with rfl | ⟨front, file, rfl⟩
  · rw [List.append_nil, plain]
    rfl
  · simp [isRuby]

theorem extension?_eq_rb {names : List String} (named : ∀ name ∈ names, IsName name)
    (some : names ≠ []) : ((root.joinAll names).extension? == .some "rb") = isRuby names := by
  rcases List.eq_nil_or_concat names with rfl | ⟨dir, file, rfl⟩
  · exact absurd rfl some
  · rw [List.concat_eq_append] at named ⊢
    rw [Path.extension?_joinAll named, isRuby_concat, Bool.eq_iff_iff, beq_iff_eq, beq_iff_eq,
      Option.map_eq_some_iff]
    constructor
    · rintro ⟨ext, found, same⟩
      rw [found, ← same, String.toList_ofList]
    · exact fun found => ⟨_, found, String.ofList_toList⟩

theorem listAt_flatMap (leads : w.tree.Leads root) (sound : w.tree.Sound)
    (isSection : FileTree.IsSection dir) {f : Path → List β} {g : List String × String → List β}
    (only : ∀ names text, ¬ dir <+: names → g (names, text) = [])
    (same : ∀ names, (∀ name ∈ names, IsName name) →
      g (dir ++ names, w.textOf (root.joinAll (dir ++ names))) =
        if FileTree.inReach root dir then f (root.joinAll (dir ++ names)) else []) :
    (w.tree.listAt (root.joinAll dir)).flatMap f = (w.catalogue root).flatMap g := by
  rw [World.catalogue_flatMap sound only, leads.listAt isSection,
    List.flatMap_congr fun names listed => same names (sound.filesBelow_names listed)]
  split_ifs with reach
  · rw [List.flatMap_map]
  · simp

theorem share_append (isSection : FileTree.IsSection dir) (names : List String) (text : String) :
    share root (dir ++ names) text =
      if FileTree.inReach root dir then shareAt (dir ++ names) text else .empty := by
  rw [share, FileTree.inReach_append isSection.two]

theorem rubyPaths_flatMap (leads : w.tree.Leads root) (sound : w.tree.Sound)
    (isSection : FileTree.IsSection dir) (plain : isRuby dir = false) {read? : String → Option β}
    {part : Application → List β}
    (only : ∀ names text, ¬ dir <+: names → part (share root names text) = [])
    (same : ∀ names text, part (share root (dir ++ names) text) =
      if FileTree.inReach root dir then if isRuby names then (read? text).toList else [] else []) :
    (rubyPaths w (root.joinAll dir)).flatMap (fun p => (read? (w.textOf p)).toList) =
      (w.catalogue root).flatMap fun file => part (share root file.1 file.2) := by
  -- The filter of the survey becomes part of what each path gives, so that all paths can be read.
  let f (p : Path) : List β := if p.extension? == some "rb" then (read? (w.textOf p)).toList else []
  have kept : (rubyPaths w (root.joinAll dir)).flatMap f = (w.tree.listAt (root.joinAll dir)).flatMap f :=
    flatMap_filter fun p _ other => if_neg (by simp [other])
  have alike : (rubyPaths w (root.joinAll dir)).flatMap f =
      (rubyPaths w (root.joinAll dir)).flatMap fun p => (read? (w.textOf p)).toList :=
    List.flatMap_congr fun p listed => if_pos (List.mem_filter.mp listed).2
  rw [← alike, kept]
  apply listAt_flatMap leads sound isSection only
  intro names named
  have all : ∀ name ∈ dir ++ names, IsName name := List.forall_mem_append.mpr ⟨isSection.named, named⟩
  have some : dir ++ names ≠ [] := by
    intro none
    have := isSection.two
    simp_all
  simp only [f, same, extension?_eq_rb all some, isRuby_append plain]

/-- Nothing goes into a section from outside its place. -/
theorem share_elsewhere (root : Path) (names : List String) (text : String) :
    (¬ ["app", "models"] <+: names → (share root names text).records = []) ∧
      (¬ ["app", "controllers"] <+: names → (share root names text).controllers = []) ∧
      (¬ ["config", "routes.rb"] <+: names → (share root names text).routes = []) ∧
      (¬ ["app", "views"] <+: names → (share root names text).templates = []) := by
  unfold share shareAt
  split_ifs
  · split <;> (try split_ifs) <;> simp_all [Application.empty]
  · simp [Application.empty]

theorem textOf_dir {p : Path} {entries : List (String × FileTree)}
    (found : w.tree.find p = .ok (.dir entries)) : w.textOf p = "" := by
  have none : w.tree.read p = .error .isDirectory := by
    rw [FileTree.read, found]
    rfl
  rw [World.textOf, World.read]
  cases w.fault? .read p with
  | none => simp [none, Build.orEmpty]
  | some e => rfl

def sections : List (List String) :=
  [["app", "models"], ["app", "controllers"], ["config", "routes.rb"], ["app", "views"]]

theorem isSection_of_mem (member : dir ∈ sections) : FileTree.IsSection dir := by
  have all : ∀ dir ∈ sections, dir.length = 2 ∧ (∀ name ∈ dir, IsName name) ∧
      ∀ name ∈ dir, name.utf8ByteSize ≤ FileTree.nameLimit := by decide
  obtain ⟨two, named, fits⟩ := all dir member
  exact ⟨two, named, fits⟩

theorem join_section {first last text : String} (member : [first, last] ∈ sections)
    (split : text = first ++ "/" ++ last) (root : Path) : root.join text = root.joinAll [first, last] := by
  have named := (isSection_of_mem member).named
  rw [split, Path.joinAll_pair (named first (by simp)) (named last (by simp))]

theorem records_flatMap (leads : w.tree.Leads root) (sound : w.tree.Sound) :
    (rubyPaths w (root.joinAll ["app", "models"])).flatMap
        (fun p => (Record.ofText? (w.textOf p)).toList) =
      (w.catalogue root).flatMap fun file => (share root file.1 file.2).records := by
  have isSection : FileTree.IsSection ["app", "models"] := isSection_of_mem (by simp [sections])
  apply rubyPaths_flatMap leads sound isSection (by decide)
  · exact fun names text => (share_elsewhere root names text).1
  · intro names text
    rw [share_append isSection]
    simp only [List.cons_append, List.nil_append, shareAt]
    split_ifs <;> rfl

theorem controllers_flatMap (leads : w.tree.Leads root) (sound : w.tree.Sound) :
    (rubyPaths w (root.joinAll ["app", "controllers"])).flatMap
        (fun p => (Controller.ofText? (w.textOf p)).toList) =
      (w.catalogue root).flatMap fun file => (share root file.1 file.2).controllers := by
  have isSection : FileTree.IsSection ["app", "controllers"] := isSection_of_mem (by simp [sections])
  apply rubyPaths_flatMap leads sound isSection (by decide)
  · exact fun names text => (share_elsewhere root names text).2.1
  · intro names text
    rw [share_append isSection]
    simp only [List.cons_append, List.nil_append, shareAt]
    split_ifs <;> rfl

theorem routes_flatMap (leads : w.tree.Leads root) (sound : w.tree.Sound) :
    (if w.tree.exists? (root.joinAll ["config", "routes.rb"]) then
        Route.allOfText (w.textOf (root.joinAll ["config", "routes.rb"])) else []) =
      (w.catalogue root).flatMap fun file => (share root file.1 file.2).routes := by
  have isSection : FileTree.IsSection ["config", "routes.rb"] := isSection_of_mem (by simp [sections])
  rw [World.catalogue_flatMap sound fun names text => (share_elsewhere root names text).2.2.1]
  simp only [share_append isSection]
  cases found : w.tree.find (root.joinAll ["config", "routes.rb"]) with
  | ok sub =>
    obtain ⟨reach, there⟩ := (leads.find_section isSection).mp found
    rw [FileTree.exists?, found, if_pos (by rfl), FileTree.filesBelow, there]
    cases sub with
    | file contents => simp [FileTree.places, reach, shareAt]
    | dir entries =>
      -- A directory of this name is there, but has no text, and what is below it has no share.
      have none : Route.allOfText "" = [] := by decide
      rw [textOf_dir found, none, eq_comm, List.flatMap_eq_nil_iff]
      intro names listed
      obtain ⟨e, _, rest, _, rfl⟩ := FileTree.mem_entryPlaces.mp listed
      simp [shareAt, Application.empty]
  | error e =>
    rw [FileTree.exists?, found, if_neg (by simp [Except.isOk, Except.toBool])]
    cases reach : FileTree.inReach root ["config", "routes.rb"] with
    | true =>
      have none : w.tree.get? (root.place ++ ["config", "routes.rb"]) = none := by
        cases there : w.tree.get? (root.place ++ ["config", "routes.rb"]) with
        | none => rfl
        | some sub => simp [(leads.find_section isSection).mpr ⟨reach, there⟩] at found
      simp [FileTree.filesBelow, none]
    | false => simp [Application.empty]

theorem templates_flatMap (leads : w.tree.Leads root) (sound : w.tree.Sound) :
    ((w.tree.listAt (root.joinAll ["app", "views"])).filterMap
        (Template.named? (root.joinAll ["app", "views"]))).map
        (fun p => Template.ofText p.2 (w.textOf p.1)) =
      (w.catalogue root).flatMap fun file => (share root file.1 file.2).templates := by
  have isSection : FileTree.IsSection ["app", "views"] := isSection_of_mem (by simp [sections])
  rw [List.map_filterMap, List.filterMap_eq_flatMap_toList]
  apply listAt_flatMap leads sound isSection fun names text => (share_elsewhere root names text).2.2.2
  intro names named
  have isTemplate := nameOf?_isSome names
  rw [share_append isSection, Path.joinAll_append, Template.named?_joinAll named]
  split_ifs with reach
  · cases same : Template.nameOf? (names.map Path.Component.normal) with
    | none =>
      rw [same] at isTemplate
      simp [shareAt, ← isTemplate, Application.empty]
    | some name =>
      rw [same] at isTemplate
      simp [shareAt, ← isTemplate, templateName, same]
  · rfl

/-- A survey finds what the files in its catalogue have. -/
theorem found_eq_gather (walks : ∀ p, w.fault? .walk p = none) (leads : w.tree.Leads root)
    (sound : w.tree.Sound) : found w root = gather root (w.catalogue root) := by
  have models : root.join modelsDir = root.joinAll ["app", "models"] :=
    join_section (by simp [sections]) (by decide) root
  have controllers : root.join controllersDir = root.joinAll ["app", "controllers"] :=
    join_section (by simp [sections]) (by decide) root
  have routes : root.join routesFile = root.joinAll ["config", "routes.rb"] :=
    join_section (by simp [sections]) (by decide) root
  have views : root.join viewsDir = root.joinAll ["app", "views"] :=
    join_section (by simp [sections]) (by decide) root
  rw [found_eq walks, gather_eq, models, controllers, routes, views, records_flatMap leads sound,
    controllers_flatMap leads sound, routes_flatMap leads sound, templates_flatMap leads sound]

end Survey

end Rails

end Transplant
