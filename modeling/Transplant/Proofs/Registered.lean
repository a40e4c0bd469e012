import Mathlib.Data.List.Forall2
import Transplant.Proofs.Collision
import Transplant.Proofs.FileLines
import Transplant.Proofs.Patterns

/-! The apps that a project registers, read back from its files: those that its settings install, those that
its root paths mount and those that are built are the same, in the order of the plan. -/
namespace Transplant

namespace Django

open Text Pattern

/-- The lines of all lists that a file assigns to a name. A list ends with a bracket on a line of its own. -/
def listsOf (name : String) : List String → List (List String)
  | [] => []
  | line :: rest =>
    if line = name ++ " = [" then rest.takeWhile (· ≠ "]") :: listsOf name rest else listsOf name rest

/-- What is mounted at a route: views that are there, or the paths of an app. -/
inductive Mount where
  | views (target : String)
  | paths (config : String)
  deriving DecidableEq, Repr

def quoted : Pattern String := do
  literal "'"
  let name ← run (· != '\'')
  literal "'"
  return .ofList name

def installedEntry : Pattern String := do
  literal "    "
  let app ← quoted
  literal ","
  atEnd
  return app

def includedModule : Pattern Mount := do
  literal "include("
  let config ← quoted
  literal ")"
  return .paths config

def namedViews : Pattern Mount := do
  let target ← run (· != ')')
  return .views (.ofList target)

def mountEntry : Pattern (String × Mount) := do
  literal "    path("
  let route ← quoted
  literal ", "
  let mount ← either includedModule namedViews
  literal "),"
  atEnd
  return (route, mount)

/-- The entries of the first list that a file assigns to a name, if each of its lines is an entry. -/
def entriesOf {α : Type} (name : String) (entry : Pattern α) (text : String) : Option (List α) := do
  let body ← (listsOf name (lines text)).head?
  body.mapM fun line => (entry line.toList).map Prod.fst

def installed? : String → Option (List String) := entriesOf "INSTALLED_APPS" installedEntry

def mounted? : String → Option (List (String × Mount)) := entriesOf "urlpatterns" mountEntry

def adminMount : String × Mount := ("admin/", .views "admin.site.urls")

/-- An app is mounted below its own name, with its own paths. -/
def mountOf (app : String) : String × Mount := (app ++ "/", .paths (app ++ ".urls"))

theorem quoted_reads {name : String} (plain : '\'' ∉ name.toList) (rest : List Char) :
    quoted ('\'' :: (name.toList ++ '\'' :: rest)) = some (name, rest) := by
  have all : name.toList.all (· != '\'') = true := by
    rw [List.all_eq_true]
    intro c inside
    exact bne_iff_ne.mpr (ne_of_mem_of_not_mem inside plain)
  simp only [quoted, bind_eq_some, pure_eq_some]
  exact ⟨(), _, literal_eq_some.mpr rfl, name.toList, _, run_eq_some.mpr ⟨rfl, all, stops_cons rfl⟩,
    (), _, literal_eq_some.mpr rfl, String.ofList_toList, rfl⟩

theorem installedEntry_reads {app : String} (plain : '\'' ∉ app.toList) :
    installedEntry (installedLine app).toList = some (app, []) := by
  have chars : (installedLine app).toList = "    ".toList ++ ('\'' :: (app.toList ++ '\'' :: [','])) := by
    simp [installedLine, toString]
  simp only [chars, installedEntry, bind_eq_some, pure_eq_some, atEnd_eq_some]
  exact ⟨(), _, literal_eq_some.mpr rfl, app, _, quoted_reads plain _, (), [], literal_eq_some.mpr rfl,
    (), [], ⟨rfl, rfl⟩, rfl, rfl⟩

theorem mountEntry_reads {app : String} (plain : '\'' ∉ app.toList) :
    mountEntry (mountLine app).toList = some (mountOf app, []) := by
  have route : '\'' ∉ (app ++ "/").toList := by simpa using plain
  have config : '\'' ∉ (app ++ ".urls").toList := by simpa using plain
  have chars : (mountLine app).toList = "    path(".toList ++ ('\'' :: ((app ++ "/").toList ++ '\'' ::
      (", ".toList ++ ("include(".toList ++ ('\'' :: ((app ++ ".urls").toList ++ '\'' ::
        (")".toList ++ "),".toList))))))) := by
    simp [mountLine, toString]
  simp only [chars, mountEntry, includedModule, bind_eq_some, pure_eq_some, atEnd_eq_some,
    either_eq_some]
  refine ⟨(), _, literal_eq_some.mpr rfl, _, _, quoted_reads route _, (), _, literal_eq_some.mpr rfl,
    .paths (app ++ ".urls"), "),".toList, .inl ?_, (), [], literal_eq_some.mpr rfl, (), [], ⟨rfl, rfl⟩,
    rfl, rfl⟩
  exact ⟨(), _, literal_eq_some.mpr rfl, _, _, quoted_reads config _, (), _, literal_eq_some.mpr rfl,
    rfl, rfl⟩

theorem head_ne_bracket (name : String) : name ++ " = [" ≠ "]" := by
  intro same
  have size := congrArg (fun text => text.toList.length) same
  simp at size

theorem listsOf_of_not_mem {name : String} {file : List String} (none : name ++ " = [" ∉ file) :
    listsOf name file = [] := by
  induction file with
  | nil => rfl
  | cons line rest ih =>
    rw [List.mem_cons, not_or] at none
    rw [listsOf, if_neg (Ne.symm none.1), ih none.2]

theorem listsOf_append {name : String} {front : List String} (none : name ++ " = [" ∉ front)
    (back : List String) : listsOf name (front ++ back) = listsOf name back := by
  induction front with
  | nil => rfl
  | cons line front ih =>
    rw [List.mem_cons, not_or] at none
    rw [List.cons_append, listsOf, if_neg (Ne.symm none.1), ih none.2]

theorem listsOf_list {name : String} {body : List String} (ends : "]" ∉ body)
    (none : name ++ " = [" ∉ body) (rest : List String) :
    listsOf name ((name ++ " = [") :: (body ++ "]" :: rest)) = body :: listsOf name rest := by
  have within : ∀ line ∈ body, decide (line ≠ "]") = true := by
    intro line inside
    exact decide_eq_true (ne_of_mem_of_not_mem inside ends)
  rw [listsOf, if_pos rfl, List.takeWhile_append_of_pos within, listsOf_append none, listsOf,
    if_neg (head_ne_bracket name).symm]
  simp

/-- The entries of a list are lines that start with a blank. -/
structure Entry (line : String) : Prop where
  start : line.toList.head? = some ' '
  plain : '\n' ∉ line.toList

/-- In a file the lists of a name are a list that is written there, as it is written, and those behind it. -/
theorem listsOf_file {name : String} {front body : List String} (none : name ++ " = [" ∉ front)
    (plain : ∀ line ∈ (name ++ " = [") :: front, '\n' ∉ line.toList)
    (start : (name ++ " = [").toList.head? ≠ some ' ') (entries : ∀ line ∈ body, Entry line)
    (rest : List String) :
    listsOf name (lines (unlines (front ++ (name ++ " = [") :: (body ++ "]" :: rest)))) =
      body :: listsOf name (lines (unlines rest)) := by
  rw [List.forall_mem_cons] at plain
  have ends : "]" ∉ body := fun inside => absurd (entries _ inside).start (by decide)
  have other : name ++ " = [" ∉ body := fun inside => absurd (entries _ inside).start start
  have whole : front ++ (name ++ " = [") :: (body ++ "]" :: rest) =
      (front ++ (name ++ " = [") :: (body ++ ["]"])) ++ rest := by simp
  have all : ∀ line ∈ front ++ (name ++ " = [") :: (body ++ ["]"]), '\n' ∉ line.toList := by
    simp only [List.forall_mem_append, List.forall_mem_cons]
    exact ⟨plain.2, plain.1, fun line inside => (entries line inside).plain, by decide, by simp⟩
  rw [whole, lines_unlines_append all, List.append_assoc, listsOf_append none]
  simpa using listsOf_list ends other (lines (unlines rest))

theorem entriesOf_eq {α : Type} {name text : String} {entry : Pattern α} {body : List String}
    {more : List (List String)} {values : List α} (lists : listsOf name (lines text) = body :: more)
    (reads : List.Forall₂ (fun line value => entry line.toList = some (value, [])) body values) :
    entriesOf name entry text = some values := by
  have each : body.mapM (fun line => (entry line.toList).map Prod.fst) = some values := by
    clear lists
    induction reads with
    | nil => rfl
    | cons first _ ih =>
      rw [List.mapM_cons, first, ih]
      rfl
  rw [entriesOf, lists]
  exact each

/-- The name can stand between quotes on a line. -/
structure Quotable (name : String) : Prop where
  quote : '\'' ∉ name.toList
  line : '\n' ∉ name.toList

instance (name : String) : Decidable (Quotable name) :=
  decidable_of_iff ('\'' ∉ name.toList ∧ '\n' ∉ name.toList)
    ⟨fun plain => ⟨plain.1, plain.2⟩, fun quotable => ⟨quotable.quote, quotable.line⟩⟩

theorem quotable_contribApps : ∀ app ∈ contribApps, Quotable app := by decide

theorem Quotable.installedLine {app : String} (quotable : Quotable app) : Entry (installedLine app) :=
  ⟨by simp [Django.installedLine, toString], by
    simpa [Django.installedLine, toString] using quotable.line⟩

theorem Quotable.mountLine {app : String} (quotable : Quotable app) : Entry (mountLine app) :=
  ⟨by simp [Django.mountLine, toString], by simpa [Django.mountLine, toString] using quotable.line⟩

section Settings

variable {apps : List String} (package : String) (quotable : ∀ app ∈ apps, Quotable app)

include quotable

theorem lists_settingsPy : listsOf "INSTALLED_APPS" (lines (settingsPy package apps)) =
    (contribApps ++ apps).map installedLine ::
      listsOf "INSTALLED_APPS" (lines (unlines (settingsTail package).tail)) := by
  have entries : ∀ line ∈ (contribApps ++ apps).map installedLine, Entry line := by
    rw [List.forall_mem_map, List.forall_mem_append]
    exact ⟨fun app member => (quotable_contribApps app member).installedLine,
      fun app member => (quotable app member).installedLine⟩
  have file : settingsHead ++ (contribApps ++ apps).map installedLine ++ settingsTail package =
      settingsHead.dropLast ++ ("INSTALLED_APPS" ++ " = [") ::
        ((contribApps ++ apps).map installedLine ++ "]" :: (settingsTail package).tail) := by
    rw [List.append_assoc]
    rfl
  rw [settingsPy, file, listsOf_file (by decide) (by decide) (by decide) entries]

theorem installed?_settingsPy : installed? (settingsPy package apps) = some (contribApps ++ apps) := by
  apply entriesOf_eq (lists_settingsPy package quotable)
  rw [List.forall₂_map_left_iff, List.forall₂_same, List.forall_mem_append]
  exact ⟨fun app member => installedEntry_reads (quotable_contribApps app member).quote,
    fun app member => installedEntry_reads (quotable app member).quote⟩

/-- The name of the package alone could bring in another list. -/
theorem lists_settingsPy_of_line (line : '\n' ∉ package.toList) :
    listsOf "INSTALLED_APPS" (lines (settingsPy package apps)) =
      [(contribApps ++ apps).map installedLine] := by
  have plain : ∀ line ∈ (settingsTail package).tail, '\n' ∉ line.toList := by
    simpa [settingsTail, toString] using line
  have none : "INSTALLED_APPS" ++ " = [" ∉ (settingsTail package).tail := by
    intro inside
    have start : ∀ line ∈ (settingsTail package).tail, line.toList.head? ≠ some 'I' := by
      simp [settingsTail, toString]
    exact absurd rfl (start _ inside)
  rw [lists_settingsPy package quotable, lines_unlines plain, listsOf_of_not_mem none]

end Settings

def adminLine : String := "    path('admin/', admin.site.urls),"

section Urls

variable {apps : List String} (quotable : ∀ app ∈ apps, Quotable app)

include quotable

theorem lists_rootUrlsPy : listsOf "urlpatterns" (lines (rootUrlsPy apps)) =
    [adminLine :: apps.map mountLine] := by
  have entries : ∀ line ∈ adminLine :: apps.map mountLine, Entry line := by
    rw [List.forall_mem_cons, List.forall_mem_map]
    exact ⟨⟨by decide, by decide⟩, fun app member => (quotable app member).mountLine⟩
  have file : rootUrlsHead ++ apps.map mountLine ++ ["]"] =
      rootUrlsHead.take 3 ++ ("urlpatterns" ++ " = [") :: (adminLine :: apps.map mountLine ++ ["]"]) := by
    rw [List.append_assoc]
    rfl
  rw [rootUrlsPy, file, listsOf_file (by decide) (by decide) (by decide) entries]
  rfl

theorem mounted?_rootUrlsPy : mounted? (rootUrlsPy apps) = some (adminMount :: apps.map mountOf) := by
  refine entriesOf_eq (lists_rootUrlsPy quotable) (.cons (by decide +kernel) ?_)
  rw [List.forall₂_map_left_iff, List.forall₂_map_right_iff, List.forall₂_same]
  exact fun app member => mountEntry_reads (quotable app member).quote

end Urls

end Django

namespace Build

open Django (Quotable installed? mounted? listsOf lines contribApps adminMount mountOf)

variable {σ : Type} {o : Outside σ} {e e₁ e₂ : σ} {calls more : List Call} {plan : Plan} {root : Path}
  {package : String}

def WritesOnly (calls : List Call) (p : Path) (text : String) : Prop :=
  ∀ text', (∃ r, .write p text' r ∈ calls) ↔ text' = text

theorem Scaffold.writesOnly (isEntry : isEntry package = true)
    (ok : Succeeded (files plan root package) calls) {p : Path} {text : String}
    (member : .write p text ∈ files plan root package) : WritesOnly calls p text := by
  obtain ⟨entry, single⟩ := isEntry_iff.mp isEntry
  intro text'
  constructor
  · rintro ⟨r, written⟩
    exact text_unique single (ok.mem_write.mp written).1 member rfl
  · rintro rfl
    exact ⟨.ok (), ok.mem_write.mpr ⟨member, rfl⟩⟩

theorem Apps.files_of_built (ok : ∀ e, .refuse e ∉ steps plan root) {app : Plan.App}
    (member : app ∈ plan.apps) {name : String} (named : name ∈ ["urls.py", "apps.py", "__init__.py"]) :
    (root.join app.name).join name ∈ (built root app).files := by
  have own : ∃ text, (name, text) ∈ ownFiles app := by
    simp only [List.mem_cons, List.not_mem_nil, or_false] at named
    rcases named with rfl | rfl | rfl <;> simp [ownFiles]
  obtain ⟨text, own⟩ := own
  exact mem_written.mpr ⟨text, own_mem_appSteps ok member own⟩

/-- What is installed behind the apps of Django, what is mounted behind its administration and what is built
is the same, in the order of the plan, and each app that is built has the files that it is installed and
mounted by. A plan that could not be read registers nothing. -/
theorem registered_apps (quotable : ∀ app ∈ plan.apps, Quotable app.name) {files : List Path}
    {project : Project}
    (scaffolded : (scaffold o.files.recorded plan root package).run.run (e, []) = (.ok files, e₁, calls))
    (generated : (generate o.files.recorded plan root).run.run (e₁, []) = (.ok project, e₂, more)) :
    ∃ settings urls,
      WritesOnly calls ((root.join package).join "settings.py") settings ∧
      WritesOnly calls ((root.join package).join "urls.py") urls ∧
      installed? settings = some (contribApps ++ project.apps.map BuiltApp.name) ∧
      ('\n' ∉ package.toList → (listsOf "INSTALLED_APPS" (lines settings)).length = 1) ∧
      mounted? urls = some (adminMount :: (project.apps.map BuiltApp.name).map mountOf) ∧
      (listsOf "urlpatterns" (lines urls)).length = 1 ∧
      project.apps.map BuiltApp.name = plan.apps.map Plan.App.name ∧
      (∀ app ∈ project.apps, app.dir = root.join app.name ∧
        ∀ name ∈ ["urls.py", "apps.py", "__init__.py"], app.dir.join name ∈ app.files) ∧
      (plan.isRaw = true →
        installed? settings = some contribApps ∧ mounted? urls = some [adminMount] ∧ project.apps = []) := by
  have both := bothWritten scaffolded generated
  obtain ⟨_, ended⟩ := (generate_meets plan root).of_run generated
  obtain ⟨_, rfl⟩ := ran_of_map_ok ended
  have names : (plan.apps.map (Apps.built root)).map BuiltApp.name = plan.apps.map Plan.App.name := by
    rw [List.map_map]
    rfl
  have quotable_names : ∀ name ∈ plan.apps.map Plan.App.name, Quotable name :=
    List.forall_mem_map.mpr quotable
  have installed := Django.installed?_settingsPy package quotable_names
  have mounted := Django.mounted?_rootUrlsPy quotable_names
  refine ⟨Django.settingsPy package (plan.apps.map Plan.App.name),
    Django.rootUrlsPy (plan.apps.map Plan.App.name), ?_, ?_, ?_, ?_, ?_, ?_, names, ?_, ?_⟩
  · exact Scaffold.writesOnly both.isEntry both.files (by simp [Scaffold.files])
  · exact Scaffold.writesOnly both.isEntry both.files (by simp [Scaffold.files])
  · rw [names, installed]
  · intro line
    rw [Django.lists_settingsPy_of_line package quotable_names line, List.length_singleton]
  · rw [names, mounted]
  · rw [Django.lists_rootUrlsPy quotable_names, List.length_singleton]
  · rw [List.forall_mem_map]
    intro app member
    exact ⟨rfl, fun name named => Apps.files_of_built both.apps.not_refused member named⟩
  · intro raw
    have none : plan.apps = [] := by
      cases plan with
      | structured apps => cases raw
      | raw text => rfl
    rw [none] at installed mounted ⊢
    exact ⟨installed, mounted, rfl⟩

def shops : Plan := .structured
  [⟨"shop", [], [], [], []⟩, ⟨"django.contrib.auth", [], [], [], []⟩, ⟨"shop", [], [], [], []⟩]

theorem registered_apps_shops :
    (∀ app ∈ shops.apps, Quotable app.name) ∧ ∃ files w₁ calls project w₂ more settings urls,
      (scaffold World.outside.files.recorded shops ⟨"out"⟩ "site").run.run (World.ofTree .empty [], []) =
        (.ok files, w₁, calls) ∧
      (generate World.outside.files.recorded shops ⟨"out"⟩).run.run (w₁, []) = (.ok project, w₂, more) ∧
      WritesOnly calls ⟨"out/site/settings.py"⟩ settings ∧
      WritesOnly calls ⟨"out/site/urls.py"⟩ urls ∧
      installed? settings = some (contribApps ++ ["shop", "django.contrib.auth", "shop"]) ∧
      mounted? urls =
        some [adminMount, mountOf "shop", mountOf "django.contrib.auth", mountOf "shop"] ∧
      project.apps.map BuiltApp.name = ["shop", "django.contrib.auth", "shop"] := by
  have quotable : ∀ app ∈ shops.apps, Quotable app.name := by decide
  obtain ⟨files, w₁, calls, project, w₂, more, scaffolded, generated⟩ :=
    runs_of_isOk World.outside shops ⟨"out"⟩ "site" (World.ofTree .empty [])
      (by decide +kernel) (by decide +kernel)
  obtain ⟨settings, urls, atSettings, atUrls, installed, _, mounted, _, names, _, _⟩ :=
    registered_apps quotable scaffolded generated
  rw [names] at installed mounted
  exact ⟨quotable, files, w₁, calls, project, w₂, more, settings, urls, scaffolded, generated, atSettings,
    atUrls, installed, mounted, names⟩

end Build

end Transplant
