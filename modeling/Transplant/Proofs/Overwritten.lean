import Transplant.Proofs.Collision
import Transplant.Proofs.Convergence
import Transplant.Proofs.Targets

/-! Converted templates over planned files. The pages of a build share a directory with the page that
all others extend, and with the pages of an app that is called like that directory. Only there can a
converted template be written over a file that the build has planned. -/
namespace Transplant

namespace Build

open FileTree (Apart Beside)
open Rails.Template (IsAt pageEnding plainEnding)

variable {plan : Plan} {views root : Path} {package : String} {t u mid : FileTree}

/-- A template below the views is converted to the page of these names. -/
def HasPage (views : Path) (t : FileTree) (page : List String) : Prop :=
  ∃ dir stem, page = dir ++ [stem ++ ".html"] ∧ ∃ names, IsAt dir stem names ∧
    ∃ contents, t.contentsAt? (views.place ++ names) = some contents

def basePage : List String := ["base.html"]

/-- The page is that of an app which is called like the directory of the templates. -/
def HasInnerPage (plan : Plan) (page : List String) : Prop :=
  ∃ app ∈ plan.apps, (Path.mk app.name).components = [.normal templatesDir] ∧
    ∃ template ∈ app.templates,
      page = templatesDir :: (Path.mk template).components.map Path.Component.text

/-- A template is converted to a page that the build has planned. -/
def Overlaps (plan : Plan) (views : Path) (t : FileTree) : Prop :=
  ∃ page, HasPage views t page ∧ (page = basePage ∨ HasInnerPage plan page)

theorem hasPage_iff (root : Path) (sound : t.Sound) {sub : FileTree} (found : t.find views = .ok sub)
    {page : List String} : HasPage views t page ↔
      ∃ a ∈ templatesIn views t, (conversionTarget root a.2).place = root.place ++ templatesDir :: page := by
  have subSound := sound.get? (FileTree.find_ok_iff.mp found).2
  constructor
  · rintro ⟨dir, stem, rfl, names, isAt, contents, file⟩
    rw [← FileTree.contentsAt?_of_find found] at file
    have there := subSound.mem_places_iff.mpr ⟨contents, file⟩
    exact ⟨(_, _), (mem_templatesIn_iff sound).mpr ⟨sub, found, names, there, rfl, dir, stem, isAt, rfl⟩,
      place_conversionTarget (subSound.names there) isAt⟩
  · rintro ⟨⟨source, name⟩, member, same⟩
    obtain ⟨sub', found', names, there, _, dir, stem, isAt, rfl⟩ := (mem_templatesIn_iff sound).mp member
    cases found.symm.trans found'
    rw [place_conversionTarget (subSound.names there) isAt, List.append_cancel_left_eq,
      List.cons.injEq] at same
    obtain ⟨contents, file⟩ := subSound.mem_places_iff.mp there
    rw [FileTree.contentsAt?_of_find found] at file
    exact ⟨dir, stem, same.2.symm, names, isAt, contents, file⟩

theorem names_ne_page {entry name : String} (other : ¬ ".html".toList <:+ name.toList)
    (dir : List String) (stem : String) :
    [entry, name] ≠ templatesDir :: (dir ++ [stem ++ ".html"]) := by
  intro same
  have last := congrArg List.getLast? (List.cons.inj same).2
  rw [List.getLast?_concat, List.getLast?_singleton, Option.some.injEq] at last
  exact other ⟨stem.toList, by rw [last, String.toList_append]⟩

theorem Scaffold.page_of_file {entry : String} (single : (Path.mk package).components = [.normal entry])
    {p : Path} {text : String} (member : .write p text ∈ files plan root package) {dir : List String}
    {stem : String} (place : p.place = root.place ++ templatesDir :: (dir ++ [stem ++ ".html"])) :
    dir ++ [stem ++ ".html"] = basePage := by
  obtain ⟨behind, named, at'⟩ := place_of_file single member
  rw [at', List.append_cancel_left_eq] at place
  simp only [names, List.mem_cons, List.not_mem_nil, or_false] at named
  rcases named with rfl | rfl | rfl | rfl | rfl | rfl
  · have length := congrArg List.length place
    simp at length
  · exact absurd place (names_ne_page (by decide) dir stem)
  · exact absurd place (names_ne_page (by decide) dir stem)
  · exact absurd place (names_ne_page (by decide) dir stem)
  · exact absurd place (names_ne_page (by decide) dir stem)
  · exact (List.cons.inj place).2.symm

theorem Apps.page_of_file (ok : ∀ e, .refuse e ∉ steps plan root) {q : Path} {text : String}
    (member : .write q text ∈ steps plan root) {dir : List String} {stem : String}
    (place : q.place = root.place ++ templatesDir :: (dir ++ [stem ++ ".html"])) :
    HasInnerPage plan (dir ++ [stem ++ ".html"]) := by
  obtain ⟨app, planned, member⟩ := app_of_write member
  obtain ⟨entry, single⟩ := isEntry_iff.mp (isEntry_of_not_refused ok planned)
  rcases place_of_file single member with ⟨file, listed, at', _⟩ | ⟨template, there, _, at'⟩ <;>
    rw [at', List.append_cancel_left_eq] at place
  · simp only [ownFiles, List.mem_cons, List.not_mem_nil, or_false] at listed
    rcases listed with rfl | rfl | rfl | rfl | rfl <;>
      exact absurd place (names_ne_page (by dsimp only; decide) dir stem)
  · obtain ⟨rfl, page⟩ := List.cons.inj place
    exact ⟨app, planned, single, template, there, page.symm⟩

theorem base_mem_files (plan : Plan) (root : Path) (package : String) :
    .write ((root.join templatesDir).join "base.html") (Django.baseHtml package) ∈
      Scaffold.files plan root package := by
  simp [Scaffold.files]

theorem place_base (root : Path) :
    ((root.join templatesDir).join "base.html").place = root.place ++ templatesDir :: basePage :=
  place_join_join root (by decide) (by decide)

theorem HasInnerPage.write {page : List String} (inner : HasInnerPage plan page)
    (ok : ∀ e, .refuse e ∉ Apps.steps plan root) : ∃ q text, .write q text ∈ Apps.steps plan root ∧
      q.place = root.place ++ templatesDir :: page := by
  obtain ⟨app, planned, single, template, there, rfl⟩ := inner
  have steps : ∀ s ∈ Apps.appSteps root app, s ∈ Apps.steps plan root := fun s member =>
    List.mem_cons_of_mem _ (List.mem_flatMap.mpr ⟨app, planned, member⟩)
  have entry : isEntry app.name = true := isEntry_iff.mpr ⟨_, single⟩
  have step : Apps.templateStep (root.join app.name) template ∈ Apps.appSteps root app := by
    rw [Apps.appSteps, if_pos entry]
    simp only [Apps.fileSteps, List.mem_cons, List.mem_append]
    exact .inr (.inl (.inr (List.mem_map_of_mem there)))
  rw [Apps.templateStep] at step
  split at step
  · rename_i stays
    refine ⟨_, _, steps _ step, ?_⟩
    have inside : ((root.join app.name).join templatesDir).place =
        root.place ++ [templatesDir, templatesDir] := place_join_join root single (by decide)
    rw [Path.place_join stays, inside, List.append_assoc]
    rfl
  · exact absurd (steps _ step) (ok _)

/-- When all is planned, a target is the path of a planned write just if the pages overlap. -/
theorem overlaps_iff (planned : Done (plannedSteps plan root package) t mid) (sound : t.Sound)
    {sub : FileTree} (found : t.find views = .ok sub) :
    (∃ p ∈ written (plannedSteps plan root package), ∃ q ∈ targets views root t, p.place = q.place) ↔
      Overlaps plan views t := by
  have ok := planned.not_refused
  have okScaffold : ∀ e, .refuse e ∉ Scaffold.steps plan root package :=
    fun e member => ok e (List.mem_append_left _ member)
  have okApps : ∀ e, .refuse e ∉ Apps.steps plan root :=
    fun e member => ok e (List.mem_append_right _ member)
  obtain ⟨entry, steps⟩ := Scaffold.steps_eq_files okScaffold
  obtain ⟨own, single⟩ := isEntry_iff.mp entry
  constructor
  · rintro ⟨p, there, q, target, same⟩
    obtain ⟨text, member⟩ := mem_written.mp there
    obtain ⟨a, ha, rfl⟩ := List.mem_map.mp target
    obtain ⟨sub', found', names, listed, _, dir, stem, isAt, name⟩ := (mem_templatesIn_iff sound).mp ha
    have named := (sound.get? (FileTree.find_ok_iff.mp found').2).names listed
    have place : (conversionTarget root a.2).place =
        root.place ++ templatesDir :: (dir ++ [stem ++ ".html"]) := by
      rw [name]
      exact place_conversionTarget named isAt
    refine ⟨dir ++ [stem ++ ".html"], (hasPage_iff root sound found).mpr ⟨a, ha, place⟩, ?_⟩
    rcases List.mem_append.mp member with scaffold | apps
    · rw [steps] at scaffold
      exact .inl (Scaffold.page_of_file single scaffold (same.trans place))
    · exact .inr (Apps.page_of_file okApps apps (same.trans place))
  · rintro ⟨page, has, rfl | inner⟩
    · obtain ⟨a, ha, place⟩ := (hasPage_iff root sound found).mp has
      have base : .write ((root.join templatesDir).join "base.html") (Django.baseHtml package) ∈
          Scaffold.steps plan root package := steps ▸ base_mem_files plan root package
      exact ⟨_, mem_written.mpr ⟨_, List.mem_append_left _ base⟩, _, List.mem_map_of_mem ha,
        (place_base root).trans place.symm⟩
    · obtain ⟨a, ha, place⟩ := (hasPage_iff root sound found).mp has
      obtain ⟨q, text, member, at'⟩ := inner.write okApps
      exact ⟨q, mem_written.mpr ⟨text, List.mem_append_right _ member⟩, _, List.mem_map_of_mem ha,
        at'.trans place.symm⟩

theorem finalText?_append (q : List String) (steps more : List Step) :
    finalText? q (steps ++ more) = (finalText? q more).or (finalText? q steps) := by
  induction steps with
  | nil => exact (Option.or_none).symm
  | cons s rest ih => rw [List.cons_append, finalText?, ih, finalText?, Option.or_assoc]

theorem mem_of_finalText? {q : List String} {steps : List Step} {text : String}
    (gives : finalText? q steps = some text) : ∃ s ∈ steps, s.textAt? q = some text := by
  induction steps with
  | nil => cases gives
  | cons s rest ih =>
    rw [finalText?, Option.or_eq_some_iff] at gives
    rcases gives with later | ⟨_, here⟩
    · obtain ⟨s', member, here⟩ := ih later
      exact ⟨s', List.mem_cons_of_mem _ member, here⟩
    · exact ⟨s, List.mem_cons_self, here⟩

theorem finalText?_base (planned : Done (plannedSteps plan root package) t mid) :
    finalText? (root.place ++ templatesDir :: basePage) (plannedSteps plan root package) =
      some (Django.baseHtml package) := by
  have ok := planned.not_refused
  have okScaffold : ∀ e, .refuse e ∉ Scaffold.steps plan root package :=
    fun e member => ok e (List.mem_append_left _ member)
  obtain ⟨entry, steps⟩ := Scaffold.steps_eq_files okScaffold
  obtain ⟨own, single⟩ := isEntry_iff.mp entry
  have base := base_mem_files plan root package
  apply finalText?_eq_some
  · refine ⟨_, List.mem_append_left _ (steps ▸ base), ?_⟩
    rw [Step.textAt?, if_pos (place_base root).symm]
  · intro s member other gives
    cases s with
    | createDir p => cases gives
    | refuse e => cases gives
    | write p text =>
      rw [Step.textAt?] at gives
      split_ifs at gives with here
      obtain rfl := Option.some.inj gives
      rcases List.mem_append.mp member with scaffold | apps
      · rw [steps] at scaffold
        exact Scaffold.text_unique single scaffold base (here.symm.trans (place_base root).symm)
      · have inner : HasInnerPage plan ([] ++ ["base" ++ ".html"]) :=
          Apps.page_of_file (fun e member => ok e (List.mem_append_right _ member)) apps here.symm
        obtain ⟨app, _, _, template, _, page⟩ := inner
        exact absurd (List.cons.inj page).1 (by decide)

theorem contentsAt?_base (planned : Done (plannedSteps plan root package) t mid)
    (converted : Done (conversions views root mid) mid u) (sound : t.Sound) :
    ((¬ ∃ a ∈ templatesIn views mid,
        (conversionTarget root a.2).place = root.place ++ templatesDir :: basePage) ∧
      u.contentsAt? (root.place ++ templatesDir :: basePage) =
        some (.ofText (Django.baseHtml package))) ∨
    ∃ a ∈ templatesIn views mid,
      (conversionTarget root a.2).place = root.place ++ templatesDir :: basePage ∧
      u.contentsAt? (root.place ++ templatesDir :: basePage) =
        some (.ofText (Rails.Erb.toDjango (orEmpty (mid.read a.1)))) := by
  have whole := planned.append converted
  have sound' := planned.sound sound
  simp only [FileTree.contentsAt?_eq_some_iff]
  cases last : finalText? (root.place ++ templatesDir :: basePage) (conversions views root mid) with
  | none =>
    refine .inl ⟨?_, whole.written (by rw [finalText?_append, last, finalText?_base planned]; rfl)⟩
    rintro ⟨a, ha, here⟩
    have silent := finalText?_eq_none_iff.mp last _ (List.mem_map_of_mem ha)
    rw [conversionOf_eq sound' ha, Step.textAt?, if_pos here.symm] at silent
    cases silent
  | some text =>
    obtain ⟨s, member, gives⟩ := mem_of_finalText? last
    obtain ⟨a, ha, rfl⟩ := List.mem_map.mp member
    rw [conversionOf_eq sound' ha, Step.textAt?] at gives
    split_ifs at gives with here
    obtain rfl := Option.some.inj gives
    exact .inr ⟨a, ha, here.symm, whole.written (by rw [finalText?_append, last]; rfl)⟩

theorem Succeeded.written {steps : List Step} {calls : List Call} (ok : Succeeded steps calls) :
    calls.filterMap Call.written? = Build.written steps := by
  rw [ok.calls_eq, List.filterMap_filterMap, Build.written]
  congr 1
  funext s
  cases s <;> rfl

theorem written_apps (plan : Plan) (root : Path) :
    written (Apps.steps plan root) = (plan.apps.map (Apps.built root)).flatMap BuiltApp.files := by
  rw [Apps.steps, written, List.filterMap_cons_none rfl, List.filterMap_flatMap, List.flatMap_map]
  rfl

theorem Built.written {calls : List Call} {project : Project}
    (built : Built plan views root package calls (.ok project)) :
    calls.filterMap Call.written? =
      project.scaffold ++ project.apps.flatMap BuiltApp.files ++ project.converted := by
  generalize whole : Except.ok project = r at built
  cases built with
  | stopped ran => cases whole
  | @converted calls looks more files r ran listed converted =>
    cases r with
    | error e => cases whole
    | ok found =>
      cases whole
      rw [List.filterMap_append, List.filterMap_append, listed.onlyLooks.writesNothing, List.nil_append,
        converted.written, ran.succeeded.written, plannedSteps, Build.written, List.filterMap_append]
      change Build.written _ ++ Build.written _ ++ _ = _
      rw [written_apps]

end Build

namespace Pipeline

variable {σ : Type} {o : Outside σ} {tree : σ → FileTree} {name : String} {s s' : State} {e e' : σ}
  {calls : List Call}

/-- In a build stage that succeeds, a converted template is written over a file that the stage has
written before just if it is converted to the page that all others extend, or to one of an app which
is called like the directory of the templates. The page that all others extend is lost in the first
case and stays in any other. -/
theorem build_overwrites_iff (follows : o.Follows tree True e) (sound : (tree e).Sound)
    (apart : FileTree.Apart (s.outputRoot.join name).place (s.inputRoot.join Rails.Survey.viewsDir).place)
    (there : (tree e).exists? (s.inputRoot.join Rails.Survey.viewsDir) = true)
    (ran : ((o.tools name).build s).run.run (e, []) = (.ok s', e', calls)) :
    ∃ plan project, s.plan = some plan ∧ s'.project = some project ∧
      calls.filterMap Call.written? =
        project.scaffold ++ project.apps.flatMap Build.BuiltApp.files ++ project.converted ∧
      ((∃ p ∈ project.scaffold ++ project.apps.flatMap Build.BuiltApp.files, ∃ q ∈ project.converted,
        p.place = q.place) ↔
          Build.Overlaps plan (s.inputRoot.join Rails.Survey.viewsDir) (tree e)) ∧
      (¬ Build.HasPage (s.inputRoot.join Rails.Survey.viewsDir) (tree e) Build.basePage →
        (tree e').contentsAt?
            (((s.outputRoot.join name).join Build.templatesDir).join "base.html").place =
          some (.ofText (Django.baseHtml name))) ∧
      (Build.HasPage (s.inputRoot.join Rails.Survey.viewsDir) (tree e) Build.basePage →
        ∃ a ∈ Build.templatesIn (s.inputRoot.join Rails.Survey.viewsDir) (tree e),
          (tree e').contentsAt?
              (((s.outputRoot.join name).join Build.templatesDir).join "base.html").place =
            some (.ofText (Rails.Erb.toDjango (Build.orEmpty ((tree e).read a.1))))) := by
  obtain ⟨leads, worked⟩ := (Tools.build_meets name s).of_run ran
  cases worked with
  | @built plan _ project planned built =>
    refine ⟨plan, project, planned, rfl, built.written, ?_⟩
    have course := built.course follows leads sound apart
    -- From here on it does not matter which paths these are, only that they lie apart.
    generalize s.inputRoot.join Rails.Survey.viewsDir = views at *
    generalize s.outputRoot.join name = root at *
    obtain ⟨sub, found⟩ := FileTree.find_of_exists there
    cases course with
    | @built mid planned converted =>
      have beside := planned.beside (Build.stepsWithin_planned plan root name)
      have sound' := planned.sound sound
      have same := Build.templatesIn_eq beside apart sound sound' found
      have base := Build.contentsAt?_base planned converted sound
      rw [same, ← Build.place_base] at base
      refine ⟨?_, ?_, ?_⟩
      · have overlaps := Build.overlaps_iff planned sound found
        rw [Build.plannedSteps, Build.written, List.filterMap_append] at overlaps
        change (∃ p ∈ Build.written _ ++ Build.written _, _) ↔ _ at overlaps
        rw [Build.written_apps] at overlaps
        rw [← overlaps, Build.projectOf, Build.targets, same]
        rfl
      · intro none
        rcases base with ⟨_, kept⟩ | ⟨a, ha, here, _⟩
        · exact kept
        · rw [Build.place_base] at here
          exact absurd ((Build.hasPage_iff root sound found).mpr ⟨a, ha, here⟩) none
      · intro has
        rcases base with ⟨none, _⟩ | ⟨a, ha, _, contents⟩
        · rw [Build.place_base] at none
          exact absurd ((Build.hasPage_iff root sound found).mp has) none
        · rw [beside.read apart sound (Build.named_of_mem ha).1] at contents
          exact ⟨a, ha, contents⟩

def basePath : Path := ((Path.mk "out/site").join Build.templatesDir).join "base.html"

theorem build_keeps_base_of_blog :
    World.outside.Follows World.tree True (World.ofTree blogSource []) ∧ blogSource.Sound ∧
      FileTree.Apart (blogPlanned.outputRoot.join "site").place
        (blogPlanned.inputRoot.join Rails.Survey.viewsDir).place ∧
      blogSource.exists? (blogPlanned.inputRoot.join Rails.Survey.viewsDir) = true ∧
      ∃ s' w calls, ((World.outside.tools "site").build blogPlanned).run.run
          (World.ofTree blogSource [], []) = (.ok s', w, calls) ∧
        w.tree.contentsAt? basePath.place = some (.ofText (Django.baseHtml "site")) := by
  have follows : World.outside.Follows World.tree True (World.ofTree blogSource []) :=
    World.follows_ofTree _
  have sound : blogSource.Sound := .viewsOnly (by decide) (by decide)
  have apart : FileTree.Apart (blogPlanned.outputRoot.join "site").place
      (blogPlanned.inputRoot.join Rails.Survey.viewsDir).place := ⟨by decide, by decide⟩
  have there : blogSource.exists? (blogPlanned.inputRoot.join Rails.Survey.viewsDir) = true := by
    decide +kernel
  have plain : ¬ Build.HasPage (blogPlanned.inputRoot.join Rails.Survey.viewsDir) blogSource
      Build.basePage := by
    obtain ⟨sub, found⟩ := FileTree.find_of_exists there
    rw [Build.hasPage_iff ⟨"out/site"⟩ sound found]
    decide +kernel
  have ok : (((World.outside.tools "site").build blogPlanned).run.run
    (World.ofTree blogSource [], [])).1.isOk = true := by decide +kernel
  obtain ⟨s', ran⟩ := ran_of_isOk ok
  obtain ⟨_, _, _, _, _, _, kept, _⟩ := build_overwrites_iff follows sound apart there ran
  exact ⟨follows, sound, apart, there, s', _, _, ran, kept plain⟩

def baseSource : FileTree := .viewsOnly [("base.html.erb", "<p>mine</p>")]

/-- A view with the name of the page that all others extend takes its place. -/
theorem base_lost_to_view :
    ∃ s' w calls, ((World.outside.tools "site").build blogPlanned).run.run
        (World.ofTree baseSource [], []) = (.ok s', w, calls) ∧
      w.tree.contentsAt? basePath.place ≠ some (.ofText (Django.baseHtml "site")) := by
  have done : (((World.outside.tools "site").build blogPlanned).run.run
        (World.ofTree baseSource [], [])).1.isOk = true ∧
      (((World.outside.tools "site").build blogPlanned).run.run
        (World.ofTree baseSource [], [])).2.1.tree.contentsAt? basePath.place ≠
          some (.ofText (Django.baseHtml "site")) := by decide +kernel
  obtain ⟨s', ran⟩ := ran_of_isOk done.1
  exact ⟨s', _, _, ran, done.2⟩

end Pipeline

end Transplant
