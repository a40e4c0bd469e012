import Transplant.Proofs.Overwritten

/-! What a build has to do, in order: the files of the scaffold, the directory and the files of each
app, and the templates. All of it is known before the first call, with the names that stand in the
way of some of it. A build does it up to the first change that fails or has a name in its way. -/
namespace Transplant

namespace Build

open FileTree (Apart)

/-- A change that a build makes by one call. -/
inductive Change where
  | write (path : Path) (text : String)
  | createDir (path : Path)

namespace Change

def path : Change → Path
  | write p _ => p
  | createDir p => p

def call (r : Except FileError Unit) : Change → Call
  | write p text => .write p text r
  | createDir p => .createDir p r

def step : Change → Step
  | write p text => .write p text
  | createDir p => .createDir p

end Change

/-- A change, and the refusal that comes in its place if a name is in its way. -/
structure Due where
  change : Change
  refusal? : Option BuildError

namespace Due

def write (path : Path) (text : String) : Due := ⟨.write path text, none⟩

def createDir (path : Path) : Due := ⟨.createDir path, none⟩

def barred (refusal? : Option BuildError) (d : Due) : Due := { d with refusal? }

def file? (d : Due) : Option Path := d.change.step.written?

def step (d : Due) : Step :=
  match d.refusal? with
  | some error => .refuse error
  | none => d.change.step

def done (d : Due) : Call := d.change.call (.ok ())

def Free (d : Due) : Prop := d.refusal? = none

end Due

/-- How the changes end: with the last of them, with one that fails, or before one that is refused. -/
inductive Ended (agenda : List Due) : List Call → Except BuildError Unit → Prop where
  | whole (free : ∀ d ∈ agenda, d.Free) : Ended agenda (agenda.map Due.done) (.ok ())
  | failed (before : List Due) {after : List Due} {d : Due} {cause : FileError}
      (split : agenda = before ++ d :: after) (free : ∀ x ∈ before ++ [d], x.Free) :
      Ended agenda (before.map Due.done ++ [d.change.call (.error cause)])
        (.error (.io d.change.path cause))
  | refused (before : List Due) {after : List Due} {d : Due} {error : BuildError}
      (split : agenda = before ++ d :: after) (free : ∀ x ∈ before, x.Free)
      (barred : d.refusal? = some error) : Ended agenda (before.map Due.done) (.error error)

/-- An invalid package comes before one that is the name of an app. -/
def Scaffold.refusal? (plan : Plan) (package : String) : Option BuildError :=
  if isEntry package then
    if package ∈ plan.apps.map Plan.App.name then some (.nameCollision package) else none
  else some (.unsafePath package)

def Scaffold.agenda (plan : Plan) (root : Path) (package : String) : List Due :=
  let dir := root.join package
  let apps := plan.apps.map Plan.App.name
  [.barred (refusal? plan package) (.write (root.join "manage.py") (Django.managePy package)),
   .write (dir.join "__init__.py") "",
   .write (dir.join "settings.py") (Django.settingsPy package apps),
   .write (dir.join "urls.py") (Django.rootUrlsPy apps),
   .write (dir.join "wsgi.py") (Django.wsgiPy package),
   .write ((root.join "templates").join "base.html") (Django.baseHtml package)]

def Apps.refusal? (valid : String → Bool) (name : String) : Option BuildError :=
  if valid name then none else some (.unsafePath name)

def Apps.stub (dir : Path) (name : String) : Due :=
  .barred (refusal? staysBelow name)
    (.write ((dir.join "templates").join name) (Django.templateStub name))

def Apps.agendaOf (root : Path) (app : Plan.App) : List Due :=
  let dir := root.join app.name
  [.barred (refusal? isEntry app.name) (.createDir dir),
   .write (dir.join "models.py") (Django.modelsPy app.models),
   .write (dir.join "views.py") (Django.viewsPy app.views),
   .write (dir.join "urls.py") (Django.urlsPy app.urls)] ++
  app.templates.map (stub dir) ++
  [.write (dir.join "apps.py") (Django.appsPy app.name), .write (dir.join "__init__.py") ""]

def pageOf (root : Path) (t : FileTree) (template : Path × String) : Due :=
  .write ((root.join "templates").join (template.2 ++ ".html"))
    (Rails.Erb.toDjango (orEmpty (t.read template.1)))

def agenda (plan : Plan) (views root : Path) (package : String) (t : FileTree) : List Due :=
  Scaffold.agenda plan root package ++
    (.createDir root :: plan.apps.flatMap (Apps.agendaOf root)) ++
    (templatesIn views t).map (pageOf root t)

def filesOf (agenda : List Due) : List Path := agenda.filterMap Due.file?

/-- The project of a whole agenda, with all files of it in their order. -/
def agendaProject (plan : Plan) (views root : Path) (package : String) (t : FileTree) : Project where
  root
  apps := plan.apps.map fun app => ⟨app.name, root.join app.name, filesOf (Apps.agendaOf root app)⟩
  scaffold := filesOf (Scaffold.agenda plan root package)
  converted := filesOf ((templatesIn views t).map (pageOf root t))

/-! The steps of a build are those of its agenda up to the first that is refused. -/

inductive SameUpToRefusal : List Step → List Step → Prop where
  | nil : SameUpToRefusal [] []
  | cons (s : Step) {rest rest' : List Step} (later : SameUpToRefusal rest rest') :
      SameUpToRefusal (s :: rest) (s :: rest')
  | refused (error : BuildError) (rest rest' : List Step) :
      SameUpToRefusal (.refuse error :: rest) (.refuse error :: rest')

namespace SameUpToRefusal

variable {steps steps' more more' : List Step}

theorem refl (steps : List Step) : SameUpToRefusal steps steps := by
  induction steps with
  | nil => exact .nil
  | cons s rest ih => exact .cons s ih

theorem append (h : SameUpToRefusal steps steps') (h' : SameUpToRefusal more more') :
    SameUpToRefusal (steps ++ more) (steps' ++ more') := by
  induction h with
  | nil => exact h'
  | cons s _ ih => exact .cons s ih
  | refused error rest rest' => exact .refused error _ _

theorem eq (h : SameUpToRefusal steps steps') (ok : ∀ error, .refuse error ∉ steps) :
    steps = steps' := by
  induction h with
  | nil => rfl
  | cons s _ ih =>
    rw [ih fun error member => ok error (List.mem_cons_of_mem _ member)]
  | refused error => exact absurd List.mem_cons_self (ok error)

theorem ran (h : SameUpToRefusal steps steps') {calls : List Call} {r : Except BuildError Unit}
    (ran : Ran steps calls r) : Ran steps' calls r := by
  induction ran generalizing steps' with
  | done => cases h; exact .done
  | next did _ ih =>
    cases h with
    | cons s later => exact .next did (ih later)
    | refused => cases did
  | stopped did =>
    cases h with
    | cons s later => exact .stopped did
    | refused => cases did; exact .stopped .refused

end SameUpToRefusal

theorem Due.free_of_did {d : Due} {calls : List Call} (did : d.step.Did calls (.ok ())) :
    d.Free ∧ calls = [d.done] := by
  rcases d with ⟨_ | _, _ | error⟩ <;> cases did <;> exact ⟨rfl, rfl⟩

theorem Due.ended_of_did {d : Due} {calls : List Call} {e : BuildError} (rest : List Due)
    (did : d.step.Did calls (.error e)) : Ended (d :: rest) calls (.error e) := by
  rcases d with ⟨_ | _, _ | error⟩ <;> cases did
  · exact .failed [] rfl (by simp [Free])
  · exact .refused [] rfl (by simp) rfl
  · exact .failed [] rfl (by simp [Free])
  · exact .refused [] rfl (by simp) rfl

theorem Ended.cons {d : Due} (free : d.Free) {agenda : List Due} {calls : List Call}
    {r : Except BuildError Unit} (ended : Ended agenda calls r) :
    Ended (d :: agenda) (d.done :: calls) r := by
  cases ended with
  | whole rest => exact .whole (List.forall_mem_cons.mpr ⟨free, rest⟩)
  | @failed before after _ cause split rest =>
    exact .failed (d :: before) (by rw [split]; rfl) (List.forall_mem_cons.mpr ⟨free, rest⟩)
  | @refused before after _ error split rest barred =>
    exact .refused (d :: before) (by rw [split]; rfl) (List.forall_mem_cons.mpr ⟨free, rest⟩)
      barred

theorem Ran.ended {agenda : List Due} {calls : List Call} {r : Except BuildError Unit}
    (ran : Ran (agenda.map Due.step) calls r) : Ended agenda calls r := by
  induction agenda generalizing calls with
  | nil => cases ran; exact .whole (by simp)
  | cons d rest ih =>
    cases ran with
    | next did later =>
      obtain ⟨free, rfl⟩ := Due.free_of_did did
      exact (ih later).cons free
    | stopped did => exact Due.ended_of_did _ did

variable {plan : Plan} {views root : Path} {package : String} {t : FileTree}

theorem Scaffold.steps_agenda (plan : Plan) (root : Path) (package : String) :
    SameUpToRefusal (steps plan root package) ((agenda plan root package).map Due.step) := by
  unfold steps
  split
  · rename_i bad
    have refusal : refusal? plan package = some (.unsafePath package) := by simp_all [refusal?]
    simp only [agenda, refusal, List.map_cons]
    exact .refused _ _ _
  · rename_i good
    split
    · rename_i collides
      have refusal : refusal? plan package = some (.nameCollision package) := by
        simp_all [refusal?]
      simp only [agenda, refusal, List.map_cons]
      exact .refused _ _ _
    · have none : refusal? plan package = none := by simp_all [refusal?]
      simp only [agenda, none]
      exact .refl _

theorem Apps.stub_step (dir : Path) (name : String) : (stub dir name).step = templateStep dir name := by
  unfold stub templateStep refusal?
  split <;> rfl

theorem Apps.steps_agendaOf (root : Path) (app : Plan.App) :
    SameUpToRefusal (appSteps root app) ((agendaOf root app).map Due.step) := by
  unfold appSteps
  split
  · rename_i entry
    have same : (.createDir (root.join app.name) :: fileSteps app (root.join app.name)) =
        (agendaOf root app).map Due.step := by
      simp [agendaOf, fileSteps, refusal?, entry, Function.comp_def, stub_step]
      simp [Due.step, Due.barred, Due.createDir, Due.write, Change.step]
    rw [← same]
    exact .refl _
  · rename_i bad
    simp only [agendaOf, refusal?, if_neg bad, List.cons_append, List.map_cons]
    exact .refused _ _ _

theorem Apps.steps_agenda (apps : List Plan.App) (root : Path) :
    SameUpToRefusal (apps.flatMap (appSteps root)) ((apps.flatMap (agendaOf root)).map Due.step) := by
  induction apps with
  | nil => exact .nil
  | cons app rest ih =>
    simp only [List.flatMap_cons, List.map_append]
    exact (steps_agendaOf root app).append ih

theorem conversions_agenda (sound : t.Sound) :
    conversions views root t = ((templatesIn views t).map (pageOf root t)).map Due.step := by
  rw [conversions, List.map_map]
  apply List.map_congr_left
  intro a ha
  rw [conversionOf_eq sound ha]
  rfl

theorem steps_agenda (plan : Plan) (views root : Path) (package : String) (sound : t.Sound) :
    SameUpToRefusal (plannedSteps plan root package ++ conversions views root t)
      ((agenda plan views root package t).map Due.step) := by
  rw [conversions_agenda sound, plannedSteps, agenda, List.map_append, List.map_append]
  refine .append (.append (Scaffold.steps_agenda plan root package) ?_) (.refl _)
  exact .cons _ (Apps.steps_agenda plan.apps root)

theorem written_agenda {agenda : List Due} (ok : ∀ error, .refuse error ∉ agenda.map Due.step) :
    written (agenda.map Due.step) = filesOf agenda := by
  rw [written, filesOf, List.filterMap_map]
  apply List.filterMap_congr
  intro d member
  cases free : d.refusal? with
  | none => simp [Due.step, Due.file?, free]
  | some error =>
    have barred : Step.refuse error ∈ agenda.map Due.step :=
      List.mem_map.mpr ⟨d, member, by simp [Due.step, free]⟩
    exact absurd barred (ok error)

theorem SameUpToRefusal.written {steps : List Step} {agenda : List Due}
    (same : SameUpToRefusal steps (agenda.map Due.step)) (ok : ∀ error, .refuse error ∉ steps) :
    written steps = filesOf agenda := by
  have whole := same.eq ok
  rw [whole] at ok ⊢
  exact written_agenda ok

theorem built_agenda (ok : ∀ error, .refuse error ∉ Apps.steps plan root) {app : Plan.App}
    (member : app ∈ plan.apps) :
    Apps.built root app = ⟨app.name, root.join app.name, filesOf (Apps.agendaOf root app)⟩ := by
  have own : ∀ error, .refuse error ∉ Apps.appSteps root app := fun error refused =>
    ok error (List.mem_cons_of_mem _ (List.mem_flatMap.mpr ⟨app, member, refused⟩))
  rw [Apps.built, (Apps.steps_agendaOf root app).written own]

theorem projectOf_agenda (ok : ∀ error, .refuse error ∉ plannedSteps plan root package) :
    projectOf plan views root package t = agendaProject plan views root package t := by
  have scaffold := (Scaffold.steps_agenda plan root package).written fun error refused =>
    ok error (List.mem_append_left _ refused)
  have apps : plan.apps.map (Apps.built root) = plan.apps.map fun app =>
      ⟨app.name, root.join app.name, filesOf (Apps.agendaOf root app)⟩ :=
    List.map_congr_left fun app member =>
      built_agenda (fun error refused => ok error (List.mem_append_right _ refused)) member
  have converted : targets views root t = filesOf ((templatesIn views t).map (pageOf root t)) := by
    rw [targets, filesOf, List.filterMap_map, ← List.filterMap_eq_map]
    rfl
  rw [projectOf, agendaProject, scaffold, apps, converted]

theorem Scaffold.steps_of_refusal {error : BuildError} (refused : refusal? plan package = some error) :
    steps plan root package = [.refuse error] := by
  unfold refusal? at refused
  split_ifs at refused with entry collides
  · cases refused
    simp_all [steps]
  · cases refused
    simp [steps, entry]

/-- The views of a tree are apart from the root: neither of them lies within the other, and what their
path passes by is there. -/
structure ViewsApart (views root : Path) (t : FileTree) : Prop where
  apart : Apart root.place views.place
  passes : ∀ q ∈ views.way, q <+: views.place ∨ t.node? q ≠ none

variable {σ : Type} {o : Outside σ} {tree : σ → FileTree} {e e' : σ} {calls : List Call}
  {r : Except BuildError Project}

theorem Built.ended (built : Built plan views root package calls r) (follows : o.Follows tree True e)
    (leads : o.Leads e calls e') (sound : (tree e).Sound) (away : ViewsApart views root (tree e)) :
    Ended (agenda plan views root package (tree e)) (calls.filter Call.isChange) (r.map fun _ => ()) ∧
      ∀ project, r = .ok project → project = agendaProject plan views root package (tree e) := by
  have agenda := steps_agenda plan views root package sound
  cases built with
  | stopped ran =>
    refine ⟨?_, fun _ same => by cases same⟩
    rw [ran.filter_isChange]
    exact (agenda.ran (ran_append_of_error ran)).ended
  | @converted calls looks more files r ran listed converted =>
    obtain ⟨mid, first, behind⟩ := leads.split
    obtain ⟨mid', second, third⟩ := behind.split
    have planned := (ran.went follows first).done
    have beside := planned.beside (stepsWithin_planned plan root package)
    have sound' := planned.sound sound
    have follows' := follows.later first
    obtain ⟨same, rfl⟩ := listed.listAt follows' second
    obtain ⟨_, runs⟩ := converted.went (t := tree mid)
      (fun template member u beside => beside.read away.apart sound' (named_of_mem member).1)
      (by rw [same]; exact .refl _ _) (follows'.later second) third
    -- The views are listed behind the planned steps, which have not changed them.
    have templates : templatesIn views (tree mid) = templatesIn views (tree e) := by
      rw [templatesIn, templatesIn, beside.listAt_of_open away.apart sound sound' away.passes]
    change Ran (conversions views root (tree mid)) _ _ at runs
    rw [conversions_eq beside away.apart sound templates] at runs
    constructor
    · have whole := (agenda.ran (ran_append ran runs)).ended
      rw [List.filter_append, List.filter_append, ran.filter_isChange, listed.onlyLooks.filter_isChange]
      cases r <;> exact whole
    · intro project same
      cases r with
      | error error => cases same
      | ok found =>
        cases same
        rw [converted.targets_eq, ← projectOf_agenda planned.not_refused, ← projectOf_eq templates]
        rfl

end Build

namespace Pipeline

variable {σ : Type} {o : Outside σ} {tree : σ → FileTree} {e : σ}

/-- The changes that a build makes are those of its agenda, up to one that fails or that a name is in
the way of. When all of it is done, the project lists the files of the agenda, which are the files that
were written. A package that is refused is refused before any call. -/
theorem build_follows_agenda (plan : Plan) (views root : Path) (package : String)
    (follows : o.Follows tree True e) (sound : (tree e).Sound)
    (away : Build.ViewsApart views root (tree e)) :
    ∃ r e' calls, ((o.tools package).buildProject plan views root).run.run (e, []) = (r, e', calls) ∧
      Build.Ended (Build.agenda plan views root package (tree e)) (calls.filter Call.isChange)
        (r.map fun _ => ()) ∧
      (∀ error, Build.Scaffold.refusal? plan package = some error → calls = [] ∧ r = .error error) ∧
      ∀ project, r = .ok project →
        project = Build.agendaProject plan views root package (tree e) ∧
        calls.filterMap Call.written? =
          project.scaffold ++ project.apps.flatMap Build.BuiltApp.files ++ project.converted := by
  obtain ⟨calls, r, e', does, leads, built⟩ :=
    Tools.buildProject_meets (o := o) package plan views root e
  obtain ⟨ended, whole⟩ := built.ended follows leads sound away
  refine ⟨r, e', calls, by simpa using does [], ended, ?_, ?_⟩
  · intro error refused
    exact built.refused (Build.Scaffold.steps_of_refusal refused)
  · rintro project rfl
    exact ⟨whole project rfl, built.written⟩

def blogPlan : Plan := .structured [⟨"blog", [], [], [], []⟩]

theorem build_follows_agenda_on_full_disk :
    World.outside.Follows World.tree True fullDisk ∧ fullDisk.tree.Sound ∧
      Build.ViewsApart ⟨"in/app/views"⟩ ⟨"out/site"⟩ fullDisk.tree ∧
      ∃ r w calls, ((World.outside.tools "site").buildProject blogPlan ⟨"in/app/views"⟩
          ⟨"out/site"⟩).run.run (fullDisk, []) = (r, w, calls) ∧
        Build.Ended (Build.agenda blogPlan ⟨"in/app/views"⟩ ⟨"out/site"⟩ "site" fullDisk.tree)
          (calls.filter Call.isChange) (r.map fun _ => ()) ∧
        r = .error (.io ⟨"out/site/blog/urls.py"⟩ (.other "disk full")) := by
  have follows : World.outside.Follows World.tree True fullDisk :=
    World.follows (by simp [World.OnlyInterrupts, fullDisk, World.ofTree])
  have sound : fullDisk.tree.Sound := .viewsOnly (by decide) (by decide)
  have away : Build.ViewsApart ⟨"in/app/views"⟩ ⟨"out/site"⟩ fullDisk.tree :=
    ⟨⟨by decide, by decide⟩, fun q on => .inl ((by decide : ∀ q ∈ (Path.mk "in/app/views").way,
      q <+: (Path.mk "in/app/views").place) q on)⟩
  obtain ⟨r, w, calls, run, ended, _⟩ :=
    build_follows_agenda blogPlan ⟨"in/app/views"⟩ ⟨"out/site"⟩ "site" follows sound away
  have failed : (((World.outside.tools "site").buildProject blogPlan ⟨"in/app/views"⟩
      ⟨"out/site"⟩).run.run (fullDisk, [])).1 =
        .error (.io ⟨"out/site/blog/urls.py"⟩ (.other "disk full")) := by decide +kernel
  rw [run] at failed
  exact ⟨follows, sound, away, r, w, calls, run, ended, failed⟩

end Pipeline

end Transplant
