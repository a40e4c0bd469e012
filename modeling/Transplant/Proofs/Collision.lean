import Transplant.Proofs.TreeCalls
import Mathlib.Data.List.Nodup

/-! Files that the scaffold and the apps of a project share. The scaffold refuses an app that is
spelled like the package of the settings. Apps spelled in other ways can have the directory of the
package all the same, and then they write over files of the scaffold; no other apps do. -/
namespace Transplant

/-- An app has the directory of the package, by components. -/
def Plan.Shares (plan : Plan) (package : String) : Prop :=
  ∃ app ∈ plan.apps, (Path.mk app.name).components = (Path.mk package).components

namespace Build

variable {plan : Plan} {root : Path} {package entry : String}

/-- The files of a scaffold, by the names behind its root. -/
def Scaffold.names (entry : String) : List (List String) :=
  [["manage.py"], [entry, "__init__.py"], [entry, "settings.py"], [entry, "urls.py"],
    [entry, "wsgi.py"], ["templates", "base.html"]]

theorem Scaffold.names_nodup (entry : String) : (names entry).Nodup := by
  simp [names]

theorem place_join_join (root : Path) {name behind last : String}
    (single : (Path.mk name).components = [.normal entry])
    (plain : (Path.mk behind).components = [.normal last]) :
    ((root.join name).join behind).place = root.place ++ [entry, last] := by
  rw [Path.place_join_entry _ plain, root.place_join_entry single, List.append_assoc]
  rfl

def Step.place? (s : Step) : Option (List String) := s.path?.map Path.place

theorem mem_written {steps : List Step} {p : Path} :
    p ∈ written steps ↔ ∃ text, .write p text ∈ steps := by
  rw [written, List.mem_filterMap]
  constructor
  · rintro ⟨s, member, same⟩
    cases s <;> cases same
    exact ⟨_, member⟩
  · rintro ⟨text, member⟩
    exact ⟨_, member, rfl⟩

theorem Scaffold.places_eq (plan : Plan) (root : Path)
    (single : (Path.mk package).components = [.normal entry]) :
    (files plan root package).map Step.place? =
      (names entry).map fun behind => some (root.place ++ behind) := by
  have dir := root.place_join_entry single
  have templates : (root.join templatesDir).place = root.place ++ ["templates"] :=
    root.place_join_entry (by decide)
  have manage : (root.join "manage.py").place = root.place ++ ["manage.py"] :=
    root.place_join_entry (by decide)
  have file : ∀ name ∈ ["__init__.py", "settings.py", "urls.py", "wsgi.py", "base.html"],
      ∀ base : Path, (base.join name).place = base.place ++ [name] := by
    intro name member base
    apply base.place_join_entry
    simp only [List.mem_cons, List.not_mem_nil, or_false] at member
    rcases member with rfl | rfl | rfl | rfl | rfl <;> decide
  simp [files, names, Step.place?, Step.path?, manage, file, dir, templates]

theorem Scaffold.text_unique (single : (Path.mk package).components = [.normal entry])
    {p q : Path} {text text' : String} (hp : .write p text ∈ files plan root package)
    (hq : .write q text' ∈ files plan root package) (same : p.place = q.place) : text = text' := by
  have distinct : ((files plan root package).map Step.place?).Nodup := by
    rw [places_eq plan root single]
    apply (names_nodup entry).map
    intro a b h
    simpa using h
  have one := List.inj_on_of_nodup_map distinct hp hq (by simp [Step.place?, Step.path?, same])
  cases one
  rfl

theorem Scaffold.place_of_file (single : (Path.mk package).components = [.normal entry]) {p : Path}
    {text : String} (member : .write p text ∈ files plan root package) :
    ∃ behind ∈ names entry, p.place = root.place ++ behind := by
  have listed : Step.place? (.write p text) ∈ (files plan root package).map Step.place? :=
    List.mem_map_of_mem member
  rw [places_eq plan root single, List.mem_map] at listed
  obtain ⟨behind, named, same⟩ := listed
  exact ⟨behind, named, (Option.some.inj same).symm⟩

def Apps.ownFiles (app : Plan.App) : List (String × String) :=
  [("models.py", Django.modelsPy app.models), ("views.py", Django.viewsPy app.views),
    ("urls.py", Django.urlsPy app.urls), ("apps.py", Django.appsPy app.name), ("__init__.py", "")]

theorem Apps.plain_of_ownFiles {app : Plan.App} {file : String × String} (own : file ∈ ownFiles app) :
    (Path.mk file.1).components = [.normal file.1] := by
  simp only [ownFiles, List.mem_cons, List.not_mem_nil, or_false] at own
  rcases own with rfl | rfl | rfl | rfl | rfl <;> simp only <;> decide

theorem Apps.mem_fileSteps_iff {app : Plan.App} {dir : Path} {s : Step} : s ∈ fileSteps app dir ↔
    (∃ file ∈ ownFiles app, s = .write (dir.join file.1) file.2) ∨
      ∃ template ∈ app.templates, s = templateStep dir template := by
  simp only [fileSteps, ownFiles, List.mem_append, List.mem_cons, List.not_mem_nil, or_false,
    List.mem_map, exists_eq_or_imp, exists_eq_left, eq_comm (b := s)]
  grind

theorem Apps.place_of_file {app : Plan.App} (single : (Path.mk app.name).components = [.normal entry])
    {q : Path} {text : String} (member : .write q text ∈ appSteps root app) :
    (∃ file ∈ ownFiles app, q.place = root.place ++ [entry, file.1] ∧ text = file.2) ∨
      ∃ template ∈ app.templates, (Path.mk template).components ≠ [] ∧ q.place = root.place ++
        entry :: "templates" :: (Path.mk template).components.map Path.Component.text := by
  have isEntry : isEntry app.name = true := isEntry_iff.mpr ⟨entry, single⟩
  have templates : ((root.join app.name).join templatesDir).place = root.place ++ [entry, "templates"] :=
    place_join_join root single (by decide)
  rw [appSteps, if_pos isEntry, List.mem_cons, mem_fileSteps_iff] at member
  rcases member with no | ⟨file, own, step⟩ | ⟨template, planned, step⟩
  · cases no
  · cases step
    exact .inl ⟨file, own, place_join_join root single (plain_of_ownFiles own), rfl⟩
  · rw [templateStep] at step
    split at step
    · rename_i stays
      cases step
      refine .inr ⟨template, planned, Path.components_ne_nil stays, ?_⟩
      rw [Path.place_join stays, templates, List.append_assoc]
      rfl
    · cases step

theorem Apps.app_of_write {q : Path} {text : String} (member : .write q text ∈ steps plan root) :
    ∃ app ∈ plan.apps, .write q text ∈ appSteps root app := by
  simpa [steps] using member

theorem Apps.isEntry_of_not_refused (ok : ∀ e, .refuse e ∉ steps plan root) {app : Plan.App}
    (member : app ∈ plan.apps) : isEntry app.name = true := by
  cases entry : isEntry app.name with
  | true => rfl
  | false =>
    have refused : .refuse (.unsafePath app.name) ∈ steps plan root := by
      simp only [steps, List.mem_cons, reduceCtorEq, false_or, List.mem_flatMap]
      exact ⟨app, member, by simp [appSteps, entry]⟩
    exact absurd refused (ok _)

theorem Apps.own_mem_appSteps (ok : ∀ e, .refuse e ∉ steps plan root) {app : Plan.App}
    (member : app ∈ plan.apps) {file : String × String} (own : file ∈ ownFiles app) :
    .write ((root.join app.name).join file.1) file.2 ∈ appSteps root app := by
  rw [appSteps, if_pos (isEntry_of_not_refused ok member), List.mem_cons, mem_fileSteps_iff]
  exact .inr (.inl ⟨file, own, rfl⟩)

theorem Scaffold.steps_eq_files (ok : ∀ e, .refuse e ∉ steps plan root package) :
    isEntry package = true ∧ steps plan root package = files plan root package := by
  unfold steps at ok ⊢
  split
  · rename_i bad
    rw [if_pos bad] at ok
    exact absurd (List.mem_singleton.mpr rfl) (ok (.unsafePath package))
  · rename_i good
    rw [if_neg good] at ok
    split
    · rename_i collides
      rw [if_pos collides] at ok
      exact absurd (List.mem_singleton.mpr rfl) (ok (.nameCollision package))
    · exact ⟨by simpa using good, rfl⟩

theorem shares_of_place (single : (Path.mk package).components = [.normal entry])
    (ok : ∀ e, .refuse e ∉ Apps.steps plan root) {p q : Path} {text text' : String}
    (hp : .write p text ∈ Scaffold.files plan root package)
    (hq : .write q text' ∈ Apps.steps plan root) (same : p.place = q.place) :
    plan.Shares package := by
  obtain ⟨behind, named, place⟩ := Scaffold.place_of_file single hp
  obtain ⟨app, member, hq⟩ := Apps.app_of_write hq
  obtain ⟨own, ownSingle⟩ := isEntry_iff.mp (Apps.isEntry_of_not_refused ok member)
  have equal : own = entry → plan.Shares package := by
    rintro rfl
    exact ⟨app, member, ownSingle.trans single.symm⟩
  rw [place] at same
  simp only [Scaffold.names, List.mem_cons, List.not_mem_nil, or_false] at named
  rcases Apps.place_of_file ownSingle hq with ⟨file, listed, at', _⟩ | ⟨template, _, some, at'⟩
  · rw [at', List.append_cancel_left_eq] at same
    subst same
    have inner : file.1 ≠ "base.html" := by
      simp only [Apps.ownFiles, List.mem_cons, List.not_mem_nil, or_false] at listed
      rcases listed with rfl | rfl | rfl | rfl | rfl <;> simp
    apply equal
    rcases named with h | h | h | h | h | h <;> simp_all
  · rw [at', List.append_cancel_left_eq] at same
    subst same
    simp [some] at named

theorem urls_of_place (ok : ∀ e, .refuse e ∉ Apps.steps plan root) {q : Path} {text : String}
    (hq : .write q text ∈ Apps.steps plan root) (place : q.place = root.place ++ [entry, "urls.py"]) :
    ∃ urls, text = Django.urlsPy urls := by
  obtain ⟨app, member, hq⟩ := Apps.app_of_write hq
  obtain ⟨own, ownSingle⟩ := isEntry_iff.mp (Apps.isEntry_of_not_refused ok member)
  rcases Apps.place_of_file ownSingle hq with ⟨file, listed, at', rfl⟩ | ⟨template, _, some, at'⟩
  · rw [at', List.append_cancel_left_eq] at place
    refine ⟨app.urls, ?_⟩
    simp only [Apps.ownFiles, List.mem_cons, List.not_mem_nil, or_false] at listed
    rcases listed with rfl | rfl | rfl | rfl | rfl <;> simp_all
  · rw [at', List.append_cancel_left_eq] at place
    simp [some] at place

theorem rootUrls_ne_urls (apps : List String) (urls : List Plan.Url) :
    Django.rootUrlsPy apps ≠ Django.urlsPy urls := by
  intro h
  have start := congrArg (fun text => text.toList.take 13) h
  simp [Django.rootUrlsPy, Django.rootUrlsHead, Django.urlsPy, Django.unlines] at start

theorem urls_of_shares (shares : plan.Shares package) (isEntry : isEntry package = true) :
    ∃ q text, .write q text ∈ Apps.steps plan root ∧
      ((root.join package).join "urls.py").components = q.components := by
  obtain ⟨app, member, same⟩ := shares
  have stays := staysBelow_of_isEntry isEntry
  have file : staysBelow "urls.py" = true := by decide
  have own : Build.isEntry app.name = true := by
    obtain ⟨entry, single⟩ := isEntry_iff.mp isEntry
    exact isEntry_iff.mpr ⟨entry, same.trans single⟩
  refine ⟨(root.join app.name).join "urls.py", Django.urlsPy app.urls, ?_, ?_⟩
  · simp only [Apps.steps, List.mem_cons, reduceCtorEq, false_or, List.mem_flatMap]
    exact ⟨app, member, by simp [Apps.appSteps, own, Apps.fileSteps]⟩
  · rw [Path.components_join file, Path.components_join stays, Path.components_join file,
      Path.components_join (staysBelow_of_isEntry own), same]

variable {σ : Type} {o : Outside σ} {e e₁ e₂ : σ} {calls more : List Call}

/-- A scaffold that was written, and then the apps. -/
structure BothWritten (o : Outside σ) (plan : Plan) (root : Path) (package : String) (e e₂ : σ)
    (calls more : List Call) : Prop where
  isEntry : isEntry package = true
  leads : o.Leads e (calls ++ more) e₂
  appsLead : ∃ e₁, o.Leads e₁ more e₂
  files : Succeeded (Scaffold.files plan root package) calls
  apps : Succeeded (Apps.steps plan root) more

theorem bothWritten {files : List Path} {project : Project}
    (scaffolded : (scaffold o.files.recorded plan root package).run.run (e, []) = (.ok files, e₁, calls))
    (generated : (generate o.files.recorded plan root).run.run (e₁, []) = (.ok project, e₂, more)) :
    BothWritten o plan root package e e₂ calls more := by
  obtain ⟨first, ended⟩ := (scaffold_meets plan root package).of_run scaffolded
  obtain ⟨last, endedApps⟩ := (generate_meets plan root).of_run generated
  have ok := (ran_of_map_ok ended).1.succeeded
  have okApps := (ran_of_map_ok endedApps).1.succeeded
  obtain ⟨isEntry, steps⟩ := Scaffold.steps_eq_files ok.not_refused
  rw [steps] at ok
  exact ⟨isEntry, first.append last, ⟨e₁, last⟩, ok, okApps⟩

namespace BothWritten

theorem shares_of_shared (both : BothWritten o plan root package e e₂ calls more) {p q : Path}
    {text text' : String} {r r' : Except FileError Unit} (hp : .write p text r ∈ calls)
    (hq : .write q text' r' ∈ more) (same : p.place = q.place) : plan.Shares package := by
  obtain ⟨entry, single⟩ := isEntry_iff.mp both.isEntry
  exact shares_of_place single both.apps.not_refused (both.files.mem_write.mp hp).1
    (both.apps.mem_write.mp hq).1 same

theorem rootUrls (both : BothWritten o plan root package e e₂ calls more) :
    .write ((root.join package).join "urls.py") (Django.rootUrlsPy (plan.apps.map Plan.App.name))
      (.ok ()) ∈ calls :=
  both.files.mem_write.mpr ⟨by simp [Scaffold.files], rfl⟩

theorem appUrls (both : BothWritten o plan root package e e₂ calls more)
    (shares : plan.Shares package) :
    ∃ q text, .write q text (.ok ()) ∈ more ∧
      ((root.join package).join "urls.py").components = q.components := by
  obtain ⟨q, text, written, same⟩ := urls_of_shares shares both.isEntry
  exact ⟨q, text, both.apps.mem_write.mpr ⟨written, rfl⟩, same⟩

theorem urls_lost {tree : σ → FileTree} (both : BothWritten o plan root package e e₂ calls more)
    (on : o.HasTree tree) (shares : plan.Shares package) :
    (tree e₂).contentsAt? ((root.join package).join "urls.py").place ≠
      some (.ofText (Django.rootUrlsPy (plan.apps.map Plan.App.name))) := by
  obtain ⟨entry, single⟩ := isEntry_iff.mp both.isEntry
  have place : ((root.join package).join "urls.py").place = root.place ++ [entry, "urls.py"] :=
    place_join_join root single (by decide)
  obtain ⟨q, text, written, same⟩ := both.appUrls shares
  obtain ⟨e₁, last⟩ := both.appsLead
  have contents : ∃ text, (∃ urls, text = Django.urlsPy urls) ∧
      (tree e₂).contentsAt? ((root.join package).join "urls.py").place = some (.ofText text) := by
    apply last.contentsAt?_of_written on
    · intro p text r member here
      obtain ⟨planned, rfl⟩ := both.apps.mem_write.mp member
      exact ⟨rfl, urls_of_place both.apps.not_refused planned (here.trans place)⟩
    · exact ⟨q, text, _, written, by rw [Path.place, Path.place, same]⟩
  obtain ⟨_, ⟨urls, rfl⟩, contents⟩ := contents
  rw [contents]
  intro equal
  exact rootUrls_ne_urls _ urls (congrArg Contents.lines (Option.some.inj equal)).symm

theorem stays {tree : σ → FileTree} (both : BothWritten o plan root package e e₂ calls more)
    (on : o.HasTree tree) (apart : ¬ plan.Shares package) {p : Path} {text : String}
    {r : Except FileError Unit} (hp : .write p text r ∈ calls) :
    (tree e₂).contentsAt? p.place = some (.ofText text) := by
  obtain ⟨entry, single⟩ := isEntry_iff.mp both.isEntry
  have contents : ∃ text', text' = text ∧ (tree e₂).contentsAt? p.place = some (.ofText text') := by
    apply both.leads.contentsAt?_of_written on
    · intro q text' r' member here
      rcases List.mem_append.mp member with hq | hq
      · obtain ⟨planned, ok⟩ := both.files.mem_write.mp hq
        exact ⟨ok, Scaffold.text_unique single planned (both.files.mem_write.mp hp).1 here⟩
      · exact absurd (both.shares_of_shared hp hq here.symm) apart
    · exact ⟨p, text, r, List.mem_append_left _ hp, rfl⟩
  obtain ⟨_, rfl, contents⟩ := contents
  exact contents

end BothWritten

/-- When the scaffold and then the apps are written, an app has written over a file of the scaffold
just if it has the directory of the package, and otherwise all files of the scaffold stay. -/
theorem scaffold_stays_iff {tree : σ → FileTree} (on : o.HasTree tree) {files : List Path}
    {project : Project}
    (scaffolded : (scaffold o.files.recorded plan root package).run.run (e, []) = (.ok files, e₁, calls))
    (generated : (generate o.files.recorded plan root).run.run (e₁, []) = (.ok project, e₂, more)) :
    calls = (Scaffold.files plan root package).filterMap Step.success? ∧
      ((∃ p text r q text' r', .write p text r ∈ calls ∧ .write q text' r' ∈ more ∧
        p.components = q.components) ↔ plan.Shares package) ∧
      ((∀ p text r, .write p text r ∈ calls →
        (tree e₂).contentsAt? p.place = some (.ofText text)) ↔ ¬ plan.Shares package) := by
  have both := bothWritten scaffolded generated
  refine ⟨both.files.calls_eq, ⟨?_, ?_⟩, ⟨?_, ?_⟩⟩
  · rintro ⟨p, text, r, q, text', r', hp, hq, same⟩
    exact both.shares_of_shared hp hq (by rw [Path.place, Path.place, same])
  · intro shares
    obtain ⟨q, text, written, same⟩ := both.appUrls shares
    exact ⟨_, _, _, q, text, _, both.rootUrls, written, same⟩
  · intro kept shares
    exact both.urls_lost on shares (kept _ _ _ both.rootUrls)
  · intro apart p text r hp
    exact both.stays on apart hp

theorem runs_of_isOk (o : Outside σ) (plan : Plan) (root : Path) (package : String) (e : σ)
    (ok : ((scaffold o.files.recorded plan root package).run.run (e, [])).1.isOk = true)
    (okApps : ((generate o.files.recorded plan root).run.run
      (((scaffold o.files.recorded plan root package).run.run (e, [])).2.1, [])).1.isOk = true) :
    ∃ files e₁ calls project e₂ more,
      (scaffold o.files.recorded plan root package).run.run (e, []) = (.ok files, e₁, calls) ∧
      (generate o.files.recorded plan root).run.run (e₁, []) = (.ok project, e₂, more) := by
  rcases first : (scaffold o.files.recorded plan root package).run.run (e, []) with ⟨r, e₁, calls⟩
  rw [first] at ok okApps
  rcases second : (generate o.files.recorded plan root).run.run (e₁, []) with ⟨r', e₂, more⟩
  simp only [second] at okApps
  cases r with
  | error e => cases ok
  | ok files =>
    cases r' with
    | error e => cases okApps
    | ok project => exact ⟨files, e₁, calls, project, e₂, more, rfl, second⟩

def oneApp (name : String) : Plan := .structured [⟨name, [], [], [], []⟩]

theorem scaffold_stays_beside_blog :
    World.outside.HasTree World.tree ∧ ∃ files w₁ calls project w₂ more,
      (scaffold World.outside.files.recorded (oneApp "blog") ⟨"out"⟩ "site").run.run
        (World.ofTree .empty [], []) = (.ok files, w₁, calls) ∧
      (generate World.outside.files.recorded (oneApp "blog") ⟨"out"⟩).run.run (w₁, []) =
        (.ok project, w₂, more) ∧
      ∀ p text r, .write p text r ∈ calls → w₂.tree.contentsAt? p.place = some (.ofText text) := by
  have apart : ¬ (oneApp "blog").Shares "site" := by
    rintro ⟨app, member, same⟩
    rw [List.mem_singleton.mp member] at same
    revert same
    decide
  obtain ⟨files, w₁, calls, project, w₂, more, scaffolded, generated⟩ :=
    runs_of_isOk World.outside (oneApp "blog") ⟨"out"⟩ "site" (World.ofTree .empty [])
      (by decide +kernel) (by decide +kernel)
  obtain ⟨_, _, stays⟩ := scaffold_stays_iff World.outside_hasTree scaffolded generated
  exact ⟨World.outside_hasTree, files, w₁, calls, project, w₂, more, scaffolded, generated,
    stays.mpr apart⟩

/-- The urls of the scaffold are lost to an app that is spelled with a slash at its end. -/
theorem urls_lost_to_slashed_app :
    ∃ files w₁ calls project w₂ more,
      (scaffold World.outside.files.recorded (oneApp "site/") ⟨"out"⟩ "site").run.run
        (World.ofTree .empty [], []) = (.ok files, w₁, calls) ∧
      (generate World.outside.files.recorded (oneApp "site/") ⟨"out"⟩).run.run (w₁, []) =
        (.ok project, w₂, more) ∧
      ∃ p text r q text' r', .write p text r ∈ calls ∧ .write q text' r' ∈ more ∧
        p.components = q.components ∧ w₂.tree.contentsAt? p.place ≠ some (.ofText text) := by
  have shares : (oneApp "site/").Shares "site" := ⟨_, List.mem_singleton.mpr rfl, by decide⟩
  obtain ⟨files, w₁, calls, project, w₂, more, scaffolded, generated⟩ :=
    runs_of_isOk World.outside (oneApp "site/") ⟨"out"⟩ "site" (World.ofTree .empty [])
      (by decide +kernel) (by decide +kernel)
  have both := bothWritten scaffolded generated
  obtain ⟨q, text, written, same⟩ := both.appUrls shares
  exact ⟨files, w₁, calls, project, w₂, more, scaffolded, generated, _, _, _, q, text, _,
    both.rootUrls, written, same, both.urls_lost World.outside_hasTree shares⟩

end Build

end Transplant
