import Transplant.Proofs.Answers

/-! Builds that are run again. A build that was cut short, or was not, and is then run to its end
leaves the same tree and returns the same project as if it had been run to its end at once. -/
namespace Transplant

open FileTree (Apart Beside Sound)

namespace Build

variable {may : Prop} {plan : Plan} {views root : Path} {package : String} {t u v mid : FileTree}

theorem conversions_nil {e : FileError} (missing : t.find views = .error e) :
    templatesIn views t = [] := by
  rw [templatesIn, FileTree.listAt, FileTree.walk, missing]
  rfl

theorem templatesIn_eq (beside : Beside root.place t u) (apart : Apart root.place views.place)
    (ht : t.Sound) (hu : u.Sound) {sub : FileTree} (found : t.find views = .ok sub) :
    templatesIn views u = templatesIn views t := by
  rw [templatesIn, templatesIn, beside.listAt apart ht hu found]

theorem conversions_eq (beside : Beside root.place t u) (apart : Apart root.place views.place)
    (ht : t.Sound) (same : templatesIn views u = templatesIn views t) :
    conversions views root u = conversions views root t := by
  rw [conversions, conversions, same]
  apply List.map_congr_left
  intro template member
  rw [conversionOf, conversionOf, beside.read apart ht (named_of_mem member).1]

theorem projectOf_eq (same : templatesIn views u = templatesIn views t) :
    projectOf plan views root package u = projectOf plan views root package t := by
  rw [projectOf, projectOf, targets, targets, same]

/-- When the templates were converted in part and all planned steps are done again, the same
templates are there with the same texts. -/
theorem templates_again {ok : Bool} (apart : Apart root.place views.place) (sound : t.Sound)
    (planned : Done (plannedSteps plan root package) t mid)
    (went : Went may (conversions views root mid) mid u ok)
    (again : Done (plannedSteps plan root package) u v) :
    templatesIn views v = templatesIn views mid ∧
      conversions views root v = conversions views root mid := by
  have further : Beside root.place mid v := (went.beside (stepsWithin_conversions views root mid)).trans
    (again.beside (stepsWithin_planned plan root package))
  have sound' := planned.sound sound
  have still : v.Sound := again.sound (went.sound sound')
  cases found : mid.find views with
  | ok sub =>
    have same := templatesIn_eq further apart sound' still found
    exact ⟨same, conversions_eq further apart sound' same⟩
  | error e =>
    -- Nothing was converted then, so doing the planned steps again changes nothing.
    have none := conversions_nil found
    rw [conversions, none] at went
    cases went
    cases planned.again (.refl _) sound' again
    exact ⟨rfl, rfl⟩

theorem Course.sound {r : Except BuildError Project}
    (h : Course may plan views root package t u r) (sound : t.Sound) : u.Sound := by
  cases h with
  | stopped went => exact went.sound sound
  | notConverted planned went => exact went.sound (planned.sound sound)
  | built planned converted => exact converted.sound (planned.sound sound)

theorem Course.weaken {project : Project} (h : Course may plan views root package t u (.ok project))
    (other : Prop) : Course other plan views root package t u (.ok project) := by
  cases h with
  | built planned converted => exact .built planned converted

/-- A build to the end, after another one was cut short or was not, is one from the start. -/
theorem Course.again {r : Except BuildError Project} {project : Project}
    (apart : Apart root.place views.place) (sound : t.Sound)
    (first : Course may plan views root package t u r)
    (second : Course may plan views root package u v (.ok project)) :
    Course may plan views root package t v (.ok project) := by
  cases second with
  | @built last planned converted =>
    have redone : ∀ {ok : Bool} {mid : FileTree}, Done (plannedSteps plan root package) t mid →
        Went may (conversions views root mid) mid u ok →
        Course may plan views root package t v (.ok (projectOf plan views root package last)) := by
      intro ok mid planned' went
      obtain ⟨same, again⟩ := templates_again apart sound planned' went planned
      have whole : Went may (plannedSteps plan root package ++ conversions views root mid) t u ok :=
        (planned'.went may).append went
      rw [again] at converted
      obtain ⟨mid', front, behind⟩ := (whole.redone sound (planned.append converted)).of_append
      cases planned'.eq front
      rw [projectOf_eq same]
      exact .built planned' behind
    cases first with
    | stopped went => exact .built (went.redone sound planned) converted
    | notConverted planned' went => exact redone planned' went
    | built planned' converted' => exact redone planned' (converted'.went may)

theorem Course.eq_of_built {r : Except BuildError Project} {project : Project}
    (h : Course False plan views root package t u r)
    (built : Course may plan views root package t v (.ok project)) : r = .ok project ∧ u = v := by
  cases built with
  | built planned converted =>
    cases h with
    | stopped went => cases (went.eq_of_done planned).1
    | notConverted planned' went =>
      cases planned'.eq planned
      cases (went.eq_of_done converted).1
    | built planned' converted' =>
      cases planned'.eq planned
      exact ⟨rfl, converted'.eq converted⟩

theorem Course.repeated {project : Project} (apart : Apart root.place views.place) (sound : t.Sound)
    (h : Course may plan views root package t u (.ok project)) :
    Course may plan views root package u u (.ok project) := by
  cases h with
  | @built mid planned converted =>
    obtain ⟨last, again⟩ := planned.possible converted.further
    obtain ⟨same, conversions⟩ := templates_again apart sound planned (converted.went may) again
    obtain ⟨v, converted'⟩ := converted.possible again.further
    cases (planned.append converted).again (.refl u) (converted.sound (planned.sound sound))
      (again.append converted')
    rw [← projectOf_eq same]
    exact .built again (by rwa [conversions])

end Build

namespace Pipeline

variable {σ τ : Type} {o : Outside σ} {o' : Outside τ} {tree : σ → FileTree} {tree' : τ → FileTree}
  {may : Prop} {name : String} {s s' : State} {calls : List Call} {r : Outcome}

def builtOutcome (s : State) (name : String) : Except BuildError Build.Project → Outcome
  | .ok project =>
    .ok { s with projectRoot := some (s.outputRoot.join name), project := some project }
  | .error e => .error (.fileSystem .build e)

theorem Worked.planned (worked : Worked name s .build calls (.ok s')) : ∃ plan, s.plan = some plan := by
  cases worked with
  | built planned _ => exact ⟨_, planned⟩

theorem Worked.course {plan : Plan} (worked : Worked name s .build calls r) (planned : s.plan = some plan)
    {e e' : σ} (follows : o.Follows tree may e) (leads : o.Leads e calls e') (sound : (tree e).Sound)
    (apart : Apart (s.outputRoot.join name).place (s.inputRoot.join Rails.Survey.viewsDir).place) :
    ∃ built, r = builtOutcome s name built ∧
      Build.Course may plan (s.inputRoot.join Rails.Survey.viewsDir) (s.outputRoot.join name) name
        (tree e) (tree e') built := by
  cases worked with
  | lacking missing => simp [State.missingFor, Stage.requires, State.has, planned] at missing
  | built planned' built =>
    cases planned.symm.trans planned'
    exact ⟨_, rfl, built.course follows leads sound apart⟩
  | notBuilt planned' built =>
    cases planned.symm.trans planned'
    exact ⟨_, rfl, built.course follows leads sound apart⟩

/-- On an outside without interruptions, what a build can do on the tree is what it does. -/
theorem build_runs {plan : Plan} {project : Build.Project} {f : τ} {u : FileTree}
    (follows : o'.Follows tree' False f) (sound : (tree' f).Sound) (planned : s.plan = some plan)
    (apart : Apart (s.outputRoot.join name).place (s.inputRoot.join Rails.Survey.viewsDir).place)
    (course : Build.Course may plan (s.inputRoot.join Rails.Survey.viewsDir) (s.outputRoot.join name)
      name (tree' f) u (.ok project)) :
    ∃ f' calls, ((o'.tools name).build s).run.run (f, []) =
      (builtOutcome s name (.ok project), f', calls) ∧ tree' f' = u := by
  obtain ⟨calls, r, f', does, leads, worked⟩ := Tools.build_meets (o := o') name s f
  obtain ⟨built, rfl, course'⟩ := worked.course planned follows leads sound apart
  obtain ⟨rfl, same⟩ := course'.eq_of_built course
  exact ⟨f', calls, by simpa using does [], same⟩

/-- A build that follows another one of the same plan and source, which was cut short by
interruptions or was not, ends, if it succeeds, with the same state and the same tree as without that
other one. And if the other one succeeded, the build does too and changes nothing. -/
theorem build_converges {e e₁ : σ} {f₀ f₁ : τ} (first : o.Follows tree True e)
    (alone : o'.Follows tree' False f₀) (second : o'.Follows tree' False f₁)
    (start : tree' f₀ = tree e) (left : tree' f₁ = tree e₁) (sound : (tree e).Sound)
    (apart : Apart (s.outputRoot.join name).place (s.inputRoot.join Rails.Survey.viewsDir).place)
    (cut : ((o.tools name).build s).run.run (e, []) = (r, e₁, calls)) :
    (∀ s' f₂ again, ((o'.tools name).build s).run.run (f₁, []) = (.ok s', f₂, again) →
      ∃ f₃ once, ((o'.tools name).build s).run.run (f₀, []) = (.ok s', f₃, once) ∧
        tree' f₃ = tree' f₂) ∧
      ((∃ s', r = .ok s') → ∃ f₂ again,
        ((o'.tools name).build s).run.run (f₁, []) = (r, f₂, again) ∧ tree' f₂ = tree e₁) := by
  obtain ⟨leads, worked⟩ := (Tools.build_meets name s).of_run cut
  constructor
  · intro s' f₂ again redone
    obtain ⟨leads', worked'⟩ := (Tools.build_meets name s).of_run redone
    obtain ⟨plan, planned⟩ := worked'.planned
    obtain ⟨_, _, course⟩ := worked.course planned first leads sound apart
    have sound' : (tree' f₁).Sound := left ▸ course.sound sound
    obtain ⟨built, same, course'⟩ := worked'.course planned second leads' sound' apart
    cases built with
    | error error => cases same
    | ok project =>
      rw [left] at course'
      -- What the first build has left is what the second one starts from: together they are one build.
      have whole := course.again apart sound (course'.weaken True)
      rw [← start] at whole
      rw [same]
      exact build_runs alone (start ▸ sound) planned apart whole
  · rintro ⟨s', rfl⟩
    obtain ⟨plan, planned⟩ := worked.planned
    obtain ⟨built, same, course⟩ := worked.course planned first leads sound apart
    cases built with
    | error error => cases same
    | ok project =>
      have repeated := course.repeated apart sound
      rw [← left] at repeated
      rw [same]
      obtain ⟨f₂, again, run, still⟩ :=
        build_runs second (left ▸ course.sound sound) planned apart repeated
      exact ⟨f₂, again, run, still.trans left⟩

def blogPlanned : State :=
  { State.fresh ⟨"in"⟩ ⟨"out"⟩ with plan := some (.structured [⟨"blog", [], [], [], []⟩]) }

def blogSource : FileTree := .viewsOnly [("show.html.erb", "<%= @post.title %>")]

def fullDisk : World := .ofTree blogSource [⟨.write, ⟨"out/site/blog/urls.py"⟩, "disk full"⟩]

theorem build_converges_on_full_disk :
    World.outside.Follows World.tree True fullDisk ∧ fullDisk.tree.Sound ∧
      Apart (blogPlanned.outputRoot.join "site").place
        (blogPlanned.inputRoot.join Rails.Survey.viewsDir).place ∧
      ∃ e w₁ calls s' w₂ again w₃ once,
        World.outside.Follows World.tree False (World.ofTree blogSource []) ∧
        World.outside.Follows World.tree False (World.ofTree w₁.tree []) ∧
        ((World.outside.tools "site").build blogPlanned).run.run (fullDisk, []) =
          (.error e, w₁, calls) ∧
        ((World.outside.tools "site").build blogPlanned).run.run (World.ofTree w₁.tree [], []) =
          (.ok s', w₂, again) ∧
        ((World.outside.tools "site").build blogPlanned).run.run (World.ofTree blogSource [], []) =
          (.ok s', w₃, once) ∧ w₃.tree = w₂.tree := by
  have first : World.outside.Follows World.tree True fullDisk :=
    World.follows (by simp [World.OnlyInterrupts, fullDisk, World.ofTree])
  have whole : ∀ t, World.outside.Follows World.tree False (World.ofTree t []) := World.follows_ofTree
  have sound : fullDisk.tree.Sound := .viewsOnly (by decide) (by decide)
  have apart : Apart (blogPlanned.outputRoot.join "site").place
      (blogPlanned.inputRoot.join Rails.Survey.viewsDir).place := ⟨by decide, by decide⟩
  have failed : (((World.outside.tools "site").build blogPlanned).run.run (fullDisk, [])).1.isOk =
    false := by decide +kernel
  have succeeded : (((World.outside.tools "site").build blogPlanned).run.run (World.ofTree
    (((World.outside.tools "site").build blogPlanned).run.run (fullDisk, [])).2.1.tree [], [])).1.isOk =
      true := by decide +kernel
  obtain ⟨e, cut⟩ := ran_of_not_isOk failed
  obtain ⟨s', redone⟩ := ran_of_isOk succeeded
  have left : ∀ t, (World.ofTree t []).tree = t := fun _ => rfl
  obtain ⟨w₃, once, run, same⟩ := (build_converges first (whole blogSource) (whole _) rfl (left _)
    sound apart cut).1 s' _ _ redone
  exact ⟨first, sound, apart, e, _, _, s', _, _, w₃, once, whole _, whole _, cut, redone, run, same⟩

end Pipeline

end Transplant
