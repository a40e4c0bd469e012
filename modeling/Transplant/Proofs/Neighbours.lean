import Mathlib.Algebra.GroupWithZero.Nat
import Transplant.Proofs.Collision

/-! Apps that share a directory. Names that differ in slashes and dots alone are names of one
directory, and the apps that have it write over the files of each other. The last of them stays, with
its own name in the file that configures it. -/
namespace Transplant

/-- Apps of different names have different directories, by components. -/
def Plan.Separate (plan : Plan) : Prop :=
  ∀ a ∈ plan.apps, ∀ b ∈ plan.apps, a.name ≠ b.name →
    (Path.mk a.name).components ≠ (Path.mk b.name).components

/-! All characters of a path but slashes and dots are in its components. -/

namespace Path

variable {c : Char}

theorem count_splitSlashes (other : c ≠ '/') (cs : List Char) :
    ((splitSlashes cs).map (List.count c)).sum = cs.count c := by
  induction cs with
  | nil => simp [splitSlashes]
  | cons d cs ih =>
    by_cases slash : d = '/'
    · subst slash
      simp [splitSlashes, ih, other.symm]
    · obtain ⟨part, parts, split⟩ := List.exists_cons_of_ne_nil (splitSlashes_ne_nil cs)
      have whole : splitSlashes (d :: cs) = (d :: part) :: parts := by
        rw [splitSlashes, split]
        exact slash
      rw [split] at ih
      simp only [List.map_cons, List.sum_cons] at ih
      simp only [whole, List.map_cons, List.sum_cons, List.count_cons, ← ih]
      omega

theorem count_componentOf? (other : c ≠ '.') (part : List Char) :
    ((componentOf? part).map fun k => k.text.toList.count c).getD 0 = part.count c := by
  fun_cases componentOf? part with
  | case1 => simp
  | case2 => simp [other.symm]
  | case3 => simp [Component.text]
  | case4 => simp [Component.text]

theorem count_componentsOf {cs : List Char} (plain : lead cs = []) (slash : c ≠ '/') (dot : c ≠ '.') :
    ((componentsOf cs).map fun k => k.text.toList.count c).sum = cs.count c := by
  rw [componentsOf_eq, plain, List.nil_append, ← count_splitSlashes slash]
  induction splitSlashes cs with
  | nil => rfl
  | cons part parts ih =>
    have here := count_componentOf? dot part
    cases component : componentOf? part <;> simp_all

theorem count_entry {name entry : String} (single : (Path.mk name).components = [.normal entry])
    (slash : c ≠ '/') (dot : c ≠ '.') : name.toList.count c = entry.toList.count c := by
  have single : componentsOf name.toList = [.normal entry] := by rw [← single, components_text]
  have plain : lead name.toList = [] := by
    apply lead_eq_nil
    rw [single]
    rfl
  rw [← count_componentsOf plain slash dot, single]
  simp [Component.text]

end Path

namespace Django

theorem appsPy_ends (app : String) : ∃ front : List Char,
    (appsPy app).toList = front ++ '\'' :: (app.toList ++ ['\'', '\n']) := by
  refine ⟨(unlines ["from django.apps import AppConfig", "", "",
     s!"class {configClassName app}(AppConfig):",
     "    default_auto_field = 'django.db.models.BigAutoField'"]).toList ++ "    name = ".toList, ?_⟩
  simp [appsPy, unlines, List.append_assoc]
  rfl

/-- The quote in front of a name would be one more in a longer name. -/
theorem suffix_eq {front front' name name' : List Char} {quote : Char}
    (same : front ++ quote :: name = front' ++ quote :: name')
    (count : name.count quote = name'.count quote) : name = name' := by
  rcases List.append_eq_append_iff.mp same with ⟨more, _, behind⟩ | ⟨more, _, behind⟩
  · cases more with
    | nil => exact (List.cons.inj behind).2
    | cons c more =>
      obtain ⟨rfl, rfl⟩ := List.cons.inj behind
      simp at count
      omega
  · cases more with
    | nil => exact (List.cons.inj behind).2.symm
    | cons c more =>
      obtain ⟨rfl, rfl⟩ := List.cons.inj behind
      simp at count
      omega

theorem appsPy_inj {a b : String} (same : appsPy a = appsPy b)
    (count : a.toList.count '\'' = b.toList.count '\'') : a = b := by
  obtain ⟨front, ha⟩ := appsPy_ends a
  obtain ⟨front', hb⟩ := appsPy_ends b
  have text : front ++ '\'' :: (a.toList ++ ['\'', '\n']) = front' ++ '\'' :: (b.toList ++ ['\'', '\n']) := by
    rw [← ha, ← hb, same]
  have names := suffix_eq text (by simp [count])
  exact String.toList_inj.mp (List.append_cancel_right names)

end Django

namespace Build

variable {plan : Plan} {root : Path}

theorem Apps.dir_components (ok : ∀ e, .refuse e ∉ Apps.steps plan root) {app : Plan.App}
    (member : app ∈ plan.apps) :
    (root.join app.name).components = root.components ++ (Path.mk app.name).components :=
  Path.components_join (staysBelow_of_isEntry (isEntry_of_not_refused ok member))

theorem Apps.dir_prefix {app : Plan.App} (entry : isEntry app.name = true) {p : Path}
    (listed : p ∈ (built root app).files) : (root.join app.name).components <+: p.components := by
  obtain ⟨s, member, same⟩ := List.mem_filterMap.mp listed
  rw [appSteps, if_pos entry] at member
  have within : StepsWithin (root.join app.name) (.createDir (root.join app.name) ::
      fileSteps app (root.join app.name)) :=
    .createDir (.refl _) (stepsWithin_files (.refl _) app)
  have path : s.path? = some p := by cases s <;> cases same; rfl
  obtain ⟨tail, _, split⟩ := within s member p path
  exact ⟨tail, split.symm⟩

theorem Apps.apart_of_ne (ok : ∀ e, .refuse e ∉ Apps.steps plan root) {a b : Plan.App}
    (ha : a ∈ plan.apps) (hb : b ∈ plan.apps)
    (differ : (Path.mk a.name).components ≠ (Path.mk b.name).components) {p : Path}
    (listed : p ∈ (built root a).files) : ¬ (root.join b.name).components <+: p.components := by
  intro inside
  have entry := isEntry_of_not_refused ok ha
  obtain ⟨_, single⟩ := isEntry_iff.mp entry
  obtain ⟨_, single'⟩ := isEntry_iff.mp (isEntry_of_not_refused ok hb)
  have own := dir_prefix entry listed
  rw [dir_components ok ha] at own
  rw [dir_components ok hb] at inside
  have same := (List.prefix_of_prefix_length_le own inside (by simp [single, single'])).eq_of_length
    (by simp [single, single'])
  exact differ (List.append_cancel_left same)

theorem Apps.own_mem_steps (ok : ∀ e, .refuse e ∉ Apps.steps plan root) {app : Plan.App}
    (member : app ∈ plan.apps) {file : String × String} (own : file ∈ ownFiles app) :
    .write ((root.join app.name).join file.1) file.2 ∈ Apps.steps plan root := by
  rw [Apps.steps, List.mem_cons, List.mem_flatMap]
  exact .inr ⟨app, member, own_mem_appSteps ok member own⟩

theorem Apps.ownFiles_unique {app : Plan.App} {file file' : String × String}
    (own : file ∈ ownFiles app) (own' : file' ∈ ownFiles app) (same : file.1 = file'.1) :
    file = file' := by
  have distinct : ((ownFiles app).map Prod.fst).Nodup := by simp [ownFiles]
  exact List.inj_on_of_nodup_map distinct own own' same

theorem Apps.text_unique (ok : ∀ e, .refuse e ∉ Apps.steps plan root) (separate : plan.Separate)
    (distinct : (plan.apps.map Plan.App.name).Nodup) {app : Plan.App} (member : app ∈ plan.apps)
    {file : String × String} (own : file ∈ ownFiles app) {q : Path} {text : String}
    (written : .write q text ∈ Apps.steps plan root)
    (place : q.place = ((root.join app.name).join file.1).place) : text = file.2 := by
  obtain ⟨entry, single⟩ := isEntry_iff.mp (isEntry_of_not_refused ok member)
  obtain ⟨other, member', hq⟩ := app_of_write written
  obtain ⟨entry', single'⟩ := isEntry_iff.mp (isEntry_of_not_refused ok member')
  rw [place_join_join root single (plain_of_ownFiles own)] at place
  rcases place_of_file single' hq with ⟨file', own', at', rfl⟩ | ⟨template, _, some, at'⟩
  · rw [at', List.append_cancel_left_eq] at place
    obtain ⟨rfl, names⟩ := List.cons.inj place
    have name : other.name = app.name := by
      by_contra differ
      exact separate other member' app member differ (single'.trans single.symm)
    obtain rfl := List.inj_on_of_nodup_map distinct member' member name
    rw [ownFiles_unique own' own (List.singleton_inj.mp names)]
  · rw [at', List.append_cancel_left_eq] at place
    simp [some] at place

variable {σ : Type} {o : Outside σ} {e e' : σ} {calls : List Call} {project : Project}

/-- When all apps were written and have different names, the directories of different apps are
different and no file of one is in the directory of another just if no two names are names of one
directory. And just then do the files of all apps hold what is rendered for them. -/
theorem apps_stay_iff {tree : σ → FileTree} (on : o.HasTree tree)
    (distinct : (plan.apps.map Plan.App.name).Nodup)
    (generated : (generate o.files.recorded plan root).run.run (e, []) = (.ok project, e', calls)) :
    ((∀ a ∈ project.apps, ∀ b ∈ project.apps, a.name ≠ b.name →
        a.dir.components ≠ b.dir.components ∧
        ∀ p ∈ a.files, ¬ b.dir.components <+: p.components) ↔ plan.Separate) ∧
      ((∀ app ∈ plan.apps, ∀ file ∈ Apps.ownFiles app,
        (tree e').contentsAt? ((root.join app.name).join file.1).place = some (.ofText file.2)) ↔
          plan.Separate) := by
  obtain ⟨leads, ended⟩ := (generate_meets plan root).of_run generated
  obtain ⟨ran, rfl⟩ := ran_of_map_ok ended
  have done := ran.succeeded
  have ok := done.not_refused
  simp only [List.forall_mem_map]
  refine ⟨⟨?_, ?_⟩, ⟨?_, ?_⟩⟩
  · intro apart a ha b hb differ same
    apply (apart a ha b hb differ).1
    change (root.join a.name).components = (root.join b.name).components
    rw [Apps.dir_components ok ha, Apps.dir_components ok hb, same]
  · intro separate a ha b hb differ
    have names := separate a ha b hb differ
    constructor
    · intro same
      change (root.join a.name).components = (root.join b.name).components at same
      rw [Apps.dir_components ok ha, Apps.dir_components ok hb] at same
      exact names (List.append_cancel_left same)
    · intro p listed
      exact Apps.apart_of_ne ok ha hb names listed
  · intro kept a ha b hb differ same
    -- Each app has this file, and its text names the app: in one directory both apps would be one.
    have here : ∀ app, ("apps.py", Django.appsPy app.name) ∈ Apps.ownFiles app := by
      simp [Apps.ownFiles]
    have place : ((root.join a.name).join "apps.py").place = ((root.join b.name).join "apps.py").place := by
      have stays : staysBelow "apps.py" = true := by decide
      rw [Path.place, Path.place, Path.components_join stays, Path.components_join stays,
        Apps.dir_components ok ha, Apps.dir_components ok hb, same]
    have first := kept a ha _ (here a)
    have second := kept b hb _ (here b)
    rw [place, second] at first
    have texts : Django.appsPy b.name = Django.appsPy a.name :=
      congrArg Contents.lines (Option.some.inj first)
    obtain ⟨entry, single⟩ := isEntry_iff.mp (Apps.isEntry_of_not_refused ok ha)
    apply differ
    apply Django.appsPy_inj texts.symm
    rw [Path.count_entry single (by decide) (by decide),
      Path.count_entry (same.symm.trans single) (by decide) (by decide)]
  · intro separate app member file own
    have contents : ∃ text, text = file.2 ∧ (tree e').contentsAt?
        ((root.join app.name).join file.1).place = some (.ofText text) := by
      apply leads.contentsAt?_of_written on
      · intro q text r there here
        obtain ⟨written, rfl⟩ := done.mem_write.mp there
        exact ⟨rfl, Apps.text_unique ok separate distinct member own written here⟩
      · exact ⟨_, file.2, .ok (), done.mem_write.mpr ⟨Apps.own_mem_steps ok member own, rfl⟩, rfl⟩
    obtain ⟨_, rfl, contents⟩ := contents
    exact contents

def twoApps (first second : String) : Plan :=
  .structured [⟨first, [], [], [], []⟩, ⟨second, [], [], [], []⟩]

theorem apps_stay_of_blog_and_shop :
    World.outside.HasTree World.tree ∧ ((twoApps "blog" "shop").apps.map Plan.App.name).Nodup ∧
      ∃ project w calls, (generate World.outside.files.recorded (twoApps "blog" "shop") ⟨"out"⟩).run.run
          (World.ofTree .empty [], []) = (.ok project, w, calls) ∧
        ∀ app ∈ (twoApps "blog" "shop").apps, ∀ file ∈ Apps.ownFiles app, w.tree.contentsAt?
          (((Path.mk "out").join app.name).join file.1).place = some (.ofText file.2) := by
  have distinct : ((twoApps "blog" "shop").apps.map Plan.App.name).Nodup := by decide
  have separate : (twoApps "blog" "shop").Separate := by
    simp only [Plan.Separate, twoApps, Plan.apps, List.mem_cons, List.not_mem_nil, or_false]
    rintro a (rfl | rfl) b (rfl | rfl) <;> decide
  have ok : ((generate World.outside.files.recorded (twoApps "blog" "shop") ⟨"out"⟩).run.run
    (World.ofTree .empty [], [])).1.isOk = true := by decide +kernel
  obtain ⟨project, generated⟩ := ran_of_isOk ok
  obtain ⟨_, kept⟩ := apps_stay_iff World.outside_hasTree distinct generated
  exact ⟨World.outside_hasTree, distinct, project, _, _, generated, kept.mpr separate⟩

/-- An app that is spelled with a slash at its end takes the directory of another one. -/
theorem app_lost_to_slashed_app :
    ((twoApps "blog" "blog/").apps.map Plan.App.name).Nodup ∧
      ∃ project w calls, (generate World.outside.files.recorded (twoApps "blog" "blog/") ⟨"out"⟩).run.run
          (World.ofTree .empty [], []) = (.ok project, w, calls) ∧
        (∃ a ∈ project.apps, ∃ b ∈ project.apps, a.name ≠ b.name ∧
          a.dir.components = b.dir.components) ∧
        w.tree.contentsAt? (Path.mk "out/blog/apps.py").place ≠
          some (.ofText (Django.appsPy "blog")) := by
  have done : ((generate World.outside.files.recorded (twoApps "blog" "blog/") ⟨"out"⟩).run.run
        (World.ofTree .empty [], [])).1.map Project.apps =
          .ok ((twoApps "blog" "blog/").apps.map (Apps.built ⟨"out"⟩)) ∧
      ((generate World.outside.files.recorded (twoApps "blog" "blog/") ⟨"out"⟩).run.run
        (World.ofTree .empty [], [])).2.1.tree.contentsAt? (Path.mk "out/blog/apps.py").place ≠
          some (.ofText (Django.appsPy "blog")) := by decide +kernel
  have ok : ((generate World.outside.files.recorded (twoApps "blog" "blog/") ⟨"out"⟩).run.run
    (World.ofTree .empty [], [])).1.isOk = true := by decide +kernel
  obtain ⟨project, generated⟩ := ran_of_isOk ok
  obtain ⟨apps, lost⟩ := done
  rw [generated] at apps
  have all : project.apps = (twoApps "blog" "blog/").apps.map (Apps.built ⟨"out"⟩) :=
    Except.ok.inj apps
  have distinct : ((twoApps "blog" "blog/").apps.map Plan.App.name).Nodup := by decide
  refine ⟨distinct, project, _, _, generated, ?_, lost⟩
  rw [all]
  exact ⟨_, List.mem_cons_self, _, List.mem_cons_of_mem _ List.mem_cons_self, by decide, by decide⟩

end Build

end Transplant
