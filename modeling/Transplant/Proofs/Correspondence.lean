import Transplant.Proofs.Quiet
import Transplant.Proofs.Surveyed
import Transplant.Proofs.Targets

/-! The templates of a survey and those of a conversion. Both list the files below the views and tell
templates by their names, so each template that a survey finds is converted, in the same order. The name
of a template never leads out of the project, and a conversion that stays away from the views leaves what
a survey finds there. -/
namespace Transplant

open FileTree (Apart Beside Extends)

namespace Call.Effect

variable {c : Call} {t u : FileTree}

theorem further (effect : c.Effect t u) : Extends t u := by
  cases effect with
  | none => exact .refl _
  | made dirs => exact (FileTree.keeps_madeDirs dirs).further
  | wrote dirs laid =>
    exact (FileTree.keeps_madeDirs dirs).further.trans (FileTree.extends_writeOver laid)
  | notWritten dirs => exact (FileTree.keeps_madeDirs dirs).further
  | spoilt dirs laid =>
    exact (FileTree.keeps_madeDirs dirs).further.trans (FileTree.extends_writeOver laid)

theorem sound (effect : c.Effect t u) (sound : t.Sound) : u.Sound := by
  cases effect with
  | none => exact sound
  | made dirs => exact sound.madeDirs dirs
  | wrote dirs laid => exact (sound.madeDirs dirs).writeOver laid
  | notWritten dirs => exact sound.madeDirs dirs
  | spoilt dirs laid => exact (sound.madeDirs dirs).writeOver laid

theorem tree_eq (effect : c.Effect t u) (look : c.changed? = .none) : u = t := by
  cases effect with
  | none => rfl
  | made | wrote | notWritten | spoilt => cases look

theorem beside {root : Path} (effect : c.Effect t u) (within : ChangesWithin root [c]) :
    Beside root.place t u := by
  refine ⟨effect.further, fun q apart => effect.contentsAt? ?_⟩
  rintro p text r rfl rfl
  exact apart (within _ List.mem_cons_self p rfl).place

end Call.Effect

namespace World

variable {w w' : World} {calls : List Call} {dir root : Path}

theorem faults_of_leads (leads : outside.Leads w calls w') : w'.faults = w.faults := by
  induction leads with
  | nil => rfl
  | cons answer _ ih => rw [ih, faults_of_answer answer]

theorem sound_of_leads (sound : w.tree.Sound) (leads : outside.Leads w calls w') : w'.tree.Sound := by
  induction leads with
  | nil => exact sound
  | cons answer _ ih => exact ih ((outside_hasTree _ _ _ answer).sound sound)

theorem tree_of_leads (leads : outside.Leads w calls w') (looks : OnlyLooks calls) :
    w'.tree = w.tree := by
  induction leads with
  | nil => rfl
  | @cons _ _ _ c calls answer _ ih =>
    rw [ih fun c member => looks c (List.mem_cons_of_mem _ member)]
    exact (outside_hasTree _ _ _ answer).tree_eq (looks.changesNothing c List.mem_cons_self)

theorem beside_of_leads (leads : outside.Leads w calls w') (within : ChangesWithin root calls) :
    Beside root.place w.tree w'.tree := by
  induction leads with
  | nil => exact .refl _ _
  | cons answer _ ih =>
    have first := (outside_hasTree _ _ _ answer).beside fun c member =>
      within c (List.mem_cons.mpr (.inl (List.mem_singleton.mp member)))
    exact first.trans (ih fun c member => within c (List.mem_cons_of_mem _ member))

theorem walk_of_leads {r : Except FileError (List Path)}
    (leads : outside.Leads w [.contains dir true, .walk dir r] w') : (w.walk dir).1 = r := by
  obtain ⟨mid, first, second⟩ := leads.uncons
  cases first with
  | cons answer rest =>
    cases rest
    cases second with
    | cons walked _ =>
      have asked : w.contains dir = (true, mid) := answer
      have came : mid.walk dir = (r, _) := walked
      have after : w.log (.contains dir) = mid := congrArg Prod.snd asked
      subst after
      have same := gives_walk (w := w) dir (w.log (.contains dir)) rfl rfl
      exact same.1.symm.trans (congrArg Prod.fst came)

theorem listed_eq_of_beside {place : List String} (beside : Beside place w.tree w'.tree)
    (apart : Apart place dir.place) (sound : w.tree.Sound) (sound' : w'.tree.Sound)
    (faults : w'.faults = w.faults) (there : w.tree.exists? dir = true) :
    w'.listed dir = w.listed dir := by
  obtain ⟨sub, found⟩ := FileTree.find_of_exists there
  have same := beside.listAt apart sound sound' found
  unfold listed walk fault?
  rw [faults]
  cases w.faults.find? fun f => f.access == .walk && f.path.samePlace dir with
  | some fault => rfl
  | none => exact same

theorem textOf_eq_of_beside {place : List String} (beside : Beside place w.tree w'.tree)
    (apart : Apart place dir.place) (sound : w.tree.Sound) (faults : w'.faults = w.faults) {p : Path}
    (member : p ∈ w.listed dir) : w'.textOf p = w.textOf p := by
  unfold textOf read fault?
  rw [faults, beside.read apart sound (mem_listAt_of_listed member)]
  cases w.faults.find? fun f => f.access == .read && f.path.samePlace p <;> rfl

end World

theorem Listed.eq_listed {dir : Path} {looks : List Call} {files : List Path} {w w' : World}
    (listed : Listed dir looks files) (leads : World.outside.Leads w looks w') :
    files = w.listed dir := by
  cases listed with
  | missing =>
    cases leads with
    | cons answer _ =>
      have came : w.contains dir = (false, _) := answer
      exact (World.listed_of_not_exists (congrArg Prod.fst came)).symm
  | unlisted => exact (World.listed_eq_nil (World.walk_of_leads leads)).symm
  | files => rw [World.listed, World.walk_of_leads leads]

namespace Build

open Rails.Survey (found viewsDir)

/-- A conversion of templates whose names stay below fails only in a write, which is its last call. -/
theorem Converted.failed_write {root : Path} {templates : List (Path × String)} {calls : List Call}
    {e : BuildError} (converted : Converted root templates calls (.error e))
    (stay : ∀ template ∈ templates, staysBelow (template.2 ++ ".html") = true) :
    ∃ earlier name text cause, calls = earlier ++ [.write (conversionTarget root name) text (.error cause)] ∧
      e = .io (conversionTarget root name) cause := by
  obtain ⟨work, source, name, text, last, member, rfl, _, did⟩ := converted.failed
  rw [conversionStep, if_pos (stay _ member)] at did
  cases did with
  | @notWritten _ _ cause =>
    exact ⟨work ++ [.read source text], name, Rails.Erb.toDjango (orEmpty text), cause, by simp, rfl⟩

variable {w w' : World} {root project : Path} {calls : List Call}
  {result : Except BuildError (List Path)}

theorem listed_staysBelow (sound : w.tree.Sound) {views : Path} :
    ∀ template ∈ (w.listed views).filterMap (Rails.Template.named? views),
      staysBelow (template.2 ++ ".html") = true := by
  intro template member
  obtain ⟨p, listed, named⟩ := List.mem_filterMap.mp member
  have inTree : template ∈ templatesIn views w.tree :=
    List.mem_filterMap.mpr ⟨p, World.mem_listAt_of_listed listed, named⟩
  obtain ⟨sub, found, names, there, _, dir, stem, isAt, name⟩ := (mem_templatesIn_iff sound).mp inTree
  rw [name]
  exact page_staysBelow ((sound.get? (FileTree.find_ok_iff.mp found).2).names there) isAt

/-- A conversion gives a page for each template that a survey finds, in the same order. It fails in no
other way than in a write. If the project lies apart from the views, a survey afterwards finds the same
templates again. -/
theorem conversion_follows_survey (sound : w.tree.Sound)
    (ran : (convertTemplates World.outside.files.recorded (root.join viewsDir) project).run.run (w, []) =
      (result, w', calls)) :
    (∀ pages, result = .ok pages →
        pages = (found w root).templates.map fun template => conversionTarget project template.name) ∧
      (∀ e, result = .error e → ∃ earlier name text cause,
        calls = earlier ++ [.write (conversionTarget project name) text (.error cause)] ∧
          e = .io (conversionTarget project name) cause) ∧
      (Apart project.place (root.join viewsDir).place →
        (found w' root).templates = (found w root).templates) := by
  obtain ⟨leads, looks, more, files, rfl, listed, converted⟩ := (convertTemplates_meets _ _).of_run ran
  obtain ⟨mid, first, second⟩ := leads.split
  obtain rfl := listed.eq_listed first
  refine ⟨?_, ?_, ?_⟩
  · rintro pages rfl
    rw [converted.targets_eq, Rails.Survey.found_eq_listed, List.map_map]
    rfl
  · rintro e rfl
    obtain ⟨earlier, name, text, cause, rfl, same⟩ := converted.failed_write (listed_staysBelow sound)
    exact ⟨looks ++ earlier, name, text, cause, by simp, same⟩
  · intro apart
    have within : ChangesWithin project (looks ++ more) :=
      listed.onlyLooks.changesWithin.append converted.changesWithin
    have beside := World.beside_of_leads leads within
    have faults := World.faults_of_leads leads
    have same : w'.listed (root.join viewsDir) = w.listed (root.join viewsDir) := by
      cases there : w.tree.exists? (root.join viewsDir) with
      | true =>
        exact World.listed_eq_of_beside beside apart sound (World.sound_of_leads sound leads) faults there
      | false =>
        rw [World.listed_of_not_exists there] at converted ⊢
        cases converted
        rw [List.append_nil] at leads
        exact World.listed_of_not_exists (by rw [World.tree_of_leads leads listed.onlyLooks, there])
    rw [Rails.Survey.found_eq_listed, Rails.Survey.found_eq_listed, same]
    apply List.map_congr_left
    intro template member
    obtain ⟨p, listed, named⟩ := List.mem_filterMap.mp member
    cases Rails.Template.named?_source named
    rw [World.textOf_eq_of_beside beside apart sound faults listed]

/-- Templates whose names are no more than an ending, with or without dots in front of it. -/
def bareNames : FileTree :=
  .viewsOnly [("...erb", "<p>up</p>"), ("..erb", "<p>here</p>"), (".erb", "<p>none</p>")]

theorem conversion_follows_survey_of_bareNames :
    bareNames.Sound ∧ ∃ pages w' calls,
      (convertTemplates World.outside.files.recorded ((Path.mk "in").join viewsDir) ⟨"out"⟩).run.run
          (World.ofTree bareNames [], []) = (.ok pages, w', calls) ∧
        pages = (found (World.ofTree bareNames []) ⟨"in"⟩).templates.map
          fun template => conversionTarget ⟨"out"⟩ template.name := by
  have sound : bareNames.Sound := .viewsOnly (by decide) (by decide)
  have ok : ((convertTemplates World.outside.files.recorded ((Path.mk "in").join viewsDir) ⟨"out"⟩).run.run
      (World.ofTree bareNames [], [])).1.isOk = true := by decide +kernel
  obtain ⟨pages, ran⟩ := ran_of_isOk ok
  exact ⟨sound, pages, _, _, ran, (conversion_follows_survey sound ran).1 pages rfl⟩

end Build

end Transplant
