import Transplant.Proofs.Targets
import Mathlib.Data.List.Nodup

/-! Templates that are lost. Every template is converted, but a template with the plain ending and one
of the same name with the ending of a page go to the same file, and only the later one is left. No
other two templates share a file. -/
namespace Transplant.Build

open FileTree (Apart Beside)
open Rails.Template (IsAt pageEnding plainEnding)

variable {views root : Path} {t u : FileTree}

/-- Two templates in one directory differ in their endings alone. -/
def Twins (views : Path) (t : FileTree) : Prop :=
  ∃ sub, t.find views = .ok sub ∧ ∃ dir stem, ¬ ".html".toList <:+ stem.toList ∧
    (∃ contents, sub.contentsAt? (dir ++ [stem ++ pageEnding]) = some contents) ∧
    ∃ contents, sub.contentsAt? (dir ++ [stem ++ plainEnding]) = some contents

theorem append_left_inj {a b ending : String} (h : a ++ ending = b ++ ending) : a = b := by
  rw [← String.toList_inj, String.toList_append, String.toList_append,
    List.append_cancel_right_eq, String.toList_inj] at h
  exact h

theorem pageEnding_ne (stem : String) : stem ++ pageEnding ≠ stem ++ plainEnding := by
  intro same
  have lengths := congrArg (fun text => text.toList.length) same
  simp [pageEnding, plainEnding] at lengths

theorem place_eq_or_twins (sound : t.Sound) {a b : Path × String} (ha : a ∈ templatesIn views t)
    (hb : b ∈ templatesIn views t)
    (same : (conversionTarget root a.2).place = (conversionTarget root b.2).place) :
    a.1 = b.1 ∨ Twins views t := by
  obtain ⟨sub, found, names, there, source, dir, stem, isAt, name⟩ := (mem_templatesIn_iff sound).mp ha
  obtain ⟨sub', found', names', there', source', dir', stem', isAt', name'⟩ :=
    (mem_templatesIn_iff sound).mp hb
  cases found.symm.trans found'
  have subSound := sound.get? (FileTree.find_ok_iff.mp found).2
  rw [name, name', place_conversionTarget (subSound.names there) isAt,
    place_conversionTarget (subSound.names there') isAt', List.append_cancel_left_eq,
    List.cons.injEq] at same
  obtain ⟨rfl, last⟩ := List.append_inj' same.2 rfl
  cases append_left_inj (List.singleton_inj.mp last)
  have file := subSound.mem_places_iff.mp there
  have file' := subSound.mem_places_iff.mp there'
  rcases isAt with rfl | ⟨rfl, plain⟩
  · rcases isAt' with rfl | ⟨rfl, plain⟩
    · exact .inl (source.trans source'.symm)
    · exact .inr ⟨sub, found, dir, stem, plain, file, file'⟩
  · rcases isAt' with rfl | ⟨rfl, _⟩
    · exact .inr ⟨sub, found, dir, stem, plain, file', file⟩
    · exact .inl (source.trans source'.symm)

theorem Twins.templates (twins : Twins views t) (sound : t.Sound) :
    ∃ a ∈ templatesIn views t, ∃ b ∈ templatesIn views t, a.1.place ≠ b.1.place ∧ a.2 = b.2 := by
  obtain ⟨sub, found, dir, stem, plain, file, file'⟩ := twins
  have subSound := sound.get? (FileTree.find_ok_iff.mp found).2
  have there := subSound.mem_places_iff.mpr file
  have there' := subSound.mem_places_iff.mpr file'
  refine ⟨(_, _), (mem_templatesIn_iff sound).mpr ⟨sub, found, _, there, rfl, dir, stem, .inl rfl, rfl⟩,
    (_, _), (mem_templatesIn_iff sound).mpr
      ⟨sub, found, _, there', rfl, dir, stem, .inr ⟨rfl, plain⟩, rfl⟩, ?_, rfl⟩
  intro same
  rw [Path.place_joinAll (subSound.names there), Path.place_joinAll (subSound.names there'),
    List.append_cancel_left_eq, List.append_cancel_left_eq] at same
  exact pageEnding_ne stem (List.singleton_inj.mp same)

theorem template_unique {a b : Path × String} (ha : a ∈ templatesIn views t)
    (hb : b ∈ templatesIn views t) (same : a.1 = b.1) : a = b :=
  Option.some.inj ((named_of_mem ha).2.symm.trans (same ▸ (named_of_mem hb).2))

/-- A template whose target is that of no other is what its target holds in the end. -/
theorem contentsAt?_conversion (sound : t.Sound) (done : Done (conversions views root t) t u)
    {a : Path × String} (ha : a ∈ templatesIn views t)
    (own : ∀ b ∈ templatesIn views t,
      (conversionTarget root b.2).place = (conversionTarget root a.2).place → b = a) :
    u.contentsAt? (conversionTarget root a.2).place =
      some (.ofText (Rails.Erb.toDjango (orEmpty (t.read a.1)))) := by
  rw [FileTree.contentsAt?_eq_some_iff]
  apply done.written
  apply finalText?_eq_some
  · refine ⟨conversionOf root t a, List.mem_map_of_mem ha, ?_⟩
    rw [conversionOf_eq sound ha, Step.textAt?, if_pos rfl]
  · intro s member other gives
    obtain ⟨b, hb, rfl⟩ := List.mem_map.mp member
    rw [conversionOf_eq sound hb, Step.textAt?] at gives
    split_ifs at gives with here
    obtain rfl := Option.some.inj gives
    rw [own b hb here.symm]

variable {σ : Type} {o : Outside σ} {tree : σ → FileTree} {e e' : σ} {calls : List Call}
  {found : List Path}

theorem convertTemplates_ran (follows : o.Follows tree True e)
    (ran : (convertTemplates o.files.recorded views root).run.run (e, []) = (.ok found, e', calls)) :
    ∃ mid looks more, calls = looks ++ more ∧ OnlyLooks looks ∧ tree mid = tree e ∧
      o.Follows tree True mid ∧ o.Leads mid more e' ∧
      Converted root (templatesIn views (tree e)) more (.ok found) := by
  obtain ⟨leads, looks, more, files, rfl, listed, converted⟩ :=
    (convertTemplates_meets views root).of_run ran
  obtain ⟨mid, first, second⟩ := leads.split
  obtain ⟨same, rfl⟩ := listed.listAt follows first
  exact ⟨mid, looks, more, rfl, listed.onlyLooks, same, follows.later first, second, converted⟩

theorem convertTemplates_done (follows : o.Follows tree True e) (sound : (tree e).Sound)
    (apart : Apart root.place views.place)
    (ran : (convertTemplates o.files.recorded views root).run.run (e, []) = (.ok found, e', calls)) :
    calls.filterMap Call.written? = found ∧ found = targets views root (tree e) ∧
      Done (conversions views root (tree e)) (tree e) (tree e') := by
  obtain ⟨mid, looks, more, rfl, onlyLooks, same, follows', leads, converted⟩ :=
    convertTemplates_ran follows ran
  obtain ⟨went, _⟩ := converted.went (t := tree e)
    (fun template member u beside => beside.read apart sound (named_of_mem member).1)
    (by rw [same]; exact .refl _ _) follows' leads
  rw [same] at went
  refine ⟨?_, converted.targets_eq, went.done⟩
  rw [List.filterMap_append, onlyLooks.writesNothing, List.nil_append]
  exact converted.written

/-- When the templates of a tree are converted, each of them to the path that is written for it, then
different ones go to different places and each place holds the text of its template converted, just
if there are no twins. -/
theorem conversion_keeps_iff (follows : o.Follows tree True e) (sound : (tree e).Sound)
    (apart : Apart root.place views.place)
    (ran : (convertTemplates o.files.recorded views root).run.run (e, []) = (.ok found, e', calls)) :
    calls.filterMap Call.written? = found ∧
      found = (templatesIn views (tree e)).map (fun a => conversionTarget root a.2) ∧
      (((∀ a ∈ templatesIn views (tree e), ∀ b ∈ templatesIn views (tree e), a.1.place ≠ b.1.place →
          (conversionTarget root a.2).place ≠ (conversionTarget root b.2).place) ∧
        ∀ a ∈ templatesIn views (tree e), ∀ text, (tree e).read a.1 = .ok text →
          (tree e').contentsAt? (conversionTarget root a.2).place =
            some (.ofText (Rails.Erb.toDjango text))) ↔ ¬ Twins views (tree e)) := by
  obtain ⟨written, all, done⟩ := convertTemplates_done follows sound apart ran
  refine ⟨written, all, ?_, ?_⟩
  · rintro ⟨separate, _⟩ twins
    obtain ⟨a, ha, b, hb, differ, same⟩ := twins.templates sound
    exact separate a ha b hb differ (by rw [same])
  · intro single
    have own : ∀ a ∈ templatesIn views (tree e), ∀ b ∈ templatesIn views (tree e),
        (conversionTarget root b.2).place = (conversionTarget root a.2).place → b.1 = a.1 := by
      intro a ha b hb same
      exact (place_eq_or_twins sound hb ha same).resolve_right single
    constructor
    · intro a ha b hb differ same
      exact differ (by rw [own b hb a ha same])
    · intro a ha text readable
      have contents := contentsAt?_conversion sound done ha fun b hb same =>
        template_unique hb ha (own a ha b hb same)
      rwa [readable] at contents

def conversionRun (t : FileTree) : Except BuildError (List Path) × World × List Call :=
  (convertTemplates World.outside.files.recorded ⟨"in/app/views"⟩ ⟨"out"⟩).run.run
    (World.ofTree t [], [])

def twoPages : FileTree :=
  .viewsOnly [("index.html.erb", "<%= @posts %>"), ("show.erb", "<%= @post %>")]

theorem conversion_keeps_twoPages :
    World.outside.Follows World.tree True (World.ofTree twoPages []) ∧ twoPages.Sound ∧
      Apart (Path.mk "out").place (Path.mk "in/app/views").place ∧
      ∃ found w calls, conversionRun twoPages = (.ok found, w, calls) ∧
        ∀ a ∈ templatesIn ⟨"in/app/views"⟩ twoPages, ∀ text, twoPages.read a.1 = .ok text →
          w.tree.contentsAt? (conversionTarget ⟨"out"⟩ a.2).place =
            some (.ofText (Rails.Erb.toDjango text)) := by
  have follows : World.outside.Follows World.tree True (World.ofTree twoPages []) := World.follows_ofTree _
  have sound : twoPages.Sound := .viewsOnly (by decide) (by decide)
  have apart : Apart (Path.mk "out").place (Path.mk "in/app/views").place := ⟨by decide, by decide⟩
  have single : ¬ Twins ⟨"in/app/views"⟩ twoPages := by
    intro twins
    obtain ⟨a, ha, b, hb, differ, same⟩ := twins.templates sound
    have distinct : ((templatesIn ⟨"in/app/views"⟩ twoPages).map Prod.snd).Nodup := by decide +kernel
    exact differ (by rw [List.inj_on_of_nodup_map distinct ha hb same])
  have ok : (conversionRun twoPages).1.isOk = true := by decide +kernel
  obtain ⟨found, ran⟩ := ran_of_isOk ok
  obtain ⟨_, _, keeps⟩ := conversion_keeps_iff follows sound apart ran
  exact ⟨follows, sound, apart, found, _, _, ran, (keeps.mpr single).2⟩

def twoShows : FileTree :=
  .viewsOnly [("show.erb", "<p>plain</p>"), ("show.html.erb", "<p>page</p>")]

/-- Of two templates that differ in their endings one is lost. -/
theorem show_lost_to_twin :
    ∃ found w calls, conversionRun twoShows = (.ok found, w, calls) ∧
      (⟨"in/app/views/show.erb"⟩, "show") ∈ templatesIn ⟨"in/app/views"⟩ twoShows ∧
      (⟨"in/app/views/show.html.erb"⟩, "show") ∈ templatesIn ⟨"in/app/views"⟩ twoShows ∧
      twoShows.read ⟨"in/app/views/show.erb"⟩ = .ok "<p>plain</p>" ∧
      w.tree.contentsAt? (conversionTarget ⟨"out"⟩ "show").place ≠
        some (.ofText (Rails.Erb.toDjango "<p>plain</p>")) := by
  have done : (conversionRun twoShows).1.isOk = true ∧
      (conversionRun twoShows).2.1.tree.contentsAt? (conversionTarget ⟨"out"⟩ "show").place ≠
        some (.ofText (Rails.Erb.toDjango "<p>plain</p>")) := by decide +kernel
  obtain ⟨found, ran⟩ := ran_of_isOk done.1
  exact ⟨found, _, _, ran, by decide +kernel, by decide +kernel, by decide +kernel, done.2⟩

end Transplant.Build
