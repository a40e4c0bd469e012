import Transplant.Proofs.BuildCalls
import Transplant.Proofs.Making

/-! Steps of a build on a tree when nothing interferes, and again on a tree where some of them were
done before. What was done is done again without effect: directories are there, and of the texts that
a file is given the last one stays. So steps that are cut short and then all run leave the tree
that they leave at once. -/
namespace Transplant.Build

open FileTree (Keeps Extends Sound)

inductive Step.Does : Step → FileTree → FileTree → Prop where
  | wrote {p : Path} {text : String} {t u : FileTree} (done : t.write p text = (.ok (), u)) :
      Does (.write p text) t u
  | made {p : Path} {t u : FileTree} (done : t.makeAll p = (.ok (), u)) : Does (.createDir p) t u

inductive Step.Fails : Step → FileTree → FileTree → Prop where
  | notWritten {p : Path} {text : String} {e : FileError} {t u : FileTree}
      (failed : t.write p text = (.error e, u)) : Fails (.write p text) t u
  | notMade {p : Path} {e : FileError} {t u : FileTree} (failed : t.makeAll p = (.error e, u)) :
      Fails (.createDir p) t u
  | refused {e : BuildError} {t : FileTree} : Fails (.refuse e) t t

def Step.Settled (t : FileTree) : Step → Prop
  | .write p _ => t.SettledAbove p
  | .createDir p => t.Settled p
  | .refuse _ => True

def Step.textAt? (q : List String) : Step → Option String
  | .write p text => if q = p.place then some text else none
  | _ => none

theorem Step.Settled.further {s : Step} {t u : FileTree} (settled : s.Settled t)
    (h : Extends t u) : s.Settled u := by
  cases s with
  | write p text => exact h.settledAbove settled
  | createDir p => exact h.settled settled
  | refuse e => trivial

/-- Above the path of a write, what was missing is made; then the file has its text. -/
theorem write_ok {t u : FileTree} {p : Path} {text : String} (done : t.write p text = (.ok (), u)) :
    ∃ mid, Keeps t mid ∧ (t.SettledAbove p → mid = t) ∧ mid.SettledAbove p ∧
      (t.Sound → mid.Sound) ∧ mid.writeOver p text = .ok u := by
  have wrote := t.write_wrote p text
  rw [done] at wrote
  cases wrote with
  | @written mid _ above writing =>
    have dirs := t.madeDirs_makeAbove p
    rw [above] at dirs
    refine ⟨mid, FileTree.keeps_madeDirs dirs, ?_, FileTree.settledAbove_makeAbove above,
      fun sound => sound.madeDirs dirs, writing⟩
    intro settled
    cases above.symm.trans (FileTree.makeAbove_of_settled settled)
    rfl

namespace Step.Does

variable {s : Step} {t u v : FileTree}

theorem eq (h : s.Does t u) (h' : s.Does t v) : u = v := by
  cases h with
  | wrote done =>
    cases h' with
    | wrote done' => cases done.symm.trans done'; rfl
  | made done =>
    cases h' with
    | made done' => cases done.symm.trans done'; rfl

theorem not_fails (h : s.Does t u) : ¬ s.Fails t v := by
  intro failing
  cases h with
  | wrote done =>
    cases failing with
    | notWritten failed => cases done.symm.trans failed
  | made done =>
    cases failing with
    | notMade failed => cases done.symm.trans failed

theorem further (h : s.Does t u) : Extends t u := by
  cases h with
  | wrote done =>
    obtain ⟨mid, kept, _, _, _, writing⟩ := write_ok done
    exact kept.further.trans (FileTree.extends_writeOver writing)
  | @made p _ _ done =>
    have dirs := t.madeDirs_makeAll p
    rw [done] at dirs
    exact (FileTree.keeps_madeDirs dirs).further

theorem sound (h : s.Does t u) (sound : t.Sound) : u.Sound := by
  cases h with
  | wrote done =>
    obtain ⟨mid, _, _, _, still, writing⟩ := write_ok done
    exact (still sound).writeOver writing
  | @made p _ _ done =>
    have dirs := t.madeDirs_makeAll p
    rw [done] at dirs
    exact sound.madeDirs dirs

theorem settled (h : s.Does t u) : s.Settled u := by
  cases h with
  | wrote done =>
    obtain ⟨mid, _, _, above, _, writing⟩ := write_ok done
    exact (FileTree.extends_writeOver writing).settledAbove above
  | made done => exact FileTree.settled_makeAll done

theorem written (h : s.Does t u) {q : List String} {text : String} (gives : s.textAt? q = some text) :
    u.node? q = some (.file (.ofText text)) := by
  cases h with
  | wrote done =>
    obtain ⟨mid, _, _, _, _, writing⟩ := write_ok done
    rw [textAt?] at gives
    split_ifs at gives with here
    cases gives
    rw [(FileTree.node?_writeOver writing).2, if_pos here]
  | made done => cases gives

theorem keeps (h : s.Does t u) {q : List String} {n : FileTree.Node} (gives : s.textAt? q = none)
    (there : t.node? q = some n) : u.node? q = some n := by
  cases h with
  | wrote done =>
    obtain ⟨mid, kept, _, _, _, writing⟩ := write_ok done
    rw [textAt?] at gives
    split_ifs at gives with here
    rw [(FileTree.node?_writeOver writing).2, if_neg here]
    exact kept q n there
  | @made p _ _ done =>
    have dirs := t.madeDirs_makeAll p
    rw [done] at dirs
    exact FileTree.keeps_madeDirs dirs q n there

theorem contentsAt? (h : s.Does t u) {q : List String} (gives : s.textAt? q = none) :
    u.contentsAt? q = t.contentsAt? q := by
  cases h with
  | @wrote p text _ _ done =>
    have effect := World.tree_write_effect p text t
    rw [done] at effect
    apply effect.contentsAt?
    rintro _ _ _ same rfl
    cases same
    simp [textAt?] at gives
  | @made p _ _ done =>
    have dirs := t.madeDirs_makeAll p
    rw [done] at dirs
    exact dirs.contentsAt? q

theorem node?_of_settled (h : s.Does t u) (settled : s.Settled t) (q : List String) :
    u.node? q = ((s.textAt? q).map fun text => .file (.ofText text)).or (t.node? q) := by
  cases h with
  | wrote done =>
    obtain ⟨mid, _, same, _, _, writing⟩ := write_ok done
    cases same settled
    rw [(FileTree.node?_writeOver writing).2, textAt?]
    split_ifs <;> rfl
  | made done =>
    cases done.symm.trans (FileTree.makeAll_of_settled settled)
    rfl

/-- What was done can be done again wherever it still stands. -/
theorem possible (h : s.Does t u) (further : Extends u v) : ∃ x, s.Does v x := by
  cases h with
  | @wrote p text _ _ done =>
    obtain ⟨mid, _, _, above, _, writing⟩ := write_ok done
    obtain ⟨x, again⟩ := FileTree.writeOver_again writing further
    have settled := ((FileTree.extends_writeOver writing).trans further).settledAbove above
    exact ⟨x, .wrote (FileTree.write_of_settled settled again)⟩
  | @made p _ _ done =>
    exact ⟨v, .made (FileTree.makeAll_of_settled (further.settled (FileTree.settled_makeAll done)))⟩

end Step.Does

theorem Step.Fails.madeDirs {s : Step} {t u : FileTree} (h : s.Fails t u) : MadeDirs t u := by
  cases h with
  | @notWritten p text e _ _ failed =>
    have wrote := t.write_wrote p text
    have dirs := t.madeDirs_makeAbove p
    rw [failed] at wrote
    cases wrote with
    | stopped above => rwa [above] at dirs
    | refused above => rwa [above] at dirs
  | @notMade p e _ _ failed =>
    have dirs := t.madeDirs_makeAll p
    rwa [failed] at dirs
  | refused => exact .none

theorem Step.Fails.again {s : Step} {t u v : FileTree} (h : s.Fails t u) : ¬ s.Does u v := by
  intro does
  cases does with
  | @wrote p text _ _ done =>
    cases h with
    | notWritten failed =>
      have stuck : (u.write p text).1 ≠ .ok () := (FileTree.write_failsAgain p text).stuck failed
      exact stuck (by rw [done])
  | @made p _ _ done =>
    cases h with
    | notMade failed =>
      have stuck : (u.makeAll p).1 ≠ .ok () := (FileTree.makeAll_failsAgain p).stuck failed
      exact stuck (by rw [done])

inductive Done : List Step → FileTree → FileTree → Prop where
  | nil {t : FileTree} : Done [] t t
  | cons {s : Step} {rest : List Step} {t mid u : FileTree} (first : s.Does t mid)
      (later : Done rest mid u) : Done (s :: rest) t u

/-- Steps run in their order until one fails or, if that may happen, is interrupted before it has
done anything. Whether none was is told at the end. -/
inductive Went (may : Prop) : List Step → FileTree → FileTree → Bool → Prop where
  | whole {t : FileTree} : Went may [] t t true
  | interrupted {s : Step} {rest : List Step} {t : FileTree} (h : may) :
      Went may (s :: rest) t t false
  | failed {s : Step} {rest : List Step} {t u : FileTree} (fails : s.Fails t u) :
      Went may (s :: rest) t u false
  | next {s : Step} {rest : List Step} {t mid u : FileTree} {ok : Bool} (first : s.Does t mid)
      (later : Went may rest mid u ok) : Went may (s :: rest) t u ok

/-- The last text that steps give to the file at a place. -/
def finalText? (q : List String) : List Step → Option String
  | [] => none
  | s :: rest => (finalText? q rest).or (s.textAt? q)

theorem finalText?_eq_none_iff {q : List String} {steps : List Step} :
    finalText? q steps = none ↔ ∀ s ∈ steps, s.textAt? q = none := by
  induction steps with
  | nil => simp [finalText?]
  | cons s rest ih => rw [finalText?, Option.or_eq_none_iff, ih, List.forall_mem_cons, and_comm]

theorem finalText?_eq_some {q : List String} {steps : List Step} {text : String}
    (gives : ∃ s ∈ steps, s.textAt? q = some text)
    (only : ∀ s ∈ steps, ∀ other, s.textAt? q = some other → other = text) :
    finalText? q steps = some text := by
  induction steps with
  | nil =>
    obtain ⟨_, none, _⟩ := gives
    cases none
  | cons s rest ih =>
    rw [finalText?]
    by_cases later : ∃ s ∈ rest, s.textAt? q = some text
    · rw [ih later fun s member => only s (List.mem_cons_of_mem _ member)]
      rfl
    · obtain ⟨s', member, here⟩ := gives
      rcases List.mem_cons.mp member with rfl | behind
      · have none : finalText? q rest = none := by
          apply finalText?_eq_none_iff.mpr
          intro s member
          cases found : s.textAt? q with
          | none => rfl
          | some other =>
            cases only s (List.mem_cons_of_mem _ member) other found
            exact absurd ⟨s, member, found⟩ later
        rw [none, here]
        rfl
      · exact absurd ⟨s', behind, here⟩ later

namespace Done

variable {steps more : List Step} {t u v x : FileTree}

theorem append (h : Done steps t u) (h' : Done more u v) : Done (steps ++ more) t v := by
  induction h with
  | nil => exact h'
  | cons first _ ih => exact .cons first (ih h')

theorem not_refused (h : Done steps t u) (e : BuildError) : .refuse e ∉ steps := by
  induction h with
  | nil => exact List.not_mem_nil
  | cons first _ ih =>
    intro member
    rcases List.mem_cons.mp member with rfl | later
    · cases first
    · exact ih later

theorem of_append (h : Done (steps ++ more) t v) : ∃ u, Done steps t u ∧ Done more u v := by
  induction steps generalizing t with
  | nil => exact ⟨t, .nil, h⟩
  | cons s rest ih =>
    cases h with
    | cons first later =>
      obtain ⟨u, front, behind⟩ := ih later
      exact ⟨u, .cons first front, behind⟩

theorem eq (h : Done steps t u) (h' : Done steps t v) : u = v := by
  induction h with
  | nil => cases h'; rfl
  | cons first _ ih =>
    cases h' with
    | cons first' later' =>
      cases first.eq first'
      exact ih later'

theorem further (h : Done steps t u) : Extends t u := by
  induction h with
  | nil => exact .refl _
  | cons first _ ih => exact first.further.trans ih

theorem sound (h : Done steps t u) (sound : t.Sound) : u.Sound := by
  induction h with
  | nil => exact sound
  | cons first _ ih => exact ih (first.sound sound)

theorem possible (h : Done steps t u) (kinds : Extends u v) : ∃ x, Done steps v x := by
  induction h generalizing v with
  | nil => exact ⟨v, .nil⟩
  | cons first later ih =>
    obtain ⟨mid, does⟩ := first.possible (later.further.trans kinds)
    obtain ⟨x, done⟩ := ih (kinds.trans does.further)
    exact ⟨x, .cons does done⟩

theorem settled (h : Done steps t u) : ∀ s ∈ steps, s.Settled u := by
  induction h with
  | nil => simp
  | cons first later ih => exact List.forall_mem_cons.mpr ⟨first.settled.further later.further, ih⟩

theorem keeps (h : Done steps t u) {q : List String} {n : FileTree.Node}
    (gives : finalText? q steps = none) (there : t.node? q = some n) : u.node? q = some n := by
  induction h with
  | nil => exact there
  | cons first _ ih =>
    rw [finalText?, Option.or_eq_none_iff] at gives
    exact ih gives.1 (first.keeps gives.2 there)

theorem written (h : Done steps t u) {q : List String} {text : String}
    (gives : finalText? q steps = some text) : u.node? q = some (.file (.ofText text)) := by
  induction h with
  | nil => cases gives
  | @cons s rest t mid u first later ih =>
    rw [finalText?] at gives
    cases behind : finalText? q rest with
    | some last =>
      rw [behind] at gives
      cases gives
      exact ih behind
    | none =>
      rw [behind, Option.none_or] at gives
      exact later.keeps behind (first.written gives)

theorem node?_of_settled (h : Done steps t u) (settled : ∀ s ∈ steps, s.Settled t) (q : List String) :
    u.node? q = ((finalText? q steps).map fun text => .file (.ofText text)).or (t.node? q) := by
  induction h with
  | nil => rfl
  | @cons s rest t mid u first later ih =>
    have still : ∀ s ∈ rest, s.Settled mid := fun s member =>
      (settled s (List.mem_cons_of_mem _ member)).further first.further
    rw [ih still, first.node?_of_settled (settled s List.mem_cons_self), finalText?]
    cases finalText? q rest <;> rfl

/-- What was done changes nothing when it is done again. -/
theorem again (h : Done steps t u) (kept : Keeps u v) (sound : v.Sound) (redone : Done steps v x) :
    x = v := by
  apply (redone.sound sound).ext sound
  intro q
  rw [redone.node?_of_settled fun s member => (h.settled s member).further kept.further]
  cases gives : finalText? q steps with
  | none => rfl
  | some text => exact (kept q _ (h.written gives)).symm

end Done

namespace Went

variable {may : Prop} {steps : List Step} {t u v : FileTree} {ok : Bool}

theorem done (h : Went may steps t u true) : Done steps t u := by
  generalize whole : true = ok at h
  induction h with
  | whole => exact .nil
  | interrupted | failed => cases whole
  | next first _ ih => exact .cons first (ih whole)

theorem eq_of_done (h : Went False steps t u ok) (done : Done steps t v) : ok = true ∧ u = v := by
  induction h with
  | whole => cases done; exact ⟨rfl, rfl⟩
  | interrupted none => exact none.elim
  | failed fails =>
    cases done with
    | cons first _ => exact absurd fails first.not_fails
  | next first _ ih =>
    cases done with
    | cons first' later' =>
      cases first.eq first'
      exact ih later'

theorem sound (h : Went may steps t u ok) (sound : t.Sound) : u.Sound := by
  induction h with
  | whole | interrupted => exact sound
  | failed fails => exact sound.madeDirs fails.madeDirs
  | next first _ ih => exact ih (first.sound sound)

theorem split (h : Went may steps t u ok) : ∃ before after mid, steps = before ++ after ∧
    Done before t mid ∧ (u = mid ∨ ∃ s rest, after = s :: rest ∧ s.Fails mid u) := by
  induction h with
  | whole | interrupted => exact ⟨[], _, _, rfl, .nil, .inl rfl⟩
  | failed fails => exact ⟨[], _, _, rfl, .nil, .inr ⟨_, _, rfl, fails⟩⟩
  | next first _ ih =>
    obtain ⟨before, after, mid, rfl, done, last⟩ := ih
    exact ⟨_ :: before, after, mid, rfl, .cons first done, last⟩

/-- Steps that were cut short and then are all done are done as if at once. -/
theorem redone (h : Went may steps t u ok) (sound : t.Sound) (done : Done steps u v) :
    Done steps t v := by
  obtain ⟨before, after, mid, rfl, front, last⟩ := h.split
  obtain ⟨x, again, behind⟩ := done.of_append
  rcases last with rfl | ⟨s, rest, rfl, fails⟩
  · cases front.again (.refl _) (front.sound sound) again
    exact front.append behind
  · -- A step that failed for a reason that is in the tree would have failed again.
    have dirs := fails.madeDirs
    cases front.again (FileTree.keeps_madeDirs dirs) ((front.sound sound).madeDirs dirs) again
    cases behind with
    | cons does _ => exact absurd does fails.again

end Went

end Transplant.Build
