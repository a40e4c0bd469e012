import Transplant.Proofs.ChangedPaths
import Transplant.Proofs.Place
import Transplant.World

/-! What calls do to a tree of files without links. The files that no call writes stay as they are,
also when calls fail half way. A world is such an outside. -/
namespace Transplant

inductive MadeDirs : FileTree → FileTree → Prop where
  | none {t : FileTree} : MadeDirs t t
  | next {t made t' : FileTree} {p : Path} (first : t.makeDir p = .ok made)
      (rest : MadeDirs made t') : MadeDirs t t'

namespace MadeDirs

theorem trans {t t' t'' : FileTree} (h : MadeDirs t t') (h' : MadeDirs t' t'') : MadeDirs t t'' := by
  induction h with
  | none => exact h'
  | next first _ ih => exact .next first (ih h')

theorem contentsAt? {t t' : FileTree} (h : MadeDirs t t') (q : List String) :
    t'.contentsAt? q = t.contentsAt? q := by
  induction h with
  | none => rfl
  | next first _ ih => rw [ih, FileTree.contentsAt?_makeDir first]

theorem makeDirs (t : FileTree) (paths : List Path) : MadeDirs t (t.makeDirs paths).2 := by
  induction paths generalizing t with
  | nil => exact .none
  | cons p above ih =>
    rw [FileTree.makeDirs]
    split
    · exact .none
    · split
      · rename_i made
        exact .next made .none
      · have front := ih t
        split
        · rename_i t' whole
          rw [whole] at front
          split
          · rename_i made
            exact front.trans (.next made .none)
          · split <;> exact front
        · exact front
      · split <;> exact .none

end MadeDirs

/-- What a call may do to a tree. One that fails may have made directories, and may have left
something else in the file that it was to write. -/
inductive Call.Effect : Call → FileTree → FileTree → Prop where
  | none {c : Call} {t : FileTree} (look : c.changed? = none) : Effect c t t
  | made {p : Path} {r : Except FileError Unit} {t t' : FileTree} (dirs : MadeDirs t t') :
      Effect (.createDir p r) t t'
  | wrote {p : Path} {text : String} {t mid t' : FileTree} (dirs : MadeDirs t mid)
      (laid : mid.writeOver p text = .ok t') : Effect (.write p text (.ok ())) t t'
  | notWritten {p : Path} {text : String} {e : FileError} {t t' : FileTree} (dirs : MadeDirs t t') :
      Effect (.write p text (.error e)) t t'
  | spoilt {p : Path} {text left : String} {e : FileError} {t mid t' : FileTree}
      (dirs : MadeDirs t mid) (laid : mid.writeOver p left = .ok t') :
      Effect (.write p text (.error e)) t t'

theorem Call.Effect.contentsAt? {c : Call} {t t' : FileTree} (effect : c.Effect t t')
    {q : List String} (apart : ∀ p text r, c = .write p text r → q ≠ p.place) :
    t'.contentsAt? q = t.contentsAt? q := by
  cases effect with
  | none => rfl
  | made dirs => exact dirs.contentsAt? q
  | wrote dirs laid =>
    rw [(FileTree.contentsAt?_writeOver laid).2 q (apart _ _ _ rfl), dirs.contentsAt?]
  | notWritten dirs => exact dirs.contentsAt? q
  | spoilt dirs laid =>
    rw [(FileTree.contentsAt?_writeOver laid).2 q (apart _ _ _ rfl), dirs.contentsAt?]

theorem Call.Effect.written {p : Path} {text : String} {t t' : FileTree}
    (effect : (Call.write p text (.ok ())).Effect t t') :
    t'.contentsAt? p.place = some (.ofText text) := by
  cases effect with
  | none look => cases look
  | wrote dirs laid => exact (FileTree.contentsAt?_writeOver laid).1

variable {σ : Type}

/-- All that the outside knows of files is a tree. -/
def Outside.HasTree (o : Outside σ) (tree : σ → FileTree) : Prop :=
  ∀ e c e', o.Answers e c e' → c.Effect (tree e) (tree e')

theorem Outside.Leads.contentsAt? {o : Outside σ} {tree : σ → FileTree} (on : o.HasTree tree)
    {e e' : σ} {calls : List Call} (leads : o.Leads e calls e') {q : List String}
    (apart : ∀ p text r, .write p text r ∈ calls → q ≠ p.place) :
    (tree e').contentsAt? q = (tree e).contentsAt? q := by
  induction leads with
  | nil => rfl
  | @cons e e' e'' c calls answer rest ih =>
    have later := ih fun p text r member => apart p text r (List.mem_cons_of_mem _ member)
    have first := (on e c e' answer).contentsAt? (q := q) fun p text r same =>
      apart p text r (same ▸ List.mem_cons_self)
    exact later.trans first

/-- A file that calls write, always with success, has the text of one of them in the end. -/
theorem Outside.Leads.contentsAt?_of_written {o : Outside σ} {tree : σ → FileTree}
    (on : o.HasTree tree) {e e' : σ} {calls : List Call} (leads : o.Leads e calls e')
    {q : List String} {T : String → Prop}
    (texts : ∀ p text r, .write p text r ∈ calls → p.place = q → r = .ok () ∧ T text)
    (written : ∃ p text r, .write p text r ∈ calls ∧ p.place = q) :
    ∃ text, T text ∧ (tree e').contentsAt? q = some (.ofText text) := by
  induction leads with
  | nil =>
    obtain ⟨_, _, _, member, _⟩ := written
    cases member
  | @cons e e' e'' c calls answer rest ih =>
    -- The last write counts: a later one if there is any, and else this one stays.
    by_cases later : ∃ p text r, .write p text r ∈ calls ∧ p.place = q
    · exact ih (fun p text r member => texts p text r (List.mem_cons_of_mem _ member)) later
    · obtain ⟨p, text, r, member, here⟩ := written
      obtain ⟨rfl, holds⟩ := texts p text r member here
      rcases List.mem_cons.mp member with rfl | further
      · refine ⟨text, holds, ?_⟩
        have kept := rest.contentsAt? on (q := q)
          fun p text r member here => later ⟨p, text, r, member, here.symm⟩
        rw [kept, ← here]
        exact (on e _ e' answer).written
      · exact absurd ⟨p, text, _, further, here⟩ later

namespace World

def outside : Outside World := ⟨files, collaborator⟩

theorem read_tree (p : Path) (w : World) : (w.read p).2.tree = w.tree := by
  unfold read
  split <;> rfl

theorem walk_tree (p : Path) (w : World) : (w.walk p).2.tree = w.tree := by
  unfold walk
  split <;> rfl

theorem createDir_effect (p : Path) (w : World) :
    (Call.createDir p (w.createDir p).1).Effect w.tree (w.createDir p).2.tree := by
  unfold createDir
  split
  · exact .made .none
  · exact .made (MadeDirs.makeDirs w.tree _)

theorem tree_write_effect (p : Path) (text : String) (t : FileTree) :
    (Call.write p text (t.write p text).1).Effect t (t.write p text).2 := by
  cases above : p.parent? with
  | none =>
    simp only [FileTree.write, above]
    split
    · rename_i laid
      exact .wrote .none laid
    · exact .notWritten .none
  | some parent =>
    have dirs := MadeDirs.makeDirs t (FileTree.ancestors parent)
    rcases made : t.makeDirs (FileTree.ancestors parent) with ⟨r, mid⟩
    rw [made] at dirs
    simp only [FileTree.write, above, FileTree.makeAll, made]
    cases r with
    | error e => exact .notWritten dirs
    | ok =>
      simp only
      split
      · rename_i laid
        exact .wrote dirs laid
      · exact .notWritten dirs

theorem write_effect (p : Path) (text : String) (w : World) :
    (Call.write p text (w.write p text).1).Effect w.tree (w.write p text).2.tree := by
  unfold write
  split
  · exact .notWritten .none
  · exact tree_write_effect p text w.tree

theorem look_effect {c : Call} (look : c.changed? = none) {w w' : World} (same : w'.tree = w.tree) :
    c.Effect w.tree w'.tree := by
  rw [same]
  exact .none look

/-- In a world the files are its tree, and faults only keep calls from what they would do. -/
theorem outside_hasTree : outside.HasTree World.tree := by
  intro w c w' answer
  cases c with
  | read p r =>
    have came : w.read p = (r, w') := answer
    exact look_effect rfl (by rw [← read_tree p w, came])
  | write p text r =>
    have came : w.write p text = (r, w') := answer
    have effect := write_effect p text w
    rwa [came] at effect
  | createDir p r =>
    have came : w.createDir p = (r, w') := answer
    have effect := createDir_effect p w
    rwa [came] at effect
  | contains p r => cases answer; exact .none rfl
  | walk p r =>
    have came : w.walk p = (r, w') := answer
    exact look_effect rfl (by rw [← walk_tree p w, came])
  | asked q r => cases answer; exact .none rfl

end World

end Transplant
