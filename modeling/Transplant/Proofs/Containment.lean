import Transplant.Proofs.FailFast
import Transplant.Proofs.TreeCalls

/-! Where a run changes files: below the directory of its snapshots, and in the directory of the
project, which is one entry of the output directory. Names that lead elsewhere stop the build before
it touches anything, and so do names of apps and templates. -/
namespace Transplant

namespace Pipeline

theorem snapshot_below (snapshots : Path) (stage : Stage) :
    snapshots.Below (snapshots.join (Snapshot.fileName stage)) := by
  apply Path.below_join
  cases stage <;> decide

def Contained (name : String) (output snapshots : Path) (calls : List Call) : Prop :=
  ∀ c ∈ calls, ∀ p, c.changed? = some p →
    snapshots.Below p ∨ Build.isEntry name = true ∧ (output.join name).Within p

theorem Contained.append {name : String} {output snapshots : Path} {calls more : List Call}
    (h : Contained name output snapshots calls) (h' : Contained name output snapshots more) :
    Contained name output snapshots (calls ++ more) :=
  List.forall_mem_append.mpr ⟨h, h'⟩

theorem WorksWithin.contained {name : String} {output : Path} {stage : Stage} {calls : List Call}
    (within : WorksWithin name output stage calls) (snapshots : Path) :
    Contained name output snapshots calls :=
  fun c hc p hp => .inr (within c hc p hp).2

theorem snapshotCall_contained (name : String) (output snapshots : Path) (stage : Stage) (s : State)
    (r : Except FileError Unit) :
    Contained name output snapshots [snapshotCall snapshots stage s r] := by
  intro c hc p hp
  rw [List.mem_singleton.mp hc] at hp
  exact .inl (Option.some.inj hp ▸ snapshot_below snapshots stage)

theorem Passed.contained {name : String} {output snapshots : Path} {stages : List Stage}
    {calls : List Call} (passed : Passed name output snapshots stages calls) :
    Contained name output snapshots calls := by
  induction passed with
  | none => simp [Contained]
  | next _ _ _ within ih =>
    exact ih.append ((within.contained snapshots).append (snapshotCall_contained _ _ _ _ _ _))

theorem FailedFast.contained {name : String} {snapshots : Path} {s : State} {calls : List Call}
    {r : Outcome × Status} (ran : FailedFast name snapshots s calls r) :
    Contained name s.outputRoot snapshots calls := by
  have looks : ∀ there, Contained name s.outputRoot snapshots [.contains s.inputRoot there] := by
    simp [Contained, Call.changed?]
  cases ran with
  | noInput => exact looks false
  | complete passed _ _ => exact (looks true).append passed.contained
  | aborted _ passed _ _ _ _ within =>
    exact (looks true).append (passed.contained.append (within.contained snapshots))

theorem Contained.apart {name : String} {output snapshots : Path} {calls : List Call}
    (contained : Contained name output snapshots calls) {q : List String}
    (noSnapshot : ¬ snapshots.place <+: q)
    (outside : Build.isEntry name = true → ¬ (output.join name).place <+: q) :
    ∀ p text r, .write p text r ∈ calls → q ≠ p.place := by
  rintro p text r member rfl
  rcases contained _ member p rfl with below | ⟨entry, within⟩
  · exact noSnapshot below.within.place
  · exact outside entry within.place

/-- Whatever the plan, the sources and the outcome, a run changes what is below its snapshots, and
what is in the project if the name of the project is one entry. Otherwise its build does nothing. -/
theorem run_stays_within {σ : Type} (o : Outside σ) (name : String) (logDir : Path)
    (started : Instant) (s : State) (e : σ) :
    ∃ calls r e',
      ((o.sequencer name (Snapshot.directory logDir started)).run s).run (e, []) = (r, e', calls) ∧
      (∀ c ∈ calls, ∀ p, c.changed? = some p →
        (Snapshot.directory logDir started).Below p ∨
          ∃ entry, (Path.mk name).components = [.normal entry] ∧
            (s.outputRoot.join name).components = s.outputRoot.components ++ [.normal entry] ∧
            (s.outputRoot.join name).Within p) ∧
      (∀ tree, o.HasTree tree → ∀ q, ¬ (Snapshot.directory logDir started).place <+: q →
        ((∃ entry, (Path.mk name).components = [.normal entry]) →
          ¬ (s.outputRoot.join name).place <+: q) →
        (tree e').contentsAt? q = (tree e).contentsAt? q) ∧
      ((∀ entry, (Path.mk name).components ≠ [.normal entry]) → ∀ state from',
        ∃ r to', ((o.tools name).build state).run.run (from', []) = (r, to', [])) := by
  obtain ⟨calls, r, e', does, leads, ran⟩ :=
    Sequencer.run_meets (o := o) name (Snapshot.directory logDir started) s e
  have contained := ran.failedFast.contained
  refine ⟨calls, r, e', does [], ?_, ?_, ?_⟩
  · intro c hc p hp
    rcases contained c hc p hp with below | ⟨isEntry, within⟩
    · exact .inl below
    · obtain ⟨entry, single⟩ := Build.isEntry_iff.mp isEntry
      have split : (s.outputRoot.join name).components = _ :=
        Path.components_join (Build.staysBelow_of_isEntry isEntry)
      rw [single] at split
      exact .inr ⟨entry, single, split, within⟩
  · intro tree on q noSnapshot outside
    exact leads.contentsAt? on (contained.apart noSnapshot fun h => outside (Build.isEntry_iff.mp h))
  · intro notEntry state from'
    obtain ⟨calls, r, to', does, _, worked⟩ := Tools.build_meets (o := o) name state from'
    -- Any call of a build tells that the name of the project is one entry.
    have silent : calls = [] := by
      rw [List.eq_nil_iff_forall_not_mem]
      intro c member
      obtain ⟨entry, single⟩ := Build.isEntry_iff.mp (worked.isEntry member)
      exact notEntry entry single
    subst silent
    exact ⟨r, to', does []⟩

/-- Answers that carry a run to its end, with a plan for one app. -/
def blogAnswers : List String :=
  ["overview", "summary", "\x7b\"apps\":[\x7b\"name\":\"blog\"\x7d]\x7d", "readme", "requirements"]

/-- A world with a file beside the project, where all questions are answered. -/
def answeringWorld : World :=
  { World.ofTree (.dir [("out", .dir [("notes", .file (.ofText "mine"))]), ("src", .dir [])]) [] with
    answer := fun k _ => .ok ((blogAnswers[k]?).getD "") }

def answeredRun : (Outcome × Status) × World × List Call :=
  ((World.outside.sequencer "site" (Snapshot.directory ⟨"logs"⟩ .epoch)).run (.fresh ⟨"src"⟩ ⟨"out"⟩)).run
    (answeringWorld, [])

theorem run_stays_within_world :
    World.outside.HasTree World.tree ∧
      ∃ calls r w', answeredRun = ((r, .complete), w', calls) ∧
        w'.tree.exists? ⟨"out/site/blog/urls.py"⟩ = true ∧
        (∀ c ∈ calls, ∀ p, c.changed? = some p →
          (Snapshot.directory ⟨"logs"⟩ .epoch).Below p ∨ (Path.mk "out/site").Within p) ∧
        w'.tree.contentsAt? ["out", "notes"] = some (.ofText "mine") := by
  have ended : answeredRun.1.2 = .complete ∧
      answeredRun.2.1.tree.exists? ⟨"out/site/blog/urls.py"⟩ = true := by decide +kernel
  obtain ⟨calls, ⟨r, status⟩, w', ran, within, keeps, _⟩ :=
    run_stays_within World.outside "site" ⟨"logs"⟩ .epoch (.fresh ⟨"src"⟩ ⟨"out"⟩) answeringWorld
  have kept := keeps World.tree World.outside_hasTree ["out", "notes"] (by decide) fun _ => by decide
  change answeredRun = _ at ran
  rw [ran] at ended
  obtain ⟨rfl, written⟩ := ended
  refine ⟨World.outside_hasTree, calls, r, w', ran, written, ?_, kept⟩
  intro c member p changed
  exact (within c member p changed).imp_right fun ⟨_, _, _, below⟩ => below

end Pipeline

end Transplant
