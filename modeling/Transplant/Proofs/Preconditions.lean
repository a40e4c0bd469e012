import Transplant.Proofs.SequencerCalls
import Transplant.Proofs.TreeCalls

/-! What a stage needs stands in two places: in the table that the sequencer looks at, and in the work of
the stage itself. The two agree on which field is missed first, and both look before anything is done. -/
namespace Transplant.Pipeline

variable {σ : Type} {name : String} {snapshots : Path} {s : State} {stage : Stage} {calls : List Call}
  {r : Outcome}

/-- A stage is refused before it makes a call, for the first field that it misses, or it is not refused
at all. -/
inductive Checked (s : State) (stage : Stage) : List Call → Outcome → Prop where
  | refused {field : Field} (missing : s.missingFor stage = some field) :
      Checked s stage [] (.error (.preconditionViolation stage field))
  | admitted {calls : List Call} {r : Outcome} (ready : s.missingFor stage = none)
      (served : ∀ other field, r ≠ .error (.preconditionViolation other field)) :
      Checked s stage calls r

theorem Checked.refused_iff (checked : Checked s stage calls r) (other : Stage) (field : Field) :
    r = .error (.preconditionViolation other field) ↔
      other = stage ∧ s.missingFor stage = some field := by
  cases checked with
  | refused missing =>
    rw [missing]
    simp [eq_comm]
  | admitted ready served => simp [served, ready]

theorem Checked.silent {field : Field} (checked : Checked s stage calls r)
    (missing : s.missingFor stage = some field) : calls = [] := by
  cases checked with
  | refused => rfl
  | admitted ready =>
    rw [ready] at missing
    cases missing

theorem Documented.served {root : Path} {app : Rails.Application} {plan : Plan}
    (documented : Documented s root app plan calls r) (other : Stage) (field : Field) :
    r ≠ .error (.preconditionViolation other field) := by
  cases documented <;> simp

theorem Worked.checked (worked : Worked name s stage calls r) : Checked s stage calls r := by
  cases worked with
  | lacking missing => exact .refused missing
  | outlined => exact .admitted rfl (by simp)
  | notOutlined => exact .admitted rfl (by simp)
  | discovered => exact .admitted rfl (by simp)
  | notDiscovered => exact .admitted rfl (by simp)
  | converted there =>
    exact .admitted (by simp [State.missingFor, Stage.requires, State.has, there]) (by simp)
  | notConverted there =>
    exact .admitted (by simp [State.missingFor, Stage.requires, State.has, there]) (by simp)
  | built planned =>
    exact .admitted (by simp [State.missingFor, Stage.requires, State.has, planned]) (by simp)
  | notBuilt planned =>
    exact .admitted (by simp [State.missingFor, Stage.requires, State.has, planned]) (by simp)
  | integrated atRoot there planned documented =>
    refine .admitted ?_ documented.served
    simp [State.missingFor, Stage.requires, State.has, atRoot, there, planned]

theorem StageRan.checked {ended : Outcome × Status} (ran : StageRan name snapshots stage s calls ended) :
    Checked s stage calls ended.1 := by
  cases ran with
  | failed worked => exact worked.checked
  | passed worked =>
    cases worked.checked with
    | admitted ready => exact .admitted ready (by simp)

theorem unmoved_of_silent {o : Outside σ} {e : σ} {after : σ × List Call}
    (leads : o.Leads e after.2 after.1) (silent : after.2 = []) : after = (e, []) := by
  obtain ⟨e', calls⟩ := after
  cases silent
  cases leads
  rfl

/-- A stage is refused for a field just if the field is the first of those it needs that is missing,
whether the sequencer runs it or it runs alone, and whatever the files and the collaborator do. Nothing
has been looked at, asked, written or noted then. -/
theorem refused_iff_missing (o : Outside σ) (name : String) (snapshots : Path) (stage : Stage)
    (s : State) (e : σ) :
    let alone := ((o.tools name).work stage s).run.run (e, [])
    let sequenced := ((o.sequencer name snapshots).runStage stage s).run (e, [])
    (∀ other field, alone.1 = .error (.preconditionViolation other field) ↔
      other = stage ∧ s.missingFor stage = some field) ∧
    (∀ other field, sequenced.1.1 = .error (.preconditionViolation other field) ↔
      other = stage ∧ s.missingFor stage = some field) ∧
    ∀ field, s.missingFor stage = some field → alone.2 = (e, []) ∧ sequenced.2 = (e, []) := by
  intro alone sequenced
  obtain ⟨leads, worked⟩ := (Tools.work_meets (o := o) name stage s).of_run (e := e) rfl
  obtain ⟨leads', ran⟩ := (Sequencer.runStage_meets (o := o) name snapshots stage s).of_run (e := e) rfl
  refine ⟨worked.checked.refused_iff, ran.checked.refused_iff, ?_⟩
  intro field missing
  exact ⟨unmoved_of_silent leads (worked.checked.silent missing),
    unmoved_of_silent leads' (ran.checked.silent missing)⟩

/-- A project without a description of its source. Its plan is missing as well, but that comes later. -/
def undescribed : State := { State.fresh ⟨"in"⟩ ⟨"out"⟩ with projectRoot := some ⟨"out/site"⟩ }

theorem refused_iff_missing_undescribed :
    undescribed.missingFor .integrate = some .application ∧ undescribed.plan = none ∧
      ((World.outside.tools "site").work .integrate undescribed).run.run (.ofTree .empty [], []) =
        (.error (.preconditionViolation .integrate .application), .ofTree .empty [], []) ∧
      (((World.outside.sequencer "site" ⟨"logs"⟩).runStage .integrate undescribed).run
        (.ofTree .empty [], [])).2 = (.ofTree .empty [], []) := by
  have missing : undescribed.missingFor .integrate = some .application := rfl
  obtain ⟨alone, _, silent⟩ := refused_iff_missing World.outside "site" ⟨"logs"⟩ .integrate undescribed
    (.ofTree .empty [])
  obtain ⟨unmoved, unmoved'⟩ := silent .application missing
  exact ⟨missing, rfl, Prod.ext ((alone .integrate .application).mpr ⟨rfl, missing⟩) unmoved, unmoved'⟩

end Transplant.Pipeline
