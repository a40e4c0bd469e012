import Mathlib.Data.List.Chain
import Transplant.Pipeline.Course
import Transplant.Proofs.Preconditions
import Transplant.Proofs.Progress

/-! The statuses of one sequencer over any calls. No call returns while a stage is running, but a call takes
no notice of the status that it finds: the course of statuses is linear just if the calls fit each other. -/
namespace Transplant.Pipeline

namespace Status

def isFinal : Status → Bool
  | .aborted _ => true
  | .complete => true
  | _ => false

def isRunning : Status → Bool
  | .running _ => true
  | _ => false

end Status

def Stage.turn (stage : Stage) : Status :=
  (Stage.order.takeWhile (· ≠ stage)).getLast?.elim .notStarted .stageComplete

/-- One status after the other as in a linear run: a final one stays, and stages start in their order. -/
structure Status.Moves (now next : Status) : Prop where
  stays : now.isFinal = true → next = now
  inTurn : ∀ stage, next = .running stage → now = stage.turn

/-- The statuses that a sequencer enters, from its making on. -/
def Linear (history : List Status) : Prop := (Status.notStarted :: history).IsChain Status.Moves

namespace Demand

def first : Demand → Stage
  | .run _ => .plan
  | .runStage stage _ => stage

def culprit : Demand → Option Stage
  | .run _ => none
  | .runStage stage _ => some stage

/-- The answer when nothing starts. -/
def Refused : Demand → Outcome → Prop
  | .run s, r => r = .error (.missingInput s.inputRoot)
  | .runStage stage _, r => ∃ field, r = .error (.preconditionViolation stage field)

/-- A call that starts a stage comes when the stage is in turn. One that starts none does not come after
the end, except after the same end. -/
structure Fits (now : Status) (d : Demand) (r : Outcome) : Prop where
  refused : d.Refused r → now.isFinal = true → now = .aborted d.culprit
  started : ¬ d.Refused r → now = d.first.turn

end Demand

def AllFit : Status → List Demand → List (Outcome × Status) → Prop
  | now, d :: demands, r :: results => d.Fits now r.1 ∧ AllFit r.2 demands results
  | _, _, _ => True

section Following

variable {m : Type → Type} [Monad m] [LawfulMonad m] (q : Sequencer m) (history : List Status)

namespace Sequencer

theorem followStage_run (stage : Stage) (s : State) :
    (q.followStage stage s).run history = do
      let ended ← q.runStage stage s
      let begun := if (s.missingFor stage).isNone then [.running stage] else []
      return (ended, history ++ begun ++ [ended.2]) := by
  unfold followStage enter
  cases s.missingFor stage <;> simp

theorem followStage_fst (stage : Stage) (s : State) :
    Prod.fst <$> (q.followStage stage s).run history = q.runStage stage s := by
  simp [followStage_run]

theorem followStages_fst (stages : List Stage) (s : State) :
    Prod.fst <$> (q.followStages stages s).run history = q.runStages stages s := by
  induction stages generalizing s history with
  | nil => simp [followStages, runStages, enter]
  | cons stage rest ih =>
    rw [followStages, runStages, ← followStage_fst q history, StateT.run_bind, map_bind, bind_map_left]
    congr 1
    funext ⟨⟨r, status⟩, more⟩
    cases r with
    | error e => simp
    | ok next => exact ih more next

theorem follow_fst (d : Demand) : Prod.fst <$> (q.follow d).run history = q.serve d := by
  cases d with
  | runStage stage s => exact q.followStage_fst history stage s
  | run s =>
    simp only [follow, serve, run, enter, StateT.run_bind, StateT.run_monadLift, monadLift_self, bind_assoc,
      pure_bind, map_bind]
    congr 1
    funext there
    cases there with
    | false => simp
    | true => exact q.followStages_fst history Stage.order s

theorem mapM_follow_fst (demands : List Demand) :
    Prod.fst <$> (demands.mapM q.follow).run history = demands.mapM q.serve := by
  induction demands generalizing history with
  | nil => simp
  | cons d demands ih =>
    simp only [List.mapM_cons, StateT.run_bind, map_bind, StateT.run_pure, map_pure]
    rw [← q.follow_fst history d, bind_map_left]
    congr 1
    funext ⟨r, more⟩
    rw [← ih more, bind_map_left]

end Sequencer

end Following

variable {σ α β : Type} {o : Outside σ} {name : String} {snapshots : Path} {s : State} {stage : Stage}
  {stages : List Stage} {d : Demand} {r : Outcome × Status} {entered : List Status} {now next : Status}

/-- Every run gives a value and enters statuses that are as stated, whatever was entered before. -/
def Enters (o : Outside σ) (x : Noting (Recorded σ) α) (P : α → List Status → Prop) : Prop :=
  ∀ history, Meets o (x.run history) fun _ out => ∃ entered, out.2 = history ++ entered ∧ P out.1 entered

namespace Enters

theorem pure {a : α} {P : α → List Status → Prop} (h : P a []) : Enters o (Pure.pure a) P := by
  intro history
  exact .pure ⟨[], (List.append_nil history).symm, h⟩

theorem enter (status : Status) :
    Enters o (Sequencer.enter status) fun _ entered => entered = [status] := by
  intro history
  exact .pure ⟨[status], rfl, rfl⟩

theorem bind {x : Noting (Recorded σ) α} {f : α → Noting (Recorded σ) β} {P : α → List Status → Prop}
    {Q : β → List Status → Prop} (hx : Enters o x P)
    (hf : ∀ a entered, P a entered → Enters o (f a) fun b more => Q b (entered ++ more)) :
    Enters o (x >>= f) Q := by
  intro history
  rw [StateT.run_bind]
  apply (hx history).bind
  rintro _ ⟨a, _⟩ ⟨entered, rfl, hp⟩
  apply (hf a entered hp (history ++ entered)).mono
  rintro _ _ ⟨more, after, hq⟩
  exact ⟨entered ++ more, after.trans (List.append_assoc ..), hq⟩

theorem mono {x : Noting (Recorded σ) α} {P Q : α → List Status → Prop} (hx : Enters o x P)
    (h : ∀ a entered, P a entered → Q a entered) : Enters o x Q := by
  intro history
  apply (hx history).mono
  rintro _ out ⟨entered, after, hp⟩
  exact ⟨entered, after, h out.1 entered hp⟩

theorem fetch {x : Recorded σ α} {f : α → Noting (Recorded σ) β} {P : List Call → α → Prop}
    {Q : β → List Status → Prop} (hx : Meets o x P) (hf : ∀ calls a, P calls a → Enters o (f a) Q) :
    Enters o (monadLift x >>= f) Q := by
  intro history
  rw [StateT.run_bind, StateT.run_monadLift, bind_assoc]
  apply hx.bind
  intro calls a hp
  rw [pure_bind]
  exact (hf calls a hp history).mono fun _ _ h => h

end Enters

/-- The statuses of a stage, up to its end. -/
inductive StageCourse (stage : Stage) (s : State) : Outcome × Status → List Status → Prop where
  | refused {field : Field} (missing : s.missingFor stage = some field) :
      StageCourse stage s (.error (.preconditionViolation stage field), .aborted (some stage))
        [.aborted (some stage)]
  | failed {e : PipelineError} (begun : ∀ other field, e ≠ .preconditionViolation other field)
      (input : ∀ path, e ≠ .missingInput path) :
      StageCourse stage s (.error e, .aborted (some stage)) [.running stage, .aborted (some stage)]
  | passed {next : State} :
      StageCourse stage s (.ok next, .stageComplete stage) [.running stage, .stageComplete stage]

inductive StagesCourse : List Stage → State → Outcome × Status → List Status → Prop where
  | done {s : State} : StagesCourse [] s (.ok s, .complete) [.complete]
  | next {stage : Stage} {rest : List Stage} {s next : State} {status : Status} {r : Outcome × Status}
      {entered more : List Status} (course : StageCourse stage s (.ok next, status) entered)
      (later : StagesCourse rest next r more) : StagesCourse (stage :: rest) s r (entered ++ more)
  | stopped {stage : Stage} {rest : List Stage} {s : State} {e : PipelineError} {status : Status}
      {entered : List Status} (course : StageCourse stage s (.error e, status) entered) :
      StagesCourse (stage :: rest) s (.error e, status) entered

inductive Course : Demand → Outcome × Status → List Status → Prop where
  | noInput {s : State} :
      Course (.run s) (.error (.missingInput s.inputRoot), .aborted none) [.aborted none]
  | ran {s : State} {r : Outcome × Status} {entered : List Status}
      (course : StagesCourse Stage.order s r entered) : Course (.run s) r entered
  | ranStage {stage : Stage} {s : State} {r : Outcome × Status} {entered : List Status}
      (course : StageCourse stage s r entered) : Course (.runStage stage s) r entered

inductive Courses : List Demand → List (Outcome × Status) → List Status → Prop where
  | none : Courses [] [] []
  | next {d : Demand} {demands : List Demand} {r : Outcome × Status} {results : List (Outcome × Status)}
      {entered more : List Status} (course : Course d r entered) (later : Courses demands results more) :
      Courses (d :: demands) (r :: results) (entered ++ more)

theorem Worked.not_missingInput {calls : List Call} {e : PipelineError}
    (worked : Worked name s stage calls (.error e)) (path : Path) : e ≠ .missingInput path := by
  cases worked with
  | integrated _ _ _ documented => cases documented <;> simp
  | _ => simp

namespace Sequencer

theorem followStage_enters (name : String) (snapshots : Path) (stage : Stage) (s : State) :
    Enters o ((o.sequencer name snapshots).followStage stage s) (StageCourse stage s) := by
  intro history
  rw [followStage_run]
  apply (runStage_meets name snapshots stage s).bind
  intro calls ended ran
  apply Meets.pure
  refine ⟨_, List.append_assoc .., ?_⟩
  cases ran with
  | passed worked =>
    cases worked.checked with
    | admitted ready => simpa [ready] using .passed
  | failed worked =>
    have input := worked.not_missingInput
    cases worked.checked with
    | refused missing => simpa [missing] using .refused missing
    | admitted ready served =>
      simpa [ready] using .failed (fun other field same => served other field (same ▸ rfl)) input

theorem followStages_enters (name : String) (snapshots : Path) (stages : List Stage) (s : State) :
    Enters o ((o.sequencer name snapshots).followStages stages s) (StagesCourse stages s) := by
  induction stages generalizing s with
  | nil =>
    apply (Enters.enter .complete).bind
    rintro _ _ rfl
    exact .pure .done
  | cons stage rest ih =>
    apply (followStage_enters name snapshots stage s).bind
    rintro ⟨r, status⟩ entered course
    cases r with
    | error e => exact .pure (by simpa using .stopped course)
    | ok next => exact (ih next).mono fun _ _ later => .next course later

theorem follow_enters (name : String) (snapshots : Path) (d : Demand) :
    Enters o ((o.sequencer name snapshots).follow d) (Course d) := by
  cases d with
  | runStage stage s =>
    exact (followStage_enters name snapshots stage s).mono fun _ _ course => .ranStage course
  | run s =>
    apply Enters.fetch (Meets.contains s.inputRoot)
    rintro _ there -
    cases there with
    | true =>
      exact (followStages_enters name snapshots Stage.order s).mono fun _ _ course => .ran course
    | false =>
      apply (Enters.enter (.aborted none)).bind
      rintro _ _ rfl
      exact .pure .noInput

theorem mapM_follow_enters (name : String) (snapshots : Path) (demands : List Demand) :
    Enters o (demands.mapM (o.sequencer name snapshots).follow) (Courses demands) := by
  induction demands with
  | nil => exact .pure .none
  | cons d demands ih =>
    rw [List.mapM_cons]
    apply (follow_enters name snapshots d).bind
    intro r entered course
    apply ih.bind
    intro results more later
    exact .pure (by simpa using .next course later)

end Sequencer

theorem Stage.turn_of_order {done later : List Stage} (order : Stage.order = done ++ stage :: later) :
    stage.turn = done.getLast?.elim .notStarted .stageComplete := by
  rw [Stage.front order, Stage.turn]

theorem Stage.not_isFinal_turn (stage : Stage) : stage.turn.isFinal = false := by
  cases stage <;> decide

theorem Status.moves_running : now.Moves (.running stage) ↔ now = stage.turn := by
  constructor
  · exact fun moves => moves.inTurn stage rfl
  · rintro rfl
    constructor
    · simp [stage.not_isFinal_turn]
    · simp

theorem Status.moves_of_isFinal (opened : now.isFinal = false) (rests : next.isRunning = false) :
    now.Moves next := by
  constructor
  · simp [opened]
  · rintro stage rfl
    cases rests

theorem Status.isChain_running (rests : next.isRunning = false) :
    [now, .running stage, next].IsChain Status.Moves ↔ now = stage.turn := by
  have ends : (Status.running stage).Moves next := moves_of_isFinal rfl rests
  rw [List.isChain_cons_cons, List.isChain_pair, and_iff_left ends, moves_running]

theorem Demand.moves_aborted {outcome : Outcome} (refused : d.Refused outcome) :
    now.Moves (.aborted d.culprit) ↔ d.Fits now outcome := by
  constructor
  · intro moves
    exact ⟨fun _ final => (moves.stays final).symm, fun started => absurd refused started⟩
  · intro fits
    exact ⟨fun final => (fits.refused refused final).symm, by simp⟩

theorem Demand.fits_iff_turn {outcome : Outcome} (started : ¬ d.Refused outcome) :
    d.Fits now outcome ↔ now = d.first.turn := by
  constructor
  · exact fun fits => fits.started started
  · exact fun turn => ⟨fun refused => absurd refused started, fun _ => turn⟩

/-- The last of the statuses is the given one, and no stage runs then. -/
structure Rests (entered : List Status) (status : Status) : Prop where
  last : ∃ before, entered = before ++ [status]
  quiet : status.isRunning = false

theorem Rests.append {more : List Status} {status : Status} (rests : Rests more status)
    (entered : List Status) : Rests (entered ++ more) status := by
  obtain ⟨before, rfl⟩ := rests.last
  exact ⟨⟨entered ++ before, (List.append_assoc ..).symm⟩, rests.quiet⟩

theorem Rests.isChain_append {status : Status} (rests : Rests entered status) (now : Status)
    (more : List Status) :
    (now :: (entered ++ more)).IsChain Status.Moves ↔
      (now :: entered).IsChain Status.Moves ∧ (status :: more).IsChain Status.Moves := by
  obtain ⟨before, rfl⟩ := rests.last
  rw [List.append_assoc, List.singleton_append]
  exact List.isChain_cons_split

namespace StageCourse

theorem rests (course : StageCourse stage s r entered) : Rests entered r.2 := by
  cases course with
  | refused => exact ⟨⟨[], rfl⟩, rfl⟩
  | failed => exact ⟨⟨[.running stage], rfl⟩, rfl⟩
  | passed => exact ⟨⟨[.running stage], rfl⟩, rfl⟩

theorem begins (course : StageCourse stage s r entered) (ready : s.missingFor stage = none) :
    ¬ (Demand.runStage stage s).Refused r.1 := by
  cases course with
  | refused missing =>
    rw [ready] at missing
    cases missing
  | failed begun => simp [Demand.Refused, begun]
  | passed => simp [Demand.Refused]

theorem isChain_iff (course : StageCourse stage s r entered) (now : Status) :
    (now :: entered).IsChain Status.Moves ↔ (Demand.runStage stage s).Fits now r.1 := by
  cases course with
  | @refused field missing =>
    have refused : (Demand.runStage stage s).Refused (.error (.preconditionViolation stage field)) :=
      ⟨field, rfl⟩
    rw [List.isChain_pair]
    exact Demand.moves_aborted refused
  | @failed e begun =>
    have started : ¬ (Demand.runStage stage s).Refused (.error e) := by simp [Demand.Refused, begun]
    exact (Status.isChain_running rfl).trans (Demand.fits_iff_turn started).symm
  | @passed next =>
    have started : ¬ (Demand.runStage stage s).Refused (.ok next) := by simp [Demand.Refused]
    exact (Status.isChain_running rfl).trans (Demand.fits_iff_turn started).symm

theorem not_missingInput (course : StageCourse stage s r entered) (path : Path) :
    r.1 ≠ .error (.missingInput path) := by
  cases course with
  | failed _ input => simpa using input path
  | _ => simp

theorem linear (course : StageCourse stage s r entered) :
    (stage.turn :: entered).IsChain Status.Moves := by
  refine (course.isChain_iff _).mpr ⟨fun _ final => ?_, fun _ => rfl⟩
  rw [stage.not_isFinal_turn] at final
  cases final

end StageCourse

namespace StagesCourse

theorem rests (course : StagesCourse stages s r entered) : Rests entered r.2 := by
  induction course with
  | done => exact ⟨⟨[], rfl⟩, rfl⟩
  | next _ _ ih => exact ih.append _
  | stopped course => exact course.rests

theorem not_missingInput (course : StagesCourse stages s r entered) (path : Path) :
    r.1 ≠ .error (.missingInput path) := by
  induction course with
  | done => simp
  | next _ _ ih => exact ih
  | stopped course => exact course.not_missingInput path

theorem linear (course : StagesCourse stages s r entered) (done : List Stage)
    (order : Stage.order = done ++ stages) :
    (done.getLast?.elim .notStarted .stageComplete :: entered).IsChain Status.Moves := by
  induction course generalizing done with
  | done =>
    rw [List.isChain_pair]
    apply Status.moves_of_isFinal
    · cases done.getLast? <;> rfl
    · rfl
  | @next stage rest s next status r entered more course later ih =>
    have behind := ih (done ++ [stage]) (by simpa using order)
    rw [← Stage.turn_of_order order, course.rests.isChain_append]
    refine ⟨course.linear, ?_⟩
    cases course
    simpa using behind
  | stopped course =>
    rw [← Stage.turn_of_order order]
    exact course.linear

end StagesCourse

namespace Course

theorem rests (course : Course d r entered) : Rests entered r.2 := by
  cases course with
  | noInput => exact ⟨⟨[], rfl⟩, rfl⟩
  | ran course => exact course.rests
  | ranStage course => exact course.rests

/-- What a call enters goes on from a status as in a linear run just if the call fits the status. -/
theorem isChain_iff (course : Course d r entered) (now : Status) :
    (now :: entered).IsChain Status.Moves ↔ d.Fits now r.1 := by
  cases course with
  | @noInput s =>
    have refused : (Demand.run s).Refused (.error (.missingInput s.inputRoot)) := rfl
    rw [List.isChain_pair]
    exact Demand.moves_aborted refused
  | ranStage course => exact course.isChain_iff now
  | @ran s r entered course =>
    -- A run starts like its first stage, which never lacks anything, and goes on by itself.
    have started : ¬ (Demand.run s).Refused r.1 := course.not_missingInput s.inputRoot
    have linear := course.linear [] rfl
    rw [Demand.fits_iff_turn started]
    cases course with
    | stopped course => rw [course.isChain_iff, Demand.fits_iff_turn (course.begins rfl)]; rfl
    | next course later =>
      rw [course.rests.isChain_append] at linear ⊢
      rw [and_iff_left linear.2, course.isChain_iff, Demand.fits_iff_turn (course.begins rfl)]
      rfl

end Course

namespace Courses

variable {demands : List Demand} {results : List (Outcome × Status)} {history : List Status}

theorem quiet (courses : Courses demands results history) : ∀ r ∈ results, r.2.isRunning = false := by
  induction courses with
  | none => simp
  | next course _ ih => exact List.forall_mem_cons.mpr ⟨course.rests.quiet, ih⟩

theorem getLastD_eq (courses : Courses demands results history) (now : Status) :
    history.getLastD now = (results.map Prod.snd).getLastD now := by
  induction courses generalizing now with
  | none => rfl
  | next course _ ih =>
    obtain ⟨before, rfl⟩ := course.rests.last
    rw [List.map_cons, List.getLastD_cons, ← ih]
    simp [List.getLastD_eq_getLast?, List.getLast?_append, List.getLast?_cons]

theorem isChain_iff (courses : Courses demands results history) (now : Status) :
    (now :: history).IsChain Status.Moves ↔ AllFit now demands results := by
  induction courses generalizing now with
  | none => simp [AllFit]
  | next course _ ih => rw [course.rests.isChain_append, course.isChain_iff, ih, AllFit]

end Courses

/-- Whatever is asked of one sequencer, one call behind the other: no call leaves a stage running, and the
statuses are those of one linear run just if each call fits the status that the call before it has left.
The sequencer itself does not see to that. -/
theorem linear_iff_allFit (o : Outside σ) (name : String) (snapshots : Path) (demands : List Demand) (e : σ) :
    let q := o.sequencer name snapshots
    ∃ results history after,
      ((demands.mapM q.follow).run []).run (e, []) = ((results, history), after) ∧
      (demands.mapM q.serve).run (e, []) = (results, after) ∧
      history.getLastD .notStarted = (results.map Prod.snd).getLastD .notStarted ∧
      (∀ r ∈ results, r.2.isRunning = false) ∧
      (Linear history ↔ AllFit .notStarted demands results) := by
  intro q
  obtain ⟨calls, ⟨results, history⟩, e', does, -, entered, same, courses⟩ :=
    Sequencer.mapM_follow_enters (o := o) name snapshots demands [] e
  have followed := does []
  have served := congrArg (fun x => StateT.run x (e, [])) (q.mapM_follow_fst [] demands)
  rw [List.nil_append] at followed same
  cases same
  refine ⟨results, history, (e', calls), followed, ?_, courses.getLastD_eq .notStarted, courses.quiet,
    courses.isChain_iff .notStarted⟩
  rw [← served, StateT.run_map, followed]
  rfl

theorem linear_run (o : Outside σ) (name : String) (snapshots : Path) (s : State) (e : σ) :
    Linear ((((o.sequencer name snapshots).follow (.run s)).run []).run (e, [])).1.2 := by
  obtain ⟨calls, ⟨r, history⟩, e', does, -, entered, same, course⟩ :=
    Sequencer.follow_enters (o := o) name snapshots (.run s) [] e
  rw [does [], same]
  exact (course.isChain_iff .notStarted).mpr ⟨nofun, fun _ => rfl⟩

instance : DecidableRel Status.Moves := fun now next =>
  decidable_of_iff
    ((now.isFinal = true → next = now) ∧ ∀ stage ∈ Stage.order, next = .running stage → now = stage.turn)
    ⟨fun h => ⟨h.1, fun stage => h.2 stage (by cases stage <;> decide)⟩,
      fun h => ⟨h.stays, fun stage _ => h.inTurn stage⟩⟩

instance : DecidablePred Linear := fun history =>
  inferInstanceAs (Decidable ((Status.notStarted :: history).IsChain Status.Moves))

/-- The statuses of a sequencer in a world, over all that is asked of it. -/
def courseIn (w : World) (demands : List Demand) : List Status :=
  (((demands.mapM (World.outside.sequencer "site" ⟨"logs"⟩).follow).run []).run (w, [])).1.2

def talkative : World :=
  { World.ofTree (.dir [("in", .dir [])]) [] with answer := fun _ _ => .ok "yes" }

def inToOut : State := .fresh ⟨"in"⟩ ⟨"out"⟩

def wholeRun : List Status :=
  Stage.order.flatMap (fun stage => [.running stage, .stageComplete stage]) ++ [.complete]

/-- A run without input and then a stage, a stage out of its turn, and a stage after a whole run. -/
theorem course_not_linear :
    (courseIn (.ofTree .empty []) [.run inToOut, .runStage .build inToOut] =
        [.aborted none, .aborted (some .build)] ∧
      ¬ Linear [.aborted none, .aborted (some .build)]) ∧
    (courseIn talkative [.runStage .discovery inToOut] = [.running .discovery, .stageComplete .discovery] ∧
      ¬ Linear [.running .discovery, .stageComplete .discovery]) ∧
    courseIn talkative [.run inToOut, .runStage .plan inToOut] =
      wholeRun ++ [.running .plan, .stageComplete .plan] ∧
    ¬ Linear (wholeRun ++ [.running .plan, .stageComplete .plan]) := by
  decide +kernel

end Transplant.Pipeline
