import Transplant.CommandLine.Command
import Transplant.Proofs.Cassettes
import Transplant.Proofs.Echo

/-! A conversion that is recorded and replayed. On the cassettes of a first conversion, a second one
from the same files comes to the same end, with nobody to ask and no clock. -/
namespace Transplant

theorem isDigit_of_mem_padded {width n : Nat} {c : Char} (there : c ∈ (padded width n).toList) :
    c.isDigit = true := by
  rw [padded, String.toList_ofList, List.mem_append] at there
  rcases there with front | digit
  · rw [List.eq_of_mem_replicate front]
    rfl
  · exact Nat.isDigit_of_mem_toDigits (by decide) (by decide) digit

theorem slash_not_mem_padded (width n : Nat) : '/' ∉ (padded width n).toList := by
  intro there
  have digit := isDigit_of_mem_padded there
  cases digit

theorem slash_not_mem_runName (t : Instant) : '/' ∉ t.runName.toList := by
  have year : '/' ∉ (Date.yearText t.date.year).toList := by
    rw [Date.yearText]
    split_ifs <;> simp [slash_not_mem_padded]
  simp [Instant.runName, slash_not_mem_padded, year]

theorem isName_runName (t : Instant) : IsName t.runName := by
  apply Path.isName_of_isPart
  refine ⟨?_, slash_not_mem_runName t⟩
  have mark : '_' ∈ t.runName.toList := by simp [Instant.runName]
  change Path.componentOf? t.runName.toList = _
  unfold Path.componentOf?
  split <;> simp_all

theorem Pipeline.Snapshot.within_directory (logDir : Path) (started : Instant) :
    logDir.Within (directory logDir started) :=
  ((Path.Within.refl logDir).join (by decide)).join (Build.staysBelow_of_isName (isName_runName started))

namespace Command

variable {m : Type → Type} [Monad m]

/-- A conversion with all that it ends with: the directory of its snapshots, its outcome, and its
status. -/
def conversion (services : Services m) (settings : Settings) (input output logDir : Path) :
    m (Path × Pipeline.Outcome × Pipeline.Status) := do
  let snapshots := Pipeline.Snapshot.directory logDir (← services.now)
  let tools : Pipeline.Tools m :=
    ⟨services.files, .ofModel services.model settings, settings.projectName⟩
  return (snapshots, ← Pipeline.Sequencer.run ⟨tools, snapshots⟩ (.fresh input output))

def report : Pipeline.Outcome → Except CommandError (List String)
  | .ok s => .ok (summary s)
  | .error e => .error (.conversion e)

/-- The command prints what comes of the conversion. -/
theorem convertTree_run [LawfulMonad m] (services : Services m) (settings : Settings)
    (input output logDir : Path) : (convertTree services settings input output logDir).run =
      (fun ended => report ended.2.1) <$> conversion services settings input output logDir := by
  rw [convertTree, conversion, ExceptT.run_bind_lift, map_bind]
  congr 1
  funext started
  dsimp only
  rw [ExceptT.run_bind_lift, map_bind]
  congr 1
  funext ended
  rw [map_pure]
  rcases ended with ⟨_ | _, status⟩ <;> rfl

end Command

namespace Agreement

variable {m n : Type → Type} [Monad m] [Monad n] {A : Agreement m n} {dirs : List Path}
  {services : Services m} {others : Services n}

theorem ofModel (model : ∀ request, A.Agree (services.model.complete request)
    (others.model.complete request) fun _ => True) (settings : Settings) :
    A.Answers (.ofModel services.model settings) (.ofModel others.model settings) := by
  intro q
  apply A.bind (model (q.request settings))
  intro r _
  cases r <;> exact A.pure trivial

theorem conversion [LawfulMonad m] [LawfulMonad n] (files : A.Files dirs dirs services.files others.files)
    (model : ∀ request, A.Agree (services.model.complete request) (others.model.complete request)
      fun _ => True)
    (now : A.Agree services.now others.now fun _ => True) {input output logDir : Path}
    (nearInput : input.Near dirs) (nearOutput : output.Near dirs) (nearLog : logDir.Near dirs)
    (settings : Settings) :
    A.Agree (Command.conversion services settings input output logDir)
      (Command.conversion others settings input output logDir) fun _ => True := by
  apply A.bind now
  intro started _
  have snapshots := nearLog.within (Pipeline.Snapshot.within_directory logDir started)
  let start := Pipeline.State.fresh input output
  have nearStart : start.inputRoot.Near dirs := nearInput
  have nearRoot : Build.isEntry settings.projectName = true →
      (start.outputRoot.join settings.projectName).Near dirs :=
    fun entry => nearOutput.within ((Path.Within.refl output).join (Build.staysBelow_of_isEntry entry))
  apply A.bind (run files (ofModel model settings) nearStart nearRoot (files.captures snapshots))
  intro ended _
  exact A.pure trivial

end Agreement

theorem Recording.Hears.has {answers times : Tape} {r : Recording} (hears : start.Hears answers times r) :
    (Playback.ofTape (r.model.tape ++ r.clock.tape)).Has answers times := by
  have onModel : r.model.tape = answers := hears.model
  have onClock : r.clock.tape = times := hears.clock
  have model : ∀ i ∈ answers, (i.channel == .model) = true ∧ (i.channel == .clock) = false := by
    intro i there
    rw [hears.ofModel i there]
    decide
  have clock : ∀ i ∈ times, (i.channel == .clock) = true ∧ (i.channel == .model) = false := by
    intro i there
    rw [hears.ofClock i there]
    decide
  rw [onModel, onClock]
  constructor
  · change (Replay.ofTape (answers ++ times)).left .model = answers
    rw [Replay.left_ofTape, List.filter_append, List.filter_eq_self.mpr fun i there => (model i there).1,
      List.filter_eq_nil_iff.mpr fun i there => by simp [(clock i there).2], List.append_nil]
  · change (Replay.ofTape (answers ++ times)).left .clock = times
    rw [Replay.left_ofTape, List.filter_append,
      List.filter_eq_nil_iff.mpr fun i there => by simp [(model i there).2],
      List.filter_eq_self.mpr fun i there => (clock i there).1, List.nil_append]

/-- A conversion that is played echoes the one that is recorded. -/
theorem conversion_echoes {places : List (List String)} {input output logDir : Path}
    (clear : ∀ dir ∈ [input, output, logDir], dir.Clear places) (settings : Settings) :
    Echoes places (Command.conversion World.services.recorded settings input output logDir)
      (Command.conversion (Services.replayed World.files) settings input output logDir)
      fun _ => True := by
  have near : ∀ dir ∈ [input, output, logDir], dir.Near [input, output, logDir] :=
    fun dir member => ⟨dir, member, .refl dir⟩
  exact Agreement.conversion (A := echoing places) (echoing_files clear) Echoes.model Echoes.now
    (near input (by simp)) (near output (by simp)) (near logDir (by simp)) settings

/-- A world as it was before something happened in it, but for some files that were made. -/
structure World.Restored (places : List (List String)) (before after w : World) : Prop where
  sound : w.tree.Sound
  faults : w.faults = before.faults
  made : ∀ q ∈ places, w.tree.node? q = after.tree.node? q
  others : FileTree.SameBut places before.tree w.tree

theorem World.restored_of_finished {w w₁ w₂ v : World} {s : Session} {today : Instant} {r : Recording}
    (sound : w.tree.Sound)
    (finished : (s.finish (World.shelf today) r.released).run.run w₁ = (.ok (), w₂))
    (before : (s.finish (World.shelf today) r.released).run.run w = (.ok (), v)) :
    World.Restored s.places w w₂ v := by
  obtain ⟨mid, t, first, second, rfl⟩ := Session.finish_ok finished
  obtain ⟨mid', u, first', second', rfl⟩ := Session.finish_ok before
  refine ⟨(sound.writeOver first').writeOver second', rfl, ?_, ?_⟩
  · intro q there
    rw [Session.node?_kept first second, Session.node?_kept first' second']
    rcases Session.mem_places_iff.mp there with rfl | rfl <;> simp
  · intro q away
    rw [Session.mem_places_iff, not_or] at away
    rw [Session.node?_kept first' second', if_neg away.2, if_neg away.1]

/-- The conversion that is played from the cassettes of a first one, in a world as it was before but for
the cassettes, has the same snapshot directory, outcome and status, and it leaves the same files. -/
theorem conversion_replays {w w₁ w₂ v : World} {s : Session} {today later : Instant} {settings : Settings}
    {input output logDir snapshots : Path} {outcome : Pipeline.Outcome} {status : Pipeline.Status}
    {recording : Recording} (legible : w.Legible) (started : w.tree.isDirectory s.dir = true)
    (clear : ∀ dir ∈ [input, output, logDir], dir.Clear s.places)
    (ran : ((Command.conversion World.services.recorded settings input output logDir).run .start).run w =
      (((snapshots, outcome, status), recording), w₁))
    (finished : (s.finish (World.shelf today) recording.released).run.run w₁ = (.ok (), w₂))
    (readsModel : (s.cassette today Session.modelService recording.model.tape).Reads)
    (readsClock : (s.cassette today Session.clockService recording.clock.tape).Reads)
    (restored : World.Restored s.places w w₂ v) :
    ∃ tape playback v',
      ((World.shelf later).loadTape s.cassettes).run.run v = (.ok tape, v) ∧
      ((Command.conversion (Services.replayed World.files) settings input output logDir).run
        (.ofTape tape)).run v = (((snapshots, outcome, status), playback), v') ∧
      ∀ q, q ∉ s.places → v'.tree.node? q = w₁.tree.node? q := by
  obtain ⟨ended, r, after, answers, times, recorded, _, _, hears, echo⟩ :=
    conversion_echoes clear settings .start w legible
  cases ran.symm.trans recorded
  obtain ⟨mid, t, first, second, rfl⟩ := Session.finish_ok finished
  obtain ⟨model, clock⟩ := Session.read_cassettes started first second restored.made restored.others
  have same : World.SameBut s.places w v := ⟨restored.others, restored.sound, restored.faults⟩
  -- What the first run has heard is on its cassettes, and that is all that the second one is given.
  have has := hears.has
  rw [← List.append_nil answers, ← List.append_nil times] at has
  obtain ⟨playback, v', played, same', _⟩ := echo _ v [] [] same has
  refine ⟨recording.model.tape ++ recording.clock.tape, playback, v', ?_, played, same'.tree⟩
  have kept : ∀ kept ∈ [(Session.cassettePath s.dir Session.modelService,
        s.cassette today Session.modelService recording.model.tape),
      (Session.cassettePath s.dir Session.clockService,
        s.cassette today Session.clockService recording.clock.tape)], kept.2.IsAt kept.1 v.tree := by
    simpa using ⟨⟨model, readsModel⟩, ⟨clock, readsClock⟩⟩
  have loaded : ((World.shelf later).loadTape s.cassettes).run.run v =
      (.ok (recording.model.tape ++ (recording.clock.tape ++ [])), v) := Shelf.loadAll_run kept
  rwa [List.append_nil] at loaded

def answered : World :=
  { World.ofTree (.viewsOnly [("index.html.erb", "<p>posts</p>")]) [] with
    complete := fun k _ => .ok ⟨(Pipeline.blogAnswers[k]?).getD "", 12, 34⟩
    time := fun _ => ⟨20162, 43200, 0⟩ }

def besideSource : Session := ⟨⟨"."⟩, "first"⟩

def answeredRun : ((Path × Pipeline.Outcome × Pipeline.Status) × Recording) × World :=
  ((Command.conversion World.services.recorded .standard ⟨"in"⟩ ⟨"out"⟩ ⟨"log"⟩).run .start).run answered

def keepAnsweredRun (w : World) : Except SessionError Unit × World :=
  (besideSource.finish (World.shelf .epoch) answeredRun.1.2.released).run.run w

/-- What is told of the first run by running it: it completes, and its cassettes are kept and read. -/
theorem answeredRun_completes :
    answeredRun.1.1.1 = ⟨"log/snapshots/20250315_120000"⟩ ∧ answeredRun.1.1.2.1.isOk = true ∧
      answeredRun.1.1.2.2 = .complete ∧
      answeredRun.2.tree.exists? ⟨"out/converted_project/blog/urls.py"⟩ = true ∧
      (keepAnsweredRun answeredRun.2).1 = .ok () ∧ (keepAnsweredRun answered).1 = .ok () ∧
      (besideSource.cassette .epoch Session.clockService answeredRun.1.2.clock.tape).Reads ∧
      (besideSource.cassette .epoch Session.modelService answeredRun.1.2.model.tape).Reads := by
  decide +kernel

theorem conversion_replays_answered :
    ∃ w₂ v tape playback v' t, keepAnsweredRun answeredRun.2 = (.ok (), w₂) ∧
      World.Restored besideSource.places answered w₂ v ∧
      ((World.shelf .epoch).loadTape besideSource.cassettes).run.run v = (.ok tape, v) ∧
      ((Command.conversion (Services.replayed World.files) .standard ⟨"in"⟩ ⟨"out"⟩ ⟨"log"⟩).run
          (.ofTape tape)).run v =
        (((⟨"log/snapshots/20250315_120000"⟩, .ok t, .complete), playback), v') ∧
      ∀ q, q ∉ besideSource.places → v'.tree.node? q = answeredRun.2.tree.node? q := by
  have time : Instant.ofText? (Instant.mk 20162 43200 0).withZulu = some ⟨20162, 43200, 0⟩ := by
    decide +kernel
  have fits : ∀ n request c, answered.complete n request = .ok c → c.Fits := by
    rintro n request c ⟨⟩
    exact ⟨show 12 < pow2 32 by decide, show 34 < pow2 32 by decide⟩
  have legible : answered.Legible := ⟨.viewsOnly (by decide) (by decide), fits, fun _ => time⟩
  obtain ⟨directory, passed, status, -, kept, kept', readsClock, readsModel⟩ := answeredRun_completes
  obtain ⟨t, outcome⟩ : ∃ t, answeredRun.1.1.2.1 = .ok t := by
    generalize answeredRun.1.1.2.1 = outcome at passed
    cases outcome with
    | error e => cases passed
    | ok t => exact ⟨t, rfl⟩
  have ran : answeredRun = (((⟨"log/snapshots/20250315_120000"⟩, .ok t, .complete), answeredRun.1.2),
      answeredRun.2) := by
    rw [← directory, ← outcome, ← status]
  have finished : keepAnsweredRun answeredRun.2 = (.ok (), (keepAnsweredRun answeredRun.2).2) := by
    rw [← kept]
  have before : keepAnsweredRun answered = (.ok (), (keepAnsweredRun answered).2) := by rw [← kept']
  have restored := World.restored_of_finished legible.sound finished before
  obtain ⟨tape, playback, v', loaded, played, same⟩ := conversion_replays legible (by decide +kernel)
    (by decide +kernel) ran finished readsModel readsClock restored
  exact ⟨_, _, tape, playback, v', t, finished, restored, loaded, played, same⟩

end Transplant
