import Transplant.Proofs.Unnoticed

/-! What becomes of snapshots. Each stage that passes leaves the state behind it in a file of its own,
which nothing later touches, and whether that could be written changes nothing else about a run. -/
namespace Transplant.Pipeline

namespace Sequencer

variable {m : Type → Type} [Monad m] {q : Sequencer m}

def runOnly (q : Sequencer m) (stages : List Stage) (s : State) : m (Outcome × Status) := do
  if ← q.tools.files.contains s.inputRoot then q.runStages stages s
  else return (.error (.missingInput s.inputRoot), .aborted none)

theorem run_eq_runOnly (q : Sequencer m) (s : State) : q.run s = q.runOnly Stage.order s := rfl

variable [LawfulMonad m]

theorem runStages_append (q : Sequencer m) (stages more : List Stage) (s : State) :
    q.runStages (stages ++ more) s = do
      match ← q.runStages stages s with
      | (.ok next, _) => q.runStages more next
      | failed => return failed := by
  induction stages generalizing s with
  | nil => simp [runStages]
  | cons stage rest ih =>
    rw [List.cons_append, runStages, runStages, bind_assoc]
    congr 1
    funext ended
    rcases ended with ⟨e | next, status⟩
    · rw [pure_bind]
    · exact ih next

theorem runOnly_append (q : Sequencer m) (stages more : List Stage) (s : State) :
    q.runOnly (stages ++ more) s = do
      match ← q.runOnly stages s with
      | (.ok next, _) => q.runStages more next
      | failed => return failed := by
  rw [runOnly, runOnly, bind_assoc]
  congr 1
  funext there
  cases there with
  | false => simp
  | true => exact runStages_append q stages more s

end Sequencer

variable {σ : Type} {o : Outside σ} {name : String} {snapshots : Path}

theorem StagesRan.last {stages : List Stage} {stage : Stage} {s t : State} {calls : List Call}
    {status : Status} (ran : StagesRan name snapshots (stages ++ [stage]) s calls (.ok t, status)) :
    ∃ before result, calls = before ++ [snapshotCall snapshots stage t result] := by
  induction stages generalizing s calls with
  | nil =>
    cases ran with
    | next ran later =>
      cases later
      cases ran with
      | passed => exact ⟨_, _, List.append_nil _⟩
  | cons first rest ih =>
    cases ran with
    | next ran later =>
      obtain ⟨before, result, rfl⟩ := ih later
      exact ⟨_ ++ before, result, (List.append_assoc _ _ _).symm⟩

theorem StagesRan.progress {stages done : List Stage} {start s t : State} {before calls : List Call}
    {status : Status} (ran : StagesRan name snapshots stages s calls (.ok t, status))
    (progress : Progress name start done before s) :
    Progress name start (done ++ stages) (before ++ calls) t := by
  generalize ended : (Except.ok t, status) = r at ran
  induction ran generalizing done before with
  | done =>
    cases ended
    simpa using progress
  | @next stage rest s next calls more status r ran later ih =>
    cases ran with
    | @passed calls next result worked =>
      have tail := ih (progress.next worked (snapshotCall snapshots stage (next.passed stage) result)) ended
      simpa using tail
  | stopped ran =>
    cases ran
    cases ended

theorem StagesRan.changes {stages done : List Stage} {start s : State} {before calls : List Call}
    {r : Outcome × Status} (ran : StagesRan name snapshots stages s calls r)
    (order : Stage.order = done ++ stages) (progress : Progress name start done before s) :
    ∀ c ∈ calls, ∀ p, c.changed? = some p →
      (∃ stage ∈ stages, p = snapshots.join (Snapshot.fileName stage)) ∨
        (start.outputRoot.join name).Within p := by
  induction ran generalizing done before with
  | done => simp
  | @next stage rest s next calls more status r ran later ih =>
    cases ran with
    | @passed calls next result worked =>
      have within := progress.worksWithin order worked
      have behind := ih (by simp [order])
        (progress.next worked (snapshotCall snapshots stage (next.passed stage) result))
      intro c member p changed
      rcases List.mem_append.mp member with own | further
      · rcases List.mem_append.mp own with work | snapshot
        · exact .inr (within c work p changed).2.2
        · rw [List.mem_singleton.mp snapshot] at changed
          exact .inl ⟨stage, List.mem_cons_self, (Option.some.inj changed).symm⟩
      · exact (behind c further p changed).imp_left fun ⟨other, later, same⟩ =>
          ⟨other, List.mem_cons_of_mem _ later, same⟩
  | @stopped stage rest s calls e status ran =>
    cases ran with
    | failed worked =>
      exact fun c member p changed => .inr (progress.worksWithin order worked c member p changed).2.2

theorem place_snapshot (snapshots : Path) (stage : Stage) :
    (snapshots.join (Snapshot.fileName stage)).place = snapshots.place ++ [Snapshot.fileName stage] :=
  Path.place_join_entry snapshots (by cases stage <;> decide)

theorem Snapshot.fileName_inj {stage other : Stage} (same : fileName stage = fileName other) :
    stage = other := by
  revert same
  cases stage <;> cases other <;> decide

theorem StagesRan.spares_snapshot {done later : List Stage} {stage : Stage} {start s : State}
    {before calls : List Call} {r : Outcome × Status} (ran : StagesRan name snapshots later s calls r)
    (order : Stage.order = done ++ stage :: later)
    (progress : Progress name start (done ++ [stage]) before s)
    (apart : FileTree.Apart (start.outputRoot.join name).place snapshots.place) {p : Path} {text : String}
    {result : Except FileError Unit} (member : .write p text result ∈ calls) :
    (snapshots.join (Snapshot.fileName stage)).place ≠ p.place := by
  intro same
  rw [place_snapshot] at same
  rcases ran.changes (by simp [order]) progress _ member p rfl with ⟨other, further, snapshot⟩ | within
  · have distinct : Stage.order.Nodup := by decide
    rw [order] at distinct
    have differ := (List.nodup_cons.mp (List.nodup_append.mp distinct).2.1).1
    rw [snapshot, place_snapshot, List.append_cancel_left_eq, List.singleton_inj] at same
    exact differ (Snapshot.fileName_inj same ▸ further)
  · exact apart.not_within [Snapshot.fileName stage] (same ▸ within.place)

theorem runOnly_meets (stages : List Stage) (s : State) :
    Meets o ((o.sequencer name snapshots).runOnly stages s) fun calls r =>
      ∀ t, r.1 = .ok t → ∃ more, calls = .contains s.inputRoot true :: more ∧
        StagesRan name snapshots stages s more r := by
  apply (Meets.contains s.inputRoot).bind
  rintro _ there rfl
  cases there with
  | false => exact .pure (by simp)
  | true =>
    apply (Sequencer.runStages_meets name snapshots stages s).mono
    exact fun more r ran t _ => ⟨more, rfl, ran⟩

/-- The state behind a stage that has passed is in the snapshot of the stage, if it could be written, and
it stays there. -/
theorem snapshot_keeps_state {tree : σ → FileTree} (on : o.HasTree tree) {s t : State}
    (apart : FileTree.Apart (s.outputRoot.join name).place snapshots.place)
    {done later : List Stage} {stage : Stage} (order : Stage.order = done ++ stage :: later)
    {e e₁ e₂ : σ} {front calls : List Call} {status : Status} {r : Outcome × Status}
    (part : ((o.sequencer name snapshots).runOnly (done ++ [stage]) s).run (e, []) =
      ((.ok t, status), e₁, front))
    (whole : ((o.sequencer name snapshots).run s).run (e, []) = (r, e₂, calls)) :
    t.lastStage = some stage ∧ ∃ before result more,
      front = before ++ [snapshotCall snapshots stage t result] ∧ calls = front ++ more ∧
      (result = .ok () →
        (tree e₂).contentsAt? (snapshots.join (Snapshot.fileName stage)).place =
          some (.ofText (Snapshot.text t))) := by
  have split : Stage.order = (done ++ [stage]) ++ later := by simp [order]
  obtain ⟨leads, ended⟩ := (runOnly_meets (o := o) (done ++ [stage]) s).of_run part
  obtain ⟨own, rfl, ran⟩ := ended t rfl
  have progress := ran.progress (.start name s)
  obtain ⟨before, result, rfl⟩ := ran.last
  obtain ⟨more, r', e', does, leads', ran'⟩ :=
    Sequencer.runStages_meets (o := o) name snapshots later t e₁
  have rest := does (.contains s.inputRoot true :: (before ++ [snapshotCall snapshots stage t result]))
  rw [Sequencer.run_eq_runOnly, split, Sequencer.runOnly_append, StateT.run_bind, part] at whole
  cases rest.symm.trans whole
  refine ⟨progress.last stage (by simp), .contains s.inputRoot true :: before, result, more, rfl, rfl, ?_⟩
  rintro rfl
  have there : (tree e₁).contentsAt? (snapshots.join (Snapshot.fileName stage)).place =
      some (.ofText (Snapshot.text t)) := by
    rw [← List.cons_append] at leads
    obtain ⟨mid, _, wrote⟩ := leads.split
    cases wrote with
    | cons answer rest =>
      cases rest
      exact (on mid _ e₁ answer).written
  rw [← there]
  apply leads'.contentsAt? on
  intro p text written member
  exact ran'.spares_snapshot order progress apart member

variable {τ : Type}

theorem outsideWith_hasTree (c : Collaborator (StateM τ)) :
    (World.outsideWith c).HasTree fun e => e.1.tree := by
  intro e call e' answer
  cases call with
  | asked q r => cases answer; exact .none rfl
  | _ => cases answer; exact World.outside_hasTree e.1 _ _ rfl

theorem run_of_not_exists (c : Collaborator (StateM τ)) (name : String) (snapshots : Path) {s : State}
    (memory : τ) {w : World} (gone : w.tree.exists? s.inputRoot = false) :
    (((World.outsideWith c).sequencer name snapshots).run s).run ((w, memory), []) =
      ((.error (.missingInput s.inputRoot), .aborted none),
        (w.log (.contains s.inputRoot), memory), [.contains s.inputRoot false]) := by
  rw [Sequencer.run, StateT.run_bind]
  change (if w.tree.exists? s.inputRoot then _ else _ : Recorded (World × τ) _).run
    ((w.log (.contains s.inputRoot), memory), [.contains s.inputRoot (w.tree.exists? s.inputRoot)]) = _
  rw [gone]
  rfl

variable {w v : World} {s : State}

/-- Two runs from one tree come equally far. -/
theorem run_unmoved (c : Collaborator (StateM τ)) (name : String) (memory : τ)
    (start : World.Parallel snapshots w.tree w v) (same : v.tree = w.tree) (fromInput : snapshots.Separate s.inputRoot)
    (fromRoot : snapshots.Separate (s.outputRoot.join name))
    (passes : (s.outputRoot.join name).PassesDirs snapshots w.tree) :
    let run := ((World.outsideWith c).sequencer name snapshots).run s
    (run.run ((v, memory), [])).1 = (run.run ((w, memory), [])).1 ∧
      Unmoved snapshots w.tree (run.run ((w, memory), [])).2 (run.run ((v, memory), [])).2 := by
  intro run
  cases there : w.tree.exists? s.inputRoot with
  | false =>
    have first := run_of_not_exists c name snapshots memory there
    have second := run_of_not_exists c name snapshots memory (same ▸ there)
    change run.run _ = _ at first second
    rw [first, second]
    exact ⟨rfl, start.log _ _, rfl, rfl⟩
  | true =>
    obtain ⟨sub, found⟩ := FileTree.find_of_exists there
    -- A project whose name is no entry is never begun.
    let roots := [s.outputRoot.join name].filter fun _ => Build.isEntry name
    have nearRoot : Build.isEntry name = true → (s.outputRoot.join name).Near roots :=
      fun entry => ⟨_, by simp [roots, entry], .refl _⟩
    have fromRoots : ∀ root ∈ roots, snapshots.Separate root ∧ root.PassesDirs snapshots w.tree := by
      intro root member
      rw [List.mem_singleton.mp (List.mem_of_mem_filter member)]
      exact ⟨fromRoot, passes⟩
    have files := observing_files c (fun x on => FileTree.some_of_find found on) fromInput fromRoots
    have nearInput : s.inputRoot.Near [s.inputRoot] := ⟨s.inputRoot, by simp, .refl _⟩
    have agree : Unnoticed snapshots w.tree run run fun _ => True :=
      Agreement.run files (Unnoticed.ask c) nearInput nearRoot (Unnoticed.capture c)
    obtain ⟨value, _, unmoved⟩ := agree ((w, memory), []) ((v, memory), []) ⟨start, rfl, rfl⟩
    exact ⟨value, unmoved⟩

/-- Which snapshots can be written changes nothing else about a run: not its outcome and its status, not
its questions and its other calls, and of the files not what is outside the snapshots, but for the
directories above them that were missing. Each snapshot that is written keeps the state behind its
stage. -/
theorem snapshots_only_observe (c : Collaborator (StateM τ)) (name : String) (snapshots : Path)
    (s : State) (memory : τ) {w v : World} (same : v.tree = w.tree) (sound : w.tree.Sound)
    (faults : ∀ access p, ¬ (access = .write ∧ snapshots.Within p) →
      v.fault? access p = w.fault? access p)
    (fromInput : snapshots.Separate s.inputRoot) (fromRoot : snapshots.Separate (s.outputRoot.join name))
    (passes : (s.outputRoot.join name).PassesDirs snapshots w.tree) :
    ∃ r e e' calls calls',
      (((World.outsideWith c).sequencer name snapshots).run s).run ((w, memory), []) = (r, e, calls) ∧
      (((World.outsideWith c).sequencer name snapshots).run s).run ((v, memory), []) = (r, e', calls') ∧
      besidesSnapshots snapshots calls' = besidesSnapshots snapshots calls ∧
      (∀ q, ¬ snapshots.place <+: q → e'.1.tree.node? q = e.1.tree.node? q ∨
        q ∈ snapshots.way ∧ w.tree.node? q = none ∧ e.1.tree.Open q ∧ e'.1.tree.Open q) ∧
      ∀ done stage later, Stage.order = done ++ stage :: later → ∀ t status e₁ front,
        (((World.outsideWith c).sequencer name snapshots).runOnly (done ++ [stage]) s).run
          ((w, memory), []) = ((.ok t, status), e₁, front) →
        t.lastStage = some stage ∧ ∃ before result more,
          front = before ++ [snapshotCall snapshots stage t result] ∧ calls = front ++ more ∧
          (result = .ok () →
            e.1.tree.contentsAt? (snapshots.join (Snapshot.fileName stage)).place =
              some (.ofText (Snapshot.text t))) := by
  have start : World.Parallel snapshots w.tree w v :=
    ⟨by rw [same]; exact .refl _ _, sound, same ▸ sound, .refl _, by rw [same]; exact .refl _, faults⟩
  obtain ⟨value, unmoved⟩ := run_unmoved c name memory start same fromInput fromRoot passes
  rcases first : (((World.outsideWith c).sequencer name snapshots).run s).run ((w, memory), [])
    with ⟨r, e, calls⟩
  rcases second : (((World.outsideWith c).sequencer name snapshots).run s).run ((v, memory), [])
    with ⟨r', e', calls'⟩
  rw [first, second] at value unmoved
  cases value
  refine ⟨r, e, e', calls, calls', rfl, rfl, unmoved.calls, ?_, ?_⟩
  · intro q apart
    rcases unmoved.world.aside q apart with alike | ⟨on, opened, opened'⟩
    · exact .inl alike
    · by_cases there : w.tree.node? q = none
      · exact .inr ⟨on, there, opened, opened'⟩
      · exact .inl (unmoved.world.same there apart)
  · intro done stage later order t status e₁ front part
    have kept := snapshot_keeps_state (outsideWith_hasTree c) fromRoot.apart.symm order part first
    exact kept

def snapshotFaults (snapshots : Path) : List Fault :=
  Stage.order.map fun stage => ⟨.write, snapshots.join (Snapshot.fileName stage), "disk full"⟩

theorem faults_of_snapshots (snapshots : Path) (tree : FileTree) (access : Access) (p : Path)
    (other : ¬ (access = .write ∧ snapshots.Within p)) :
    (World.ofTree tree (snapshotFaults snapshots)).fault? access p =
      (World.ofTree tree []).fault? access p := by
  have spared : ∀ f ∈ snapshotFaults snapshots, ¬ (f.access == access && f.path.samePlace p) = true := by
    intro f member here
    obtain ⟨stage, _, rfl⟩ := List.mem_map.mp member
    rw [Bool.and_eq_true, beq_iff_eq, Path.samePlace, beq_iff_eq] at here
    obtain ⟨write, place⟩ := here
    obtain ⟨tail, normal, split⟩ := (snapshot_below snapshots stage).within
    have within : snapshots.Within p := ⟨tail, normal, by rw [← place, split]⟩
    exact other ⟨write.symm, within⟩
  rw [World.fault?, World.ofTree, List.find?_eq_none.mpr spared]
  rfl

def wordy : Collaborator (StateM (List String)) where
  ask _
    | [] => (.error "no reply", [])
    | word :: words => (.ok word, words)

def wordyRun (words : List String) (snapshots output : Path) (tree : FileTree) (faults : List Fault) :
    (Outcome × Status) × (World × List String) × List Call :=
  (((World.outsideWith wordy).sequencer "site" snapshots).run (.fresh ⟨"in"⟩ output)).run
    ((World.ofTree tree faults, words), [])

def onePage : FileTree := .viewsOnly [("index.html.erb", "<p>posts</p>")]

def firstRun : Path := ⟨"logs/snapshots/19700101_000000"⟩

/-- An output root that steps back out of the source, and goes on below a directory above the snapshots. -/
def besideLogs : Path := ⟨"in/../logs/out"⟩

theorem snapshots_only_observe_full_disk :
    onePage.Sound ∧ firstRun.Separate ⟨"in"⟩ ∧ firstRun.Separate (besideLogs.join "site") ∧
      onePage.node? ["logs"] = none ∧ (besideLogs.join "site").PassesDirs firstRun onePage ∧
      ∃ t e e' calls calls',
        wordyRun blogAnswers firstRun besideLogs onePage [] = ((.ok t, .complete), e, calls) ∧
        wordyRun blogAnswers firstRun besideLogs onePage (snapshotFaults firstRun) =
          ((.ok t, .complete), e', calls') ∧
        e.1.tree.exists? ⟨"logs/out/site/blog/urls.py"⟩ = true ∧
        besidesSnapshots firstRun calls' = besidesSnapshots firstRun calls := by
  have sound : onePage.Sound := .viewsOnly (by decide) (by decide)
  have same : (World.ofTree onePage (snapshotFaults firstRun)).tree = (World.ofTree onePage []).tree := rfl
  have fromInput : firstRun.Separate ⟨"in"⟩ := by decide
  have fromRoot : firstRun.Separate (besideLogs.join "site") := by decide
  have passes : (besideLogs.join "site").PassesDirs firstRun onePage := by decide
  obtain ⟨r, e, e', calls, calls', first, second, besides, _⟩ :=
    snapshots_only_observe wordy "site" firstRun (.fresh ⟨"in"⟩ besideLogs) blogAnswers same sound
      (faults_of_snapshots firstRun onePage) fromInput fromRoot passes
  have ended : (wordyRun blogAnswers firstRun besideLogs onePage []).1.1.isOk = true ∧
      (wordyRun blogAnswers firstRun besideLogs onePage []).1.2 = .complete ∧
      (wordyRun blogAnswers firstRun besideLogs onePage []).2.1.1.tree.exists?
        ⟨"logs/out/site/blog/urls.py"⟩ = true := by
    decide +kernel
  change wordyRun blogAnswers firstRun besideLogs onePage [] = _ at first
  change wordyRun blogAnswers firstRun besideLogs onePage (snapshotFaults firstRun) = _ at second
  rw [first] at ended
  obtain ⟨outcome, status⟩ := r
  obtain ⟨passed, rfl, written⟩ := ended
  cases outcome with
  | error e => cases passed
  | ok t =>
    exact ⟨sound, fromInput, fromRoot, by decide, passes, t, e, e', calls, calls', first, second, written,
      besides⟩

def fileBeside : FileTree := .dir [("f", .file (.ofText "")), ("in", .dir [])]

/-- Directories above the snapshots are there or not, and a project whose path leads through one of them
fails in another way when it is not. -/
theorem snapshots_noticed :
    (FileTree.Apart firstRun.place (Path.mk "in").place ∧
      FileTree.Apart firstRun.place (Path.mk "out/site").place ∧ ¬ firstRun.place <+: ["logs"] ∧
      (wordyRun ["o"] firstRun ⟨"out"⟩ onePage []).2.1.1.tree.node? ["logs"] = some .dir ∧
      (wordyRun ["o"] firstRun ⟨"out"⟩ onePage (snapshotFaults firstRun)).2.1.1.tree.node? ["logs"] =
        none) ∧
    FileTree.Apart (Path.mk "m/log").place (Path.mk "in").place ∧
      FileTree.Apart (Path.mk "m/log").place (Path.mk "m/../f/site").place ∧
      (wordyRun ["o", "s", "p"] ⟨"m/log"⟩ ⟨"m/../f"⟩ fileBeside []).1 =
        (.error (.fileSystem .build (.io ⟨"m/../f/site/manage.py"⟩ .notDirectory)),
          .aborted (some .build)) ∧
      (wordyRun ["o", "s", "p"] ⟨"m/log"⟩ ⟨"m/../f"⟩ fileBeside (snapshotFaults ⟨"m/log"⟩)).1 =
        (.error (.fileSystem .build (.io ⟨"m/../f/site/manage.py"⟩ .alreadyExists)),
          .aborted (some .build)) := by
  refine ⟨⟨⟨by decide, by decide⟩, ⟨by decide, by decide⟩, by decide, ?_, ?_⟩, ⟨by decide, by decide⟩,
    ⟨by decide, by decide⟩, ?_, ?_⟩ <;> decide +kernel

end Transplant.Pipeline
