import Transplant.Pipeline.Sequencer
import Transplant.Proofs.Containment

/-! Two runs that agree. A run reaches files and a collaborator through its tools alone, so it ends
alike with two sets of tools that agree call by call. What it means for two computations to agree is
left open here, but for what goes with values and with sequences. -/
namespace Transplant

open Pipeline (Stage Outcome Status)

variable {m n : Type → Type} [Monad m] [Monad n] {α β ε : Type}

/-- What it may mean for two computations to agree: both give the same value, of which something is
known. -/
structure Agreement (m n : Type → Type) [Monad m] [Monad n] where
  Agree : {α : Type} → m α → n α → (α → Prop) → Prop
  pure {α : Type} {P : α → Prop} {a : α} (holds : P a) : Agree (Pure.pure a) (Pure.pure a) P
  bind {α β : Type} {x : m α} {y : n α} {f : α → m β} {g : α → n β} {P : α → Prop} {Q : β → Prop}
    (first : Agree x y P) (rest : ∀ a, P a → Agree (f a) (g a) Q) : Agree (x >>= f) (y >>= g) Q
  mono {α : Type} {x : m α} {y : n α} {P Q : α → Prop} (agree : Agree x y P)
    (implies : ∀ a, P a → Q a) : Agree x y Q

def Path.Near (dirs : List Path) (p : Path) : Prop := ∃ dir ∈ dirs, dir.Within p

theorem Path.Near.within {dirs : List Path} {p q : Path} (near : p.Near dirs) (within : p.Within q) :
    q.Near dirs := by
  obtain ⟨dir, member, above⟩ := near
  exact ⟨dir, member, above.trans within⟩

namespace Agreement

variable {A : Agreement m n} {looks changes : List Path} {fs : FileSystem m} {gs : FileSystem n}
  {c : Collaborator m} {d : Collaborator n} {name : String}

/-- Computations that can fail agree in how they fail, too. -/
def Attempts (A : Agreement m n) (x : ExceptT ε m α) (y : ExceptT ε n α) (P : α → Prop) : Prop :=
  A.Agree x.run y.run fun r => ∀ a, r = .ok a → P a

namespace Attempts

theorem throw {P : α → Prop} (e : ε) :
    A.Attempts (ExceptT.mk (Pure.pure (.error e))) (ExceptT.mk (Pure.pure (.error e))) P :=
  A.pure fun _ same => nomatch same

theorem pure {P : α → Prop} {a : α} (holds : P a) :
    A.Attempts (Pure.pure a : ExceptT ε m α) (Pure.pure a) P :=
  A.pure fun _ same => Except.ok.inj same ▸ holds

theorem bind {x : ExceptT ε m α} {y : ExceptT ε n α} {f : α → ExceptT ε m β}
    {g : α → ExceptT ε n β} {P : α → Prop} {Q : β → Prop} (first : A.Attempts x y P)
    (rest : ∀ a, P a → A.Attempts (f a) (g a) Q) : A.Attempts (x >>= f) (y >>= g) Q := by
  apply A.bind first
  intro r holds
  cases r with
  | error e => exact throw e
  | ok a => exact rest a (holds a rfl)

theorem mono {x : ExceptT ε m α} {y : ExceptT ε n α} {P Q : α → Prop} (attempts : A.Attempts x y P)
    (implies : ∀ a, P a → Q a) : A.Attempts x y Q :=
  A.mono attempts fun _ holds a same => implies a (holds a same)

theorem fetch [LawfulMonad m] [LawfulMonad n] {x : m α} {y : n α} {f : α → ExceptT ε m β}
    {g : α → ExceptT ε n β} {P : α → Prop} {Q : β → Prop} (first : A.Agree x y P)
    (rest : ∀ a, P a → A.Attempts (f a) (g a) Q) :
    A.Attempts (ExceptT.lift x >>= f) (ExceptT.lift y >>= g) Q := by
  rw [Attempts, ExceptT.run_bind_lift, ExceptT.run_bind_lift]
  exact A.bind first rest

end Attempts

/-- The files are the same to look at near some directories, and to change near some. A walk lists what
is within its path. -/
structure Files (A : Agreement m n) (looks changes : List Path) (fs : FileSystem m)
    (gs : FileSystem n) : Prop where
  read {p : Path} (near : p.Near looks) : A.Agree (fs.read p) (gs.read p) fun _ => True
  write {p : Path} (near : p.Near changes) (text : String) :
    A.Agree (fs.write p text) (gs.write p text) fun _ => True
  createDir {p : Path} (near : p.Near changes) :
    A.Agree (fs.createDir p) (gs.createDir p) fun _ => True
  contains {p : Path} (near : p.Near looks) : A.Agree (fs.contains p) (gs.contains p) fun _ => True
  walk {p : Path} (near : p.Near looks) : A.Agree (fs.walk p) (gs.walk p)
    fun r => ∀ files, r = .ok files → ∀ q ∈ files, p.Within q

def Answers (A : Agreement m n) (c : Collaborator m) (d : Collaborator n) : Prop :=
  ∀ q, A.Agree (c.ask q) (d.ask q) fun _ => True

namespace Files

section Survey

theorem readOrEmpty (files : A.Files looks changes fs gs) {p : Path} (near : p.Near looks) :
    A.Agree (fs.readOrEmpty p) (gs.readOrEmpty p) fun _ => True := by
  apply A.bind (files.read near)
  intro r _
  cases r <;> exact A.pure trivial

theorem list (files : A.Files looks changes fs gs) {dir : Path} (near : dir.Near looks) :
    A.Agree (fs.list dir) (gs.list dir) fun found => ∀ p ∈ found, dir.Within p := by
  apply A.bind (files.contains near)
  intro there _
  cases there with
  | false => exact A.pure (by simp)
  | true =>
    apply A.bind (files.walk near)
    intro r within
    cases r with
    | error e => exact A.pure (by simp)
    | ok found => exact A.pure (within found rfl)

open Rails.Survey

theorem rubyFiles (files : A.Files looks changes fs gs) {dir : Path} (near : dir.Near looks) :
    A.Agree (rubyFiles fs dir) (rubyFiles gs dir) fun found => ∀ p ∈ found, p.Near looks := by
  apply A.bind (files.list near)
  intro found within
  exact A.pure fun p member => near.within (within p ((List.mem_filter.mp member).1))

theorem templateFiles (files : A.Files looks changes fs gs) {views : Path} (near : views.Near looks) :
    A.Agree (templateFiles fs views) (templateFiles gs views)
      fun found => ∀ t ∈ found, t.1.Near looks := by
  apply A.bind (files.list near)
  intro found within
  apply A.pure
  rintro ⟨source, target⟩ member
  obtain ⟨p, listed, named⟩ := List.mem_filterMap.mp member
  cases Rails.Template.named?_source named
  exact near.within (within _ listed)

theorem readAll (files : A.Files looks changes fs gs) (read? : String → Option α) {paths : List Path}
    (near : ∀ p ∈ paths, p.Near looks) :
    A.Agree (readAll fs read? paths) (readAll gs read? paths) fun _ => True := by
  induction paths with
  | nil => exact A.pure trivial
  | cons p rest ih =>
    rw [List.forall_mem_cons] at near
    apply A.bind (files.readOrEmpty near.1)
    intro text _
    apply A.bind (ih near.2)
    intro more _
    exact A.pure trivial

theorem routes (files : A.Files looks changes fs gs) {file : Path} (near : file.Near looks) :
    A.Agree (routes fs file) (routes gs file) fun _ => True := by
  apply A.bind (files.contains near)
  intro there _
  cases there with
  | false => exact A.pure trivial
  | true =>
    apply A.bind (files.readOrEmpty near)
    intro text _
    exact A.pure trivial

theorem templates (files : A.Files looks changes fs gs) {found : List (Path × String)}
    (near : ∀ t ∈ found, t.1.Near looks) :
    A.Agree (templates fs found) (templates gs found) fun _ => True := by
  induction found with
  | nil => exact A.pure trivial
  | cons t rest ih =>
    rw [List.forall_mem_cons] at near
    apply A.bind (files.readOrEmpty near.1)
    intro text _
    apply A.bind (ih near.2)
    intro more _
    exact A.pure trivial

theorem survey (files : A.Files looks changes fs gs) {root : Path} (near : root.Near looks) :
    A.Agree (run fs root) (run gs root) fun _ => True := by
  have below : ∀ dir, Build.staysBelow dir = true → (root.join dir).Near looks :=
    fun dir stays => near.within ((Path.Within.refl root).join stays)
  apply A.bind (files.rubyFiles (below modelsDir (by decide)))
  intro modelFiles nearModels
  apply A.bind (files.readAll Rails.Record.ofText? nearModels)
  intro records _
  apply A.bind (files.rubyFiles (below controllersDir (by decide)))
  intro controllerFiles nearControllers
  apply A.bind (files.readAll Rails.Controller.ofText? nearControllers)
  intro controllers _
  apply A.bind (files.routes (below routesFile (by decide)))
  intro routes _
  apply A.bind (files.templateFiles (below viewsDir (by decide)))
  intro views nearViews
  apply A.bind (files.templates nearViews)
  intro templates _
  exact A.pure trivial

end Survey

section Build

open Build

theorem onPath {x : m (Except FileError Unit)} {y : n (Except FileError Unit)}
    (agree : A.Agree x y fun _ => True) (p : Path) {P : Unit → Prop} (holds : P ()) :
    A.Attempts (onPath p x) (onPath p y) P := by
  apply A.bind agree
  intro r _
  cases r with
  | error e => exact Attempts.throw _
  | ok => exact Attempts.pure holds

theorem step (files : A.Files looks changes fs gs) {s : Step} (near : ∀ p, s.path? = some p → p.Near changes) :
    A.Attempts (s.run fs) (s.run gs) fun _ => ∀ e, s ≠ .refuse e := by
  cases s with
  | write p text => exact onPath (files.write (near p rfl) text) p (by simp)
  | createDir p => exact onPath (files.createDir (near p rfl)) p (by simp)
  | refuse e => exact Attempts.throw e

theorem runAll (files : A.Files looks changes fs gs) {steps : List Step}
    (near : ∀ s ∈ steps, ∀ p, s.path? = some p → p.Near changes) :
    A.Attempts (runAll fs steps) (runAll gs steps) fun _ => ∀ e, .refuse e ∉ steps := by
  induction steps with
  | nil => exact Attempts.pure (by simp)
  | cons s rest ih =>
    rw [List.forall_mem_cons] at near
    apply (files.step near.1).bind
    intro _ here
    exact (ih near.2).mono fun _ later e member =>
      (List.mem_cons.mp member).elim (fun same => here e same.symm) (later e)

theorem scaffold (files : A.Files looks changes fs gs) {root : Path}
    (near : isEntry name = true → root.Near changes) (plan : Plan) :
    A.Attempts (scaffold fs plan root name) (scaffold gs plan root name)
      fun _ => isEntry name = true := by
  have steps : ∀ s ∈ Scaffold.steps plan root name, ∀ p, s.path? = some p → p.Near changes := by
    intro s member p path
    cases entry : isEntry name with
    | false =>
      simp only [Scaffold.steps, entry, Bool.not_false, if_true, List.mem_singleton] at member
      subst member
      cases path
    | true => exact (near entry).within (stepsWithin_scaffold plan root name s member p path)
  apply (files.runAll steps).bind
  intro _ accepted
  apply Attempts.pure
  cases entry : isEntry name with
  | true => rfl
  | false => exact absurd (by simp [Scaffold.steps, entry]) (accepted (.unsafePath name))

theorem generate (files : A.Files looks changes fs gs) {root : Path} (near : root.Near changes) (plan : Plan) :
    A.Attempts (generate fs plan root) (generate gs plan root) fun _ => True := by
  have steps : ∀ s ∈ Apps.steps plan root, ∀ p, s.path? = some p → p.Near changes :=
    fun s member p path => near.within (stepsWithin_apps plan root s member p path)
  apply (files.runAll steps).bind
  intro _ _
  exact Attempts.pure trivial

variable [LawfulMonad m] [LawfulMonad n]

theorem convertAll (files : A.Files looks changes fs gs) {root : Path} (near : root.Near changes)
    {templates : List (Path × String)} (sources : ∀ t ∈ templates, t.1.Near looks) :
    A.Attempts (convertAll fs root templates) (convertAll gs root templates) fun _ => True := by
  induction templates with
  | nil => exact Attempts.pure trivial
  | cons t rest ih =>
    obtain ⟨source, target⟩ := t
    rw [List.forall_mem_cons] at sources
    apply Attempts.fetch (files.readOrEmpty sources.1)
    intro text _
    have step : ∀ p, (conversionStep root target text).path? = some p → p.Near changes :=
      fun p path => near.within
        (stepsWithin_conversion root target text _ (List.mem_singleton.mpr rfl) p path)
    apply (files.step step).bind
    intro _ _
    apply (ih sources.2).bind
    intro targets _
    exact Attempts.pure trivial

theorem convertTemplates (files : A.Files looks changes fs gs) {views root : Path}
    (nearViews : views.Near looks) (nearRoot : root.Near changes) :
    A.Attempts (convertTemplates fs views root) (convertTemplates gs views root) fun _ => True := by
  apply Attempts.fetch (files.templateFiles nearViews)
  intro templates sources
  exact files.convertAll nearRoot sources

theorem buildProject (files : A.Files looks changes fs gs) {views root : Path}
    (nearViews : views.Near looks) (nearRoot : isEntry name = true → root.Near changes) (plan : Plan) :
    A.Attempts (Pipeline.Tools.buildProject ⟨fs, c, name⟩ plan views root)
      (Pipeline.Tools.buildProject ⟨gs, d, name⟩ plan views root) fun _ => isEntry name = true := by
  apply (files.scaffold nearRoot plan).bind
  intro scaffold entry
  apply (files.generate (nearRoot entry) plan).bind
  intro project _
  apply (files.convertTemplates nearViews (nearRoot entry)).bind
  intro converted _
  exact Attempts.pure entry

end Build

end Files

/-- What a run keeps of the state that it started from, and the project that it has built. -/
structure Since (start : Pipeline.State) (name : String) (done : List Stage) (s : Pipeline.State) :
    Prop where
  inputRoot : s.inputRoot = start.inputRoot
  outputRoot : s.outputRoot = start.outputRoot
  project : .build ∈ done →
    Build.isEntry name = true ∧ s.projectRoot = some (start.outputRoot.join name)

namespace Since

theorem start (s : Pipeline.State) (name : String) : Since s name [] s := ⟨rfl, rfl, by simp⟩

theorem next {origin s t : Pipeline.State} {done : List Stage} {stage : Stage}
    (since : Since origin name done s) (other : stage ≠ .build)
    (kept : t.inputRoot = s.inputRoot ∧ t.outputRoot = s.outputRoot ∧ t.projectRoot = s.projectRoot) :
    Since origin name (done ++ [stage]) t := by
  obtain ⟨input, output, project⟩ := kept
  refine ⟨input.trans since.inputRoot, output.trans since.outputRoot, fun built => ?_⟩
  rw [project]
  exact since.project (by simpa [Ne.symm other] using built)

end Since

section Stages

open Pipeline

theorem required {stage : Stage} {field : Field} (x : Option α) :
    A.Attempts (required (m := m) stage field x) (required (m := n) stage field x)
      fun a => x = some a := by
  cases x with
  | none => exact Attempts.throw _
  | some a => exact Attempts.pure rfl

theorem inStage {stage : Stage} {x : ExceptT BuildError m α} {y : ExceptT BuildError n α}
    {P : α → Prop} (attempts : A.Attempts x y P) :
    A.Attempts (Tools.inStage stage x) (Tools.inStage stage y) P := by
  apply A.bind attempts
  intro r holds
  cases r with
  | error e => exact Attempts.throw _
  | ok a => exact Attempts.pure (holds a rfl)

theorem ask (answers : A.Answers c d) (stage : Stage) (q : Question) :
    A.Attempts (Tools.ask ⟨fs, c, name⟩ stage q) (Tools.ask ⟨gs, d, name⟩ stage q) fun _ => True := by
  apply A.bind (answers q)
  intro r _
  cases r with
  | error e => exact Attempts.throw _
  | ok a => exact Attempts.pure trivial

theorem writeDocument (files : A.Files looks changes fs gs) {p : Path} (near : p.Near changes)
    (text : String) :
    A.Attempts (Tools.writeDocument ⟨fs, c, name⟩ p text) (Tools.writeDocument ⟨gs, d, name⟩ p text)
      fun _ => True :=
  inStage (Files.onPath (files.write near text) p trivial)

/-- Whatever becomes of it, a snapshot is tried by both. -/
def Captures (A : Agreement m n) (snapshots : Path) (fs : FileSystem m) (gs : FileSystem n) : Prop :=
  ∀ stage s, A.Agree (Snapshot.capture fs snapshots stage s) (Snapshot.capture gs snapshots stage s)
    fun _ => True

theorem Files.captures {snapshots : Path} (files : A.Files looks changes fs gs)
    (near : snapshots.Near changes) : A.Captures snapshots fs gs := by
  intro stage s
  apply A.bind (files.write (near.within (snapshot_below snapshots stage).within) _)
  intro _ _
  exact A.pure trivial

variable {snapshots : Path} {start s : State} {stage : Stage} {done later : List Stage}
  (files : A.Files looks changes fs gs) (answers : A.Answers c d)
  (nearInput : start.inputRoot.Near looks)
  (nearRoot : Build.isEntry name = true → (start.outputRoot.join name).Near changes)

include files answers nearRoot in
theorem integrate (since : Since start name done s) (built : .build ∈ done) :
    A.Attempts (Tools.integrate ⟨fs, c, name⟩ s) (Tools.integrate ⟨gs, d, name⟩ s)
      (Since start name (done ++ [.integrate])) := by
  obtain ⟨entry, project⟩ := since.project built
  apply (required s.projectRoot).bind
  intro root there
  have near : root.Near changes := by
    rw [project] at there
    exact Option.some.inj there ▸ nearRoot entry
  have document : ∀ file, Build.staysBelow file = true → (root.join file).Near changes :=
    fun file stays => near.within ((Path.Within.refl root).join stays)
  apply (required s.application).bind
  intro app _
  apply (required s.plan).bind
  intro plan _
  apply (ask answers .integrate (.description app plan)).bind
  intro readme _
  apply (writeDocument files (document "README.md" (by decide)) _).bind
  intro _ _
  apply (ask answers .integrate .requirements).bind
  intro requirements _
  apply (writeDocument files (document "requirements.txt" (by decide)) _).bind
  intro _ _
  exact Attempts.pure (since.next (by decide) ⟨rfl, rfl, rfl⟩)

variable [LawfulMonad m] [LawfulMonad n]

include files nearInput nearRoot

theorem build (since : Since start name done s) :
    A.Attempts (Tools.build ⟨fs, c, name⟩ s) (Tools.build ⟨gs, d, name⟩ s)
      (Since start name (done ++ [.build])) := by
  have views := nearInput.within
    ((Path.Within.refl _).join (show Build.staysBelow Rails.Survey.viewsDir = true by decide))
  rw [← since.inputRoot] at views
  rw [← since.outputRoot] at nearRoot
  apply (required s.plan).bind
  intro plan _
  apply (inStage (files.buildProject views nearRoot plan)).bind
  intro project entry
  exact Attempts.pure ⟨since.inputRoot, since.outputRoot, fun _ => ⟨entry, by rw [since.outputRoot]⟩⟩

include answers

theorem work (since : Since start name done s) (order : Stage.order = done ++ stage :: later) :
    A.Attempts (Tools.work ⟨fs, c, name⟩ stage s) (Tools.work ⟨gs, d, name⟩ stage s)
      (Since start name (done ++ [stage])) := by
  cases stage with
  | plan =>
    apply (ask answers .plan (.outline s.inputRoot)).bind
    intro outline _
    exact Attempts.pure (since.next (by decide) ⟨rfl, rfl, rfl⟩)
  | discovery =>
    apply Attempts.fetch (files.survey (since.inputRoot ▸ nearInput))
    intro app _
    apply (ask answers .discovery (.summary app)).bind
    intro summary _
    exact Attempts.pure (since.next (by decide) ⟨rfl, rfl, rfl⟩)
  | convert =>
    apply (required s.application).bind
    intro app _
    apply (ask answers .convert (.plan app (s.summary.getD ""))).bind
    intro text _
    exact Attempts.pure (since.next (by decide) ⟨rfl, rfl, rfl⟩)
  | build => exact build files nearInput nearRoot since
  | integrate =>
    have built : .build ∈ done := by
      rw [Stage.front order]
      decide
    exact integrate files answers nearRoot since built

theorem runStage (captures : A.Captures snapshots fs gs) (since : Since start name done s)
    (order : Stage.order = done ++ stage :: later) :
    A.Agree (Sequencer.runStage ⟨⟨fs, c, name⟩, snapshots⟩ stage s)
      (Sequencer.runStage ⟨⟨gs, d, name⟩, snapshots⟩ stage s)
      fun r => ∀ next, r.1 = .ok next → Since start name (done ++ [stage]) next := by
  unfold Sequencer.runStage
  cases s.missingFor stage with
  | some field => exact A.pure fun _ same => nomatch same
  | none =>
    apply A.bind (work files answers nearInput nearRoot since order)
    intro r after
    cases r with
    | error e => exact A.pure fun _ same => nomatch same
    | ok next =>
      obtain ⟨input, output, project⟩ := after next rfl
      apply A.bind (captures stage _)
      intro _ _
      apply A.pure
      rintro _ ⟨⟩
      exact ⟨input, output, project⟩

theorem runStages (captures : A.Captures snapshots fs gs) (since : Since start name done s)
    (order : Stage.order = done ++ later) :
    A.Agree (Sequencer.runStages ⟨⟨fs, c, name⟩, snapshots⟩ later s)
      (Sequencer.runStages ⟨⟨gs, d, name⟩, snapshots⟩ later s) fun _ => True := by
  induction later generalizing done s with
  | nil => exact A.pure trivial
  | cons stage rest ih =>
    apply A.bind (runStage files answers nearInput nearRoot captures since order)
    rintro ⟨r, status⟩ after
    cases r with
    | error e => exact A.pure trivial
    | ok next => exact ih (after next rfl) (by simp [order])

/-- Two runs agree in their outcome and in their status. -/
theorem run (captures : A.Captures snapshots fs gs) :
    A.Agree (Sequencer.run ⟨⟨fs, c, name⟩, snapshots⟩ start)
      (Sequencer.run ⟨⟨gs, d, name⟩, snapshots⟩ start) fun _ => True := by
  apply A.bind (files.contains nearInput)
  intro there _
  cases there with
  | false => exact A.pure trivial
  | true => exact runStages files answers nearInput nearRoot captures (.start start name) rfl

end Stages

end Agreement

end Transplant
