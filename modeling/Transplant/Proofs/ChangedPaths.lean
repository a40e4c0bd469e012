import Transplant.Proofs.Below
import Transplant.Proofs.StageCalls

/-! The paths that calls change. The steps of a build stay within its root, so the calls do. -/
namespace Transplant

def Call.changed? : Call → Option Path
  | .write p _ _ => some p
  | .createDir p _ => some p
  | _ => none

def Call.isChange (c : Call) : Bool := c.changed?.isSome

/-- All that the calls try to change is at the root or below it. -/
def ChangesWithin (root : Path) (calls : List Call) : Prop :=
  ∀ c ∈ calls, ∀ p, c.changed? = some p → root.Within p

theorem ChangesWithin.append {root : Path} {calls more : List Call} (h : ChangesWithin root calls)
    (h' : ChangesWithin root more) : ChangesWithin root (calls ++ more) :=
  List.forall_mem_append.mpr ⟨h, h'⟩

theorem OnlyLooks.changesNothing {calls : List Call} (looks : OnlyLooks calls) :
    ∀ c ∈ calls, c.changed? = none := by
  intro c hc
  have look := looks c hc
  cases c <;> simp_all [Call.isLook, Call.changed?]

theorem OnlyLooks.filter_isChange {calls : List Call} (looks : OnlyLooks calls) :
    calls.filter Call.isChange = [] := by
  simpa [Call.isChange] using looks.changesNothing

theorem OnlyLooks.changesWithin {root : Path} {calls : List Call} (looks : OnlyLooks calls) :
    ChangesWithin root calls := by
  intro c hc p hp
  rw [looks.changesNothing c hc] at hp
  cases hp

namespace Build

def Step.path? : Step → Option Path
  | .write p _ => some p
  | .createDir p => some p
  | .refuse _ => none

def StepsWithin (root : Path) (steps : List Step) : Prop :=
  ∀ s ∈ steps, ∀ p, s.path? = some p → root.Within p

namespace StepsWithin

theorem none (root : Path) : StepsWithin root [] := by simp [StepsWithin]

theorem refuse (root : Path) (e : BuildError) : StepsWithin root [.refuse e] := by
  simp [StepsWithin, Step.path?]

theorem write {root p : Path} {text : String} {rest : List Step} (within : root.Within p)
    (h : StepsWithin root rest) : StepsWithin root (.write p text :: rest) :=
  List.forall_mem_cons.mpr ⟨fun _ same => Option.some.inj same ▸ within, h⟩

theorem createDir {root p : Path} {rest : List Step} (within : root.Within p)
    (h : StepsWithin root rest) : StepsWithin root (.createDir p :: rest) :=
  List.forall_mem_cons.mpr ⟨fun _ same => Option.some.inj same ▸ within, h⟩

theorem append {root : Path} {steps more : List Step} (h : StepsWithin root steps)
    (h' : StepsWithin root more) : StepsWithin root (steps ++ more) :=
  List.forall_mem_append.mpr ⟨h, h'⟩

end StepsWithin

theorem Step.Did.changesWithin {root : Path} {s : Step} {calls : List Call}
    {r : Except BuildError Unit} (did : s.Did calls r) (within : StepsWithin root [s]) :
    ChangesWithin root calls := by
  intro c hc p hp
  apply within s (List.mem_singleton.mpr rfl) p
  cases did <;> simp_all [Call.changed?, Step.path?]

theorem Step.Did.filter_isChange {s : Step} {calls : List Call} {r : Except BuildError Unit}
    (did : s.Did calls r) : calls.filter Call.isChange = calls := by
  cases did <;> rfl

theorem Ran.filter_isChange {steps : List Step} {calls : List Call} {r : Except BuildError Unit}
    (ran : Ran steps calls r) : calls.filter Call.isChange = calls := by
  induction ran with
  | done => rfl
  | next did _ ih => rw [List.filter_append, did.filter_isChange, ih]
  | stopped did => exact did.filter_isChange

theorem Ran.changesWithin {root : Path} {steps : List Step} {calls : List Call}
    {r : Except BuildError Unit} (ran : Ran steps calls r) (within : StepsWithin root steps) :
    ChangesWithin root calls := by
  induction ran with
  | done => simp [ChangesWithin]
  | next did _ ih =>
    have first := did.changesWithin fun s hs => within s (by simp_all)
    have rest := ih fun s hs => within s (List.mem_cons_of_mem _ hs)
    exact first.append rest
  | stopped did => exact did.changesWithin fun s hs => within s (by simp_all)

theorem templates_stay : staysBelow templatesDir = true := by decide

theorem stepsWithin_conversion (root : Path) (name text : String) :
    StepsWithin root [conversionStep root name text] := by
  unfold conversionStep
  split
  · rename_i stays
    exact .write (((Path.Within.refl root).join templates_stay).join stays) (.none root)
  · exact .refuse root _

theorem Converted.changesWithin {root : Path} {templates : List (Path × String)}
    {calls : List Call} {r : Except BuildError (List Path)}
    (converted : Converted root templates calls r) : ChangesWithin root calls := by
  have looks : ∀ source found, ChangesWithin root [.read source found] := by
    simp [ChangesWithin, Call.changed?]
  induction converted with
  | done => simp [ChangesWithin]
  | next did _ ih =>
    exact (looks _ _).append ((did.changesWithin (stepsWithin_conversion _ _ _)).append ih)
  | stopped did => exact (looks _ _).append (did.changesWithin (stepsWithin_conversion _ _ _))

theorem stepsWithin_templates {root dir : Path} (within : root.Within dir) (names : List String) :
    StepsWithin root (names.map (Apps.templateStep dir)) := by
  induction names with
  | nil => exact .none root
  | cons name rest ih =>
    rw [List.map_cons, Apps.templateStep]
    split
    · rename_i stays
      exact .write ((within.join templates_stay).join stays) ih
    · exact (StepsWithin.refuse root _).append ih

theorem stepsWithin_files {root dir : Path} (within : root.Within dir) (app : Plan.App) :
    StepsWithin root (Apps.fileSteps app dir) := by
  have file : ∀ name, staysBelow name = true → root.Within (dir.join name) :=
    fun _ stays => within.join stays
  apply StepsWithin.append
  · exact .append (.write (file "models.py" (by decide)) (.write (file "views.py" (by decide))
      (.write (file "urls.py" (by decide)) (.none root)))) (stepsWithin_templates within app.templates)
  · exact .write (file "apps.py" (by decide)) (.write (file "__init__.py" (by decide)) (.none root))

theorem stepsWithin_app (root : Path) (app : Plan.App) :
    StepsWithin root (Apps.appSteps root app) := by
  unfold Apps.appSteps
  split
  · rename_i entry
    have dir := (Path.Within.refl root).join (staysBelow_of_isEntry entry)
    exact .createDir dir (stepsWithin_files dir app)
  · exact .refuse root _

theorem stepsWithin_apps (plan : Plan) (root : Path) : StepsWithin root (Apps.steps plan root) := by
  apply StepsWithin.createDir (.refl root)
  intro s hs
  obtain ⟨app, _, hs⟩ := List.mem_flatMap.mp hs
  exact stepsWithin_app root app s hs

theorem stepsWithin_scaffold (plan : Plan) (root : Path) (package : String) :
    StepsWithin root (Scaffold.steps plan root package) := by
  unfold Scaffold.steps
  split
  · exact .refuse root _
  · rename_i entry
    split
    · exact .refuse root _
    · have top := Path.Within.refl root
      have dir := top.join (staysBelow_of_isEntry (by simpa using entry))
      exact .write (top.join (by decide)) (.write (dir.join (by decide))
        (.write (dir.join (by decide)) (.write (dir.join (by decide)) (.write (dir.join (by decide))
          (.write ((top.join templates_stay).join (by decide)) (.none root))))))

theorem stepsWithin_planned (plan : Plan) (root : Path) (package : String) :
    StepsWithin root (plannedSteps plan root package) :=
  (stepsWithin_scaffold plan root package).append (stepsWithin_apps plan root)

theorem Built.changesWithin {plan : Plan} {views root : Path} {package : String}
    {calls : List Call} {r : Except BuildError Project}
    (built : Built plan views root package calls r) : ChangesWithin root calls := by
  cases built with
  | stopped ran => exact ran.changesWithin (stepsWithin_planned plan root package)
  | converted ran listed converted =>
    exact (ran.changesWithin (stepsWithin_planned plan root package)).append
      (listed.onlyLooks.changesWithin.append converted.changesWithin)

theorem Ran.refused {rest : List Step} {calls : List Call} {e : BuildError}
    {r : Except BuildError Unit} (ran : Ran (.refuse e :: rest) calls r) :
    calls = [] ∧ r = .error e := by
  cases ran with
  | next did _ => cases did
  | stopped did => cases did; exact ⟨rfl, rfl⟩

/-- A build whose scaffold is refused makes no call. -/
theorem Built.refused {plan : Plan} {views root : Path} {package : String} {calls : List Call}
    {r : Except BuildError Project} (built : Built plan views root package calls r) {e : BuildError}
    (refused : Scaffold.steps plan root package = [.refuse e]) : calls = [] ∧ r = .error e := by
  cases built with
  | stopped ran =>
    rw [plannedSteps, refused] at ran
    obtain ⟨none, same⟩ := ran.refused
    cases same
    exact ⟨none, rfl⟩
  | converted ran _ _ =>
    rw [plannedSteps, refused] at ran
    cases ran.refused.2

theorem Built.calls_eq_nil {plan : Plan} {views root : Path} {package : String}
    {calls : List Call} {r : Except BuildError Project}
    (built : Built plan views root package calls r) (bad : isEntry package = false) :
    calls = [] ∧ r = .error (.unsafePath package) :=
  built.refused (by simp [Scaffold.steps, bad])

theorem Built.isEntry_of_ok {plan : Plan} {views root : Path} {package : String} {calls : List Call}
    {project : Project} (built : Built plan views root package calls (.ok project)) :
    isEntry package = true := by
  cases entry : isEntry package with
  | true => rfl
  | false => cases (built.calls_eq_nil entry).2

theorem Built.isEntry_of_call {plan : Plan} {views root : Path} {package : String}
    {calls : List Call} {r : Except BuildError Project} {c : Call}
    (built : Built plan views root package calls r) (member : c ∈ calls) :
    isEntry package = true := by
  cases entry : isEntry package with
  | true => rfl
  | false =>
    rw [(built.calls_eq_nil entry).1] at member
    cases member

end Build

namespace Pipeline

theorem Documented.changesWithin {s : State} {root : Path} {app : Rails.Application} {plan : Plan}
    {calls : List Call} {r : Outcome} (documented : Documented s root app plan calls r) :
    ChangesWithin root calls := by
  have readme : root.Within (root.join "README.md") := (Path.Within.refl root).join (by decide)
  have requirements : root.Within (root.join "requirements.txt") :=
    (Path.Within.refl root).join (by decide)
  cases documented <;> simp [ChangesWithin, Call.changed?, readme, requirements]

theorem Worked.changesWithin {name : String} {s : State} {stage : Stage} {calls : List Call}
    {r : Outcome} (worked : Worked name s stage calls r)
    (atRoot : stage = .integrate → s.projectRoot = some (s.outputRoot.join name)) :
    ChangesWithin (s.outputRoot.join name) calls := by
  have asks : ∀ q a, ChangesWithin (s.outputRoot.join name) [.asked q a] := by
    simp [ChangesWithin, Call.changed?]
  cases worked with
  | lacking => simp [ChangesWithin]
  | outlined => exact asks _ _
  | notOutlined => exact asks _ _
  | discovered only => exact only.changesWithin.append (asks _ _)
  | notDiscovered only => exact only.changesWithin.append (asks _ _)
  | converted => exact asks _ _
  | notConverted => exact asks _ _
  | built _ built => exact built.changesWithin
  | notBuilt _ built => exact built.changesWithin
  | integrated at' _ _ documented =>
    cases at'.symm.trans (atRoot rfl)
    exact documented.changesWithin

theorem Worked.isEntry {name : String} {s : State} {calls : List Call} {r : Outcome}
    (worked : Worked name s .build calls r) {c : Call} (member : c ∈ calls) :
    Build.isEntry name = true := by
  cases worked with
  | lacking => cases member
  | built _ built => exact built.isEntry_of_call member
  | notBuilt _ built => exact built.isEntry_of_call member

end Pipeline

end Transplant
