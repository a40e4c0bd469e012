import Transplant.Proofs.Quiet
import Transplant.Proofs.SequencerCalls
import Transplant.Proofs.TreeCalls

/-! Which parts of the state belong to which stage. A stage that passes fills in its own parts from what it
has heard and made, and leaves all others alone; the last response is always that of the last question. -/
namespace Transplant.Pipeline

inductive Slot where
  | inputRoot
  | outputRoot
  | outline
  | application
  | summary
  | plan
  | projectRoot
  | project
  | lastStage
  | lastResponse
  deriving DecidableEq, Repr

namespace State

def isSet (s : State) : Slot → Bool
  | .inputRoot => true
  | .outputRoot => true
  | .outline => s.outline.isSome
  | .application => s.application.isSome
  | .summary => s.summary.isSome
  | .plan => s.plan.isSome
  | .projectRoot => s.projectRoot.isSome
  | .project => s.project.isSome
  | .lastStage => s.lastStage.isSome
  | .lastResponse => s.lastResponse.isSome

def SameAt (s t : State) : Slot → Prop
  | .inputRoot => t.inputRoot = s.inputRoot
  | .outputRoot => t.outputRoot = s.outputRoot
  | .outline => t.outline = s.outline
  | .application => t.application = s.application
  | .summary => t.summary = s.summary
  | .plan => t.plan = s.plan
  | .projectRoot => t.projectRoot = s.projectRoot
  | .project => t.project = s.project
  | .lastStage => t.lastStage = s.lastStage
  | .lastResponse => t.lastResponse = s.lastResponse

variable {s t u : State} {slot : Slot}

theorem SameAt.refl (s : State) (slot : Slot) : s.SameAt s slot := by cases slot <;> rfl

theorem SameAt.trans (first : s.SameAt t slot) (second : t.SameAt u slot) : s.SameAt u slot := by
  cases slot <;> exact Eq.trans second first

theorem SameAt.isSet (same : s.SameAt t slot) : t.isSet slot = s.isSet slot := by
  cases slot with
  | inputRoot => rfl
  | outputRoot => rfl
  | _ => exact congrArg Option.isSome same

end State

/-- The parts of the state that the work of a stage fills in. -/
def Stage.owns : Stage → List Slot
  | .plan => [.outline, .lastResponse]
  | .discovery => [.application, .summary, .lastResponse]
  | .convert => [.plan, .lastResponse]
  | .build => [.projectRoot, .project]
  | .integrate => [.lastResponse]

/-- A stage that runs alone, or that the sequencer runs. -/
structure Turn where
  stage : Stage
  sequenced : Bool
  deriving DecidableEq, Repr

def Turn.owns (turn : Turn) : List Slot :=
  if turn.sequenced then .lastStage :: turn.stage.owns else turn.stage.owns

namespace Sequencer

variable {m : Type → Type} [Monad m]

def take (q : Sequencer m) (turn : Turn) (s : State) : ExceptT PipelineError m State :=
  if turn.sequenced then ExceptT.mk do return (← q.runStage turn.stage s).1
  else q.tools.work turn.stage s

/-- Turns one behind the other, with the state that each of them leaves. -/
def takeAll (q : Sequencer m) : List Turn → State → ExceptT PipelineError m (List State)
  | [], _ => return []
  | turn :: rest, s => do
    let t ← q.take turn s
    return t :: (← q.takeAll rest t)

end Sequencer

end Transplant.Pipeline

namespace Transplant

def Call.reply? : Call → Option (Except String String)
  | .asked _ answer => some answer
  | _ => none

def replies (calls : List Call) : List (Except String String) := calls.filterMap Call.reply?

theorem replies_append (calls more : List Call) : replies (calls ++ more) = replies calls ++ replies more :=
  List.filterMap_append

theorem Quiet.replies_eq_nil {calls : List Call} (quiet : Quiet calls) : replies calls = [] := by
  refine List.filterMap_eq_nil_iff.mpr fun c member => ?_
  have silent := (quiet c member).1
  cases c <;> simp_all [Call.topic?, Call.reply?]

namespace Pipeline

variable {σ : Type} {o : Outside σ} {name : String} {snapshots : Path} {stage : Stage} {turn : Turn}
  {s t u : State} {calls more : List Call}

/-- The last response is the text of the last question, and the old one if nothing was asked. -/
inductive Responded (s : State) (calls : List Call) (t : State) : Prop where
  | silent (none : replies calls = []) (same : t.lastResponse = s.lastResponse)
  | heard {text : String} (last : (replies calls).getLast? = some (.ok text))
      (kept : t.lastResponse = some text)

theorem Responded.trans (first : Responded s calls t) (second : Responded t more u) :
    Responded s (calls ++ more) u := by
  cases second with
  | heard last kept => exact .heard (by simp [replies_append, last]) kept
  | silent none same =>
    cases first with
    | heard last kept => exact .heard (by simp [replies_append, none, last]) (same.trans kept)
    | silent none' same' => exact .silent (by simp [replies_append, none, none']) (same.trans same')

theorem Responded.last_eq (responded : Responded s calls t) {text : String}
    (last : ((replies calls).map Except.toOption).getLast? = some (some text)) :
    t.lastResponse = some text := by
  rw [List.getLast?_map] at last
  cases responded with
  | silent none => simp [none] at last
  | heard own kept =>
    rw [own] at last
    cases last
    exact kept

/-- Where the new parts of the state come from. -/
def Stage.Makes (name : String) (s : State) (calls : List Call) (t : State) : Stage → Prop
  | .plan => ∃ text, .asked (.outline s.inputRoot) (.ok text) ∈ calls ∧ t.outline = some text
  | .discovery => ∃ app text, .asked (.summary app) (.ok text) ∈ calls ∧
      t.application = some app ∧ t.summary = some text
  | .convert => ∃ app text, s.application = some app ∧
      .asked (.plan app (s.summary.getD "")) (.ok text) ∈ calls ∧ t.plan = some (.ofText text)
  | .build => ∃ plan project own, s.plan = some plan ∧ own <+: calls ∧
      Build.Built plan (s.inputRoot.join Rails.Survey.viewsDir) (s.outputRoot.join name) name own
        (.ok project) ∧
      t.projectRoot = some (s.outputRoot.join name) ∧ t.project = some project
  | .integrate => ∃ text, .asked .requirements (.ok text) ∈ calls ∧ t.lastResponse = some text

/-- What a turn does to the state. -/
structure Turned (name : String) (turn : Turn) (s : State) (calls : List Call) (t : State) : Prop where
  others : ∀ slot, slot ∉ turn.owns → s.SameAt t slot
  filled : ∀ slot ∈ turn.owns, t.isSet slot = true
  makes : turn.stage.Makes name s calls t
  noted : turn.sequenced = true → t.lastStage = some turn.stage
  responded : Responded s calls t

theorem Turned.isSet {slot : Slot} (turned : Turned name turn s calls t)
    (set : s.isSet slot = true ∨ slot ∈ turn.owns) : t.isSet slot = true := by
  by_cases own : slot ∈ turn.owns
  · exact turned.filled slot own
  · rw [(turned.others slot own).isSet]
    exact set.resolve_right own

theorem Worked.others (worked : Worked name s stage calls (.ok t)) (slot : Slot)
    (other : slot ∉ stage.owns) : s.SameAt t slot := by
  cases worked with
  | integrated _ _ _ documented =>
    cases documented
    cases slot <;> first | rfl | exact absurd (by decide) other
  | _ => cases slot <;> first | rfl | exact absurd (by decide) other

theorem Worked.filled (worked : Worked name s stage calls (.ok t)) :
    ∀ slot ∈ stage.owns, t.isSet slot = true := by
  cases worked with
  | integrated _ _ _ documented =>
    cases documented
    simp [Stage.owns, State.isSet]
  | _ => simp [Stage.owns, State.isSet]

theorem Worked.makes (worked : Worked name s stage calls (.ok t)) : stage.Makes name s calls t := by
  cases worked with
  | @outlined text => exact ⟨text, by simp, rfl⟩
  | @discovered looks app text => exact ⟨app, text, by simp, rfl, rfl⟩
  | @converted app text there => exact ⟨app, text, there, by simp, rfl⟩
  | @built plan calls project planned built =>
    exact ⟨plan, project, calls, planned, List.prefix_refl calls, built, rfl, rfl⟩
  | integrated _ _ _ documented =>
    cases documented with
    | @done readme text => exact ⟨text, by simp, rfl⟩

theorem Worked.responded (worked : Worked name s stage calls (.ok t)) : Responded s calls t := by
  cases worked with
  | outlined => exact .heard rfl rfl
  | discovered => exact .heard (by simp [replies, Call.reply?]) rfl
  | converted => exact .heard rfl rfl
  | built _ built => exact .silent built.quiet.replies_eq_nil rfl
  | integrated _ _ _ documented =>
    cases documented
    exact .heard rfl rfl

theorem Worked.turned (worked : Worked name s stage calls (.ok t)) :
    Turned name ⟨stage, false⟩ s calls t :=
  ⟨worked.others, worked.filled, worked.makes, by simp, worked.responded⟩

theorem Stage.Makes.passed (makes : stage.Makes name s calls t) (more : List Call) :
    stage.Makes name s (calls ++ more) (t.passed stage) := by
  cases stage with
  | plan =>
    obtain ⟨text, asked, made⟩ := makes
    exact ⟨text, by simp [asked], made⟩
  | discovery =>
    obtain ⟨app, text, asked, made⟩ := makes
    exact ⟨app, text, by simp [asked], made⟩
  | convert =>
    obtain ⟨app, text, there, asked, made⟩ := makes
    exact ⟨app, text, there, by simp [asked], made⟩
  | build =>
    obtain ⟨plan, project, own, planned, front, made⟩ := makes
    exact ⟨plan, project, own, planned, front.trans (List.prefix_append calls more), made⟩
  | integrate =>
    obtain ⟨text, asked, made⟩ := makes
    exact ⟨text, by simp [asked], made⟩

theorem Worked.turned_passed (worked : Worked name s stage calls (.ok t)) (result : Except FileError Unit) :
    Turned name ⟨stage, true⟩ s (calls ++ [snapshotCall snapshots stage (t.passed stage) result])
      (t.passed stage) := by
  constructor
  · intro slot other
    have apart : slot ≠ .lastStage ∧ slot ∉ stage.owns := by simpa [Turn.owns] using other
    have same := worked.others slot apart.2
    cases slot <;> first | exact same | exact absurd rfl apart.1
  · intro slot own
    have either : slot = .lastStage ∨ slot ∈ stage.owns := by simpa [Turn.owns] using own
    rcases either with rfl | own
    · rfl
    · have filled := worked.filled slot own
      cases slot <;> first | exact filled | rfl
  · exact worked.makes.passed _
  · exact fun _ => rfl
  · exact worked.responded.trans (.silent rfl rfl)

inductive Taken (name : String) : State → List Turn → List Call → List State → Prop where
  | none {s : State} : Taken name s [] [] []
  | next {s t : State} {turn : Turn} {rest : List Turn} {calls more : List Call} {states : List State}
      (turned : Turned name turn s calls t) (later : Taken name t rest more states) :
      Taken name s (turn :: rest) (calls ++ more) (t :: states)

namespace Taken

variable {turns : List Turn} {states : List State}

theorem sameAt (taken : Taken name s turns calls states) {slot : Slot}
    (others : ∀ turn ∈ turns, slot ∉ turn.owns) : s.SameAt (states.getLastD s) slot := by
  induction taken with
  | none => exact .refl _ slot
  | next turned _ ih =>
    rw [List.forall_mem_cons] at others
    rw [List.getLastD_cons]
    exact (turned.others slot others.1).trans (ih others.2)

theorem isSet (taken : Taken name s turns calls states) {slot : Slot}
    (set : s.isSet slot = true ∨ ∃ turn ∈ turns, slot ∈ turn.owns) :
    (states.getLastD s).isSet slot = true := by
  induction taken with
  | none => simpa using set
  | next turned _ ih =>
    rw [List.getLastD_cons]
    apply ih
    rcases set with set | ⟨turn, member, own⟩
    · exact .inl (turned.isSet (.inl set))
    · rcases List.mem_cons.mp member with rfl | later
      · exact .inl (turned.isSet (.inr own))
      · exact .inr ⟨turn, later, own⟩

theorem responded (taken : Taken name s turns calls states) :
    Responded s calls (states.getLastD s) := by
  induction taken with
  | none => exact .silent rfl rfl
  | next turned _ ih =>
    rw [List.getLastD_cons]
    exact turned.responded.trans ih

end Taken

namespace Sequencer

theorem take_meets (turn : Turn) (s : State) :
    Meets o ((o.sequencer name snapshots).take turn s).run fun calls r =>
      ∀ t, r = .ok t → Turned name turn s calls t := by
  obtain ⟨stage, _ | _⟩ := turn
  · apply (Tools.work_meets name stage s).mono
    rintro calls r worked t rfl
    exact worked.turned
  · apply (runStage_meets name snapshots stage s).bind
    rintro calls ⟨r, status⟩ ran
    apply Meets.pure
    rintro t rfl
    rw [List.append_nil]
    cases ran with
    | passed worked => exact worked.turned_passed _

theorem takeAll_meets (turns : List Turn) (s : State) :
    Meets o ((o.sequencer name snapshots).takeAll turns s).run fun calls r =>
      ∀ states, r = .ok states → Taken name s turns calls states := by
  induction turns generalizing s with
  | nil =>
    apply Meets.pure
    rintro states h
    cases h
    exact .none
  | cons turn rest ih =>
    apply (take_meets turn s).attempt
    · nofun
    intro calls t turned
    apply (ih t).attempt
    · nofun
    intro more states taken
    apply Meets.pure
    rintro _ h
    cases h
    rw [List.append_nil]
    exact .next (turned t rfl) (taken states rfl)

end Sequencer

/-- Whatever stages pass one behind the other, alone or in the sequencer: each fills in the parts of the
state that it owns and changes no other, no part that is set is lost, and in the end the last response is
the text that the last question was answered with. -/
theorem stages_fill_in_their_own (o : Outside σ) (name : String) (snapshots : Path) {turns : List Turn}
    {s : State} {states : List State} {e e' : σ} {calls : List Call}
    (passed : ((o.sequencer name snapshots).takeAll turns s).run.run (e, []) = (.ok states, e', calls)) :
    Taken name s turns calls states ∧
      (∀ slot, (∀ turn ∈ turns, slot ∉ turn.owns) → s.SameAt (states.getLastD s) slot) ∧
      (∀ slot, s.isSet slot = true ∨ (∃ turn ∈ turns, slot ∈ turn.owns) →
        (states.getLastD s).isSet slot = true) ∧
      Responded s calls (states.getLastD s) := by
  have taken := ((Sequencer.takeAll_meets (o := o) turns s).of_run passed).2 states rfl
  exact ⟨taken, fun _ => taken.sameAt, fun _ => taken.isSet, taken.responded⟩

def disordered : List Turn := [⟨.discovery, true⟩, ⟨.integrate, false⟩, ⟨.plan, true⟩, ⟨.build, false⟩]

def filledByHand : State :=
  { State.fresh ⟨"in"⟩ ⟨"out"⟩ with
    outline := some "old", plan := some (.ofText "none"), projectRoot := some ⟨"out/site"⟩ }

def counting : World := { World.ofTree .empty [] with answer := fun count _ => .ok (toString count) }

def disorderedRun : Except PipelineError (List State) × World × List Call :=
  ((World.outside.sequencer "site" ⟨"logs"⟩).takeAll disordered filledByHand).run.run (counting, [])

theorem stages_fill_in_their_own_disordered :
    ∃ states e calls, disorderedRun = (.ok states, e, calls) ∧
      Taken "site" filledByHand disordered calls states ∧
      (replies calls).map Except.toOption = [some "0", some "1", some "2", some "3"] ∧
      (states.getLastD filledByHand).lastResponse = some "3" ∧
      (states.getLastD filledByHand).plan = filledByHand.plan := by
  have went : disorderedRun.1.isOk = true ∧
      (replies disorderedRun.2.2).map Except.toOption = [some "0", some "1", some "2", some "3"] := by
    decide +kernel
  obtain ⟨states, passed⟩ := ran_of_isOk went.1
  obtain ⟨taken, same, _, responded⟩ := stages_fill_in_their_own World.outside "site" ⟨"logs"⟩ passed
  exact ⟨states, _, _, passed, taken, went.2, responded.last_eq (congrArg List.getLast? went.2),
    same .plan (by decide)⟩

end Pipeline

end Transplant
