import Transplant.Pipeline.Sequencer

/-! Runs that keep the record of their calls. An outside is any file system and any collaborator
over any state, so that answers may depend on all that came before and any call may fail. A run on
the recorded outside gets the same answers, and each call is noted with what came back. -/
namespace Transplant

inductive Call where
  | read (path : Path) (result : Except FileError String)
  | write (path : Path) (text : String) (result : Except FileError Unit)
  | createDir (path : Path) (result : Except FileError Unit)
  | contains (path : Path) (result : Bool)
  | walk (path : Path) (result : Except FileError (List Path))
  | asked (question : Question) (result : Except String String)

abbrev Recorded (σ : Type) := StateM (σ × List Call)

variable {σ α β ε : Type}

theorem ran_of_isOk {run : Except ε α × σ × List Call} (ok : run.1.isOk = true) :
    ∃ a, run = (.ok a, run.2.1, run.2.2) := by
  rcases run with ⟨_ | a, w, calls⟩
  · cases ok
  · exact ⟨a, rfl⟩

theorem ran_of_not_isOk {run : Except ε α × σ × List Call} (failed : run.1.isOk = false) :
    ∃ e, run = (.error e, run.2.1, run.2.2) := by
  rcases run with ⟨e | _, w, calls⟩
  · exact ⟨e, rfl⟩
  · cases failed

def record (act : StateM σ α) (call : α → Call) : Recorded σ α := fun w =>
  ((act.run w.1).1, (act.run w.1).2, w.2 ++ [call (act.run w.1).1])

def FileSystem.recorded (fs : FileSystem (StateM σ)) : FileSystem (Recorded σ) where
  read p := record (fs.read p) (.read p)
  write p text := record (fs.write p text) (.write p text)
  createDir p := record (fs.createDir p) (.createDir p)
  contains p := record (fs.contains p) (.contains p)
  walk p := record (fs.walk p) (.walk p)

def Collaborator.recorded (c : Collaborator (StateM σ)) : Collaborator (Recorded σ) where
  ask q := record (c.ask q) (.asked q)

structure Outside (σ : Type) where
  files : FileSystem (StateM σ)
  collaborator : Collaborator (StateM σ)

namespace Outside

def tools (o : Outside σ) (projectName : String) : Pipeline.Tools (Recorded σ) :=
  ⟨o.files.recorded, o.collaborator.recorded, projectName⟩

def sequencer (o : Outside σ) (projectName : String) (snapshots : Path) :
    Pipeline.Sequencer (Recorded σ) :=
  ⟨o.tools projectName, snapshots⟩

/-- The outside answers a call as noted and goes to another state. -/
def Answers (o : Outside σ) (e : σ) : Call → σ → Prop
  | .read p r, e' => (o.files.read p).run e = (r, e')
  | .write p text r, e' => (o.files.write p text).run e = (r, e')
  | .createDir p r, e' => (o.files.createDir p).run e = (r, e')
  | .contains p r, e' => (o.files.contains p).run e = (r, e')
  | .walk p r, e' => (o.files.walk p).run e = (r, e')
  | .asked q r, e' => (o.collaborator.ask q).run e = (r, e')

inductive Leads (o : Outside σ) : σ → List Call → σ → Prop where
  | nil {e : σ} : Leads o e [] e
  | cons {e e' e'' : σ} {c : Call} {calls : List Call} (answer : o.Answers e c e')
      (rest : Leads o e' calls e'') : Leads o e (c :: calls) e''

theorem Leads.append {o : Outside σ} {e e' e'' : σ} {calls more : List Call}
    (first : o.Leads e calls e') (second : o.Leads e' more e'') : o.Leads e (calls ++ more) e'' := by
  induction first with
  | nil => exact second
  | cons answer _ ih => exact .cons answer (ih second)

theorem Leads.split {o : Outside σ} {e e' : σ} {calls more : List Call}
    (leads : o.Leads e (calls ++ more) e') : ∃ mid, o.Leads e calls mid ∧ o.Leads mid more e' := by
  induction calls generalizing e with
  | nil => exact ⟨e, .nil, leads⟩
  | cons c calls ih =>
    cases leads with
    | cons answer rest =>
      obtain ⟨mid, front, behind⟩ := ih rest
      exact ⟨mid, .cons answer front, behind⟩

theorem Leads.uncons {o : Outside σ} {e e' : σ} {c : Call} {calls : List Call}
    (leads : o.Leads e (c :: calls) e') : ∃ mid, o.Leads e [c] mid ∧ o.Leads mid calls e' := by
  cases leads with
  | cons answer rest => exact ⟨_, .cons answer .nil, rest⟩

end Outside

/- A computation on the recorded outside only adds to the record, whatever is in it. -/
def Does (x : Recorded σ α) (e : σ) (calls : List Call) (a : α) (e' : σ) : Prop :=
  ∀ before, x.run (e, before) = (a, e', before ++ calls)

namespace Does

variable {e e' e'' : σ} {calls more : List Call}

theorem pure {a : α} : Does (Pure.pure a) e [] a e := by
  intro before
  rw [List.append_nil]
  rfl

theorem bind {x : Recorded σ α} {f : α → Recorded σ β} {a : α} {b : β} (first : Does x e calls a e')
    (second : Does (f a) e' more b e'') : Does (x >>= f) e (calls ++ more) b e'' := by
  intro before
  have next := second (before ++ calls)
  rw [List.append_assoc] at next
  rw [StateT.run_bind, first before]
  exact next

theorem recorded {act : StateM σ α} {a : α} (call : α → Call) (h : act.run e = (a, e')) :
    Does (record act call) e [call a] a e' := by
  intro before
  change ((act.run e).1, (act.run e).2, before ++ [call (act.run e).1]) = _
  rw [h]

theorem map {x : Recorded σ α} {a : α} (f : α → β) (h : Does x e calls a e') :
    Does (f <$> x) e calls (f a) e' := by
  intro before
  rw [StateT.run_map, h before]
  rfl

theorem attempt {x : ExceptT ε (Recorded σ) α} {f : α → ExceptT ε (Recorded σ) β} {a : α}
    {r : Except ε β} (first : Does x.run e calls (.ok a) e')
    (second : Does (f a).run e' more r e'') : Does (x >>= f).run e (calls ++ more) r e'' := by
  rw [ExceptT.run_bind]
  exact first.bind second

theorem stop {x : ExceptT ε (Recorded σ) α} {err : ε} (f : α → ExceptT ε (Recorded σ) β)
    (h : Does x.run e calls (.error err) e') : Does (x >>= f).run e calls (.error err) e' := by
  rw [ExceptT.run_bind]
  intro before
  rw [StateT.run_bind, h before]
  rfl

theorem finish {x : ExceptT ε (Recorded σ) α} {r : Except ε α} (f : α → β)
    (h : Does x.run e calls r e') :
    Does (x >>= fun a => Pure.pure (f a)).run e calls (r.map f) e' := by
  cases r with
  | error err => exact h.stop _
  | ok a =>
    rw [← List.append_nil calls]
    exact h.attempt .pure

end Does

/-- Every run makes calls and gives a value that are as stated. A run always gives a value. -/
def Meets (o : Outside σ) (x : Recorded σ α) (P : List Call → α → Prop) : Prop :=
  ∀ e, ∃ calls a e', Does x e calls a e' ∧ o.Leads e calls e' ∧ P calls a

namespace Meets

variable {o : Outside σ}

theorem pure {a : α} {P : List Call → α → Prop} (h : P [] a) : Meets o (Pure.pure a) P := by
  intro e
  exact ⟨[], a, e, .pure, .nil, h⟩

theorem mono {x : Recorded σ α} {P Q : List Call → α → Prop} (hx : Meets o x P)
    (h : ∀ calls a, P calls a → Q calls a) : Meets o x Q := by
  intro e
  obtain ⟨calls, a, e', does, leads, hp⟩ := hx e
  exact ⟨calls, a, e', does, leads, h calls a hp⟩

theorem bind {x : Recorded σ α} {f : α → Recorded σ β} {P : List Call → α → Prop}
    {Q : List Call → β → Prop} (hx : Meets o x P)
    (hf : ∀ calls a, P calls a → Meets o (f a) fun more b => Q (calls ++ more) b) :
    Meets o (x >>= f) Q := by
  intro e
  obtain ⟨calls, a, e', does, leads, hp⟩ := hx e
  obtain ⟨more, b, e'', doesMore, leadsMore, hq⟩ := hf calls a hp e'
  exact ⟨calls ++ more, b, e'', does.bind doesMore, leads.append leadsMore, hq⟩

theorem of_run {x : Recorded σ α} {P : List Call → α → Prop} (hx : Meets o x P) {e e' : σ}
    {calls : List Call} {a : α} (run : x.run (e, []) = (a, e', calls)) :
    o.Leads e calls e' ∧ P calls a := by
  obtain ⟨calls', a', e'', does, leads, hp⟩ := hx e
  have same := (does []).symm.trans run
  rw [List.nil_append] at same
  cases same
  exact ⟨leads, hp⟩

theorem attempt {x : ExceptT ε (Recorded σ) α} {f : α → ExceptT ε (Recorded σ) β}
    {P : List Call → Except ε α → Prop} {Q : List Call → Except ε β → Prop}
    (hx : Meets o x.run P) (stop : ∀ calls e, P calls (.error e) → Q calls (.error e))
    (go : ∀ calls a, P calls (.ok a) → Meets o (f a).run fun more r => Q (calls ++ more) r) :
    Meets o (x >>= f).run Q := by
  rw [ExceptT.run_bind]
  apply hx.bind
  intro calls r hr
  cases r with
  | error e => exact pure (by rw [List.append_nil]; exact stop calls e hr)
  | ok a => exact go calls a hr

theorem fetch {x : Recorded σ α} {f : α → ExceptT ε (Recorded σ) β} {P : List Call → α → Prop}
    {Q : List Call → Except ε β → Prop} (hx : Meets o x P)
    (go : ∀ calls a, P calls a → Meets o (f a).run fun more r => Q (calls ++ more) r) :
    Meets o (ExceptT.lift x >>= f).run Q := by
  rw [ExceptT.run_bind_lift]
  exact hx.bind go

theorem recorded {act : StateM σ α} {call : α → Call}
    (answer : ∀ e, o.Answers e (call (act.run e).1) (act.run e).2) :
    Meets o (record act call) fun calls a => calls = [call a] := by
  intro e
  exact ⟨[call (act.run e).1], (act.run e).1, (act.run e).2, .recorded call rfl,
    .cons (answer e) .nil, rfl⟩

theorem read (p : Path) :
    Meets o (o.files.recorded.read p) fun calls r => calls = [.read p r] :=
  recorded fun _ => rfl

theorem write (p : Path) (text : String) :
    Meets o (o.files.recorded.write p text) fun calls r => calls = [.write p text r] :=
  recorded fun _ => rfl

theorem createDir (p : Path) :
    Meets o (o.files.recorded.createDir p) fun calls r => calls = [.createDir p r] :=
  recorded fun _ => rfl

theorem contains (p : Path) :
    Meets o (o.files.recorded.contains p) fun calls r => calls = [.contains p r] :=
  recorded fun _ => rfl

theorem walk (p : Path) :
    Meets o (o.files.recorded.walk p) fun calls r => calls = [.walk p r] :=
  recorded fun _ => rfl

theorem ask (q : Question) :
    Meets o (o.collaborator.recorded.ask q) fun calls r => calls = [.asked q r] :=
  recorded fun _ => rfl

end Meets

end Transplant
