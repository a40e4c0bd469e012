import Transplant.Proofs.Agreement
import Transplant.Proofs.Elsewhere
import Transplant.Proofs.Tapes
import Transplant.World

/-! Playbacks that echo recordings. Whatever a recorded computation hears in a world, the same
computation on a playback of it comes to the same value in any world that has the same files but for
some places. -/
namespace Transplant

namespace World

/-- The tree is in order, and all that is heard can be read from a tape. -/
structure Legible (w : World) : Prop where
  sound : w.tree.Sound
  fits : ∀ n request c, w.complete n request = .ok c → c.Fits
  times : ∀ n, Instant.ofText? (w.time n).withZulu = some (w.time n)

/-- The same calls are bound to fail, and the files are the same but for some places. -/
structure SameBut (places : List (List String)) (w v : World) : Prop where
  tree : FileTree.SameBut places w.tree v.tree
  sound : v.tree.Sound
  faults : v.faults = w.faults

variable {places : List (List String)} {w v : World} {p : Path}

theorem Legible.log (legible : w.Legible) (e : Event) : (w.log e).Legible :=
  ⟨legible.sound, legible.fits, legible.times⟩

theorem Legible.withTree (legible : w.Legible) {t : FileTree} (sound : t.Sound) :
    { w with tree := t }.Legible :=
  ⟨sound, legible.fits, legible.times⟩

theorem SameBut.log (same : SameBut places w v) (e e' : Event) : SameBut places (w.log e) (v.log e') :=
  ⟨same.tree, same.sound, same.faults⟩

theorem SameBut.withTree (same : SameBut places w v) {t u : FileTree} (tree : FileTree.SameBut places t u)
    (sound : u.Sound) : SameBut places { w with tree := t } { v with tree := u } :=
  ⟨tree, sound, same.faults⟩

theorem SameBut.fault? (same : SameBut places w v) (access : Access) (p : Path) :
    v.fault? access p = w.fault? access p := by
  rw [World.fault?, World.fault?, same.faults]

/-- An operation in two worlds gives one value, and the worlds stay the same but for the places. -/
structure Alike {α : Type} (places : List (List String)) (done done' : α × World) : Prop where
  value : done'.1 = done.1
  legible : done.2.Legible
  same : SameBut places done.2 done'.2

variable (legible : w.Legible) (same : SameBut places w v)

include legible same

theorem read_alike (misses : p.Misses places) : Alike places (w.read p) (v.read p) := by
  unfold read
  rw [same.fault?]
  cases w.fault? .read p with
  | some e => exact ⟨rfl, legible.log _, same.log _ _⟩
  | none => exact ⟨same.tree.read misses, legible.log _, same.log _ _⟩

theorem contains_alike (misses : p.Misses places) : Alike places (w.contains p) (v.contains p) :=
  ⟨same.tree.exists? misses, legible.log _, same.log _ _⟩

theorem walk_alike (clear : p.Clear places) : Alike places (w.walk p) (v.walk p) := by
  unfold walk
  rw [same.fault?]
  cases w.fault? .walk p with
  | some e => exact ⟨rfl, legible.log _, same.log _ _⟩
  | none => exact ⟨same.tree.walk legible.sound same.sound clear, legible.log _, same.log _ _⟩

theorem createDir_alike (misses : p.Misses places) :
    Alike places (w.createDir p) (v.createDir p) := by
  unfold createDir
  rw [same.fault?]
  cases w.fault? .createDir p with
  | some e => exact ⟨rfl, legible.log _, same.log _ _⟩
  | none =>
    obtain ⟨result, tree⟩ := same.tree.makeAll misses
    have made := FileTree.madeDirs_makeAll w.tree p
    have made' := FileTree.madeDirs_makeAll v.tree p
    exact ⟨result, (legible.log _).withTree (legible.sound.madeDirs made),
      (same.log _ _).withTree tree (same.sound.madeDirs made')⟩

theorem write_alike (misses : p.Misses places) (text : String) :
    Alike places (w.write p text) (v.write p text) := by
  unfold write
  rw [same.fault?]
  cases w.fault? .write p with
  | some e => exact ⟨rfl, legible.log _, same.log _ _⟩
  | none =>
    obtain ⟨result, tree⟩ := same.tree.write misses text
    exact ⟨result, (legible.log _).withTree (legible.sound.write p text),
      (same.log _ _).withTree tree (same.sound.write p text)⟩

end World

/-- A recording goes on with answers and times, and each is on the tape of its own service. -/
structure Recording.Hears (r : Recording) (answers times : Tape) (r' : Recording) : Prop where
  model : r'.model.tape = r.model.tape ++ answers
  clock : r'.clock.tape = r.clock.tape ++ times
  ofModel : ∀ i ∈ answers, i.channel = .model
  ofClock : ∀ i ∈ times, i.channel = .clock

structure Playback.Has (p : Playback) (answers times : Tape) : Prop where
  model : p.model.left .model = answers
  clock : p.clock.left .clock = times

theorem Recording.Hears.refl (r : Recording) : r.Hears [] [] r :=
  ⟨(List.append_nil _).symm, (List.append_nil _).symm, by simp, by simp⟩

theorem Recording.Hears.trans {r r' r'' : Recording} {answers times more later : Tape}
    (h : r.Hears answers times r') (h' : r'.Hears more later r'') :
    r.Hears (answers ++ more) (times ++ later) r'' where
  model := by rw [h'.model, h.model, List.append_assoc]
  clock := by rw [h'.clock, h.clock, List.append_assoc]
  ofModel := List.forall_mem_append.mpr ⟨h.ofModel, h'.ofModel⟩
  ofClock := List.forall_mem_append.mpr ⟨h.ofClock, h'.ofClock⟩

variable {α β : Type} {places : List (List String)}

/-- What the one computation hears is all that the other has to be given for the same value. -/
def Echoes (places : List (List String)) (x : StateT Recording (StateM World) α)
    (y : StateT Playback (StateM World) α) (P : α → Prop) : Prop :=
  ∀ r w, w.Legible → ∃ a r' w' answers times,
    (x.run r).run w = ((a, r'), w') ∧ P a ∧ w'.Legible ∧ r.Hears answers times r' ∧
      ∀ p v answers' times', World.SameBut places w v → p.Has (answers ++ answers') (times ++ times') →
        ∃ p' v', (y.run p).run v = ((a, p'), v') ∧ World.SameBut places w' v' ∧ p'.Has answers' times'

namespace Echoes

theorem pure {P : α → Prop} {a : α} (holds : P a) : Echoes places (Pure.pure a) (Pure.pure a) P := by
  intro r w legible
  refine ⟨a, r, w, [], [], rfl, holds, legible, .refl r, ?_⟩
  intro p v answers' times' same has
  exact ⟨p, v, rfl, same, has⟩

theorem bind {x : StateT Recording (StateM World) α} {y : StateT Playback (StateM World) α}
    {f : α → StateT Recording (StateM World) β} {g : α → StateT Playback (StateM World) β}
    {P : α → Prop} {Q : β → Prop} (first : Echoes places x y P)
    (rest : ∀ a, P a → Echoes places (f a) (g a) Q) : Echoes places (x >>= f) (y >>= g) Q := by
  intro r w legible
  obtain ⟨a, r', w', answers, times, ran, holds, legible', hears, echo⟩ := first r w legible
  obtain ⟨b, r'', w'', more, later, ran', holds', legible'', hears', echo'⟩ := rest a holds r' w' legible'
  refine ⟨b, r'', w'', answers ++ more, times ++ later, ?_, holds', legible'', hears.trans hears', ?_⟩
  · rw [StateT.run_bind, StateT.run_bind, ran]
    exact ran'
  · intro p v answers' times' same has
    rw [List.append_assoc, List.append_assoc] at has
    obtain ⟨p', v', played, same', has'⟩ := echo p v _ _ same has
    obtain ⟨p'', v'', played', same'', has''⟩ := echo' p' v' _ _ same' has'
    refine ⟨p'', v'', ?_, same'', has''⟩
    rw [StateT.run_bind, StateT.run_bind, played]
    exact played'

theorem mono {x : StateT Recording (StateM World) α} {y : StateT Playback (StateM World) α}
    {P Q : α → Prop} (echoes : Echoes places x y P) (implies : ∀ a, P a → Q a) :
    Echoes places x y Q := by
  intro r w legible
  obtain ⟨a, r', w', answers, times, ran, holds, rest⟩ := echoes r w legible
  exact ⟨a, r', w', answers, times, ran, implies a holds, rest⟩

theorem lift {act : StateM World α} {P : α → Prop} (holds : ∀ w, w.Legible → P (act.run w).1)
    (alike : ∀ w v, w.Legible → World.SameBut places w v → World.Alike places (act.run w) (act.run v)) :
    Echoes places (liftM act) (liftM act) P := by
  intro r w legible
  have legible' := (alike w w legible ⟨.refl _ _, legible.sound, rfl⟩).legible
  refine ⟨(act.run w).1, r, (act.run w).2, [], [], rfl, holds w legible, legible', .refl r, ?_⟩
  intro p v answers' times' same has
  obtain ⟨value, _, same'⟩ := alike w v legible same
  refine ⟨p, (act.run v).2, ?_, same', has⟩
  rw [← value]
  rfl

theorem model (request : Request) :
    Echoes places (World.services.recorded.model.complete request)
      ((Services.replayed World.files).model.complete request) fun _ => True := by
  intro r w legible
  let answer := w.complete (w.count Event.isCompleted) request
  let heard : Interaction := ⟨r.model.tape.length, .model, request.toJson, answerOutput answer⟩
  refine ⟨answer, r.hearModel request answer, w.log (.completed request), [heard], [], rfl, trivial,
    legible.log _, ⟨rfl, (List.append_nil _).symm, by simp [heard], by simp⟩, ?_⟩
  intro p v answers' times' same has
  obtain ⟨next, played, rest⟩ := Replay.next_of_left has.model
  refine ⟨{ p with model := next }, v, ?_, ⟨same.tree, same.sound, same.faults⟩, rest, has.clock⟩
  have known : answerOf heard.output = answer :=
    answerOf_answerOutput fun c there => legible.fits _ _ c there
  have given : p.complete = (answer, { p with model := next }) := by
    rw [Playback.complete, played, ← known]
  change (p.complete, v) = _
  rw [given]

theorem now : Echoes places World.services.recorded.now (Services.replayed World.files).now
    fun _ => True := by
  intro r w legible
  let time := w.time (w.count Event.isLooked)
  let heard : Interaction := ⟨r.clock.tape.length, .clock, .object [], .string time.withZulu⟩
  refine ⟨time, r.hearClock time, w.log .looked, [], [heard], rfl, trivial,
    legible.log _, ⟨(List.append_nil _).symm, rfl, by simp, by simp [heard]⟩, ?_⟩
  intro p v answers' times' same has
  obtain ⟨next, played, rest⟩ := Replay.next_of_left has.clock
  refine ⟨{ p with clock := next }, v, ?_, ⟨same.tree, same.sound, same.faults⟩, has.model, rest⟩
  have known : Playback.instantOf? heard.output = some time := legible.times _
  have given : p.now = (time, { p with clock := next }) := by
    rw [Playback.now, played]
    simp only [known, Option.getD_some]
  change (p.now, v) = _
  rw [given]

end Echoes

def echoing (places : List (List String)) :
    Agreement (StateT Recording (StateM World)) (StateT Playback (StateM World)) where
  Agree := Echoes places
  pure := Echoes.pure
  bind := Echoes.bind
  mono := Echoes.mono

theorem echoing_files {dirs : List Path} (clear : ∀ dir ∈ dirs, dir.Clear places) :
    (echoing places).Files dirs dirs World.services.recorded.files
      (Services.replayed World.files).files := by
  have clearNear : ∀ {p : Path}, p.Near dirs → p.Clear places := by
    rintro p ⟨dir, member, within⟩
    exact (clear dir member).within within
  constructor
  · intro p near
    exact .lift (fun _ _ => trivial) fun w v legible same => World.read_alike legible same (clearNear near).1
  · intro p near text
    exact .lift (fun _ _ => trivial)
      fun w v legible same => World.write_alike legible same (clearNear near).1 text
  · intro p near
    exact .lift (fun _ _ => trivial)
      fun w v legible same => World.createDir_alike legible same (clearNear near).1
  · intro p near
    exact .lift (fun _ _ => trivial)
      fun w v legible same => World.contains_alike legible same (clearNear near).1
  · intro p near
    exact .lift (fun w legible => World.walk_within w legible.sound)
      fun w v legible same => World.walk_alike legible same (clearNear near)

end Transplant
