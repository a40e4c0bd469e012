import Mathlib.Data.List.Induction
import Transplant.Proofs.Cassettes

/-! What players serve. Each of the two services plays the tape of all cassettes for itself, and on every
channel the interactions come one by one, in the order of the tape, whatever else is asked for between. -/
namespace Transplant

def Tape.on (t : Tape) (c : Channel) : Tape := t.filter fun i => i.channel == c

structure Tape.Owes (t : Tape) (c : Channel) (k : Nat) (answer : Except ReplayError Interaction) :
    Prop where
  there : ∀ i, (t.on c)[k]? = some i → answer = .ok i
  unknown : t.on c = [] → answer = .error (.unknown c (t.map Interaction.channel).eraseDups)
  exhausted : ∀ last, (t.on c).getLast? = some last → (t.on c).length ≤ k →
    answer = .error (.exhausted c (t.on c).length last.seq)

theorem Tape.Owes.toOption {t : Tape} {c : Channel} {k : Nat} {answer : Except ReplayError Interaction}
    (owes : t.Owes c k answer) : answer.toOption = (t.on c)[k]? := by
  cases here : (t.on c)[k]? with
  | some i => rw [owes.there i here]; rfl
  | none =>
    cases final : (t.on c).getLast? with
    | none => rw [owes.unknown (List.getLast?_eq_none_iff.mp final)]; rfl
    | some last => rw [owes.exhausted last final (List.getElem?_eq_none_iff.mp here)]; rfl

namespace Replay

variable {r : Replay} {c d : Channel} {k : Nat}

/-- How far a channel is played. No request after the last interaction counts. -/
def At (r : Replay) (c : Channel) (k : Nat) : Prop :=
  r.answered.count c = min k (r.tape.on c).length

theorem next_owes (place : r.At c k) : r.tape.Owes c k (r.next c).1 := by
  rw [At] at place
  constructor
  · intro i here
    have within : k < (r.tape.on c).length := (List.getElem?_eq_some_iff.mp here).1
    rw [Nat.min_eq_left (Nat.le_of_lt within)] at place
    have found : (r.queue c)[r.answered.count c]? = some i := by rwa [place]
    rw [next, found]
  · intro none
    have silent : r.queue c = [] := none
    rw [next, silent, List.getElem?_nil, errorFor, silent]
    rfl
  · intro last final beyond
    rw [Nat.min_eq_right beyond] at place
    have past_end : (r.queue c)[r.answered.count c]? = none :=
      List.getElem?_eq_none (Nat.le_of_eq place.symm)
    have final' : (r.queue c).getLast? = some last := final
    rw [next, past_end, errorFor, final']
    rfl

theorem next_tape : (r.next c).2.tape = r.tape := by
  rw [next]
  split <;> rfl

theorem next_at (place : r.At c k) : (r.next c).2.At c (k + 1) := by
  rw [At] at place ⊢
  rw [next_tape, next]
  split
  · rename_i i here
    have within : r.answered.count c < (r.tape.on c).length := (List.getElem?_eq_some_iff.mp here).1
    rw [List.count_cons_self]
    omega
  · rename_i past_end
    have beyond : (r.tape.on c).length ≤ r.answered.count c := List.getElem?_eq_none_iff.mp past_end
    dsimp only
    omega

theorem next_at_of_ne (place : r.At d k) (other : d ≠ c) : (r.next c).2.At d k := by
  rw [At] at place ⊢
  rw [next_tape, ← place, next]
  split
  · exact List.count_cons_of_ne (Ne.symm other)
  · rfl

theorem next_of_error {e : ReplayError} (failed : (r.next c).1 = .error e) : (r.next c).2 = r := by
  rw [next] at failed ⊢
  split at failed
  · cases failed
  · rfl

end Replay

namespace Playback

/-- The two services, each with a tape of its own. -/
inductive Player where
  | model
  | clock
  deriving DecidableEq, Repr

structure Request where
  player : Player
  channel : Channel
  deriving DecidableEq, Repr

def replay (p : Playback) : Player → Replay
  | .model => p.model
  | .clock => p.clock

def ask (q : Request) (p : Playback) : Except ReplayError Interaction × Playback :=
  match q.player with
  | .model =>
    let (answer, model) := p.model.next q.channel
    (answer, { p with model })
  | .clock =>
    let (answer, clock) := p.clock.next q.channel
    (answer, { p with clock })

theorem complete_eq (p : Playback) :
    p.complete =
      (match (p.ask ⟨.model, .model⟩).1 with
        | .ok i => answerOf i.output
        | .error e => .error e.message,
      (p.ask ⟨.model, .model⟩).2) := rfl

theorem now_eq (p : Playback) :
    p.now =
      (match (p.ask ⟨.clock, .clock⟩).1 with
        | .ok i => (instantOf? i.output).getD .epoch
        | .error _ => .epoch,
      (p.ask ⟨.clock, .clock⟩).2) := rfl

/-- What is left of a playback behind some requests. -/
def behind (asked : List Request) (p : Playback) : Playback := asked.foldl (fun p q => (p.ask q).2) p

def answers : List Request → Playback → List (Request × Except ReplayError Interaction)
  | [], _ => []
  | q :: rest, p => (q, (p.ask q).1) :: answers rest (p.ask q).2

def heard (q : Request) (log : List (Request × Except ReplayError Interaction)) : List Interaction :=
  log.filterMap fun entry => if entry.1 = q then entry.2.toOption else none

/-- Where a playback of a tape stands when these requests have been made. -/
structure Reached (tape : Tape) (asked : List Request) (p : Playback) : Prop where
  tape : ∀ player, (p.replay player).tape = tape
  place : ∀ q : Request, (p.replay q.player).At q.channel (asked.count q)

variable {tape : Tape} {asked : List Request} {p : Playback} {q : Request}

theorem Reached.start : Reached tape [] (.ofTape tape) := by
  constructor
  · rintro (_ | _) <;> rfl
  · rintro ⟨_ | _, channel⟩ <;> simp [Replay.At, replay, ofTape, Replay.ofTape]

theorem ask_answer : (p.ask q).1 = ((p.replay q.player).next q.channel).1 := by
  obtain ⟨_ | _, _⟩ := q <;> rfl

theorem replay_ask (player : Player) :
    (p.ask q).2.replay player =
      if player = q.player then ((p.replay q.player).next q.channel).2 else p.replay player := by
  obtain ⟨_ | _, _⟩ := q <;> cases player <;> rfl

theorem ask_of_error {e : ReplayError} (failed : (p.ask q).1 = .error e) : (p.ask q).2 = p := by
  rw [ask_answer] at failed
  have same := Replay.next_of_error failed
  obtain ⟨_ | _, channel⟩ := q
  · exact congrArg (fun model => { p with model }) same
  · exact congrArg (fun clock => { p with clock }) same

theorem Reached.owes (reached : Reached tape asked p) :
    tape.Owes q.channel (asked.count q) (p.ask q).1 := by
  rw [ask_answer, ← reached.tape q.player]
  exact Replay.next_owes (reached.place q)

theorem Reached.ask (reached : Reached tape asked p) : Reached tape (asked ++ [q]) (p.ask q).2 := by
  constructor
  · intro player
    rw [replay_ask]
    split
    · rw [Replay.next_tape, reached.tape]
    · exact reached.tape player
  · intro other
    rw [replay_ask, List.count_append, List.count_singleton]
    by_cases player : other.player = q.player
    · rw [if_pos player]
      by_cases channel : other.channel = q.channel
      · have same : other = q := by cases other; cases q; simp_all
        rw [same, if_pos (beq_self_eq_true q)]
        exact Replay.next_at (reached.place q)
      · have different : (q == other) = false := by
          rw [beq_eq_false_iff_ne]
          rintro rfl
          exact channel rfl
        rw [different, if_neg (by simp), Nat.add_zero, ← player]
        exact Replay.next_at_of_ne (reached.place other) channel
    · have different : (q == other) = false := by
        rw [beq_eq_false_iff_ne]
        rintro rfl
        exact player rfl
      rw [if_neg player, different, if_neg (by simp), Nat.add_zero]
      exact reached.place other

theorem reached_behind (asked : List Request) (tape : Tape) :
    Reached tape asked (behind asked (.ofTape tape)) := by
  induction asked using List.reverseRecOn with
  | nil => exact .start
  | append_singleton asked q ih =>
    rw [behind, List.foldl_append]
    exact ih.ask

theorem heard_cons {a : Except ReplayError Interaction}
    {log : List (Request × Except ReplayError Interaction)} :
    heard q ((q, a) :: log) = a.toOption.toList ++ heard q log := by
  cases a <;> simp [heard, Except.toOption]

theorem heard_cons_of_ne {r : Request} (other : r ≠ q) {a : Except ReplayError Interaction}
    {log : List (Request × Except ReplayError Interaction)} :
    heard q ((r, a) :: log) = heard q log := by
  simp [heard, other]

/-- From any place on, what is heard is what comes next on the channel. -/
theorem heard_answers {past : List Request} (reached : Reached tape past p) (asked : List Request)
    (q : Request) : heard q (answers asked p) =
      ((tape.on q.channel).drop (past.count q)).take (asked.count q) := by
  induction asked generalizing past p with
  | nil => rfl
  | cons r rest ih =>
    have later := ih (reached.ask (q := r))
    rw [List.count_append, List.count_singleton] at later
    rw [answers]
    by_cases same : r = q
    · subst same
      rw [if_pos (beq_self_eq_true r)] at later
      rw [heard_cons, reached.owes.toOption, later, List.count_cons_self]
      cases here : (tape.on r.channel)[past.count r]? with
      | none =>
        have past_end := List.getElem?_eq_none_iff.mp here
        rw [List.drop_eq_nil_of_le past_end, List.drop_eq_nil_of_le (Nat.le_succ_of_le past_end)]
        simp
      | some i =>
        obtain ⟨within, rfl⟩ := List.getElem?_eq_some_iff.mp here
        rw [List.drop_eq_getElem_cons within, List.take_succ_cons]
        rfl
    · have different : (r == q) = false := beq_eq_false_iff_ne.mpr same
      rw [different, if_neg (by simp), Nat.add_zero] at later
      rw [heard_cons_of_ne same, later, List.count_cons_of_ne same]

end Playback

namespace Shelf

variable {today : Instant} {w : World}

theorem loadTape_run {cassettes : List (Path × Cassette)} (given : cassettes ≠ [])
    (loaded : ∀ kept ∈ cassettes, ((World.shelf today).load kept.1).run.run w = (.ok kept.2, w)) :
    ((World.shelf today).loadTape (cassettes.map Prod.fst)).run.run w =
      (.ok (cassettes.flatMap fun kept => kept.2.interactions), w) := by
  have some : (cassettes.map Prod.fst).isEmpty = false := by
    cases cassettes with
    | nil => exact absurd rfl given
    | cons kept rest => rfl
  rw [loadTape, some, if_neg (by simp)]
  exact loadAll_loaded loaded

end Shelf

/-- Whatever has been asked for before, the `k`-th request to one player on one channel is answered with
the `k`-th interaction of that channel on all the cassettes; behind the last there are only failures, and
a failure changes nothing. -/
theorem Playback.serves_in_order {w : World} {today : Instant} {cassettes : List (Path × Cassette)}
    (given : cassettes ≠ [])
    (loaded : ∀ kept ∈ cassettes, ((World.shelf today).load kept.1).run.run w = (.ok kept.2, w)) :
    ∃ tape : Tape, tape = cassettes.flatMap (fun kept => kept.2.interactions) ∧
      ((World.shelf today).loadTape (cassettes.map Prod.fst)).run.run w = (.ok tape, w) ∧
      ∀ (asked : List Request) (q : Request),
        tape.Owes q.channel (asked.count q) ((behind asked (.ofTape tape)).ask q).1 ∧
        (∀ e, ((behind asked (.ofTape tape)).ask q).1 = .error e →
          ((behind asked (.ofTape tape)).ask q).2 = behind asked (.ofTape tape)) ∧
        heard q (answers asked (.ofTape tape)) = (tape.on q.channel).take (asked.count q) := by
  refine ⟨_, rfl, Shelf.loadTape_run given loaded, ?_⟩
  intro asked q
  refine ⟨(reached_behind asked _).owes, fun e => ask_of_error, ?_⟩
  rw [heard_answers .start, List.count_nil, List.drop_zero]

def twoCassettes : List (Path × Cassette) :=
  [(⟨"first.yaml"⟩, ⟨"first", .epoch,
      [⟨7, .model, .null, .string "outline"⟩, ⟨8, .clock, .null, .string "noon"⟩]⟩),
    (⟨"second.yaml"⟩, ⟨"second", .epoch, [⟨0, .model, .null, .string "summary"⟩]⟩)]

def shelfOfTwo : World :=
  .ofTree (.dir (twoCassettes.map fun kept => (kept.1.text, .file (.ofText kept.2.toText)))) []

theorem Playback.serves_summary_second :
    ∃ tape : Tape,
      ((World.shelf .epoch).loadTape (twoCassettes.map Prod.fst)).run.run shelfOfTwo =
        (.ok tape, shelfOfTwo) ∧
      ((behind [⟨.model, .model⟩, ⟨.model, .clock⟩, ⟨.clock, .model⟩] (.ofTape tape)).ask
        ⟨.model, .model⟩).1 = .ok ⟨0, .model, .null, .string "summary"⟩ ∧
      ((behind [⟨.model, .model⟩, ⟨.model, .model⟩] (.ofTape tape)).ask ⟨.model, .model⟩).1 =
        .error (.exhausted .model 2 0) := by
  have loaded : ∀ kept ∈ twoCassettes,
      ((World.shelf .epoch).load kept.1).run.run shelfOfTwo = (.ok kept.2, shelfOfTwo) := by
    have there : ∀ kept ∈ twoCassettes, shelfOfTwo.tree.read kept.1 = .ok kept.2.toText ∧ kept.2.Reads := by
      decide +kernel
    intro kept member
    exact Shelf.load_run ⟨(there kept member).1, (there kept member).2⟩
  obtain ⟨tape, rfl, run, serves⟩ := serves_in_order (by simp [twoCassettes]) loaded
  exact ⟨_, run, (serves _ _).1.there _ (by decide +kernel),
    (serves _ _).1.exhausted ⟨0, .model, .null, .string "summary"⟩ (by decide +kernel) (by decide +kernel)⟩

end Transplant
