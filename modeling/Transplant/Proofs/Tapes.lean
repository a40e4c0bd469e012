import Transplant.Cassette.Playback
import Transplant.Cassette.Recording

/-! What is left on a tape, and what is heard on it. A playback takes the interactions of its channel
one by one, and reads the answers and the times as they were recorded. -/
namespace Transplant

namespace Replay

def left (r : Replay) (c : Channel) : Tape := (r.queue c).drop (r.answered.count c)

theorem left_ofTape (tape : Tape) (c : Channel) :
    (ofTape tape).left c = tape.filter fun i => i.channel == c := by
  simp [left, ofTape, queue]

theorem next_of_left {r : Replay} {c : Channel} {i : Interaction} {rest : Tape}
    (left : r.left c = i :: rest) : ∃ r', r.next c = (.ok i, r') ∧ r'.left c = rest := by
  have here : (r.queue c)[r.answered.count c]? = some i := by
    have first := congrArg List.head? left
    rwa [Replay.left, List.head?_drop] at first
  refine ⟨{ r with answered := c :: r.answered }, by rw [next, here], ?_⟩
  have further := congrArg List.tail left
  rw [Replay.left, List.tail_drop] at further
  rw [Replay.left, List.count_cons_self]
  exact further

end Replay

/-- The counts have 32 bits. -/
structure Completion.Fits (c : Completion) : Prop where
  prompt : c.promptTokens < pow2 32
  completion : c.completionTokens < pow2 32

namespace Completion

theorem readCount_ofNat {count : Nat} (fits : count < pow2 32) :
    readCount (.ofNat count) = .ok count := by
  have inRange : (0 ≤ (count : Int) && (count : Int) < Int.ofNat (pow2 32)) = true := by
    simpa using fits
  rw [Json.ofNat, readCount, if_pos inRange, Int.toNat_natCast]

theorem ofMembers_eq {first second third : Json} {completionTokens promptTokens : Nat} {text : String}
    (completion : readCount first = .ok completionTokens) (prompt : readCount second = .ok promptTokens)
    (plain : readText third = .ok text) :
    ofMembers [("completion_tokens", first), ("prompt_tokens", second), ("text", third)] =
      .ok ⟨text, promptTokens, completionTokens⟩ := by
  let members := [("completion_tokens", first), ("prompt_tokens", second), ("text", third)]
  have completionPart : (members.lookup "completion_tokens").mapM readCount = .ok (some completionTokens) :=
    congrArg (some <$> ·) completion
  have promptPart : (members.lookup "prompt_tokens").mapM readCount = .ok (some promptTokens) :=
    congrArg (some <$> ·) prompt
  have textPart : (members.lookup "text").mapM readText = .ok (some text) := congrArg (some <$> ·) plain
  rw [ofMembers, completionPart, promptPart, textPart]
  rfl

theorem ofJson_toJson {c : Completion} (fits : c.Fits) : ofJson c.toJson = .ok c :=
  ofMembers_eq (readCount_ofNat fits.completion) (readCount_ofNat fits.prompt) rfl

end Completion

/-- Answers are read as they were written, and so are failures. -/
theorem answerOf_answerOutput {answer : Except String Completion}
    (fits : ∀ c, answer = .ok c → c.Fits) : answerOf (answerOutput answer) = answer := by
  cases answer with
  | error message => rfl
  | ok c =>
    have there : (answerOutput (.ok c)).get? "ok" = some c.toJson := rfl
    have noError : (answerOutput (.ok c)).get? "err" = none := rfl
    rw [answerOf, noError, there, Option.getD_some, Completion.ofJson_toJson (fits c rfl)]

end Transplant
