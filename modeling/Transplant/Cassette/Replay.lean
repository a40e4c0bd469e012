import Transplant.Cassette.Basic
import Transplant.Text.Quoted

/-! A tape played back. Each channel has its own place on the tape, and only an answer moves it. -/
namespace Transplant

inductive ReplayError where
  | unknown (channel : Channel) (available : List Channel)
  | exhausted (channel : Channel) (count last : Nat)
  deriving DecidableEq, Repr

namespace Channel

def text (c : Channel) : String := c.service ++ "::" ++ c.method

def quoted (c : Channel) : String :=
  "port=" ++ Text.quoted c.service ++ " method=" ++ Text.quoted c.method

end Channel

namespace ReplayError

def sortedTexts (channels : List Channel) : List String :=
  (channels.map Channel.text).mergeSort fun a b => a ≤ b

def message : ReplayError → String
  | unknown channel available =>
    "Cassette exhausted: no interactions recorded for " ++ channel.quoted ++
      ". Available port::method pairs: [" ++ ", ".intercalate (sortedTexts available) ++ "]"
  | exhausted channel count last =>
    "Cassette exhausted: all " ++ toString count ++ " interactions for " ++ channel.quoted ++
      " have been consumed. Last interaction was seq=" ++ toString last ++ "."

end ReplayError

/-- A tape, and the channels that it has answered on. -/
structure Replay where
  tape : Tape
  answered : List Channel
  deriving Repr

namespace Replay

def ofTape (tape : Tape) : Replay := ⟨tape, []⟩

def queue (r : Replay) (c : Channel) : List Interaction := r.tape.filter fun i => i.channel == c

def channels (r : Replay) : List Channel := (r.tape.map Interaction.channel).eraseDups

def errorFor (r : Replay) (c : Channel) : ReplayError :=
  match (r.queue c).getLast? with
  | none => .unknown c r.channels
  | some last => .exhausted c (r.queue c).length last.seq

/-- The next interaction of a channel. -/
def next (c : Channel) (r : Replay) : Except ReplayError Interaction × Replay :=
  match (r.queue c)[r.answered.count c]? with
  | some i => (.ok i, { r with answered := c :: r.answered })
  | none => (.error (r.errorFor c), r)

end Replay

end Transplant
