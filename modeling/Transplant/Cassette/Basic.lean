import Transplant.Instant.Printer
import Transplant.Yaml.Printer

/-! Cassettes: what was asked on a channel and what came back, in the order in which it
happened. -/
namespace Transplant

structure Channel where
  service : String
  method : String
  deriving DecidableEq, Repr

structure Interaction where
  seq : Nat
  channel : Channel
  input : Json
  output : Json
  deriving Repr

structure Cassette where
  name : String
  recordedAt : Instant
  interactions : List Interaction
  deriving Repr

def Interaction.toJson (i : Interaction) : Json :=
  .object
    [("seq", .ofNat i.seq), ("port", .string i.channel.service),
     ("method", .string i.channel.method), ("input", i.input.sorted), ("output", i.output.sorted)]

namespace Cassette

def toJson (c : Cassette) : Json :=
  .object
    [("name", .string c.name), ("recorded_at", .string c.recordedAt.withZulu),
     ("interactions", .array (c.interactions.map Interaction.toJson))]

def toText (c : Cassette) : String := Yaml.render c.toJson

end Cassette

/-- What a service was heard to say, from the first interaction on. -/
abbrev Tape := List Interaction

/-- Numbers count from zero. -/
def Tape.record (channel : Channel) (input output : Json) (t : Tape) : Tape :=
  t ++ [⟨t.length, channel, input, output⟩]

end Transplant
