import Transplant.Cassette.Basic
import Transplant.Instant.Reader
import Transplant.Yaml.Reader

/-! Cassettes read from text. -/
namespace Transplant

open Yaml (Node Reading)

namespace Interaction

def partNames : List String := ["seq", "port", "method", "input", "output"]

/-- Values stand below three levels of a cassette. -/
def valueDepth : Nat := Yaml.nestingLimit - 3

def ofNode (n : Node) : Reading Interaction := do
  match ← n.parts partNames with
  | [seq, service, method, input, output] =>
    return ⟨← seq.word, ⟨← service.text, ← method.text⟩, ← input.value valueDepth,
      ← output.value valueDepth⟩
  | _ => failure

end Interaction

namespace Cassette

def partNames : List String := ["name", "recorded_at", "interactions"]

def ofNode (n : Node) : Reading Cassette := do
  match ← n.parts partNames with
  | [name, recordedAt, interactions] =>
    return ⟨← name.text, ← liftM (Instant.ofText? (← recordedAt.text)),
      ← (← interactions.items).mapM Interaction.ofNode⟩
  | _ => failure

def ofText? (text : String) : Option Cassette := do
  let n ← Node.ofText? text
  Reading.of? (ofNode n) n.size

end Cassette

end Transplant
