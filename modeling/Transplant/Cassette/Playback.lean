import Transplant.Cassette.Exchange
import Transplant.Cassette.Replay
import Transplant.Instant.Reader
import Transplant.Services

/-! Services that answer from a tape. -/
namespace Transplant

variable {m : Type → Type} [Monad m]

/-- Each service plays the same tape for itself. -/
structure Playback where
  model : Replay
  clock : Replay

namespace Playback

def ofTape (tape : Tape) : Playback := ⟨.ofTape tape, .ofTape tape⟩

def complete (p : Playback) : Except String Completion × Playback :=
  let (next, model) := p.model.next .model
  let answer :=
    match next with
    | .ok i => answerOf i.output
    | .error e => .error e.message
  (answer, { p with model })

def instantOf? : Json → Option Instant
  | .string s => Instant.ofText? s
  | _ => none

/-- Where no time is on the tape, it is the epoch. -/
def now (p : Playback) : Instant × Playback :=
  let (next, clock) := p.clock.next .clock
  let time :=
    match next with
    | .ok i => (instantOf? i.output).getD .epoch
    | .error _ => .epoch
  (time, { p with clock })

end Playback

/-- Files are not on a tape. -/
def Services.replayed (files : FileSystem m) : Services (StateT Playback m) where
  files := files.lifted
  model := ⟨fun _ => modifyGet Playback.complete⟩
  now := modifyGet Playback.now

end Transplant
