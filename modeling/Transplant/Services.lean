import Transplant.Decimal.Binary
import Transplant.FileSystem
import Transplant.Instant.Basic
import Transplant.Question
import Transplant.Settings

/-! What a command uses from outside: files, a language model, and the time. Collaborators answer questions
with free text; a language model becomes one by prompts. -/
namespace Transplant

/-- The temperature is a number of single precision. -/
structure Request where
  model : String
  system : Option String
  prompt : String
  maxTokens : Nat
  temperature : Decimal.Binary
  deriving DecidableEq, Repr

structure Completion where
  text : String
  promptTokens : Nat
  completionTokens : Nat
  deriving DecidableEq, Repr

structure LanguageModel (m : Type → Type) where
  complete : Request → m (Except String Completion)

variable {m n : Type → Type}

def FileSystem.lifted [MonadLiftT m n] (fs : FileSystem m) : FileSystem n where
  read p := liftM (fs.read p)
  write p text := liftM (fs.write p text)
  createDir p := liftM (fs.createDir p)
  contains p := liftM (fs.contains p)
  walk p := liftM (fs.walk p)

structure Services (m : Type → Type) where
  files : FileSystem m
  model : LanguageModel m
  now : m Instant

structure Collaborator (m : Type → Type) where
  ask : Question → m (Except String String)

namespace Question

def tenths (n : Nat) : Decimal.Binary :=
  (Decimal.Binary.ofDecimal? Decimal.single false n (-1)).getD (.zero false)

def temperature : Question → Decimal.Binary
  | outline _ => tenths 2
  | summary _ => tenths 3
  | plan _ _ => tenths 3
  | description _ _ => tenths 2
  | requirements => tenths 1

def request (settings : Settings) (q : Question) : Request :=
  ⟨settings.model, some system, q.prompt, settings.maxTokens, q.temperature⟩

end Question

/-- A language model answers with the trimmed text of its completion. -/
def Collaborator.ofModel {m : Type → Type} [Monad m] (model : LanguageModel m)
    (settings : Settings) : Collaborator m where
  ask q := do
    match ← model.complete (q.request settings) with
    | .ok completion => return .ok completion.text.trimmed
    | .error message => return .error message

end Transplant
