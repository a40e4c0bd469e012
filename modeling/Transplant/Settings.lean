import Transplant.Decimal.Binary
import Transplant.Path
import Transplant.Text.Characters

/-! Settings of a run, read from named variables. A blank variable counts as one that is not
set. -/
namespace Transplant

structure Settings where
  model : String
  maxTokens : Nat
  logDir : Path
  projectName : String
  deriving DecidableEq, Repr

inductive SettingsError where
  | badMaxTokens (raw : String)
  deriving DecidableEq, Repr

def SettingsError.message : SettingsError → String
  | badMaxTokens raw => "RAILSHIFT_MAX_TOKENS must be a positive integer, got '" ++ raw ++ "'"

namespace Settings

def standard : Settings := ⟨"claude-sonnet-4-20250514", 4096, ⟨"logs"⟩, "converted_project"⟩

def withoutPlus : List Char → List Char
  | '+' :: cs => cs
  | cs => cs

def naturalOf (digits : List Char) : Nat :=
  digits.foldl (fun n c => n * 10 + (c.toNat - '0'.toNat)) 0

/-- A positive number of 32 bits in decimal digits, with a plus sign or without. -/
def readCount? (cs : List Char) : Option Nat :=
  let digits := withoutPlus cs
  if digits.isEmpty || !digits.all Char.isDigit then none
  else
    let n := naturalOf digits
    if 0 < n && n < pow2 32 then some n else none

def nonBlank (value : Option String) : Option String := value.filter fun v => !v.trimmed.isEmpty

def readMaxTokens (value : Option String) : Except SettingsError Nat :=
  match value with
  | none => .ok standard.maxTokens
  | some raw =>
    match readCount? (Text.trim raw.toList) with
    | some n => .ok n
    | none => .error (.badMaxTokens raw)

def variableNames : List String :=
  ["RAILSHIFT_MODEL", "MODEL_NAME", "RAILSHIFT_MAX_TOKENS", "RAILSHIFT_LOG_DIR",
   "RAILSHIFT_PROJECT_NAME"]

def ofVariables (lookup : String → Option String) : Except SettingsError Settings := do
  let get name := nonBlank (lookup name)
  let maxTokens ← readMaxTokens (get "RAILSHIFT_MAX_TOKENS")
  return ⟨((get "RAILSHIFT_MODEL").or (get "MODEL_NAME")).getD standard.model, maxTokens,
    ((get "RAILSHIFT_LOG_DIR").map Path.mk).getD standard.logDir,
    (get "RAILSHIFT_PROJECT_NAME").getD standard.projectName⟩

end Settings

end Transplant
