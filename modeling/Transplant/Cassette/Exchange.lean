import Transplant.Cassette.Basic
import Transplant.Services
import Transplant.Text.Quoted

/-! How exchanges with a language model and looks at a clock are written on a tape, and how answers
are read back. -/
namespace Transplant

open Decimal

namespace Channel

def model : Channel := ⟨"llm", "complete"⟩

def clock : Channel := ⟨"clock", "now"⟩

end Channel

/-- Why a value is not of the form that is expected. -/
inductive Mismatch where
  | type (found : Json) (expected : String)
  | range (found : Json) (expected : String)
  | missing (field : String)
  | length (found : Nat) (expected : String)
  deriving Repr

namespace Mismatch

def code (s : String) : String := "\x60" ++ s ++ "\x60"

def describe : Json → String
  | .null => "null"
  | .bool true => "boolean " ++ code "true"
  | .bool false => "boolean " ++ code "false"
  | .number (.int n) => "integer " ++ code (toString n)
  | .number (.real x) => "floating point " ++ code (Json.Number.real x).render
  | .string s => "string " ++ Text.quoted s
  | .array _ => "sequence"
  | .object _ => "map"

def message : Mismatch → String
  | type found expected => "invalid type: " ++ describe found ++ ", expected " ++ expected
  | range found expected => "invalid value: " ++ describe found ++ ", expected " ++ expected
  | missing field => "missing field " ++ code field
  | length found expected => "invalid length " ++ toString found ++ ", expected " ++ expected

end Mismatch

/-- The members in the order of their names; the temperature in double precision. -/
def Request.toJson (r : Request) : Json :=
  let system := (r.system.map fun s => [("system", Json.string s)]).getD []
  let temperature := (r.temperature.convert? double).map fun x => Json.number (.real x)
  .object (
    [("max_tokens", .ofNat r.maxTokens), ("model", .string r.model), ("prompt", .string r.prompt)] ++
    system ++ [("temperature", temperature.getD .null)])

namespace Completion

def toJson (c : Completion) : Json :=
  .object
    [("completion_tokens", .ofNat c.completionTokens), ("prompt_tokens", .ofNat c.promptTokens),
     ("text", .string c.text)]

def readText : Json → Except Mismatch String
  | .string s => .ok s
  | found => .error (.type found "a string")

/-- A count has 32 bits. -/
def readCount : Json → Except Mismatch Nat
  | .number (.int n) =>
    if 0 ≤ n && n < Int.ofNat (pow2 32) then .ok n.toNat else .error (.range (.number (.int n)) "u32")
  | found => .error (.type found "u32")

def expected : String := "struct CompletionResponse"

/-- The parts in the order of their names, and after them those that are missing. -/
def ofMembers (members : List (String × Json)) : Except Mismatch Completion := do
  let completionTokens ← (members.lookup "completion_tokens").mapM readCount
  let promptTokens ← (members.lookup "prompt_tokens").mapM readCount
  let text ← (members.lookup "text").mapM readText
  match text, promptTokens, completionTokens with
  | none, _, _ => .error (.missing "text")
  | _, none, _ => .error (.missing "prompt_tokens")
  | _, _, none => .error (.missing "completion_tokens")
  | some text, some promptTokens, some completionTokens =>
    return ⟨text, promptTokens, completionTokens⟩

def ofItems (items : List Json) : Except Mismatch Completion := do
  let part (n : Nat) : Except Mismatch Json :=
    match items[n]? with
    | some x => .ok x
    | none => .error (.length n (expected ++ " with 3 elements"))
  let text ← readText (← part 0)
  let promptTokens ← readCount (← part 1)
  let completionTokens ← readCount (← part 2)
  if 3 < items.length then .error (.length items.length "fewer elements in array")
  else return ⟨text, promptTokens, completionTokens⟩

def ofJson : Json → Except Mismatch Completion
  | .object members => ofMembers members
  | .array items => ofItems items
  | found => .error (.type found expected)

end Completion

/-- A failure is written apart from an answer. -/
def answerOutput : Except String Completion → Json
  | .ok c => .object [("ok", c.toJson)]
  | .error message => .object [("err", .string message)]

def textOr (otherwise : String) : Json → String
  | .string s => s
  | _ => otherwise

def modelContext : String := "llm::complete: failed to deserialize: "

/-- An answer may stand there without a mark. -/
def answerOf (output : Json) : Except String Completion :=
  match output.get? "err" with
  | some e => .error (textOr "unknown error" e)
  | none =>
    match Completion.ofJson ((output.get? "ok").getD output) with
    | .ok c => .ok c
    | .error e => .error (modelContext ++ e.message)

end Transplant
