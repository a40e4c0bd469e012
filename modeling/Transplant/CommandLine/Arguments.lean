import Transplant.CommandLine.Switch
import Transplant.Path

/-! The commands and their arguments. -/
namespace Transplant

inductive Command where
  | convert (input output : Path) (logDir : Option Path)
  | analyze (input : Path)
  | generate (plan output : Path)
  deriving DecidableEq, Repr

structure Arguments where
  verbose : Bool
  command : Command
  deriving DecidableEq, Repr

namespace CommandLine

def verbose : Switch := .flag "verbose" 'v'

def input : Switch := .value "input" 'i'

def output : Switch := .value "output" 'o'

def plan : Switch := .value "plan" 'p'

def logDir : Switch := ⟨"log-dir", none, .value, false⟩

def commandSwitches : List (String × List Switch) :=
  [("convert", [input, output, logDir]), ("analyze", [input]), ("generate", [plan, output])]

def commandNames : List String := commandSwitches.map Prod.fst

def top : Level := ⟨[verbose, .help, .version], commandNames ++ ["help"]⟩

def levelOf (name : String) : Level :=
  ⟨(commandSwitches.lookup name).getD [] ++ [verbose, .help], []⟩

def Given.path? (g : Given) (s : Switch) : Option Path := (g.values.lookup s.name).map Path.mk

def Given.path (g : Given) (s : Switch) : Except Usage Path :=
  match g.path? s with
  | some p => .ok p
  | none => .error .missingArgument

def Given.has (g : Given) (s : Switch) : Bool := (g.values.lookup s.name).isSome

def commandOf (name : String) (g : Given) : Except Usage Command := do
  match name with
  | "convert" => return .convert (← g.path input) (← g.path output) (g.path? logDir)
  | "analyze" => return .analyze (← g.path input)
  | "generate" => return .generate (← g.path plan) (← g.path output)
  | _ => .error .unknownSubcommand

/-- Help can be had on one command, or on help. -/
def helpOn : List String → Usage
  | [] => .help
  | [name] => if top.commands.contains name then .help else .unknownSubcommand
  | _ => .unknownSubcommand

def readCommand (name : String) (words : List String) : Except Usage (Given × Command) := do
  let level := levelOf name
  let (g, _) ← level.read words .empty
  if level.lacks g then .error .missingArgument else return (g, ← commandOf name g)

def ofWords (words : List String) : Except Usage Arguments := do
  match ← top.read words .empty with
  | (g, none) => .error (if g.values.isEmpty then .helpForNothing else .missingSubcommand)
  | (outer, some (name, rest)) =>
    if name = "help" then .error (helpOn rest)
    else
      let (g, command) ← readCommand name rest
      return ⟨outer.has verbose || g.has verbose, command⟩

def usageText : String := "\n".intercalate
  ["Usage: railshift [--verbose] <COMMAND>", "",
   "Commands:",
   "  convert --input <DIR> --output <DIR> [--log-dir <DIR>]",
   "  analyze --input <DIR>",
   "  generate --plan <FILE> --output <DIR>",
   "  help [COMMAND]"]

def versionText : String := "railshift 0.1.0"

def Usage.message : Usage → String
  | help => usageText
  | version => versionText
  | helpForNothing => usageText
  | missingSubcommand => "error: a command is required\n\n" ++ usageText
  | unknownSubcommand => "error: unknown command\n\n" ++ usageText
  | unknownArgument => "error: unexpected argument\n\n" ++ usageText
  | missingArgument => "error: a required argument was not given\n\n" ++ usageText
  | badValue => "error: an argument needs a value\n\n" ++ usageText
  | surplusValue => "error: a flag takes no value\n\n" ++ usageText
  | repeated => "error: an argument was given twice\n\n" ++ usageText

/-- Whether what was asked for is shown instead of a failure. -/
def Usage.isAnswer : Usage → Bool
  | help => true
  | version => true
  | _ => false

end CommandLine

end Transplant
