/-! Switches on a command line, long and short, and how words are read as switches. A switch that
takes a value takes it from its own word or from the next one. -/
namespace Transplant.CommandLine

/-- Why words do not lead to a command, or what they ask for instead. -/
inductive Usage where
  | help
  | version
  | helpForNothing
  | missingSubcommand
  | unknownSubcommand
  | unknownArgument
  | missingArgument
  | badValue
  | surplusValue
  | repeated
  deriving DecidableEq, Repr

inductive Effect where
  | flag
  | value
  | help
  | version
  deriving DecidableEq, Repr

structure Switch where
  name : String
  letter : Option Char
  effect : Effect
  required : Bool
  deriving DecidableEq, Repr

namespace Switch

def flag (name : String) (letter : Char) : Switch := ⟨name, some letter, .flag, false⟩

def value (name : String) (letter : Char) : Switch := ⟨name, some letter, .value, true⟩

def help : Switch := ⟨"help", some 'h', .help, false⟩

def version : Switch := ⟨"version", some 'V', .version, false⟩

end Switch

/-- Switches given so far. The last one may still wait for a value, or have one that was not looked
at yet. -/
structure Given where
  values : List (String × String)
  pending : Option (Switch × Option String)

namespace Given

def empty : Given := ⟨[], none⟩

def isAwaiting (g : Given) : Bool := g.pending.any fun p => p.2.isNone

/-- A switch is given once, and a value is not empty. -/
def store (s : Switch) (value : String) (g : Given) : Except Usage Given :=
  if (g.values.lookup s.name).isSome then .error .repeated
  else if s.effect = .value && value.isEmpty then .error .badValue
  else .ok { g with values := g.values ++ [(s.name, value)] }

def settle (g : Given) : Except Usage Given :=
  match g.pending with
  | none => .ok g
  | some (_, none) => .error .badValue
  | some (s, some value) => { g with pending := none }.store s value

def refuse (u : Usage) (g : Given) : Except Usage Given := do
  let _ ← g.settle
  .error u

def await (s : Switch) (g : Given) : Except Usage Given := do
  return { ← g.settle with pending := some (s, none) }

def attach (s : Switch) (value : String) (g : Given) : Except Usage Given := do
  (← g.settle).store s value

def take (s : Switch) (g : Given) : Except Usage Given :=
  match s.effect with
  | .flag => g.attach s ""
  | .value => g.await s
  | .help => g.refuse .help
  | .version => g.refuse .version

def fill (value : String) (g : Given) : Given :=
  { g with pending := g.pending.map fun p => (p.1, some value) }

end Given

/-- The text before the first equals sign, and the text behind it if there is one. -/
def splitEquals : List Char → List Char × Option (List Char)
  | [] => ([], none)
  | '=' :: cs => ([], some cs)
  | c :: cs =>
    let (name, value) := splitEquals cs
    (c :: name, value)

def readLong (switches : List Switch) (word : List Char) (g : Given) : Except Usage Given :=
  let (name, value) := splitEquals word
  match switches.find? fun s => s.name == .ofList name, value with
  | none, _ => g.refuse .unknownArgument
  | some s, none => g.take s
  | some s, some value =>
    if s.effect = .value then g.attach s (.ofList value) else g.refuse .surplusValue

def withoutEquals : List Char → List Char
  | '=' :: cs => cs
  | cs => cs

/-- Letters stand together; the first that takes a value takes the rest of the word for it. -/
def readShort (switches : List Switch) : List Char → Given → Except Usage Given
  | [], g => .ok g
  | c :: cs, g =>
    match switches.find? fun s => s.letter == some c with
    | none => g.refuse .unknownArgument
    | some s =>
      if s.effect = .value && !cs.isEmpty then g.attach s (.ofList (withoutEquals cs))
      else do readShort switches cs (← g.take s)

inductive Word where
  | dashes
  | long (text : List Char)
  | short (letters : List Char)
  | other
  deriving DecidableEq, Repr

def Word.ofText (word : String) : Word :=
  match word.toList with
  | ['-', '-'] => dashes
  | '-' :: '-' :: text => long text
  | '-' :: c :: letters => short (c :: letters)
  | _ => other

/-- One level of a command line: its switches, and the commands below it. -/
structure Level where
  switches : List Switch
  commands : List String

namespace Level

/-- A word that is neither a switch nor a command here. -/
def strange (l : Level) (afterDashes : Bool) (word : String) : Usage :=
  if l.commands.isEmpty || (afterDashes && l.commands.contains word) then .unknownArgument
  else .unknownSubcommand

/-- Reads words up to a command, and gives that and the words behind it. -/
def read (l : Level) : List String → Given → Except Usage (Given × Option (String × List String))
  | [], g => do return (← g.settle, none)
  | word :: rest, g =>
    if !g.isAwaiting && l.commands.contains word then do return (← g.settle, some (word, rest))
    else
      match Word.ofText word with
      | .dashes =>
        match rest with
        | [] => do return (← g.settle, none)
        | next :: _ => .error (l.strange true next)
      | .long text => do l.read rest (← readLong l.switches text g)
      | .short letters => do l.read rest (← readShort l.switches letters g)
      | .other => if g.isAwaiting then l.read rest (g.fill word) else .error (l.strange false word)

def lacks (l : Level) (g : Given) : Bool :=
  l.switches.any fun s => s.required && (g.values.lookup s.name).isNone

end Level

end Transplant.CommandLine
