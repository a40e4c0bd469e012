import Transplant.Text.Characters

/-! Patterns read a beginning of a text and return what follows it. `scan` collects the places
where a pattern reads, from left to right and without overlaps. -/
namespace Transplant.Text

abbrev Pattern (α : Type) := StateT (List Char) Option α

namespace Pattern

def literalList : List Char → List Char → Option (List Char)
  | [], rest => some rest
  | c :: cs, d :: rest => if c = d then literalList cs rest else none
  | _ :: _, [] => none

def literal (s : String) : Pattern Unit := fun cs =>
  (literalList s.toList cs).map ((), ·)

/-- The characters of a class up to the first other one. -/
def run (p : Char → Bool) : Pattern (List Char) := fun cs => some (cs.takeWhile p, cs.dropWhile p)

def run1 (p : Char → Bool) : Pattern (List Char) := fun cs =>
  match cs.takeWhile p with
  | [] => none
  | read => some (read, cs.dropWhile p)

def one (p : Char → Bool) : Pattern Char
  | [] => none
  | c :: cs => if p c then some (c, cs) else none

def blanks : Pattern Unit := do let _ ← run isBlank

def blanks1 : Pattern Unit := do let _ ← run1 isBlank

def word : Pattern (List Char) := run1 isWord

def maybe {α : Type} (p : Pattern α) : Pattern (Option α) := fun cs =>
  match p cs with
  | some (a, rest) => some (some a, rest)
  | none => some (none, cs)

def either {α : Type} (p q : Pattern α) : Pattern α := fun cs =>
  match p cs with
  | some found => some found
  | none => q cs

def oneOf {α : Type} : List (Pattern α) → Pattern α
  | [] => fun _ => none
  | p :: ps => either p (oneOf ps)

def manyUpTo {α : Type} (p : Pattern α) : Nat → List Char → List α × List Char
  | 0, cs => ([], cs)
  | n + 1, cs =>
    match p cs with
    | some (a, rest) =>
      let (more, final) := manyUpTo p n rest
      (a :: more, final)
    | none => ([], cs)

/-- As many readings in a row as there are; each is taken to read something. -/
def many {α : Type} (p : Pattern α) : Pattern (List α) := fun cs => some (manyUpTo p cs.length cs)

/-- No word character follows. -/
def wordEnd : Pattern Unit := fun cs =>
  match cs with
  | [] => some ((), [])
  | c :: rest => if isWord c then none else some ((), c :: rest)

def atEnd : Pattern Unit := fun cs => if cs.isEmpty then some ((), []) else none

end Pattern

/-- The readings of a pattern from left to right. An `edged` pattern starts only where no word
character stands before; `skip` characters are already read. -/
def scanFrom {α : Type} (edged : Bool) (p : Pattern α) : Bool → Nat → List Char → List α
  | _, _, [] => []
  | _, skip + 1, c :: cs => scanFrom edged p (isWord c) skip cs
  | inWord, 0, c :: cs =>
    match if edged && inWord then none else p (c :: cs) with
    | some (a, rest) => a :: scanFrom edged p (isWord c) (cs.length - rest.length) cs
    | none => scanFrom edged p (isWord c) 0 cs

def scan {α : Type} (p : Pattern α) (cs : List Char) : List α := scanFrom false p false 0 cs

def scanWords {α : Type} (p : Pattern α) (cs : List Char) : List α := scanFrom true p false 0 cs

end Transplant.Text
