import Transplant.Json.Document

/-! Records read from documents. A record is written as an object with known keys, or as an array
of its parts in order. Other keys are skipped without a look at their values. -/
namespace Transplant.Json

/-- A part of a record: given, left out of an object, or behind the end of an array. -/
inductive Part where
  | given (d : Document)
  | absent
  | cut

namespace Part

def required {α : Type} (read : Document → Option α) : Part → Option α
  | given d => read d
  | absent => none
  | cut => none

/-- A part with a value of its own where it is not written. -/
def orElse {α : Type} (otherwise : α) (read : Document → Option α) : Part → Option α
  | given d => read d
  | absent => some otherwise
  | cut => some otherwise

end Part

namespace Document

def asString? : Document → Option String
  | string s => s
  | _ => none

/-- A null is no value. -/
def asNullable? {α : Type} (read : Document → Option α) : Document → Option (Option α)
  | null => some none
  | d => (read d).map some

def asList? {α : Type} (read : Document → Option α) : Document → Option (List α)
  | array items => items.mapM read
  | _ => none

/-- A nullable part that an array must not leave out. -/
def nullablePart {α : Type} (read : Document → Option α) : Part → Option (Option α)
  | .given d => asNullable? read d
  | .absent => some none
  | .cut => none

/-- The only member with one of the names of a part. -/
def partOf? (names : List String) (members : List (String × Document)) : Option Part :=
  match members.filter fun m => names.contains m.1 with
  | [] => some .absent
  | [m] => some (.given m.2)
  | _ => none

/-- As many parts as a record has. -/
def cutTo : Nat → List Document → List Part
  | 0, _ => []
  | n + 1, [] => .cut :: cutTo n []
  | n + 1, d :: ds => .given d :: cutTo n ds

def keyed? (members : List (Option String × Document)) : Option (List (String × Document)) :=
  members.mapM fun m => m.1.map (·, m.2)

def objectParts? (names : List (List String)) : Document → Option (List Part)
  | object members => do
    let members ← keyed? members
    names.mapM fun n => partOf? n members
  | _ => none

/-- The parts of a record, by their names or in their order. -/
def parts? (names : List (List String)) : Document → Option (List Part)
  | array items =>
    if items.length ≤ names.length then some (cutTo names.length items) else none
  | d => objectParts? names d

end Document

end Transplant.Json
