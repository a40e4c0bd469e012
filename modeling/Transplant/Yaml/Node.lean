import Transplant.Yaml.Style

/-! Nodes of YAML. A node that repeats an earlier one holds it. A node that repeats one around
itself has no end and holds nothing. -/
namespace Transplant.Yaml

inductive Node where
  | scalar (tag : Option String) (style : Style) (text : String)
  | sequence (tag : Option String) (items : List Node)
  | mapping (tag : Option String) (members : List (Node × Node))
  | repeated (earlier : Node)
  | endless
  deriving Repr

namespace Node

instance : Inhabited Node := ⟨endless⟩

/-- What stands where nothing is written. -/
def blank (tag : Option String) : Node := scalar tag .plain ""

mutual

/-- Scalars, repetitions, and both ends of sequences and mappings. -/
def size : Node → Nat
  | scalar _ _ _ => 1
  | sequence _ items => itemsSize items + 2
  | mapping _ members => membersSize members + 2
  | repeated _ => 1
  | endless => 1

def itemsSize : List Node → Nat
  | [] => 0
  | x :: xs => size x + itemsSize xs

def membersSize : List (Node × Node) → Nat
  | [] => 0
  | (k, v) :: rest => size k + size v + membersSize rest

end

end Node

end Transplant.Yaml
