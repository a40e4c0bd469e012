import Transplant.Json.Basic
import Transplant.Text.Characters
import Transplant.Yaml.Grammar

/-! Values and records read from nodes. Repeated nodes are followed only so often, and values nest
only so deep. -/
namespace Transplant.Yaml

/-- A reading keeps count of how often it may still follow a repeated node. -/
abbrev Reading := StateT Nat Option

def spend : Reading Unit := do
  match ← get with
  | 0 => failure
  | left + 1 => set left

def nestingLimit : Nat := 128

/-- Follows each repeated node a hundred times as often as the document is large. -/
def Reading.of? {α : Type} (r : Reading α) (size : Nat) : Option α :=
  (r.run (100 * size)).map Prod.fst

def coreTag (kind : String) : String := "tag:yaml.org,2002:" ++ kind

def isLocalTag (tag : Option String) : Bool := tag.any fun t => t.toList.head? == some '!'

def isWord (n : Int) : Bool := -(Int.ofNat (pow2 63)) ≤ n && n < Int.ofNat (pow2 64)

def number? (n : Int) : Option Json := if isWord n then some (.number (.int n)) else none

def plainValue? (text : String) : Option Json :=
  match meaning (Text.charsOf text) with
  | .null => some .null
  | .bool b => some (.bool b)
  | .int n => number? n
  | .real x => some (.number (.real x))
  | .notFinite => some .null
  | .text => some (.string text)

def taggedBool? (word : String) : Option Json :=
  if trueWords.contains word then some (.bool true)
  else if falseWords.contains word then some (.bool false)
  else none

def taggedFloat? (word : String) : Option Json :=
  if isNotFinite (Text.charsOf word) then some .null
  else (real? (Text.charsOf word)).map fun x => .number (.real x)

/-- Of the core tags those of simple values demand a value; any other leaves the text alone. -/
def taggedValue? (tag word : String) : Option Json :=
  if tag == coreTag "bool" then taggedBool? word
  else if tag == coreTag "int" then ((int? (Text.charsOf word)).filter fits).bind number?
  else if tag == coreTag "float" then taggedFloat? word
  else if tag == coreTag "null" then
    if nullWords.tail.contains word then some .null else none
  else some (.string word)

def scalarValue? (tag : Option String) (style : Style) (text : String) : Option Json :=
  match tag with
  | some t => if isLocalTag tag then none else taggedValue? t text
  | none => if style = .plain then plainValue? text else some (.string text)

namespace Node

def followed : Node → Reading Node
  | repeated n => do
    spend
    return n
  | endless => failure
  | n => return n

/-- Any scalar is a text, whatever it would stand for. -/
def text (n : Node) : Reading String := do
  match ← n.followed with
  | scalar _ _ text => return text
  | _ => failure

mutual

def value : Nat → Node → Reading Json
  | _, scalar tag style text => liftM (scalarValue? tag style text)
  | 0, sequence _ _ => failure
  | depth + 1, sequence tag items => do
    if isLocalTag tag then failure else return .array (← values depth items)
  | 0, mapping _ _ => failure
  | depth + 1, mapping tag members => do
    if isLocalTag tag then failure
    else return .object (Keyed.ofList (← memberValues depth members))
  | depth, repeated n => do
    spend
    value depth n
  | _, endless => failure

def values : Nat → List Node → Reading (List Json)
  | _, [] => return []
  | depth, x :: xs => do
    let v ← value depth x
    return v :: (← values depth xs)

def memberValues : Nat → List (Node × Node) → Reading (List (String × Json))
  | _, [] => return []
  | depth, (k, v) :: rest => do
    let key ← text k
    let v ← value depth v
    return (key, v) :: (← memberValues depth rest)

end

/-- A natural number of 64 bits, not in quotes. -/
def word (n : Node) : Reading Nat := do
  match ← n.followed with
  | scalar tag style text =>
    if style = .plain || (style = .literal && tag == some (coreTag "int")) then
      match (magnitude? (withoutPlus (Text.charsOf text))).filter (· < pow2 64) with
      | some n => return n
      | none => failure
    else failure
  | _ => failure

/-- The items of a sequence, which may be left blank. -/
def items (n : Node) : Reading (List Node) := do
  match ← n.followed with
  | sequence _ items => return items
  | scalar _ style text => if style = .plain && text.isEmpty then return [] else failure
  | _ => failure

/-- The only member of a name. -/
def part (members : List (String × Node)) (name : String) : Reading Node :=
  match members.filter fun m => m.1 == name with
  | [m] => return m.2
  | _ => failure

/-- The parts of a record, by their names or in their order. -/
def parts (names : List String) (n : Node) : Reading (List Node) := do
  match ← n.followed with
  | sequence _ items => if items.length = names.length then return items else failure
  | mapping _ members =>
    let members ← members.mapM fun m => do return (← text m.1, m.2)
    names.mapM (part members)
  | _ => failure

end Node

end Transplant.Yaml
