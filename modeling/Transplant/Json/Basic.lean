import Transplant.Json.Number
import Transplant.Keyed

/-! JSON values. The members of an object keep an order; `sorted` brings them into the order of
their keys. -/
namespace Transplant

inductive Json where
  | null
  | bool (value : Bool)
  | number (value : Json.Number)
  | string (value : String)
  | array (items : List Json)
  | object (members : List (String × Json))
  deriving Repr

namespace Json

instance : Inhabited Json := ⟨null⟩

def ofNat (n : Nat) : Json := number (.int n)

def ofStrings (xs : List String) : Json := array (xs.map string)

def ofOption (x : Option String) : Json := x.elim null string

def get? (key : String) : Json → Option Json
  | object members => members.lookup key
  | _ => none

mutual

def sorted : Json → Json
  | object members => object (Keyed.ofList (sortedMembers members))
  | array items => array (sortedItems items)
  | other => other

def sortedItems : List Json → List Json
  | [] => []
  | x :: xs => x.sorted :: sortedItems xs

def sortedMembers : List (String × Json) → List (String × Json)
  | [] => []
  | (k, v) :: rest => (k, v.sorted) :: sortedMembers rest

end

mutual

/-- Equality of values with sorted members. -/
def agrees : Json → Json → Bool
  | null, null => true
  | bool a, bool b => a == b
  | number a, number b => a.agrees b
  | string a, string b => a == b
  | array xs, array ys => itemsAgree xs ys
  | object xs, object ys => membersAgree xs ys
  | _, _ => false

def itemsAgree : List Json → List Json → Bool
  | [], [] => true
  | x :: xs, y :: ys => x.agrees y && itemsAgree xs ys
  | _, _ => false

def membersAgree : List (String × Json) → List (String × Json) → Bool
  | [], [] => true
  | (k, x) :: xs, (l, y) :: ys => k == l && x.agrees y && membersAgree xs ys
  | _, _ => false

end

end Json

end Transplant
