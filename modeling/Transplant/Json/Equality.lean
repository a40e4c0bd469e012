import Transplant.Json.Basic
import Transplant.Text.Characters

/-! Equality of JSON values, which keeps apart what differs in the order of its members or in the sign of
a zero. -/
namespace Transplant.Json

mutual

def same : Json → Json → Bool
  | null, null => true
  | bool a, bool b => a == b
  | number a, number b => a == b
  | string a, string b => Text.charsOf a == Text.charsOf b
  | array xs, array ys => itemsSame xs ys
  | object xs, object ys => membersSame xs ys
  | _, _ => false

def itemsSame : List Json → List Json → Bool
  | [], [] => true
  | x :: xs, y :: ys => x.same y && itemsSame xs ys
  | _, _ => false

def membersSame : List (String × Json) → List (String × Json) → Bool
  | [], [] => true
  | (k, x) :: xs, (l, y) :: ys => k == l && x.same y && membersSame xs ys
  | _, _ => false

end

mutual

theorem same_iff (a b : Json) : a.same b = true ↔ a = b := by
  cases a <;> cases b <;> simp [same, Text.charsOf_eq, String.toList_inj, itemsSame_iff, membersSame_iff]

theorem itemsSame_iff (xs ys : List Json) : itemsSame xs ys = true ↔ xs = ys := by
  cases xs <;> cases ys <;> simp [itemsSame, same_iff, itemsSame_iff]

theorem membersSame_iff (xs ys : List (String × Json)) : membersSame xs ys = true ↔ xs = ys := by
  cases xs <;> cases ys <;> simp [membersSame, same_iff, membersSame_iff, Prod.ext_iff]

end

instance : DecidableEq Json := fun a b => decidable_of_iff _ (same_iff a b)

end Transplant.Json
