import Transplant.Text.Pattern

/-! View templates: the instance variables that a template names. -/
namespace Transplant.Rails

open Text Text.Pattern

/-- The instance variables are ascending, so each is there once. -/
structure Template where
  name : String
  instanceVariables : List String
  ascends : instanceVariables.Pairwise (· < ·)
  deriving DecidableEq, Repr

namespace Template

def instanceVariable : Pattern String := do
  literal "@"
  let name ← word
  return .ofList name

/-- Into an ascending list, unless it is there. -/
def insertSorted (x : String) : List String → List String
  | [] => [x]
  | y :: ys => if x < y then x :: y :: ys else if x = y then y :: ys else y :: insertSorted x ys

def ascending (xs : List String) : List String := xs.foldr insertSorted []

theorem mem_insertSorted {x z : String} {xs : List String} :
    z ∈ insertSorted x xs ↔ z = x ∨ z ∈ xs := by
  induction xs with
  | nil => simp [insertSorted]
  | cons y ys ih =>
    rw [insertSorted]
    split
    · rw [List.mem_cons]
    · split
      · rename_i same
        simp [same]
      · simp [ih, or_left_comm]

theorem mem_ascending {x : String} {xs : List String} : x ∈ ascending xs ↔ x ∈ xs := by
  induction xs with
  | nil => rfl
  | cons y ys ih =>
    change x ∈ insertSorted y (ascending ys) ↔ _
    rw [mem_insertSorted, ih, List.mem_cons]

theorem pairwise_insertSorted (x : String) {xs : List String} (ascends : xs.Pairwise (· < ·)) :
    (insertSorted x xs).Pairwise (· < ·) := by
  induction ascends with
  | nil => simp [insertSorted]
  | @cons y ys least rest ih =>
    rw [insertSorted]
    split
    · rename_i less
      refine .cons ?_ (.cons least rest)
      exact List.forall_mem_cons.mpr ⟨less, fun z member => String.lt_trans less (least z member)⟩
    · split
      · exact .cons least rest
      · rename_i above differ
        have above : y < x := Std.lt_of_le_of_ne above (Ne.symm differ)
        refine .cons ?_ ih
        intro z member
        rcases mem_insertSorted.mp member with rfl | old
        · exact above
        · exact least z old

theorem pairwise_ascending (xs : List String) : (ascending xs).Pairwise (· < ·) := by
  induction xs with
  | nil => exact .nil
  | cons x xs ih => exact pairwise_insertSorted x ih

/-- The instance variables of a text, ascending and each once. -/
def variablesIn (text : String) : List String := ascending (scan instanceVariable text.toList)

def ofText (name text : String) : Template := ⟨name, variablesIn text, pairwise_ascending _⟩

end Template

end Transplant.Rails
