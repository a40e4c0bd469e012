import Transplant.Django.Files
import Mathlib.Data.List.Basic

/-! The lines of a file, read back from its text. A file that is written line by line has these lines, as
long as none of them has an end of a line inside. -/
namespace Transplant

/-- Where a mark comes first, what stands in front of it and what stands behind it are given by the whole. -/
theorem append_mark_inj {α : Type} {mark : α} {a b xs ys : List α} (ha : mark ∉ a) (hb : mark ∉ b) :
    a ++ mark :: xs = b ++ mark :: ys ↔ a = b ∧ xs = ys := by
  induction a generalizing b with
  | nil => cases b <;> grind
  | cons c a ih => cases b <;> grind

namespace Django

def linesOf : List Char → List (List Char)
  | [] => []
  | '\n' :: cs => [] :: linesOf cs
  | c :: cs =>
    match linesOf cs with
    | line :: rest => (c :: line) :: rest
    | [] => [[c]]

def lines (text : String) : List String := (linesOf text.toList).map String.ofList

theorem linesOf_append {line : List Char} (plain : '\n' ∉ line) (cs : List Char) :
    linesOf (line ++ '\n' :: cs) = line :: linesOf cs := by
  induction line with
  | nil => rfl
  | cons c line ih =>
    rw [List.mem_cons, not_or] at plain
    have step : linesOf (c :: (line ++ '\n' :: cs)) = match linesOf (line ++ '\n' :: cs) with
        | first :: rest => (c :: first) :: rest
        | [] => [[c]] := by
      rw [linesOf]
      rintro rfl
      exact plain.1 rfl
    rw [List.cons_append, step, ih plain.2]

theorem unlines_cons_toList (line : String) (rest : List String) :
    (unlines (line :: rest)).toList = line.toList ++ '\n' :: (unlines rest).toList := by
  simp [unlines]

/-- What is written line by line is read line by line. -/
theorem lines_unlines_append {front : List String} (plain : ∀ line ∈ front, '\n' ∉ line.toList)
    (back : List String) : lines (unlines (front ++ back)) = front ++ lines (unlines back) := by
  induction front with
  | nil => rfl
  | cons line front ih =>
    rw [List.forall_mem_cons] at plain
    rw [List.cons_append, lines, unlines_cons_toList, linesOf_append plain.1, List.map_cons,
      String.ofList_toList, ← lines, ih plain.2, List.cons_append]

theorem lines_unlines {written : List String} (plain : ∀ line ∈ written, '\n' ∉ line.toList) :
    lines (unlines written) = written := by
  have none : lines (unlines []) = [] := rfl
  have whole := lines_unlines_append plain []
  rwa [none, List.append_nil] at whole

theorem unlines_inj {a b : List String} (plain_a : ∀ line ∈ a, '\n' ∉ line.toList)
    (plain_b : ∀ line ∈ b, '\n' ∉ line.toList) : unlines a = unlines b ↔ a = b := by
  constructor
  · intro same
    rw [← lines_unlines plain_a, same, lines_unlines plain_b]
  · rintro rfl
    rfl

end Django

end Transplant
