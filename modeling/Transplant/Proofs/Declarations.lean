import Transplant.Proofs.Scans
import Transplant.Rails.Controller
import Transplant.Rails.Record

/-! Declarations of classes. Records and controllers are declared alike, below a base of their own, and a
declaration is read just where it stands as such: `class`, a name and the base as words of their own. -/
namespace Transplant.Rails

open Text Text.Pattern

inductive Kind where
  | record
  | controller

namespace Kind

def base : Kind → String
  | record => "ApplicationRecord"
  | controller => "ApplicationController"

/-- The names that are read: all for records, and those of controllers for controllers. -/
def accepts : Kind → List Char → Bool
  | record => fun _ => true
  | controller => Controller.isControllerName

def declaration : Kind → Pattern String
  | record => Record.declaration
  | controller => Controller.declaration

end Kind

/-- The text starts with the declaration of a class, behind which the rest follows. -/
structure Declares (k : Kind) (name cs rest : List Char) : Prop where
  starts : ∃ gap₁ gap₂ gap₃, gap₁ ≠ [] ∧ Blank gap₁ ∧ Blank gap₂ ∧ Blank gap₃ ∧
    cs = "class".toList ++ (gap₁ ++ (name ++ (gap₂ ++ ('<' :: (gap₃ ++ (k.base.toList ++ rest))))))
  nonempty : name ≠ []
  inWord : ∀ c ∈ name, isWord c = true
  accepted : k.accepts name = true
  ends : Stops isWord rest

theorem Declares.head? {k : Kind} {name cs rest : List Char} (declares : Declares k name cs rest) :
    cs.head? = some 'c' := by
  obtain ⟨_, _, _, _, _, _, _, rfl⟩ := declares.starts
  rfl

theorem Declares.ne_nil {k : Kind} {name cs rest : List Char} (declares : Declares k name cs rest) :
    cs ≠ [] := by
  rintro rfl
  cases declares.head?

namespace Kind

def name (k : Kind) : Pattern (List Char) := fun cs =>
  match word cs with
  | some (w, rest) => if k.accepts w then some (w, rest) else none
  | none => none

theorem declaration_eq (k : Kind) : k.declaration = do
    literal "class"
    blanks1
    let w ← k.name
    blanks
    literal "<"
    blanks
    literal k.base
    wordEnd
    return .ofList w := by
  cases k with
  | record =>
    have all : record.name = word := by
      funext cs
      rw [name]
      cases read : word cs <;> simp [accepts]
    rw [all]
    rfl
  | controller => rfl

theorem name_eq_some {k : Kind} {w cs rest : List Char} : k.name cs = some (w, rest) ↔
    cs = w ++ rest ∧ w ≠ [] ∧ (∀ c ∈ w, isWord c = true) ∧ Stops isWord rest ∧ k.accepts w = true := by
  have split : k.name cs = some (w, rest) ↔ word cs = some (w, rest) ∧ k.accepts w = true := by
    rw [name]
    cases read : word cs with
    | none => simp
    | some found =>
      obtain ⟨v, behind⟩ := found
      constructor
      · intro h
        obtain ⟨fits, same⟩ := Option.ite_none_right_eq_some.mp h
        cases same
        exact ⟨rfl, fits⟩
      · rintro ⟨same, fits⟩
        cases same
        exact if_pos fits
  rw [split, word, run1_eq_some, List.all_eq_true]
  tauto

theorem base_starts (k : Kind) : ∃ c cs, k.base.toList = c :: cs ∧ isWord c = true := by
  cases k <;> exact ⟨'A', _, rfl, by decide⟩

theorem base_inWord (k : Kind) : ∀ c ∈ k.base.toList, isWord c = true := by
  refine List.all_eq_true.mp ?_
  cases k <;> decide

/-- A declaration is read just where the text starts with it. -/
theorem declaration_eq_some {k : Kind} {s : String} {cs rest : List Char} :
    k.declaration cs = some (s, rest) ↔ ∃ w, Declares k w cs rest ∧ s = .ofList w := by
  rw [declaration_eq]
  simp only [bind_eq_some, literal_eq_some, blanks1_eq_some, blanks_eq_some, name_eq_some,
    wordEnd_eq_some, pure_eq_some, List.all_eq_true]
  constructor
  · rintro ⟨_, _, rfl, _, _, ⟨gap₁, rfl, blank₁, _, some⟩, w, _, ⟨rfl, nonempty, inWord, _, fits⟩, _, _,
      ⟨gap₂, rfl, blank₂, _⟩, _, _, rfl, _, _, ⟨gap₃, rfl, blank₃, _⟩, _, _, rfl, _, _, ⟨rfl, ends⟩, rfl, rfl⟩
    exact ⟨w, ⟨⟨gap₁, gap₂, gap₃, some, blank₁, blank₂, blank₃, rfl⟩, nonempty, inWord, fits, ends⟩, rfl⟩
  · rintro ⟨w, ⟨⟨gap₁, gap₂, gap₃, some, blank₁, blank₂, blank₃, rfl⟩, nonempty, inWord, fits, ends⟩, rfl⟩
    obtain ⟨c, w, rfl⟩ := List.exists_cons_of_ne_nil nonempty
    obtain ⟨b, bs, base, word⟩ := k.base_starts
    have first : isBlank c = false := not_isBlank_of_isWord (inWord c List.mem_cons_self)
    have edge : Stops isWord (gap₂ ++ '<' :: (gap₃ ++ (k.base.toList ++ rest))) :=
      stops_append (fun d member => not_isWord_of_isBlank (blank₂ d member)) (stops_cons (by decide))
    have last : Stops isBlank (k.base.toList ++ rest) := by
      rw [base]
      exact stops_cons (not_isBlank_of_isWord word)
    exact ⟨(), _, rfl, (), _, ⟨gap₁, rfl, blank₁, stops_cons first, some⟩, c :: w, _,
      ⟨rfl, nonempty, inWord, edge, fits⟩, (), _, ⟨gap₂, rfl, blank₂, stops_cons (by decide)⟩, (), _, rfl, (),
      _, ⟨gap₃, rfl, blank₃, last⟩, (), _, rfl, (), _, ⟨rfl, ends⟩, rfl, rfl⟩

end Kind

end Transplant.Rails
