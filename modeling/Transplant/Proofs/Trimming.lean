import Transplant.Text.Characters
import Mathlib.Data.List.Basic

/-! Trimming. It takes the blanks off both ends of a text and leaves what stands between as it is. -/
namespace Transplant.Text

def Blank (cs : List Char) : Prop := ∀ c ∈ cs, isBlank c = true

instance (cs : List Char) : Decidable (Blank cs) :=
  decidable_of_iff (cs.all isBlank = true) List.all_eq_true

theorem blank_nil : Blank [] := by simp [Blank]

/-- A text that trimming leaves as it is. -/
structure Solid (cs : List Char) : Prop where
  first : ∀ c ∈ cs.head?, isBlank c = false
  last : ∀ c ∈ cs.getLast?, isBlank c = false

theorem Solid.around {front back : List Char} (front_solid : Solid front) (front_some : front ≠ [])
    (back_solid : Solid back) (back_some : back ≠ []) (middle : List Char) :
    Solid (front ++ (middle ++ back)) := by
  constructor
  · rw [List.head?_append_of_ne_nil _ front_some]
    exact front_solid.first
  · rw [← List.append_assoc, List.getLast?_append_of_ne_nil _ back_some]
    exact back_solid.last

theorem trimEnd_of_blank {cs : List Char} (blank : Blank cs) : trimEnd cs = [] := by
  induction cs with
  | nil => rfl
  | cons c cs ih =>
    rw [Blank, List.forall_mem_cons] at blank
    rw [trimEnd, ih blank.2, if_pos blank.1]

theorem trimEnd_append {cs rest : List Char} (some : trimEnd rest ≠ []) :
    trimEnd (cs ++ rest) = cs ++ trimEnd rest := by
  induction cs with
  | nil => rfl
  | cons c cs ih =>
    rw [List.cons_append, trimEnd, ih]
    split
    · rename_i none
      exact absurd (List.append_eq_nil_iff.mp none).2 some
    · rfl

theorem trimEnd_concat {cs trail : List Char} {c : Char} (out : isBlank c = false) (blank : Blank trail) :
    trimEnd (cs ++ c :: trail) = cs ++ [c] := by
  have last : trimEnd (c :: trail) = [c] := by
    rw [trimEnd, trimEnd_of_blank blank, if_neg (by simp [out])]
  rw [trimEnd_append (by simp [last]), last]

theorem trimEnd_solid {core trail : List Char} (solid : Solid core) (blank : Blank trail) :
    trimEnd (core ++ trail) = core := by
  rcases List.eq_nil_or_concat core with rfl | ⟨front, c, rfl⟩
  · exact trimEnd_of_blank blank
  · rw [List.concat_eq_append] at solid ⊢
    rw [List.append_assoc]
    exact trimEnd_concat (solid.last c (by simp)) blank

theorem trimStart_append {lead rest : List Char} (blank : Blank lead) :
    trimStart (lead ++ rest) = trimStart rest :=
  List.dropWhile_append_of_pos blank

theorem trim_solid {lead core trail : List Char} (solid : Solid core) (lead_blank : Blank lead)
    (trail_blank : Blank trail) : trim (lead ++ (core ++ trail)) = core := by
  rw [trim, trimStart_append lead_blank]
  cases core with
  | nil =>
    have none : trimStart (trail ++ []) = [] := trimStart_append trail_blank
    rw [List.append_nil] at none
    rw [List.nil_append, none]
    rfl
  | cons c core =>
    have here : trimStart (c :: core ++ trail) = c :: core ++ trail := by
      rw [List.cons_append, trimStart, List.dropWhile_cons_of_neg (by simp [solid.first c rfl])]
    rw [here]
    exact trimEnd_solid solid trail_blank

theorem trimEnd_split (cs : List Char) : ∃ trail, cs = trimEnd cs ++ trail ∧ Blank trail ∧
    ∀ c ∈ (trimEnd cs).getLast?, isBlank c = false := by
  induction cs with
  | nil => exact ⟨[], rfl, blank_nil, by simp [trimEnd]⟩
  | cons c cs ih =>
    obtain ⟨trail, split, blank, last⟩ := ih
    rw [trimEnd]
    cases kept : trimEnd cs with
    | nil =>
      rw [kept, List.nil_append] at split
      by_cases out : isBlank c = true
      · exact ⟨c :: cs, by simp [out], List.forall_mem_cons.mpr ⟨out, split ▸ blank⟩, by simp [out]⟩
      · exact ⟨cs, by simp [out], split ▸ blank, by simp [out]⟩
    | cons d front =>
      rw [kept] at split last
      refine ⟨trail, congrArg (c :: ·) split, blank, ?_⟩
      change ∀ e ∈ (c :: d :: front).getLast?, _
      rwa [List.getLast?_cons_cons]

/-- What trimming takes off, and what stands between. -/
theorem trim_split (cs : List Char) : ∃ lead trail, cs = lead ++ (trim cs ++ trail) ∧ Blank lead ∧
    Blank trail ∧ Solid (trim cs) := by
  obtain ⟨trail, split, blank, last⟩ := trimEnd_split (trimStart cs)
  refine ⟨cs.takeWhile isBlank, trail, ?_, List.all_eq_true.mp List.all_takeWhile, blank, ?_, last⟩
  · rw [trim, ← split]
    exact List.takeWhile_append_dropWhile.symm
  · intro c first
    have start : c ∈ (trimStart cs).head? := by
      rw [split]
      exact List.mem_head?_append_of_mem_head? first
    have stop := List.head?_dropWhile_not isBlank cs
    rw [← trimStart, Option.mem_def.mp start] at stop
    simpa using stop

theorem trim_within (cs : List Char) : trim cs <:+: cs := by
  obtain ⟨lead, trail, split, _⟩ := trim_split cs
  exact ⟨lead, trail, by rw [List.append_assoc]; exact split.symm⟩

theorem trim_trim (cs : List Char) : trim (trim cs) = trim cs := by
  obtain ⟨_, _, _, _, _, solid⟩ := trim_split cs
  have again := trim_solid solid blank_nil blank_nil
  rwa [List.nil_append, List.append_nil] at again

/-- Only of blanks nothing stays. -/
theorem trim_eq_nil_iff {cs : List Char} : trim cs = [] ↔ Blank cs := by
  constructor
  · intro none
    obtain ⟨lead, trail, split, lead_blank, trail_blank, _⟩ := trim_split cs
    rw [none, List.nil_append] at split
    rw [split, Blank, List.forall_mem_append]
    exact ⟨lead_blank, trail_blank⟩
  · intro blank
    have nothing : Solid [] := ⟨by simp, by simp⟩
    simpa using trim_solid nothing blank blank_nil

end Transplant.Text
