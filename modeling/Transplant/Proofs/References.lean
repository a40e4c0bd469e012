import Mathlib.Data.List.DropRight
import Transplant.Proofs.ApplicationText
import Transplant.Proofs.Scans

/-! The variables that a template refers to. A reference is a sigil with a word behind it, up to where the
word ends. No sigil is part of a word, so a scan from left to right meets each reference, and two texts
refer to what one of them refers to unless a reference goes on from the first into the second. -/
namespace Transplant.Rails.Template

open Text Text.Pattern

/-- The name stands in the text right behind a sigil, and no further word character behind the name. -/
def RefersTo (cs name : List Char) : Prop :=
  ∃ front rest, cs = front ++ '@' :: (name ++ rest) ∧ Stops isWord rest

def EndsInReference (cs : List Char) : Prop :=
  ∃ front name, cs = front ++ '@' :: name ∧ ∀ c ∈ name, isWord c = true

structure IsVariable (name : List Char) : Prop where
  nonempty : name ≠ []
  inWord : ∀ c ∈ name, isWord c = true

theorem instanceVariable_eq_some {cs rest : List Char} {v : String} :
    instanceVariable cs = some (v, rest) ↔
      cs = '@' :: (v.toList ++ rest) ∧ IsVariable v.toList ∧ Stops isWord rest := by
  constructor
  · intro read
    obtain ⟨_, _, sigil, read⟩ := bind_eq_some.mp read
    have start := literal_eq_some.mp sigil
    obtain ⟨name, _, named, last⟩ := bind_eq_some.mp read
    obtain ⟨split, word, stops, nonempty⟩ := run1_eq_some.mp named
    obtain ⟨rfl, rfl⟩ := pure_eq_some.mp last
    rw [String.toList_ofList]
    exact ⟨by rw [start, split]; rfl, ⟨nonempty, List.all_eq_true.mp word⟩, stops⟩
  · rintro ⟨rfl, name, stops⟩
    refine bind_eq_some.mpr ⟨(), _, literal_eq_some.mpr rfl, ?_⟩
    refine bind_eq_some.mpr ⟨v.toList, rest, run1_eq_some.mpr
      ⟨rfl, List.all_eq_true.mpr name.inWord, stops, name.nonempty⟩, ?_⟩
    exact pure_eq_some.mpr ⟨String.ofList_toList, rfl⟩

theorem instanceVariable_unnested : Unnested instanceVariable := by
  intro cs v rest read
  obtain ⟨rfl, name, _⟩ := instanceVariable_eq_some.mp read
  refine ⟨'@', v.toList, rfl, fun before behind split some => ?_⟩
  obtain ⟨c, behind, rfl⟩ := List.exists_cons_of_ne_nil some
  have word := name.inWord c (by simp [split])
  cases reads : instanceVariable (c :: behind ++ rest) with
  | none => rfl
  | some found =>
    obtain ⟨start, _⟩ := instanceVariable_eq_some.mp reads
    obtain ⟨rfl, _⟩ := List.cons.inj start
    exact absurd word (by decide)

theorem mem_variablesIn_iff {text v : String} :
    v ∈ variablesIn text ↔ IsVariable v.toList ∧ RefersTo text.toList v.toList := by
  rw [variablesIn, mem_ascending, scan, mem_scanFrom_iff instanceVariable_unnested]
  constructor
  · rintro ⟨front, tail, rest, split, _, _, reads⟩
    obtain ⟨rfl, name, stops⟩ := instanceVariable_eq_some.mp reads
    exact ⟨name, front, rest, split, stops⟩
  · rintro ⟨name, front, rest, split, stops⟩
    exact ⟨front, _, rest, split, Nat.zero_le _, rfl, instanceVariable_eq_some.mpr ⟨rfl, name, stops⟩⟩

theorem RefersTo.behind {s t name : List Char} (refers : RefersTo t name) : RefersTo (s ++ t) name := by
  obtain ⟨front, rest, rfl, stops⟩ := refers
  exact ⟨s ++ front, rest, by simp, stops⟩

theorem RefersTo.before {s t name : List Char} (refers : RefersTo s name)
    (word : ∀ c ∈ name, isWord c = true) (seam : Stops isWord t ∨ ¬ EndsInReference s) :
    RefersTo (s ++ t) name := by
  obtain ⟨front, rest, rfl, stops⟩ := refers
  refine ⟨front, rest ++ t, by simp, ?_⟩
  cases rest with
  | cons c rest => exact stops_cons (stops c rfl)
  | nil => exact seam.resolve_right fun closed => closed ⟨front, name, by simp, word⟩

theorem RefersTo.of_append {s t name : List Char} (refers : RefersTo (s ++ t) name)
    (word : ∀ c ∈ name, isWord c = true) (seam : Stops isWord t ∨ ¬ EndsInReference s) :
    RefersTo s name ∨ RefersTo t name := by
  obtain ⟨front, rest, split, stops⟩ := refers
  rcases List.append_eq_append_iff.mp split with ⟨more, rfl, behind⟩ | ⟨more, rfl, behind⟩
  · exact .inr ⟨more, rest, behind, stops⟩
  · cases more with
    | nil => exact .inr ⟨[], rest, behind.symm, stops⟩
    | cons d more =>
      obtain ⟨rfl, _⟩ := List.cons.inj behind
      have behind : name ++ rest = more ++ t := (List.cons.inj behind).2
      rcases List.append_eq_append_iff.mp behind with ⟨further, rfl, same⟩ | ⟨further, rfl, same⟩
      · refine .inl ⟨front, further, rfl, fun c first => stops c ?_⟩
        rw [same]
        exact List.mem_head?_append_of_mem_head? first
      · rw [List.forall_mem_append] at word
        cases further with
        | nil => exact .inl ⟨front, [], by simp, by simp [Stops]⟩
        | cons e further =>
          -- The name goes on behind the seam, which the seam does not allow.
          exfalso
          rcases seam with out | closed
          · have other := out e (by rw [same]; rfl)
            simp [word.2 e List.mem_cons_self] at other
          · exact closed ⟨front, more, rfl, word.1⟩

theorem endsInReference_iff {cs : List Char} :
    EndsInReference cs ↔ (cs.rdropWhile isWord).getLast? = some '@' := by
  constructor
  · rintro ⟨front, name, rfl, word⟩
    have dropped : (name.reverse ++ '@' :: front.reverse).dropWhile isWord = '@' :: front.reverse := by
      rw [List.dropWhile_append_of_pos (by simpa using word), List.dropWhile_cons_of_neg (by decide)]
    simp [List.rdropWhile, dropped]
  · intro last
    obtain ⟨front, same⟩ := List.getLast?_eq_some_iff.mp last
    refine ⟨front, cs.rtakeWhile isWord, ?_, fun c member => List.mem_rtakeWhile_imp member⟩
    have split := List.rdropWhile_append_rtakeWhile (p := isWord) (l := cs)
    rw [same] at split
    simpa using split.symm

instance (cs : List Char) : Decidable (EndsInReference cs) := decidable_of_iff' _ endsInReference_iff

/-- The variables of a text are the names that it refers to, each once and ascending by code points. Two
texts in a row have the variables of both, unless a reference of the first goes on in the second. -/
theorem variables_are_references :
    (∀ text v : String, v ∈ variablesIn text ↔ IsVariable v.toList ∧ RefersTo text.toList v.toList) ∧
    (∀ text : String, (variablesIn text).Pairwise (· < ·)) ∧
    ∀ s t : String, Stops isWord t.toList ∨ ¬ EndsInReference s.toList →
      ∀ v, v ∈ variablesIn (s ++ t) ↔ v ∈ variablesIn s ∨ v ∈ variablesIn t := by
  refine ⟨fun _ _ => mem_variablesIn_iff, fun _ => pairwise_ascending _, ?_⟩
  intro s t seam v
  simp only [mem_variablesIn_iff, String.toList_append, ← and_or_left]
  refine and_congr_right fun name => ⟨fun refers => refers.of_append name.inWord seam, ?_⟩
  rintro (refers | refers)
  · exact refers.before name.inWord seam
  · exact refers.behind

theorem variables_at_seams :
    (Stops isWord ".c @a".toList ∨ ¬ EndsInReference "@@a @b".toList) ∧
      (∀ v, v ∈ variablesIn ("@@a @b" ++ ".c @a") ↔ v ∈ variablesIn "@@a @b" ∨ v ∈ variablesIn ".c @a") ∧
      (Stops isWord "c @d".toList ∨ ¬ EndsInReference "a@ b".toList) ∧
      ∀ v, v ∈ variablesIn ("a@ b" ++ "c @d") ↔ v ∈ variablesIn "a@ b" ∨ v ∈ variablesIn "c @d" := by
  have stops : Stops isWord ".c @a".toList ∨ ¬ EndsInReference "@@a @b".toList := .inl (by decide)
  have closed : Stops isWord "c @d".toList ∨ ¬ EndsInReference "a@ b".toList := .inr (by decide)
  exact ⟨stops, variables_are_references.2.2 _ _ stops, closed, variables_are_references.2.2 _ _ closed⟩

/-- A reference that goes on behind the seam is neither in the first text nor in the second. -/
example : variablesIn ("@a" ++ "b") = ["ab"] ∧ variablesIn "@a" = ["a"] := by decide +kernel

end Transplant.Rails.Template
