import Transplant.Proofs.Patterns
import Transplant.Rails.Erb

/-! The forms of code in tags. Loops and blocks are told by how their code ends, and the patterns
for them read code of these forms and no other. -/
namespace Transplant.Rails.Erb

open Text Text.Pattern

/-- What stands behind the receiver of a loop over it: `.each do |x|`. -/
def EachEnd (cs item : List Char) : Prop :=
  ∃ b₁ b₂ b₃ b₄,
    cs = ".each".toList ++ (b₁ ++ ("do".toList ++ (b₂ ++ ("|".toList ++ (b₃ ++ (item ++
      (b₄ ++ "|".toList))))))) ∧
    b₁ ≠ [] ∧ b₁.all isBlank = true ∧ b₂.all isBlank = true ∧ b₃.all isBlank = true ∧
    b₄.all isBlank = true ∧ item ≠ [] ∧ item.all isWord = true

/-- `xs.each do |x|`, with all of `xs` on one line. -/
def EachForm (code : List Char) : Prop :=
  ∃ receiver tail item, code = receiver ++ tail ∧ receiver ≠ [] ∧ '\n' ∉ receiver ∧
    EachEnd tail item

/-- What may stand behind the `do` of a block: nothing, or parameters between bars. -/
def DoEnd (tail : List Char) : Prop :=
  ∃ b, b.all isBlank = true ∧
    (tail = b ∨ ∃ parameters, tail = b ++ ("|".toList ++ (parameters ++ "|".toList)) ∧
      '|' ∉ parameters)

/-- The code ends in the word `do`, or in it and parameters. -/
def DoForm (code : List Char) : Prop :=
  ∃ front tail, code = front ++ ("do".toList ++ tail) ∧
    (front.getLast?.map isWord).getD false = false ∧ DoEnd tail

theorem not_isWord_of_blanks {xs : List Char} (blank : xs.all isBlank = true) :
    ∀ c ∈ xs, isWord c = false := fun c member =>
  not_isWord_of_isBlank (List.all_eq_true.mp blank c member)

theorem not_isBlank_of_words {xs : List Char} (words : xs.all isWord = true) :
    ∀ c ∈ xs, isBlank c = false := fun c member =>
  not_isBlank_of_isWord (List.all_eq_true.mp words c member)

theorem ne_sigil_of_isWord {c : Char} (word : isWord c = true) : c ≠ '@' := by
  rintro rfl
  exact absurd word (by decide)

theorem sigil_not_mem_blanks {xs : List Char} (blank : ∀ c ∈ xs, isBlank c = true) : '@' ∉ xs := fun inside =>
  absurd (blank _ inside) (by decide)

theorem withoutSigils_cons {c : Char} (other : c ≠ '@') (cs : List Char) :
    withoutSigils (c :: cs) = c :: withoutSigils cs := by
  rw [withoutSigils]
  exact fun _ _ sigil => absurd sigil other

theorem withoutSigils_append {front : List Char} (none : '@' ∉ front) (rest : List Char) :
    withoutSigils (front ++ rest) = front ++ withoutSigils rest := by
  induction front with
  | nil => rfl
  | cons c front ih =>
    rw [List.mem_cons, not_or] at none
    rw [List.cons_append, withoutSigils_cons (Ne.symm none.1), ih none.2, List.cons_append]

theorem eachEnd_of_eachTail {cs item rest : List Char} (h : eachTail cs = some (item, rest)) :
    EachEnd cs item := by
  obtain ⟨_, _, read, h⟩ := bind_eq_some.mp h
  have each := literal_eq_some.mp read
  obtain ⟨_, _, read, h⟩ := bind_eq_some.mp h
  obtain ⟨b₁, gap₁, blank₁, _, some₁⟩ := blanks1_eq_some.mp read
  obtain ⟨_, _, read, h⟩ := bind_eq_some.mp h
  have word := literal_eq_some.mp read
  obtain ⟨_, _, read, h⟩ := bind_eq_some.mp h
  obtain ⟨b₂, gap₂, blank₂, _⟩ := blanks_eq_some.mp read
  obtain ⟨_, _, read, h⟩ := bind_eq_some.mp h
  have bar := literal_eq_some.mp read
  obtain ⟨_, _, read, h⟩ := bind_eq_some.mp h
  obtain ⟨b₃, gap₃, blank₃, _⟩ := blanks_eq_some.mp read
  obtain ⟨found, _, read, h⟩ := bind_eq_some.mp h
  obtain ⟨name, words, _, nonempty⟩ := run1_eq_some.mp read
  obtain ⟨_, _, read, h⟩ := bind_eq_some.mp h
  obtain ⟨b₄, gap₄, blank₄, _⟩ := blanks_eq_some.mp read
  obtain ⟨_, _, read, h⟩ := bind_eq_some.mp h
  have lastBar := literal_eq_some.mp read
  obtain ⟨_, _, read, h⟩ := bind_eq_some.mp h
  obtain ⟨last, _⟩ := atEnd_eq_some.mp read
  obtain ⟨rfl, _⟩ := pure_eq_some.mp h
  refine ⟨b₁, b₂, b₃, b₄, ?_, some₁, blank₁, blank₂, blank₃, blank₄, nonempty, words⟩
  rw [each, gap₁, word, gap₂, bar, gap₃, name, gap₄, lastBar, last, List.append_nil]

theorem eachTail_of_eachEnd {cs item : List Char} (h : EachEnd cs item) :
    eachTail cs = some (item, []) := by
  obtain ⟨b₁, b₂, b₃, b₄, rfl, some₁, blank₁, blank₂, blank₃, blank₄, nonempty, words⟩ := h
  have behind : Stops isWord (b₄ ++ "|".toList) :=
    stops_append (not_isWord_of_blanks blank₄) (stops_cons (by decide))
  have name : Stops isBlank (item ++ (b₄ ++ "|".toList)) := by
    obtain ⟨c, cs, rfl⟩ := List.exists_cons_of_ne_nil nonempty
    exact stops_cons (not_isBlank_of_words words c List.mem_cons_self)
  refine bind_eq_some.mpr ⟨(), _, literal_eq_some.mpr rfl, ?_⟩
  refine bind_eq_some.mpr ⟨(), _, blanks1_eq_some.mpr
    ⟨b₁, rfl, blank₁, stops_cons (by decide), some₁⟩, ?_⟩
  refine bind_eq_some.mpr ⟨(), _, literal_eq_some.mpr rfl, ?_⟩
  refine bind_eq_some.mpr ⟨(), _, blanks_eq_some.mpr ⟨b₂, rfl, blank₂, stops_cons (by decide)⟩, ?_⟩
  refine bind_eq_some.mpr ⟨(), _, literal_eq_some.mpr rfl, ?_⟩
  refine bind_eq_some.mpr ⟨(), _, blanks_eq_some.mpr ⟨b₃, rfl, blank₃, name⟩, ?_⟩
  refine bind_eq_some.mpr ⟨item, _, run1_eq_some.mpr ⟨rfl, words, behind, nonempty⟩, ?_⟩
  refine bind_eq_some.mpr ⟨(), _, blanks_eq_some.mpr ⟨b₄, rfl, blank₄, stops_cons (by decide)⟩, ?_⟩
  refine bind_eq_some.mpr ⟨(), _, literal_eq_some.mpr (List.append_nil _).symm, ?_⟩
  refine bind_eq_some.mpr ⟨(), _, atEnd_eq_some.mpr ⟨rfl, rfl⟩, ?_⟩
  exact pure_eq_some.mpr ⟨rfl, rfl⟩

theorem eachFrom_isSome {receiver code : List Char} : (eachFrom receiver code).isSome = true ↔
    ∃ front tail item, code = front ++ tail ∧ (receiver = [] → front ≠ []) ∧ '\n' ∉ front ∧
      EachEnd tail item := by
  induction code generalizing receiver with
  | nil =>
    have none : ∀ tail item, EachEnd tail item → tail ≠ [] := by
      rintro _ item ⟨_, _, _, _, rfl, _⟩
      exact List.cons_ne_nil _ _
    simp only [eachFrom, Option.isSome_none, Bool.false_eq_true, false_iff]
    rintro ⟨front, tail, item, split, _, _, each⟩
    exact none tail item each (List.append_eq_nil_iff.mp split.symm).2
  | cons c cs ih =>
    have further : (if c = '\n' then none else eachFrom (c :: receiver) cs).isSome = true ↔
        ∃ front tail item, cs = front ++ tail ∧ '\n' ∉ c :: front ∧ EachEnd tail item := by
      by_cases line : c = '\n'
      · simp [line]
      · rw [if_neg line, ih]
        simp [Ne.symm line]
    rw [eachFrom]
    constructor
    · intro h
      split at h
      · rename_i item rest here
        cases receiver with
        | nil => cases here
        | cons r rs => exact ⟨[], c :: cs, item, rfl, by simp, by simp, eachEnd_of_eachTail here⟩
      · obtain ⟨front, tail, item, rfl, line, each⟩ := further.mp h
        exact ⟨c :: front, tail, item, rfl, by simp, line, each⟩
    · rintro ⟨front, tail, item, split, nonempty, line, each⟩
      cases front with
      | nil =>
        rw [List.nil_append] at split
        subst split
        cases receiver with
        | nil => exact absurd rfl (nonempty rfl)
        | cons r rs => simp [eachTail_of_eachEnd each]
      | cons d front =>
        obtain ⟨rfl, rfl⟩ := List.cons.inj split
        have later := further.mpr ⟨front, tail, item, rfl, line, each⟩
        split
        · rfl
        · exact later

theorem readEach?_isSome {code : List Char} : (readEach? code).isSome = true ↔ EachForm code := by
  rw [readEach?, eachFrom_isSome]
  constructor
  · rintro ⟨front, tail, item, split, nonempty, line, each⟩
    exact ⟨front, tail, item, split, nonempty rfl, line, each⟩
  · rintro ⟨front, tail, item, split, nonempty, line, each⟩
    exact ⟨front, tail, item, split, fun _ => nonempty, line, each⟩

theorem eachFrom_eq_some {receiver code found item : List Char}
    (read : eachFrom receiver code = some (found, item)) : ∃ front tail, code = front ++ tail ∧
      found = receiver.reverse ++ front ∧ '\n' ∉ front ∧ EachEnd tail item := by
  induction code generalizing receiver with
  | nil => cases read
  | cons c cs ih =>
    rw [eachFrom] at read
    split at read
    · rename_i item' rest here
      cases read
      split at here
      · cases here
      · exact ⟨[], c :: cs, rfl, (List.append_nil _).symm, by simp, eachEnd_of_eachTail here⟩
    · split at read
      · cases read
      · rename_i line
        obtain ⟨front, tail, rfl, rfl, others, each⟩ := ih read
        refine ⟨c :: front, tail, rfl, by simp, ?_, each⟩
        rw [List.mem_cons, not_or]
        exact ⟨Ne.symm line, others⟩

theorem readEach?_eq_some {code receiver item : List Char}
    (read : readEach? code = some (receiver, item)) :
    ∃ tail, code = receiver ++ tail ∧ '\n' ∉ receiver ∧ EachEnd tail item := by
  obtain ⟨front, tail, split, same, line, each⟩ := eachFrom_eq_some read
  rw [List.reverse_nil, List.nil_append] at same
  subst same
  exact ⟨tail, split, line, each⟩

theorem EachEnd.item_words {tail item : List Char} (each : EachEnd tail item) :
    ∀ c ∈ item, isWord c = true := by
  obtain ⟨_, _, _, _, _, _, _, _, _, _, _, words⟩ := each
  exact List.all_eq_true.mp words

theorem partialName_eq_some {code name rest : List Char} (read : partialName code = some (name, rest)) :
    ∀ c ∈ name, isWord c = true ∨ c = '/' := by
  obtain ⟨_, _, _, read⟩ := bind_eq_some.mp read
  obtain ⟨_, _, _, read⟩ := bind_eq_some.mp read
  obtain ⟨_, _, _, read⟩ := bind_eq_some.mp read
  obtain ⟨_, _, _, read⟩ := bind_eq_some.mp read
  obtain ⟨_, _, _, read⟩ := bind_eq_some.mp read
  obtain ⟨_, _, _, read⟩ := bind_eq_some.mp read
  obtain ⟨found, _, named, read⟩ := bind_eq_some.mp read
  obtain ⟨_, _, _, last⟩ := bind_eq_some.mp read
  obtain ⟨rfl, _⟩ := pure_eq_some.mp last
  obtain ⟨_, all, _, _⟩ := run1_eq_some.mp named
  intro c member
  simpa using List.all_eq_true.mp all c member

theorem blockParameters_eq_some {cs rest : List Char} {u : Unit} :
    blockParameters cs = some (u, rest) ↔
      ∃ parameters, cs = "|".toList ++ (parameters ++ ("|".toList ++ rest)) ∧ '|' ∉ parameters := by
  constructor
  · intro h
    obtain ⟨_, _, read, h⟩ := bind_eq_some.mp h
    have bar := literal_eq_some.mp read
    obtain ⟨parameters, _, read, h⟩ := bind_eq_some.mp h
    obtain ⟨split, others, _⟩ := run_eq_some.mp read
    have lastBar := literal_eq_some.mp h
    refine ⟨parameters, by rw [bar, split, lastBar], ?_⟩
    intro member
    simpa using List.all_eq_true.mp others '|' member
  · rintro ⟨parameters, rfl, free⟩
    have others : (parameters.all fun c => decide (c ≠ '|')) = true := by
      rw [List.all_eq_true]
      intro c member
      rw [decide_eq_true_iff]
      rintro rfl
      exact free member
    refine bind_eq_some.mpr ⟨(), _, literal_eq_some.mpr rfl, ?_⟩
    refine bind_eq_some.mpr ⟨parameters, _, run_eq_some.mpr ⟨rfl, others, stops_cons (by decide)⟩, ?_⟩
    exact literal_eq_some.mpr rfl

theorem doTail_reads {cs : List Char} : (∃ found, doTail cs = some found) ↔
    ∃ tail, cs = "do".toList ++ tail ∧ DoEnd tail := by
  constructor
  · intro h
    obtain ⟨_, _, read, h⟩ := bind_reads.mp h
    have word := literal_eq_some.mp read
    obtain ⟨_, rest, read, h⟩ := bind_reads.mp h
    obtain ⟨b, gap, blank, _⟩ := blanks_eq_some.mp read
    refine ⟨_, word, b, blank, ?_⟩
    rcases either_reads.mp h with ended | h
    · rw [gap, atEnd_reads.mp ended, List.append_nil]
      exact .inl rfl
    · obtain ⟨_, _, read, ended⟩ := bind_reads.mp h
      obtain ⟨parameters, bars, free⟩ := blockParameters_eq_some.mp read
      rw [atEnd_reads.mp ended, List.append_nil] at bars
      exact .inr ⟨parameters, by rw [gap, bars], free⟩
  · rintro ⟨tail, rfl, b, blank, rfl | ⟨parameters, rfl, free⟩⟩
    · refine bind_reads.mpr ⟨(), _, literal_eq_some.mpr rfl, ?_⟩
      refine bind_reads.mpr ⟨(), [], blanks_eq_some.mpr
        ⟨tail, (List.append_nil _).symm, blank, fun _ first => nomatch first⟩, ?_⟩
      exact either_reads.mpr (.inl (atEnd_reads.mpr rfl))
    · refine bind_reads.mpr ⟨(), _, literal_eq_some.mpr rfl, ?_⟩
      refine bind_reads.mpr ⟨(), _, blanks_eq_some.mpr ⟨b, rfl, blank, stops_cons (by decide)⟩, ?_⟩
      refine either_reads.mpr (.inr (bind_reads.mpr ⟨(), [], ?_, atEnd_reads.mpr rfl⟩))
      exact blockParameters_eq_some.mpr ⟨parameters, by rw [List.append_nil], free⟩

theorem endsInDo_iff {code : List Char} : endsInDo code = true ↔ DoForm code := by
  rw [endsInDo, Bool.not_eq_true', List.isEmpty_eq_false_iff, scanWords, scanFrom_ne_nil]
  constructor
  · rintro ⟨front, tail, found, rfl, _, edge, reads⟩
    obtain ⟨rest, rfl, ended⟩ := doTail_reads.mp ⟨found, reads⟩
    exact ⟨front, rest, rfl, edge, ended⟩
  · rintro ⟨front, rest, rfl, edge, ended⟩
    obtain ⟨found, reads⟩ := doTail_reads.mpr ⟨rest, rfl, ended⟩
    exact ⟨front, _, found, rfl, List.cons_ne_nil _ _, edge, reads⟩

end Transplant.Rails.Erb
