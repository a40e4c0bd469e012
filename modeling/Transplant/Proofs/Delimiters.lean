import Transplant.Proofs.BlockTags
import Transplant.Proofs.Trimming
import Mathlib.Data.List.Chain

/-! Pairs of marks that start and end tags. Where the body of a tag has no such pair, what is written for
the tag has none either, other than the delimiters around it: dropping sigils and blanks brings no two
marks together, and no words of a markup are marks. -/
namespace Transplant.Rails.Erb

open Text

/-- None of the pairs stands in the text. -/
def Free (pairs : List (Char × Char)) (cs : List Char) : Prop := ∀ p ∈ pairs, ¬ [p.1, p.2] <:+: cs

/-- The characters that tags start and end with. -/
def marks : List Char := ['<', '>', '%', '{', '}', '#']

def Marked (pairs : List (Char × Char)) : Prop := ∀ p ∈ pairs, p.1 ∈ marks ∧ p.2 ∈ marks

instance (pairs : List (Char × Char)) : Decidable (Marked pairs) := List.decidableBAll _ pairs

def Unmarked (cs : List Char) : Prop := ∀ c ∈ cs, c ∉ marks

instance (cs : List Char) : Decidable (Unmarked cs) := List.decidableBAll _ cs

theorem not_mark_of_isWord {c : Char} (word : isWord c = true) : c ∉ marks := by
  intro mark
  have none : (marks.all fun m => !isWord m) = true := by decide
  have other := List.all_eq_true.mp none c mark
  rw [word] at other
  cases other

variable {pairs : List (Char × Char)} {cs front back : List Char}

theorem free_iff_isChain : Free pairs cs ↔ cs.IsChain fun c d => (c, d) ∉ pairs := by
  rw [List.isChain_iff_forall_rel_of_append_cons_cons]
  constructor
  · rintro free c d before after rfl listed
    exact free (c, d) listed ⟨before, after, by simp⟩
  · rintro free ⟨c, d⟩ listed ⟨before, after, rfl⟩
    have pair : before ++ [c, d] ++ after = before ++ c :: d :: after := by simp
    exact free pair listed

instance (pairs : List (Char × Char)) (cs : List Char) : Decidable (Free pairs cs) :=
  decidable_of_iff' _ free_iff_isChain

namespace Free

theorem within (free : Free pairs cs) (part : front <:+: cs) : Free pairs front := fun p listed inside =>
  free p listed (inside.trans part)

theorem append (first : Free pairs front) (second : Free pairs back)
    (seam : ∀ c ∈ front.getLast?, ∀ d ∈ back.head?, (c, d) ∉ pairs) : Free pairs (front ++ back) := by
  rw [free_iff_isChain] at *
  exact first.append second seam

theorem of_unmarked (marked : Marked pairs) (plain : Unmarked cs) : Free pairs cs := by
  rintro p listed inside
  exact plain p.1 (inside.mem List.mem_cons_self) (marked p listed).1

/-- No words in front of a text make a pair with it. -/
theorem behind (marked : Marked pairs) (plain : Unmarked front) (free : Free pairs back) :
    Free pairs (front ++ back) := by
  apply (of_unmarked marked plain).append free
  intro c last d _ listed
  exact plain c (List.mem_of_getLast? last) (marked _ listed).1

theorem before (marked : Marked pairs) (free : Free pairs front) (plain : Unmarked back) :
    Free pairs (front ++ back) := by
  apply free.append (of_unmarked marked plain)
  intro c _ d first listed
  exact plain d (List.mem_of_mem_head? first) (marked _ listed).2

theorem trim (free : Free pairs cs) : Free pairs (trim cs) := free.within (trim_within cs)

end Free

theorem head?_withoutSigils {d : Char} (first : d ∈ (withoutSigils cs).head?) :
    d ∈ cs.head? ∨ isWord d = true := by
  fun_cases withoutSigils cs with
  | case1 c cs word =>
    rw [withoutSigils, if_pos word, withoutSigils_cons (ne_sigil_of_isWord word)] at first
    cases first
    exact .inr word
  | case2 c cs word =>
    rw [withoutSigils, if_neg word] at first
    cases first
    exact .inl rfl
  | case3 c cs other =>
    rw [withoutSigils] at first
    · cases first
      exact .inl rfl
    · exact other
  | case4 => exact .inl first

theorem Free.withoutSigils (marked : Marked pairs) (free : Free pairs cs) :
    Free pairs (withoutSigils cs) := by
  fun_induction Erb.withoutSigils cs with
  | case1 c cs word ih => exact ih (free.within (List.suffix_cons _ _).isInfix)
  | case2 c cs word ih =>
    have plain : Unmarked ['@'] := by decide
    exact .behind marked plain (ih (free.within (List.suffix_cons _ _).isInfix))
  | case3 c cs other ih =>
    have later := ih (free.within (List.suffix_cons _ _).isInfix)
    rw [free_iff_isChain] at free later ⊢
    refine later.cons fun d first => ?_
    rcases head?_withoutSigils first with here | word
    · exact free.rel_head? here
    · exact fun listed => not_mark_of_isWord word (marked _ listed).2
  | case4 => exact free

def markupEnds : List (String × String) :=
  [("\x7b\x7b ", " \x7d\x7d"), ("\x7b% ", " %\x7d"), ("\x7b# ", " #\x7d"),
    ("\x7b% comment %\x7d", "\x7b% endcomment %\x7d")]

namespace Markup

def code : Markup → List Char
  | output code => code
  | block code => code
  | comment text => text
  | commentBlock text => text

theorem render_eq (m : Markup) :
    ∃ ends ∈ markupEnds, m.render = ends.1.toList ++ (m.code ++ ends.2.toList) := by
  cases m with
  | output code => exact ⟨("\x7b\x7b ", " \x7d\x7d"), by decide, List.append_assoc _ _ _⟩
  | block code => exact ⟨("\x7b% ", " %\x7d"), by decide, List.append_assoc _ _ _⟩
  | comment text => exact ⟨("\x7b# ", " #\x7d"), by decide, List.append_assoc _ _ _⟩
  | commentBlock text =>
    exact ⟨("\x7b% comment %\x7d", "\x7b% endcomment %\x7d"), by decide, List.append_assoc _ _ _⟩

end Markup

theorem unmarked_closer (b : Option Block) : Unmarked (Block.closer b).toList := by
  rcases b with _ | _ | _ | _ <;> decide

theorem Wording.free {code shown : List Char} {opened : List Block}
    (wording : Wording code shown opened) (marked : Marked pairs) (free : Free pairs code) :
    Free pairs shown := by
  cases wording with
  | alternative => exact .of_unmarked marked (by decide)
  | @condition words listed rest split =>
    have plain : ∀ words ∈ conditionWords, Unmarked words.2.1.toList := by decide
    have inside : Free pairs rest := free.within ⟨words.1.toList, [], by rw [split, List.append_nil]⟩
    exact .behind marked (plain words listed) inside.trim
  | @loop receiver tail item _ _ split _ each =>
    have inside : Free pairs receiver := free.within ⟨[], tail, by rw [split, List.nil_append]⟩
    apply Free.behind marked _ inside.trim
    have words : Unmarked item := fun c word => not_mark_of_isWord (each.item_words c word)
    have start : Unmarked "for ".toList := by decide
    have middle : Unmarked " in ".toList := by decide
    simp only [Unmarked, List.forall_mem_append] at *
    exact ⟨⟨start, words⟩, middle⟩
  | kept => exact free

/-- What is written for a tag has no more pairs than its body has. -/
theorem Tag.free_markup {t : Tag} (marked : Marked pairs) (free : Free pairs t.body)
    (blocks : List Block) : Free pairs (t.markup blocks).1.code := by
  have code : Free pairs (Erb.withoutSigils t.code) := free.trim.withoutSigils marked
  rcases t.sigil.kinds with runs | sigil | sigil
  · rw [markup_of_runs runs]
    by_cases isEnd : Erb.withoutSigils t.code = "end".toList
    · rw [statementMarkup, if_pos isEnd]
      exact .of_unmarked marked (unmarked_closer _)
    · obtain ⟨shown, opened, wording, same⟩ := statementMarkup_wording isEnd
      rw [same]
      exact wording.free marked code
  · rw [markup_of_output sigil, outputMarkup]
    split
    · rename_i name rest read
      have plain : Unmarked name := by
        intro c member
        rcases partialName_eq_some read c member with word | rfl
        · exact not_mark_of_isWord word
        · decide
      apply Free.before marked _ (by decide)
      exact .behind marked (by decide) (.of_unmarked marked plain)
    · exact code
  · simp only [markup, sigil, commentMarkup]
    split <;> exact free.trim

end Transplant.Rails.Erb
