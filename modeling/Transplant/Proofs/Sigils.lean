import Mathlib.Data.List.Infix
import Transplant.Proofs.Delimiters
import Transplant.Proofs.Emission

/-! Sigils that are left in converted tags. Of the sigils in a row in front of a word only the last is
dropped, and nothing that is done to the code around it puts a sigil in front of a word or takes one away.
So a sigil is left just where two stood in a row, unless all that is shown is the name of a partial. -/
namespace Transplant.Rails.Erb

open Text Text.Pattern

/-- So many sigils in a row stand right in front of a word character. -/
def MarksWord (n : Nat) (cs : List Char) : Prop :=
  ∃ c, isWord c = true ∧ List.replicate n '@' ++ [c] <:+: cs

theorem marksWord_iff_mem {n : Nat} {cs : List Char} :
    MarksWord n cs ↔ ∃ c ∈ cs, isWord c = true ∧ List.replicate n '@' ++ [c] <:+: cs := by
  constructor
  · rintro ⟨c, word, inside⟩
    exact ⟨c, inside.mem (by simp), word, inside⟩
  · rintro ⟨c, _, word, inside⟩
    exact ⟨c, word, inside⟩

instance (n : Nat) (cs : List Char) : Decidable (MarksWord n cs) :=
  have := List.decidableBEx (fun c => isWord c = true ∧ List.replicate n '@' ++ [c] <:+: cs) cs
  decidable_of_iff' _ marksWord_iff_mem

variable {n : Nat} {front back cs : List Char}

theorem not_marksWord (none : '@' ∉ cs) : ¬ MarksWord (n + 1) cs := by
  rintro ⟨c, _, inside⟩
  exact none (inside.mem (by simp [List.replicate_succ]))

theorem marksWord_behind (none : '@' ∉ front) : MarksWord (n + 1) (front ++ cs) ↔ MarksWord (n + 1) cs := by
  induction front with
  | nil => rfl
  | cons d front ih =>
    rw [List.mem_cons, not_or] at none
    rw [← ih none.2, MarksWord, MarksWord]
    simp [List.infix_cons_iff, List.replicate_succ, none.1]

/-- What follows has no sigils and does not start with a word, so no sigils come to stand in front of one. -/
theorem marksWord_before (none : '@' ∉ back) (stops : Stops isWord back) :
    MarksWord (n + 1) (cs ++ back) ↔ MarksWord (n + 1) cs := by
  constructor
  · rintro ⟨c, word, front, rest, split⟩
    have split : (front ++ List.replicate (n + 1) '@') ++ c :: rest = cs ++ back := by simpa using split
    have out : back ≠ c :: rest := by
      rintro rfl
      simp [stops c rfl] at word
    rcases List.append_eq_append_iff.mp split with ⟨more, same, behind⟩ | ⟨more, same, behind⟩
    · cases more with
      | nil => exact absurd behind.symm out
      | cons d more =>
        obtain ⟨rfl, _⟩ := List.cons.inj behind
        exact ⟨c, word, front, more, by simp [same]⟩
    · rcases List.eq_nil_or_concat more with rfl | ⟨more, d, rfl⟩
      · exact absurd behind out
      · rw [List.replicate_succ', ← List.append_assoc, List.concat_eq_append, ← List.append_assoc] at same
        obtain ⟨_, last⟩ := List.append_inj' same rfl
        cases last
        exact absurd (by simp [behind]) none
  · rintro ⟨c, word, inside⟩
    exact ⟨c, word, inside.trans (List.prefix_append cs back).isInfix⟩

theorem marksWord_trim : MarksWord (n + 1) (trim cs) ↔ MarksWord (n + 1) cs := by
  obtain ⟨lead, trail, split, lead_blank, trail_blank, _⟩ := trim_split cs
  have stops : Stops isWord trail := fun c first =>
    not_isWord_of_isBlank (trail_blank c (List.mem_of_mem_head? first))
  conv_rhs => rw [split]
  rw [marksWord_behind (sigil_not_mem_blanks lead_blank),
    marksWord_before (sigil_not_mem_blanks trail_blank) stops]

theorem prefix_withoutSigils {c : Char} (word : isWord c = true) (stops : n = 0 → Stops isWord cs) :
    List.replicate n '@' ++ [c] <+: withoutSigils cs ↔ List.replicate (n + 1) '@' ++ [c] <+: cs := by
  have notSigil := ne_sigil_of_isWord word
  fun_induction withoutSigils cs generalizing n with
  | case1 d ds next ih =>
    rw [withoutSigils_cons (ne_sigil_of_isWord next)]
    cases n <;> simp [List.replicate_succ, (ne_sigil_of_isWord next).symm]
  | case2 d ds next ih =>
    have later : Stops isWord (d :: ds) := stops_cons (by simpa using next)
    cases n with
    | zero =>
      have different : c ≠ d := by
        rintro rfl
        exact next word
      simp [notSigil, different]
    | succ n => simpa [List.replicate_succ] using ih fun _ => later
  | case3 d ds other ih =>
    by_cases first : d = '@'
    · subst first
      cases ds with
      | nil => cases n <;> simp [List.replicate_succ, withoutSigils, notSigil]
      | cons e ds => exact (other e ds rfl rfl).elim
    · cases n with
      | zero =>
        have different : c ≠ d := by
          rintro rfl
          simp [stops rfl c rfl] at word
        simp [different, Ne.symm first]
      | succ n => simp [List.replicate_succ, Ne.symm first]
  | case4 => simp [List.replicate_succ]

theorem marksWord_withoutSigils : MarksWord (n + 1) (withoutSigils cs) ↔ MarksWord (n + 2) cs := by
  rw [MarksWord, MarksWord]
  refine exists_congr fun c => and_congr_right fun word => ?_
  have starts (ds : List Char) : List.replicate (n + 1) '@' ++ [c] <+: withoutSigils ds ↔
      List.replicate (n + 2) '@' ++ [c] <+: ds := prefix_withoutSigils word nofun
  fun_induction withoutSigils cs with
  | case1 d ds next ih =>
    refine ih.trans ?_
    simp [List.infix_cons_iff, List.replicate_succ, (ne_sigil_of_isWord next).symm]
  | case2 d ds next ih =>
    have here := starts ('@' :: d :: ds)
    rw [withoutSigils, if_neg next] at here
    exact List.infix_cons_iff.trans ((or_congr here ih).trans List.infix_cons_iff.symm)
  | case3 d ds other ih =>
    have here := starts (d :: ds)
    rw [withoutSigils] at here
    · exact List.infix_cons_iff.trans ((or_congr here ih).trans List.infix_cons_iff.symm)
    · exact other
  | case4 => simp [List.replicate_succ]

theorem EachEnd.no_sigil {tail item : List Char} (each : EachEnd tail item) : '@' ∉ item ∧ '@' ∉ tail := by
  have blank : ∀ {b : List Char}, b.all isBlank = true → '@' ∉ b := fun all =>
    sigil_not_mem_blanks (List.all_eq_true.mp all)
  have words : '@' ∉ item := fun inside => ne_sigil_of_isWord (each.item_words _ inside) rfl
  obtain ⟨b₁, b₂, b₃, b₄, rfl, _, blank₁, blank₂, blank₃, blank₄, _, _⟩ := each
  exact ⟨words, by simp [words, blank blank₁, blank blank₂, blank blank₃, blank blank₄]⟩

theorem EachEnd.stops {tail item : List Char} (each : EachEnd tail item) : Stops isWord tail := by
  obtain ⟨b₁, b₂, b₃, b₄, rfl, _⟩ := each
  exact stops_cons (by decide)

/-- The words around a condition or a loop have no sigils, and what stands between them is kept. -/
theorem Wording.marksWord_iff {code shown : List Char} {opened : List Block}
    (wording : Wording code shown opened) : MarksWord (n + 1) shown ↔ MarksWord (n + 1) code := by
  cases wording with
  | alternative isElse => rw [isElse]
  | condition words listed split =>
    have plain : ∀ words ∈ conditionWords, '@' ∉ words.1.toList ∧ '@' ∉ words.2.1.toList := by decide
    obtain ⟨before, after⟩ := plain words listed
    rw [split, marksWord_behind before, marksWord_behind after, marksWord_trim]
  | @loop receiver tail item _ _ split _ each =>
    obtain ⟨noItem, noTail⟩ := each.no_sigil
    have front : '@' ∉ "for ".toList ++ item ++ " in ".toList := by simp [noItem]
    rw [split, marksWord_before noTail each.stops, marksWord_behind front, marksWord_trim]
  | kept => rfl

theorem Markup.marksWord_render (m : Markup) : MarksWord (n + 1) m.render ↔ MarksWord (n + 1) m.code := by
  have around : ∀ ends ∈ markupEnds, '@' ∉ ends.1.toList ∧ '@' ∉ ends.2.toList ∧
      Stops isWord ends.2.toList := by decide
  obtain ⟨ends, listed, same⟩ := m.render_eq
  obtain ⟨first, last, stops⟩ := around ends listed
  rw [same, marksWord_behind first, marksWord_before last stops]

theorem not_marksWord_closer (b : Option Block) : ¬ MarksWord (n + 1) (Block.closer b).toList := by
  apply not_marksWord
  rcases b with _ | _ | _ | _ <;> decide

theorem marksWord_statement (code : List Char) (blocks : List Block) :
    MarksWord (n + 1) (statementMarkup code blocks).1.code ↔ MarksWord (n + 1) code := by
  by_cases isEnd : code = "end".toList
  · subst isEnd
    exact iff_of_false (not_marksWord_closer _) (not_marksWord (by decide))
  · obtain ⟨shown, opened, wording, same⟩ := statementMarkup_wording isEnd
    rw [same]
    exact wording.marksWord_iff

theorem marksWord_output (code : List Char) (blocks : List Block) :
    MarksWord (n + 1) (outputMarkup code blocks).1.code ↔
      MarksWord (n + 1) code ∧ (partialName code).isSome = false := by
  rw [outputMarkup]
  cases read : partialName code with
  | none => simp [Markup.code]
  | some found =>
    have name : '@' ∉ found.1 := by
      intro inside
      rcases partialName_eq_some read _ inside with word | slash
      · exact ne_sigil_of_isWord word rfl
      · exact absurd slash (by decide)
    have shown : '@' ∉ "include '".toList ++ found.1 ++ ".html'".toList := by simp [name]
    simpa [Markup.code] using not_marksWord shown

theorem Tag.marksWord_markup {t : Tag} (code : t.sigil ≠ .comment) (blocks : List Block) :
    MarksWord (n + 1) (t.markup blocks).1.render ↔ MarksWord (n + 2) t.body ∧ ¬ t.Includes := by
  have body : MarksWord (n + 1) (withoutSigils t.code) ↔ MarksWord (n + 2) t.body := by
    rw [marksWord_withoutSigils, Tag.code, marksWord_trim]
  rw [Markup.marksWord_render, ← body]
  rcases t.sigil.kinds with runs | output | comment
  · have shows : ¬ t.Includes := fun includes => not_output_of_runs runs includes.1
    rw [markup_of_runs runs, marksWord_statement]
    simp [shows]
  · rw [markup_of_output output, marksWord_output]
    simp [Includes, output]
  · exact absurd comment code

/-- A text is converted by putting markup in the place of its tags. The markup of a tag that shows or runs
its code has so many sigils in a row in front of a word just if the body of the tag has one more, and the
tag does not show a partial. -/
theorem sigils_left_iff (text : String) :
    (emitted [] (pieces text.toList)).map Prod.fst = (pieces text.toList).filterMap Piece.tag? ∧
      (toDjango text).toList =
        fill (pieces text.toList) ((emitted [] (pieces text.toList)).map Prod.snd) ∧
      ∀ e ∈ emitted [] (pieces text.toList), e.1.sigil ≠ .comment → ∀ n,
        MarksWord (n + 1) e.2.render ↔ MarksWord (n + 2) e.1.body ∧ ¬ e.1.Includes := by
  refine ⟨emitted_tags _ _, ?_, ?_⟩
  · rw [toDjango, String.toList_ofList, renderPieces_eq_fill]
  · intro e member code n
    obtain ⟨_, opened, same⟩ := mem_emitted member
    rw [same]
    exact Tag.marksWord_markup code opened

/-- Three sigils in a condition, of which two are left, and two sigils behind the name of a partial. -/
theorem sigils_left_in_condition :
    emitted [] (pieces "<% if @@@x %><%= render 'a', @@b %>".toList) =
        [(⟨.statement, " if @@@x ".toList⟩, .block "if @@x".toList),
          (⟨.output, " render 'a', @@b ".toList⟩, .block "include 'a.html'".toList)] ∧
      Sigil.statement ≠ .comment ∧ MarksWord 2 (Markup.block "if @@x".toList).render ∧
      Sigil.output ≠ .comment ∧ ¬ MarksWord 1 (Markup.block "include 'a.html'".toList).render := by
  have read : emitted [] (pieces "<% if @@@x %><%= render 'a', @@b %>".toList) =
      [(⟨.statement, " if @@@x ".toList⟩, .block "if @@x".toList),
        (⟨.output, " render 'a', @@b ".toList⟩, .block "include 'a.html'".toList)] := by decide +kernel
  obtain ⟨_, _, left⟩ := sigils_left_iff "<% if @@@x %><%= render 'a', @@b %>"
  rw [read] at left
  have condition := left _ List.mem_cons_self (by decide) 1
  have included := left _ (List.mem_cons_of_mem _ List.mem_cons_self) (by decide) 0
  have shows : ¬ (Tag.mk .statement " if @@@x ".toList).Includes := fun includes => by cases includes.1
  have named : (Tag.mk .output " render 'a', @@b ".toList).Includes := by decide +kernel
  refine ⟨read, by decide, condition.mpr ⟨?_, shows⟩, by decide, fun there => ?_⟩
  · exact ⟨'x', by decide, " if ".toList, " ".toList, rfl⟩
  · exact (included.mp there).2 named

theorem class_variable_keeps_sigil :
    toDjango "<%= @@x %>" = "\x7b\x7b @x \x7d\x7d" ∧
      ∃ e ∈ emitted [] (pieces "<%= @@x %>".toList), e.1.sigil = .output ∧ MarksWord 1 e.2.render := by
  decide +kernel

end Transplant.Rails.Erb
