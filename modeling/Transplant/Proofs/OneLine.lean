import Transplant.Proofs.Delimiters
import Transplant.Proofs.Emission

/-! Converted tags that Django reads. A tag of Django stands on one line, and nothing looks at the lines
of what a tag shows or runs: a line feed in its code is lost only where a rewording drops it. Comments are
looked at, and one that runs over several lines becomes a block. -/
namespace Transplant.Rails.Erb

open Text

def delimiters : List (Char × Char) :=
  [('\x7b', '\x7b'), ('\x7d', '\x7d'), ('\x7b', '%'), ('%', '\x7d'), ('\x7b', '#'), ('#', '\x7d')]

def tagEnds : List (Char × Char) := [('\x7b', '\x7d'), ('%', '%'), ('#', '#')]

/-- The text is one tag of Django: on one line, with delimiters at both ends and nowhere else. -/
def OneTag (cs : List Char) : Prop :=
  ∃ ends ∈ tagEnds, ∃ inner, cs = '\x7b' :: ends.1 :: (inner ++ [ends.2, '\x7d']) ∧
    Free delimiters (ends.1 :: (inner ++ [ends.2])) ∧ '\n' ∉ inner

/-- What is written for the tag is one tag of Django or, for a comment over several lines, a block. -/
def Fits (t : Tag) (m : Markup) : Prop :=
  OneTag m.render ∨ t.sigil = .comment ∧ '\n' ∈ t.code ∧
    m.render = "\x7b% comment %\x7d".toList ++ t.code ++ "\x7b% endcomment %\x7d".toList

/-- A line feed stays in what is written for the code of a statement: in the condition that follows a
word, or anywhere in code that has no wording of its own. -/
def Breaks (code : List Char) : Prop :=
  (∃ words ∈ conditionWords, ∃ condition, code = words.1.toList ++ condition ∧ '\n' ∈ trim condition) ∨
    ¬ Branch code ∧ ¬ Conditional code ∧ ¬ EachForm code ∧ '\n' ∈ code

/-- A line feed stays in what is written for the tag, which is no comment. -/
def Tag.BreaksLine (t : Tag) : Prop :=
  t.sigil = .output ∧ ¬ t.Includes ∧ '\n' ∈ t.code ∨
    t.sigil.Runs ∧ Breaks (withoutSigils t.code)

theorem OneTag.line {cs : List Char} (one : OneTag cs) : '\n' ∉ cs := by
  have ends : ∀ ends ∈ tagEnds, ends.1 ≠ '\n' ∧ ends.2 ≠ '\n' := by decide
  obtain ⟨⟨c, d⟩, listed, inner, rfl, _, line⟩ := one
  obtain ⟨first, last⟩ := ends (c, d) listed
  simp [line, first.symm, last.symm]

theorem oneTag_spaced (ends : Char × Char) (listed : ends ∈ tagEnds) {front back code : List Char}
    (starts : front = ['\x7b', ends.1, ' ']) (stops : back = [' ', ends.2, '\x7d'])
    (free : Free delimiters code) (line : '\n' ∉ code) : OneTag (front ++ code ++ back) := by
  have blank : ∀ p ∈ delimiters, p.1 ≠ ' ' ∧ p.2 ≠ ' ' := by decide
  have around : ∀ ends ∈ tagEnds, Free delimiters [ends.1, ' '] ∧ Free delimiters [' ', ends.2] := by
    decide
  obtain ⟨first, last⟩ := around ends listed
  have closed : Free delimiters (code ++ [' ', ends.2]) := by
    refine free.append last fun c _ d start pair => ?_
    cases start
    exact (blank _ pair).2 rfl
  have whole : Free delimiters ([ends.1, ' '] ++ (code ++ [' ', ends.2])) := by
    refine first.append closed fun c ending d _ pair => ?_
    cases ending
    exact (blank _ pair).1 rfl
  subst starts stops
  refine ⟨ends, listed, ' ' :: (code ++ [' ']), by simp, ?_, by simp [line]⟩
  simpa using whole

theorem Markup.oneTag_iff {m : Markup} (single : ∀ text, m ≠ .commentBlock text)
    (free : Free delimiters m.code) : OneTag m.render ↔ '\n' ∉ m.code := by
  constructor
  · intro one inside
    obtain ⟨ends, _, same⟩ := m.render_eq
    apply one.line
    rw [same]
    exact List.mem_append_right _ (List.mem_append_left _ inside)
  · intro line
    cases m with
    | output code => exact oneTag_spaced ('\x7b', '\x7d') (by decide) (by decide) (by decide) free line
    | block code => exact oneTag_spaced ('%', '%') (by decide) (by decide) (by decide) free line
    | comment code => exact oneTag_spaced ('#', '#') (by decide) (by decide) (by decide) free line
    | commentBlock code => exact absurd rfl (single code)

theorem not_newline_closer (b : Option Block) : '\n' ∉ (Block.closer b).toList := by
  rcases b with _ | _ | _ | _ <;> decide

theorem mem_newline_withoutSigils {code : List Char} : '\n' ∈ withoutSigils code ↔ '\n' ∈ code := by
  fun_induction withoutSigils code with
  | case1 c cs word ih => simp [ih]
  | case2 c cs word ih => simp [ih]
  | case3 c cs other ih => simp [ih]
  | case4 => rfl

theorem conditionWords_unique {words other : String × String × List Block}
    (listed : words ∈ conditionWords) (listed' : other ∈ conditionWords) {code : List Char}
    (starts : words.1.toList <+: code) (starts' : other.1.toList <+: code) : words = other := by
  have apart : ∀ a ∈ conditionWords, ∀ b ∈ conditionWords, a.1.toList <+: b.1.toList → a = b := by
    decide
  rcases List.prefix_or_prefix_of_prefix starts starts' with h | h
  · exact apart words listed other listed' h
  · exact (apart other listed' words listed h).symm

theorem Wording.breaks_iff {code shown : List Char} {opened : List Block}
    (wording : Wording code shown opened) : Breaks code ↔ '\n' ∈ shown := by
  cases wording with
  | alternative isElse =>
    have line : '\n' ∉ "else".toList := by decide
    have noWords : ∀ words ∈ conditionWords, ¬ words.1.toList <+: "else".toList := by decide
    subst isElse
    simp only [line, iff_false]
    rintro (⟨words, listed, condition, split, _⟩ | ⟨plain, _⟩)
    · exact noWords words listed ⟨condition, split.symm⟩
    · exact plain (.inl rfl)
  | @condition words listed rest split =>
    have line : ∀ words ∈ conditionWords, '\n' ∉ words.2.1.toList := by decide
    rw [List.mem_append, or_iff_right (line words listed)]
    constructor
    · rintro (⟨other, listed', condition, split', inside⟩ | ⟨plain, simple, _⟩)
      · obtain rfl := conditionWords_unique listed listed' ⟨rest, split.symm⟩ ⟨condition, split'.symm⟩
        rwa [List.append_cancel_left (split.symm.trans split')]
      · rcases form_of_conditionWords listed ⟨rest, split.symm⟩ with h | h
        · exact absurd h plain
        · exact absurd h simple
    · exact fun inside => .inl ⟨words, listed, rest, split, inside⟩
  | @loop receiver tail item simple plain split line each form =>
    have words : '\n' ∉ item := fun inside => absurd (each.item_words _ inside) (by decide)
    have receiverLine : '\n' ∉ trim receiver := fun inside => line ((trim_within receiver).mem inside)
    have fixed : '\n' ∉ "for ".toList ∧ '\n' ∉ " in ".toList := by decide
    simp only [List.mem_append, fixed.1, fixed.2, words, receiverLine, or_false, iff_false]
    rintro (⟨words, listed, condition, split', _⟩ | ⟨_, _, other, _⟩)
    · rcases form_of_conditionWords listed ⟨condition, split'.symm⟩ with h | h
      · exact plain h
      · exact simple h
    · exact other form
  | kept simple plain other =>
    constructor
    · rintro (⟨words, listed, condition, split', _⟩ | ⟨_, _, _, inside⟩)
      · rcases form_of_conditionWords listed ⟨condition, split'.symm⟩ with h | h
        · exact absurd h plain
        · exact absurd h simple
      · exact inside
    · exact fun inside => .inr ⟨plain, simple, other, inside⟩

theorem not_breaks_end : ¬ Breaks "end".toList := by
  have line : '\n' ∉ "end".toList := by decide
  have noWords : ∀ words ∈ conditionWords, ¬ words.1.toList <+: "end".toList := by decide
  rintro (⟨words, listed, condition, split, _⟩ | ⟨_, _, _, inside⟩)
  · exact noWords words listed ⟨condition, split.symm⟩
  · exact line inside

/-- What is written for a statement is a tag, with a line feed where the code keeps one. -/
theorem breaks_iff_of_statement (code : List Char) (blocks : List Block) :
    ∃ shown, (statementMarkup code blocks).1 = .block shown ∧ (Breaks code ↔ '\n' ∈ shown) := by
  by_cases isEnd : code = "end".toList
  · subst isEnd
    refine ⟨(Block.closer blocks.head?).toList, rfl, ?_⟩
    exact iff_of_false not_breaks_end (not_newline_closer _)
  · obtain ⟨shown, opened, wording, same⟩ := statementMarkup_wording isEnd
    exact ⟨shown, by rw [same], wording.breaks_iff⟩

namespace Tag

variable {t : Tag}

theorem fits_of_comment (sigil : t.sigil = .comment) (free : Free delimiters t.body)
    (blocks : List Block) : Fits t (t.markup blocks).1 := by
  have inside := free_markup (by decide) free blocks
  have same : (t.markup blocks).1 = commentMarkup t.code := by
    rw [markup, sigil]
    rfl
  rw [same] at inside ⊢
  by_cases line : '\n' ∈ t.code
  · rw [commentMarkup, if_pos (List.contains_iff_mem.mpr line)]
    exact .inr ⟨sigil, line, rfl⟩
  · rw [commentMarkup, if_neg (by rwa [List.contains_iff_mem])] at inside ⊢
    exact .inl ((Markup.oneTag_iff (by rintro _ ⟨⟩) inside).mpr line)

theorem fits_iff_oneTag (sigil : t.sigil ≠ .comment) {m : Markup} : Fits t m ↔ OneTag m.render :=
  or_iff_left fun block => sigil block.1

theorem fits_iff_of_runs (runs : t.sigil.Runs) (free : Free delimiters t.body) (blocks : List Block) :
    Fits t (t.markup blocks).1 ↔ ¬ t.BreaksLine := by
  have inside := free_markup (by decide) free blocks
  have notOutput := not_output_of_runs runs
  have notComment : t.sigil ≠ .comment := by
    intro sigil
    rcases runs with sigil' | sigil' <;> cases sigil.symm.trans sigil'
  obtain ⟨shown, same, breaks⟩ := breaks_iff_of_statement (withoutSigils t.code) blocks
  rw [markup_of_runs runs, same] at inside ⊢
  rw [fits_iff_oneTag notComment, Markup.oneTag_iff (by rintro _ ⟨⟩) inside, Markup.code, ← breaks]
  simp [BreaksLine, notOutput, runs]

theorem fits_iff_of_output (sigil : t.sigil = .output) (free : Free delimiters t.body)
    (blocks : List Block) : Fits t (t.markup blocks).1 ↔ ¬ t.BreaksLine := by
  have inside := free_markup (by decide) free blocks
  have notRuns : ¬ t.sigil.Runs := fun runs => not_output_of_runs runs sigil
  have notComment : t.sigil ≠ .comment := by
    rw [sigil]
    decide
  rw [markup_of_output sigil, outputMarkup] at inside ⊢
  rw [fits_iff_oneTag notComment]
  cases read : partialName (withoutSigils t.code) with
  | some found =>
    have includes : t.Includes := ⟨sigil, by rw [read]; rfl⟩
    rw [read] at inside
    have line : '\n' ∉ found.1 := by
      intro member
      rcases partialName_eq_some read _ member with word | slash
      · exact absurd word (by decide)
      · exact absurd slash (by decide)
    rw [Markup.oneTag_iff (by rintro _ ⟨⟩) inside]
    simp [Markup.code, BreaksLine, includes, notRuns, line]
  | none =>
    have shows : ¬ t.Includes := by
      rintro ⟨_, there⟩
      rw [read] at there
      cases there
    rw [read] at inside
    rw [Markup.oneTag_iff (by rintro _ ⟨⟩) inside]
    rw [BreaksLine, or_iff_left fun runs => notRuns runs.1]
    simp [Markup.code, sigil, shows, mem_newline_withoutSigils]

theorem fits_iff (free : Free delimiters t.body) (blocks : List Block) :
    Fits t (t.markup blocks).1 ↔ ¬ t.BreaksLine := by
  rcases t.sigil.kinds with runs | sigil | sigil
  · exact fits_iff_of_runs runs free blocks
  · exact fits_iff_of_output sigil free blocks
  · refine iff_of_true (fits_of_comment sigil free blocks) ?_
    rintro (⟨output, _⟩ | ⟨runs | runs, _⟩) <;> simp_all

end Tag

/-- A text whose tags have no delimiters of Django in them turns into the same text with markup in the
place of its tags. The markup of a tag is one tag of Django, or the block of a comment over several lines,
exactly where no line feed of the code stays in it. -/
theorem tags_fit_iff (text : String)
    (free : ∀ t, .tag t ∈ pieces text.toList → Free delimiters t.body) :
    (emitted [] (pieces text.toList)).map Prod.fst = (pieces text.toList).filterMap Piece.tag? ∧
      (toDjango text).toList =
        fill (pieces text.toList) ((emitted [] (pieces text.toList)).map Prod.snd) ∧
      ∀ e ∈ emitted [] (pieces text.toList), Fits e.1 e.2 ↔ ¬ e.1.BreaksLine := by
  refine ⟨emitted_tags _ _, ?_, ?_⟩
  · rw [toDjango, String.toList_ofList, renderPieces_eq_fill]
  · intro e member
    obtain ⟨there, opened, same⟩ := mem_emitted member
    rw [same]
    exact Tag.fits_iff (free e.1 there) opened

/-- Line feeds in a comment, in front of the name of a partial and in front of a condition. -/
theorem tags_fit_over_lines :
    (∀ t, .tag t ∈ pieces "<%# a\nb %><%= render\n'c' %><% if \nx %>".toList →
        Free delimiters t.body) ∧
      ∀ e ∈ emitted [] (pieces "<%# a\nb %><%= render\n'c' %><% if \nx %>".toList),
        Fits e.1 e.2 ↔ ¬ e.1.BreaksLine := by
  have read : pieces "<%# a\nb %><%= render\n'c' %><% if \nx %>".toList =
      [.tag ⟨.comment, " a\nb ".toList⟩, .tag ⟨.output, " render\n'c' ".toList⟩,
        .tag ⟨.statement, " if \nx ".toList⟩] := by
    decide +kernel
  have free : ∀ t, .tag t ∈ pieces "<%# a\nb %><%= render\n'c' %><% if \nx %>".toList →
      Free delimiters t.body := by
    intro t member
    rw [read] at member
    simp only [List.mem_cons, Piece.tag.injEq, List.not_mem_nil, or_false] at member
    rcases member with rfl | rfl | rfl <;> decide
  exact ⟨free, (tags_fit_iff _ free).2.2⟩

theorem output_breaks_line :
    (∀ t, .tag t ∈ pieces "<%= a\nb %>".toList → Free delimiters t.body) ∧
      toDjango "<%= a\nb %>" = "\x7b\x7b a\nb \x7d\x7d" ∧
      ∃ e ∈ emitted [] (pieces "<%= a\nb %>".toList), ¬ Fits e.1 e.2 := by
  have read : pieces "<%= a\nb %>".toList = [.tag ⟨.output, " a\nb ".toList⟩] := by decide +kernel
  have free : Free delimiters " a\nb ".toList := by decide
  refine ⟨?_, by decide +kernel, ?_⟩
  · intro t member
    rw [read, List.mem_singleton, Piece.tag.injEq] at member
    rwa [member]
  · rw [read]
    refine ⟨_, List.mem_singleton.mpr rfl, ?_⟩
    rw [Tag.fits_iff free, not_not]
    exact .inl ⟨rfl, by decide +kernel, by decide⟩

end Transplant.Rails.Erb
