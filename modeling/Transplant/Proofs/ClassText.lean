import Transplant.Proofs.Declarations
import Transplant.Proofs.RouteLines

/-! Texts of one class: the line that declares it, the lines of its body with any blanks around them, and
`end`. A scan that finds something in some of the lines, and nothing between them, finds just that in the
whole text. -/
namespace Transplant.Rails

open Text Text.Pattern
open Route (Word)

namespace ClassText

structure Blanks where
  chars : List Char
  blank : Blank chars

def Blanks.of (text : String) (blank : Blank text.toList := by decide) : Blanks :=
  ⟨text.toList, blank⟩

def Blanks.none : Blanks := ⟨[], blank_nil⟩

def Blanks.indent : Blanks := .of "  "

structure Gap extends Blanks where
  nonempty : chars ≠ []

def Gap.space : Gap := ⟨.of " ", by decide⟩

/-- A line with the blanks around it, which may end lines of their own. -/
structure Line (L : Type) where
  indent : Blanks
  content : L
  trail : Blanks

def Line.map {L M : Type} (f : L → M) (l : Line L) : Line M := ⟨l.indent, f l.content, l.trail⟩

variable {L α : Type}

def body (chars : L → List Char) (last : Blanks) : List (Line L) → List Char
  | [] => "end".toList ++ last.chars
  | l :: lines => l.indent.chars ++ (chars l.content ++ (l.trail.chars ++ '\n' :: body chars last lines))

def opening (k : Kind) (name : Word) (rest : List Char) : List Char :=
  "class".toList ++ ([' '] ++ (name.chars ++ (" < ".toList ++ (k.base.toList ++ rest))))

def charsOf (k : Kind) (name : Word) (chars : L → List Char) (lines : List (Line L)) (last : Blanks) :
    List Char :=
  opening k name ('\n' :: body chars last lines)

def textOf (k : Kind) (name : Word) (chars : L → List Char) (lines : List (Line L)) (last : Blanks) :
    String :=
  .ofList (charsOf k name chars lines last)

def startsLine (c : Char) : Bool := isWord c || c = '@'

/-- Behind a line stands a gap, and then a line starts. -/
def Resumes (rest : List Char) : Prop :=
  ∃ gap c cs, rest = gap ++ c :: cs ∧ gap ≠ [] ∧ Blank gap ∧ startsLine c = true

theorem not_isBlank_of_startsLine {c : Char} (starts : startsLine c = true) : isBlank c = false := by
  rw [startsLine, Bool.or_eq_true, decide_eq_true_eq] at starts
  rcases starts with word | rfl
  · exact not_isBlank_of_isWord word
  · decide

theorem Resumes.stops_isWord {rest : List Char} (resumes : Resumes rest) : Stops isWord rest := by
  obtain ⟨gap, c, cs, rfl, some, blank, _⟩ := resumes
  obtain ⟨d, gap, rfl⟩ := List.exists_cons_of_ne_nil some
  exact stops_cons (not_isWord_of_isBlank (blank d List.mem_cons_self))

/-- Behind a line no mark follows that starts no line. -/
theorem Resumes.not_opens {rest : List Char} (resumes : Resumes rest) {mark : Char → Bool}
    (unmarked : ∀ c, startsLine c = true → mark c = false) : ¬ Opens mark rest := by
  obtain ⟨gap, c, cs, rfl, _, blank, start⟩ := resumes
  exact Text.not_opens blank (not_isBlank_of_startsLine start) (unmarked c start)

def isColon (c : Char) : Bool := c = ':'

theorem not_isColon_of_startsLine {c : Char} (starts : startsLine c = true) : isColon c = false := by
  cases colon : isColon c with
  | false => rfl
  | true =>
    rw [of_decide_eq_true colon] at starts
    exact absurd starts (by decide)

theorem announces_symbol {words : List (List Char)} {s : String} (member : s.toList ∈ words)
    (inWord : s.toList.all isWord = true) (gap : Gap) (rest : List Char) :
    Announces words isColon (s.toList ++ (gap.chars ++ ':' :: rest)) :=
  announces_append member inWord gap.nonempty (List.all_eq_true.mpr gap.blank) (stops_cons (by decide))
    ⟨':', rfl, rfl⟩

theorem mark_out {gap : List Char} (blank : Blank gap) {c : Char} (out : isWord c = false) :
    ∀ d ∈ gap ++ [c], isWord d = false := by
  rw [List.forall_mem_append, List.forall_mem_singleton]
  exact ⟨fun d member => not_isWord_of_isBlank (blank d member), out⟩

/-- A scan that finds the values of lines, and finds nothing in front of them and behind. -/
structure Meets (k : Kind) (chars : L → List Char) (edged : Bool) (p : Pattern α)
    (value : L → Option α) : Prop where
  starts : ∀ l, ∃ c cs, chars l = c :: cs ∧ startsLine c = true
  blank : ∀ c cs, isBlank c = true → p (c :: cs) = none
  opened : ∀ name rest, Resumes rest → ∃ inWord,
    scanFrom edged p false 0 (opening k name rest) = scanFrom edged p inWord 0 rest
  line : ∀ l rest, Resumes rest → ∃ inWord, scanFrom edged p false 0 (chars l ++ rest) =
    (value l).toList ++ scanFrom edged p inWord 0 rest
  closed : ∀ rest, Blank rest → ∃ inWord,
    scanFrom edged p false 0 ("end".toList ++ rest) = scanFrom edged p inWord 0 rest

theorem body_starts {chars : L → List Char} (starts : ∀ l, ∃ c cs, chars l = c :: cs ∧ startsLine c = true)
    (last : Blanks) (lines : List (Line L)) :
    ∃ gap c cs, body chars last lines = gap ++ c :: cs ∧ Blank gap ∧ startsLine c = true := by
  cases lines with
  | nil => exact ⟨[], 'e', 'n' :: 'd' :: last.chars, rfl, blank_nil, by decide⟩
  | cons l lines =>
    obtain ⟨c, cs, first, start⟩ := starts l.content
    exact ⟨l.indent.chars, c, cs ++ (l.trail.chars ++ '\n' :: body chars last lines),
      by rw [body, first, List.cons_append], l.indent.blank, start⟩

theorem resumes_body {chars : L → List Char} (starts : ∀ l, ∃ c cs, chars l = c :: cs ∧ startsLine c = true)
    (trail last : Blanks) (lines : List (Line L)) :
    Resumes (trail.chars ++ '\n' :: body chars last lines) := by
  obtain ⟨gap, c, cs, split, blank, start⟩ := body_starts starts last lines
  refine ⟨trail.chars ++ '\n' :: gap, c, cs, by rw [split]; simp, by simp, ?_, start⟩
  have newline : isBlank '\n' = true := by decide
  rw [Blank, List.forall_mem_append, List.forall_mem_cons]
  exact ⟨trail.blank, newline, blank⟩

namespace Meets

variable {k : Kind} {chars : L → List Char} {edged inWord : Bool} {p : Pattern α} {value : L → Option α}

theorem pass_blanks (h : Meets k chars edged p value) {gap : List Char} (blank : Blank gap)
    (rest : List Char) : scanFrom edged p inWord 0 (gap ++ rest) =
      scanFrom edged p (lastInWord inWord gap) 0 rest := by
  refine scanFrom_unread fun before behind split some => ?_
  obtain ⟨c, behind, rfl⟩ := List.exists_cons_of_ne_nil some
  exact .inr (h.blank c _ (blank c (by simp [split])))

theorem pass_lineEnd (h : Meets k chars edged p value) (trail : Blanks) (rest : List Char) :
    scanFrom edged p inWord 0 (trail.chars ++ '\n' :: rest) = scanFrom edged p false 0 rest := by
  have newline : isBlank '\n' = true := by decide
  have blank : Blank (trail.chars ++ ['\n']) := by
    rw [Blank, List.forall_mem_append, List.forall_mem_singleton]
    exact ⟨trail.blank, newline⟩
  have outside : lastInWord inWord (trail.chars ++ ['\n']) = false := by
    rw [lastInWord, List.getLast?_concat]
    rfl
  have split : trail.chars ++ '\n' :: rest = trail.chars ++ ['\n'] ++ rest := by simp
  rw [split, h.pass_blanks blank, outside]

theorem scan_body (h : Meets k chars edged p value) (last : Blanks) (lines : List (Line L)) :
    scanFrom edged p false 0 (body chars last lines) = lines.filterMap fun l => value l.content := by
  induction lines with
  | nil =>
    obtain ⟨inWord, closed⟩ := h.closed last.chars last.blank
    have nothing : scanFrom edged p inWord 0 (last.chars ++ []) = [] := by
      rw [h.pass_blanks last.blank, scanFrom_nil]
    rw [List.append_nil] at nothing
    rw [body, closed, nothing]
    rfl
  | cons l lines ih =>
    have values : (l :: lines).filterMap (fun l => value l.content) =
        (value l.content).toList ++ lines.filterMap fun l => value l.content := by
      cases told : value l.content <;> simp [told]
    obtain ⟨inWord, line⟩ := h.line l.content _ (resumes_body h.starts l.trail last lines)
    rw [body, h.pass_blanks l.indent.blank, lastInWord_of_blank l.indent.blank, line, h.pass_lineEnd, ih,
      values]

/-- What a scan of the text of a class finds are the values of its lines, in their order. -/
theorem scan_text (h : Meets k chars edged p value) (name : Word) (last : Blanks)
    (lines : List (Line L)) : scanFrom edged p false 0 (charsOf k name chars lines last) =
      lines.filterMap fun l => value l.content := by
  have resumes := resumes_body h.starts ⟨[], blank_nil⟩ last lines
  rw [List.nil_append] at resumes
  obtain ⟨inWord, opened⟩ := h.opened name _ resumes
  have newline : scanFrom edged p inWord 0 ('\n' :: body chars last lines) =
      scanFrom edged p false 0 (body chars last lines) := h.pass_lineEnd ⟨[], blank_nil⟩ _
  rw [charsOf, opened, newline, h.scan_body]

end Meets

/-- A declaration passes by what is announced by other words, and so does the `end`. -/
theorem meets_of_announcedBy {k : Kind} {chars : L → List Char} {p : Pattern α} {value : L → Option α}
    {words : List (List Char)} {mark : Char → Bool} (h : AnnouncedBy p words mark)
    (others : ∀ w ∈ ["class", "end", k.base], w.toList ∉ words) (unmarked : mark '<' = false)
    (starts : ∀ l, ∃ c cs, chars l = c :: cs ∧ startsLine c = true)
    (line : ∀ l rest, Resumes rest → ∃ inWord, scanFrom true p false 0 (chars l ++ rest) =
      (value l).toList ++ scanFrom true p inWord 0 rest) :
    Meets k chars true p value where
  starts := starts
  blank c cs blank := h.unread_of_stops (stops_cons (not_isWord_of_isBlank blank))
  line := line
  opened name rest resumes := by
    obtain ⟨b, bs, base, _⟩ := k.base_starts
    have letters : ∀ c ∈ "class".toList, isWord c = true := List.all_eq_true.mp (by decide)
    have space : ∀ c ∈ [' '], isWord c = false := not_isWord_of_all (by decide)
    have spaces : ∀ c ∈ " < ".toList, isWord c = false := not_isWord_of_all (by decide)
    have quiet : ¬ Opens mark (" < ".toList ++ (k.base.toList ++ rest)) :=
      not_opens (show Blank [' '] by decide) (by decide) unmarked
    refine ⟨true, ?_⟩
    rw [opening, h.pass_both (by decide) letters (by decide) space,
      h.pass_both name.nonempty name.inWord (by decide) spaces fun _ => quiet,
      h.pass_word (by simp [base]) k.base_inWord resumes.stops_isWord]
    · exact fun member => absurd member (others k.base (by simp))
    · exact fun member => absurd member (others "class" (by simp))
  closed rest blank := by
    have letters : ∀ c ∈ "end".toList, isWord c = true := List.all_eq_true.mp (by decide)
    have edge : Stops isWord rest := by
      rw [← List.append_nil rest]
      exact stops_append (fun c member => not_isWord_of_isBlank (blank c member)) (by simp [Stops])
    exact ⟨true, h.pass_word (by decide) letters edge fun member => absurd member (others "end" (by simp))⟩

theorem declares_opening {k : Kind} {name : Word} {rest : List Char} (fits : k.accepts name.chars = true)
    (resumes : Resumes rest) : Declares k name.chars (opening k name rest) rest where
  starts := ⟨[' '], [' '], [' '], by simp, by decide, by decide, by decide, by simp [opening]⟩
  nonempty := name.nonempty
  inWord := name.inWord
  accepted := fits
  ends := resumes.stops_isWord

theorem head?_declared (k : Kind) (name : Word) (fits : k.accepts name.chars = true)
    {chars : L → List Char} (starts : ∀ l, ∃ c cs, chars l = c :: cs ∧ startsLine c = true)
    (lines : List (Line L)) (last : Blanks) :
    (scanWords k.declaration (charsOf k name chars lines last)).head? = some (.ofList name.chars) := by
  have resumes := resumes_body starts ⟨[], blank_nil⟩ last lines
  have reads := Kind.declaration_eq_some.mpr ⟨name.chars, declares_opening fits resumes, rfl⟩
  have first : opening k name ('\n' :: body chars last lines) =
      'c' :: (opening k name ('\n' :: body chars last lines)).tail := rfl
  rw [List.nil_append, first] at reads
  rw [scanWords, charsOf, first, scanFrom, Bool.and_false, if_neg Bool.false_ne_true, reads]
  rfl

end ClassText

end Transplant.Rails
