import Transplant.Proofs.ClassText

/-! The name that a text declares first. A line that declares a class by a path of names gives its name to the
text, whatever stands above and below, just if the path is a single name and nothing above the line reads as a
declaration of another one: names are words, and a path with modules in it is none. -/
namespace Transplant.Rails

open Text Text.Pattern ClassText
open Route (Word)

/-- The name of a class with the modules around it. -/
structure ConstantPath where
  first : Word
  more : List Word

def ConstantPath.chars (p : ConstantPath) : List Char :=
  p.first.chars ++ p.more.flatMap fun w => "::".toList ++ w.chars

def ConstantPath.last (p : ConstantPath) : Word := p.more.getLast?.getD p.first

theorem ConstantPath.starts (p : ConstantPath) : ∃ c cs, p.chars = c :: cs ∧ isWord c = true := by
  obtain ⟨c, cs, first⟩ := List.exists_cons_of_ne_nil p.first.nonempty
  refine ⟨c, cs ++ p.more.flatMap fun w => "::".toList ++ w.chars, ?_, p.first.inWord c (by simp [first])⟩
  rw [ConstantPath.chars, first, List.cons_append]

/-- A line that declares a class by its path, where the last name of the path fits the kind. -/
structure DeclarationLine (k : Kind) where
  indent : Blanks
  gap : Gap
  path : ConstantPath
  before : Blanks
  after : Blanks
  trail : Blanks
  fits : k.accepts path.last.chars = true

def above (lines : List (List Char)) : List Char := lines.flatMap fun l => l ++ ['\n']

def below (lines : List (List Char)) : List Char := lines.flatMap fun l => '\n' :: l

namespace DeclarationLine

variable {k : Kind}

def chars (d : DeclarationLine k) : List Char :=
  d.indent.chars ++ ("class".toList ++ (d.gap.chars ++ (d.path.chars ++ (d.before.chars ++
    '<' :: (d.after.chars ++ (k.base.toList ++ d.trail.chars))))))

def textOf (d : DeclarationLine k) (before after : List (List Char)) : String :=
  .ofList (above before ++ (d.chars ++ below after))

end DeclarationLine

namespace Kind

def nameIn : Kind → String → Option String
  | record, text => (Record.ofText? text).map (·.name)
  | controller, text => (Controller.ofText? text).map (·.name)

/-- The first place of a text that declares a class, behind no word character, gives it this name. -/
def Names (k : Kind) (cs name : List Char) : Prop :=
  ∃ front tail rest, cs = front ++ tail ∧ lastInWord false front = false ∧ Declares k name tail rest ∧
    ∀ before behind, front = before ++ behind → behind ≠ [] → lastInWord false before = false →
      ∀ w rest', ¬ Declares k w (behind ++ tail) rest'

theorem nameIn_eq (k : Kind) (text : String) :
    k.nameIn text = (scanWords k.declaration text.toList).head? := by
  cases k with
  | record => cases first : (scanWords Record.declaration text.toList).head? <;>
      simp [nameIn, Record.ofText?, declaration, first]
  | controller => cases first : (scanWords Controller.declaration text.toList).head? <;>
      simp [nameIn, Controller.ofText?, declaration, first]

theorem declaration_eq_none {k : Kind} {cs : List Char} :
    k.declaration cs = none ↔ ∀ w rest, ¬ Declares k w cs rest := by
  constructor
  · intro none w rest declares
    have reads := declaration_eq_some.mpr ⟨w, declares, rfl⟩
    rw [none] at reads
    cases reads
  · intro none
    cases reads : k.declaration cs with
    | none => rfl
    | some found =>
      obtain ⟨w, declares, _⟩ := declaration_eq_some.mp reads
      exact absurd declares (none w found.2)

theorem map_declaration_eq_some {k : Kind} {cs : List Char} {s : String} :
    (k.declaration cs).map Prod.fst = some s ↔ ∃ w, (∃ rest, Declares k w cs rest) ∧ s = .ofList w := by
  rw [Option.map_eq_some_iff]
  constructor
  · rintro ⟨⟨s, rest⟩, reads, rfl⟩
    obtain ⟨w, declares, same⟩ := declaration_eq_some.mp reads
    exact ⟨w, ⟨rest, declares⟩, same⟩
  · rintro ⟨w, ⟨rest, declares⟩, rfl⟩
    exact ⟨(.ofList w, rest), declaration_eq_some.mpr ⟨w, declares, rfl⟩, rfl⟩

theorem nameIn_eq_some {k : Kind} {text s : String} :
    k.nameIn text = some s ↔ ∃ w, k.Names text.toList w ∧ s = .ofList w := by
  rw [nameIn_eq, scanWords, head?_scanFrom_eq_some]
  simp only [Bool.true_and, declaration_eq_some, declaration_eq_none]
  constructor
  · rintro ⟨front, tail, rest, split, _, edge, ⟨w, declares, rfl⟩, unread⟩
    refine ⟨w, ⟨front, tail, rest, split, edge, declares, ?_⟩, rfl⟩
    intro before behind parts some outside
    rcases unread before behind parts some with inside | none
    · rw [outside] at inside
      cases inside
    · exact none
  · rintro ⟨w, ⟨front, tail, rest, split, edge, declares, first⟩, rfl⟩
    refine ⟨front, tail, rest, split, declares.ne_nil, edge, ⟨w, declares, rfl⟩, ?_⟩
    intro before behind parts some
    cases outside : lastInWord false before with
    | true => exact .inl rfl
    | false => exact .inr (first before behind parts some outside)

end Kind

theorem getLast?_above (lines : List (List Char)) : ∀ c ∈ (above lines).getLast?, c = '\n' := by
  intro c last
  rcases List.eq_nil_or_concat lines with rfl | ⟨lines, l, rfl⟩
  · cases last
  · have split : above (lines.concat l) = (above lines ++ l).concat '\n' := by simp [above]
    rw [split, List.concat_eq_append, List.getLast?_concat] at last
    exact (Option.some.inj last).symm

/-- No declaration that is broken off at the end of a line goes on in this text. -/
structure Apart (k : Kind) (own : List Char) : Prop where
  sign : ∀ x w gap rest, Blank x → (∀ c ∈ w, isWord c = true) → Blank gap →
    own ≠ x ++ (w ++ (gap ++ '<' :: rest))
  base : ∀ x rest, Blank x → own ≠ x ++ (k.base.toList ++ rest)

theorem apart_nil (k : Kind) : Apart k [] where
  sign x w gap rest _ _ _ same := by simp at same
  base x rest _ same := by
    obtain ⟨c, cs, base, _⟩ := k.base_starts
    simp [base] at same

section

variable {front own read rest : List Char}

theorem gap_within (blank : Blank read) (split : front ++ '\n' :: own = read ++ rest) :
    (∃ more, front = read ++ more ∧ rest = more ++ '\n' :: own) ∨ ∃ x, Blank x ∧ own = x ++ rest := by
  rcases List.append_eq_append_iff.mp split with ⟨beyond, rfl, further⟩ | within
  · cases beyond with
    | nil => exact .inl ⟨[], by simp, further.symm⟩
    | cons c beyond =>
      exact .inr ⟨beyond, fun d member => blank d (by simp [member]), (List.cons.inj further).2⟩
  · exact .inl within

/-- What stands behind the first word, or what stands there instead of a word. -/
def behindWord (cs : List Char) : List Char := ((cs.dropWhile isBlank).dropWhile isWord).dropWhile isBlank

theorem behindWord_eq {x w gap : List Char} {c : Char} (blank : Blank x) (inWord : ∀ c ∈ w, isWord c = true)
    (gapBlank : Blank gap) (stops : Stops isWord (gap ++ c :: rest)) (solid : isBlank c = false)
    (none : w = [] → isWord c = false) : behindWord (x ++ (w ++ (gap ++ c :: rest))) = c :: rest := by
  have shown : (gap ++ c :: rest).dropWhile isBlank = c :: rest := by
    rw [List.dropWhile_append_of_pos gapBlank, List.dropWhile_cons_of_neg (by simp [solid])]
  rw [behindWord, List.dropWhile_append_of_pos blank]
  cases w with
  | nil => rw [List.nil_append, shown, List.dropWhile_cons_of_neg (by simp [none rfl]),
      List.dropWhile_cons_of_neg (by simp [solid])]
  | cons e w =>
    have letter : ¬ isBlank e = true := by simp [not_isBlank_of_isWord (inWord e List.mem_cons_self)]
    rw [List.cons_append, List.dropWhile_cons_of_neg letter, ← List.cons_append,
      List.dropWhile_append_of_pos inWord, (takeWhile_of_stops stops).2, shown]

theorem newline_not_mem_word (inWord : ∀ c ∈ read, isWord c = true) : '\n' ∉ read := fun member =>
  absurd (inWord '\n' member) (by decide)

end

theorem declares_above {k : Kind} {w cs own : List Char} (apart : Apart k own) :
    (∃ rest, Declares k w (cs ++ '\n' :: own) rest) ↔ ∃ rest, Declares k w cs rest := by
  constructor
  · rintro ⟨rest, ⟨gap₁, gap₂, gap₃, some, blank₁, blank₂, blank₃, split⟩, nonempty, inWord, fits, ends⟩
    -- Only a gap can hold the end of the line, and what would follow it is no part of a declaration.
    obtain ⟨cs, rfl, spaced⟩ := within_of_not_mem (by decide) split
    rcases gap_within blank₁ spaced.symm with ⟨cs, rfl, named⟩ | ⟨x, blank, same⟩
    case inr => exact absurd same (apart.sign x w gap₂ _ blank inWord blank₂)
    obtain ⟨cs, rfl, open₂⟩ := within_of_not_mem (newline_not_mem_word inWord) named.symm
    rcases gap_within blank₂ open₂.symm with ⟨cs, rfl, signed⟩ | ⟨x, blank, same⟩
    case inr => exact absurd same (apart.sign x [] [] _ blank (by simp) blank_nil)
    obtain ⟨cs, rfl, open₃⟩ := @within_of_not_mem _ _ ['<'] _ _ (by decide) signed.symm
    rcases gap_within blank₃ open₃.symm with ⟨cs, rfl, based⟩ | ⟨x, blank, same⟩
    case inr => exact absurd same (apart.base x _ blank)
    obtain ⟨cs, rfl, rfl⟩ := within_of_not_mem (newline_not_mem_word k.base_inWord) based.symm
    refine ⟨cs, ⟨gap₁, gap₂, gap₃, some, blank₁, blank₂, blank₃, rfl⟩, nonempty, inWord, fits, ?_⟩
    cases cs with
    | nil => simp [Stops]
    | cons c cs => exact stops_cons (ends c rfl)
  · rintro ⟨rest, ⟨gap₁, gap₂, gap₃, some, blank₁, blank₂, blank₃, rfl⟩, nonempty, inWord, fits, ends⟩
    refine ⟨rest ++ '\n' :: own, ⟨gap₁, gap₂, gap₃, some, blank₁, blank₂, blank₃, by simp⟩, nonempty, inWord,
      fits, ?_⟩
    cases rest with
    | nil => exact stops_cons (by decide)
    | cons c rest => exact stops_cons (ends c rfl)

namespace DeclarationLine

variable {k : Kind}

/-- A line shows its path where a sign would stand, and `class` where a base would. -/
theorem apart (d : DeclarationLine k) (rest : List Char) : Apart k (d.chars ++ rest) := by
  obtain ⟨c, cs, path, word⟩ := d.path.starts
  obtain ⟨tail, line⟩ : ∃ tail, d.chars ++ rest =
      d.indent.chars ++ ("class".toList ++ (d.gap.chars ++ c :: tail)) :=
    ⟨cs ++ (d.before.chars ++ '<' :: (d.after.chars ++ (k.base.toList ++ (d.trail.chars ++ rest)))),
      by simp [chars, path]⟩
  have letters : ∀ e ∈ "class".toList, isWord e = true := List.all_eq_true.mp (by decide)
  have some : "class".toList ≠ [] := by decide
  rw [line]
  refine ⟨?_, ?_⟩
  · intro x w gap rest' blank inWord gapBlank same
    have space : Stops isWord (d.gap.chars ++ c :: tail) := by
      obtain ⟨b, bs, gap⟩ := List.exists_cons_of_ne_nil d.gap.nonempty
      rw [gap]
      exact stops_cons (not_isWord_of_isBlank (d.gap.blank b (by simp [gap])))
    have sign : Stops isWord (gap ++ '<' :: rest') :=
      stops_append (fun d member => not_isWord_of_isBlank (gapBlank d member)) (stops_cons (by decide))
    have behind := congrArg behindWord same
    rw [behindWord_eq d.indent.blank letters d.gap.blank space (not_isBlank_of_isWord word) (absurd · some),
      behindWord_eq blank inWord gapBlank sign (by decide) fun _ => by decide] at behind
    rw [(List.cons.inj behind).1] at word
    exact absurd word (by decide)
  · intro x rest' blank same
    have shown := congrArg (List.dropWhile isBlank) same
    rw [List.dropWhile_append_of_pos d.indent.blank, List.dropWhile_append_of_pos blank] at shown
    cases k <;> exact absurd (List.cons.inj shown).1 (by decide)

theorem declares (d : DeclarationLine k) (single : d.path.more = []) (after : List (List Char)) : ∃ tail rest,
    d.chars ++ below after = d.indent.chars ++ tail ∧ Declares k d.path.chars tail rest := by
  have path : d.path.chars = d.path.first.chars := by simp [ConstantPath.chars, single]
  have last : d.path.last = d.path.first := by simp [ConstantPath.last, single]
  refine ⟨"class".toList ++ (d.gap.chars ++ (d.path.chars ++ (d.before.chars ++
      '<' :: (d.after.chars ++ (k.base.toList ++ (d.trail.chars ++ below after)))))),
    d.trail.chars ++ below after, by simp [chars], ?_⟩
  refine ⟨⟨d.gap.chars, d.before.chars, d.after.chars, d.gap.nonempty, d.gap.blank, d.before.blank,
    d.after.blank, rfl⟩, path ▸ d.path.first.nonempty, path ▸ d.path.first.inWord, ?_, ?_⟩
  · rw [path, ← last]
    exact d.fits
  · refine stops_append (fun c member => not_isWord_of_isBlank (d.trail.blank c member)) ?_
    cases after with
    | nil => simp [Stops, below]
    | cons l after => exact stops_cons (by decide)

/-- A text is named by what stands above the line, and by the line if nothing above it is a declaration. -/
theorem nameIn_textOf (d : DeclarationLine k) (before after : List (List Char)) :
    k.nameIn (d.textOf before after) = (k.nameIn (.ofList (above before))).or
      (scanWords k.declaration (d.chars ++ below after)).head? := by
  have outside : lastInWord false (above before) = false := by
    cases last : (above before).getLast? with
    | none => simp [lastInWord, last]
    | some c =>
      rw [lastInWord, last, getLast?_above before c last]
      rfl
  have first := @head?_scanFrom_append _ k.declaration true false (d.chars ++ below after) (above before) ?_
  · rw [outside] at first
    rw [Kind.nameIn_eq, Kind.nameIn_eq, textOf, String.toList_ofList, String.toList_ofList]
    exact first
  · intro front tail split some
    have last := List.getLast?_eq_some_getLast some
    have whole : (above before).getLast? = Option.some (tail.getLast some) := by
      rw [split, List.getLast?_append_of_ne_nil front some, last]
    rw [getLast?_above before _ whole] at last
    obtain ⟨cs, rfl⟩ := List.getLast?_eq_some_iff.mp last
    rw [List.append_assoc, List.singleton_append]
    refine Option.ext fun s => ?_
    rw [Kind.map_declaration_eq_some, Kind.map_declaration_eq_some]
    simp only [declares_above (d.apart (below after)), declares_above (apart_nil k)]

theorem head?_line (d : DeclarationLine k) (single : d.path.more = []) (after : List (List Char)) :
    (scanWords k.declaration (d.chars ++ below after)).head? = some (.ofList d.path.chars) := by
  obtain ⟨tail, rest, split, declares⟩ := d.declares single after
  have edge : lastInWord false d.indent.chars = false := lastInWord_of_blank d.indent.blank
  refine head?_scanFrom_eq_some.mpr ⟨d.indent.chars, tail, rest, split, declares.ne_nil, by simpa using edge,
    Kind.declaration_eq_some.mpr ⟨_, declares, rfl⟩, ?_⟩
  intro before behind parts some
  obtain ⟨c, behind, rfl⟩ := List.exists_cons_of_ne_nil some
  refine .inr (Kind.declaration_eq_none.mpr fun w rest' declared => ?_)
  have first : c = 'c' := Option.some.inj declared.head?
  have blank : isBlank c = true := d.indent.blank c (by simp [parts])
  rw [first] at blank
  exact absurd blank (by decide)

theorem single_of_inWord {p : ConstantPath} (inWord : ∀ c ∈ p.chars, isWord c = true) : p.more = [] := by
  cases more : p.more with
  | nil => rfl
  | cons w ws =>
    have colon : isWord ':' = true := inWord ':' (by simp [ConstantPath.chars, more])
    exact absurd colon (by decide)

/-- A line names the text by its path just if the path is a single name and the first declaration above the
line, if there is one, is of this name too. -/
theorem nameIn_eq_path_iff (d : DeclarationLine k) (before after : List (List Char)) :
    k.nameIn (d.textOf before after) = some (.ofList d.path.chars) ↔
      d.path.more = [] ∧ ∀ w, k.Names (above before) w → w = d.path.chars := by
  constructor
  · intro named
    obtain ⟨w, ⟨_, _, _, _, _, declares, _⟩, same⟩ := Kind.nameIn_eq_some.mp named
    rw [String.ofList_inj] at same
    refine ⟨single_of_inWord (same ▸ declares.inWord), fun v names => ?_⟩
    have first : k.nameIn (.ofList (above before)) = some (.ofList v) :=
      Kind.nameIn_eq_some.mpr ⟨v, by rwa [String.toList_ofList], rfl⟩
    rw [nameIn_textOf, first, Option.some_or, Option.some_inj, String.ofList_inj] at named
    exact named
  · rintro ⟨single, only⟩
    rw [nameIn_textOf]
    cases first : k.nameIn (.ofList (above before)) with
    | none => rw [Option.none_or, d.head?_line single]
    | some s =>
      obtain ⟨w, names, rfl⟩ := Kind.nameIn_eq_some.mp first
      rw [String.toList_ofList] at names
      rw [Option.some_or, only w names]

end DeclarationLine

def scopedPost : DeclarationLine .record where
  indent := .none
  gap := ⟨⟨[' '], by decide⟩, by decide⟩
  path := ⟨⟨"Admin".toList, by decide, List.all_eq_true.mp (by decide)⟩,
    [⟨"Post".toList, by decide, List.all_eq_true.mp (by decide)⟩]⟩
  before := ⟨[' '], by decide⟩
  after := ⟨[' '], by decide⟩
  trail := .none
  fits := rfl

theorem scoped_record_missed : (∀ w, ¬ Kind.record.Names (above []) w) ∧
    scopedPost.textOf [] ["end".toList, []] = "class Admin::Post < ApplicationRecord\nend\n" ∧
    scopedPost.path.chars = "Admin::Post".toList ∧
    Record.ofText? "class Admin::Post < ApplicationRecord\nend\n" = none := by
  refine ⟨?_, by decide, by decide +kernel, by decide +kernel⟩
  rintro w ⟨front, tail, rest, split, _, declares, _⟩
  exact declares.ne_nil (List.append_eq_nil_iff.mp split.symm).2

end Transplant.Rails
