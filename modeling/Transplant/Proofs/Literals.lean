import Mathlib.Tactic.SplitIfs
import Transplant.Json.Document
import Transplant.Proofs.Patterns

/-! Atoms of JSON texts. What is read of a text as a number, a word or a string does not depend on what
follows, as long as nothing follows that goes on with a number. -/
namespace Transplant.Json.Document

open Text.Pattern

/-- A character that may go on with a number which has been read. -/
def isNumeric (c : Char) : Bool := c.isDigit || c = '.' || c = 'e' || c = 'E'

theorem stops_isDigit {cs : List Char} (stops : Stops isNumeric cs) : Stops Char.isDigit cs := by
  intro c first
  have out := stops c first
  simp only [isNumeric, Bool.or_eq_false_iff] at out
  exact out.1.1.1

def InNumber (c : Char) : Prop := isNumeric c = true ∨ c = '+' ∨ c = '-'

theorem inNumber_of_isDigit {c : Char} (digit : c.isDigit = true) : InNumber c :=
  .inl (by simp [isNumeric, digit])

theorem digitRun_append {digits rest : List Char} (all : ∀ c ∈ digits, c.isDigit = true)
    (stops : Stops Char.isDigit rest) : digitRun (digits ++ rest) = (digitsOf digits, rest) := by
  obtain ⟨none, whole⟩ := takeWhile_of_stops stops
  rw [digitRun, List.takeWhile_append_of_pos all, List.dropWhile_append_of_pos all, none, whole,
    List.append_nil]

theorem digitRun_split (cs : List Char) : ∃ digits rest, cs = digits ++ rest ∧
    (∀ c ∈ digits, c.isDigit = true) ∧ Stops Char.isDigit rest ∧
      digitRun cs = (digitsOf digits, rest) :=
  ⟨cs.takeWhile Char.isDigit, cs.dropWhile Char.isDigit, List.takeWhile_append_dropWhile.symm,
    List.all_eq_true.mp List.all_takeWhile, stops_dropWhile _ _, rfl⟩

theorem digitRun_some {cs : List Char} (first : cs.head?.any Char.isDigit = true) :
    ∃ c digits rest, cs = c :: digits ++ rest ∧ (∀ d ∈ c :: digits, d.isDigit = true) ∧
      digitRun cs = (digitsOf (c :: digits), rest) := by
  obtain ⟨digits, rest, rfl, all, stops, run⟩ := digitRun_split cs
  cases digits with
  | nil =>
    cases rest with
    | nil => cases first
    | cons c rest =>
      have digit : c.isDigit = true := by simpa using first
      rw [stops c rfl] at digit
      cases digit
  | cons c digits => exact ⟨c, digits, rest, rfl, all, run⟩

theorem readWhole_takes {cs rest : List Char} {ds : List Nat} (read : readWhole cs = some (ds, rest)) :
    ∃ c used, cs = c :: used ++ rest ∧ (∀ d ∈ c :: used, d.isDigit = true) ∧
      ∀ more, Stops Char.isDigit more → readWhole (c :: used ++ more) = some (ds, more) := by
  unfold readWhole at read
  split at read
  · rename_i after
    split_ifs at read with digit
    cases read
    refine ⟨'0', [], rfl, by simp, ?_⟩
    intro more stops
    have out : more.head?.any Char.isDigit = false := by
      cases more with
      | nil => rfl
      | cons d more => simpa using stops d rfl
    change (if more.head?.any Char.isDigit = true then _ else _) = _
    rw [out]
    rfl
  · rename_i whole
    split_ifs at read with first
    obtain ⟨c, digits, after, rfl, all, run⟩ := digitRun_some first
    rw [run] at read
    cases read
    refine ⟨c, digits, rfl, all, ?_⟩
    intro more stops
    have digit : (c :: digits ++ more).head?.any Char.isDigit = true := by
      simpa using all c List.mem_cons_self
    unfold readWhole
    split
    · rename_i h
      obtain ⟨rfl, _⟩ := List.cons.inj h
      exact absurd rfl (whole _)
    · rw [if_pos digit, digitRun_append all stops]

theorem readFraction_takes {cs rest : List Char} {ds : List Nat}
    (read : readFraction cs = some (ds, rest)) :
    ∃ used, cs = used ++ rest ∧ (∀ c ∈ used, InNumber c) ∧ (∀ c ∈ used.head?, c = '.') ∧
      ∀ more, Stops Char.isDigit more → more.head? ≠ some '.' →
        readFraction (used ++ more) = some (ds, more) := by
  unfold readFraction at read
  split at read
  · rename_i after
    split_ifs at read with first
    obtain ⟨c, digits, after, rfl, all, run⟩ := digitRun_some first
    rw [run] at read
    cases read
    refine ⟨'.' :: c :: digits, rfl, ?_, by simp, ?_⟩
    · rw [List.forall_mem_cons]
      exact ⟨.inl rfl, fun d member => inNumber_of_isDigit (all d member)⟩
    · intro more stops _
      have digit : (c :: digits ++ more).head?.any Char.isDigit = true := by
        simpa using all c List.mem_cons_self
      change (if (c :: digits ++ more).head?.any Char.isDigit = true then
        some (digitRun (c :: digits ++ more)) else none) = _
      rw [if_pos digit, digitRun_append all stops]
  · rename_i plain
    cases read
    refine ⟨[], rfl, by simp, by simp, ?_⟩
    intro more _ noPoint
    rw [List.nil_append]
    unfold readFraction
    split
    · exact absurd rfl noPoint
    · rfl

theorem readExponentSign_takes (cs : List Char) :
    ∃ used, cs = used ++ (readExponentSign cs).2 ∧ (∀ c ∈ used, InNumber c) ∧
      ∀ c more, c.isDigit = true →
        readExponentSign (used ++ c :: more) = ((readExponentSign cs).1, c :: more) := by
  unfold readExponentSign
  split
  · exact ⟨['+'], rfl, by simp [InNumber], fun _ _ _ => rfl⟩
  · exact ⟨['-'], rfl, by simp [InNumber], fun _ _ _ => rfl⟩
  · refine ⟨[], rfl, by simp, ?_⟩
    intro c more digit
    rw [List.nil_append]
    split
    · rename_i h
      cases h
      cases digit
    · rename_i h
      cases h
      cases digit
    · rfl

theorem readExponent_of_stops {cs : List Char} (stops : Stops isNumeric cs) :
    readExponent cs = some (none, cs) := by
  cases cs with
  | nil => rfl
  | cons c cs =>
    have out := stops c rfl
    simp only [isNumeric, Bool.or_eq_false_iff, decide_eq_false_iff_not] at out
    rw [readExponent, if_neg (by simp [out.1.2, out.2])]

theorem readExponent_takes {cs rest : List Char} {e : Option Int}
    (read : readExponent cs = some (e, rest)) :
    ∃ used, cs = used ++ rest ∧ (∀ c ∈ used, InNumber c) ∧ (∀ c ∈ used.head?, c = 'e' ∨ c = 'E') ∧
      ∀ more, Stops isNumeric more → readExponent (used ++ more) = some (e, more) := by
  unfold readExponent at read
  split at read
  · rename_i c after
    split_ifs at read with mark
    · obtain ⟨sign, signed, inSign, same⟩ := readExponentSign_takes after
      rcases found : readExponentSign after with ⟨negative, behind⟩
      rw [found] at read signed same
      dsimp only at read signed same
      obtain ⟨first, read⟩ := Option.ite_none_right_eq_some.mp read
      obtain ⟨d, digits, behind, rfl, all, run⟩ := digitRun_some first
      rw [run] at read
      cases read
      refine ⟨c :: (sign ++ d :: digits), by simp [signed], ?_, by simpa using mark, ?_⟩
      · rw [List.forall_mem_cons, List.forall_mem_append]
        refine ⟨.inl ?_, inSign, fun x member => inNumber_of_isDigit (all x member)⟩
        rw [isNumeric, Bool.or_assoc, mark, Bool.or_true]
      · intro more stops
        have digit : (d :: digits ++ more).head?.any Char.isDigit = true := by
          simpa using all d List.mem_cons_self
        rw [List.cons_append, List.append_assoc, List.cons_append, readExponent, if_pos mark,
          same d _ (all d List.mem_cons_self)]
        simp only [← List.cons_append, if_pos digit, digitRun_append all (stops_isDigit stops)]
    · cases read
      exact ⟨[], rfl, by simp, by simp, fun more => readExponent_of_stops⟩
  · cases read
    exact ⟨[], rfl, by simp, by simp, fun more => readExponent_of_stops⟩

theorem readUnsigned_takes {negative : Bool} {cs rest : List Char} {l : Literal}
    (read : readUnsigned negative cs = some (l, rest)) :
    ∃ c used, cs = c :: used ++ rest ∧ c.isDigit = true ∧ (∀ d ∈ used, InNumber d) ∧
      ∀ more, Stops isNumeric more → readUnsigned negative (c :: used ++ more) = some (l, more) := by
  simp only [readUnsigned, Option.bind_eq_bind, Option.bind_eq_some_iff] at read
  obtain ⟨⟨whole, _⟩, readWhole, ⟨fraction, _⟩, readFraction, ⟨exponent, _⟩, readExponent, read⟩ := read
  obtain ⟨c, first, rfl, digits, wholeAgain⟩ := readWhole_takes readWhole
  obtain ⟨second, rfl, inSecond, point, fractionAgain⟩ := readFraction_takes readFraction
  obtain ⟨third, rfl, inThird, mark, exponentAgain⟩ := readExponent_takes readExponent
  cases read
  refine ⟨c, first ++ (second ++ third), by simp, digits c List.mem_cons_self, ?_, ?_⟩
  · rw [List.forall_mem_append, List.forall_mem_append]
    exact ⟨fun d member => inNumber_of_isDigit (digits d (List.mem_cons_of_mem c member)),
      inSecond, inThird⟩
  · intro more stops
    have afterFraction : Stops Char.isDigit (third ++ more) ∧ (third ++ more).head? ≠ some '.' := by
      cases third with
      | nil =>
        refine ⟨stops_isDigit stops, ?_⟩
        intro h
        cases stops '.' h
      | cons d third =>
        have e := mark d rfl
        refine ⟨stops_cons ?_, ?_⟩ <;> rcases e with rfl | rfl <;> simp
    have afterWhole : Stops Char.isDigit (second ++ (third ++ more)) := by
      cases second with
      | nil => exact afterFraction.1
      | cons d second =>
        cases point d rfl
        exact stops_cons rfl
    simp only [readUnsigned, List.append_assoc, List.cons_append, Option.bind_eq_bind]
    rw [← List.cons_append, wholeAgain _ afterWhole, Option.bind_some,
      fractionAgain _ afterFraction.1 afterFraction.2, Option.bind_some, exponentAgain _ stops]
    rfl

theorem not_newline_of_hex {c : Char} {n : Nat} (value : hexValue? c = some n) : c ≠ '\n' := by
  rintro rfl
  cases value

theorem not_newline_of_escape {c d : Char} (escape : simpleEscape? c = some d) : c ≠ '\n' := by
  rintro rfl
  cases escape

def prepend (u : Unit16) (read : List Unit16 × List Char) : List Unit16 × List Char :=
  (u :: read.1, read.2)

theorem readUnits_code {a b c d : Char} {w x y z : Nat} (first : hexValue? a = some w)
    (second : hexValue? b = some x) (third : hexValue? c = some y) (fourth : hexValue? d = some z)
    (cs : List Char) : readUnits ('\\' :: 'u' :: a :: b :: c :: d :: cs) =
      (readUnits cs).map (prepend (unitOf (w * 4096 + x * 256 + y * 16 + z))) := by
  rw [readUnits, first, second, third, fourth]
  cases readUnits cs <;> rfl

theorem readUnits_escape {c e : Char} (escape : simpleEscape? c = some e) (cs : List Char) :
    readUnits ('\\' :: c :: cs) = (readUnits cs).map (prepend (.char e)) := by
  rw [readUnits, escape]
  · cases readUnits cs <;> rfl
  · rintro _ _ _ _ _ rfl
    cases escape

theorem readUnits_plain {c : Char} (quote : c ≠ '"') (slash : c ≠ '\\') (control : ¬ c.toNat < 0x20)
    (cs : List Char) : readUnits (c :: cs) = (readUnits cs).map (prepend (.char c)) := by
  rw [readUnits, if_neg (by simp [slash, control])]
  · cases readUnits cs <;> rfl
  · exact quote
  · exact fun _ _ _ _ _ same => absurd same slash
  · exact fun _ _ same => absurd same slash

theorem readUnits_takes {cs rest : List Char} {units : List Unit16}
    (read : readUnits cs = some (units, rest)) :
    ∃ body, cs = body ++ '"' :: rest ∧ '\n' ∉ body ∧
      ∀ more, readUnits (body ++ '"' :: more) = some (units, more) := by
  fun_induction readUnits cs generalizing units rest with
  | case1 => cases read
  | case2 after =>
    cases read
    exact ⟨[], rfl, by simp, fun more => rfl⟩
  | case3 a b c d after ih =>
    simp only [Option.bind_eq_bind, Option.bind_eq_some_iff] at read
    obtain ⟨w, first, x, second, y, third, z, fourth, ⟨units, _⟩, later, read⟩ := read
    cases read
    obtain ⟨body, rfl, line, again⟩ := ih later
    refine ⟨'\\' :: 'u' :: a :: b :: c :: d :: body, rfl, ?_, ?_⟩
    · simp [line, (not_newline_of_hex first).symm, (not_newline_of_hex second).symm,
        (not_newline_of_hex third).symm, (not_newline_of_hex fourth).symm]
    · intro more
      simp only [List.cons_append]
      rw [readUnits_code first second third fourth, again]
      rfl
  | case4 c after other ih =>
    simp only [Option.bind_eq_bind, Option.bind_eq_some_iff] at read
    obtain ⟨e, escape, ⟨units, _⟩, later, read⟩ := read
    cases read
    obtain ⟨body, rfl, line, again⟩ := ih later
    refine ⟨'\\' :: c :: body, rfl, by simp [line, (not_newline_of_escape escape).symm], ?_⟩
    intro more
    simp only [List.cons_append]
    rw [readUnits_escape escape, again]
    rfl
  | case5 c after => cases read
  | case6 c after quote _ slash ordinary ih =>
    simp only [Option.bind_eq_bind, Option.bind_eq_some_iff] at read
    obtain ⟨⟨units, _⟩, later, read⟩ := read
    cases read
    obtain ⟨body, rfl, line, again⟩ := ih later
    simp only [Bool.or_eq_true, decide_eq_true_eq, not_or] at ordinary
    refine ⟨c :: body, rfl, ?_, ?_⟩
    · rw [List.mem_cons, not_or]
      refine ⟨?_, line⟩
      rintro rfl
      exact ordinary.2 (by decide)
    · intro more
      rw [List.cons_append, readUnits_plain quote ordinary.1 ordinary.2, again]
      rfl

theorem readString_takes {cs rest : List Char} {s : Option String}
    (read : readString cs = some (s, rest)) :
    ∃ body, cs = body ++ '"' :: rest ∧ '\n' ∉ body ∧
      ∀ more, readString (body ++ '"' :: more) = some (s, more) := by
  simp only [readString, Option.bind_eq_bind, Option.bind_eq_some_iff] at read
  obtain ⟨⟨units, _⟩, found, read⟩ := read
  cases read
  obtain ⟨body, rfl, line, again⟩ := readUnits_takes found
  refine ⟨body, rfl, line, ?_⟩
  intro more
  rw [readString, again]
  rfl

def isBare (c : Char) : Bool := c.isAlphanum || c = '+' || c = '-' || c = '.'

theorem isBare_of_isDigit {c : Char} (digit : c.isDigit = true) : isBare c = true := by
  simp [isBare, Char.isAlphanum, digit]

theorem InNumber.isBare {c : Char} (inside : InNumber c) : isBare c = true := by
  rcases inside with numeric | rfl | rfl
  · simp only [isNumeric, Bool.or_eq_true, decide_eq_true_eq] at numeric
    rcases numeric with ((digit | rfl) | rfl) | rfl
    · exact isBare_of_isDigit digit
    all_goals rfl
  all_goals rfl

/-- How an atom looks: something in quotes on one line, or a word or a number. -/
inductive AtomForm : List Char → Prop where
  | quoted {body : List Char} (line : '\n' ∉ body) : AtomForm ('"' :: (body ++ ['"']))
  | bare {c : Char} {cs : List Char} (bare : ∀ d ∈ c :: cs, isBare d = true) : AtomForm (c :: cs)

theorem readAtom_of_number {c : Char} {cs : List Char} (sign : c = '-' ∨ c.isDigit = true) :
    readAtom (c :: cs) =
      (readLiteral (c :: cs)).map fun read => (.number (Number.ofLiteral? read.1), read.2) := by
  have other : ∀ {d : Char}, c = d → d ≠ '-' ∧ d.isDigit = false → False := by
    rintro _ rfl ⟨dash, digit⟩
    rcases sign with rfl | sign
    · exact dash rfl
    · rw [digit] at sign
      cases sign
  unfold readAtom
  split
  · rename_i h
    exact (other (List.cons.inj h).1 (by decide)).elim
  · rename_i h
    exact (other (List.cons.inj h).1 (by decide)).elim
  · rename_i h
    exact (other (List.cons.inj h).1 (by decide)).elim
  · rename_i h
    exact (other (List.cons.inj h).1 (by decide)).elim
  · cases readLiteral (c :: cs) <;> rfl

theorem readLiteral_takes {cs rest : List Char} {l : Literal} (read : readLiteral cs = some (l, rest)) :
    ∃ c used, cs = c :: used ++ rest ∧ (c = '-' ∨ c.isDigit = true) ∧ (∀ d ∈ used, isBare d = true) ∧
      ∀ more, Stops isNumeric more → readLiteral (c :: used ++ more) = some (l, more) := by
  unfold readLiteral at read
  split at read
  · obtain ⟨c, used, rfl, digit, inside, again⟩ := readUnsigned_takes read
    refine ⟨'-', c :: used, rfl, .inl rfl, ?_, fun more stops => again more stops⟩
    rw [List.forall_mem_cons]
    exact ⟨isBare_of_isDigit digit, fun d member => (inside d member).isBare⟩
  · rename_i unsigned
    obtain ⟨c, used, rfl, digit, inside, again⟩ := readUnsigned_takes read
    refine ⟨c, used, rfl, .inr digit, fun d member => (inside d member).isBare, ?_⟩
    intro more stops
    unfold readLiteral
    split
    · rename_i h
      rw [(List.cons.inj h).1] at digit
      cases digit
    · exact again more stops

theorem readAtom_takes {cs rest : List Char} {d : Document} (read : readAtom cs = some (d, rest)) :
    ∃ used, cs = used ++ rest ∧ AtomForm used ∧
      ∀ more, Stops isNumeric more → readAtom (used ++ more) = some (d, more) := by
  unfold readAtom at read
  split at read
  · cases read
    exact ⟨"null".toList, rfl, .bare (List.all_eq_true.mp rfl), fun more _ => rfl⟩
  · cases read
    exact ⟨"true".toList, rfl, .bare (List.all_eq_true.mp rfl), fun more _ => rfl⟩
  · cases read
    exact ⟨"false".toList, rfl, .bare (List.all_eq_true.mp rfl), fun more _ => rfl⟩
  · simp only [Option.bind_eq_bind, Option.bind_eq_some_iff] at read
    obtain ⟨⟨s, _⟩, found, read⟩ := read
    cases read
    obtain ⟨body, rfl, line, again⟩ := readString_takes found
    refine ⟨'"' :: (body ++ ['"']), by simp, .quoted line, ?_⟩
    intro more _
    simp only [List.cons_append, List.append_assoc, List.nil_append, readAtom, again]
    rfl
  · simp only [Option.bind_eq_bind, Option.bind_eq_some_iff] at read
    obtain ⟨⟨l, _⟩, found, read⟩ := read
    cases read
    obtain ⟨c, used, rfl, sign, inside, again⟩ := readLiteral_takes found
    refine ⟨c :: used, rfl, .bare ?_, ?_⟩
    · rw [List.forall_mem_cons]
      refine ⟨?_, inside⟩
      rcases sign with rfl | digit
      · rfl
      · exact isBare_of_isDigit digit
    · intro more stops
      rw [List.cons_append, readAtom_of_number sign, ← List.cons_append, again more stops]
      rfl

end Transplant.Json.Document
