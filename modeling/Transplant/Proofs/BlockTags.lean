import Transplant.Proofs.TagForms

/-! What tags do to blocks. A tag opens a block, closes one or does neither, as the form of its code
says, and the conversion of the tag follows the form. There are two exceptions. The forms are told
after sigils are dropped from the code, and the inclusion of a partial never opens its block. -/
namespace Transplant.Rails.Erb

open Text Text.Pattern

/-- The tag runs its code and shows nothing of it. -/
def Sigil.Runs (s : Sigil) : Prop := s = .statement ∨ s = .trimmed

def Conditional (code : List Char) : Prop := "if ".toList <+: code ∨ "unless ".toList <+: code

def Branch (code : List Char) : Prop := code = "else".toList ∨ "elsif ".toList <+: code

def Closes (s : Sigil) (code : List Char) : Prop := s.Runs ∧ code = "end".toList

def Opens (s : Sigil) (code : List Char) : Block → Prop
  | .conditional => s.Runs ∧ Conditional code
  | .loop => s.Runs ∧ ¬ Conditional code ∧ ¬ Branch code ∧ EachForm code
  | .other => s = .output ∧ DoForm code ∨
      s.Runs ∧ ¬ Conditional code ∧ ¬ Branch code ∧ ¬ EachForm code ∧ DoForm code

instance (s : Sigil) : Decidable s.Runs := inferInstanceAs (Decidable (_ ∨ _))

instance (code : List Char) : Decidable (Conditional code) := inferInstanceAs (Decidable (_ ∨ _))

instance (code : List Char) : Decidable (Branch code) := inferInstanceAs (Decidable (_ ∨ _))

instance (code : List Char) : Decidable (EachForm code) := decidable_of_iff _ readEach?_isSome

instance (code : List Char) : Decidable (DoForm code) := decidable_of_iff _ endsInDo_iff

instance (s : Sigil) (code : List Char) : Decidable (Closes s code) :=
  inferInstanceAs (Decidable (_ ∧ _))

instance (s : Sigil) (code : List Char) : (b : Block) → Decidable (Opens s code b)
  | .conditional => inferInstanceAs (Decidable (_ ∧ _))
  | .loop => inferInstanceAs (Decidable (_ ∧ _))
  | .other => inferInstanceAs (Decidable (_ ∨ _))

theorem afterLiteral?_eq_some {s : String} {code rest : List Char} :
    afterLiteral? s code = some rest ↔ code = s.toList ++ rest := literalList_eq_some

theorem not_prefix_of_unread {s : String} {code : List Char}
    (unread : ∀ rest, afterLiteral? s code = some rest → False) : ¬ s.toList <+: code := by
  rintro ⟨rest, rfl⟩
  exact unread rest (afterLiteral?_eq_some.mpr rfl)

theorem openOther_eq (code : List Char) (blocks : List Block) :
    openOther code blocks = openOther code [] ++ blocks := by
  unfold openOther
  split <;> rfl

/-- The words in front of a condition, what they turn into, and the blocks that they open. -/
def conditionWords : List (String × String × List Block) :=
  [("elsif ", "elif ", []), ("if ", "if ", [.conditional]), ("unless ", "if not ", [.conditional])]

/-- Words in front of a condition make the code a branch or open a condition. -/
theorem form_of_conditionWords {words : String × String × List Block} (listed : words ∈ conditionWords)
    {code : List Char} (starts : words.1.toList <+: code) : Branch code ∨ Conditional code := by
  simp only [conditionWords, List.mem_cons, List.not_mem_nil, or_false] at listed
  rcases listed with rfl | rfl | rfl
  · exact .inl (.inr starts)
  · exact .inr (.inl starts)
  · exact .inr (.inr starts)

/-- What is written for the code of a statement that is no `end`, and the blocks that it opens. -/
inductive Wording (code : List Char) : List Char → List Block → Prop where
  | alternative (isElse : code = "else".toList) : Wording code "else".toList []
  | condition (words : String × String × List Block) (listed : words ∈ conditionWords)
      {rest : List Char} (split : code = words.1.toList ++ rest) :
      Wording code (words.2.1.toList ++ trim rest) words.2.2
  | loop {receiver tail item : List Char} (simple : ¬ Conditional code) (plain : ¬ Branch code)
      (split : code = receiver ++ tail) (line : '\n' ∉ receiver) (each : EachEnd tail item)
      (form : EachForm code) :
      Wording code ("for ".toList ++ item ++ " in ".toList ++ trim receiver) [.loop]
  | kept (simple : ¬ Conditional code) (plain : ¬ Branch code) (other : ¬ EachForm code) :
      Wording code code (openOther code [])

/-- Code that is no `end` is written the same and opens the same on every stack. -/
theorem statementMarkup_wording {code : List Char} (notEnd : code ≠ "end".toList) :
    ∃ shown opened, Wording code shown opened ∧
      ∀ blocks, statementMarkup code blocks = (.block shown, opened ++ blocks) := by
  simp only [statementMarkup, if_neg notEnd]
  split
  · rename_i isElse
    exact ⟨_, _, .alternative isElse, fun _ => rfl⟩
  · rename_i notElse
    split
    · rename_i condition read
      exact ⟨_, _, .condition ("elsif ", "elif ", []) (by decide)
        (afterLiteral?_eq_some.mp read), fun _ => rfl⟩
    · rename_i notElsif
      have plain : ¬ Branch code := by
        rintro (isElse | starts)
        · exact notElse isElse
        · exact not_prefix_of_unread notElsif starts
      split
      · rename_i condition read
        exact ⟨_, _, .condition ("if ", "if ", [.conditional]) (by decide)
          (afterLiteral?_eq_some.mp read), fun _ => rfl⟩
      · rename_i notIf
        split
        · rename_i condition read
          exact ⟨_, _, .condition ("unless ", "if not ", [.conditional]) (by decide)
            (afterLiteral?_eq_some.mp read), fun _ => rfl⟩
        · rename_i notUnless
          have simple : ¬ Conditional code := by
            rintro (starts | starts)
            · exact not_prefix_of_unread notIf starts
            · exact not_prefix_of_unread notUnless starts
          split
          · rename_i receiver item read
            obtain ⟨tail, split, line, each⟩ := readEach?_eq_some read
            have form : EachForm code := readEach?_isSome.mp (by rw [read]; rfl)
            exact ⟨_, _, .loop simple plain split line each form, fun _ => rfl⟩
          · rename_i unread
            have other : ¬ EachForm code := by
              rw [← readEach?_isSome]
              intro some'
              obtain ⟨⟨receiver, item⟩, read⟩ := Option.isSome_iff_exists.mp some'
              exact unread receiver item read
            refine ⟨_, _, .kept simple plain other, fun blocks => ?_⟩
            rw [openOther_eq]

/-- Code that is no `end` puts the same on every stack. -/
theorem statementMarkup_eq {code : List Char} (notEnd : code ≠ "end".toList) (blocks : List Block) :
    statementMarkup code blocks =
      ((statementMarkup code []).1, (statementMarkup code []).2 ++ blocks) := by
  obtain ⟨shown, opened, _, same⟩ := statementMarkup_wording notEnd
  rw [same, same, List.append_nil]

theorem not_conditional_of_branch {code : List Char} (branch : Branch code) : ¬ Conditional code := by
  rintro (⟨rest, h⟩ | ⟨rest, h⟩) <;> rcases branch with rfl | ⟨rest', rfl⟩ <;> cases h

theorem not_output_of_runs {s : Sigil} (runs : s.Runs) : s ≠ .output := by
  rintro rfl
  rcases runs with h | h <;> cases h

theorem Sigil.kinds (s : Sigil) : s.Runs ∨ s = .output ∨ s = .comment := by
  cases s with
  | statement => exact .inl (.inl rfl)
  | output => exact .inr (.inl rfl)
  | comment => exact .inr (.inr rfl)
  | trimmed => exact .inl (.inr rfl)

theorem not_opens_of_branch {s : Sigil} (runs : s.Runs) {code : List Char} (branch : Branch code) :
    ∀ b, ¬ Opens s code b := by
  intro b opens
  cases b with
  | conditional => exact not_conditional_of_branch branch opens.2
  | loop => exact opens.2.2.1 branch
  | other =>
    rcases opens with ⟨output, _⟩ | ⟨_, _, plain, _⟩
    · exact not_output_of_runs runs output
    · exact plain branch

theorem Wording.pushes {s : Sigil} (runs : s.Runs) {code shown : List Char} {opened : List Block}
    (wording : Wording code shown opened) :
    (∃ b, Opens s code b ∧ opened = [b]) ∨ ((∀ b, ¬ Opens s code b) ∧ opened = []) := by
  cases wording with
  | alternative isElse => exact .inr ⟨not_opens_of_branch runs (.inl isElse), rfl⟩
  | condition words listed split =>
    simp only [conditionWords, List.mem_cons, List.not_mem_nil, or_false] at listed
    rcases listed with rfl | rfl | rfl
    · exact .inr ⟨not_opens_of_branch runs (.inr ⟨_, split.symm⟩), rfl⟩
    · exact .inl ⟨.conditional, ⟨runs, .inl ⟨_, split.symm⟩⟩, rfl⟩
    · exact .inl ⟨.conditional, ⟨runs, .inr ⟨_, split.symm⟩⟩, rfl⟩
  | loop simple plain _ _ _ form => exact .inl ⟨.loop, ⟨runs, simple, plain, form⟩, rfl⟩
  | kept simple plain other =>
    rw [openOther]
    split
    · rename_i ends
      exact .inl ⟨.other, .inr ⟨runs, simple, plain, other, endsInDo_iff.mp ends⟩, rfl⟩
    · rename_i noEnd
      refine .inr ⟨?_, rfl⟩
      intro b opens
      cases b with
      | conditional => exact simple opens.2
      | loop => exact other opens.2.2.2
      | other =>
        rcases opens with ⟨output, _⟩ | ⟨_, _, _, _, ends⟩
        · exact not_output_of_runs runs output
        · exact noEnd (endsInDo_iff.mpr ends)

theorem statementMarkup_pushes {s : Sigil} (runs : s.Runs) {code : List Char}
    (notEnd : code ≠ "end".toList) :
    (∃ b, Opens s code b ∧ (statementMarkup code []).2 = [b]) ∨
      ((∀ b, ¬ Opens s code b) ∧ (statementMarkup code []).2 = []) := by
  obtain ⟨shown, opened, wording, same⟩ := statementMarkup_wording notEnd
  rw [same, List.append_nil]
  exact wording.pushes runs

theorem opens_other {s : Sigil} (runs : s.Runs) {code : List Char} (opens : Opens s code .other) :
    ¬ Conditional code ∧ ¬ EachForm code := by
  rcases opens with ⟨output, _⟩ | ⟨_, simple, _, other, _⟩
  · exact absurd output (not_output_of_runs runs)
  · exact ⟨simple, other⟩

theorem opens_unique {s : Sigil} (runs : s.Runs) {code : List Char} {b b' : Block}
    (opens : Opens s code b) (opens' : Opens s code b') : b = b' := by
  cases b <;> cases b'
  · rfl
  · exact absurd opens.2 opens'.2.1
  · exact absurd opens.2 (opens_other runs opens').1
  · exact absurd opens'.2 opens.2.1
  · rfl
  · exact absurd opens.2.2.2 (opens_other runs opens').2
  · exact absurd opens'.2 (opens_other runs opens).1
  · exact absurd opens'.2.2.2 (opens_other runs opens).2
  · rfl

theorem ne_end_of_opens {s : Sigil} {code : List Char} {b : Block} (opens : Opens s code b) :
    code ≠ "end".toList := by
  have noDo : ¬ DoForm "end".toList := by decide
  rintro rfl
  cases b with
  | conditional => exact absurd opens.2 (by decide)
  | loop => exact absurd opens.2.2.2 (by decide)
  | other =>
    rcases opens with ⟨_, ends⟩ | ⟨_, _, _, _, ends⟩
    · exact noDo ends
    · exact noDo ends

/-! The forms are told of the code as it stands in the tag, between blanks. -/

def Tag.code (t : Tag) : List Char := trim t.body

def Tag.Opens (t : Tag) (b : Block) : Prop := Erb.Opens t.sigil t.code b

def Tag.Closes (t : Tag) : Prop := Erb.Closes t.sigil t.code

/-- The form of the code is the same once its sigils are dropped. -/
def Tag.Steady (t : Tag) : Prop :=
  (Erb.Closes t.sigil (withoutSigils t.code) ↔ t.Closes) ∧
    ∀ b, Erb.Opens t.sigil (withoutSigils t.code) b ↔ t.Opens b

/-- The tag shows a partial. -/
def Tag.Includes (t : Tag) : Prop :=
  t.sigil = .output ∧ (partialName (withoutSigils t.code)).isSome = true

instance (t : Tag) (b : Block) : Decidable (t.Opens b) := inferInstanceAs (Decidable (Erb.Opens ..))

instance (t : Tag) : Decidable t.Closes := inferInstanceAs (Decidable (Erb.Closes ..))

instance (t : Tag) : Decidable t.Includes := inferInstanceAs (Decidable (_ ∧ _))

instance (t : Tag) : Decidable t.Steady :=
  decidable_of_iff
    ((Erb.Closes t.sigil (withoutSigils t.code) ↔ t.Closes) ∧
      (Erb.Opens t.sigil (withoutSigils t.code) .conditional ↔ t.Opens .conditional) ∧
      (Erb.Opens t.sigil (withoutSigils t.code) .loop ↔ t.Opens .loop) ∧
      (Erb.Opens t.sigil (withoutSigils t.code) .other ↔ t.Opens .other))
    ⟨fun h => ⟨h.1, fun b => by cases b <;> simp_all⟩, fun h => ⟨h.1, h.2 _, h.2 _, h.2 _⟩⟩

/-- The markup of a tag that is no `end` is the same on every stack. -/
def Tag.plainMarkup (t : Tag) : Markup := (t.markup []).1

theorem Tag.markup_of_runs {t : Tag} (runs : t.sigil.Runs) (blocks : List Block) :
    t.markup blocks = statementMarkup (withoutSigils t.code) blocks := by
  rcases runs with h | h <;> rw [markup, h] <;> rfl

theorem Tag.markup_of_output {t : Tag} (output : t.sigil = .output) (blocks : List Block) :
    t.markup blocks = outputMarkup (withoutSigils t.code) blocks := by
  rw [markup, output]
  rfl

theorem Tag.markup_of_closes {t : Tag} (steady : t.Steady) (closes : t.Closes) (blocks : List Block) :
    t.markup blocks = (.block (Block.closer blocks.head?).toList, blocks.tail) := by
  obtain ⟨runs, isEnd⟩ := steady.1.mpr closes
  rw [markup_of_runs runs, statementMarkup, if_pos isEnd]

theorem Tag.markup_of_opens {t : Tag} (steady : t.Steady) {b : Block} (opens : t.Opens b)
    (blocks : List Block) :
    t.markup blocks = (t.plainMarkup, if t.Includes then blocks else b :: blocks) := by
  have opens := (steady.2 b).mpr opens
  by_cases runs : t.sigil.Runs
  · have shows : ¬ t.Includes := fun includes => not_output_of_runs runs includes.1
    have notEnd := ne_end_of_opens opens
    rw [if_neg shows, plainMarkup, markup_of_runs runs, markup_of_runs runs,
      statementMarkup_eq notEnd]
    rcases statementMarkup_pushes runs notEnd with ⟨b', opens', pushes⟩ | ⟨none, _⟩
    · rw [pushes, opens_unique runs opens opens']
      rfl
    · exact absurd opens (none b)
  · obtain ⟨output, ends, rfl⟩ : t.sigil = .output ∧ DoForm (withoutSigils t.code) ∧ b = .other := by
      cases b with
      | conditional => exact absurd opens.1 runs
      | loop => exact absurd opens.1 runs
      | other =>
        rcases opens with ⟨output, ends⟩ | ⟨runs', _⟩
        · exact ⟨output, ends, rfl⟩
        · exact absurd runs' runs
    rw [plainMarkup, markup_of_output output, markup_of_output output, outputMarkup, outputMarkup]
    cases included : partialName (withoutSigils t.code) with
    | some found =>
      have includes : t.Includes := ⟨output, by rw [included]; rfl⟩
      rw [if_pos includes]
    | none =>
      have shows : ¬ t.Includes := by
        rintro ⟨_, there⟩
        rw [included] at there
        cases there
      rw [if_neg shows, openOther, endsInDo_iff.mpr ends]
      rfl

theorem Tag.markup_of_neither {t : Tag} (steady : t.Steady) (noEnd : ¬ t.Closes)
    (noBlock : ∀ b, ¬ t.Opens b) (blocks : List Block) :
    t.markup blocks = (t.plainMarkup, blocks) := by
  have noBlock : ∀ b, ¬ Erb.Opens t.sigil (withoutSigils t.code) b := fun b opens =>
    noBlock b ((steady.2 b).mp opens)
  rcases t.sigil.kinds with runs | sigil | sigil
  · have notEnd : withoutSigils t.code ≠ "end".toList := fun isEnd =>
      noEnd (steady.1.mp ⟨runs, isEnd⟩)
    rw [plainMarkup, markup_of_runs runs, markup_of_runs runs, statementMarkup_eq notEnd]
    rcases statementMarkup_pushes runs notEnd with ⟨b, opens, _⟩ | ⟨_, none⟩
    · exact absurd opens (noBlock b)
    · rw [none]
      rfl
  · have noDo : endsInDo (withoutSigils t.code) = false := by
      rw [Bool.eq_false_iff]
      intro ends
      exact noBlock .other (.inl ⟨sigil, endsInDo_iff.mp ends⟩)
    rw [plainMarkup, markup_of_output sigil, markup_of_output sigil, outputMarkup, outputMarkup]
    cases partialName (withoutSigils t.code) with
    | some found => rfl
    | none => rw [openOther, noDo]; rfl
  · simp [plainMarkup, markup, sigil]

end Transplant.Rails.Erb
