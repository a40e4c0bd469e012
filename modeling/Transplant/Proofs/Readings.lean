import Transplant.Proofs.TemplateText

/-! How any text is read as a template. A tag is complete if its end follows somewhere, and the first
end that follows is its own; a text is read from left to right, so no complete tag starts at a character
that is left outside of tags. Each text has such a reading, and it gives the pieces of the text. -/
namespace Transplant.Rails.Erb

def sourceOf (tokens : List Token) : List Char := tokens.flatMap Token.source

@[simp] theorem sourceOf_nil : sourceOf [] = [] := rfl

@[simp] theorem sourceOf_text (c : Char) (rest : List Token) :
    sourceOf (.text c :: rest) = c :: sourceOf rest := rfl

@[simp] theorem sourceOf_tag (t : Tag) (dash : Bool) (rest : List Token) :
    sourceOf (.tag t dash :: rest) = (Token.tag t dash).source ++ sourceOf rest := rfl

@[simp] theorem sourceOf_append (front back : List Token) :
    sourceOf (front ++ back) = sourceOf front ++ sourceOf back := List.flatMap_append

def StartsTag (cs : List Char) : Prop :=
  ∃ inner rest, cs = '<' :: '%' :: (inner ++ '%' :: '>' :: rest)

/-- A text as it is read: the tags end where they end first, and none starts outside of them. -/
def Reading : List Token → Prop
  | [] => True
  | .text c :: rest => ¬ StartsTag (c :: sourceOf rest) ∧ Reading rest
  | .tag t dash :: rest => t.Writable dash ∧ Reading rest

theorem tagEnd_eq (dash : Bool) : tagEnd dash = (if dash then ['-'] else []) ++ ['%', '>'] := by
  cases dash <;> rfl

theorem readBody?_eq_some {cs body rest : List Char} (read : readBody? cs = some (body, rest)) :
    ∃ dash, cs = body ++ (tagEnd dash ++ rest) ∧ ¬ ['%', '>'] <:+: body ∧
      (dash = false → body.getLast? ≠ some '-') := by
  fun_induction readBody? cs generalizing body rest with
  | case1 behind =>
    cases read
    exact ⟨false, rfl, by simp, by simp⟩
  | case2 behind =>
    cases read
    exact ⟨true, rfl, by simp, by simp⟩
  | case3 c cs noEnd noDash ih =>
    obtain ⟨⟨inner, behind⟩, found, same⟩ := Option.map_eq_some_iff.mp read
    cases same
    obtain ⟨dash, rfl, inside, undashed⟩ := ih found
    refine ⟨dash, rfl, ?_, ?_⟩
    · rw [List.infix_cons_iff]
      rintro (⟨more, split⟩ | later)
      · obtain ⟨rfl, start⟩ := List.cons.inj split
        cases inner with
        | nil => cases start
        | cons d inner =>
          cases (List.cons.inj start).1
          exact noEnd _ rfl rfl
      · exact inside later
    · intro plain last
      cases inner with
      | nil =>
        cases Option.some.inj last
        subst plain
        exact noDash _ rfl rfl
      | cons d inner =>
        rw [List.getLast?_cons_cons] at last
        exact undashed plain last
  | case4 => cases read

theorem readBody?_isSome (inner rest : List Char) :
    (readBody? (inner ++ '%' :: '>' :: rest)).isSome = true := by
  induction inner with
  | nil => rfl
  | cons c inner ih =>
    rw [List.cons_append]
    unfold readBody?
    split
    · rfl
    · rfl
    · rename_i split
      cases split
      rw [Option.isSome_map, ih]
    · rename_i none
      cases none

theorem readSigil_eq {cs inner : List Char} {sigil : Sigil} (read : readSigil cs = (sigil, inner)) :
    cs = sigil.mark ++ inner ∧
      (sigil = .statement → inner.head? ∉ [some '=', some '#', some '-']) := by
  unfold readSigil at read
  split at read <;> cases read
  · exact ⟨rfl, by simp⟩
  · exact ⟨rfl, by simp⟩
  · exact ⟨rfl, by simp⟩
  · rename_i noOutput noComment noTrim
    refine ⟨rfl, fun _ => ?_⟩
    cases cs with
    | nil => simp
    | cons c cs =>
      have output : c ≠ '=' := fun same => noOutput cs (by rw [same])
      have comment : c ≠ '#' := fun same => noComment cs (by rw [same])
      have trim : c ≠ '-' := fun same => noTrim cs (by rw [same])
      simp [output, comment, trim]

theorem readTag?_eq_some {cs rest : List Char} {t : Tag} (read : readTag? cs = some (t, rest)) :
    ∃ dash, t.Writable dash ∧ cs = (Token.tag t dash).source ++ rest := by
  unfold readTag? at read
  split at read
  · rename_i cs
    cases sigil : readSigil cs with
    | mk s inner =>
      rw [sigil] at read
      obtain ⟨⟨body, behind⟩, found, same⟩ := Option.map_eq_some_iff.mp read
      cases same
      obtain ⟨rfl, unmarked⟩ := readSigil_eq sigil
      obtain ⟨dash, rfl, inside, undashed⟩ := readBody?_eq_some found
      refine ⟨dash, ⟨inside, undashed, fun isStatement => ?_⟩, by simp [Token.source]⟩
      have first := unmarked isStatement
      rw [← List.append_assoc] at first
      have some : body ++ tagEnd dash ≠ [] := by cases dash <;> simp [tagEnd]
      rwa [List.head?_append_of_ne_nil _ some] at first
  · cases read

theorem readTag?_of_startsTag {cs : List Char} (starts : StartsTag cs) :
    (readTag? cs).isSome = true := by
  obtain ⟨inner, rest, rfl⟩ := starts
  have further : ∀ c, c ≠ '%' → ∀ cs, inner ++ '%' :: '>' :: rest = c :: cs →
      (readBody? cs).isSome = true := by
    intro c other cs split
    cases inner with
    | nil => exact absurd (List.cons.inj split).1.symm other
    | cons d inner =>
      obtain ⟨_, rfl⟩ := List.cons.inj split
      exact readBody?_isSome inner rest
  simp only [readTag?, Option.isSome_map]
  unfold readSigil
  split
  · exact further '=' (by decide) _ ‹_›
  · exact further '#' (by decide) _ ‹_›
  · exact further '-' (by decide) _ ‹_›
  · exact readBody?_isSome inner rest

theorem startsTag_source {t : Tag} {dash : Bool} (rest : List Char) :
    StartsTag ((Token.tag t dash).source ++ rest) := by
  refine ⟨t.sigil.mark ++ t.body ++ (if dash then ['-'] else []), rest, ?_⟩
  simp [Token.source, tagEnd_eq]

theorem readTag?_eq_none_iff {cs : List Char} : readTag? cs = none ↔ ¬ StartsTag cs := by
  constructor
  · intro unread starts
    have read := readTag?_of_startsTag starts
    rw [unread] at read
    cases read
  · intro none
    cases read : readTag? cs with
    | none => rfl
    | some found =>
      obtain ⟨dash, _, rfl⟩ := readTag?_eq_some read
      exact absurd (startsTag_source found.2) none

/-- Each text has a reading. -/
theorem exists_reading (cs : List Char) : ∃ tokens, Reading tokens ∧ sourceOf tokens = cs := by
  generalize size : cs.length = n
  induction n using Nat.strongRecOn generalizing cs with
  | ind n ih =>
    cases read : readTag? cs with
    | some found =>
      obtain ⟨t, rest⟩ := found
      obtain ⟨dash, writable, rfl⟩ := readTag?_eq_some read
      have shorter : rest.length < n := by
        simp only [Token.source, List.length_append, List.length_cons] at size
        omega
      obtain ⟨tokens, reading, source⟩ := ih _ shorter rest rfl
      exact ⟨.tag t dash :: tokens, ⟨writable, reading⟩, by rw [sourceOf_tag, source]⟩
    | none =>
      cases cs with
      | nil => exact ⟨[], trivial, rfl⟩
      | cons c cs =>
        have shorter : cs.length < n := by
          rw [← size, List.length_cons]
          omega
        obtain ⟨tokens, reading, rfl⟩ := ih _ shorter cs rfl
        exact ⟨.text c :: tokens, ⟨readTag?_eq_none_iff.mp read, reading⟩, rfl⟩

/-- The pieces of a text are those of its reading. -/
theorem pieces_reading {tokens : List Token} (reading : Reading tokens) :
    pieces (sourceOf tokens) = tokens.map Token.piece := by
  induction tokens with
  | nil => rfl
  | cons first rest ih =>
    cases first with
    | text c =>
      have unread := readTag?_eq_none_iff.mpr reading.1
      rw [sourceOf_text, pieces, piecesFrom, unread, List.map_cons, ← ih reading.2]
      rfl
    | tag t dash =>
      rw [sourceOf_tag, pieces_tag reading.1, ih reading.2]
      rfl

end Transplant.Rails.Erb
