import Transplant.Proofs.Spelling
import Transplant.Proofs.Trimming

/-! Space in the texts of documents. A text that spells a document starts and ends without blanks, and where
a line ends in it the space may be any other. -/
namespace Transplant.Json.Document

open Text Text.Pattern

theorem isBlank_of_isSpace {c : Char} (space : isSpace c = true) : isBlank c = true :=
  forall_isSpace rfl space

theorem blank_of_gap {gap : List Char} (space : Gap gap) : Blank gap :=
  fun c member => isBlank_of_isSpace (space c member)

theorem not_isBlank_of_startsValue {c : Char} (starts : startsValue c = true) : isBlank c = false := by
  rw [Bool.eq_false_iff]
  intro blank
  rw [forall_isBlank (p := startsValue) (by decide) blank] at starts
  cases starts

def endsValue (c : Char) : Bool := isBare c || c = '"' || c = ']' || c = '}'

theorem not_isBlank_of_endsValue {c : Char} (ends : endsValue c = true) : isBlank c = false := by
  rw [Bool.eq_false_iff]
  intro blank
  rw [forall_isBlank (p := endsValue) (by decide) blank] at ends
  cases ends

theorem last_of_spells {cs : List Char} {p : Phrase} (spells : Spells cs p) :
    ∃ front c, cs = front ++ [c] ∧ endsValue c = true := by
  induction spells with
  | atom read =>
    cases atomForm_of_read read with
    | @quoted body line => exact ⟨'"' :: body, '"', rfl, rfl⟩
    | @bare c cs bare =>
      refine ⟨(c :: cs).dropLast, (c :: cs).getLast (by simp), (List.dropLast_concat_getLast _).symm, ?_⟩
      simp [endsValue, bare _ (List.getLast_mem _)]
  | @noItems gap space => exact ⟨'[' :: gap, ']', rfl, rfl⟩
  | @noMembers gap space => exact ⟨'{' :: gap, '}', rfl, rfl⟩
  | @array gap _ _ _ _ ih =>
    obtain ⟨front, c, rfl, ends⟩ := ih
    exact ⟨'[' :: (gap ++ front), c, by simp, ends⟩
  | @object gap _ _ _ _ ih =>
    obtain ⟨front, c, rfl, ends⟩ := ih
    exact ⟨'{' :: (gap ++ front), c, by simp, ends⟩
  | @lastItem cs gap d value space => exact ⟨cs ++ gap, ']', by simp, rfl⟩
  | @item cs gap₁ gap₂ _ _ _ _ _ _ _ _ ih =>
    obtain ⟨front, c, rfl, ends⟩ := ih
    exact ⟨cs ++ (gap₁ ++ ',' :: (gap₂ ++ front)), c, by simp, ends⟩
  | @lastMember key gap₁ gap₂ cs gap₃ =>
    exact ⟨'"' :: (key ++ (gap₁ ++ ':' :: (gap₂ ++ (cs ++ gap₃)))), '}', by simp, rfl⟩
  | @member key gap₁ gap₂ cs gap₃ gap₄ _ _ _ _ _ _ _ _ _ _ _ _ ih =>
    obtain ⟨front, c, rfl, ends⟩ := ih
    exact ⟨'"' :: (key ++ (gap₁ ++ ':' :: (gap₂ ++ (cs ++ (gap₃ ++ ',' :: (gap₄ ++ front)))))), c,
      by simp, ends⟩

theorem solid_of_spells {cs : List Char} {p : Phrase} (spells : Spells cs p) : Solid cs where
  first := by
    obtain ⟨c, tail, rfl, starts⟩ := spells.head
    rintro _ ⟨rfl⟩
    exact not_isBlank_of_startsValue starts
  last := by
    obtain ⟨front, c, rfl, ends⟩ := last_of_spells spells
    rw [List.getLast?_concat]
    rintro _ ⟨rfl⟩
    exact not_isBlank_of_endsValue ends

theorem Spells.stops_blank {cs rest : List Char} {p : Phrase} (spells : Spells cs p) :
    Stops isBlank (cs ++ rest) := by
  obtain ⟨c, tail, rfl, starts⟩ := spells.head
  exact stops_cons (not_isBlank_of_startsValue starts)

theorem AtomForm.line {cs : List Char} (form : AtomForm cs) : '\n' ∉ cs := by
  cases form with
  | quoted line => simpa using line
  | bare bare =>
    intro inside
    cases bare _ inside

/-- Two texts that differ in the space from the ends of lines on. -/
inductive Respaced : List Char → List Char → Prop where
  | nil : Respaced [] []
  | keep {c : Char} {cs cs' : List Char} (other : c ≠ '\n') (rest : Respaced cs cs') :
      Respaced (c :: cs) (c :: cs')
  | line {gap gap' cs cs' : List Char} (blank : Blank gap) (space : Gap gap') (rest : Respaced cs cs') :
      Respaced ('\n' :: (gap ++ cs)) (gap' ++ cs')

namespace Respaced

theorem cons {c : Char} {cs text : List Char} (same : Respaced (c :: cs) text) (other : c ≠ '\n') :
    ∃ rest, text = c :: rest ∧ Respaced cs rest := by
  cases same with
  | keep _ rest => exact ⟨_, rfl, rest⟩
  | line => exact absurd rfl other

theorem kept {cs more text : List Char} (line : '\n' ∉ cs) (same : Respaced (cs ++ more) text) :
    ∃ rest, text = cs ++ rest ∧ Respaced more rest := by
  induction cs generalizing text with
  | nil => exact ⟨text, rfl, same⟩
  | cons c cs ih =>
    rw [List.mem_cons, not_or] at line
    obtain ⟨_, rfl, tail⟩ := same.cons (Ne.symm line.1)
    obtain ⟨rest, rfl, behind⟩ := ih line.2 tail
    exact ⟨rest, rfl, behind⟩

theorem gap {p : Char → Prop} (wide : ∀ c, isSpace c = true → p c) {cs more text : List Char}
    (all : ∀ c ∈ cs, p c) (same : Respaced (cs ++ more) text) (stops : Stops isBlank more) :
    ∃ gap rest, text = gap ++ rest ∧ (∀ c ∈ gap, p c) ∧ Respaced more rest := by
  generalize whole : cs ++ more = from' at same
  induction same generalizing cs with
  | nil =>
    obtain ⟨rfl, rfl⟩ := List.append_eq_nil_iff.mp whole
    exact ⟨[], [], rfl, by simp, .nil⟩
  | @keep c rest rest' other same ih =>
    cases cs with
    | nil =>
      subst whole
      exact ⟨[], _, rfl, by simp, .keep other same⟩
    | cons d cs =>
      obtain ⟨rfl, tail⟩ := List.cons.inj whole
      rw [List.forall_mem_cons] at all
      obtain ⟨gap, rest, rfl, inside, same⟩ := ih all.2 tail
      exact ⟨d :: gap, rest, rfl, List.forall_mem_cons.mpr ⟨all.1, inside⟩, same⟩
  | @line ws ws' rest rest' blank space same ih =>
    cases cs with
    | nil =>
      subst whole
      cases stops '\n' rfl
    | cons d cs =>
      obtain ⟨rfl, tail⟩ := List.cons.inj whole
      rw [List.forall_mem_cons] at all
      have before : ∀ c ∈ ws', p c := fun c inside => wide c (space c inside)
      rcases List.append_eq_append_iff.mp tail with ⟨front, rfl, rfl⟩ | ⟨front, rfl, rfl⟩
      · cases front with
        | nil => exact ⟨ws', rest', rfl, before, same⟩
        | cons c front =>
          rw [List.cons_append] at stops
          have out := stops c rfl
          rw [blank c (by simp)] at out
          cases out
      · obtain ⟨gap, rest, rfl, inside, same⟩ :=
          ih (fun c member => all.2 c (List.mem_append_right ws member)) rfl
        exact ⟨ws' ++ gap, rest, by simp, List.forall_mem_append.mpr ⟨before, inside⟩, same⟩

theorem blank {cs more text : List Char} (same : Respaced (cs ++ more) text) (blank : Blank cs)
    (stops : Stops isBlank more) : ∃ gap rest, text = gap ++ rest ∧ Blank gap ∧ Respaced more rest :=
  same.gap (fun _ => isBlank_of_isSpace) blank stops

theorem all_blank {cs text : List Char} (same : Respaced cs text) (blank : Blank cs) : Blank text := by
  rw [← List.append_nil cs] at same
  obtain ⟨gap, rest, rfl, all, nothing⟩ := same.blank blank (by simp [Stops])
  cases nothing
  rwa [List.append_nil]

theorem mark {gap more text : List Char} {c : Char} (same : Respaced (gap ++ c :: more) text)
    (space : Gap gap) (solid : isBlank c = false) :
    ∃ gap' rest, text = gap' ++ c :: rest ∧ Gap gap' ∧ Respaced more rest := by
  obtain ⟨gap', _, rfl, space', here⟩ := same.gap (fun _ blank => blank) space (stops_cons solid)
  obtain ⟨rest, rfl, behind⟩ := here.cons (by rintro rfl; cases solid)
  exact ⟨gap', rest, rfl, space', behind⟩

theorem front {gap cs more text : List Char} {p : Phrase} (same : Respaced (gap ++ (cs ++ more)) text)
    (space : Gap gap) (spells : Spells cs p) :
    ∃ gap' rest, text = gap' ++ rest ∧ Gap gap' ∧ Respaced (cs ++ more) rest :=
  same.gap (fun _ blank => blank) space spells.stops_blank

theorem name {key more text : List Char} {k : Option String} (same : Respaced ('"' :: (key ++ more)) text)
    (name : readString key = some (k, [])) : ∃ rest, text = '"' :: (key ++ rest) ∧ Respaced more rest := by
  have line : '\n' ∉ '"' :: key := by
    obtain ⟨body, rfl, line, _⟩ := readString_takes name
    simpa using line
  exact same.kept line

/-- In a text that spells a document, no end of a line stands in an atom, so it can be respaced. -/
theorem spells {cs : List Char} {p : Phrase} (spells : Spells cs p) {more text : List Char}
    (same : Respaced (cs ++ more) text) :
    ∃ cs' rest, text = cs' ++ rest ∧ Spells cs' p ∧ Respaced more rest := by
  -- Atoms and names stand on one line, so they are kept, and all that is respaced are gaps.
  induction spells generalizing more text with
  | @atom cs _ read =>
    obtain ⟨rest, rfl, behind⟩ := same.kept (atomForm_of_read read).line
    exact ⟨cs, rest, rfl, .atom read, behind⟩
  | noItems space =>
    rw [List.cons_append, List.append_assoc] at same
    obtain ⟨_, rfl, inner⟩ := same.cons (by decide)
    obtain ⟨gap, rest, rfl, space', behind⟩ := inner.mark space rfl
    exact ⟨'[' :: (gap ++ [']']), rest, by simp, .noItems space', behind⟩
  | noMembers space =>
    rw [List.cons_append, List.append_assoc] at same
    obtain ⟨_, rfl, inner⟩ := same.cons (by decide)
    obtain ⟨gap, rest, rfl, space', behind⟩ := inner.mark space rfl
    exact ⟨'{' :: (gap ++ ['}']), rest, by simp, .noMembers space', behind⟩
  | array space items ih =>
    rw [List.cons_append, List.append_assoc] at same
    obtain ⟨_, rfl, inner⟩ := same.cons (by decide)
    obtain ⟨gap, _, rfl, space', here⟩ := inner.front space items
    obtain ⟨cs, rest, rfl, items', behind⟩ := ih here
    exact ⟨'[' :: (gap ++ cs), rest, by simp, .array space' items', behind⟩
  | object space members ih =>
    rw [List.cons_append, List.append_assoc] at same
    obtain ⟨_, rfl, inner⟩ := same.cons (by decide)
    obtain ⟨gap, _, rfl, space', here⟩ := inner.front space members
    obtain ⟨cs, rest, rfl, members', behind⟩ := ih here
    exact ⟨'{' :: (gap ++ cs), rest, by simp, .object space' members', behind⟩
  | lastItem value space ih =>
    simp only [List.append_assoc] at same
    obtain ⟨cs, _, rfl, value', after⟩ := ih same
    obtain ⟨gap, rest, rfl, space', behind⟩ := after.mark space rfl
    exact ⟨cs ++ (gap ++ [']']), rest, by simp, .lastItem value' space', behind⟩
  | item value space₁ space₂ items ihValue ihItems =>
    simp only [List.append_assoc, List.cons_append] at same
    obtain ⟨cs, _, rfl, value', after⟩ := ihValue same
    obtain ⟨gap₁, _, rfl, space₁', next⟩ := after.mark space₁ rfl
    obtain ⟨gap₂, _, rfl, space₂', here⟩ := next.front space₂ items
    obtain ⟨others, rest, rfl, items', behind⟩ := ihItems here
    exact ⟨cs ++ (gap₁ ++ ',' :: (gap₂ ++ others)), rest, by simp,
      .item value' space₁' space₂' items', behind⟩
  | @lastMember key _ _ _ _ _ _ name space₁ space₂ value space₃ ih =>
    simp only [List.append_assoc, List.cons_append] at same
    obtain ⟨_, rfl, after⟩ := same.name name
    obtain ⟨gap₁, _, rfl, space₁', colon⟩ := after.mark space₁ rfl
    obtain ⟨gap₂, _, rfl, space₂', here⟩ := colon.front space₂ value
    obtain ⟨cs, _, rfl, value', close⟩ := ih here
    obtain ⟨gap₃, rest, rfl, space₃', behind⟩ := close.mark space₃ rfl
    exact ⟨'"' :: (key ++ (gap₁ ++ ':' :: (gap₂ ++ (cs ++ (gap₃ ++ ['}']))))), rest, by simp,
      .lastMember name space₁' space₂' value' space₃', behind⟩
  | @member key _ _ _ _ _ _ _ _ _ name space₁ space₂ value space₃ space₄ members ihValue ihMembers =>
    simp only [List.append_assoc, List.cons_append] at same
    obtain ⟨_, rfl, after⟩ := same.name name
    obtain ⟨gap₁, _, rfl, space₁', colon⟩ := after.mark space₁ rfl
    obtain ⟨gap₂, _, rfl, space₂', here⟩ := colon.front space₂ value
    obtain ⟨cs, _, rfl, value', close⟩ := ihValue here
    obtain ⟨gap₃, _, rfl, space₃', next⟩ := close.mark space₃ rfl
    obtain ⟨gap₄, _, rfl, space₄', last⟩ := next.front space₄ members
    obtain ⟨others, rest, rfl, members', behind⟩ := ihMembers last
    exact ⟨'"' :: (key ++ (gap₁ ++ ':' :: (gap₂ ++ (cs ++ (gap₃ ++ ',' :: (gap₄ ++ others)))))), rest,
      by simp, .member name space₁' space₂' value' space₃' space₄' members', behind⟩

end Respaced

end Transplant.Json.Document
