import Transplant.Proofs.Literals

/-! The texts of documents. A grammar says which texts spell a document, with any space between the parts,
and the reader accepts these texts and no others. -/
namespace Transplant.Json.Document

open Text.Pattern

/-- What a stretch of text stands for: a value, or the items or members of one with the bracket that
closes them. -/
inductive Phrase where
  | value (d : Document)
  | items (ds : List Document)
  | members (ms : List (Option String × Document))

def Gap (cs : List Char) : Prop := ∀ c ∈ cs, isSpace c = true

theorem gap_nil : Gap [] := by simp [Gap]

inductive Spells : List Char → Phrase → Prop where
  | atom {cs : List Char} {d : Document} (read : readAtom cs = some (d, [])) : Spells cs (.value d)
  | noItems {gap : List Char} (space : Gap gap) : Spells ('[' :: (gap ++ [']'])) (.value (array []))
  | array {gap cs : List Char} {ds : List Document} (space : Gap gap) (items : Spells cs (.items ds)) :
      Spells ('[' :: (gap ++ cs)) (.value (array ds))
  | lastItem {cs gap : List Char} {d : Document} (value : Spells cs (.value d)) (space : Gap gap) :
      Spells (cs ++ (gap ++ [']'])) (.items [d])
  | item {cs gap₁ gap₂ more : List Char} {d : Document} {ds : List Document}
      (value : Spells cs (.value d)) (space₁ : Gap gap₁) (space₂ : Gap gap₂)
      (items : Spells more (.items ds)) :
      Spells (cs ++ (gap₁ ++ ',' :: (gap₂ ++ more))) (.items (d :: ds))
  | noMembers {gap : List Char} (space : Gap gap) : Spells ('{' :: (gap ++ ['}'])) (.value (object []))
  | object {gap cs : List Char} {ms : List (Option String × Document)} (space : Gap gap)
      (members : Spells cs (.members ms)) : Spells ('{' :: (gap ++ cs)) (.value (object ms))
  | lastMember {key gap₁ gap₂ cs gap₃ : List Char} {k : Option String} {d : Document}
      (name : readString key = some (k, [])) (space₁ : Gap gap₁) (space₂ : Gap gap₂)
      (value : Spells cs (.value d)) (space₃ : Gap gap₃) :
      Spells ('"' :: (key ++ (gap₁ ++ ':' :: (gap₂ ++ (cs ++ (gap₃ ++ ['}'])))))) (.members [(k, d)])
  | member {key gap₁ gap₂ cs gap₃ gap₄ more : List Char} {k : Option String} {d : Document}
      {ms : List (Option String × Document)} (name : readString key = some (k, [])) (space₁ : Gap gap₁)
      (space₂ : Gap gap₂) (value : Spells cs (.value d)) (space₃ : Gap gap₃) (space₄ : Gap gap₄)
      (members : Spells more (.members ms)) :
      Spells ('"' :: (key ++ (gap₁ ++ ':' :: (gap₂ ++ (cs ++ (gap₃ ++ ',' :: (gap₄ ++ more)))))))
        (.members ((k, d) :: ms))

theorem forall_isSpace {p : Char → Bool} (each : [' ', '\n', '\t', '\r'].all p = true) {c : Char}
    (space : isSpace c = true) : p c = true := by
  apply List.all_eq_true.mp each
  simpa only [isSpace, Bool.or_eq_true, decide_eq_true_eq, List.mem_cons, List.not_mem_nil, or_false,
    or_assoc] using space

theorem gap_of_skipSpace {cs rest : List Char} (skipped : skipSpace cs = rest) :
    ∃ gap, Gap gap ∧ cs = gap ++ rest :=
  ⟨cs.takeWhile isSpace, List.all_eq_true.mp List.all_takeWhile,
    skipped ▸ List.takeWhile_append_dropWhile.symm⟩

theorem skipSpace_append {gap rest : List Char} (space : Gap gap) (stops : Stops isSpace rest) :
    skipSpace (gap ++ rest) = rest := by
  rw [skipSpace, List.dropWhile_append_of_pos space]
  exact (takeWhile_of_stops stops).2

namespace Phrase

/-- The reader finds the phrase and stops in front of the rest. -/
def Read (fuel : Nat) (cs rest : List Char) : Phrase → Prop
  | value d => readValue fuel cs = some (d, rest)
  | items ds => readItems fuel cs = some (ds, rest)
  | members ms => readMembers fuel cs = some (ms, rest)

def Spelled (cs rest : List Char) (p : Phrase) : Prop := ∃ used, cs = used ++ rest ∧ Spells used p

variable {fuel : Nat} {cs rest : List Char}
  (shorter : ∀ {cs rest : List Char} {p : Phrase}, p.Read fuel cs rest → p.Spelled cs rest)

include shorter

theorem value_spelled {d : Document} (read : (value d).Read (fuel + 1) cs rest) :
    (value d).Spelled cs rest := by
  rw [Read] at read
  unfold readValue at read
  split at read
  · cases read
  · rename_i cs same
    cases same
    split at read
    · rename_i after closed
      cases read
      obtain ⟨gap, space, rfl⟩ := gap_of_skipSpace closed
      exact ⟨'[' :: (gap ++ [']']), by simp, .noItems space⟩
    · simp only [Option.bind_eq_bind, Option.bind_eq_some_iff] at read
      obtain ⟨⟨ds, _⟩, inner, read⟩ := read
      cases read
      obtain ⟨used, here, spells⟩ := shorter (p := .items ds) inner
      obtain ⟨gap, space, rfl⟩ := gap_of_skipSpace here
      exact ⟨'[' :: (gap ++ used), by simp, .array space spells⟩
  · rename_i cs same
    cases same
    split at read
    · rename_i after closed
      cases read
      obtain ⟨gap, space, rfl⟩ := gap_of_skipSpace closed
      exact ⟨'{' :: (gap ++ ['}']), by simp, .noMembers space⟩
    · simp only [Option.bind_eq_bind, Option.bind_eq_some_iff] at read
      obtain ⟨⟨ms, _⟩, inner, read⟩ := read
      cases read
      obtain ⟨used, here, spells⟩ := shorter (p := .members ms) inner
      obtain ⟨gap, space, rfl⟩ := gap_of_skipSpace here
      exact ⟨'{' :: (gap ++ used), by simp, .object space spells⟩
  · obtain ⟨used, rfl, _, again⟩ := readAtom_takes read
    have whole := again [] (by simp [Stops])
    rw [List.append_nil] at whole
    exact ⟨used, rfl, .atom whole⟩

theorem items_spelled {ds : List Document} (read : (items ds).Read (fuel + 1) cs rest) :
    (items ds).Spelled cs rest := by
  simp only [Read, readItems, Option.bind_eq_bind, Option.bind_eq_some_iff] at read
  obtain ⟨⟨d, mid⟩, first, read⟩ := read
  obtain ⟨used, rfl, spells⟩ := shorter (p := .value d) first
  split at read
  · rename_i after closed
    cases read
    obtain ⟨gap, space, rfl⟩ := gap_of_skipSpace closed
    exact ⟨used ++ (gap ++ [']']), by simp, .lastItem spells space⟩
  · rename_i more next
    simp only [Option.bind_eq_some_iff] at read
    obtain ⟨⟨ds, _⟩, others, read⟩ := read
    cases read
    obtain ⟨gap₁, space₁, rfl⟩ := gap_of_skipSpace next
    obtain ⟨used₂, here, spells₂⟩ := shorter (p := .items ds) others
    obtain ⟨gap₂, space₂, rfl⟩ := gap_of_skipSpace here
    exact ⟨used ++ (gap₁ ++ ',' :: (gap₂ ++ used₂)), by simp, .item spells space₁ space₂ spells₂⟩
  · cases read

theorem members_spelled {ms : List (Option String × Document)}
    (read : (members ms).Read (fuel + 1) cs rest) : (members ms).Spelled cs rest := by
  rw [Read] at read
  unfold readMembers at read
  split at read
  · cases read
  · rename_i cs same
    cases same
    simp only [Option.bind_eq_bind, Option.bind_eq_some_iff] at read
    obtain ⟨⟨k, mid⟩, name, read⟩ := read
    obtain ⟨body, rfl, _, again⟩ := readString_takes name
    split at read
    · rename_i behind colon
      obtain ⟨gap₁, space₁, rfl⟩ := gap_of_skipSpace colon
      simp only [Option.bind_eq_some_iff] at read
      obtain ⟨⟨d, mid⟩, first, read⟩ := read
      obtain ⟨used, here, spells⟩ := shorter (p := .value d) first
      obtain ⟨gap₂, space₂, rfl⟩ := gap_of_skipSpace here
      split at read
      · rename_i after closed
        cases read
        obtain ⟨gap₃, space₃, rfl⟩ := gap_of_skipSpace closed
        exact ⟨_, by simp, .lastMember (again []) space₁ space₂ spells space₃⟩
      · rename_i more next
        simp only [Option.bind_eq_some_iff] at read
        obtain ⟨⟨ms, _⟩, others, read⟩ := read
        cases read
        obtain ⟨gap₃, space₃, rfl⟩ := gap_of_skipSpace next
        obtain ⟨used₂, here, spells₂⟩ := shorter (p := .members ms) others
        obtain ⟨gap₄, space₄, rfl⟩ := gap_of_skipSpace here
        exact ⟨_, by simp, .member (again []) space₁ space₂ spells space₃ space₄ spells₂⟩
      · cases read
    · cases read
  · cases read

omit shorter

/-- What is read has been spelled. -/
theorem spelled_of_read {p : Phrase} (read : p.Read fuel cs rest) : p.Spelled cs rest := by
  induction fuel generalizing cs rest p with
  | zero => cases p <;> cases read
  | succ fuel ih =>
    cases p with
    | value d => exact value_spelled ih read
    | items ds => exact items_spelled ih read
    | members ms => exact members_spelled ih read

/-- A number stops only where nothing goes on with it; a bracket always closes. -/
def EndsAt (rest : List Char) : Phrase → Prop
  | value _ => Stops isNumeric rest
  | items _ => True
  | members _ => True

def steps (cs : List Char) : Phrase → Nat
  | value _ => 2 * cs.length
  | items _ => 2 * cs.length + 1
  | members _ => 2 * cs.length + 1

end Phrase

theorem readAtom_append {cs rest : List Char} {d : Document} (read : readAtom cs = some (d, []))
    (stops : Stops isNumeric rest) : readAtom (cs ++ rest) = some (d, rest) := by
  obtain ⟨used, rfl, _, again⟩ := readAtom_takes read
  rw [List.append_nil]
  exact again rest stops

theorem readString_append {cs rest : List Char} {s : Option String} (read : readString cs = some (s, [])) :
    readString (cs ++ rest) = some (s, rest) := by
  obtain ⟨body, rfl, _, again⟩ := readString_takes read
  rw [List.append_assoc]
  exact again rest

theorem atomForm_of_read {cs : List Char} {d : Document} (read : readAtom cs = some (d, [])) :
    AtomForm cs := by
  obtain ⟨used, rfl, form, _⟩ := readAtom_takes read
  rwa [List.append_nil]

def startsValue (c : Char) : Bool := isBare c || c = '"' || c = '[' || c = '{'

theorem Spells.head {cs : List Char} {p : Phrase} (spells : Spells cs p) :
    ∃ c rest, cs = c :: rest ∧ startsValue c = true := by
  induction spells with
  | atom read =>
    cases atomForm_of_read read with
    | quoted line => exact ⟨_, _, rfl, rfl⟩
    | bare bare => exact ⟨_, _, rfl, by simp [startsValue, bare _ List.mem_cons_self]⟩
  | noItems | array | noMembers | object | lastMember | member => exact ⟨_, _, rfl, rfl⟩
  | lastItem _ _ ih | item _ _ _ _ ih =>
    obtain ⟨c, rest, rfl, starts⟩ := ih
    exact ⟨c, _, rfl, starts⟩

theorem not_isSpace_of_startsValue {c : Char} (starts : startsValue c = true) : isSpace c = false := by
  rw [Bool.eq_false_iff]
  intro space
  have out := forall_isSpace (p := fun c => !startsValue c) rfl space
  simp [starts] at out

theorem Spells.stops {cs rest : List Char} {p : Phrase} (spells : Spells cs p) :
    Stops isSpace (cs ++ rest) := by
  obtain ⟨c, tail, rfl, starts⟩ := spells.head
  exact stops_cons (not_isSpace_of_startsValue starts)

theorem skipSpace_spells {gap cs rest : List Char} {p : Phrase} (space : Gap gap) (spells : Spells cs p) :
    skipSpace (gap ++ (cs ++ rest)) = cs ++ rest :=
  skipSpace_append space spells.stops

theorem Spells.ne_cons {cs rest after : List Char} {p : Phrase} (spells : Spells cs p) {c : Char}
    (other : startsValue c = false) : cs ++ rest ≠ c :: after := by
  obtain ⟨d, tail, rfl, starts⟩ := spells.head
  intro same
  rw [(List.cons.inj same).1, other] at starts
  cases starts

theorem readValue_atom {cs rest : List Char} {d : Document} (read : readAtom cs = some (d, []))
    (stops : Stops isNumeric rest) (fuel : Nat) :
    readValue (fuel + 1) (cs ++ rest) = some (d, rest) := by
  have form := atomForm_of_read read
  have other : ∀ {c : Char} {tail : List Char}, cs ++ rest = c :: tail → c ≠ '[' ∧ c ≠ '{' := by
    intro c tail same
    cases form with
    | quoted line =>
      rw [← (List.cons.inj same).1]
      decide
    | bare bare =>
      have first := bare _ List.mem_cons_self
      rw [(List.cons.inj same).1] at first
      constructor <;> rintro rfl <;> cases first
  unfold readValue
  split
  · rename_i same
    cases same
  · rename_i same
    exact absurd rfl (other same).1
  · rename_i same
    exact absurd rfl (other same).2
  · exact readAtom_append read stops

section Steps

variable {fuel : Nat} {gap gap₁ gap₂ gap₃ cs key mid more rest : List Char} {d : Document}
  {ds : List Document} {k : Option String} {ms : List (Option String × Document)}

theorem readValue_array (space : Gap gap) (spells : Spells cs (.items ds))
    (items : readItems fuel (cs ++ rest) = some (ds, rest)) :
    readValue (fuel + 1) ('[' :: (gap ++ (cs ++ rest))) = some (array ds, rest) := by
  rw [readValue, skipSpace_spells space spells]
  split
  · rename_i same
    exact absurd same (spells.ne_cons rfl)
  · rw [items]
    rfl

theorem readValue_object (space : Gap gap) (spells : Spells cs (.members ms))
    (members : readMembers fuel (cs ++ rest) = some (ms, rest)) :
    readValue (fuel + 1) ('{' :: (gap ++ (cs ++ rest))) = some (object ms, rest) := by
  rw [readValue, skipSpace_spells space spells]
  split
  · rename_i same
    exact absurd same (spells.ne_cons rfl)
  · rw [members]
    rfl

theorem readItems_last (value : readValue fuel cs = some (d, mid)) (closed : skipSpace mid = ']' :: rest) :
    readItems (fuel + 1) cs = some ([d], rest) := by
  simp only [readItems, value, Option.bind_eq_bind, Option.bind_some, closed]

theorem readItems_more (value : readValue fuel cs = some (d, mid)) (next : skipSpace mid = ',' :: more)
    (items : readItems fuel (skipSpace more) = some (ds, rest)) :
    readItems (fuel + 1) cs = some (d :: ds, rest) := by
  simp only [readItems, value, Option.bind_eq_bind, Option.bind_some, next, items]
  rfl

theorem readMembers_last {behind : List Char} (name : readString key = some (k, gap₁ ++ ':' :: behind))
    (space₁ : Gap gap₁) (value : readValue fuel (skipSpace behind) = some (d, mid))
    (closed : skipSpace mid = '}' :: rest) :
    readMembers (fuel + 1) ('"' :: key) = some ([(k, d)], rest) := by
  have colon : skipSpace (gap₁ ++ ':' :: behind) = ':' :: behind :=
    skipSpace_append space₁ (stops_cons rfl)
  simp only [readMembers, name, Option.bind_eq_bind, Option.bind_some, colon, value, closed]

theorem readMembers_more {behind : List Char} (name : readString key = some (k, gap₁ ++ ':' :: behind))
    (space₁ : Gap gap₁) (value : readValue fuel (skipSpace behind) = some (d, mid))
    (next : skipSpace mid = ',' :: more) (members : readMembers fuel (skipSpace more) = some (ms, rest)) :
    readMembers (fuel + 1) ('"' :: key) = some ((k, d) :: ms, rest) := by
  have colon : skipSpace (gap₁ ++ ':' :: behind) = ':' :: behind :=
    skipSpace_append space₁ (stops_cons rfl)
  simp only [readMembers, name, Option.bind_eq_bind, Option.bind_some, colon, value, next, members]
  rfl

end Steps

/-- In front of space, or of a mark behind it, a number stops. -/
theorem stops_gap {gap rest : List Char} (space : Gap gap) (stops : Stops isNumeric rest) :
    Stops isNumeric (gap ++ rest) := by
  apply stops_append _ stops
  intro c member
  simpa using forall_isSpace (p := fun c => !isNumeric c) rfl (space c member)

theorem Spells.steps_pos {cs : List Char} {p : Phrase} (spells : Spells cs p) : 0 < p.steps cs := by
  obtain ⟨c, tail, rfl, _⟩ := spells.head
  cases p <;> simp [Phrase.steps]

/-- What is spelled is read, whatever follows. -/
theorem read_of_spells {cs : List Char} {p : Phrase} (spells : Spells cs p) (rest : List Char)
    {fuel : Nat} (enough : p.steps cs ≤ fuel) (ends : p.EndsAt rest) : p.Read fuel (cs ++ rest) rest := by
  -- On the steps of the reader: what a phrase is made of takes fewer of them than the phrase.
  induction fuel generalizing cs rest p with
  | zero => exact absurd spells.steps_pos (by omega)
  | succ fuel ih =>
    cases spells with
    | atom read => exact readValue_atom read ends fuel
    | @noItems gap space =>
      have closed : skipSpace (gap ++ ']' :: rest) = ']' :: rest := skipSpace_append space (stops_cons rfl)
      simp only [Phrase.Read, List.cons_append, List.append_assoc, List.nil_append, readValue, closed]
    | @noMembers gap space =>
      have closed : skipSpace (gap ++ '}' :: rest) = '}' :: rest := skipSpace_append space (stops_cons rfl)
      simp only [Phrase.Read, List.cons_append, List.append_assoc, List.nil_append, readValue, closed]
    | array space items =>
      simp only [Phrase.steps, List.length_cons, List.length_append] at enough
      have inner := ih items rest (by simp only [Phrase.steps]; omega) trivial
      rw [List.cons_append, List.append_assoc]
      exact readValue_array space items inner
    | object space members =>
      simp only [Phrase.steps, List.length_cons, List.length_append] at enough
      have inner := ih members rest (by simp only [Phrase.steps]; omega) trivial
      rw [List.cons_append, List.append_assoc]
      exact readValue_object space members inner
    | @lastItem cs gap d value space =>
      simp only [Phrase.steps, List.length_cons, List.length_append] at enough
      have first := ih value (gap ++ ']' :: rest) (by simp only [Phrase.steps]; omega)
        (stops_gap space (stops_cons rfl))
      simp only [Phrase.Read, List.append_assoc, List.cons_append, List.nil_append]
      exact readItems_last first (skipSpace_append space (stops_cons rfl))
    | @item cs gap₁ gap₂ more d ds value space₁ space₂ items =>
      simp only [Phrase.steps, List.length_cons, List.length_append] at enough
      have first := ih value (gap₁ ++ ',' :: (gap₂ ++ (more ++ rest)))
        (by simp only [Phrase.steps]; omega) (stops_gap space₁ (stops_cons rfl))
      have others := ih items rest (by simp only [Phrase.steps]; omega) trivial
      simp only [Phrase.Read, List.append_assoc, List.cons_append]
      apply readItems_more first (skipSpace_append space₁ (stops_cons rfl))
      rw [skipSpace_spells space₂ items]
      exact others
    | @lastMember key gap₁ gap₂ cs gap₃ k d name space₁ space₂ value space₃ =>
      simp only [Phrase.steps, List.length_cons, List.length_append] at enough
      have first := ih value (gap₃ ++ '}' :: rest) (by simp only [Phrase.steps]; omega)
        (stops_gap space₃ (stops_cons rfl))
      simp only [Phrase.Read, List.append_assoc, List.cons_append, List.nil_append]
      apply readMembers_last (readString_append name) space₁ _ (skipSpace_append space₃ (stops_cons rfl))
      rw [skipSpace_spells space₂ value]
      exact first
    | @member key gap₁ gap₂ cs gap₃ gap₄ more k d ms name space₁ space₂ value space₃ space₄ members =>
      simp only [Phrase.steps, List.length_cons, List.length_append] at enough
      have first := ih value (gap₃ ++ ',' :: (gap₄ ++ (more ++ rest)))
        (by simp only [Phrase.steps]; omega) (stops_gap space₃ (stops_cons rfl))
      have others := ih members rest (by simp only [Phrase.steps]; omega) trivial
      simp only [Phrase.Read, List.append_assoc, List.cons_append]
      apply readMembers_more (readString_append name) space₁ _ (skipSpace_append space₃ (stops_cons rfl))
      · rw [skipSpace_spells space₄ members]
        exact others
      · rw [skipSpace_spells space₂ value]
        exact first

/-- A text is read as a document just if it spells the document, with space around it. -/
theorem ofText?_eq_some_iff {text : String} {d : Document} : ofText? text = some d ↔
    ∃ lead cs trail, text.toList = lead ++ (cs ++ trail) ∧ Gap lead ∧ Gap trail ∧
      Spells cs (.value d) := by
  simp only [ofText?, Option.bind_eq_bind, Option.bind_eq_some_iff]
  constructor
  · rintro ⟨⟨e, rest⟩, read, done⟩
    obtain ⟨empty, same⟩ := Option.ite_none_right_eq_some.mp done
    cases same
    obtain ⟨cs, here, spells⟩ := Phrase.spelled_of_read (p := .value e) read
    obtain ⟨lead, space, split⟩ := gap_of_skipSpace here
    have behind : skipSpace rest = [] := List.isEmpty_iff.mp empty
    obtain ⟨trail, space', rfl⟩ := gap_of_skipSpace behind
    rw [List.append_nil] at split
    exact ⟨lead, cs, trail, split, space, space', spells⟩
  · rintro ⟨lead, cs, trail, split, space, space', spells⟩
    have skipped : skipSpace text.toList = cs ++ trail := by rw [split, skipSpace_spells space spells]
    have nothing : ∀ p, Stops p [] := by simp [Stops]
    have stops := stops_gap space' (nothing isNumeric)
    have done := skipSpace_append space' (nothing isSpace)
    rw [List.append_nil] at stops done
    refine ⟨(d, trail), ?_, ?_⟩
    · rw [skipped]
      exact read_of_spells spells trail (by simp [Phrase.steps, split]; omega) stops
    · rw [done]
      rfl

end Transplant.Json.Document
