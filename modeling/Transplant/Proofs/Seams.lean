import Transplant.Proofs.Emission
import Transplant.Proofs.Readings

/-! Texts of templates put together. A tag ends at the first end that follows, so a text of which no tag
is left open is read alike in front of any other text; and where no block is left open either, the text
behind it is converted as if it stood alone. -/
namespace Transplant.Rails.Erb

def InTag (tokens : List Token) (i : Nat) : Prop :=
  ∃ front t dash back, tokens = front ++ .tag t dash :: back ∧ (sourceOf front).length ≤ i ∧
    i < (sourceOf front).length + (Token.tag t dash).source.length

/-- The last `<%` of a text, if there is one, belongs to a complete tag. -/
def LastTagComplete (cs : List Char) : Prop :=
  ∃ tokens, Reading tokens ∧ sourceOf tokens = cs ∧
    ∀ before after, cs = before ++ '<' :: '%' :: after → ¬ ['<', '%'] <:+: after →
      InTag tokens before.length

theorem Reading.behind {front back : List Token} (reading : Reading (front ++ back)) :
    Reading back := by
  induction front with
  | nil => exact reading
  | cons first rest ih => cases first <;> exact ih reading.2

theorem not_startsTag_of_plain {c : Char} {rest : List Token}
    (plain : c = '<' → rest.head? ≠ some (.text '%')) : ¬ StartsTag (c :: sourceOf rest) := by
  rintro ⟨inner, behind, split⟩
  obtain ⟨rfl, percent⟩ := List.cons.inj split
  exact plain rfl (head?_source rest (by rw [← sourceOf, percent]; rfl))

theorem reading_of_readable {tokens : List Token} (readable : Readable tokens) : Reading tokens := by
  induction tokens with
  | nil => trivial
  | cons first rest ih =>
    cases first with
    | text c => exact ⟨not_startsTag_of_plain readable.1, ih readable.2⟩
    | tag t dash => exact ⟨readable.1, ih readable.2⟩

theorem readable_of_reading {tokens : List Token} (reading : Reading tokens)
    (closed : ∀ front back, tokens ≠ front ++ .text '<' :: .text '%' :: back) : Readable tokens := by
  induction tokens with
  | nil => trivial
  | cons first rest ih =>
    have later : ∀ front back, rest ≠ front ++ .text '<' :: .text '%' :: back := fun front back same =>
      closed (first :: front) back (by rw [same, List.cons_append])
    cases first with
    | text c =>
      refine ⟨?_, ih reading.2 later⟩
      rintro rfl percent
      obtain ⟨back, rfl⟩ := List.head?_eq_some_iff.mp percent
      exact closed [] back rfl
    | tag t dash => exact ⟨reading.1, ih reading.2 later⟩

theorem exists_last (cs : List Char) : ∃ before after,
    '<' :: '%' :: cs = before ++ '<' :: '%' :: after ∧ ¬ ['<', '%'] <:+: after := by
  generalize size : cs.length = n
  induction n using Nat.strongRecOn generalizing cs with
  | ind n ih =>
    by_cases more : ['<', '%'] <:+: cs
    · obtain ⟨front, back, rfl⟩ := more
      have shorter : back.length < n := by
        simp only [List.length_append, List.length_cons] at size
        omega
      obtain ⟨before, after, split, last⟩ := ih _ shorter back rfl
      refine ⟨'<' :: '%' :: front ++ before, after, ?_, last⟩
      simpa using split
    · exact ⟨[], cs, rfl, more⟩

/-- Behind a `<%` outside of tags there are no tags. -/
theorem no_tag_behind {back : List Token} (unclosed : ¬ StartsTag ('<' :: '%' :: sourceOf back))
    (t : Tag) (dash : Bool) : .tag t dash ∉ back := by
  intro member
  obtain ⟨front, rest, rfl⟩ := List.append_of_mem member
  obtain ⟨inner, behind, split⟩ : StartsTag ((Token.tag t dash).source ++ sourceOf rest) :=
    startsTag_source (sourceOf rest)
  refine unclosed ⟨sourceOf front ++ '<' :: '%' :: inner, behind, ?_⟩
  simp [split]

theorem InTag.of_cons {first : Token} {rest : List Token} {i : Nat} (inside : InTag rest i) :
    InTag (first :: rest) (first.source.length + i) := by
  obtain ⟨front, t, dash, back, rfl, low, high⟩ := inside
  refine ⟨first :: front, t, dash, back, rfl, ?_, ?_⟩ <;>
    rw [sourceOf, List.flatMap_cons, ← sourceOf, List.length_append] <;> omega

theorem inTag_of_readable {tokens : List Token} (readable : Readable tokens) {before after : List Char}
    (split : sourceOf tokens = before ++ '<' :: '%' :: after) : InTag tokens before.length := by
  induction tokens generalizing before with
  | nil => cases before <;> cases split
  | cons first rest ih =>
    cases first with
    | text c =>
      cases before with
      | nil =>
        rw [sourceOf_text] at split
        obtain ⟨rfl, percent⟩ := List.cons.inj split
        exact absurd (head?_source rest (by rw [← sourceOf, percent]; rfl)) (readable.1 rfl)
      | cons d before =>
        rw [List.length_cons, Nat.add_comm]
        exact (ih readable.2 (List.cons.inj split).2).of_cons
    | tag t dash =>
      by_cases here : before.length < (Token.tag t dash).source.length
      · exact ⟨[], t, dash, rest, rfl, Nat.zero_le _, by simpa using here⟩
      · rw [sourceOf_tag] at split
        obtain ⟨mid, rfl⟩ : (Token.tag t dash).source <+: before :=
          List.prefix_of_prefix_length_le ⟨_, split⟩ ⟨_, rfl⟩ (by omega)
        rw [List.append_assoc, List.append_cancel_left_eq] at split
        rw [List.length_append]
        exact (ih readable.2 split).of_cons

theorem lastTagComplete_iff {cs : List Char} :
    LastTagComplete cs ↔ ∃ tokens, Readable tokens ∧ sourceOf tokens = cs := by
  constructor
  · rintro ⟨tokens, reading, rfl, complete⟩
    refine ⟨tokens, readable_of_reading reading ?_, rfl⟩
    rintro front back rfl
    -- The last `<%` stands in a tag, but from this one on there are none.
    obtain ⟨before, after, split, last⟩ := exists_last (sourceOf back)
    obtain ⟨front', t, dash, back', same, low, high⟩ := complete (sourceOf front ++ before) after
      (by simp [split]) last
    rw [List.length_append] at low high
    obtain ⟨mid, rfl, later⟩ | ⟨mid, rfl, later⟩ := List.append_eq_append_iff.mp same
    · have member : .tag t dash ∈ .text '<' :: .text '%' :: back := by
        rw [later]
        exact List.mem_append_right _ List.mem_cons_self
      exact no_tag_behind reading.behind.1 t dash (by simpa using member)
    · cases mid with
      | nil => cases later
      | cons first mid =>
        cases (List.cons.inj later).1
        simp only [sourceOf_append, sourceOf_tag, List.length_append] at high
        omega
  · rintro ⟨tokens, readable, rfl⟩
    exact ⟨tokens, reading_of_readable readable, rfl, fun _ _ split _ => inTag_of_readable readable split⟩

/-- A text without open tags is read alike in front of another text, unless the two make a `<%` where
they meet. -/
theorem pieces_append {tokens : List Token} (readable : Readable tokens) {more : List Char}
    (seam : (sourceOf tokens).getLast? = some '<' → more.head? ≠ some '%') :
    pieces (sourceOf tokens ++ more) = pieces (sourceOf tokens) ++ pieces more := by
  induction tokens with
  | nil => rfl
  | cons first rest ih =>
    have seamRest : (sourceOf rest).getLast? = some '<' → more.head? ≠ some '%' := by
      intro last
      apply seam
      rw [sourceOf, List.flatMap_cons, ← sourceOf, List.getLast?_append, last]
      rfl
    cases first with
    | tag t dash =>
      rw [sourceOf_tag, List.append_assoc, pieces_tag readable.1, pieces_tag readable.1,
        ih readable.2 seamRest]
      rfl
    | text c =>
      have plain : c = '<' → (sourceOf rest).head? ≠ some '%' := fun opens percent =>
        readable.1 opens (head?_source rest percent)
      have plainMore : c = '<' → (sourceOf rest ++ more).head? ≠ some '%' := by
        rintro rfl
        cases behind : sourceOf rest with
        | nil => exact seam (by rw [sourceOf_text, behind]; rfl)
        | cons d ds =>
          rw [behind] at plain
          exact plain rfl
      rw [sourceOf_text, List.cons_append, pieces_text plain, pieces_text plainMore,
        ih readable.2 seamRest]
      rfl

theorem renderPieces_of_no_tag {tokens : List Token} (noTag : ∀ t dash, .tag t dash ∉ tokens)
    (blocks : List Block) : renderPieces blocks (tokens.map Token.piece) = sourceOf tokens := by
  have plain : tokens.map Token.piece = (sourceOf tokens).map .plain := by
    induction tokens with
    | nil => rfl
    | cons first rest ih =>
      cases first with
      | text c => simp [Token.piece, ih fun t dash member => noTag t dash (List.mem_cons_of_mem _ member)]
      | tag t dash => exact absurd List.mem_cons_self (noTag t dash)
  rw [plain, renderPieces_plain]

theorem toDjango_of_no_tag {text : String}
    (none : ∀ before cs, text.toList = before ++ cs → ¬ StartsTag cs) : toDjango text = text := by
  obtain ⟨tokens, reading, source⟩ := exists_reading text.toList
  have noTag : ∀ t dash, .tag t dash ∉ tokens := by
    intro t dash member
    obtain ⟨front, back, rfl⟩ := List.append_of_mem member
    exact none (sourceOf front) _ (by rw [← source, sourceOf_append, sourceOf_tag])
      (startsTag_source _)
  rw [toDjango, ← source, pieces_reading reading, renderPieces_of_no_tag noTag, source,
    String.ofList_toList]

/-- Templates are converted part by part. A text with no tag and no block left open and the text behind
it turn into what each of them turns into; a text without complete tags stays as it is; and of any text
all characters outside of its tags are kept in their places. -/
theorem toDjango_append :
    (∀ s t : String, LastTagComplete s.toList → openBehind [] (pieces s.toList) = [] →
      (s.toList.getLast? = some '<' → t.toList.head? ≠ some '%') →
      toDjango (s ++ t) = toDjango s ++ toDjango t) ∧
    (∀ s : String, (∀ before cs, s.toList = before ++ cs → ¬ StartsTag cs) → toDjango s = s) ∧
    ∀ s : String, ∃ tokens markups, Reading tokens ∧ sourceOf tokens = s.toList ∧
      markups.length = ((tokens.map Token.piece).filterMap Piece.tag?).length ∧
      toDjango s = .ofList (fill (tokens.map Token.piece) markups) := by
  refine ⟨?_, fun s none => toDjango_of_no_tag none, ?_⟩
  · intro s t complete balanced seam
    obtain ⟨tokens, readable, source⟩ := lastTagComplete_iff.mp complete
    rw [← source] at seam balanced
    rw [toDjango, String.toList_append, ← source, pieces_append readable seam, renderPieces_append,
      balanced, String.ofList_append, source]
    rfl
  · intro s
    obtain ⟨tokens, reading, source⟩ := exists_reading s.toList
    refine ⟨tokens, (emitted [] (tokens.map Token.piece)).map Prod.snd, reading, source, ?_, ?_⟩
    · rw [← emitted_tags [], List.length_map, List.length_map]
    · rw [toDjango, ← source, pieces_reading reading, renderPieces_eq_fill]

def closedCondition : List Token :=
  [.tag ⟨.statement, " if @x ".toList⟩ false, .text 'a', .tag ⟨.statement, " end ".toList⟩ true, .text '<']

theorem toDjango_append_closed :
    LastTagComplete "<% if @x %>a<% end -%><".toList ∧
      openBehind [] (pieces "<% if @x %>a<% end -%><".toList) = [] ∧
      (∀ before cs, "<p>".toList = before ++ cs → ¬ StartsTag cs) ∧
      toDjango ("<% if @x %>a<% end -%><" ++ "b<% end %>") =
        toDjango "<% if @x %>a<% end -%><" ++ toDjango "b<% end %>" ∧
      toDjango "<p>" = "<p>" := by
  have complete : LastTagComplete "<% if @x %>a<% end -%><".toList :=
    lastTagComplete_iff.mpr ⟨closedCondition, by decide +kernel, by decide +kernel⟩
  have balanced : openBehind [] (pieces "<% if @x %>a<% end -%><".toList) = [] := by decide +kernel
  have plain : ∀ before cs, "<p>".toList = before ++ cs → ¬ StartsTag cs := by
    rintro before cs split ⟨inner, rest, rfl⟩
    have percent : '%' ∈ "<p>".toList := by simp [split]
    exact absurd percent (by decide)
  exact ⟨complete, balanced, plain, toDjango_append.1 _ _ complete balanced (by decide),
    toDjango_append.2.1 _ plain⟩

end Transplant.Rails.Erb
