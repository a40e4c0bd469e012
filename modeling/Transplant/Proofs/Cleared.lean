import Transplant.Proofs.Delimiters
import Transplant.Proofs.Seams

/-! Converted texts without tags. No piece of a conversion starts a tag: the markup of a tag holds no
start if its body holds none, and outside of tags a start is left only where no end follows. So nothing in
a converted text is a tag, and converting it once more changes nothing. -/
namespace Transplant.Rails.Erb

def tagStart : List (Char × Char) := [('<', '%')]

namespace Markup

theorem render_head? (m : Markup) : m.render.head? = some '\x7b' := by
  have first : ∀ ends ∈ markupEnds, ends.1.toList.head? = some '\x7b' := by decide
  obtain ⟨ends, listed, same⟩ := m.render_eq
  rw [same, List.head?_append, first ends listed]
  rfl

theorem render_getLast? (m : Markup) : m.render.getLast? = some '\x7d' := by
  have last : ∀ ends ∈ markupEnds, ends.2.toList.getLast? = some '\x7d' := by decide
  obtain ⟨ends, listed, same⟩ := m.render_eq
  rw [same, ← List.append_assoc, List.getLast?_append, last ends listed]
  rfl

theorem free_render {m : Markup} (free : Free tagStart m.code) : Free tagStart m.render := by
  have around : ∀ ends ∈ markupEnds, Free tagStart ends.1.toList ∧ Free tagStart ends.2.toList ∧
      ends.1.toList.getLast? ≠ some '<' ∧ ends.2.toList.head? ≠ some '%' := by decide
  obtain ⟨ends, listed, same⟩ := m.render_eq
  obtain ⟨first, last, opened, closed⟩ := around ends listed
  rw [same]
  refine first.append (free.append last ?_) ?_
  · rintro c _ d start listed
    cases List.mem_singleton.mp listed
    exact closed start
  · rintro c ending d _ listed
    cases List.mem_singleton.mp listed
    exact opened ending

end Markup

theorem starts_behind {front back before cs : List Char} (free : Free tagStart front)
    (last : front.getLast? ≠ some '<') (split : front ++ back = before ++ cs) (starts : StartsTag cs) :
    ∃ between, back = between ++ cs := by
  obtain ⟨inner, rest, rfl⟩ := starts
  rcases List.append_eq_append_iff.mp split with ⟨between, _, same⟩ | ⟨inside, same, chars⟩
  · exact ⟨between, same⟩
  · rcases inside with _ | ⟨c, _ | ⟨d, inside⟩⟩
    · exact ⟨[], chars.symm⟩
    · cases chars
      exact absurd (by rw [same, List.getLast?_concat]) last
    · obtain ⟨first, chars⟩ := List.cons.inj chars
      obtain ⟨second, _⟩ := List.cons.inj chars
      have pair : ['<', '%'] <:+: front :=
        ⟨before, inside, by rw [same, ← first, ← second, List.append_assoc]; rfl⟩
      exact absurd pair (free ('<', '%') List.mem_cons_self)

theorem not_startsTag_of_reading {tokens : List Token} (reading : Reading tokens)
    (plain : ∀ t dash, .tag t dash ∈ tokens → Free tagStart t.body) (blocks : List Block)
    {before cs : List Char} (split : renderPieces blocks (tokens.map Token.piece) = before ++ cs) :
    ¬ StartsTag cs := by
  induction tokens generalizing blocks before with
  | nil =>
    rintro ⟨inner, rest, rfl⟩
    cases before <;> cases split
  | cons first rest ih =>
    have restReading : Reading rest := @Reading.behind [first] rest reading
    have later := ih restReading fun t dash member => plain t dash (List.mem_cons_of_mem _ member)
    cases first with
    | tag t dash =>
      intro starts
      have free := Tag.free_markup (by decide) (plain t dash List.mem_cons_self) blocks
      obtain ⟨between, behind⟩ := starts_behind (Markup.free_render free)
        (by rw [Markup.render_getLast?]; decide) split starts
      exact later _ behind starts
    | text c =>
      cases before with
      | cons d before => exact later blocks (List.cons.inj split).2
      | nil =>
        rintro ⟨inner, behind, rfl⟩
        obtain ⟨rfl, out⟩ := List.cons.inj split
        -- The second character of the start can only be one of the text, and then no tag follows it.
        have percent := congrArg List.head? out
        cases rest with
        | nil => cases percent
        | cons second rest =>
          cases second with
          | tag t dash =>
            rw [List.map_cons, Token.piece, renderPieces, List.head?_append, Markup.render_head?] at percent
            cases percent
          | text d =>
            have unclosed : ¬ StartsTag ('<' :: sourceOf (.text d :: rest)) := reading.1
            cases percent
            rw [sourceOf_text] at unclosed
            have noTag : ∀ t dash, .tag t dash ∉ .text '%' :: rest := by
              intro t dash
              simpa using no_tag_behind unclosed t dash
            rw [renderPieces_of_no_tag noTag, sourceOf_text] at out
            exact unclosed ⟨inner, behind, by rw [out]⟩

/-- A text none of whose tags holds the start of a tag in its body turns into a text without tags, which
converting once more leaves as it is. -/
theorem toDjango_clears (text : String)
    (plain : ∀ t, .tag t ∈ pieces text.toList → ¬ ['<', '%'] <:+: t.body) :
    (∀ before cs, (toDjango text).toList = before ++ cs → ¬ StartsTag cs) ∧
      toDjango (toDjango text) = toDjango text := by
  obtain ⟨tokens, reading, source⟩ := exists_reading text.toList
  rw [← source, pieces_reading reading] at plain
  have bodies : ∀ t dash, .tag t dash ∈ tokens → Free tagStart t.body := by
    intro t dash member p listed
    cases List.mem_singleton.mp listed
    exact plain t (List.mem_map_of_mem (f := Token.piece) member)
  have clear : ∀ before cs, (toDjango text).toList = before ++ cs → ¬ StartsTag cs := by
    intro before cs split
    rw [toDjango, ← source, pieces_reading reading, String.toList_ofList] at split
    exact not_startsTag_of_reading reading bodies [] split
  exact ⟨clear, toDjango_of_no_tag clear⟩

/-- A tag between a stray end and a start without an end. -/
theorem toDjango_clears_stray :
    (∀ t, .tag t ∈ pieces "%><<%= @a <%><%".toList → ¬ ['<', '%'] <:+: t.body) ∧
      (∀ before cs, (toDjango "%><<%= @a <%><%").toList = before ++ cs → ¬ StartsTag cs) ∧
      toDjango (toDjango "%><<%= @a <%><%") = toDjango "%><<%= @a <%><%" := by
  have read : pieces "%><<%= @a <%><%".toList =
      [.plain '%', .plain '>', .plain '<', .tag ⟨.output, " @a <".toList⟩, .plain '<', .plain '%'] := by
    decide +kernel
  have plain : ∀ t, .tag t ∈ pieces "%><<%= @a <%><%".toList → ¬ ['<', '%'] <:+: t.body := by
    intro t member
    rw [read] at member
    simp only [List.mem_cons, reduceCtorEq, Piece.tag.injEq, List.not_mem_nil, false_or, or_false] at member
    subst member
    decide
  exact ⟨plain, toDjango_clears _ plain⟩

end Transplant.Rails.Erb
