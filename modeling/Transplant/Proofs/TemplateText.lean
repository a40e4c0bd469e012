import Transplant.Rails.Erb
import Mathlib.Data.List.Infix

/-! Texts of templates, written piece by piece. A text that is written from characters and tags
splits into the same pieces, as long as no characters look like the start of a tag and no body of a
tag like its end. -/
namespace Transplant.Rails.Erb

def Sigil.mark : Sigil → List Char
  | statement => []
  | output => ['=']
  | comment => ['#']
  | trimmed => ['-']

/-- The end of a tag, with the dash that trims what follows or without. -/
def tagEnd (dash : Bool) : List Char := if dash then ['-', '%', '>'] else ['%', '>']

inductive Token where
  | text (c : Char)
  | tag (t : Tag) (dash : Bool)
  deriving DecidableEq, Repr

namespace Token

def source : Token → List Char
  | text c => [c]
  | tag t dash => '<' :: '%' :: (t.sigil.mark ++ (t.body ++ tagEnd dash))

def piece : Token → Piece
  | text c => .plain c
  | tag t _ => .tag t

end Token

/-- The text of the tag has its parts where they are read. -/
structure Tag.Writable (t : Tag) (dash : Bool) : Prop where
  inner : ¬ ['%', '>'] <:+: t.body
  undashed : dash = false → t.body.getLast? ≠ some '-'
  unmarked : t.sigil = .statement →
    (t.body ++ tagEnd dash).head? ∉ [some '=', some '#', some '-']

instance (t : Tag) (dash : Bool) : Decidable (t.Writable dash) :=
  decidable_of_iff
    (¬ ['%', '>'] <:+: t.body ∧ (dash = false → t.body.getLast? ≠ some '-') ∧
      (t.sigil = .statement → (t.body ++ tagEnd dash).head? ∉ [some '=', some '#', some '-']))
    ⟨fun h => ⟨h.1, h.2.1, h.2.2⟩, fun h => ⟨h.inner, h.undashed, h.unmarked⟩⟩

/-- Characters outside of tags start none. -/
def Readable : List Token → Prop
  | [] => True
  | .text c :: rest => (c = '<' → rest.head? ≠ some (.text '%')) ∧ Readable rest
  | .tag t dash :: rest => t.Writable dash ∧ Readable rest

instance decidableReadable : (tokens : List Token) → Decidable (Readable tokens)
  | [] => inferInstanceAs (Decidable True)
  | .text _ :: rest =>
    have := decidableReadable rest
    inferInstanceAs (Decidable (_ ∧ _))
  | .tag _ _ :: rest =>
    have := decidableReadable rest
    inferInstanceAs (Decidable (_ ∧ _))

theorem tagEnd_ne {dash : Bool} {rest more : List Char} : tagEnd dash ++ rest ≠ '>' :: more := by
  cases dash <;> simp [tagEnd]

theorem readBody?_append {body : List Char} {dash : Bool} (inner : ¬ ['%', '>'] <:+: body)
    (undashed : dash = false → body.getLast? ≠ some '-') (rest : List Char) :
    readBody? (body ++ (tagEnd dash ++ rest)) = some (body, rest) := by
  induction body with
  | nil => cases dash <;> rfl
  | cons c cs ih =>
    have innerTail : ¬ ['%', '>'] <:+: cs := fun h => inner (h.trans (List.suffix_cons c cs).isInfix)
    have undashedTail : dash = false → cs.getLast? ≠ some '-' := by
      intro plain last
      apply undashed plain
      rw [List.getLast?_cons, last]
      rfl
    -- The body ends at no earlier place, with a dash or without.
    have noEnd : ∀ more, c = '%' → cs ++ (tagEnd dash ++ rest) ≠ '>' :: more := by
      rintro more rfl h
      cases cs with
      | nil => exact tagEnd_ne h
      | cons d ds =>
        obtain ⟨rfl, _⟩ := List.cons.inj h
        exact inner ⟨[], ds, rfl⟩
    have noDash : ∀ more, c = '-' → cs ++ (tagEnd dash ++ rest) ≠ '%' :: '>' :: more := by
      rintro more rfl h
      cases cs with
      | nil =>
        cases dash with
        | true => simp [tagEnd] at h
        | false => exact undashed rfl rfl
      | cons d ds =>
        obtain ⟨rfl, behind⟩ := List.cons.inj h
        cases ds with
        | nil => exact tagEnd_ne behind
        | cons d ds =>
          obtain ⟨rfl, _⟩ := List.cons.inj behind
          exact inner ⟨['-'], ds, rfl⟩
    rw [List.cons_append, readBody?, ih innerTail undashedTail]
    · rfl
    · exact noEnd
    · exact noDash

theorem readSigil_append {t : Tag} {dash : Bool} (writable : t.Writable dash) (rest : List Char) :
    readSigil (t.sigil.mark ++ (t.body ++ (tagEnd dash ++ rest))) =
      (t.sigil, t.body ++ (tagEnd dash ++ rest)) := by
  cases sigil : t.sigil with
  | output => rfl
  | comment => rfl
  | trimmed => rfl
  | statement =>
    obtain ⟨c, cs, start⟩ : ∃ c cs, t.body ++ tagEnd dash = c :: cs := by
      apply List.exists_cons_of_ne_nil
      cases dash <;> simp [tagEnd]
    have plain := writable.unmarked sigil
    rw [start] at plain
    rw [← List.append_assoc t.body, start]
    simp only [Sigil.mark, List.nil_append, List.cons_append]
    unfold readSigil
    split <;> simp_all

theorem readTag?_source {t : Tag} {dash : Bool} (writable : t.Writable dash) (rest : List Char) :
    readTag? ((Token.tag t dash).source ++ rest) = some (t, rest) := by
  have sigil := readSigil_append writable rest
  have body := readBody?_append writable.inner writable.undashed rest
  simp only [Token.source, List.cons_append, List.append_assoc, readTag?, sigil, body]
  rfl

theorem piecesFrom_skip (read rest : List Char) :
    piecesFrom read.length (read ++ rest) = piecesFrom 0 rest := by
  induction read with
  | nil => rfl
  | cons c cs ih => exact ih

theorem pieces_text {c : Char} {cs : List Char} (plain : c = '<' → cs.head? ≠ some '%') :
    pieces (c :: cs) = .plain c :: pieces cs := by
  have unread : readTag? (c :: cs) = none := by
    unfold readTag?
    split
    · rename_i more h
      obtain ⟨rfl, rfl⟩ := List.cons.inj h
      exact absurd rfl (plain rfl)
    · rfl
  rw [pieces, piecesFrom, unread]
  rfl

theorem pieces_tag {t : Tag} {dash : Bool} (writable : t.Writable dash) (rest : List Char) :
    pieces ((Token.tag t dash).source ++ rest) = .tag t :: pieces rest := by
  have read := readTag?_source writable rest
  rw [Token.source, List.cons_append] at read ⊢
  rw [pieces, piecesFrom, read]
  simp only [List.length_append, Nat.add_sub_cancel]
  rw [piecesFrom_skip]
  rfl

theorem head?_source (tokens : List Token) :
    (tokens.flatMap Token.source).head? = some '%' → tokens.head? = some (.text '%') := by
  cases tokens with
  | nil => simp
  | cons first rest =>
    cases first with
    | text c => simp [Token.source]
    | tag t dash => simp [Token.source]

/-- A readable text splits into the pieces that it was written from. -/
theorem pieces_source {tokens : List Token} (readable : Readable tokens) :
    pieces (tokens.flatMap Token.source) = tokens.map Token.piece := by
  induction tokens with
  | nil => rfl
  | cons first rest ih =>
    cases first with
    | text c =>
      have plain : c = '<' → (rest.flatMap Token.source).head? ≠ some '%' := fun open' percent =>
        readable.1 open' (head?_source rest percent)
      rw [List.flatMap_cons, Token.source, List.singleton_append, pieces_text plain,
        ih readable.2]
      rfl
    | tag t dash =>
      rw [List.flatMap_cons, pieces_tag readable.1, ih readable.2]
      rfl

end Transplant.Rails.Erb
