import Transplant.Proofs.BlockTags
import Transplant.Proofs.FileLines
import Transplant.Proofs.TemplateText

/-! Templates with nested blocks, and the ends of blocks in them. Each `end` becomes the end of the
block on top of the stack, so a template turns into what it ought to just if its own block is there. -/
namespace Transplant.Rails.Erb

inductive Template where
  | done
  | text (c : Char) (rest : Template)
  | tag (t : Tag) (dash : Bool) (rest : Template)
  | block (kind : Block) (opener : Tag) (dash : Bool) (body : Template) (closer : Tag)
      (closerDash : Bool) (rest : Template)

def Block.ending : Block → String
  | conditional => "\x7b% endif %\x7d"
  | loop => "\x7b% endfor %\x7d"
  | other => "\x7b% end %\x7d"

def Tag.StandsAlone (t : Tag) : Prop := ¬ t.Closes ∧ ∀ b, ¬ t.Opens b

def Token.tag? : Token → Option Tag
  | text _ => none
  | tag t _ => some t

namespace Template

def tokens : Template → List Token
  | done => []
  | text c rest => .text c :: rest.tokens
  | tag t dash rest => .tag t dash :: rest.tokens
  | block _ opener dash body closer closerDash rest =>
    .tag opener dash :: (body.tokens ++ .tag closer closerDash :: rest.tokens)

def source (t : Template) : String := .ofList (t.tokens.flatMap Token.source)

/-- Each block has a tag that opens a block of its kind, and one that closes it. -/
def Nested : Template → Prop
  | done => True
  | text _ rest => rest.Nested
  | tag t _ rest => t.StandsAlone ∧ rest.Nested
  | block kind opener _ body closer _ rest =>
    opener.Opens kind ∧ closer.Closes ∧ body.Nested ∧ rest.Nested

/-- No sigils hide in the code what it does to blocks. -/
def Steady (t : Template) : Prop := ∀ token ∈ t.tokens, ∀ tag ∈ token.tag?, tag.Steady

/-- What the template ought to turn into: each block ends with the end of its kind. -/
def django : Template → List Char
  | done => []
  | text c rest => c :: rest.django
  | tag t _ rest => t.plainMarkup.render ++ rest.django
  | block kind opener _ body _ _ rest =>
    opener.plainMarkup.render ++ (body.django ++ (kind.ending.toList ++ rest.django))

def entered (kind : Block) (opener : Tag) (blocks : List Block) : List Block :=
  if opener.Includes then blocks else kind :: blocks

def after : Template → List Block → List Block
  | done, blocks => blocks
  | text _ rest, blocks => rest.after blocks
  | tag _ _ rest, blocks => rest.after blocks
  | block kind opener _ body _ _ rest, blocks =>
    rest.after (body.after (entered kind opener blocks)).tail

/-- Each block has its own end when the template starts with this stack. -/
def EndsWell : Template → List Block → Prop
  | done, _ => True
  | text _ rest, blocks => rest.EndsWell blocks
  | tag _ _ rest, blocks => rest.EndsWell blocks
  | block kind opener _ body _ _ rest, blocks =>
    body.EndsWell (entered kind opener blocks) ∧
      Block.closer (body.after (entered kind opener blocks)).head? = Block.closer (some kind) ∧
      rest.EndsWell (body.after (entered kind opener blocks)).tail

end Template

theorem no_blank_in_closer (b : Option Block) : ' ' ∉ (Block.closer b).toList := by
  rcases b with _ | _ | _ | _ <;> decide

theorem ending_toList (kind : Block) :
    kind.ending.toList = (Markup.block (Block.closer (some kind)).toList).render := by
  cases kind <;> decide

theorem block_render (code : List Char) :
    (Markup.block code).render = '\x7b' :: '%' :: ' ' :: (code ++ ' ' :: '%' :: '\x7d' :: []) := by
  have front : "\x7b% ".toList = ['\x7b', '%', ' '] := by decide
  have back : " %\x7d".toList = [' ', '%', '\x7d'] := by decide
  change "\x7b% ".toList ++ code ++ " %\x7d".toList = _
  rw [front, back, List.append_assoc]
  rfl

theorem ending_append_iff {b : Option Block} {kind : Block} {xs ys : List Char} :
    (Markup.block (Block.closer b).toList).render ++ xs = kind.ending.toList ++ ys ↔
      Block.closer b = Block.closer (some kind) ∧ xs = ys := by
  rw [ending_toList, block_render, block_render]
  simp only [List.cons_append, List.append_assoc, List.cons.injEq, true_and, List.nil_append]
  rw [append_mark_inj (no_blank_in_closer b) (no_blank_in_closer (some kind)), String.toList_inj]
  simp only [List.cons.injEq, true_and]

namespace Template

/-- A template becomes what it ought to just if each of its blocks has its own end. -/
theorem renderPieces_eq_iff {t : Template} (nested : t.Nested) (steady : t.Steady)
    (blocks : List Block) (ps : List Piece) (more : List Char) :
    renderPieces blocks (t.tokens.map Token.piece ++ ps) = t.django ++ more ↔
      t.EndsWell blocks ∧ renderPieces (t.after blocks) ps = more := by
  -- What follows is general: behind the body of a block it is the end and all that is left.
  induction t generalizing blocks ps more with
  | done => simp [tokens, django, EndsWell, after]
  | text c rest ih =>
    have later : rest.Steady := fun token member => steady token (List.mem_cons_of_mem _ member)
    simp only [tokens, List.map_cons, Token.piece, List.cons_append, renderPieces, django,
      List.cons.injEq, true_and, EndsWell, after]
    exact ih nested later blocks ps more
  | tag t dash rest ih =>
    have later : rest.Steady := fun token member => steady token (List.mem_cons_of_mem _ member)
    have markup := Tag.markup_of_neither (steady _ List.mem_cons_self t rfl) nested.1.1 nested.1.2 blocks
    simp only [tokens, List.map_cons, Token.piece, List.cons_append, renderPieces, markup, django,
      List.append_assoc, List.append_cancel_left_eq, EndsWell, after]
    exact ih nested.2 later blocks ps more
  | block kind opener dash body closer closerDash rest ihBody ih =>
    obtain ⟨opens, closes, nestedBody, nestedRest⟩ := nested
    have inBody : body.Steady := fun token member =>
      steady token (List.mem_cons_of_mem _ (List.mem_append_left _ member))
    have closerSteady : closer.Steady := steady (.tag closer closerDash)
      (List.mem_cons_of_mem _ (List.mem_append_right _ List.mem_cons_self)) closer rfl
    have later : rest.Steady := fun token member => steady token
      (List.mem_cons_of_mem _ (List.mem_append_right _ (List.mem_cons_of_mem _ member)))
    have opening := Tag.markup_of_opens (steady _ List.mem_cons_self opener rfl) opens blocks
    have closing := Tag.markup_of_closes closerSteady closes (body.after (entered kind opener blocks))
    simp only [tokens, List.map_cons, List.map_append, Token.piece, List.cons_append,
      List.append_assoc, renderPieces, opening, django, List.append_cancel_left_eq, EndsWell, after]
    rw [← entered, ihBody nestedBody inBody, renderPieces, closing, ending_append_iff,
      ih nestedRest later]
    tauto

end Template

end Transplant.Rails.Erb
