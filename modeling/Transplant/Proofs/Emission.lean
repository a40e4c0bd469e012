import Transplant.Proofs.BlockTags

/-! What the tags of a text turn into, one after the other. The stack of open blocks goes from each tag
to the next, so the markup of a tag depends on those in front of it through the stack alone. -/
namespace Transplant.Rails.Erb

def Piece.tag? : Piece → Option Tag
  | plain _ => none
  | tag t => some t

/-- The tags among some pieces, each with its markup. -/
def emitted (blocks : List Block) : List Piece → List (Tag × Markup)
  | [] => []
  | .plain _ :: ps => emitted blocks ps
  | .tag t :: ps => (t, (t.markup blocks).1) :: emitted (t.markup blocks).2 ps

def openBehind (blocks : List Block) : List Piece → List Block
  | [] => blocks
  | .plain _ :: ps => openBehind blocks ps
  | .tag t :: ps => openBehind (t.markup blocks).2 ps

/-- Markup in the place of the tags, and all else as it is. -/
def fill : List Piece → List Markup → List Char
  | .plain c :: ps, markups => c :: fill ps markups
  | .tag _ :: ps, m :: markups => m.render ++ fill ps markups
  | .tag _ :: ps, [] => fill ps []
  | [], _ => []

theorem emitted_tags (blocks : List Block) (ps : List Piece) :
    (emitted blocks ps).map Prod.fst = ps.filterMap Piece.tag? := by
  induction ps generalizing blocks with
  | nil => rfl
  | cons p ps ih => cases p <;> simp [emitted, List.filterMap_cons, Piece.tag?, ih]

theorem mem_emitted {blocks : List Block} {ps : List Piece} {e : Tag × Markup}
    (member : e ∈ emitted blocks ps) :
    .tag e.1 ∈ ps ∧ ∃ opened, e.2 = (e.1.markup opened).1 := by
  induction ps generalizing blocks with
  | nil => cases member
  | cons p ps ih =>
    cases p with
    | plain c =>
      obtain ⟨there, same⟩ := ih member
      exact ⟨List.mem_cons_of_mem _ there, same⟩
    | tag t =>
      rcases List.mem_cons.mp member with rfl | later
      · exact ⟨List.mem_cons_self, blocks, rfl⟩
      · obtain ⟨there, same⟩ := ih later
        exact ⟨List.mem_cons_of_mem _ there, same⟩

theorem renderPieces_eq_fill (blocks : List Block) (ps : List Piece) :
    renderPieces blocks ps = fill ps ((emitted blocks ps).map Prod.snd) := by
  induction ps generalizing blocks with
  | nil => rfl
  | cons p ps ih => cases p <;> simp [renderPieces, emitted, fill, ih]

theorem renderPieces_append (blocks : List Block) (ps qs : List Piece) :
    renderPieces blocks (ps ++ qs) = renderPieces blocks ps ++ renderPieces (openBehind blocks ps) qs := by
  induction ps generalizing blocks with
  | nil => rfl
  | cons p ps ih => cases p <;> simp [renderPieces, openBehind, ih]

theorem renderPieces_plain (blocks : List Block) (cs : List Char) :
    renderPieces blocks (cs.map .plain) = cs := by
  induction cs with
  | nil => rfl
  | cons c cs ih => simp [renderPieces, ih]

end Transplant.Rails.Erb
