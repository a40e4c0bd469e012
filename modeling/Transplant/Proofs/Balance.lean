import Transplant.Proofs.Emission

/-! The blocks of a converted template. Whatever the tags of a text are, the ends that the conversion
writes for conditions and loops close them from the inside out. The stack of the conversion also holds
blocks that have no end in Django; without these it is the list of conditions and loops still open. -/
namespace Transplant.Rails.Erb

/-- The blocks with an end of their own. -/
inductive Frame where
  | condition
  | loop
  deriving DecidableEq, Repr

namespace Frame

def block : Frame → Block
  | condition => .conditional
  | loop => .loop

/-- How the markup starts that opens the block. -/
def opening : Frame → String
  | condition => "\x7b% if "
  | loop => "\x7b% for "

def closing : Frame → String
  | condition => "\x7b% endif %\x7d"
  | loop => "\x7b% endfor %\x7d"

end Frame

def Block.frame? : Block → Option Frame
  | conditional => some .condition
  | loop => some .loop
  | other => none

inductive Mark where
  | opens (f : Frame)
  | closes (f : Frame)
  deriving DecidableEq, Repr

def Tag.Starts (t : Tag) (f : Frame) : Prop := Erb.Opens t.sigil (withoutSigils t.code) f.block

def Tag.Ends (t : Tag) : Prop := Erb.Closes t.sigil (withoutSigils t.code)

instance (t : Tag) (f : Frame) : Decidable (t.Starts f) := inferInstanceAs (Decidable (Erb.Opens ..))

instance (t : Tag) : Decidable t.Ends := inferInstanceAs (Decidable (Erb.Closes ..))

def Frame.mark? (f : Frame) (e : Tag × Markup) : Option Mark :=
  if e.1.Starts f ∧ f.opening.toList <+: e.2.render then some (.opens f)
  else if e.1.Ends ∧ e.2.render = f.closing.toList then some (.closes f)
  else none

/-- What the markup of a tag does to conditions and loops. -/
def mark? (e : Tag × Markup) : Option Mark := (Frame.condition.mark? e).or (Frame.loop.mark? e)

/-- Each mark that closes is of the kind of the latest block that is still open. -/
inductive Nests : List Frame → List Mark → List Frame → Prop where
  | done {inside : List Frame} : Nests inside [] inside
  | opens {f : Frame} {inside left : List Frame} {marks : List Mark}
      (rest : Nests (f :: inside) marks left) : Nests inside (.opens f :: marks) left
  | closes {f : Frame} {inside left : List Frame} {marks : List Mark}
      (rest : Nests inside marks left) : Nests (f :: inside) (.closes f :: marks) left

theorem Nests.append {inside mid left : List Frame} {marks more : List Mark}
    (first : Nests inside marks mid) (second : Nests mid more left) :
    Nests inside (marks ++ more) left := by
  induction first with
  | done => exact second
  | opens _ ih => exact .opens (ih second)
  | closes _ ih => exact .closes (ih second)

def frames (blocks : List Block) : List Frame := blocks.filterMap Block.frame?

variable {t : Tag} {f : Frame} {blocks : List Block}

theorem not_ends_of_starts (starts : t.Starts f) : ¬ t.Ends := fun ends =>
  ne_end_of_opens starts ends.2

theorem Frame.mark?_of_other {m : Markup} (notStart : ¬ t.Starts f) (notEnd : ¬ t.Ends) :
    f.mark? (t, m) = none := by
  simp [Frame.mark?, notStart, notEnd]

theorem mark?_of_starts {m : Markup} (starts : t.Starts f) (opening : f.opening.toList <+: m.render) :
    mark? (t, m) = some (.opens f) := by
  have here : f.mark? (t, m) = some (.opens f) := by simp [Frame.mark?, starts, opening]
  cases f with
  | condition => simp [mark?, here]
  | loop =>
    have other : ¬ t.Starts .condition := fun starts' => absurd starts'.2 starts.2.1
    simp [mark?, here, Frame.mark?_of_other other (not_ends_of_starts starts)]

theorem mark?_of_neither {m : Markup} (notStart : ∀ f, ¬ t.Starts f) (notEnd : ¬ t.Ends) :
    mark? (t, m) = none := by
  simp [mark?, Frame.mark?_of_other (notStart _) notEnd]

theorem mark?_of_ends (ends : t.Ends) (b : Option Block) :
    mark? (t, .block (Block.closer b).toList) = (b.bind Block.frame?).map .closes := by
  have written : ∀ (f : Frame) (m : Markup), f.mark? (t, m) =
      if m.render = f.closing.toList then some (.closes f) else none := by
    intro f m
    have notStart : ¬ t.Starts f := fun starts => not_ends_of_starts starts ends
    simp [Frame.mark?, notStart, ends]
  rw [mark?, written, written]
  rcases b with _ | _ | _ | _ <;> decide

/-! What is written for code that starts a block: it says so, and the block goes on the stack. -/

theorem statementMarkup_of_conditional {code : List Char} (conditional : Conditional code)
    (blocks : List Block) : ∃ condition, statementMarkup code blocks =
      (.block ("if ".toList ++ condition), .conditional :: blocks) := by
  obtain ⟨rest, rfl⟩ | ⟨rest, rfl⟩ := conditional
  · exact ⟨_, rfl⟩
  · exact ⟨"not ".toList ++ Text.trim rest, rfl⟩

theorem statementMarkup_of_loop {code : List Char} (simple : ¬ Conditional code)
    (plain : ¬ Branch code) (each : EachForm code) (blocks : List Block) :
    ∃ header, statementMarkup code blocks = (.block ("for ".toList ++ header), .loop :: blocks) := by
  have notEnd : code ≠ "end".toList := by
    rintro rfl
    exact absurd each (by decide)
  obtain ⟨shown, opened, wording, same⟩ := statementMarkup_wording notEnd
  rw [same]
  cases wording with
  | alternative isElse => exact absurd (.inl isElse) plain
  | condition words listed split =>
    rcases form_of_conditionWords listed ⟨_, split.symm⟩ with branch | conditional
    · exact absurd branch plain
    · exact absurd conditional simple
  | @loop receiver _ item =>
    exact ⟨item ++ " in ".toList ++ Text.trim receiver, by simp only [List.append_assoc]; rfl⟩
  | kept _ _ other => exact absurd each other

theorem word_of_opening {opening word : String} (split : opening = "\x7b% " ++ word)
    (code : List Char) : opening.toList <+: (Markup.block (word.toList ++ code)).render := by
  refine ⟨code ++ " %\x7d".toList, ?_⟩
  change _ = "\x7b% ".toList ++ (word.toList ++ code) ++ " %\x7d".toList
  rw [split, String.toList_append]
  simp only [List.append_assoc]

theorem Tag.markup_of_starts (starts : t.Starts f) (blocks : List Block) :
    f.opening.toList <+: (t.markup blocks).1.render ∧ (t.markup blocks).2 = f.block :: blocks := by
  cases f with
  | condition =>
    obtain ⟨runs, conditional⟩ := starts
    obtain ⟨condition, written⟩ := statementMarkup_of_conditional conditional blocks
    rw [markup_of_runs runs, written]
    exact ⟨word_of_opening (by decide) condition, rfl⟩
  | loop =>
    obtain ⟨runs, simple, plain, each⟩ := starts
    obtain ⟨header, written⟩ := statementMarkup_of_loop simple plain each blocks
    rw [markup_of_runs runs, written]
    exact ⟨word_of_opening (by decide) header, rfl⟩

theorem Tag.markup_of_ends (ends : t.Ends) (blocks : List Block) :
    t.markup blocks = (.block (Block.closer blocks.head?).toList, blocks.tail) := by
  rw [markup_of_runs ends.1, statementMarkup, if_pos ends.2]

theorem frames_openOther (code : List Char) (blocks : List Block) :
    frames (openOther code blocks) = frames blocks := by
  unfold openOther
  split <;> rfl

theorem Tag.frames_markup (notStart : ∀ f, ¬ t.Starts f) (notEnd : ¬ t.Ends) (blocks : List Block) :
    frames (t.markup blocks).2 = frames blocks := by
  rcases t.sigil.kinds with runs | sigil | sigil
  · have other : withoutSigils t.code ≠ "end".toList := fun isEnd => notEnd ⟨runs, isEnd⟩
    rw [markup_of_runs runs, statementMarkup_eq other]
    rcases statementMarkup_pushes runs other with ⟨b, opens, pushes⟩ | ⟨_, pushes⟩
    · cases b with
      | conditional => exact absurd opens (notStart .condition)
      | loop => exact absurd opens (notStart .loop)
      | other => rw [pushes]; rfl
    · rw [pushes]
      rfl
  · rw [markup_of_output sigil, outputMarkup]
    split
    · rfl
    · exact frames_openOther _ blocks
  · simp [markup, sigil]

/-- One tag does to the conditions and loops on the stack what its markup says. -/
theorem Tag.markup_nests (t : Tag) (blocks : List Block) :
    Nests (frames blocks) (mark? (t, (t.markup blocks).1)).toList (frames (t.markup blocks).2) := by
  by_cases ends : t.Ends
  · rw [markup_of_ends ends, mark?_of_ends ends]
    -- The end is one of a condition or a loop just if such a block is on top of the stack.
    rcases blocks with _ | ⟨_ | _ | _, blocks⟩
    · exact .done
    · exact .closes .done
    · exact .closes .done
    · exact .done
  · by_cases started : ∃ f, t.Starts f
    · obtain ⟨f, starts⟩ := started
      obtain ⟨opening, pushes⟩ := markup_of_starts starts blocks
      rw [mark?_of_starts starts opening, pushes]
      cases f <;> exact .opens .done
    · have notStart : ∀ f, ¬ t.Starts f := fun f starts => started ⟨f, starts⟩
      rw [mark?_of_neither notStart ends, frames_markup notStart ends]
      exact .done

/-- The conditions and loops that are open behind some pieces are those on the stack. -/
theorem emitted_nests (blocks : List Block) (ps : List Piece) :
    Nests (frames blocks) ((emitted blocks ps).filterMap mark?) (frames (openBehind blocks ps)) := by
  induction ps generalizing blocks with
  | nil => exact .done
  | cons p ps ih =>
    cases p with
    | plain c => exact ih blocks
    | tag t =>
      have whole := (t.markup_nests blocks).append (ih (t.markup blocks).2)
      rw [emitted, openBehind, List.filterMap_cons]
      cases first : mark? (t, (t.markup blocks).1) <;> simpa [first] using whole

theorem mark?_of_emitted {ps : List Piece} {e : Tag × Markup} (member : e ∈ emitted blocks ps)
    (starts : e.1.Starts f) : mark? e = some (.opens f) := by
  obtain ⟨_, opened, same⟩ := mem_emitted member
  apply mark?_of_starts starts
  rw [same]
  exact (Tag.markup_of_starts starts opened).1

/-- The tags of a text with their markup: put in the place of the tags, it is what the text turns into.
In it each tag of a condition or a loop opens a block of its kind, and each end of a condition or loop
closes the latest of them that is open, which is of the same kind. -/
theorem django_blocks_nest (text : String) :
    (emitted [] (pieces text.toList)).map Prod.fst = (pieces text.toList).filterMap Piece.tag? ∧
    toDjango text =
      .ofList (fill (pieces text.toList) ((emitted [] (pieces text.toList)).map Prod.snd)) ∧
    (∀ e ∈ emitted [] (pieces text.toList), ∀ f, e.1.Starts f → mark? e = some (.opens f)) ∧
    ∃ left, Nests [] ((emitted [] (pieces text.toList)).filterMap mark?) left := by
  refine ⟨emitted_tags [] _, ?_, fun e member f starts => mark?_of_emitted member starts, _,
    emitted_nests [] (pieces text.toList)⟩
  rw [toDjango, renderPieces_eq_fill]

def surplusEnd : String := "<% if @a %><% @xs.each do |x| %>.<% end %><% end %><% end %>"

theorem django_blocks_nest_surplusEnd :
    (∃ e ∈ emitted [] (pieces surplusEnd.toList), e.1.Starts .loop ∧ mark? e = some (.opens .loop)) ∧
    (emitted [] (pieces surplusEnd.toList)).filterMap mark? =
      [.opens .condition, .opens .loop, .closes .loop, .closes .condition] ∧
    (∃ left, Nests [] [.opens .condition, .opens .loop, .closes .loop, .closes .condition] left) ∧
    toDjango surplusEnd =
      "\x7b% if a %\x7d\x7b% for x in xs %\x7d.\x7b% endfor %\x7d\x7b% endif %\x7d\x7b% end %\x7d" := by
  have marks : (emitted [] (pieces surplusEnd.toList)).filterMap mark? =
      [.opens .condition, .opens .loop, .closes .loop, .closes .condition] := by decide +kernel
  have started : ∃ e ∈ emitted [] (pieces surplusEnd.toList), e.1.Starts .loop := by decide +kernel
  obtain ⟨e, member, starts⟩ := started
  obtain ⟨_, written, opened, left, nests⟩ := django_blocks_nest surplusEnd
  rw [marks] at nests
  exact ⟨⟨e, member, starts, opened e member .loop starts⟩, marks, ⟨left, nests⟩,
    written.trans (by decide +kernel)⟩

end Transplant.Rails.Erb
