import Transplant.Proofs.Ends

/-! When each `end` becomes the end of its own block. It does unless a block that an inclusion opens
stands in a condition or a loop: the inclusion is not put on the stack, so the ends behind it close
blocks further out. -/
namespace Transplant.Rails.Erb

namespace Template

def inclusions : Template → Nat
  | done => 0
  | text _ rest => rest.inclusions
  | tag _ _ rest => rest.inclusions
  | block _ opener _ body _ _ rest =>
    (if opener.Includes then 1 else 0) + body.inclusions + rest.inclusions

/-- No inclusion opens a block within a condition or a loop. -/
def KeepsInclusionsOut : Template → Prop
  | done => True
  | text _ rest => rest.KeepsInclusionsOut
  | tag _ _ rest => rest.KeepsInclusionsOut
  | block kind _ _ body _ _ rest =>
    (kind ≠ .other → body.inclusions = 0) ∧ body.KeepsInclusionsOut ∧ rest.KeepsInclusionsOut

theorem not_includes {opener : Tag} {kind : Block} (opens : opener.Opens kind)
    (hard : kind ≠ .other) : ¬ opener.Includes := by
  intro includes
  cases kind with
  | conditional => exact not_output_of_runs opens.1 includes.1
  | loop => exact not_output_of_runs opens.1 includes.1
  | other => exact hard rfl

theorem entered_hard {opener : Tag} {kind : Block} (opens : opener.Opens kind)
    (hard : kind ≠ .other) (blocks : List Block) : entered kind opener blocks = kind :: blocks :=
  if_neg (not_includes opens hard)

theorem entered_others {opener : Tag} {blocks : List Block} (others : ∀ b ∈ blocks, b = .other) :
    ∀ b ∈ entered .other opener blocks, b = .other := by
  intro b member
  unfold entered at member
  split at member
  · exact others b member
  · rcases List.mem_cons.mp member with rfl | member
    · rfl
    · exact others b member

theorem closer_of_others {blocks : List Block} (others : ∀ b ∈ blocks, b = .other) :
    Block.closer blocks.head? = "end" := by
  cases top : blocks.head? with
  | none => rfl
  | some b =>
    rw [others b (List.mem_of_head? top)]
    rfl

theorem endsWell_of_no_inclusions {t : Template} (nested : t.Nested) (none : t.inclusions = 0)
    (blocks : List Block) : t.EndsWell blocks ∧ t.after blocks = blocks := by
  induction t generalizing blocks with
  | done => exact ⟨trivial, rfl⟩
  | text c rest ih => exact ih nested none blocks
  | tag t dash rest ih => exact ih nested.2 none blocks
  | block kind opener dash body closer closerDash rest ihBody ih =>
    obtain ⟨opens, closes, nestedBody, nestedRest⟩ := nested
    have plain : ¬ opener.Includes := by
      intro includes
      simp [inclusions, includes] at none
    have entering : entered kind opener blocks = kind :: blocks := if_neg plain
    simp only [inclusions, plain, if_false] at none
    obtain ⟨well, same⟩ := ihBody nestedBody (by omega) (kind :: blocks)
    obtain ⟨wellRest, sameRest⟩ := ih nestedRest (by omega) blocks
    simp only [EndsWell, after, entering, same, List.head?_cons, List.tail_cons]
    exact ⟨⟨well, trivial, wellRest⟩, sameRest⟩

theorem endsWell_of_others {t : Template} (nested : t.Nested) (out : t.KeepsInclusionsOut)
    {blocks : List Block} (others : ∀ b ∈ blocks, b = .other) :
    t.EndsWell blocks ∧ ∀ b ∈ t.after blocks, b = .other := by
  induction t generalizing blocks with
  | done => exact ⟨trivial, others⟩
  | text c rest ih => exact ih nested out others
  | tag t dash rest ih => exact ih nested.2 out others
  | block kind opener dash body closer closerDash rest ihBody ih =>
    obtain ⟨opens, closes, nestedBody, nestedRest⟩ := nested
    obtain ⟨sheltered, outBody, outRest⟩ := out
    by_cases isOther : kind = .other
    · subst isOther
      obtain ⟨well, left⟩ := ihBody nestedBody outBody (entered_others others)
      obtain ⟨wellRest, leftRest⟩ := ih nestedRest outRest fun b member =>
        left b (List.mem_of_mem_tail member)
      exact ⟨⟨well, closer_of_others left, wellRest⟩, leftRest⟩
    · obtain ⟨well, same⟩ := endsWell_of_no_inclusions nestedBody (sheltered isOther) (kind :: blocks)
      obtain ⟨wellRest, leftRest⟩ := ih nestedRest outRest others
      simp only [EndsWell, after, entered_hard opens isOther, same, List.head?_cons, List.tail_cons]
      exact ⟨⟨well, trivial, wellRest⟩, leftRest⟩

/-- Other blocks on top of a condition or a loop, if there are any. -/
def above (n : Nat) (kind : Block) (blocks : List Block) : List Block :=
  List.replicate n .other ++ kind :: blocks

theorem pos_of_closer {n : Nat} {kind : Block} {blocks : List Block} (hard : kind ≠ .other)
    (closing : Block.closer (above n kind blocks).head? = "end") : 0 < n := by
  cases n with
  | zero =>
    cases kind with
    | conditional => exact absurd (show "endif" = "end" from closing) (by decide)
    | loop => exact absurd (show "endfor" = "end" from closing) (by decide)
    | other => exact absurd rfl hard
  | succ n => omega

theorem entered_above (opener : Tag) (n : Nat) (kind : Block) (blocks : List Block) :
    ∃ m, entered .other opener (above n kind blocks) = above m kind blocks ∧
      m + (if opener.Includes then 1 else 0) = n + 1 := by
  by_cases includes : opener.Includes
  · exact ⟨n, if_pos includes, by rw [if_pos includes]⟩
  · exact ⟨n + 1, if_neg includes, by rw [if_neg includes]⟩

/-- Within a condition or a loop each inclusion takes one block from the stack for good, so when all
ends are right there are enough other blocks above the condition or loop for that. -/
theorem inclusions_le {t : Template} (nested : t.Nested) {kind : Block} (hard : kind ≠ .other)
    {n : Nat} {blocks : List Block} (well : t.EndsWell (above n kind blocks)) :
    t.inclusions ≤ n ∧ t.KeepsInclusionsOut ∧
      t.after (above n kind blocks) = above (n - t.inclusions) kind blocks := by
  induction t generalizing n kind blocks with
  | done => exact ⟨Nat.zero_le n, trivial, rfl⟩
  | text c rest ih => exact ih nested hard well
  | tag t dash rest ih => exact ih nested.2 hard well
  | block inner opener dash body closer closerDash rest ihBody ih =>
    obtain ⟨opens, closes, nestedBody, nestedRest⟩ := nested
    obtain ⟨wellBody, closing, wellRest⟩ := well
    by_cases isOther : inner = .other
    · subst isOther
      obtain ⟨m, entering, count⟩ := entered_above opener n kind blocks
      rw [entering] at wellBody closing wellRest
      obtain ⟨le, outBody, same⟩ := ihBody nestedBody hard wellBody
      rw [same] at closing wellRest
      -- The end is an `end`, so an other block is left for it, which it takes.
      have room : 0 < m - body.inclusions := pos_of_closer hard closing
      obtain ⟨k, left⟩ : ∃ k, m - body.inclusions = k + 1 := ⟨m - body.inclusions - 1, by omega⟩
      rw [left] at wellRest
      obtain ⟨leRest, outRest, sameRest⟩ := ih nestedRest hard (n := k) wellRest
      refine ⟨by simp only [inclusions]; omega, ⟨fun h => absurd rfl h, outBody, outRest⟩, ?_⟩
      have behind : k - rest.inclusions =
          n - (block .other opener dash body closer closerDash rest).inclusions := by
        simp only [inclusions]
        omega
      rw [← behind, ← sameRest, after, entering, same, left]
      rfl
    · have entering : entered inner opener (above n kind blocks) = above 0 inner (above n kind blocks) :=
        entered_hard opens isOther _
      rw [entering] at wellBody closing wellRest
      -- The block starts with nothing above its own condition or loop, so it has no inclusions.
      obtain ⟨le, outBody, same⟩ := ihBody nestedBody isOther wellBody
      have none : body.inclusions = 0 := by omega
      have back : (body.after (above 0 inner (above n kind blocks))).tail = above n kind blocks := by
        rw [same, none]
        rfl
      rw [back] at wellRest
      obtain ⟨leRest, outRest, sameRest⟩ := ih nestedRest hard wellRest
      have count : (block inner opener dash body closer closerDash rest).inclusions = rest.inclusions := by
        simp only [inclusions, not_includes opens isOther, if_false]
        omega
      refine ⟨by rw [count]; exact leRest, ⟨fun _ => none, outBody, outRest⟩, ?_⟩
      rw [count, ← sameRest, after, entering, back]

theorem keepsInclusionsOut_of_endsWell {t : Template} (nested : t.Nested) {blocks : List Block}
    (others : ∀ b ∈ blocks, b = .other) (well : t.EndsWell blocks) :
    t.KeepsInclusionsOut ∧ ∀ b ∈ t.after blocks, b = .other := by
  induction t generalizing blocks with
  | done => exact ⟨trivial, others⟩
  | text c rest ih => exact ih nested others well
  | tag t dash rest ih => exact ih nested.2 others well
  | block kind opener dash body closer closerDash rest ihBody ih =>
    obtain ⟨opens, closes, nestedBody, nestedRest⟩ := nested
    obtain ⟨wellBody, closing, wellRest⟩ := well
    by_cases isOther : kind = .other
    · subst isOther
      obtain ⟨outBody, left⟩ := ihBody nestedBody (entered_others others) wellBody
      obtain ⟨outRest, leftRest⟩ := ih nestedRest
        (fun b member => left b (List.mem_of_mem_tail member)) wellRest
      exact ⟨⟨fun h => absurd rfl h, outBody, outRest⟩, leftRest⟩
    · have entering : entered kind opener blocks = above 0 kind blocks := entered_hard opens isOther _
      rw [entering] at wellBody wellRest
      obtain ⟨le, outBody, same⟩ := inclusions_le nestedBody isOther wellBody
      have none : body.inclusions = 0 := by omega
      have back : (body.after (above 0 kind blocks)).tail = blocks := by
        rw [same, none]
        rfl
      rw [back] at wellRest
      obtain ⟨outRest, leftRest⟩ := ih nestedRest others wellRest
      refine ⟨⟨fun _ => none, outBody, outRest⟩, ?_⟩
      rwa [after, entering, back]

theorem endsWell_iff {t : Template} (nested : t.Nested) : t.EndsWell [] ↔ t.KeepsInclusionsOut := by
  have others : ∀ b ∈ ([] : List Block), b = .other := by simp
  constructor
  · exact fun well => (keepsInclusionsOut_of_endsWell nested others well).1
  · exact fun out => (endsWell_of_others nested out others).1

/-- The text of a template with nested blocks turns into the template in which each `end` closes its
own block, just if no inclusion opens a block within a condition or a loop. -/
theorem toDjango_eq_iff {t : Template} (nested : t.Nested) (readable : Readable t.tokens)
    (steady : t.Steady) : toDjango t.source = .ofList t.django ↔ t.KeepsInclusionsOut := by
  have whole := renderPieces_eq_iff nested steady [] [] []
  rw [List.append_nil, List.append_nil] at whole
  rw [toDjango, source, String.toList_ofList, pieces_source readable, String.ofList_inj, whole,
    endsWell_iff nested]
  simp [renderPieces]

instance (t : Tag) : Decidable t.StandsAlone :=
  decidable_of_iff
    (¬ t.Closes ∧ ¬ t.Opens .conditional ∧ ¬ t.Opens .loop ∧ ¬ t.Opens .other)
    ⟨fun h => ⟨h.1, fun b => by cases b <;> simp_all⟩, fun h => ⟨h.1, h.2 _, h.2 _, h.2 _⟩⟩

instance (t : Template) : Decidable t.Steady :=
  inferInstanceAs (Decidable (∀ token ∈ t.tokens, ∀ tag ∈ token.tag?, tag.Steady))

instance decidableNested : (t : Template) → Decidable t.Nested
  | done => inferInstanceAs (Decidable True)
  | text _ rest => decidableNested rest
  | tag _ _ rest =>
    have := decidableNested rest
    inferInstanceAs (Decidable (_ ∧ _))
  | block _ _ _ body _ _ rest =>
    have := decidableNested body
    have := decidableNested rest
    inferInstanceAs (Decidable (_ ∧ _ ∧ _ ∧ _))

instance decidableKeepsInclusionsOut : (t : Template) → Decidable t.KeepsInclusionsOut
  | done => inferInstanceAs (Decidable True)
  | text _ rest => decidableKeepsInclusionsOut rest
  | tag _ _ rest => decidableKeepsInclusionsOut rest
  | block _ _ _ body _ _ rest =>
    have := decidableKeepsInclusionsOut body
    have := decidableKeepsInclusionsOut rest
    inferInstanceAs (Decidable (_ ∧ _ ∧ _))

end Template

def statement (code : String) : Tag := ⟨.statement, code.toList⟩

def output (code : String) : Tag := ⟨.output, code.toList⟩

def postsTemplate : Template :=
  .block .conditional (statement " if @posts ") false
    (.block .loop (statement " @posts.each do |post| ") false
      (.tag (output " render 'post' ") false .done) (statement " end ") false
      (.tag (statement " else ") false (.text '-' .done)))
    (statement " end ") true
    (.block .other (output " form_with model: @post do |f| ") false
      (.tag (output " f.submit ") false .done) (statement " end ") false .done)

theorem toDjango_postsTemplate :
    postsTemplate.Nested ∧ Readable postsTemplate.tokens ∧ postsTemplate.Steady ∧
      postsTemplate.KeepsInclusionsOut ∧
      toDjango postsTemplate.source = .ofList postsTemplate.django := by
  have nested : postsTemplate.Nested := by decide +kernel
  have readable : Readable postsTemplate.tokens := by decide +kernel
  have steady : postsTemplate.Steady := by decide +kernel
  have out : postsTemplate.KeepsInclusionsOut := by decide +kernel
  exact ⟨nested, readable, steady, out, (Template.toDjango_eq_iff nested readable steady).mpr out⟩

def boxTemplate : Template :=
  .block .conditional (statement " if x ") false
    (.block .other (output " render 'box' do ") false (.text 'a' .done) (statement " end ") false
      (.text 'b' .done))
    (statement " end ") false .done

/-- A statement that only reads a variable, in a condition. -/
def hiddenEndTemplate : Template :=
  .block .conditional (statement " if x ") false
    (.tag (statement " @end ") false (.text 'b' .done)) (statement " end ") false .done

/-- The two ways in which ends go wrong: an inclusion that opens a block, and an `end` that is none
before its sigil is dropped. -/
theorem toDjango_misclosed :
    (boxTemplate.Nested ∧ Readable boxTemplate.tokens ∧ boxTemplate.Steady ∧
      boxTemplate.source = "<% if x %><%= render 'box' do %>a<% end %>b<% end %>" ∧
      toDjango boxTemplate.source =
        "\x7b% if x %\x7d\x7b% include 'box.html' %\x7da\x7b% endif %\x7db\x7b% end %\x7d" ∧
      toDjango boxTemplate.source ≠ .ofList boxTemplate.django) ∧
    hiddenEndTemplate.Nested ∧ Readable hiddenEndTemplate.tokens ∧
      hiddenEndTemplate.source = "<% if x %><% @end %>b<% end %>" ∧
      toDjango hiddenEndTemplate.source = "\x7b% if x %\x7d\x7b% endif %\x7db\x7b% end %\x7d" ∧
      toDjango hiddenEndTemplate.source ≠ .ofList hiddenEndTemplate.django := by
  refine ⟨⟨?_, ?_, ?_, ?_, ?_, ?_⟩, ?_, ?_, ?_, ?_, ?_⟩ <;> decide +kernel

end Transplant.Rails.Erb
