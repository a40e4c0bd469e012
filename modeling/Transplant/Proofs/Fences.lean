import Transplant.Plan.Reader
import Transplant.Proofs.Spacing

/-! Fences around plans. In a JSON text ticks stand in quotes, and quotes end on the line on which they
start, so no fence is found in it; the fences around it are dropped. -/
namespace Transplant.Plan.Fence

open Text Json.Document

def tick : Char := Char.ofNat 0x60

def ticks : List Char := [tick, tick, tick]

theorem isTick_iff {c : Char} : isTick c = true ↔ c = tick := by
  rw [isTick, decide_eq_true_iff]
  constructor
  · intro same
    rw [← Char.ofNat_toNat c, same]
    rfl
  · rintro rfl
    rfl

/-- A quote follows on the same line. -/
def QuoteAhead (cs : List Char) : Prop := ∃ body rest, cs = body ++ '"' :: rest ∧ '\n' ∉ body

/-- No tick starts a line, and behind each of them a quote follows on its line. The flag says whether the
text starts a line. -/
def Quoted : Bool → List Char → Prop
  | _, [] => True
  | start, c :: cs => (isTick c = true → start = false ∧ QuoteAhead cs) ∧ Quoted (c = '\n') cs

theorem QuoteAhead.append {cs : List Char} (ahead : QuoteAhead cs) (more : List Char) :
    QuoteAhead (cs ++ more) := by
  obtain ⟨body, rest, rfl, line⟩ := ahead
  exact ⟨body, rest ++ more, by simp, line⟩

theorem Quoted.weaken {start : Bool} {cs : List Char} (quoted : Quoted true cs) : Quoted start cs := by
  cases cs with
  | nil => trivial
  | cons c cs => exact ⟨fun tick => absurd (quoted.1 tick).1 (by simp), quoted.2⟩

theorem Quoted.append {start : Bool} {cs more : List Char} (quoted : Quoted start cs)
    (others : Quoted true more) : Quoted start (cs ++ more) := by
  induction cs generalizing start with
  | nil => exact others.weaken
  | cons c cs ih =>
    exact ⟨fun tick => ⟨(quoted.1 tick).1, (quoted.1 tick).2.append more⟩, ih quoted.2⟩

theorem quoted_of_no_tick {start : Bool} {cs : List Char} (none : ∀ c ∈ cs, isTick c = false) :
    Quoted start cs := by
  induction cs generalizing start with
  | nil => trivial
  | cons c cs ih =>
    rw [List.forall_mem_cons] at none
    exact ⟨fun tick => absurd tick (by simp [none.1]), ih none.2⟩

theorem quoted_quotes {body : List Char} (line : '\n' ∉ body) : Quoted true ('"' :: (body ++ ['"'])) := by
  refine ⟨nofun, ?_⟩
  change Quoted false (body ++ ['"'])
  induction body with
  | nil => exact ⟨nofun, trivial⟩
  | cons c body ih =>
    rw [List.mem_cons, not_or] at line
    have inner := ih line.2
    refine ⟨fun _ => ⟨rfl, body, [], rfl, line.2⟩, ?_⟩
    rwa [decide_eq_false (Ne.symm line.1)]

theorem quoted_atom {cs : List Char} (form : AtomForm cs) : Quoted true cs := by
  cases form with
  | quoted line => exact quoted_quotes line
  | bare bare =>
    apply quoted_of_no_tick
    intro c member
    rw [Bool.eq_false_iff]
    intro tick
    have plain := bare c member
    rw [isTick_iff.mp tick] at plain
    cases plain

theorem quoted_blank {gap : List Char} (blank : Blank gap) : Quoted true gap :=
  quoted_of_no_tick fun c member => forall_isBlank (by decide) (blank c member)

theorem quoted_gap {gap : List Char} (space : Gap gap) : Quoted true gap := quoted_blank (blank_of_gap space)

theorem quoted_cons {c : Char} {cs : List Char} (plain : isTick c = false) (quoted : Quoted true cs) :
    Quoted true (c :: cs) :=
  ⟨fun tick => absurd tick (by simp [plain]), quoted.weaken⟩

theorem quoted_mark {c : Char} (plain : isTick c = false) : Quoted true [c] := quoted_cons plain trivial

theorem quoted_name {key : List Char} {k : Option String} (name : readString key = some (k, [])) :
    Quoted true ('"' :: key) := by
  obtain ⟨body, rfl, line, _⟩ := readString_takes name
  exact quoted_quotes line

/-- The ticks of a JSON text stand in quotes. -/
theorem quoted_of_spells {cs : List Char} {p : Phrase} (spells : Spells cs p) : Quoted true cs := by
  induction spells with
  | atom read => exact quoted_atom (atomForm_of_read read)
  | noItems space | noMembers space =>
    exact quoted_cons rfl ((quoted_gap space).append (quoted_mark rfl))
  | array space _ ih | object space _ ih => exact quoted_cons rfl ((quoted_gap space).append ih)
  | lastItem _ space ih => exact ih.append ((quoted_gap space).append (quoted_mark rfl))
  | item _ space₁ space₂ _ ihValue ihItems =>
    exact ihValue.append ((quoted_gap space₁).append (quoted_cons rfl ((quoted_gap space₂).append ihItems)))
  | lastMember name space₁ space₂ _ space₃ ih =>
    have closed := (quoted_gap space₃).append (quoted_mark (c := '}') rfl)
    have value := quoted_cons (c := ':') rfl ((quoted_gap space₂).append (ih.append closed))
    exact (quoted_name name).append ((quoted_gap space₁).append value)
  | member name space₁ space₂ _ space₃ space₄ _ ihValue ihMembers =>
    have more := quoted_cons (c := ',') rfl ((quoted_gap space₄).append ihMembers)
    have value := quoted_cons (c := ':') rfl
      ((quoted_gap space₂).append (ihValue.append ((quoted_gap space₃).append more)))
    exact (quoted_name name).append ((quoted_gap space₁).append value)

theorem blankRest?_of_quoteAhead {cs : List Char} (ahead : QuoteAhead cs) : blankRest? cs = none := by
  obtain ⟨body, rest, rfl, line⟩ := ahead
  induction body with
  | nil => rfl
  | cons c body ih =>
    rw [List.mem_cons, not_or] at line
    rw [List.cons_append, blankRest?, ih line.2, if_neg (Ne.symm line.1)]
    simp

theorem afterTicks?_eq_some {cs inner : List Char} :
    afterTicks? cs = some inner ↔ cs = ticks ++ inner := by
  constructor
  · intro found
    unfold afterTicks? at found
    split at found
    · obtain ⟨three, same⟩ := Option.ite_none_right_eq_some.mp found
      simp only [Bool.and_eq_true, isTick_iff] at three
      obtain ⟨⟨rfl, rfl⟩, rfl⟩ := three
      rw [Option.some.inj same]
      rfl
    · cases found
  · rintro rfl
    rfl

theorem QuoteAhead.tail {cs : List Char} (ahead : QuoteAhead (tick :: cs)) : QuoteAhead cs := by
  obtain ⟨body, rest, same, line⟩ := ahead
  cases body with
  | nil => cases same
  | cons d body =>
    rw [List.mem_cons, not_or] at line
    exact ⟨body, rest, (List.cons.inj same).2, line.2⟩

theorem rest?_of_quoteAhead {start : Bool} {c : Char} {cs : List Char}
    (quoted : isTick c = true → start = false ∧ QuoteAhead cs) : rest? start (c :: cs) = none := by
  rw [rest?, Option.bind_eq_bind, Option.bind_eq_none_iff]
  intro inner found
  obtain ⟨rfl, rfl⟩ := List.cons.inj (afterTicks?_eq_some.mp found)
  obtain ⟨rfl, ahead⟩ := quoted rfl
  have behind : QuoteAhead inner := ahead.tail.tail
  rw [blankRest?_of_quoteAhead behind]
  rfl

theorem dropFrom_keep {start : Bool} {c : Char} {cs : List Char} (none : rest? start (c :: cs) = none) :
    dropFrom start 0 (c :: cs) = c :: dropFrom (c = '\n') 0 cs := by
  rw [dropFrom, none]

theorem dropFrom_of_not_tick {start : Bool} {c : Char} {cs : List Char} (plain : isTick c = false) :
    dropFrom start 0 (c :: cs) = c :: dropFrom (c = '\n') 0 cs :=
  dropFrom_keep (rest?_of_quoteAhead fun tick => absurd tick (by simp [plain]))

/-- A text whose ticks stand in quotes stays as it is. -/
theorem dropFrom_quoted {start : Bool} {cs : List Char} (quoted : Quoted start cs) (more : List Char) :
    ∃ flag, dropFrom start 0 (cs ++ more) = cs ++ dropFrom flag 0 more := by
  induction cs generalizing start with
  | nil => exact ⟨start, rfl⟩
  | cons c cs ih =>
    obtain ⟨flag, rest⟩ := ih quoted.2
    refine ⟨flag, ?_⟩
    have none : rest? start (c :: (cs ++ more)) = none :=
      rest?_of_quoteAhead fun tick => ⟨(quoted.1 tick).1, (quoted.1 tick).2.append more⟩
    rw [List.cons_append, dropFrom_keep none, rest, List.cons_append]

def LineEnd (cs : List Char) : Prop := cs = [] ∨ ∃ more, cs = '\n' :: more

theorem atLineEnd_iff {cs : List Char} : atLineEnd cs = true ↔ LineEnd cs := by
  cases cs <;> simp [atLineEnd, LineEnd]

def IsIndent (c : Char) : Prop := c = ' ' ∨ c = '\t'

theorem not_isAlpha_of_isIndent {c : Char} (indent : IsIndent c) : c.isAlpha = false := by
  rcases indent with rfl | rfl <;> rfl

theorem LineEnd.stops {p : Char → Bool} {cs : List Char} (ends : LineEnd cs) (out : p '\n' = false) :
    Pattern.Stops p cs := by
  rcases ends with rfl | ⟨more, rfl⟩
  · simp [Pattern.Stops]
  · exact Pattern.stops_cons out

theorem lineRest?_eq_some {cs rest : List Char} : lineRest? cs = some rest ↔
    ∃ word gap, cs = word ++ (gap ++ rest) ∧ (∀ c ∈ word, c.isAlpha = true) ∧ (∀ c ∈ gap, IsIndent c) ∧
      LineEnd rest := by
  rw [lineRest?]
  constructor
  · intro found
    obtain ⟨ends, same⟩ := Option.ite_none_right_eq_some.mp found
    refine ⟨cs.takeWhile Char.isAlpha, (cs.dropWhile Char.isAlpha).takeWhile fun c => c = ' ' || c = '\t',
      ?_, List.all_eq_true.mp List.all_takeWhile, ?_, ?_⟩
    · rw [← Option.some.inj same, List.takeWhile_append_dropWhile, List.takeWhile_append_dropWhile]
    · intro c member
      have indent := List.all_eq_true.mp List.all_takeWhile c member
      simpa [IsIndent] using indent
    · rw [← Option.some.inj same]
      exact atLineEnd_iff.mp ends
  · rintro ⟨word, gap, rfl, letters, indent, ends⟩
    have marks : ∀ c ∈ gap, (c = ' ' || c = '\t') = true := by simpa [IsIndent] using indent
    have none : ∀ c ∈ gap, c.isAlpha = false := fun c member => not_isAlpha_of_isIndent (indent c member)
    rw [List.dropWhile_append_of_pos letters,
      (Pattern.takeWhile_of_stops (Pattern.stops_append none (ends.stops rfl))).2,
      List.dropWhile_append_of_pos marks, (Pattern.takeWhile_of_stops (ends.stops rfl)).2,
      if_pos (atLineEnd_iff.mpr ends)]

theorem blankRest?_split {cs rest : List Char} (found : blankRest? cs = some rest) :
    ∃ blanks, cs = blanks ++ rest ∧ Blank blanks ∧ LineEnd rest := by
  induction cs generalizing rest with
  | nil =>
    cases found
    exact ⟨[], rfl, blank_nil, .inl rfl⟩
  | cons c cs ih =>
    rw [blankRest?, Option.or_eq_some_iff] at found
    rcases found with longer | ⟨_, here⟩
    · obtain ⟨blank, longer⟩ := Option.ite_none_right_eq_some.mp longer
      obtain ⟨blanks, rfl, all, ends⟩ := ih longer
      exact ⟨c :: blanks, rfl, List.forall_mem_cons.mpr ⟨blank, all⟩, ends⟩
    · obtain ⟨rfl, same⟩ := Option.ite_none_right_eq_some.mp here
      cases same
      exact ⟨[], rfl, blank_nil, .inr ⟨cs, rfl⟩⟩

theorem rest?_split {start : Bool} {cs rest : List Char} (found : rest? start cs = some rest) :
    LineEnd rest ∧ ∃ c used, cs = c :: used ++ rest := by
  rw [rest?, Option.bind_eq_bind, Option.bind_eq_some_iff] at found
  obtain ⟨inner, three, found⟩ := found
  cases afterTicks?_eq_some.mp three
  rw [Option.or_eq_some_iff] at found
  rcases found with line | ⟨_, blank⟩
  · split at line
    · obtain ⟨word, gap, rfl, _, _, ends⟩ := lineRest?_eq_some.mp line
      exact ⟨ends, tick, tick :: tick :: (word ++ gap), by simp [ticks]⟩
    · cases line
  · obtain ⟨blanks, rfl, _, ends⟩ := blankRest?_split blank
    exact ⟨ends, tick, tick :: tick :: blanks, by simp [ticks]⟩

theorem dropFrom_skip (start : Bool) (used rest : List Char) :
    ∃ flag, dropFrom start used.length (used ++ rest) = dropFrom flag 0 rest := by
  induction used generalizing start with
  | nil => exact ⟨start, rfl⟩
  | cons c used ih => exact ih (c = '\n')

theorem dropFrom_fence {start : Bool} {cs rest : List Char} (found : rest? start cs = some rest) :
    ∃ flag, dropFrom start 0 cs = dropFrom flag 0 rest := by
  obtain ⟨_, c, used, rfl⟩ := rest?_split found
  obtain ⟨flag, skipped⟩ := dropFrom_skip (c = '\n') used rest
  refine ⟨flag, ?_⟩
  rw [List.cons_append] at found ⊢
  rw [dropFrom, found]
  simpa using skipped

theorem rest?_ticks {word rest : List Char} (letters : ∀ c ∈ word, c.isAlpha = true)
    (ends : LineEnd rest) : rest? true (ticks ++ (word ++ rest)) = some rest := by
  have inner : afterTicks? (ticks ++ (word ++ rest)) = some (word ++ rest) := rfl
  have line : lineRest? (word ++ rest) = some rest :=
    lineRest?_eq_some.mpr ⟨word, [], rfl, letters, by simp, ends⟩
  rw [rest?, inner, Option.bind_eq_bind, Option.bind_some, if_pos rfl, line]
  rfl

theorem dropFrom_newline (start : Bool) (cs : List Char) :
    dropFrom start 0 ('\n' :: cs) = '\n' :: dropFrom true 0 cs :=
  dropFrom_of_not_tick rfl

/-- A fence with a word on a line of its own is dropped, and one at the end too. -/
theorem dropFrom_between {word cs : List Char} (letters : ∀ c ∈ word, c.isAlpha = true)
    (quoted : Quoted true cs) :
    dropFrom true 0 (ticks ++ (word ++ '\n' :: (cs ++ '\n' :: ticks))) = '\n' :: (cs ++ ['\n']) := by
  obtain ⟨_, first⟩ := dropFrom_fence (rest?_ticks letters (.inr ⟨cs ++ '\n' :: ticks, rfl⟩))
  obtain ⟨_, inside⟩ := dropFrom_quoted quoted ('\n' :: ticks)
  have last : dropFrom true 0 ticks = [] := by decide
  rw [first, dropFrom_newline, inside, dropFrom_newline, last]

theorem dropFrom_of_quoted {cs : List Char} (quoted : Quoted true cs) : dropFrom true 0 cs = cs := by
  obtain ⟨flag, same⟩ := dropFrom_quoted quoted []
  rwa [List.append_nil, dropFrom, List.append_nil] at same

end Fence

open Text Json.Document
open Json (Document)

theorem appsOfText?_eq_some_iff {text : String} {apps : List App} : appsOfText? text = some apps ↔
    ∃ lead cs trail d, text.toList = lead ++ (cs ++ trail) ∧ Gap lead ∧ Gap trail ∧
      Spells cs (.value d) ∧ appsOf? d = some apps := by
  rw [appsOfText?, Option.bind_eq_bind, Option.bind_eq_some_iff]
  constructor
  · rintro ⟨d, read, found⟩
    obtain ⟨lead, cs, trail, split, space, space', spells⟩ := ofText?_eq_some_iff.mp read
    exact ⟨lead, cs, trail, d, split, space, space', spells, found⟩
  · rintro ⟨lead, cs, trail, d, split, space, space', spells, found⟩
    exact ⟨d, ofText?_eq_some_iff.mpr ⟨lead, cs, trail, split, space, space', spells⟩, found⟩

theorem ofText_eq_structured {text : String} {apps : List App} :
    ofText text = structured apps ↔ appsOfText? (Fence.strip text) = some apps := by
  rw [ofText]
  split
  · rename_i found
    rw [found, Option.some.injEq, structured.injEq]
  · rename_i none
    simp [none]

/-- A text is read as a plan just if a text of the plan with blanks around it is left when the fences are
dropped. -/
theorem ofText_eq_structured_iff {text : String} {apps : List App} : ofText text = structured apps ↔
    ∃ lead cs trail d, Fence.dropFrom true 0 (trim text.toList) = lead ++ (cs ++ trail) ∧ Blank lead ∧
      Blank trail ∧ Spells cs (.value d) ∧ appsOf? d = some apps := by
  rw [ofText_eq_structured, appsOfText?_eq_some_iff, Fence.strip, String.toList_ofList]
  generalize Fence.dropFrom true 0 (trim text.toList) = kept
  constructor
  · rintro ⟨lead, cs, trail, d, split, space, space', spells, found⟩
    obtain ⟨front, back, whole, front_blank, back_blank, _⟩ := trim_split kept
    refine ⟨front ++ lead, cs, trail ++ back, d, ?_, ?_, ?_, spells, found⟩
    · rw [whole, split]
      simp
    · exact List.forall_mem_append.mpr ⟨front_blank, blank_of_gap space⟩
    · exact List.forall_mem_append.mpr ⟨blank_of_gap space', back_blank⟩
  · rintro ⟨lead, cs, trail, d, rfl, lead_blank, trail_blank, spells, found⟩
    refine ⟨[], cs, [], d, ?_, gap_nil, gap_nil, spells, found⟩
    rw [trim_solid (solid_of_spells spells) lead_blank trail_blank]
    simp

theorem ofText_of_apps {text : String} {apps : List App} (found : appsOfText? text = some apps) :
    ofText text = structured apps := by
  obtain ⟨lead, cs, trail, d, split, space, space', spells, found⟩ := appsOfText?_eq_some_iff.mp found
  refine ofText_eq_structured_iff.mpr
    ⟨[], cs, [], d, ?_, blank_nil, blank_nil, spells, found⟩
  rw [split, trim_solid (solid_of_spells spells) (blank_of_gap space) (blank_of_gap space'),
    Fence.dropFrom_of_quoted (Fence.quoted_of_spells spells)]
  simp

/-- A text between a line of ticks with a word and a line of ticks. -/
def fenced (word text : String) : String :=
  "\x60\x60\x60" ++ word ++ "\n" ++ text ++ "\n" ++ "\x60\x60\x60"

theorem toList_fenced (word text : String) : (fenced word text).toList =
    Fence.ticks ++ (word.toList ++ '\n' :: (text.toList ++ '\n' :: Fence.ticks)) := by
  simp [fenced, Fence.ticks, Fence.tick]

theorem solid_fenced (word text : String) : Solid (fenced word text).toList := by
  have ticks : Solid Fence.ticks := by
    constructor <;> rintro _ ⟨rfl⟩ <;> rfl
  have whole := ticks.around (by decide) ticks (by decide) (word.toList ++ '\n' :: (text.toList ++ ['\n']))
  rw [toList_fenced]
  simpa using whole

/-- A text that is a plan is read as that plan, and so is the text between fences, whatever word the first
of them has. -/
theorem ofText_fenced {text : String} {apps : List App} (found : appsOfText? text = some apps) :
    ofText text = structured apps ∧ ∀ word lead trail : String,
      (∀ c ∈ word.toList, c.isAlpha = true) → Blank lead.toList → Blank trail.toList →
        ofText (lead ++ fenced word text ++ trail) = structured apps := by
  refine ⟨ofText_of_apps found, ?_⟩
  intro word lead trail letters lead_blank trail_blank
  obtain ⟨front, cs, behind, d, split, space, space', spells, found⟩ := appsOfText?_eq_some_iff.mp found
  have quoted : Fence.Quoted true text.toList := by
    rw [split]
    exact (Fence.quoted_gap space).append
      ((Fence.quoted_of_spells spells).append (Fence.quoted_gap space'))
  have newline : Blank ['\n'] := by decide
  refine ofText_eq_structured_iff.mpr ⟨['\n'] ++ front, cs, behind ++ ['\n'], d, ?_, ?_, ?_, spells, found⟩
  · rw [String.toList_append, String.toList_append, List.append_assoc,
      trim_solid (solid_fenced word text) lead_blank trail_blank, toList_fenced,
      Fence.dropFrom_between letters quoted, split]
    simp
  · exact List.forall_mem_append.mpr ⟨newline, blank_of_gap space⟩
  · exact List.forall_mem_append.mpr ⟨blank_of_gap space', newline⟩

def tickedText : String := "\x7b\"apps\": [\x7b\"name\": \"\x60\x60\x60\"\x7d]\x7d"

def tickedApp : App := ⟨"\x60\x60\x60", [], [], [], []⟩

theorem ofText_ticked : appsOfText? tickedText = some [tickedApp] ∧ ofText tickedText = structured [tickedApp] ∧
    ofText (" " ++ fenced "json" tickedText ++ "\n") = structured [tickedApp] := by
  have found : appsOfText? tickedText = some [tickedApp] := by decide +kernel
  obtain ⟨bare, wrapped⟩ := ofText_fenced found
  exact ⟨found, bare, wrapped "json" " " "\n" (List.all_eq_true.mp rfl) (by decide) (by decide)⟩

end Transplant.Plan
