import Transplant.Proofs.Fences

/-! Ends of lines in texts of plans. With a return in front of each newline a plan is the same, but a fence
with a word is one only where the newline stands right behind it, so with returns it stays in the text. -/
namespace Transplant.Plan

open Text Json.Document

/-- A return in front of each newline. -/
def returned (cs : List Char) : List Char := cs.flatMap fun c => if c = '\n' then ['\r', '\n'] else [c]

def crlf (text : String) : String := .ofList (returned text.toList)

theorem returned_append (cs more : List Char) : returned (cs ++ more) = returned cs ++ returned more :=
  List.flatMap_append

theorem returned_newline (cs : List Char) : returned ('\n' :: cs) = '\r' :: '\n' :: returned cs := rfl

theorem returned_cons {c : Char} (other : c ≠ '\n') (cs : List Char) :
    returned (c :: cs) = c :: returned cs := by
  simp [returned, other]

theorem of_returned {front cs more : List Char} (plain : '\r' ∉ front)
    (same : returned cs = front ++ more) : ∃ rest, cs = front ++ rest ∧ more = returned rest := by
  induction front generalizing cs with
  | nil => exact ⟨cs, rfl, same.symm⟩
  | cons c front ih =>
    rw [List.mem_cons, not_or] at plain
    cases cs with
    | nil => cases same
    | cons d cs =>
      by_cases newline : d = '\n'
      · subst newline
        rw [returned_newline] at same
        exact absurd (List.cons.inj same).1 plain.1
      · rw [returned_cons newline] at same
        obtain ⟨rfl, tail⟩ := List.cons.inj same
        obtain ⟨rest, rfl, behind⟩ := ih plain.2 tail
        exact ⟨rest, rfl, behind⟩

theorem blank_returned {cs : List Char} (blank : Blank cs) : Blank (returned cs) := by
  intro c inside
  rw [returned, List.mem_flatMap] at inside
  obtain ⟨d, member, inside⟩ := inside
  split at inside
  · simp only [List.mem_cons, List.not_mem_nil, or_false] at inside
    rcases inside with rfl | rfl <;> rfl
  · rw [List.mem_singleton.mp inside]
    exact blank d member

theorem dropWhile_returned {p : Char → Bool} (newline : p '\n' = false) (back : p '\r' = false)
    (cs : List Char) : (returned cs).dropWhile p = returned (cs.dropWhile p) := by
  induction cs with
  | nil => rfl
  | cons c cs ih =>
    by_cases same : c = '\n'
    · subst same
      rw [returned_newline, List.dropWhile_cons_of_neg (by simp [back]),
        List.dropWhile_cons_of_neg (by simp [newline]), returned_newline]
    · rw [returned_cons same]
      by_cases inside : p c = true
      · rw [List.dropWhile_cons_of_pos inside, List.dropWhile_cons_of_pos inside, ih]
      · rw [List.dropWhile_cons_of_neg inside, List.dropWhile_cons_of_neg inside, returned_cons same]

namespace Fence

/-- A fence with a word ends only where the text does: a return is no end of a line. -/
theorem lineRest?_returned (cs : List Char) :
    lineRest? (returned cs) = (lineRest? cs).filter List.isEmpty := by
  simp only [lineRest?]
  rw [dropWhile_returned (by decide) (by decide), dropWhile_returned (by decide) (by decide)]
  generalize (cs.dropWhile Char.isAlpha).dropWhile _ = rest
  cases rest with
  | nil => rfl
  | cons c rest =>
    by_cases same : c = '\n'
    · subst same
      rfl
    · rw [returned_cons same]
      simp [atLineEnd, same]

theorem blankRest?_newline (cs : List Char) :
    blankRest? ('\n' :: cs) = (blankRest? cs).or (some ('\n' :: cs)) := rfl

theorem blankRest?_return (cs : List Char) : blankRest? ('\r' :: cs) = blankRest? cs :=
  Option.or_none

theorem blankRest?_returned (cs : List Char) :
    blankRest? (returned cs) = (blankRest? cs).map fun rest => (returned rest).tail := by
  induction cs with
  | nil => rfl
  | cons c cs ih =>
    by_cases same : c = '\n'
    · subst same
      rw [returned_newline, blankRest?_return, blankRest?_newline, ih, blankRest?_newline]
      cases blankRest? cs <;> rfl
    · rw [returned_cons same, blankRest?, blankRest?, ih]
      by_cases blank : isBlank c = true <;> simp [same, blank]

theorem afterTicks?_returned (cs : List Char) :
    afterTicks? (returned cs) = (afterTicks? cs).map returned := by
  apply Option.ext
  intro inner
  rw [afterTicks?_eq_some, Option.map_eq_some_iff]
  constructor
  · intro same
    obtain ⟨rest, rfl, rfl⟩ := of_returned (by decide) same
    exact ⟨rest, afterTicks?_eq_some.mpr rfl, rfl⟩
  · rintro ⟨rest, found, rfl⟩
    rw [afterTicks?_eq_some.mp found, returned_append]
    rfl

theorem rest?_returned (start : Bool) (cs : List Char) :
    rest? start (returned cs) = (afterTicks? cs).bind fun inner =>
      (if start then (lineRest? inner).filter List.isEmpty else none).or
        ((blankRest? inner).map fun rest => (returned rest).tail) := by
  rw [rest?, afterTicks?_returned]
  cases afterTicks? cs with
  | none => rfl
  | some inner =>
    simp only [Option.map_some, Option.bind_eq_bind, Option.bind_some]
    rw [lineRest?_returned, blankRest?_returned]

/-- A fence with a word, and another line behind it. -/
def isTag (cs : List Char) : Bool :=
  (afterTicks? cs).any fun inner =>
    inner.head?.any Char.isAlpha && (lineRest? inner).any fun rest => !rest.isEmpty

/-- Some line of a text is such a fence. The flag says whether the text starts a line. -/
def hasTag : Bool → List Char → Bool
  | _, [] => false
  | start, c :: cs => (start && isTag (c :: cs)) || hasTag (c = '\n') cs

theorem not_letter_of_lineEnd {gap rest : List Char} (none : ∀ c ∈ gap, c.isAlpha = false)
    (ends : LineEnd rest) : ∀ c ∈ (gap ++ rest).head?, c.isAlpha = false :=
  Pattern.stops_append none (ends.stops rfl)

theorem isTag_iff {cs : List Char} : isTag cs = true ↔ ∃ word gap more,
    cs = ticks ++ (word ++ (gap ++ '\n' :: more)) ∧ word ≠ [] ∧ (∀ c ∈ word, c.isAlpha = true) ∧
      ∀ c ∈ gap, IsIndent c := by
  rw [isTag, Option.any_eq_true]
  constructor
  · rintro ⟨inner, three, tag⟩
    rw [Bool.and_eq_true, Option.any_eq_true, Option.any_eq_true] at tag
    obtain ⟨⟨c, first, letter⟩, rest, line, some⟩ := tag
    obtain ⟨word, gap, rfl, letters, indent, ends⟩ := lineRest?_eq_some.mp line
    have spaced : ∀ d ∈ gap, d.isAlpha = false := fun d member => not_isAlpha_of_isIndent (indent d member)
    have wordy : word ≠ [] := by
      rintro rfl
      rw [not_letter_of_lineEnd spaced ends c first] at letter
      cases letter
    rcases ends with rfl | ⟨more, rfl⟩
    · cases some
    · exact ⟨word, gap, more, afterTicks?_eq_some.mp three, wordy, letters, indent⟩
  · rintro ⟨word, gap, more, rfl, wordy, letters, indent⟩
    obtain ⟨c, word, rfl⟩ := List.exists_cons_of_ne_nil wordy
    have line : lineRest? (c :: word ++ (gap ++ '\n' :: more)) = some ('\n' :: more) :=
      lineRest?_eq_some.mpr ⟨c :: word, gap, rfl, letters, indent, .inr ⟨more, rfl⟩⟩
    refine ⟨c :: word ++ (gap ++ '\n' :: more), afterTicks?_eq_some.mpr rfl, ?_⟩
    rw [line]
    simpa using letters c List.mem_cons_self

theorem blankRest?_blank {gap more : List Char} (blank : Blank gap) :
    blankRest? (gap ++ '\n' :: more) = (blankRest? more).or (some ('\n' :: more)) := by
  induction gap with
  | nil => exact blankRest?_newline more
  | cons c gap ih =>
    rw [Blank, List.forall_mem_cons] at blank
    rw [List.cons_append, blankRest?, if_pos blank.1, ih blank.2]
    cases blankRest? more <;> rfl

theorem blankRest?_line {gap : List Char} (blank : Blank gap) (more : List Char) :
    ∃ front behind, '\n' :: more = front ++ behind ∧ Blank front ∧ LineEnd behind ∧
      blankRest? (gap ++ '\n' :: more) = some behind := by
  rw [blankRest?_blank blank]
  cases further : blankRest? more with
  | none => exact ⟨[], '\n' :: more, rfl, blank_nil, .inr ⟨more, rfl⟩, rfl⟩
  | some behind =>
    obtain ⟨blanks, rfl, all, ends⟩ := blankRest?_split further
    exact ⟨'\n' :: blanks, behind, rfl, List.forall_mem_cons.mpr ⟨rfl, all⟩, ends, rfl⟩

theorem filter_of_none {start : Bool} {inner : List Char}
    (none : (if start then lineRest? inner else none) = none) :
    (if start then (lineRest? inner).filter List.isEmpty else Option.none) = Option.none := by
  cases start with
  | false => rfl
  | true =>
    have line : lineRest? inner = Option.none := none
    rw [line]
    rfl

theorem rest?_returned_of_none {start : Bool} {cs : List Char} (none : rest? start cs = none) :
    rest? start (returned cs) = Option.none := by
  rw [rest?_returned, Option.bind_eq_none_iff]
  intro inner three
  rw [rest?, three, Option.bind_eq_bind, Option.bind_some, Option.or_eq_none_iff] at none
  rw [filter_of_none none.1, none.2]
  rfl

theorem rest?_returned_of_some {start : Bool} {cs rest : List Char} (plain : (start && isTag cs) = false)
    (found : rest? start cs = some rest) : ∃ gap behind, rest = gap ++ behind ∧ Blank gap ∧
      LineEnd behind ∧ rest? start (returned cs) = some (returned behind).tail := by
  rw [rest?, Option.bind_eq_bind, Option.bind_eq_some_iff] at found
  obtain ⟨inner, three, found⟩ := found
  rw [rest?_returned, three, Option.bind_some]
  rw [Option.or_eq_some_iff] at found
  rcases found with line | ⟨none, blank⟩
  · obtain ⟨rfl, here⟩ := Option.ite_none_right_eq_some.mp line
    obtain ⟨word, gap, rfl, letters, indent, ends⟩ := lineRest?_eq_some.mp here
    rcases ends with rfl | ⟨more, rfl⟩
    · refine ⟨[], [], rfl, blank_nil, .inl rfl, ?_⟩
      rw [here]
      rfl
    · have bare : word = [] := by
        by_contra wordy
        have tag := isTag_iff.mpr ⟨word, gap, more, afterTicks?_eq_some.mp three, wordy, letters, indent⟩
        rw [tag] at plain
        cases plain
      subst bare
      have blank : Blank gap := by
        intro c member
        rcases indent c member with rfl | rfl <;> rfl
      -- with returns the fence is no line of its own, and takes the blank lines behind it along
      obtain ⟨front, behind, split, front_blank, ends, longest⟩ := blankRest?_line blank more
      refine ⟨front, behind, split, front_blank, ends, ?_⟩
      rw [here, List.nil_append, longest]
      rfl
  · obtain ⟨_, _, _, ends⟩ := blankRest?_split blank
    refine ⟨[], rest, rfl, blank_nil, ends, ?_⟩
    rw [filter_of_none none, blank]
    rfl

theorem hasTag_behind {start : Bool} {front more : List Char}
    (plain : hasTag start (front ++ '\n' :: more) = false) : hasTag true more = false := by
  induction front generalizing start with
  | nil =>
    rw [List.nil_append, hasTag, Bool.or_eq_false_iff] at plain
    exact plain.2
  | cons c front ih =>
    rw [List.cons_append, hasTag, Bool.or_eq_false_iff] at plain
    exact ih plain.2

theorem dropFrom_blank {gap : List Char} (blank : Blank gap) (start : Bool) (rest : List Char) :
    ∃ flag, dropFrom start 0 (gap ++ rest) = gap ++ dropFrom flag 0 rest :=
  dropFrom_quoted (quoted_blank blank).weaken rest

theorem respaced_newline {gap cs cs' : List Char} (blank : Blank gap) (same : Respaced cs cs') :
    Respaced ('\n' :: (gap ++ cs)) ('\n' :: cs') :=
  .line blank (List.forall_mem_singleton.mpr rfl) same

/-- Ends of lines that one side has kept of a fence, and the other has dropped with it. -/
theorem respaced_gap {gap more cs cs' : List Char} (blank : Blank gap)
    (ends : LineEnd (gap ++ '\n' :: more)) (same : Respaced cs cs') :
    Respaced (gap ++ '\n' :: cs) ('\n' :: cs') := by
  cases gap with
  | nil => exact respaced_newline blank same
  | cons c gap =>
    obtain ⟨_, start⟩ := ends.resolve_left (by simp)
    obtain ⟨rfl, _⟩ := List.cons.inj start
    have newlines : Blank (gap ++ ['\n']) :=
      List.forall_mem_append.mpr ⟨(List.forall_mem_cons.mp blank).2, List.forall_mem_singleton.mpr rfl⟩
    simpa using respaced_newline newlines same

theorem respaced_end {gap : List Char} (blank : Blank gap) (ends : LineEnd gap) : Respaced gap [] := by
  rcases ends with rfl | ⟨more, rfl⟩
  · exact .nil
  · have dropped := Respaced.line (List.forall_mem_cons.mp blank).2 gap_nil .nil
    simpa using dropped

theorem respaced_keep {start : Bool} {c : Char} {cs : List Char} (none : rest? start (c :: cs) = none)
    (same : Respaced (dropFrom (c = '\n') 0 cs) (dropFrom (c = '\n') 0 (returned cs))) :
    Respaced (dropFrom start 0 (c :: cs)) (dropFrom start 0 (returned (c :: cs))) := by
  have none' := rest?_returned_of_none none
  rw [dropFrom_keep none]
  by_cases newline : c = '\n'
  · subst newline
    have returns : Gap ['\r', '\n'] := by simp [Gap, isSpace]
    rw [returned_newline, dropFrom_of_not_tick rfl, dropFrom_of_not_tick rfl]
    exact .line blank_nil returns same
  · rw [returned_cons newline] at none' ⊢
    rw [dropFrom_keep none']
    exact .keep newline same

theorem respaced_fence {start : Bool} {cs rest : List Char} (plain : (start && isTag cs) = false)
    (found : rest? start cs = some rest)
    (same : ∀ front more, rest = front ++ '\n' :: more →
      Respaced (dropFrom true 0 more) (dropFrom true 0 (returned more))) :
    Respaced (dropFrom start 0 cs) (dropFrom start 0 (returned cs)) := by
  obtain ⟨gap, behind, rfl, blank, ends, found'⟩ := rest?_returned_of_some plain found
  obtain ⟨start', dropped⟩ := dropFrom_fence found
  obtain ⟨_, dropped'⟩ := dropFrom_fence found'
  obtain ⟨_, kept⟩ := dropFrom_blank blank start' behind
  rw [dropped, dropped', kept]
  have line := (rest?_split found).1
  rcases ends with rfl | ⟨more, rfl⟩
  · rw [List.append_nil] at line
    simpa [dropFrom, returned] using respaced_end blank line
  · rw [returned_newline, List.tail_cons, dropFrom_newline, dropFrom_newline]
    exact respaced_gap blank line (same gap more rfl)

/-- Without fences that have a word, what is left of a text with returns is what is left of the text, but for
space. -/
theorem respaced_dropFrom {start : Bool} {cs : List Char} (plain : hasTag start cs = false) :
    Respaced (dropFrom start 0 cs) (dropFrom start 0 (returned cs)) := by
  -- a step drops one character or a fence of any length, so the induction is on what is left
  induction size : cs.length using Nat.strongRecOn generalizing start cs with
  | ind n ih =>
    subst size
    cases cs with
    | nil => exact .nil
    | cons c cs =>
      have parts := Bool.or_eq_false_iff.mp plain
      cases found : rest? start (c :: cs) with
      | none => exact respaced_keep found (ih cs.length (by simp) parts.2 rfl)
      | some rest =>
        refine respaced_fence parts.1 found fun front more split => ?_
        obtain ⟨_, d, used, whole⟩ := rest?_split found
        have split' : c :: cs = (d :: used ++ front) ++ '\n' :: more := by simp [whole, split]
        rw [split'] at plain
        refine ih more.length ?_ (hasTag_behind plain) rfl
        simp [split']
        omega

theorem newline_of_hasTag {start : Bool} {cs : List Char} (tagged : hasTag start cs = true) : '\n' ∈ cs := by
  induction cs generalizing start with
  | nil => cases tagged
  | cons c cs ih =>
    rw [hasTag, Bool.or_eq_true, Bool.and_eq_true] at tagged
    rcases tagged with ⟨_, tag⟩ | later
    · obtain ⟨word, gap, more, same, _⟩ := isTag_iff.mp tag
      simp [same]
    · exact List.mem_cons_of_mem c (ih later)

theorem not_isTag_of_not_tick {c : Char} {cs : List Char} (plain : isTick c = false) :
    isTag (c :: cs) = false := by
  rw [Bool.eq_false_iff]
  intro tag
  obtain ⟨_, _, _, same, _⟩ := isTag_iff.mp tag
  rw [(List.cons.inj same).1] at plain
  cases plain

theorem hasTag_blank {gap rest : List Char} (blank : Blank gap) {start : Bool}
    (tagged : hasTag start (gap ++ rest) = true) : ∃ flag, hasTag flag rest = true := by
  induction gap generalizing start with
  | nil => exact ⟨start, tagged⟩
  | cons c gap ih =>
    rw [Blank, List.forall_mem_cons] at blank
    have plain : isTick c = false := forall_isBlank (by decide) blank.1
    rw [List.cons_append, hasTag, not_isTag_of_not_tick plain, Bool.and_false, Bool.false_or] at tagged
    exact ih blank.2 tagged

theorem hasTag_ticks (start : Bool) (inner : List Char) :
    hasTag start (ticks ++ inner) = ((start && isTag (ticks ++ inner)) || hasTag false inner) := rfl

theorem not_isTag_of_blank {gap rest : List Char} (blank : Blank gap) (ends : LineEnd rest) :
    isTag (ticks ++ (gap ++ rest)) = false := by
  rw [Bool.eq_false_iff]
  intro tag
  obtain ⟨word, _, _, same, wordy, letters, _⟩ := isTag_iff.mp tag
  obtain ⟨c, word, rfl⟩ := List.exists_cons_of_ne_nil wordy
  have spaced : ∀ d ∈ gap, d.isAlpha = false := fun d member => forall_isBlank (by decide) (blank d member)
  have first : c ∈ (gap ++ rest).head? := by
    rw [List.append_cancel_left same]
    rfl
  have letter := letters c List.mem_cons_self
  rw [not_letter_of_lineEnd spaced ends c first] at letter
  cases letter

theorem hasTag_returned {start : Bool} {cs rest : List Char} (tagged : hasTag start cs = true)
    (found : rest? start (returned cs) = some rest) : ∃ front more, cs = front ++ '\n' :: more ∧
      rest = '\n' :: returned more ∧ hasTag true more = true := by
  rw [rest?_returned, Option.bind_eq_some_iff] at found
  obtain ⟨inner, three, found⟩ := found
  cases afterTicks?_eq_some.mp three
  rw [Option.or_eq_some_iff] at found
  rcases found with line | ⟨_, blank⟩
  · obtain ⟨_, last⟩ := Option.ite_none_right_eq_some.mp line
    obtain ⟨here, empty⟩ := Option.filter_eq_some_iff.mp last
    obtain ⟨word, gap, rfl, letters, indent, _⟩ := lineRest?_eq_some.mp here
    rw [List.isEmpty_iff.mp empty] at tagged
    have newline := newline_of_hasTag tagged
    simp only [ticks, List.mem_append, List.mem_cons, List.not_mem_nil, or_false] at newline
    rcases newline with (h | h | h) | h | h
    · cases h
    · cases h
    · cases h
    · cases letters _ h
    · rcases indent _ h with h | h <;> cases h
  · obtain ⟨behind, further, rfl⟩ := Option.map_eq_some_iff.mp blank
    obtain ⟨gap, rfl, all, ends⟩ := blankRest?_split further
    rw [hasTag_ticks, not_isTag_of_blank all ends, Bool.and_false, Bool.false_or] at tagged
    obtain ⟨flag, tagged⟩ := hasTag_blank all tagged
    rcases ends with rfl | ⟨more, rfl⟩
    · cases tagged
    · rw [hasTag, not_isTag_of_not_tick rfl, Bool.and_false, Bool.false_or] at tagged
      exact ⟨ticks ++ gap, more, by simp, rfl, tagged⟩

theorem not_quoted_keep {start : Bool} {c : Char} {cs : List Char}
    (tagged : hasTag start (c :: cs) = true) (none : rest? start (returned (c :: cs)) = none)
    (later : hasTag (c = '\n') cs = true → ¬ Quoted (c = '\n') (dropFrom (c = '\n') 0 (returned cs))) :
    ¬ Quoted start (dropFrom start 0 (returned (c :: cs))) := by
  intro quoted
  rw [hasTag, Bool.or_eq_true, Bool.and_eq_true] at tagged
  by_cases newline : c = '\n'
  · subst newline
    rw [not_isTag_of_not_tick rfl] at tagged
    rw [returned_newline, dropFrom_of_not_tick rfl, dropFrom_of_not_tick rfl] at quoted
    exact later (tagged.resolve_left (by simp)) quoted.2.2
  · rw [returned_cons newline] at none quoted
    rw [dropFrom_keep none] at quoted
    rcases tagged with ⟨rfl, tag⟩ | further
    · obtain ⟨_, _, _, same, _⟩ := isTag_iff.mp tag
      cases (quoted.1 (isTick_iff.mpr (List.cons.inj same).1)).1
    · exact later further quoted.2

theorem not_quoted_of_hasTag {start : Bool} {cs : List Char} (tagged : hasTag start cs = true) :
    ¬ Quoted start (dropFrom start 0 (returned cs)) := by
  induction size : cs.length using Nat.strongRecOn generalizing start cs with
  | ind n ih =>
    subst size
    cases cs with
    | nil => cases tagged
    | cons c cs =>
      cases found : rest? start (returned (c :: cs)) with
      | none => exact not_quoted_keep tagged found fun further => ih cs.length (by simp) further rfl
      | some rest =>
        obtain ⟨front, more, split, rfl, further⟩ := hasTag_returned tagged found
        obtain ⟨_, dropped⟩ := dropFrom_fence found
        have shorter : more.length < (c :: cs).length := by
          simp [split]
          omega
        rw [dropped, dropFrom_newline]
        exact fun quoted => ih more.length shorter further rfl quoted.2

end Fence

theorem ne_newline_of_not_isBlank {c : Char} (solid : isBlank c = false) : c ≠ '\n' := by
  rintro rfl
  cases solid

theorem solid_returned {cs : List Char} (solid : Solid cs) : Solid (returned cs) := by
  constructor
  · cases cs with
    | nil => simp [returned]
    | cons c cs =>
      have first := solid.first c rfl
      rw [returned_cons (ne_newline_of_not_isBlank first)]
      rintro _ ⟨rfl⟩
      exact first
  · rcases List.eq_nil_or_concat cs with rfl | ⟨front, c, rfl⟩
    · simp [returned]
    · rw [List.concat_eq_append] at solid ⊢
      have last := solid.last c (by simp)
      have whole : returned (front ++ [c]) = returned front ++ [c] := by
        rw [returned_append, returned_cons (ne_newline_of_not_isBlank last)]
        rfl
      rw [whole, List.getLast?_concat]
      rintro _ ⟨rfl⟩
      exact last

theorem trim_returned (cs : List Char) : trim (returned cs) = returned (trim cs) := by
  obtain ⟨lead, trail, split, lead_blank, trail_blank, solid⟩ := trim_split cs
  have whole := congrArg returned split
  rw [returned_append, returned_append] at whole
  rw [whole, trim_solid (solid_returned solid) (blank_returned lead_blank) (blank_returned trail_blank)]

theorem raw_or_structured (text : String) :
    ofText text = raw text ∨ ∃ apps, ofText text = structured apps := by
  rw [ofText]
  split
  · exact .inr ⟨_, rfl⟩
  · exact .inl rfl

/-- With returns, a plan is the same plan, unless one of its fences has a word. -/
theorem ofText_crlf {text : String} {apps : List App} (read : ofText text = structured apps) :
    ofText (crlf text) =
      if Fence.hasTag true (trim text.toList) then raw (crlf text) else structured apps := by
  have trimmed : trim (crlf text).toList = returned (trim text.toList) := by
    rw [crlf, String.toList_ofList, trim_returned]
  split
  · rename_i tagged
    refine (raw_or_structured (crlf text)).resolve_right ?_
    rintro ⟨apps, read⟩
    obtain ⟨lead, cs, trail, d, kept, lead_blank, trail_blank, spells, _⟩ := ofText_eq_structured_iff.mp read
    apply Fence.not_quoted_of_hasTag tagged
    rw [← trimmed, kept]
    exact (Fence.quoted_blank lead_blank).append
      ((Fence.quoted_of_spells spells).append (Fence.quoted_blank trail_blank))
  · rename_i plain
    rw [Bool.not_eq_true] at plain
    obtain ⟨lead, cs, trail, d, kept, lead_blank, trail_blank, spells, found⟩ :=
      ofText_eq_structured_iff.mp read
    have same := Fence.respaced_dropFrom plain
    rw [kept] at same
    obtain ⟨lead', _, split, lead_blank', inner⟩ := same.blank lead_blank spells.stops_blank
    obtain ⟨cs', trail', rfl, spells', behind⟩ := inner.spells spells
    rw [← trimmed] at split
    exact ofText_eq_structured_iff.mpr
      ⟨lead', cs', trail', d, split, lead_blank', behind.all_blank trail_blank, spells', found⟩

def emptyText : String := "\x7b\"apps\":\n[]\x7d"

/-- A fence without a word is one with returns too, a fence with a word is none. -/
theorem ofText_crlf_fenced :
    ofText (fenced "" emptyText) = structured [] ∧ ofText (crlf (fenced "" emptyText)) = structured [] ∧
      ofText (fenced "json" emptyText) = structured [] ∧
      ofText (crlf (fenced "json" emptyText)) = raw (crlf (fenced "json" emptyText)) := by
  have bare : ofText (fenced "" emptyText) = structured [] := by decide +kernel
  have plain : Fence.hasTag true (trim (fenced "" emptyText).toList) = false := by decide +kernel
  have wordy : ofText (fenced "json" emptyText) = structured [] := by decide +kernel
  have tagged : Fence.hasTag true (trim (fenced "json" emptyText).toList) = true := by decide +kernel
  have kept := ofText_crlf bare
  have lost := ofText_crlf wordy
  rw [plain] at kept
  rw [tagged] at lost
  exact ⟨bare, kept, wordy, lost⟩

theorem crlf_lost_to_tag : '\r' ∉ (fenced "json" emptyText).toList ∧
    ofText (fenced "json" emptyText) = structured [] ∧
      ofText (crlf (fenced "json" emptyText)) ≠ structured [] := by
  decide +kernel

end Transplant.Plan
