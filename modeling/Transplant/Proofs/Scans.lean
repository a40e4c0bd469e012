import Mathlib.Data.List.Chain
import Transplant.Proofs.Patterns
import Transplant.Proofs.Trimming

/-! Scans taken apart. A scan passes over what its pattern reads nowhere in, takes what the pattern reads
as a whole, and goes on behind it. Directives of one line each are told apart by their first word: a
pattern that wants such a word, a gap and then a mark starts at the beginning of a line if at all. -/
namespace Transplant.Text

open Pattern

variable {α : Type} {p : Pattern α} {edged inWord : Bool}

theorem within_of_not_mem {front own read rest : List Char} {c : Char} (none : c ∉ read)
    (split : front ++ c :: own = read ++ rest) :
    ∃ more, front = read ++ more ∧ rest = more ++ c :: own := by
  rcases List.append_eq_append_iff.mp split with ⟨beyond, same, further⟩ | within
  · cases beyond with
    | nil => exact ⟨[], by simpa using same.symm, further.symm⟩
    | cons d beyond =>
      have first : c = d := (List.cons.inj further).1
      exact absurd (by simp [same, ← first]) none
  · exact within

/-- Whether a word character stands last, or in front if there is nothing. -/
def lastInWord (inWord : Bool) (cs : List Char) : Bool := (cs.getLast?.map isWord).getD inWord

@[simp] theorem lastInWord_nil : lastInWord inWord [] = inWord := rfl

@[simp] theorem lastInWord_cons (c : Char) (cs : List Char) :
    lastInWord inWord (c :: cs) = lastInWord (isWord c) cs :=
  getLast?_cons_map isWord c cs inWord

theorem lastInWord_of_inWord {cs : List Char} (nonempty : cs ≠ [])
    (word : ∀ c ∈ cs, isWord c = true) : lastInWord inWord cs = true := by
  rw [lastInWord, List.getLast?_eq_some_getLast nonempty]
  exact word _ (List.getLast_mem nonempty)

theorem lastInWord_of_blank {gap : List Char} (blank : Blank gap) : lastInWord false gap = false := by
  rw [lastInWord]
  cases last : gap.getLast? with
  | none => rfl
  | some c => exact not_isWord_of_isBlank (blank c (List.mem_of_mem_getLast? last))

theorem not_isWord_of_all {marks : List Char} (all : (marks.all fun c => !isWord c) = true) :
    ∀ c ∈ marks, isWord c = false := by
  simpa using all

theorem scanFrom_nil (skip : Nat) : scanFrom edged p inWord skip [] = [] := by
  cases skip <;> rfl

theorem scanFrom_skip (read rest : List Char) :
    scanFrom edged p inWord read.length (read ++ rest) =
      scanFrom edged p (lastInWord inWord read) 0 rest := by
  induction read generalizing inWord with
  | nil => rfl
  | cons c read ih => simpa [scanFrom] using ih

theorem scanFrom_found {front rest : List Char} {a : α} (edge : (edged && inWord) = false)
    (nonempty : front ≠ []) (reads : p (front ++ rest) = some (a, rest)) :
    scanFrom edged p inWord 0 (front ++ rest) =
      a :: scanFrom edged p (lastInWord inWord front) 0 rest := by
  obtain ⟨c, front, rfl⟩ := List.exists_cons_of_ne_nil nonempty
  have skipped : (front ++ rest).length - rest.length = front.length := by simp
  rw [List.cons_append] at reads ⊢
  simp only [scanFrom, edge, reads, Bool.false_eq_true, if_false, skipped, scanFrom_skip,
    lastInWord_cons]

/-- A scan passes over what the pattern reads nowhere in. -/
theorem scanFrom_unread {front rest : List Char}
    (unread : ∀ before behind, front = before ++ behind → behind ≠ [] →
      (edged && lastInWord inWord before) = true ∨ p (behind ++ rest) = none) :
    scanFrom edged p inWord 0 (front ++ rest) =
      scanFrom edged p (lastInWord inWord front) 0 rest := by
  induction front generalizing inWord with
  | nil => rfl
  | cons c front ih =>
    have here : (if edged && inWord then none else p (c :: (front ++ rest))) = none := by
      rcases unread [] (c :: front) rfl (by simp) with edge | missing
      · rw [lastInWord_nil] at edge
        simp [edge]
      · rw [List.cons_append] at missing
        simp [missing]
    have later : scanFrom edged p (isWord c) 0 (front ++ rest) =
        scanFrom edged p (lastInWord (isWord c) front) 0 rest := ih fun before behind split some => by
      simpa using unread (c :: before) behind (by simp [split]) some
    rw [List.cons_append, scanFrom, here, lastInWord_cons]
    exact later

theorem head?_scanFrom_eq_some {cs : List Char} {a : α} :
    (scanFrom edged p inWord 0 cs).head? = some a ↔ ∃ front tail rest, cs = front ++ tail ∧ tail ≠ [] ∧
      (edged && lastInWord inWord front) = false ∧ p tail = some (a, rest) ∧
      ∀ before behind, front = before ++ behind → behind ≠ [] →
        (edged && lastInWord inWord before) = true ∨ p (behind ++ tail) = none := by
  constructor
  · intro first
    induction cs generalizing inWord with
    | nil => simp [scanFrom] at first
    | cons c cs ih =>
      rw [scanFrom] at first
      cases here : if edged && inWord then none else p (c :: cs) with
      | some found =>
        rw [here] at first
        cases first
        obtain ⟨edge, reads⟩ := Option.ite_none_left_eq_some.mp here
        refine ⟨[], c :: cs, found.2, rfl, List.cons_ne_nil c cs, by simpa using edge, reads, ?_⟩
        intro before behind split some
        exact absurd (List.append_eq_nil_iff.mp split.symm).2 some
      | none =>
        rw [here] at first
        obtain ⟨front, tail, rest, rfl, nonempty, edge, reads, unread⟩ := ih first
        refine ⟨c :: front, tail, rest, rfl, nonempty, by simpa using edge, reads, ?_⟩
        intro before behind split some
        cases before with
        | nil =>
          rw [List.nil_append] at split
          subst split
          cases blocked : edged && inWord with
          | true => exact .inl blocked
          | false => exact .inr (by simpa [blocked] using here)
        | cons d before =>
          obtain ⟨rfl, further⟩ := List.cons.inj split
          simpa using unread before behind further some
  · rintro ⟨front, tail, rest, rfl, nonempty, edge, reads, unread⟩
    obtain ⟨c, tail, rfl⟩ := List.exists_cons_of_ne_nil nonempty
    rw [scanFrom_unread unread, scanFrom, edge, if_neg Bool.false_ne_true, reads]
    rfl

theorem head?_scanFrom_append {own : List Char} {cs : List Char}
    (apart : ∀ front tail, cs = front ++ tail → tail ≠ [] →
      (p (tail ++ own)).map Prod.fst = (p tail).map Prod.fst) :
    (scanFrom edged p inWord 0 (cs ++ own)).head? =
      (scanFrom edged p inWord 0 cs).head?.or
        (scanFrom edged p (lastInWord inWord cs) 0 own).head? := by
  induction cs generalizing inWord with
  | nil => simp [scanFrom_nil]
  | cons c cs ih =>
    have same := apart [] (c :: cs) rfl (List.cons_ne_nil c cs)
    have later : (scanFrom edged p (isWord c) 0 (cs ++ own)).head? =
        (scanFrom edged p (isWord c) 0 cs).head?.or
          (scanFrom edged p (lastInWord (isWord c) cs) 0 own).head? :=
      ih fun front tail split => apart (c :: front) tail (by simp [split])
    rw [List.cons_append] at same ⊢
    rw [scanFrom, scanFrom, lastInWord_cons]
    cases blocked : edged && inWord with
    | true => exact later
    | false =>
      cases reads : p (c :: cs) with
      | none =>
        rw [reads, Option.map_none, Option.map_eq_none_iff] at same
        simpa [same] using later
      | some found =>
        rw [reads, Option.map_some, Option.map_eq_some_iff] at same
        obtain ⟨other, also, same⟩ := same
        simp [also, same]

/-- The pattern reads some characters from the front of a text, and it reads nothing that starts within
them. -/
def Unnested (p : Pattern α) : Prop :=
  ∀ cs a rest, p cs = some (a, rest) → ∃ c read, cs = c :: (read ++ rest) ∧
    ∀ before behind, read = before ++ behind → behind ≠ [] → p (behind ++ rest) = none

/-- The pattern reads the value at some place where it may start, behind the skipped characters. -/
def ReadsIn (edged : Bool) (p : Pattern α) (inWord : Bool) (skip : Nat) (cs : List Char) (a : α) : Prop :=
  ∃ front tail rest, cs = front ++ tail ∧ skip ≤ front.length ∧
    (edged && lastInWord inWord front) = false ∧ p tail = some (a, rest)

theorem readsIn_cons {skip : Nat} {c : Char} {cs : List Char} {a : α} :
    ReadsIn edged p inWord skip (c :: cs) a ↔
      skip = 0 ∧ (edged && inWord) = false ∧ (∃ rest, p (c :: cs) = some (a, rest)) ∨
        ReadsIn edged p (isWord c) (skip - 1) cs a := by
  constructor
  · rintro ⟨front, tail, rest, split, further, edge, reads⟩
    cases front with
    | nil =>
      rw [List.nil_append] at split
      subst split
      exact .inl ⟨Nat.le_zero.mp further, edge, rest, reads⟩
    | cons d front =>
      obtain ⟨rfl, rfl⟩ := List.cons.inj split
      exact .inr ⟨front, tail, rest, rfl, Nat.sub_le_of_le_add further, by simpa using edge, reads⟩
  · rintro (⟨rfl, edge, rest, reads⟩ | ⟨front, tail, rest, rfl, further, edge, reads⟩)
    · exact ⟨[], c :: cs, rest, rfl, Nat.le_refl 0, edge, reads⟩
    · exact ⟨c :: front, tail, rest, rfl, Nat.le_add_of_sub_le further, by simpa using edge, reads⟩

theorem readsIn_skip {read rest : List Char} {a : α}
    (within : ∀ before behind, read = before ++ behind → behind ≠ [] → p (behind ++ rest) = none) :
    ReadsIn edged p inWord read.length (read ++ rest) a ↔ ReadsIn edged p inWord 0 (read ++ rest) a := by
  constructor
  · rintro ⟨front, tail, behind, split, _, found⟩
    exact ⟨front, tail, behind, split, Nat.zero_le _, found⟩
  · rintro ⟨front, tail, behind, split, _, edge, reads⟩
    refine ⟨front, tail, behind, split, ?_, edge, reads⟩
    rcases List.append_eq_append_iff.mp split with ⟨more, rfl, _⟩ | ⟨more, inside, same⟩
    · simp
    · cases more with
      | nil => simp [inside]
      | cons d more =>
        rw [same, within front (d :: more) inside (List.cons_ne_nil d more)] at reads
        cases reads

/-- A scan finds all that the pattern reads anywhere, if no reading starts within another. -/
theorem mem_scanFrom_iff (unnested : Unnested p) {cs : List Char} {skip : Nat} {a : α} :
    a ∈ scanFrom edged p inWord skip cs ↔ ReadsIn edged p inWord skip cs a := by
  induction cs generalizing inWord skip with
  | nil =>
    rw [scanFrom_nil]
    refine iff_of_false List.not_mem_nil ?_
    rintro ⟨front, tail, rest, split, _, _, reads⟩
    obtain ⟨_, _, start, _⟩ := unnested tail a rest reads
    simp [start] at split
  | cons c cs ih =>
    rw [readsIn_cons]
    cases skip with
    | succ skip => simp [scanFrom, ih]
    | zero =>
      rw [scanFrom]
      split
      · rename_i b rest here
        obtain ⟨edge, reads⟩ := Option.ite_none_left_eq_some.mp here
        obtain ⟨_, read, split, within⟩ := unnested _ b rest reads
        obtain ⟨rfl, rfl⟩ := List.cons.inj split
        have skipped : (read ++ rest).length - rest.length = read.length := by simp
        rw [skipped, List.mem_cons, ih, readsIn_skip within]
        simp [edge, reads, eq_comm]
      · rename_i unread
        rw [ih, or_iff_right]
        rintro ⟨_, edge, rest, reads⟩
        simp [edge, reads] at unread

def Unspaced (cs : List Char) : Prop := cs.IsChain fun c d => isWord c = true → isBlank d = false

/-- What stands behind a line: nothing, or the end of the line and a word. -/
def EndsLine (rest : List Char) : Prop :=
  rest = [] ∨ ∃ c cs, rest = '\n' :: c :: cs ∧ isWord c = true

/-- The text starts with one of the words, a gap and a mark. -/
def Announces (words : List (List Char)) (mark : Char → Bool) (cs : List Char) : Prop :=
  cs.takeWhile isWord ∈ words ∧ (∃ c ∈ (cs.dropWhile isWord).head?, isBlank c = true) ∧
    ∃ c ∈ ((cs.dropWhile isWord).dropWhile isBlank).head?, mark c = true

variable {words : List (List Char)} {mark : Char → Bool}

theorem EndsLine.stops_isWord {rest : List Char} (ends : EndsLine rest) : Stops isWord rest := by
  obtain rfl | ⟨c, cs, rfl, _⟩ := ends
  · intro c first
    cases first
  · exact stops_cons (by decide)

theorem not_announces_of_stops {cs : List Char} (some : [] ∉ words) (stops : Stops isWord cs) :
    ¬ Announces words mark cs := by
  rintro ⟨member, _⟩
  rw [(takeWhile_of_stops stops).1] at member
  exact some member

theorem EndsLine.not_marked {rest : List Char} (marks : ∀ c, mark c = true → isWord c = false)
    (ends : EndsLine rest) : ∀ c ∈ (rest.dropWhile isBlank).head?, mark c = false := by
  obtain rfl | ⟨c, cs, rfl, inWord⟩ := ends
  · simp
  · have blank : isBlank c = false := not_isBlank_of_isWord inWord
    have gap : isBlank '\n' = true := by decide
    cases marked : mark c with
    | false => simp [gap, blank, marked]
    | true => exact absurd (marks c marked) (by simp [inWord])

theorem Unspaced.behind_word {c : Char} {cs rest : List Char} (unspaced : Unspaced (c :: cs))
    (inWord : isWord c = true) (ends : EndsLine rest) :
    ((cs ++ rest).dropWhile isWord = rest) ∨
      ∀ d ∈ ((cs ++ rest).dropWhile isWord).head?, isBlank d = false := by
  induction cs generalizing c with
  | nil => exact .inl (takeWhile_of_stops ends.stops_isWord).2
  | cons d cs ih =>
    obtain ⟨solid, further⟩ := List.isChain_cons_cons.mp unspaced
    cases word : isWord d with
    | true => simpa [word] using ih further word
    | false => exact .inr (by simpa [word] using solid inWord)

theorem unspaced_of_not_isBlank {cs : List Char} (solid : ∀ c ∈ cs, isBlank c = false) :
    Unspaced cs := by
  induction cs with
  | nil => exact .nil
  | cons c cs ih =>
    refine List.isChain_cons.mpr ⟨fun d first _ => solid d ?_, ih fun d member => solid d ?_⟩
    · exact List.mem_cons_of_mem _ (List.mem_of_mem_head? first)
    · exact List.mem_cons_of_mem _ member

theorem Unspaced.not_announces {cs rest : List Char} (some : [] ∉ words)
    (marks : ∀ c, mark c = true → isWord c = false) (unspaced : Unspaced cs) (nonempty : cs ≠ [])
    (ends : EndsLine rest) : ¬ Announces words mark (cs ++ rest) := by
  obtain ⟨c, cs, rfl⟩ := List.exists_cons_of_ne_nil nonempty
  cases inWord : isWord c with
  | false => exact not_announces_of_stops some (stops_cons inWord)
  | true =>
    rintro ⟨_, ⟨d, first, blank⟩, e, marked, isMark⟩
    simp only [List.cons_append, List.dropWhile_cons, inWord, if_true] at first marked
    rcases unspaced.behind_word inWord ends with same | solid
    · rw [same] at marked
      simp [ends.not_marked marks e marked] at isMark
    · simp [solid d first] at blank

/-- A pattern that reads only what starts with a word, a gap and a mark. -/
theorem announces_append {word gap rest : List Char} (member : word ∈ words)
    (inWord : word.all isWord = true) (nonempty : gap ≠ []) (blank : gap.all isBlank = true)
    (stops : Stops isBlank rest) (marked : ∃ c ∈ rest.head?, mark c = true) :
    Announces words mark (word ++ (gap ++ rest)) := by
  obtain ⟨c, gap, rfl⟩ := List.exists_cons_of_ne_nil nonempty
  have letters := List.all_eq_true.mp inWord
  have blanks := List.all_eq_true.mp blank
  have first : isBlank c = true := blanks c List.mem_cons_self
  have edge : Stops isWord (c :: (gap ++ rest)) := stops_cons (not_isWord_of_isBlank first)
  obtain ⟨none, whole⟩ := takeWhile_of_stops edge
  rw [List.cons_append]
  refine ⟨?_, ?_, ?_⟩
  · rwa [List.takeWhile_append_of_pos letters, none, List.append_nil]
  · rw [List.dropWhile_append_of_pos letters, whole]
    exact ⟨c, rfl, first⟩
  · rw [List.dropWhile_append_of_pos letters, whole, ← List.cons_append,
      List.dropWhile_append_of_pos blanks, (takeWhile_of_stops stops).2]
    exact marked

def Opens (mark : Char → Bool) (rest : List Char) : Prop :=
  (∃ c ∈ rest.head?, isBlank c = true) ∧ ∃ c ∈ (rest.dropWhile isBlank).head?, mark c = true

theorem announces_word {word rest : List Char} (inWord : ∀ c ∈ word, isWord c = true)
    (stops : Stops isWord rest) :
    Announces words mark (word ++ rest) ↔ word ∈ words ∧ Opens mark rest := by
  obtain ⟨none, whole⟩ := takeWhile_of_stops stops
  rw [Announces, List.takeWhile_append_of_pos inWord, List.dropWhile_append_of_pos inWord, none, whole,
    List.append_nil, Opens]

theorem not_opens {gap rest : List Char} {c : Char} (blank : Blank gap) (solid : isBlank c = false)
    (unmarked : mark c = false) : ¬ Opens mark (gap ++ c :: rest) := by
  rintro ⟨_, d, first, marked⟩
  rw [List.dropWhile_append_of_pos blank, List.dropWhile_cons_of_neg (by simp [solid])] at first
  cases first
  rw [unmarked] at marked
  cases marked

theorem not_opens_of_stops {rest : List Char} (solid : Stops isBlank rest) : ¬ Opens mark rest := by
  rintro ⟨⟨c, first, blank⟩, _⟩
  simp [solid c first] at blank

/-- The pattern reads nothing but what one of the words, a gap and a mark announce. -/
structure AnnouncedBy (p : Pattern α) (words : List (List Char)) (mark : Char → Bool) : Prop where
  nonempty : [] ∉ words
  announced : ∀ cs found, p cs = some found → Announces words mark cs

namespace AnnouncedBy

theorem unread (h : AnnouncedBy p words mark) {cs : List Char} (quiet : ¬ Announces words mark cs) :
    p cs = none := by
  cases reads : p cs with
  | none => rfl
  | some found => exact absurd (h.announced cs found reads) quiet

theorem unread_of_stops (h : AnnouncedBy p words mark) {cs : List Char} (stops : Stops isWord cs) :
    p cs = none :=
  h.unread (not_announces_of_stops h.nonempty stops)

theorem pass_word (h : AnnouncedBy p words mark) {word rest : List Char} (nonempty : word ≠ [])
    (inWord : ∀ c ∈ word, isWord c = true) (stops : Stops isWord rest)
    (quiet : word ∈ words → ¬ Opens mark rest) :
    scanFrom true p false 0 (word ++ rest) = scanFrom true p true 0 rest := by
  have passed : scanFrom true p false 0 (word ++ rest) =
      scanFrom true p (lastInWord false word) 0 rest := by
    refine scanFrom_unread fun before behind split _ => ?_
    cases before with
    | nil =>
      rw [List.nil_append] at split
      subst split
      refine .inr (h.unread fun told => ?_)
      obtain ⟨member, opens⟩ := (announces_word inWord stops).mp told
      exact quiet member opens
    | cons c before =>
      have letters : ∀ d ∈ c :: before, isWord d = true := fun d member =>
        inWord d (by rw [split]; exact List.mem_append_left _ member)
      exact .inl (lastInWord_of_inWord (List.cons_ne_nil c before) letters)
  rwa [lastInWord_of_inWord nonempty inWord] at passed

theorem pass_marks (h : AnnouncedBy p words mark) {marks rest : List Char} (nonempty : marks ≠ [])
    (out : ∀ c ∈ marks, isWord c = false) :
    scanFrom true p inWord 0 (marks ++ rest) = scanFrom true p false 0 rest := by
  have passed : scanFrom true p inWord 0 (marks ++ rest) =
      scanFrom true p (lastInWord inWord marks) 0 rest := by
    refine scanFrom_unread fun before behind split some => ?_
    obtain ⟨c, behind, rfl⟩ := List.exists_cons_of_ne_nil some
    exact .inr (h.unread_of_stops (stops_cons (out c (by simp [split]))))
  have outside : lastInWord inWord marks = false := by
    rw [lastInWord, List.getLast?_eq_some_getLast nonempty]
    exact out _ (List.getLast_mem nonempty)
  rwa [outside] at passed

theorem pass_both (h : AnnouncedBy p words mark) {word marks rest : List Char} (nonempty : word ≠ [])
    (inWord : ∀ c ∈ word, isWord c = true) (some : marks ≠ []) (out : ∀ c ∈ marks, isWord c = false)
    (quiet : word ∈ words → ¬ Opens mark (marks ++ rest)) :
    scanFrom true p false 0 (word ++ (marks ++ rest)) = scanFrom true p false 0 rest := by
  obtain ⟨c, marks, rfl⟩ := List.exists_cons_of_ne_nil some
  have edge : Stops isWord (c :: marks ++ rest) := stops_cons (out c List.mem_cons_self)
  rw [h.pass_word nonempty inWord edge quiet, h.pass_marks some out]

/-- A scan passes over words that are none of those, with what separates them from the next word. -/
theorem pass_other (h : AnnouncedBy p words mark) {word : String} {marks rest : List Char}
    (other : word.toList ∉ words) (nonempty : word.toList ≠ []) (inWord : word.toList.all isWord = true)
    (some : marks ≠ []) (out : (marks.all fun c => !isWord c) = true) :
    scanFrom true p false 0 (word.toList ++ (marks ++ rest)) = scanFrom true p false 0 rest :=
  h.pass_both nonempty (List.all_eq_true.mp inWord) some (not_isWord_of_all out) fun member =>
    absurd member other

end AnnouncedBy

end Transplant.Text
