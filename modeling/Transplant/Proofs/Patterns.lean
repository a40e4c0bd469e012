import Transplant.Text.Pattern

/-! What patterns read. A pattern reads a text just if the text starts in the way that the pattern
says, and a scan finds something just if the pattern reads somewhere. -/
namespace Transplant.Text

theorem blankRanges_has {c : Char} (blank : isBlank c = true) :
    ∃ r ∈ blankRanges, r.1 ≤ c.toNat ∧ c.toNat ≤ r.2 := by
  rw [isBlank, Ranges.has, List.any_eq_true] at blank
  obtain ⟨r, member, inside⟩ := blank
  rw [Bool.and_eq_true, decide_eq_true_iff, decide_eq_true_iff] at inside
  exact ⟨r, member, inside⟩

def blankPoints : List Nat := blankRanges.flatMap fun r => List.range' r.1 (r.2 + 1 - r.1)

/-- What no blank has is told on the blanks one by one. -/
theorem forall_isBlank {p : Char → Bool} (none : ∀ n ∈ blankPoints, p (Char.ofNat n) = false) {c : Char}
    (blank : isBlank c = true) : p c = false := by
  obtain ⟨r, member, low, high⟩ := blankRanges_has blank
  have listed : c.toNat ∈ blankPoints := by
    rw [blankPoints, List.mem_flatMap]
    refine ⟨r, member, ?_⟩
    rw [List.mem_range'_1]
    omega
  have this := none c.toNat listed
  rwa [Char.ofNat_toNat] at this

theorem not_isWord_of_isBlank {c : Char} (blank : isBlank c = true) : isWord c = false :=
  forall_isBlank (by decide +kernel) blank

theorem not_isBlank_of_isWord {c : Char} (word : isWord c = true) : isBlank c = false := by
  cases blank : isBlank c with
  | false => rfl
  | true => simp [not_isWord_of_isBlank blank] at word

namespace Pattern

theorem literalList_eq_some {read cs rest : List Char} :
    literalList read cs = some rest ↔ cs = read ++ rest := by
  induction read generalizing cs with
  | nil => simp [literalList]
  | cons c read ih =>
    cases cs with
    | nil => simp [literalList]
    | cons d cs =>
      rw [literalList]
      split
      · rename_i same
        subst same
        simp [ih]
      · rename_i different
        simp [Ne.symm different]

theorem literal_eq_some {s : String} {cs rest : List Char} {u : Unit} :
    literal s cs = some (u, rest) ↔ cs = s.toList ++ rest := by
  simp [literal, literalList_eq_some]

theorem bind_eq_some {α β : Type} {p : Pattern α} {f : α → Pattern β} {cs rest : List Char} {b : β} :
    (p >>= f) cs = some (b, rest) ↔ ∃ a mid, p cs = some (a, mid) ∧ f a mid = some (b, rest) := by
  change (p cs >>= fun x => f x.1 x.2) = _ ↔ _
  simp [Option.bind_eq_some_iff]

theorem one_eq_some {p : Char → Bool} {c : Char} {cs rest : List Char} :
    one p cs = some (c, rest) ↔ cs = c :: rest ∧ p c = true := by
  cases cs with
  | nil => simp [one]
  | cons d cs =>
    rw [one]
    constructor
    · intro h
      split at h
      · cases h
        exact ⟨rfl, ‹_›⟩
      · cases h
    · rintro ⟨same, out⟩
      cases same
      rw [if_pos out]

theorem atEnd_eq_some {cs rest : List Char} {u : Unit} :
    atEnd cs = some (u, rest) ↔ cs = [] ∧ rest = [] := by
  cases cs <;> simp [atEnd, eq_comm]

theorem pure_eq_some {α : Type} {a b : α} {cs rest : List Char} :
    (pure a : Pattern α) cs = some (b, rest) ↔ a = b ∧ cs = rest := by
  change some (a, cs) = _ ↔ _
  simp

theorem bind_reads {α β : Type} {p : Pattern α} {f : α → Pattern β} {cs : List Char} :
    (∃ found, (p >>= f) cs = some found) ↔
      ∃ a mid, p cs = some (a, mid) ∧ ∃ found, f a mid = some found := by
  constructor
  · rintro ⟨⟨b, rest⟩, h⟩
    obtain ⟨a, mid, first, second⟩ := bind_eq_some.mp h
    exact ⟨a, mid, first, _, second⟩
  · rintro ⟨a, mid, first, ⟨b, rest⟩, second⟩
    exact ⟨(b, rest), bind_eq_some.mpr ⟨a, mid, first, second⟩⟩

theorem either_reads {α : Type} {p q : Pattern α} {cs : List Char} :
    (∃ found, either p q cs = some found) ↔
      (∃ found, p cs = some found) ∨ ∃ found, q cs = some found := by
  cases first : p cs <;> simp [either, first]

theorem atEnd_reads {cs : List Char} : (∃ found, atEnd cs = some found) ↔ cs = [] := by
  cases cs <;> simp [atEnd]

/-- The rest of a text is where a run over a class stops. -/
def Stops (p : Char → Bool) (rest : List Char) : Prop := ∀ c ∈ rest.head?, p c = false

theorem stops_cons {p : Char → Bool} {c : Char} {cs : List Char} (out : p c = false) :
    Stops p (c :: cs) := by
  intro d first
  cases first
  exact out

instance (p : Char → Bool) : (rest : List Char) → Decidable (Stops p rest)
  | [] => .isTrue nofun
  | c :: _ => decidable_of_iff (p c = false) ⟨stops_cons, fun stops => stops c rfl⟩

theorem stops_append {p : Char → Bool} {xs rest : List Char} (none : ∀ c ∈ xs, p c = false)
    (stops : Stops p rest) : Stops p (xs ++ rest) := by
  cases xs with
  | nil => exact stops
  | cons c xs => exact stops_cons (none c List.mem_cons_self)

theorem stops_dropWhile (p : Char → Bool) (cs : List Char) : Stops p (cs.dropWhile p) := by
  intro c first
  have stop := List.head?_dropWhile_not p cs
  rw [Option.mem_def.mp first] at stop
  simpa using stop

theorem takeWhile_of_stops {p : Char → Bool} {rest : List Char} (stops : Stops p rest) :
    rest.takeWhile p = [] ∧ rest.dropWhile p = rest := by
  cases rest with
  | nil => exact ⟨rfl, rfl⟩
  | cons c cs =>
    have out : p c = false := stops c rfl
    simp [out]

theorem run_eq_some {p : Char → Bool} {cs read rest : List Char} :
    run p cs = some (read, rest) ↔ cs = read ++ rest ∧ read.all p = true ∧ Stops p rest := by
  rw [run, Option.some_inj, Prod.mk.injEq]
  constructor
  · rintro ⟨rfl, rfl⟩
    exact ⟨List.takeWhile_append_dropWhile.symm, List.all_takeWhile, stops_dropWhile p cs⟩
  · rintro ⟨rfl, all, stops⟩
    obtain ⟨none, whole⟩ := takeWhile_of_stops stops
    rw [List.all_eq_true] at all
    rw [List.takeWhile_append_of_pos all, List.dropWhile_append_of_pos all, none, whole,
      List.append_nil]
    exact ⟨rfl, rfl⟩

theorem run1_eq_run {p : Char → Bool} {cs read rest : List Char} :
    run1 p cs = some (read, rest) ↔ run p cs = some (read, rest) ∧ read ≠ [] := by
  rw [run1, run]
  split
  · rename_i none
    simp only [none, reduceCtorEq, Option.some.injEq, Prod.mk.injEq, false_iff, not_and]
    rintro ⟨rfl, _⟩
    simp
  · rename_i nonempty
    constructor
    · intro h
      refine ⟨h, ?_⟩
      cases h
      exact nonempty
    · exact fun h => h.1

theorem run1_eq_some {p : Char → Bool} {cs read rest : List Char} :
    run1 p cs = some (read, rest) ↔
      cs = read ++ rest ∧ read.all p = true ∧ Stops p rest ∧ read ≠ [] := by
  rw [run1_eq_run, run_eq_some]
  simp [and_assoc]

theorem blanks_eq_some {cs rest : List Char} {u : Unit} :
    blanks cs = some (u, rest) ↔
      ∃ read, cs = read ++ rest ∧ read.all isBlank = true ∧ Stops isBlank rest := by
  rw [blanks, bind_eq_some]
  constructor
  · rintro ⟨read, mid, ran, last⟩
    obtain ⟨_, rfl⟩ := pure_eq_some.mp last
    exact ⟨read, run_eq_some.mp ran⟩
  · rintro ⟨read, h⟩
    exact ⟨read, rest, run_eq_some.mpr h, rfl⟩

theorem blanks1_eq_some {cs rest : List Char} {u : Unit} :
    blanks1 cs = some (u, rest) ↔
      ∃ read, cs = read ++ rest ∧ read.all isBlank = true ∧ Stops isBlank rest ∧ read ≠ [] := by
  rw [blanks1, bind_eq_some]
  constructor
  · rintro ⟨read, mid, ran, last⟩
    obtain ⟨_, rfl⟩ := pure_eq_some.mp last
    exact ⟨read, run1_eq_some.mp ran⟩
  · rintro ⟨read, h⟩
    exact ⟨read, rest, run1_eq_some.mpr h, rfl⟩

theorem wordEnd_eq_some {cs rest : List Char} {u : Unit} :
    wordEnd cs = some (u, rest) ↔ cs = rest ∧ Stops isWord rest := by
  cases cs with
  | nil =>
    have nothing : Stops isWord [] := by simp [Stops]
    constructor
    · intro h
      cases h
      exact ⟨rfl, nothing⟩
    · rintro ⟨rfl, _⟩
      rfl
  | cons c cs =>
    rw [wordEnd]
    constructor
    · intro h
      obtain ⟨out, same⟩ := Option.ite_none_left_eq_some.mp h
      cases same
      exact ⟨rfl, stops_cons (by simpa using out)⟩
    · rintro ⟨rfl, stops⟩
      rw [if_neg (by simp [stops c rfl])]

theorem maybe_eq_none {α : Type} {p : Pattern α} {cs : List Char} (none : p cs = none) :
    maybe p cs = some (Option.none, cs) := by
  rw [maybe, none]

theorem either_eq_some {α : Type} {p q : Pattern α} {cs : List Char} {found : α × List Char} :
    either p q cs = some found ↔ p cs = some found ∨ p cs = none ∧ q cs = some found := by
  cases first : p cs <;> simp [either, first]

/-- Of patterns in turn one reads, if all that read a text read the same. -/
theorem oneOf_eq_some {α : Type} {ps : List (Pattern α)} {p : Pattern α} {cs : List Char}
    {found : α × List Char} (member : p ∈ ps) (reads : p cs = some found)
    (only : ∀ q ∈ ps, ∀ other, q cs = some other → other = found) : oneOf ps cs = some found := by
  induction ps with
  | nil => cases member
  | cons q ps ih =>
    rw [oneOf, either]
    cases first : q cs with
    | some other => rw [only q List.mem_cons_self other first]
    | none =>
      rcases List.mem_cons.mp member with rfl | member
      · rw [reads] at first
        cases first
      · exact ih member fun q' inside => only q' (List.mem_cons_of_mem _ inside)

theorem exists_of_oneOf {α : Type} {ps : List (Pattern α)} {cs : List Char} {found : α × List Char}
    (reads : oneOf ps cs = some found) : ∃ p ∈ ps, p cs = some found := by
  induction ps with
  | nil => cases reads
  | cons q ps ih =>
    rw [oneOf, either] at reads
    cases first : q cs with
    | some other =>
      rw [first] at reads
      cases reads
      exact ⟨q, List.mem_cons_self, first⟩
    | none =>
      rw [first] at reads
      obtain ⟨p, member, here⟩ := ih reads
      exact ⟨p, List.mem_cons_of_mem _ member, here⟩

end Pattern

theorem getLast?_cons_map (p : Char → Bool) (c : Char) (front : List Char) (before : Bool) :
    (((c :: front).getLast?).map p).getD before = (front.getLast?.map p).getD (p c) := by
  cases front with
  | nil => rfl
  | cons d front => rw [List.getLast?_cons_cons, List.getLast?_eq_some_getLast (by simp)]; rfl

/-- A scan for words finds something just if the pattern reads behind no word character. -/
theorem scanFrom_ne_nil {α : Type} {p : Pattern α} {inWord : Bool} {cs : List Char} :
    scanFrom true p inWord 0 cs ≠ [] ↔ ∃ front tail found, cs = front ++ tail ∧ tail ≠ [] ∧
      (front.getLast?.map isWord).getD inWord = false ∧ p tail = some found := by
  induction cs generalizing inWord with
  | nil => simp [scanFrom]
  | cons c cs ih =>
    have further : scanFrom true p (isWord c) 0 cs ≠ [] → ∃ front tail found,
        c :: cs = front ++ tail ∧ tail ≠ [] ∧
          (front.getLast?.map isWord).getD inWord = false ∧ p tail = some found := by
      intro h
      obtain ⟨front, tail, found, rfl, nonempty, edge, reads⟩ := ih.mp h
      exact ⟨c :: front, tail, found, rfl, nonempty, by rwa [getLast?_cons_map], reads⟩
    rw [scanFrom, Bool.true_and]
    constructor
    · intro h
      split at h
      · rename_i a rest here
        cases inWord with
        | true => cases here
        | false => exact ⟨[], c :: cs, (a, rest), rfl, by simp, rfl, here⟩
      · exact further h
    · rintro ⟨front, tail, found, split, nonempty, edge, reads⟩
      cases front with
      | nil =>
        rw [List.nil_append] at split
        subst split
        have start : inWord = false := edge
        simp [start, reads]
      | cons d front =>
        obtain ⟨rfl, rfl⟩ := List.cons.inj split
        rw [getLast?_cons_map] at edge
        have later := ih.mpr ⟨front, tail, found, rfl, nonempty, edge, reads⟩
        split
        · simp
        · exact later

end Transplant.Text
