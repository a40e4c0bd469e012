import Transplant.Proofs.ClassText

/-! Controllers of a text of filters and methods. A method is a line that names it, look-ups, and its `end`;
a filter is a line of its own. Names are any words, those of other directives too, but a filter is not named
`def` by itself, since the next line would then name a method. The controller has all methods and all filters
in the order of the lines, and the type that is looked up first. -/
namespace Transplant.Rails.Controller

open Text Text.Pattern ClassText
open Route (Word)

/-- What may stand behind the word of a name. -/
inductive Ending where
  | plain
  | bang
  | question

def Ending.chars : Ending → List Char
  | plain => []
  | bang => ['!']
  | question => ['?']

structure FilterName where
  word : Word
  ending : Ending
  other : word.chars ++ ending.chars ≠ "def".toList

def FilterName.chars (n : FilterName) : List Char := n.word.chars ++ n.ending.chars

def isNameStart (c : Char) : Bool := c.isAlpha || c = '_'

structure MethodName where
  first : Char
  more : List Char
  ending : Ending
  starts : isNameStart first = true
  inWord : ∀ c ∈ more, isWord c = true

def MethodName.chars (n : MethodName) : List Char := n.first :: n.more ++ n.ending.chars

inductive FilterKeyword where
  | action
  | filter

def FilterKeyword.keyword : FilterKeyword → String
  | action => "before_action"
  | filter => "before_filter"

structure Filter where
  keyword : FilterKeyword
  gap : Gap
  name : FilterName

structure Method where
  gap : Gap
  onClass : Bool
  name : MethodName

structure Finder where
  assigned : Word
  before : Blanks
  after : Blanks
  type : Word

def Finder.chars (f : Finder) : List Char :=
  '@' :: (f.assigned.chars ++ (f.before.chars ++ '=' :: (f.after.chars ++ (f.type.chars ++ ".find".toList))))

inductive Statement where
  | filter (f : Filter)
  | method (m : Method)
  | finder (f : Finder)
  | close

namespace Statement

def chars : Statement → List Char
  | filter f => f.keyword.keyword.toList ++ (f.gap.chars ++ ':' :: f.name.chars)
  | method m => "def".toList ++ (m.gap.chars ++ ((if m.onClass then "self.".toList else []) ++ m.name.chars))
  | finder f => f.chars ++ "(params[:id])".toList
  | close => "end".toList

def action? : Statement → Option String
  | method m => some (.ofList m.name.chars)
  | _ => none

def filter? : Statement → Option String
  | filter f => some (.ofList f.name.chars)
  | _ => none

def type? : Statement → Option String
  | finder f => some (.ofList f.type.chars)
  | _ => none

end Statement

/-- A method with its look-ups and its end, or a filter. -/
inductive Item where
  | filter (f : Line Filter)
  | method (head : Line Method) (finders : List (Line Finder)) (close : Line Unit)

namespace Item

def lines : Item → List (Line Statement)
  | filter f => [f.map .filter]
  | method head finders close =>
    head.map .method :: (finders.map fun l => l.map .finder) ++ [close.map fun _ => .close]

def head : Item → Statement
  | filter f => .filter f.content
  | method head _ _ => .method head.content

/-- What is looked up, one type for each look-up. -/
def types : Item → List String
  | filter _ => []
  | method _ finders _ => finders.map fun l => .ofList l.content.type.chars

end Item

structure ControllerName extends Word where
  fits : isControllerName chars = true

section

variable (rest : List Char)

theorem MethodName.chars_append (n : MethodName) :
    n.chars ++ rest = (n.first :: n.more) ++ (n.ending.chars ++ rest) :=
  List.append_assoc _ _ _

theorem Statement.filter_append (f : Filter) : (filter f).chars ++ rest =
    f.keyword.keyword.toList ++
      (f.gap.chars ++ ':' :: (f.name.word.chars ++ (f.name.ending.chars ++ rest))) := by
  change f.keyword.keyword.toList ++
    (f.gap.chars ++ ':' :: (f.name.word.chars ++ f.name.ending.chars)) ++ rest = _
  simp only [List.append_assoc, List.cons_append]

theorem Statement.method_append (m : Method) : (method m).chars ++ rest = "def".toList ++ (m.gap.chars ++
    ((if m.onClass then "self.".toList else []) ++ (m.name.chars ++ rest))) := by
  change "def".toList ++
    (m.gap.chars ++ ((if m.onClass then "self.".toList else []) ++ m.name.chars)) ++ rest = _
  simp only [List.append_assoc]

theorem Finder.chars_append (f : Finder) : f.chars ++ rest = '@' :: (f.assigned.chars ++
    (f.before.chars ++ '=' :: (f.after.chars ++ (f.type.chars ++ (".find".toList ++ rest))))) := by
  rw [Finder.chars]
  simp only [List.append_assoc, List.cons_append]

theorem Statement.finder_append (f : Finder) :
    (finder f).chars ++ rest = f.chars ++ ("(params[:id])".toList ++ rest) :=
  List.append_assoc _ _ _

end

theorem isWord_of_isNameStart {c : Char} (start : isNameStart c = true) : isWord c = true := by
  rw [isNameStart, Bool.or_eq_true, decide_eq_true_eq] at start
  rcases start with alpha | rfl
  · have low : c.toNat < 0x80 := by
      rcases Bool.or_eq_true_iff.mp alpha with upper | lower
      · have most : c.val ≤ 'Z'.val := (of_decide_eq_true upper).2
        exact Nat.lt_of_le_of_lt (UInt32.le_iff_toNat_le.mp most) (by decide)
      · have most : c.val ≤ 'z'.val := of_decide_eq_true (Bool.and_eq_true_iff.mp lower).2
        exact Nat.lt_of_le_of_lt (UInt32.le_iff_toNat_le.mp most) (by decide)
    rw [isWord, if_pos low, isAsciiWord, Char.isAlphanum, alpha]
    rfl
  · decide

theorem Ending.out (e : Ending) :
    ∀ c ∈ e.chars, isWord c = false ∧ isBlank c = false ∧ c ≠ '.' ∧ c ≠ '@' := by
  cases e with
  | plain => exact List.forall_mem_nil _
  | bang => exact List.forall_mem_singleton.mpr (by decide)
  | question => exact List.forall_mem_singleton.mpr (by decide)

theorem Ending.stops (e : Ending) {rest : List Char} (stops : Stops isWord rest) :
    Stops isWord (e.chars ++ rest) :=
  stops_append (fun c member => (e.out c member).1) stops

def isMark (c : Char) : Bool := c = '!' || c = '?'

theorem mark_ending (e : Ending) {rest : List Char} (stops : Stops isMark rest) :
    mark (e.chars ++ rest) = some (e.chars, rest) := by
  cases e with
  | plain =>
    have none : one isMark rest = Option.none := by
      cases rest with
      | nil => rfl
      | cons c rest => simp [one, stops c rfl]
    exact bind_eq_some.mpr ⟨Option.none, rest, maybe_eq_none none, rfl⟩
  | bang => rfl
  | question => rfl

theorem stops_isMark {rest : List Char} (resumes : Resumes rest) : Stops isMark rest := by
  obtain ⟨gap, c, cs, rfl, some, blank, _⟩ := resumes
  obtain ⟨d, gap, rfl⟩ := List.exists_cons_of_ne_nil some
  exact stops_cons (forall_isBlank (by decide) (blank d List.mem_cons_self))

theorem methodName_chars (n : MethodName) {rest : List Char} (resumes : Resumes rest) :
    methodName (n.chars ++ rest) = some (.ofList n.chars, rest) := by
  have stops := n.ending.stops resumes.stops_isWord
  rw [n.chars_append, List.cons_append, methodName]
  simp only [bind_eq_some, one_eq_some, run_eq_some, pure_eq_some, List.all_eq_true]
  exact ⟨n.first, _, ⟨rfl, n.starts⟩, n.more, _, ⟨rfl, n.inWord, stops⟩, n.ending.chars, rest,
    mark_ending n.ending (stops_isMark resumes), rfl, rfl⟩

theorem methodName_starts {s : String} {cs rest : List Char} (reads : methodName cs = some (s, rest)) :
    ∃ c ∈ cs.head?, isNameStart c = true := by
  obtain ⟨c, _, read, _⟩ := bind_eq_some.mp reads
  obtain ⟨rfl, start⟩ := one_eq_some.mp read
  exact ⟨c, rfl, start⟩

theorem MethodName.point_not_mem (n : MethodName) : '.' ∉ n.chars := by
  have start : isNameStart '.' = false := by decide
  have word : isWord '.' = false := by decide
  rw [MethodName.chars, List.cons_append, List.mem_cons, List.mem_append, not_or, not_or]
  refine ⟨?_, ?_, fun member => (n.ending.out '.' member).2.2.1 rfl⟩
  · intro same
    rw [same, n.starts] at start
    cases start
  · intro member
    simp [n.inWord '.' member] at word

theorem not_self (n : MethodName) {rest : List Char} (resumes : Resumes rest) :
    literal "self." (n.chars ++ rest) = none := by
  cases reads : literal "self." (n.chars ++ rest) with
  | none => rfl
  | some found =>
    obtain ⟨gap, c, cs, rfl, some, blank, _⟩ := resumes
    obtain ⟨d, gap, rfl⟩ := List.exists_cons_of_ne_nil some
    have solid : ("self.".toList.all fun e => !isBlank e) = true := by decide
    have outside : d ∉ "self.".toList := fun inside => by
      simpa [blank d List.mem_cons_self] using List.all_eq_true.mp solid d inside
    obtain ⟨more, self, _⟩ := within_of_not_mem outside (literal_eq_some.mp reads)
    have point : '.' ∈ n.chars := by
      rw [self]
      exact List.mem_append_left _ (by decide)
    exact absurd point n.point_not_mem

theorem method_line (m : Method) {rest : List Char} (resumes : Resumes rest) :
    method ((Statement.method m).chars ++ rest) = some (.ofList m.name.chars, rest) := by
  have named := methodName_chars m.name resumes
  obtain ⟨gap, onClass, name⟩ := m
  have solid : isBlank name.first = false := not_isBlank_of_isWord (isWord_of_isNameStart name.starts)
  rw [Statement.method_append, method]
  simp only [bind_eq_some, literal_eq_some, blanks1_eq_some, either_eq_some, List.all_eq_true]
  cases onClass with
  | true =>
    exact ⟨(), _, rfl, (), _, ⟨gap.chars, rfl, gap.blank, stops_cons (by decide), gap.nonempty⟩,
      .inl ⟨(), _, rfl, named⟩⟩
  | false =>
    have bare : (literal "self." >>= fun _ => methodName) (name.chars ++ rest) = none := by
      cases reads : (literal "self." >>= fun _ => methodName) (name.chars ++ rest) with
      | none => rfl
      | some found =>
        obtain ⟨_, _, self, _⟩ := bind_eq_some.mp reads
        rw [not_self name resumes] at self
        cases self
    exact ⟨(), _, rfl, (), _, ⟨gap.chars, rfl, gap.blank, stops_cons solid, gap.nonempty⟩,
      .inr ⟨bare, named⟩⟩

theorem method_announcedBy : AnnouncedBy method ["def".toList] isNameStart where
  nonempty := by decide
  announced cs found reads := by
    obtain ⟨s, behind⟩ := found
    rw [method] at reads
    simp only [bind_eq_some, literal_eq_some, blanks1_eq_some, either_eq_some] at reads
    obtain ⟨_, _, rfl, _, named, ⟨gap, rfl, blank, stops, some⟩, reads⟩ := reads
    have start : ∃ c ∈ named.head?, isNameStart c = true := by
      rcases reads with ⟨_, _, rfl, _⟩ | ⟨_, reads⟩
      · exact ⟨'s', rfl, by decide⟩
      · exact methodName_starts reads
    exact announces_append List.mem_cons_self (by decide) some blank stops start

theorem either_keyword {cs rest : List Char} {u : Unit} :
    either (literal "action") (literal "filter") cs = some (u, rest) ↔
      ∃ k : FilterKeyword, "before_".toList ++ cs = k.keyword.toList ++ rest := by
  have action : "before_action".toList = "before_".toList ++ "action".toList := by decide
  have filter : "before_filter".toList = "before_".toList ++ "filter".toList := by decide
  simp only [either_eq_some, literal_eq_some]
  constructor
  · rintro (rfl | ⟨_, rfl⟩)
    · exact ⟨.action, by rw [FilterKeyword.keyword, action, List.append_assoc]⟩
    · exact ⟨.filter, by rw [FilterKeyword.keyword, filter, List.append_assoc]⟩
  · rintro ⟨_ | _, split⟩
    · rw [FilterKeyword.keyword, action, List.append_assoc] at split
      exact .inl (List.append_cancel_left split)
    · rw [FilterKeyword.keyword, filter, List.append_assoc] at split
      have same := List.append_cancel_left split
      refine .inr ⟨?_, same⟩
      rw [same]
      rfl

theorem filter_announcedBy :
    AnnouncedBy filter ["before_action".toList, "before_filter".toList] isColon where
  nonempty := by decide
  announced cs found reads := by
    obtain ⟨s, behind⟩ := found
    rw [filter] at reads
    simp only [bind_eq_some, literal_eq_some, either_keyword, blanks1_eq_some, List.all_eq_true] at reads
    obtain ⟨_, _, rfl, _, _, ⟨k, split⟩, _, _, ⟨gap, rfl, blank, _, some⟩, _, _, rfl, _⟩ := reads
    rw [split]
    cases k with
    | action => exact announces_symbol List.mem_cons_self (by decide) ⟨⟨gap, blank⟩, some⟩ _
    | filter =>
      have member : "before_filter".toList ∈ ["before_action".toList, "before_filter".toList] := by simp
      exact announces_symbol member (by decide) ⟨⟨gap, blank⟩, some⟩ _

theorem filter_line (f : Filter) {rest : List Char} (resumes : Resumes rest) :
    filter ((Statement.filter f).chars ++ rest) = some (.ofList f.name.chars, rest) := by
  obtain ⟨k, gap, name⟩ := f
  obtain ⟨tail, split⟩ : ∃ tail, k.keyword.toList = "before_".toList ++ tail := by
    cases k with
    | action => exact ⟨"action".toList, by decide⟩
    | filter => exact ⟨"filter".toList, by decide⟩
  have letters : ∀ c ∈ name.word.chars, isWord c = true := name.word.inWord
  rw [Statement.filter_append, filter]
  simp only [bind_eq_some, literal_eq_some, either_keyword, blanks1_eq_some, word, run1_eq_some,
    pure_eq_some, List.all_eq_true]
  refine ⟨(), tail ++ (gap.chars ++ ':' :: (name.word.chars ++ (name.ending.chars ++ rest))), ?_, (), _,
    ⟨k, ?_⟩, (), _, ⟨gap.chars, rfl, gap.blank, stops_cons (by decide), gap.nonempty⟩, (), _, rfl,
    name.word.chars, _, ⟨rfl, letters, name.ending.stops resumes.stops_isWord, name.word.nonempty⟩,
    name.ending.chars, rest, mark_ending name.ending (stops_isMark resumes), rfl, rfl⟩
  · rw [split, List.append_assoc]
  · rw [split, List.append_assoc]
    rfl

namespace FilterKeyword

theorem inWord (k : FilterKeyword) : ∀ c ∈ k.keyword.toList, isWord c = true := by
  refine List.all_eq_true.mp ?_
  cases k <;> decide

theorem ne_nil (k : FilterKeyword) : k.keyword.toList ≠ [] := by
  cases k <;> decide

end FilterKeyword

section

variable {α : Type} {p : Pattern α} {words : List (List Char)} {mark : Char → Bool}

/-- A name announces nothing if it does not without an ending. -/
theorem pass_name (h : AnnouncedBy p words mark) {name : List Char} (nonempty : name ≠ [])
    (inWord : ∀ c ∈ name, isWord c = true) (e : Ending) {rest : List Char} (resumes : Resumes rest)
    (quiet : e.chars = [] → name ∈ words → ¬ Opens mark rest) : ∃ inWord,
      scanFrom true p false 0 (name ++ (e.chars ++ rest)) = scanFrom true p inWord 0 rest := by
  cases ending : e.chars with
  | nil => exact ⟨true, h.pass_word nonempty inWord resumes.stops_isWord (quiet ending)⟩
  | cons c cs =>
    have out := e.out
    rw [ending] at out
    have solid : Stops isBlank (c :: cs ++ rest) := stops_cons (out c List.mem_cons_self).2.1
    exact ⟨false, h.pass_both nonempty inWord (by simp) (fun d member => (out d member).1) fun _ =>
      not_opens_of_stops solid⟩

theorem pass_filter (h : AnnouncedBy p words mark) (f : Filter)
    (other : f.keyword.keyword.toList ∉ words) {rest : List Char} (resumes : Resumes rest)
    (quiet : f.name.word.chars ∈ words → f.name.ending.chars = [] → ¬ Opens mark rest) : ∃ inWord,
      scanFrom true p false 0 ((Statement.filter f).chars ++ rest) = scanFrom true p inWord 0 rest := by
  have line : (Statement.filter f).chars ++ rest = f.keyword.keyword.toList ++ ((f.gap.chars ++ [':']) ++
      (f.name.word.chars ++ (f.name.ending.chars ++ rest))) := by
    rw [Statement.filter_append, List.append_assoc f.gap.chars, List.singleton_append]
  rw [line, h.pass_both f.keyword.ne_nil f.keyword.inWord (by simp) (mark_out f.gap.blank (by decide))
    fun member => absurd member other]
  exact pass_name h f.name.word.nonempty f.name.word.inWord f.name.ending resumes fun plain member =>
    quiet member plain

theorem pass_method (h : AnnouncedBy p words isColon) (m : Method) (others : ∀ w ∈ ["def", "self"],
      w.toList ∉ words) {rest : List Char} (resumes : Resumes rest) : ∃ inWord,
      scanFrom true p false 0 ((Statement.method m).chars ++ rest) = scanFrom true p inWord 0 rest := by
  obtain ⟨gap, onClass, name⟩ := m
  have out : ∀ c ∈ gap.chars, isWord c = false := fun c member =>
    not_isWord_of_isBlank (gap.blank c member)
  have named : ∃ inWord, scanFrom true p false 0 (name.chars ++ rest) = scanFrom true p inWord 0 rest := by
    rw [name.chars_append]
    refine pass_name h (by simp) ?_ name.ending resumes fun _ _ => resumes.not_opens fun _ =>
      not_isColon_of_startsLine
    rw [List.forall_mem_cons]
    exact ⟨isWord_of_isNameStart name.starts, name.inWord⟩
  have first : scanFrom true p false 0 ((Statement.method ⟨gap, onClass, name⟩).chars ++ rest) =
      scanFrom true p false 0 ((if onClass then "self.".toList else []) ++ (name.chars ++ rest)) := by
    rw [Statement.method_append, h.pass_other (others "def" (by simp)) (by decide) (by decide) gap.nonempty
      (by simpa using out)]
  rw [first]
  cases onClass with
  | false => exact named
  | true =>
    have self : "self.".toList ++ (name.chars ++ rest) = "self".toList ++ (['.'] ++ (name.chars ++ rest)) :=
      rfl
    rw [if_pos rfl, self, h.pass_other (others "self" (by simp)) (by decide) (by decide) (by simp) (by decide)]
    exact named

theorem pass_finder (h : AnnouncedBy p words mark) (f : Finder) (others : ∀ w ∈ ["find", "params", "id"],
      w.toList ∉ words) (unmarked : mark '=' = false) (rest : List Char) :
    scanFrom true p false 0 ((Statement.finder f).chars ++ rest) = scanFrom true p false 0 rest := by
  have line : (Statement.finder f).chars ++ rest = ['@'] ++ (f.assigned.chars ++
      ((f.before.chars ++ '=' :: f.after.chars) ++ (f.type.chars ++ (['.'] ++ ("find".toList ++ (['('] ++
        ("params".toList ++ (['[', ':'] ++ ("id".toList ++ ([']', ')'] ++ rest)))))))))) := by
    rw [Statement.finder_append, Finder.chars_append, List.append_assoc f.before.chars]
    rfl
  have equals : ∀ c ∈ f.before.chars ++ '=' :: f.after.chars, isWord c = false := by
    rw [List.forall_mem_append, List.forall_mem_cons]
    exact ⟨fun c member => not_isWord_of_isBlank (f.before.blank c member), by decide,
      fun c member => not_isWord_of_isBlank (f.after.blank c member)⟩
  have assigned (tail : List Char) : ¬ Opens mark ((f.before.chars ++ '=' :: f.after.chars) ++ tail) := by
    rw [List.append_assoc]
    exact not_opens f.before.blank (by decide) unmarked
  have found (tail : List Char) : ¬ Opens mark (['.'] ++ tail) := not_opens_of_stops (stops_cons (by decide))
  rw [line, h.pass_marks (by simp) (not_isWord_of_all (by decide)),
    h.pass_both f.assigned.nonempty f.assigned.inWord (by simp) equals fun _ => assigned _,
    h.pass_both f.type.nonempty f.type.inWord (by simp) (not_isWord_of_all (by decide)) fun _ => found _,
    h.pass_other (others "find" (by simp)) (by decide) (by decide) (by simp) (by decide),
    h.pass_other (others "params" (by simp)) (by decide) (by decide) (by simp) (by decide),
    h.pass_other (others "id" (by simp)) (by decide) (by decide) (by simp) (by decide)]

theorem pass_close (h : AnnouncedBy p words mark) (other : "end".toList ∉ words) {rest : List Char}
    (resumes : Resumes rest) :
    scanFrom true p false 0 (Statement.close.chars ++ rest) = scanFrom true p true 0 rest :=
  h.pass_word (by decide) (List.all_eq_true.mp (by decide)) resumes.stops_isWord fun member =>
    absurd member other

end

namespace Statement

theorem starts (s : Statement) : ∃ c cs, s.chars = c :: cs ∧ startsLine c = true := by
  cases s with
  | filter f =>
    obtain ⟨c, cs, first⟩ := List.exists_cons_of_ne_nil f.keyword.ne_nil
    have word : isWord c = true := f.keyword.inWord c (by simp [first])
    exact ⟨c, _, by rw [chars, first, List.cons_append], by simp [startsLine, word]⟩
  | method m => exact ⟨'d', _, rfl, by decide⟩
  | finder f => exact ⟨'@', _, rfl, by decide⟩
  | close => exact ⟨'e', _, rfl, by decide⟩

theorem ne_nil (s : Statement) : s.chars ≠ [] := by
  obtain ⟨c, cs, first, _⟩ := s.starts
  simp [first]

end Statement

theorem method_meets : Meets .controller Statement.chars true method Statement.action? := by
  refine meets_of_announcedBy method_announcedBy (by decide) (by decide) Statement.starts ?_
  intro s rest resumes
  cases s with
  | filter f =>
    have other : f.keyword.keyword.toList ∉ ["def".toList] := by
      cases f.keyword <;> decide
    refine pass_filter method_announcedBy f other resumes fun member plain => ?_
    have same : f.name.word.chars ++ f.name.ending.chars = "def".toList := by
      rw [List.mem_singleton.mp member, plain, List.append_nil]
    exact absurd same f.name.other
  | method m => exact ⟨_, scanFrom_found rfl (Statement.ne_nil _) (method_line m resumes)⟩
  | finder f => exact ⟨false, pass_finder method_announcedBy f (by decide) (by decide) rest⟩
  | close => exact ⟨true, pass_close method_announcedBy (by decide) resumes⟩

theorem filter_meets : Meets .controller Statement.chars true filter Statement.filter? := by
  refine meets_of_announcedBy filter_announcedBy (by decide) (by decide) Statement.starts ?_
  intro s rest resumes
  cases s with
  | filter f => exact ⟨_, scanFrom_found rfl (Statement.ne_nil _) (filter_line f resumes)⟩
  | method m => exact pass_method filter_announcedBy m (by decide) resumes
  | finder f => exact ⟨false, pass_finder filter_announcedBy f (by decide) (by decide) rest⟩
  | close => exact ⟨true, pass_close filter_announcedBy (by decide) resumes⟩

theorem finder_at {found : String × List Char} {cs : List Char} (reads : finder cs = some found) :
    cs.head? = some '@' := by
  obtain ⟨s, behind⟩ := found
  obtain ⟨_, _, sign, _⟩ := bind_eq_some.mp reads
  rw [literal_eq_some.mp sign]
  rfl

theorem pass_finderless {inWord : Bool} {front : List Char} (none : '@' ∉ front) (rest : List Char) :
    scanFrom false finder inWord 0 (front ++ rest) =
      scanFrom false finder (lastInWord inWord front) 0 rest := by
  refine scanFrom_unread fun before behind split some => ?_
  obtain ⟨c, behind, rfl⟩ := List.exists_cons_of_ne_nil some
  cases reads : finder (c :: behind ++ rest) with
  | none => exact .inr rfl
  | some found =>
    have sign : c = '@' := Option.some.inj (finder_at reads)
    exact absurd (by simp [split, sign]) none

theorem finder_line (f : Finder) (rest : List Char) :
    finder (f.chars ++ rest) = some (.ofList f.type.chars, rest) := by
  obtain ⟨t, ts, type⟩ := List.exists_cons_of_ne_nil f.type.nonempty
  have solid : isBlank t = false := not_isBlank_of_isWord (f.type.inWord t (by simp [type]))
  have named : Stops isBlank (f.type.chars ++ (".find".toList ++ rest)) := by
    rw [type]
    exact stops_cons solid
  have equals : Stops isWord (f.before.chars ++
      '=' :: (f.after.chars ++ (f.type.chars ++ (".find".toList ++ rest)))) :=
    stops_append (fun c member => not_isWord_of_isBlank (f.before.blank c member)) (stops_cons (by decide))
  rw [Finder.chars_append, finder]
  simp only [bind_eq_some, literal_eq_some, blanks_eq_some, word, run1_eq_some, pure_eq_some,
    List.all_eq_true]
  exact ⟨(), _, rfl, f.assigned.chars, _, ⟨rfl, f.assigned.inWord, equals, f.assigned.nonempty⟩, (), _,
    ⟨f.before.chars, rfl, f.before.blank, stops_cons (by decide)⟩, (), _, rfl, (), _,
    ⟨f.after.chars, rfl, f.after.blank, named⟩, f.type.chars, _,
    ⟨rfl, f.type.inWord, stops_cons (by decide), f.type.nonempty⟩, (), _, rfl, rfl, rfl⟩

theorem at_not_mem_word {cs : List Char} (inWord : ∀ c ∈ cs, isWord c = true) : '@' ∉ cs := fun member =>
  absurd (inWord '@' member) (by decide)

theorem at_not_mem_blank {cs : List Char} (blank : Blank cs) : '@' ∉ cs := fun member =>
  absurd (blank '@' member) (by decide)

theorem at_not_mem_ending (e : Ending) : '@' ∉ e.chars := fun member => (e.out '@' member).2.2.2 rfl

/-- Variables are set in look-ups alone. -/
theorem Statement.at_not_mem {s : Statement} (none : s.type? = none) : '@' ∉ s.chars := by
  cases s with
  | filter f =>
    have parts := And.intro (at_not_mem_word f.keyword.inWord) <| And.intro (at_not_mem_blank f.gap.blank) <|
      And.intro (at_not_mem_word f.name.word.inWord) (at_not_mem_ending f.name.ending)
    change '@' ∉ f.keyword.keyword.toList ++ (f.gap.chars ++ ':' :: (f.name.word.chars ++ f.name.ending.chars))
    simpa using parts
  | method m =>
    have first : m.name.first ≠ '@' := fun same =>
      absurd (isWord_of_isNameStart m.name.starts) (by rw [same]; decide)
    have parts := And.intro (at_not_mem_blank m.gap.blank) <| And.intro first.symm <|
      And.intro (at_not_mem_word m.name.inWord) (at_not_mem_ending m.name.ending)
    change '@' ∉ "def".toList ++ (m.gap.chars ++ ((if m.onClass then "self.".toList else []) ++
      (m.name.first :: m.name.more ++ m.name.ending.chars)))
    cases m.onClass <;> simpa using parts
  | finder f => cases none
  | close => decide

theorem finder_meets : Meets .controller Statement.chars false finder Statement.type? where
  starts := Statement.starts
  blank c cs blank := by
    cases reads : finder (c :: cs) with
    | none => rfl
    | some found =>
      have sign : c = '@' := Option.some.inj (finder_at reads)
      rw [sign] at blank
      exact absurd blank (by decide)
  opened name rest _ := by
    have line : opening .controller name rest =
        opening .controller name [] ++ rest := by
      simp [opening]
    have quiet : '@' ∉ opening .controller name [] := by
      have word := at_not_mem_word name.inWord
      simpa [opening, Kind.base] using word
    exact ⟨_, by rw [line, pass_finderless quiet]⟩
  line s rest _ := by
    cases told : s.type? with
    | none => exact ⟨_, pass_finderless (Statement.at_not_mem told) rest⟩
    | some type =>
      cases s with
      | finder f =>
        cases told
        have quiet : '@' ∉ "(params[:id])".toList := by decide
        have nonempty : f.chars ≠ [] := List.cons_ne_nil _ _
        rw [Statement.finder_append, scanFrom_found (Bool.false_and false) nonempty (finder_line f _),
          pass_finderless quiet]
        exact ⟨_, rfl⟩
      | _ => cases told
  closed rest _ := ⟨_, pass_finderless (by decide) rest⟩

/-- The controller of a class has its name and all that its lines tell, and the type of the first look-up. -/
theorem ofText?_statements (name : ControllerName) (lines : List (Line Statement)) (last : Blanks) :
    ofText? (textOf .controller name.toWord Statement.chars lines last) = some
      { name := .ofList name.chars
        actions := lines.filterMap fun l => l.content.action?
        filters := lines.filterMap fun l => l.content.filter?
        inferredModel := (lines.filterMap fun l => l.content.type?).head? } := by
  have declared : (scanWords declaration (charsOf .controller name.toWord Statement.chars lines last)).head? =
      some (.ofList name.chars) :=
    head?_declared .controller name.toWord name.fits Statement.starts lines last
  have actions := method_meets.scan_text name.toWord last lines
  have filters := filter_meets.scan_text name.toWord last lines
  have types := finder_meets.scan_text name.toWord last lines
  simp only [scanWords] at declared
  simp only [ofText?, textOf, String.toList_ofList, scanWords, scan, declared, actions, filters, types]
  rfl

namespace Item

theorem filterMap_lines {α : Type} {value : Statement → Option α} (unfound : ∀ f, value (.finder f) = none)
    (unclosed : value .close = none) (i : Item) :
    (i.lines.filterMap fun l => value l.content) = (value i.head).toList := by
  cases i with
  | filter f => cases told : value (.filter f.content) <;> simp [lines, head, Line.map, told]
  | method head finders close =>
    cases told : value (.method head.content) <;> simp [lines, Item.head, Line.map, told, unclosed, unfound]

theorem types_lines (i : Item) : (i.lines.filterMap fun l => l.content.type?) = i.types := by
  cases i with
  | filter f => rfl
  | method head finders close =>
    have found : (finders.map fun l => l.map Statement.finder).filterMap (fun l => l.content.type?) =
        finders.map fun l => .ofList l.content.type.chars := by
      rw [List.filterMap_map, ← List.filterMap_eq_map]
      rfl
    rw [lines, List.filterMap_append, List.filterMap_cons, found]
    exact List.append_nil _

end Item

/-- The controller of a class of methods and filters has the names of all of them, in the order of the text,
and the type of the first look-up if there is any. -/
theorem ofText?_items (name : ControllerName) (items : List Item) (last : Blanks) :
    ofText? (textOf .controller name.toWord Statement.chars (items.flatMap Item.lines) last) = some
      { name := .ofList name.chars
        actions := items.filterMap fun i => i.head.action?
        filters := items.filterMap fun i => i.head.filter?
        inferredModel := (items.flatMap Item.types).head? } := by
  have actions := fun i => @Item.filterMap_lines _ Statement.action? (fun _ => rfl) rfl i
  have filters := fun i => @Item.filterMap_lines _ Statement.filter? (fun _ => rfl) rfl i
  rw [ofText?_statements]
  simp only [List.filterMap_flatMap, actions, filters, Item.types_lines]
  simp only [List.filterMap_eq_flatMap_toList]

def postItems : List Item :=
  [.filter ⟨.indent, ⟨.action, .space, ⟨.of "end", .bang, by decide⟩⟩, .none⟩,
    .method ⟨.indent, ⟨.space, true,
        ⟨'s', "how".toList, .plain, by decide, List.all_eq_true.mp (by decide)⟩⟩, .none⟩
      [⟨.of "    ", ⟨.of "post", Gap.space.toBlanks, Gap.space.toBlanks, .of "Post"⟩, .none⟩,
        ⟨.of "    ", ⟨.of "tag", .none, .none, .of "Tag"⟩, .none⟩]
      ⟨.indent, (), .none⟩]

def postsController : ControllerName where
  toWord := .of "PostsController"
  fits := by decide +kernel

def postsText : String :=
  "class PostsController < ApplicationController\n  before_action :end!\n  def self.show\n" ++
    "    @post = Post.find(params[:id])\n    @tag=Tag.find(params[:id])\n  end\nend"

theorem ofText?_posts :
    textOf .controller postsController.toWord Statement.chars (postItems.flatMap Item.lines) .none =
      postsText ∧
    ofText? postsText = some ⟨"PostsController", ["show"], ["end!"], some "Post"⟩ := by
  have text : textOf .controller postsController.toWord Statement.chars (postItems.flatMap Item.lines)
      .none = postsText := by decide +kernel
  have read := ofText?_items postsController postItems .none
  rw [text] at read
  exact ⟨text, read.trans (by decide +kernel)⟩

end Transplant.Rails.Controller
