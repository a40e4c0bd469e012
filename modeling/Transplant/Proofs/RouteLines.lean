import Transplant.Proofs.Scans
import Transplant.Rails.Route

/-! Routes of a text of directives, one a line. Each line starts with a word that tells its kind, and
nothing else in it looks like the start of a directive, so a scan meets the lines one by one. -/
namespace Transplant.Rails.Route

open Text Text.Pattern

structure Word where
  chars : List Char
  nonempty : chars ≠ []
  inWord : ∀ c ∈ chars, isWord c = true

def Word.of (text : String)
    (word : text.toList ≠ [] ∧ text.toList.all isWord = true := by decide) : Word :=
  ⟨text.toList, word.1, List.all_eq_true.mp word.2⟩

/-- What may stand between quotes: some characters, none of them a quote or a blank. -/
structure Bare where
  chars : List Char
  nonempty : chars ≠ []
  bare : ∀ c ∈ chars, isQuote c = false ∧ isBlank c = false

def Bare.of (text : String) (bare : text.toList ≠ [] ∧
      (text.toList.all fun c => !isQuote c && !isBlank c) = true := by decide) : Bare :=
  ⟨text.toList, bare.1, fun c member => by simpa using List.all_eq_true.mp bare.2 c member⟩

inductive Quote where
  | single
  | double

def Quote.char : Quote → Char
  | single => '\''
  | double => '"'

inductive Verb where
  | get
  | post
  | put
  | patch
  | delete

def Verb.keyword : Verb → String
  | get => "get"
  | post => "post"
  | put => "put"
  | patch => "patch"
  | delete => "delete"

inductive Directive where
  | resources (name : Word)
  | verb (v : Verb) (q₁ : Quote) (path : Bare) (q₂ q₃ : Quote) (target : Bare) (q₄ : Quote)

namespace Directive

def keyword : Directive → String
  | resources _ => "resources"
  | verb v .. => v.keyword

def tail : Directive → List Char
  | resources name => ' ' :: ':' :: name.chars
  | verb _ q₁ path q₂ q₃ target q₄ =>
    ' ' :: q₁.char :: (path.chars ++ q₂.char :: (", to: ".toList ++
      q₃.char :: (target.chars ++ [q₄.char])))

def chars (d : Directive) : List Char := d.keyword.toList ++ d.tail

def linesOf (ds : List Directive) : List Char := ['\n'].intercalate (ds.map chars)

def textOf (ds : List Directive) : String := .ofList (linesOf ds)

/-- The route of a collection: all seven actions, below its own name. -/
def collection? : Directive → Option Route
  | resources name => some (.collection (.ofList ('/' :: name.chars)) (.ofList name.chars)
      ["index", "show", "new", "edit", "create", "update", "destroy"])
  | verb .. => none

/-- The route of a verb, if its target has one `#`. -/
def explicit? : Directive → Option Route
  | resources _ => none
  | verb _ _ path _ _ target _ =>
    if target.chars.count '#' = 1 then
      some (.explicit (.ofList ('/' :: path.chars.dropWhile (· = '/')))
        (.ofList (target.chars.takeWhile (· ≠ '#')))
        (.ofList (target.chars.dropWhile (· ≠ '#')).tail))
    else none

def quoted? : Directive → Option (List Char × List Char)
  | resources _ => none
  | verb _ _ path _ _ target _ => some (path.chars, target.chars)

end Directive

@[simp] theorem Quote.isQuote_char (q : Quote) : isQuote q.char = true := by cases q <;> rfl

@[simp] theorem Quote.isBlank_char (q : Quote) : isBlank q.char = false := by
  cases q <;> decide

@[simp] theorem Quote.isWord_char (q : Quote) : isWord q.char = false := by
  cases q <;> decide

theorem Bare.unspaced (text : Bare) : Unspaced text.chars :=
  unspaced_of_not_isBlank fun c member => (text.bare c member).2

namespace Directive

variable {α : Type}

def verbs : List String := ["get", "post", "put", "patch", "delete"]

theorem keywords_inWord : ∀ s ∈ "resources" :: verbs, s.toList.all isWord = true := by
  decide

theorem keyword_inWord (d : Directive) : ∀ c ∈ d.keyword.toList, isWord c = true := by
  refine List.all_eq_true.mp (keywords_inWord d.keyword ?_)
  cases d with
  | resources name => simp [keyword]
  | verb v => cases v <;> simp [keyword, Verb.keyword, verbs]

theorem keyword_ne_nil (d : Directive) : d.keyword.toList ≠ [] := by
  cases d with
  | resources name => simp [keyword]
  | verb v => cases v <;> simp [keyword, Verb.keyword]

theorem tail_stops (d : Directive) (rest : List Char) : Stops isWord (d.tail ++ rest) := by
  cases d <;> exact stops_cons (by decide)

theorem chars_ne_nil (d : Directive) : d.chars ≠ [] := by
  simp [chars, keyword_ne_nil d]

theorem tail_unspaced (d : Directive) : Unspaced d.tail := by
  cases d with
  | resources name =>
    have solid := unspaced_of_not_isBlank fun c member => not_isBlank_of_isWord (name.inWord c member)
    have blank : isWord ' ' = false := by decide
    have colon : isWord ':' = false := by decide
    unfold Unspaced at solid ⊢
    simp [tail, List.isChain_cons, solid, blank, colon]
  | verb v q₁ path q₂ q₃ target q₄ =>
    have p := path.unspaced
    have t := target.unspaced
    have between : isWord ' ' = false ∧ isWord ',' = false ∧ isWord ':' = false ∧
        isBlank 'o' = false ∧ isBlank ':' = false := by decide
    unfold Unspaced at p t ⊢
    simp [tail, List.isChain_cons, List.isChain_append, between, p, t]

/-- The pattern reads each directive that has a value, all of it, and reads nothing that does not start
with a word of its own, a gap and a mark. -/
structure Tells (p : Pattern α) (words : List (List Char)) (mark : Char → Bool)
    (value : Directive → Option α) : Prop where
  nonempty : [] ∉ words
  marks : ∀ c, mark c = true → isWord c = false
  announced : ∀ cs found, p cs = some found → Announces words mark cs
  own : ∀ d a rest, value d = some a → Stops isWord rest → p (d.chars ++ rest) = some (a, rest)
  foreign : ∀ d : Directive, value d = none → d.keyword.toList ∉ words

variable {p : Pattern α} {words : List (List Char)} {mark : Char → Bool}
  {value : Directive → Option α}

theorem Tells.unread (h : Tells p words mark value) {cs : List Char} (quiet : ¬ Announces words mark cs) :
    p cs = none := by
  cases reads : p cs with
  | none => rfl
  | some found => exact absurd (h.announced cs found reads) quiet

theorem Tells.scan_line (h : Tells p words mark value) (d : Directive) {rest : List Char}
    (ends : EndsLine rest) :
    scanFrom true p false 0 (d.chars ++ rest) =
      (value d).toList ++ scanFrom true p (lastInWord false d.chars) 0 rest := by
  cases told : value d with
  | some a => exact scanFrom_found rfl d.chars_ne_nil (h.own d a rest told ends.stops_isWord)
  | none =>
    refine scanFrom_unread fun before behind split nonempty => ?_
    -- Nothing is announced within the tail, nor behind letters of the first word, nor by that word.
    rcases List.append_eq_append_iff.mp split with ⟨gone, rfl, inTail⟩ | ⟨left, inKeyword, rfl⟩
    · have solid : Unspaced behind := d.tail_unspaced.suffix ⟨gone, inTail.symm⟩
      exact .inr (h.unread (solid.not_announces h.nonempty h.marks nonempty ends))
    · cases before with
      | nil =>
        rw [List.nil_append] at inKeyword
        subst inKeyword
        refine .inr (h.unread fun ⟨member, _⟩ => h.foreign d told ?_)
        rwa [List.append_assoc, List.takeWhile_append_of_pos d.keyword_inWord,
          (takeWhile_of_stops (d.tail_stops rest)).1, List.append_nil] at member
      | cons c before =>
        have word : ∀ e ∈ c :: before, isWord e = true := fun e member =>
          d.keyword_inWord e (by rw [inKeyword]; exact List.mem_append_left _ member)
        exact .inl (lastInWord_of_inWord (List.cons_ne_nil c before) word)

theorem linesOf_cons (d e : Directive) (ds : List Directive) :
    linesOf (d :: e :: ds) = d.chars ++ '\n' :: linesOf (e :: ds) := by
  simp [linesOf, List.intercalate_cons_cons]

theorem linesOf_starts (d : Directive) (ds : List Directive) :
    ∃ c cs, linesOf (d :: ds) = c :: cs ∧ isWord c = true := by
  obtain ⟨c, cs, first⟩ := List.exists_cons_of_ne_nil d.keyword_ne_nil
  have word : isWord c = true := d.keyword_inWord c (by simp [first])
  cases ds with
  | nil => exact ⟨c, cs ++ d.tail, by simp [linesOf, chars, first], word⟩
  | cons e ds =>
    exact ⟨c, cs ++ (d.tail ++ '\n' :: linesOf (e :: ds)), by simp [linesOf_cons, chars, first], word⟩

/-- What a scan of directives finds are the values of the lines, in their order. -/
theorem Tells.scan_lines (h : Tells p words mark value) (ds : List Directive) :
    scanWords p (linesOf ds) = ds.filterMap value := by
  have first (d : Directive) (ds : List Directive) :
      (d :: ds).filterMap value = (value d).toList ++ ds.filterMap value := by
    cases told : value d <;> simp [told]
  induction ds with
  | nil => rfl
  | cons d ds ih =>
    rw [first]
    cases ds with
    | nil => simpa [linesOf, scanWords, scanFrom_nil] using h.scan_line d (.inl rfl)
    | cons e ds =>
      obtain ⟨c, cs, start, word⟩ := linesOf_starts e ds
      have line : p ('\n' :: linesOf (e :: ds)) = none :=
        h.unread (not_announces_of_stops h.nonempty (stops_cons (by decide)))
      have edge : isWord '\n' = false := by decide
      rw [scanWords, linesOf_cons, h.scan_line d (.inr ⟨c, cs, by rw [start], word⟩), ← ih, scanFrom,
        line, ite_self, edge, scanWords]

end Directive

theorem quotedText_of_bare (q₁ q₂ : Quote) (text : Bare) (rest : List Char) :
    quotedText (q₁.char :: (text.chars ++ q₂.char :: rest)) = some (text.chars, rest) := by
  refine bind_eq_some.mpr ⟨q₁.char, _, one_eq_some.mpr ⟨rfl, q₁.isQuote_char⟩, ?_⟩
  refine bind_eq_some.mpr
    ⟨text.chars, q₂.char :: rest, run1_eq_some.mpr ⟨rfl, ?_, ?_, text.nonempty⟩, ?_⟩
  · simpa using fun c member => (text.bare c member).1
  · exact stops_cons (by simp)
  · exact bind_eq_some.mpr ⟨q₂.char, rest, one_eq_some.mpr ⟨rfl, q₂.isQuote_char⟩, rfl⟩

theorem verb_keyword (v : Verb) (rest : List Char) :
    verb (v.keyword.toList ++ rest) = some ((), rest) := by
  cases v <;> simp [verb, Verb.keyword, oneOf, either, literal, literalList]

theorem oneOf_literal {words : List String} {cs rest : List Char} {u : Unit}
    (h : oneOf (words.map literal) cs = some (u, rest)) : ∃ s ∈ words, cs = s.toList ++ rest := by
  induction words with
  | nil => cases h
  | cons s words ih =>
    simp only [List.map_cons, oneOf, either] at h
    split at h
    · rename_i reads
      cases h
      exact ⟨s, List.mem_cons_self, literal_eq_some.mp reads⟩
    · obtain ⟨t, member, same⟩ := ih h
      exact ⟨t, List.mem_cons_of_mem _ member, same⟩

theorem isWord_of_isQuote {c : Char} (quote : isQuote c = true) : isWord c = false := by
  simp only [isQuote, Bool.or_eq_true, decide_eq_true_eq] at quote
  rcases quote with rfl | rfl <;> decide

theorem resources_announced {cs : List Char} {found : Route × List Char}
    (h : resources cs = some found) : Announces ["resources".toList] (· = ':') cs := by
  obtain ⟨_, _, read, h⟩ := bind_eq_some.mp h
  have keyword := literal_eq_some.mp read
  obtain ⟨_, _, read, h⟩ := bind_eq_some.mp h
  obtain ⟨gap, split, blank, stops, some⟩ := blanks1_eq_some.mp read
  obtain ⟨_, _, read, _⟩ := bind_eq_some.mp h
  have colon := literal_eq_some.mp read
  rw [keyword, split]
  have inWord := Directive.keywords_inWord "resources" List.mem_cons_self
  refine announces_append List.mem_cons_self inWord some blank stops ?_
  rw [colon]
  exact ⟨':', rfl, by decide⟩

theorem resources_line (name : Word) {rest : List Char} (stops : Stops isWord rest) :
    resources ((Directive.resources name).chars ++ rest) = some (ofResource name.chars, rest) := by
  have shape : (Directive.resources name).chars ++ rest =
      "resources".toList ++ ([' '] ++ (":".toList ++ (name.chars ++ rest))) := by
    simp [Directive.chars, Directive.keyword, Directive.tail]
  rw [shape]
  refine bind_eq_some.mpr ⟨(), _, literal_eq_some.mpr rfl, ?_⟩
  refine bind_eq_some.mpr ⟨(), _, blanks1_eq_some.mpr
    ⟨[' '], rfl, by decide, stops_cons (by decide), by simp⟩, ?_⟩
  refine bind_eq_some.mpr ⟨(), _, literal_eq_some.mpr rfl, ?_⟩
  exact bind_eq_some.mpr ⟨name.chars, rest, run1_eq_some.mpr
    ⟨rfl, List.all_eq_true.mpr name.inWord, stops, name.nonempty⟩, rfl⟩

theorem resources_tells :
    Directive.Tells resources ["resources".toList] (· = ':') Directive.collection? where
  nonempty := by decide
  marks c colon := by
    rw [of_decide_eq_true colon]
    decide
  announced _ _ := resources_announced
  own := by
    rintro (name | _) r rest told stops
    · cases told
      exact resources_line name stops
    · cases told
  foreign := by
    rintro (_ | ⟨v⟩) told
    · cases told
    · cases v <;> simp [Directive.keyword, Verb.keyword]

theorem binding_announced {cs : List Char} {found : (List Char × List Char) × List Char}
    (h : binding cs = some found) : Announces (Directive.verbs.map String.toList) isQuote cs := by
  obtain ⟨_, _, read, h⟩ := bind_eq_some.mp h
  obtain ⟨s, member, keyword⟩ := oneOf_literal read
  have inWord := Directive.keywords_inWord s (List.mem_cons_of_mem _ member)
  obtain ⟨_, _, read, h⟩ := bind_eq_some.mp h
  obtain ⟨gap, split, blank, stops, some⟩ := blanks1_eq_some.mp read
  obtain ⟨_, _, read, _⟩ := bind_eq_some.mp h
  obtain ⟨q, _, read, _⟩ := bind_eq_some.mp read
  obtain ⟨first, quote⟩ := one_eq_some.mp read
  rw [keyword, split]
  refine announces_append (List.mem_map_of_mem member) inWord some blank stops ?_
  rw [first]
  exact ⟨q, rfl, quote⟩

theorem binding_line (v : Verb) (q₁ : Quote) (path : Bare) (q₂ q₃ : Quote) (target : Bare)
    (q₄ : Quote) (rest : List Char) :
    binding ((Directive.verb v q₁ path q₂ q₃ target q₄).chars ++ rest) =
      some ((path.chars, target.chars), rest) := by
  have shape : (Directive.verb v q₁ path q₂ q₃ target q₄).chars ++ rest = v.keyword.toList ++
      ([' '] ++ (q₁.char :: (path.chars ++ q₂.char :: ([] ++ (",".toList ++ ([' '] ++
        ("to:".toList ++ ([' '] ++ (q₃.char :: (target.chars ++ q₄.char :: rest)))))))))) := by
    simp [Directive.chars, Directive.keyword, Directive.tail]
  rw [shape]
  refine bind_eq_some.mpr ⟨(), _, verb_keyword v _, ?_⟩
  refine bind_eq_some.mpr ⟨(), _, blanks1_eq_some.mpr
    ⟨[' '], rfl, by decide, stops_cons q₁.isBlank_char, by simp⟩, ?_⟩
  refine bind_eq_some.mpr ⟨path.chars, _, quotedText_of_bare q₁ q₂ path _, ?_⟩
  refine bind_eq_some.mpr ⟨(), _, blanks_eq_some.mpr ⟨[], rfl, rfl, stops_cons (by decide)⟩, ?_⟩
  refine bind_eq_some.mpr ⟨(), _, literal_eq_some.mpr rfl, ?_⟩
  refine bind_eq_some.mpr ⟨(), _, blanks_eq_some.mpr
    ⟨[' '], rfl, by decide, stops_cons (by decide)⟩, ?_⟩
  refine bind_eq_some.mpr ⟨(), _, literal_eq_some.mpr rfl, ?_⟩
  refine bind_eq_some.mpr ⟨(), _, blanks_eq_some.mpr
    ⟨[' '], rfl, by decide, stops_cons q₃.isBlank_char⟩, ?_⟩
  exact bind_eq_some.mpr ⟨target.chars, rest, quotedText_of_bare q₃ q₄ target rest, rfl⟩

theorem binding_tells :
    Directive.Tells binding (Directive.verbs.map String.toList) isQuote Directive.quoted? where
  nonempty := by decide
  marks _ := isWord_of_isQuote
  announced _ _ := binding_announced
  own := by
    rintro (_ | ⟨v, q₁, path, q₂, q₃, target, q₄⟩) b rest told _
    · cases told
    · cases told
      exact binding_line v q₁ path q₂ q₃ target q₄ rest
  foreign := by
    rintro (_ | _) told
    · simp [Directive.keyword, Directive.verbs]
    · cases told

theorem splitTarget?_eq (target : List Char) : splitTarget? target =
    if target.count '#' = 1 then
      some (target.takeWhile (· ≠ '#'), (target.dropWhile (· ≠ '#')).tail)
    else none := by
  have others {cs : List Char} (hash : '#' ∉ cs) : ∀ c ∈ cs, decide (c ≠ '#') = true := by
    intro c member
    simpa using ne_of_mem_of_not_mem member hash
  by_cases hash : '#' ∈ target
  · obtain ⟨controller, action, rfl, before⟩ := List.eq_append_cons_of_mem hash
    have count : (controller ++ '#' :: action).count '#' = action.count '#' + 1 := by
      simp [List.count_eq_zero_of_not_mem before]
    rw [splitTarget?, List.takeWhile_append_of_pos (others before),
      List.dropWhile_append_of_pos (others before), count]
    by_cases again : '#' ∈ action <;> simp [again, List.count_eq_zero]
  · have none : target.dropWhile (· ≠ '#') = [] := by
      rw [← List.append_nil target, List.dropWhile_append_of_pos (others hash), List.dropWhile_nil]
    rw [splitTarget?, none, List.count_eq_zero_of_not_mem hash]
    simp

theorem ofBinding?_of_quoted? (d : Directive) : d.quoted?.bind ofBinding? = d.explicit? := by
  cases d with
  | resources name => rfl
  | verb v q₁ path q₂ q₃ target q₄ =>
    simp only [Directive.quoted?, Directive.explicit?, Option.bind_some, ofBinding?, splitTarget?_eq]
    split <;> rfl

/-- The routes of a text of directives: those of the collections first and then those of the verbs, each
in the order of the lines. -/
theorem allOfText_lines (ds : List Directive) : allOfText (Directive.textOf ds) =
    ds.filterMap Directive.collection? ++ ds.filterMap Directive.explicit? := by
  have explicit : ds.filterMap Directive.explicit? =
      (ds.filterMap Directive.quoted?).filterMap ofBinding? := by
    rw [List.filterMap_filterMap]
    exact List.filterMap_congr fun d _ => (ofBinding?_of_quoted? d).symm
  rw [allOfText, Directive.textOf, String.toList_ofList, resources_tells.scan_lines,
    binding_tells.scan_lines, explicit]

def pageDirectives : List Directive :=
  [.verb .get .single (.of "//about") .double .single (.of "pages#about") .single,
    .resources (.of "put"),
    .verb .delete .double (.of "old") .double .double (.of "pages") .double]

theorem allOfText_lines_pages :
    Directive.textOf pageDirectives =
      "get '//about\", to: 'pages#about'\nresources :put\ndelete \"old\", to: \"pages\"" ∧
    allOfText (Directive.textOf pageDirectives) =
      [.collection "/put" "put" ["index", "show", "new", "edit", "create", "update", "destroy"],
        .explicit "/about" "pages" "about"] := by
  refine ⟨by decide +kernel, (allOfText_lines pageDirectives).trans ?_⟩
  decide +kernel

end Transplant.Rails.Route
