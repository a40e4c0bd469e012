import Transplant.Proofs.Emission
import Transplant.Proofs.TagForms
import Transplant.Proofs.Trimming
import Transplant.Proofs.Twins

/-! Templates that include others. A call for `d/p` becomes an include of the page `d/p.html`, and that is the
page to which the template `d/p` is converted. The partial `_p` in the directory `d` has a page of its own. -/
namespace Transplant

namespace Rails.Erb

open Text Text.Pattern

def IsQuote (c : Char) : Prop := c = '\'' ∨ c = '"'

/-- Blanks, with a bracket among them or without. -/
inductive Opening : List Char → Prop where
  | blank {b : List Char} (blank : Blank b) : Opening b
  | bracket {b b' : List Char} (blank : Blank b) (blank' : Blank b') : Opening (b ++ '(' :: b')

/-- Nothing, or `partial:` with blanks behind it. -/
inductive Keyword : List Char → Prop where
  | none : Keyword []
  | given {b : List Char} (blank : Blank b) : Keyword ("partial:".toList ++ b)

/-- The code calls for the template of this name. -/
def CallsFor (code name : List Char) : Prop :=
  ∃ opening keyword quote quote' rest,
    code = "render".toList ++ (opening ++ (keyword ++ quote :: (name ++ quote' :: rest))) ∧
    Opening opening ∧ Keyword keyword ∧ IsQuote quote ∧ IsQuote quote'

theorem IsQuote.out {c : Char} (quote : IsQuote c) :
    isBlank c = false ∧ c ≠ '(' ∧ c ≠ 'p' ∧ c ≠ '@' ∧ (isWord c || c = '/') = false := by
  rcases quote with rfl | rfl <;> decide +kernel

theorem maybe_eq_some {α : Type} {p : Pattern α} {cs rest : List Char} {a : α}
    (some : p cs = some (a, rest)) : maybe p cs = Option.some (Option.some a, rest) := by
  rw [maybe, some]

theorem literal_eq_none {c d : Char} {s : String} {more cs : List Char} (start : s.toList = c :: more)
    (differ : c ≠ d) : literal s (d :: cs) = none := by
  rw [literal, start, literalList, if_neg differ]
  rfl

theorem Opening.reads {opening : List Char} (opens : Opening opening) {c : Char}
    (out : isBlank c = false ∧ c ≠ '(') (cs : List Char) : ∃ mid bracket mid',
      blanks (opening ++ c :: cs) = some ((), mid) ∧ maybe (literal "(") mid = some (bracket, mid') ∧
      blanks mid' = some ((), c :: cs) := by
  have stops : Stops isBlank (c :: cs) := stops_cons out.1
  simp only [blanks_eq_some]
  cases opens with
  | blank blank =>
    have none : literal "(" (c :: cs) = Option.none := literal_eq_none rfl out.2.symm
    exact ⟨_, _, _, ⟨opening, rfl, List.all_eq_true.mpr blank, stops⟩, maybe_eq_none none,
      [], rfl, rfl, stops⟩
  | @bracket b b' blank blank' =>
    refine ⟨'(' :: (b' ++ c :: cs), some (), b' ++ c :: cs,
      ⟨b, by simp, List.all_eq_true.mpr blank, stops_cons (by decide)⟩, ?_,
      b', rfl, List.all_eq_true.mpr blank', stops⟩
    exact maybe_eq_some (literal_eq_some.mpr rfl)

theorem Keyword.reads {keyword : List Char} (key : Keyword keyword) {c : Char}
    (out : isBlank c = false ∧ c ≠ 'p') (cs : List Char) : ∃ found,
      maybe (do literal "partial:"; blanks) (keyword ++ c :: cs) = some (found, c :: cs) := by
  cases key with
  | none =>
    have none : (do literal "partial:"; blanks : Pattern Unit) (c :: cs) = Option.none := by
      change (literal "partial:" (c :: cs) >>= _) = _
      rw [literal_eq_none rfl out.2.symm]
      rfl
    exact ⟨_, maybe_eq_none none⟩
  | @given b blank =>
    have read : (do literal "partial:"; blanks : Pattern Unit) ("partial:".toList ++ (b ++ c :: cs)) =
        some ((), c :: cs) := by
      rw [bind_eq_some]
      exact ⟨(), _, literal_eq_some.mpr rfl, blanks_eq_some.mpr
        ⟨b, rfl, List.all_eq_true.mpr blank, stops_cons out.1⟩⟩
    rw [List.append_assoc]
    exact ⟨_, maybe_eq_some read⟩

theorem Keyword.head {keyword : List Char} (key : Keyword keyword) {quote : Char} (start : IsQuote quote)
    (tail : List Char) : ∃ c cs, keyword ++ quote :: tail = c :: cs ∧ isBlank c = false ∧ c ≠ '(' := by
  cases key with
  | none => exact ⟨quote, tail, rfl, start.out.1, start.out.2.1⟩
  | given blank => exact ⟨'p', _, rfl, by decide, by decide⟩

theorem CallsFor.reads {code name : List Char} (calls : CallsFor code name) (named : name ≠ [])
    (plain : ∀ c ∈ name, isWord c = true ∨ c = '/') : ∃ rest, partialName code = some (name, rest) := by
  obtain ⟨opening, keyword, quote, quote', rest, rfl, opens, key, start, stop⟩ := calls
  have all : name.all (fun c => isWord c || c = '/') = true := by simpa using plain
  have isQuote : ∀ {c}, IsQuote c → (c = '\'' || c = '"') = true := by
    rintro c (rfl | rfl) <;> rfl
  obtain ⟨c, cs, head, out⟩ := key.head start (name ++ quote' :: rest)
  obtain ⟨mid, bracket, mid', first, second, third⟩ := opens.reads out cs
  obtain ⟨found, keyed⟩ := key.reads ⟨start.out.1, start.out.2.2.1⟩ (name ++ quote' :: rest)
  rw [← head] at first third
  simp only [partialName, bind_eq_some, pure_eq_some]
  exact ⟨rest, (), _, literal_eq_some.mpr rfl, (), mid, first, bracket, mid', second, (), _, third, found, _,
    keyed, quote, _, one_eq_some.mpr ⟨rfl, isQuote start⟩, name, _,
    run1_eq_some.mpr ⟨rfl, all, stops_cons stop.out.2.2.2.2, named⟩, quote', rest,
    one_eq_some.mpr ⟨rfl, isQuote stop⟩, rfl, rfl⟩

theorem Opening.sigil_not_mem {opening : List Char} (opens : Opening opening) : '@' ∉ opening := by
  cases opens with
  | blank blank => exact sigil_not_mem_blanks blank
  | bracket blank blank' => simp [sigil_not_mem_blanks blank, sigil_not_mem_blanks blank']

theorem Keyword.sigil_not_mem {keyword : List Char} (key : Keyword keyword) : '@' ∉ keyword := by
  cases key with
  | none => simp
  | given blank =>
    rw [List.mem_append, not_or]
    exact ⟨by decide, (Opening.blank blank).sigil_not_mem⟩

theorem CallsFor.withoutSigils {code name : List Char} (calls : CallsFor code name)
    (plain : ∀ c ∈ name, isWord c = true ∨ c = '/') : CallsFor (withoutSigils code) name := by
  obtain ⟨opening, keyword, quote, quote', rest, rfl, opens, key, start, stop⟩ := calls
  refine ⟨opening, keyword, quote, quote', Erb.withoutSigils rest, ?_, opens, key, start, stop⟩
  have sigil : '@' ∉ name := fun inside => absurd (plain '@' inside) (by decide +kernel)
  have front : '@' ∉ "render".toList ++ (opening ++ (keyword ++ quote :: (name ++ [quote']))) := by
    simp [opens.sigil_not_mem, key.sigil_not_mem, sigil, start.out.2.2.2.1.symm, stop.out.2.2.2.1.symm]
  have whole := withoutSigils_append front rest
  simpa only [List.append_assoc, List.cons_append, List.nil_append] using whole

def includeTag (name : String) : String := s!"\x7b% include '{name}.html' %\x7d"

theorem include_render (name : String) :
    (Markup.block ("include '".toList ++ name.toList ++ ".html'".toList)).render =
      (includeTag name).toList := by
  have front : "\x7b% include '".toList = "\x7b% ".toList ++ "include '".toList := by decide
  have back : ".html' %\x7d".toList = ".html'".toList ++ " %\x7d".toList := by decide
  have chars : (includeTag name).toList = "\x7b% include '".toList ++ name.toList ++ ".html' %\x7d".toList := by
    rw [← String.toList_append, ← String.toList_append]
    rfl
  rw [chars, front, back]
  change "\x7b% ".toList ++ _ ++ " %\x7d".toList = _
  simp only [List.append_assoc]

theorem Tag.markup_of_callsFor {t : Tag} {name : String} (output : t.sigil = .output)
    (calls : CallsFor t.code name.toList) (named : name ≠ "")
    (plain : ∀ c ∈ name.toList, isWord c = true ∨ c = '/') (blocks : List Block) :
    t.markup blocks = (.block ("include '".toList ++ name.toList ++ ".html'".toList), blocks) := by
  have some : name.toList ≠ [] := fun none => named (String.toList_eq_nil_iff.mp none)
  obtain ⟨rest, read⟩ := (calls.withoutSigils plain).reads some plain
  rw [Tag.markup_of_output output, outputMarkup, read]

/-- In the place of a call stands the include, and the blocks that are open stay open. -/
theorem toDjango_of_call {text name : String} {front back : List Piece} {t : Tag}
    (tagged : pieces text.toList = front ++ .tag t :: back) (output : t.sigil = .output)
    (calls : CallsFor t.code name.toList) (named : name ≠ "")
    (plain : ∀ c ∈ name.toList, isWord c = true ∨ c = '/') :
    toDjango text = .ofList (renderPieces [] front) ++ includeTag name ++
      .ofList (renderPieces (openBehind [] front) back) := by
  have here := t.markup_of_callsFor output calls named plain (openBehind [] front)
  have step : ∀ blocks, renderPieces blocks (.tag t :: back) =
      (t.markup blocks).1.render ++ renderPieces (t.markup blocks).2 back := fun _ => rfl
  rw [toDjango, tagged, renderPieces_append, step, here, include_render]
  simp only [String.ofList_append, String.ofList_toList, String.append_assoc]

end Rails.Erb

namespace Build

open Rails.Erb (Piece Tag CallsFor includeTag pieces toDjango renderPieces openBehind)
open Rails.Template (pageEnding)

variable {views root : Path} {t u v : FileTree} {dir : List String} {stem : String}

/-- The views have a file with this name in this directory. -/
def HasView (views : Path) (t : FileTree) (dir : List String) (file : String) : Prop :=
  ∃ sub, t.find views = .ok sub ∧ ∃ contents, sub.contentsAt? (dir ++ [file]) = some contents

/-- The name of a template, with slashes. -/
def nameOf (dir : List String) (stem : String) : String := "/".intercalate (dir ++ [stem])

theorem HasView.template (view : HasView views t dir (stem ++ pageEnding)) (sound : t.Sound) :
    (views.joinAll (dir ++ [stem ++ pageEnding]), nameOf dir stem) ∈ templatesIn views t ∧
      ∀ name ∈ dir ++ [stem ++ pageEnding], IsName name := by
  obtain ⟨sub, found, file⟩ := view
  have subSound := sound.get? (FileTree.find_ok_iff.mp found).2
  have there := subSound.mem_places_iff.mpr file
  exact ⟨(mem_templatesIn_iff sound).mpr ⟨sub, found, _, there, rfl, dir, stem, .inl rfl, rfl⟩,
    subSound.names there⟩

/-- Each part of the name is a word, and the last is not empty. -/
structure Words (dir : List String) (stem : String) : Prop where
  parts : ∀ part ∈ dir ++ [stem], ∀ c ∈ part.toList, Text.isWord c = true
  some : stem ≠ ""

theorem Words.chars (words : Words dir stem) :
    ∀ c ∈ (nameOf dir stem).toList, Text.isWord c = true ∨ c = '/' := by
  have parts := List.forall_mem_append.mp words.parts
  rw [nameOf, Rails.Template.toList_intercalate_concat, Rails.Template.frontOf]
  intro c inside
  rcases List.mem_append.mp inside with front | last
  · obtain ⟨part, member, inside⟩ := List.mem_flatMap.mp front
    rcases List.mem_append.mp inside with inPart | slash
    · exact .inl (parts.1 part member c inPart)
    · exact .inr (List.mem_singleton.mp slash)
  · exact .inl (parts.2 stem List.mem_cons_self c last)

theorem Words.ne_empty (words : Words dir stem) : nameOf dir stem ≠ "" := by
  intro none
  have chars := congrArg String.toList none
  rw [nameOf, Rails.Template.toList_intercalate_concat] at chars
  exact words.some (String.toList_eq_nil_iff.mp (List.append_eq_nil_iff.mp chars).2)

theorem Words.slash_not_mem (words : Words dir stem) : '/' ∉ stem.toList := by
  intro inside
  have word := words.parts stem (List.mem_append_right _ List.mem_cons_self) '/' inside
  exact absurd word (by decide +kernel)

/-- The page of a partial is not the page that its name without the underscore has. -/
theorem page_ne_of_partial (words : Words dir stem)
    (named : ∀ name ∈ dir ++ ["_" ++ stem ++ pageEnding], IsName name) :
    (conversionTarget root (nameOf dir ("_" ++ stem))).place ≠
      (conversionTarget root (nameOf dir stem)).place := by
  have page : ∀ name ∈ dir ++ [stem ++ pageEnding], IsName name := by
    rw [List.forall_mem_append] at named ⊢
    exact ⟨named.1, List.forall_mem_singleton.mpr
      (isName_ending words.slash_not_mem (by decide) (by decide))⟩
  rw [nameOf, nameOf, place_conversionTarget named (.inl rfl), place_conversionTarget page (.inl rfl)]
  simp

theorem source_ne_target (sound : t.Sound) {a b : Path × String} (ha : a ∈ templatesIn views t)
    (hb : b ∈ templatesIn views t) : a.1.place ≠ (conversionTarget root b.2).place := by
  obtain ⟨sub, located, names, there, source, dir, stem, isAt, _⟩ := (mem_templatesIn_iff sound).mp ha
  obtain ⟨_, located', _, there', _, dir', stem', isAt', name⟩ := (mem_templatesIn_iff sound).mp hb
  cases located.symm.trans located'
  have subSound := sound.get? (FileTree.find_ok_iff.mp located).2
  obtain ⟨front, last⟩ : ∃ front, names = dir ++ [stem ++ front ++ ".erb"] := by
    rcases isAt with same | ⟨same, _⟩
    · exact ⟨".html", by rw [same, String.append_assoc]; rfl⟩
    · exact ⟨"", by rw [same, String.append_empty]; rfl⟩
  rw [source, Path.place_joinAll (subSound.names there), last, ← List.append_assoc, name,
    place_conversionTarget (subSound.names there') isAt', ← List.cons_append, ← List.append_assoc]
  intro same
  have file : stem ++ front ++ ".erb" = stem' ++ ".html" :=
    List.singleton_inj.mp (List.append_inj' same rfl).2
  have ends := congrArg (fun file => file.toList.getLast?) file
  simp at ends

/-- The tree goes further, with the same templates. -/
structure TemplatesKept (views : Path) (t u : FileTree) : Prop where
  further : t.Extends u
  same : ∀ a ∈ templatesIn views t, u.contentsAt? a.1.place = t.contentsAt? a.1.place

namespace TemplatesKept

theorem refl (views : Path) (t : FileTree) : TemplatesKept views t t := ⟨.refl t, fun _ _ => rfl⟩

theorem read (kept : TemplatesKept views t u) (sound : t.Sound) {a : Path × String}
    (ha : a ∈ templatesIn views t) : u.read a.1 = t.read a.1 :=
  kept.further.read_eq (fun _ on => FileTree.node?_of_mem_listAt sound (named_of_mem ha).1 on)
    (kept.same a ha)

theorem converted (kept : TemplatesKept views t u) (sound : t.Sound) {b : Path × String}
    (hb : b ∈ templatesIn views t) {text : String} {may : Prop}
    (went : Went may [conversionStep root b.2 text] u v true) : TemplatesKept views t v := by
  have done := went.done
  refine ⟨kept.further.trans done.further, fun a ha => ?_⟩
  rw [← kept.same a ha]
  cases done with
  | cons does rest =>
    cases rest
    apply does.contentsAt?
    rw [conversionStep]
    split
    · rw [Step.textAt?, if_neg (source_ne_target sound ha hb)]
    · rfl

end TemplatesKept

variable {σ : Type} {o : Outside σ} {tree : σ → FileTree} {e e' : σ} {calls : List Call}
  {found : List Path}

/-- Each template is written converted, also where the project is among the views or they are in it. -/
theorem convertTemplates_writes (follows : o.Follows tree True e) (sound : (tree e).Sound)
    (ran : (convertTemplates o.files.recorded views root).run.run (e, []) = (.ok found, e', calls))
    {a : Path × String} (ha : a ∈ templatesIn views (tree e)) :
    .write (conversionTarget root a.2) (toDjango (orEmpty ((tree e).read a.1))) (.ok ()) ∈ calls := by
  obtain ⟨mid, looks, more, rfl, _, same, follows', leads, converted⟩ := convertTemplates_ran follows ran
  have start : TemplatesKept views (tree e) (tree mid) := by rw [same]; exact .refl _ _
  obtain ⟨_, runs⟩ := converted.went_of (fun b hb u kept => TemplatesKept.read kept sound hb)
    (fun b hb text u v went kept => kept.converted sound hb went) start follows' leads
  have step : .write (conversionTarget root a.2) (toDjango (orEmpty ((tree e).read a.1))) ∈
      conversions views root (tree e) := by
    rw [← conversionOf_eq sound ha]
    exact List.mem_map_of_mem ha
  exact List.mem_append_right _ (List.mem_filter.mp (runs.succeeded.mem_write.mpr ⟨step, rfl⟩)).1

/-- A conversion that succeeds puts an include of the page `d/p.html` in the place of a call for `d/p`, with
all around it as it would be. Below the templates of the project that is the page that it writes for the
template `d/p.html.erb`, if that is there. The partial `d/_p.html.erb` is written to `d/_p.html`, which is
another page. -/
theorem include_names_template (follows : o.Follows tree True e) (sound : (tree e).Sound)
    (ran : (convertTemplates o.files.recorded views root).run.run (e, []) = (.ok found, e', calls))
    {a : Path × String} (ha : a ∈ templatesIn views (tree e)) {text : String}
    (readable : (tree e).read a.1 = .ok text) {front back : List Piece} {t : Tag}
    (tagged : pieces text.toList = front ++ .tag t :: back) (output : t.sigil = .output)
    (words : Words dir stem) (callsFor : CallsFor t.code (nameOf dir stem).toList) :
    .write (conversionTarget root a.2) (.ofList (renderPieces [] front) ++ includeTag (nameOf dir stem) ++
      .ofList (renderPieces (openBehind [] front) back)) (.ok ()) ∈ calls ∧
    (HasView views (tree e) dir (stem ++ pageEnding) →
      .write ((root.join templatesDir).join (nameOf dir stem ++ ".html"))
        (toDjango (orEmpty ((tree e).read (views.joinAll (dir ++ [stem ++ pageEnding]))))) (.ok ()) ∈
          calls) ∧
    (HasView views (tree e) dir ("_" ++ stem ++ pageEnding) →
      .write ((root.join templatesDir).join (nameOf dir ("_" ++ stem) ++ ".html"))
        (toDjango (orEmpty ((tree e).read (views.joinAll (dir ++ ["_" ++ stem ++ pageEnding]))))) (.ok ()) ∈
          calls ∧
      ((root.join templatesDir).join (nameOf dir ("_" ++ stem) ++ ".html")).place ≠
        ((root.join templatesDir).join (nameOf dir stem ++ ".html")).place) := by
  refine ⟨?_, ?_, ?_⟩
  · have converted := convertTemplates_writes follows sound ran ha
    have put := Rails.Erb.toDjango_of_call tagged output callsFor words.ne_empty words.chars
    rw [readable, orEmpty, put] at converted
    exact converted
  · intro view
    have written := convertTemplates_writes follows sound ran (HasView.template view sound).1
    exact written
  · intro view
    obtain ⟨template, named⟩ := HasView.template view sound
    have written := convertTemplates_writes follows sound ran template
    exact ⟨written, page_ne_of_partial words named⟩

def postViews (files : List (String × String)) : FileTree :=
  files.foldl (fun t file => t.put ["in", "app", "views", "posts", file.1] (.file (.ofText file.2))) .empty

def listText : String := "<ul><%= render partial: 'posts/item', item: @post %></ul>"

def itemTag : Tag := ⟨.output, " render partial: 'posts/item', item: @post ".toList⟩

def listWithItems : FileTree := postViews
  [("index.html.erb", listText), ("item.html.erb", "<b>all</b>"), ("_item.html.erb", "<li></li>")]

theorem include_names_item :
    World.outside.Follows World.tree True (World.ofTree listWithItems []) ∧ listWithItems.Sound ∧
      ∃ found w calls, conversionRun listWithItems = (.ok found, w, calls) ∧
        .write ⟨"out/templates/posts/index.html"⟩ "<ul>\x7b% include 'posts/item.html' %\x7d</ul>" (.ok ()) ∈
          calls ∧
        .write ⟨"out/templates/posts/item.html"⟩ "<b>all</b>" (.ok ()) ∈ calls ∧
        .write ⟨"out/templates/posts/_item.html"⟩ "<li></li>" (.ok ()) ∈ calls := by
  have follows : World.outside.Follows World.tree True (World.ofTree listWithItems []) :=
    World.follows_ofTree _
  have sound : listWithItems.Sound :=
    .put (.put (.put .empty (.file _) (by decide)) (.file _) (by decide)) (.file _) (by decide)
  have ok : (conversionRun listWithItems).1.isOk = true := by decide +kernel
  obtain ⟨found, ran⟩ := ran_of_isOk ok
  have template : (⟨"in/app/views/posts/index.html.erb"⟩, "posts/index") ∈
      templatesIn ⟨"in/app/views"⟩ listWithItems := by decide +kernel
  have readable : listWithItems.read ⟨"in/app/views/posts/index.html.erb"⟩ = .ok listText := by
    decide +kernel
  have tagged : pieces listText.toList =
      "<ul>".toList.map .plain ++ .tag itemTag :: "</ul>".toList.map .plain := by decide +kernel
  have letters : ∀ part ∈ ["posts", "item"], part.toList.all Text.isWord = true := by decide +kernel
  have words : Words ["posts"] "item" :=
    ⟨fun part member => List.all_eq_true.mp (letters part member), by decide⟩
  have callsFor : CallsFor itemTag.code (nameOf ["posts"] "item").toList :=
    ⟨[' '], "partial: ".toList, '\'', '\'', ", item: @post".toList, by decide +kernel,
      .blank (by decide), .given (b := [' ']) (by decide), .inl rfl, .inl rfl⟩
  have view : HasView ⟨"in/app/views"⟩ listWithItems ["posts"] ("item" ++ pageEnding) :=
    ⟨_, by rfl, _, by rfl⟩
  have view' : HasView ⟨"in/app/views"⟩ listWithItems ["posts"] ("_" ++ "item" ++ pageEnding) :=
    ⟨_, by rfl, _, by rfl⟩
  obtain ⟨index, item, hidden⟩ :=
    include_names_template follows sound ran template readable tagged rfl words callsFor
  exact ⟨follows, sound, found, _, _, ran, index, item view, (hidden view').1⟩

def itemPartial : FileTree := postViews
  [("index.html.erb", "<%= render 'posts/item' %>"), ("_item.html.erb", "<li></li>")]

/-- A call for a partial includes a page that is not there, while the partial has gone to another. A call
for a name that is more than words is not taken for one. -/
theorem partial_not_included :
    ∃ found w calls, conversionRun itemPartial = (.ok found, w, calls) ∧
      w.tree.contentsAt? (Path.mk "out/templates/posts/index.html").place =
        some (.ofText (includeTag "posts/item")) ∧
      w.tree.contentsAt? (Path.mk "out/templates/posts/item.html").place = none ∧
      w.tree.contentsAt? (Path.mk "out/templates/posts/_item.html").place = some (.ofText "<li></li>") ∧
      toDjango "<%= render 'posts/all-items' %>" = "\x7b\x7b render 'posts/all-items' \x7d\x7d" := by
  have done : (conversionRun itemPartial).1.isOk = true ∧
      (conversionRun itemPartial).2.1.tree.contentsAt? (Path.mk "out/templates/posts/index.html").place =
        some (.ofText (includeTag "posts/item")) ∧
      (conversionRun itemPartial).2.1.tree.contentsAt? (Path.mk "out/templates/posts/item.html").place =
        none ∧
      (conversionRun itemPartial).2.1.tree.contentsAt? (Path.mk "out/templates/posts/_item.html").place =
        some (.ofText "<li></li>") := by decide +kernel
  obtain ⟨found, ran⟩ := ran_of_isOk done.1
  have not_taken : toDjango "<%= render 'posts/all-items' %>" =
      "\x7b\x7b render 'posts/all-items' \x7d\x7d" := by decide +kernel
  exact ⟨found, _, _, ran, done.2.1, done.2.2.1, done.2.2.2, not_taken⟩

end Build

end Transplant
