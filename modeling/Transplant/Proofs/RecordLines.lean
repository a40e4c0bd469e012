import Transplant.Proofs.ClassText

/-! Records of a text of directives. Each line of the class declares accessors, with commas and any blanks
between them, or one relation; their symbols are any words, those of directives too. The record has them
all, each kind in the order of the lines. -/
namespace Transplant.Rails.Record

open Text Text.Pattern ClassText
open Route (Word)

/-- A symbol behind a comma, with blanks on both sides of the comma. -/
structure Further where
  before : Blanks
  after : Blanks
  name : Word

def Further.chars (f : Further) : List Char :=
  f.before.chars ++ ',' :: (f.after.chars ++ ':' :: f.name.chars)

inductive Directive where
  | accessors (gap : Gap) (first : Word) (more : List Further)
  | relation (r : Relation) (gap : Gap) (target : Word)

namespace Directive

def keyword : Directive → String
  | accessors .. => "attr_accessor"
  | relation .hasMany .. => "has_many"
  | relation .belongsTo .. => "belongs_to"
  | relation .hasOne .. => "has_one"
  | relation .hasOneAttached .. => "has_one_attached"
  | relation .hasRichText .. => "has_rich_text"

def tail : Directive → List Char
  | accessors gap first more => gap.chars ++ ':' :: (first.chars ++ more.flatMap Further.chars)
  | relation _ gap target => gap.chars ++ ':' :: target.chars

def chars (d : Directive) : List Char := d.keyword.toList ++ d.tail

def attributes? : Directive → Option (List String)
  | accessors _ first more => some (.ofList first.chars :: more.map fun f => .ofList f.name.chars)
  | relation .. => none

def association? : Directive → Option Association
  | accessors .. => none
  | relation r _ target => some ⟨r, .ofList target.chars⟩

theorem keyword_relation (r : Relation) (gap : Gap) (target : Word) :
    (relation r gap target).keyword = r.keyword := by
  cases r <;> rfl

theorem keywords_inWord : ∀ s ∈ "attr_accessor" :: Relation.all.map Relation.keyword,
    s.toList.all isWord = true := by
  decide

theorem mem_all (r : Relation) : r ∈ Relation.all := by
  cases r <;> decide

theorem keyword_mem (d : Directive) : d.keyword ∈ "attr_accessor" :: Relation.all.map Relation.keyword := by
  cases d with
  | accessors => exact List.mem_cons_self
  | relation r gap target =>
    rw [keyword_relation]
    exact List.mem_cons_of_mem _ (List.mem_map_of_mem (mem_all r))

theorem keyword_inWord (d : Directive) : ∀ c ∈ d.keyword.toList, isWord c = true :=
  List.all_eq_true.mp (keywords_inWord d.keyword d.keyword_mem)

theorem keyword_ne_nil (d : Directive) : d.keyword.toList ≠ [] := by
  cases d with
  | accessors => simp [keyword]
  | relation r => cases r <;> simp [keyword]

theorem starts (d : Directive) : ∃ c cs, d.chars = c :: cs ∧ startsLine c = true := by
  obtain ⟨c, cs, first⟩ := List.exists_cons_of_ne_nil d.keyword_ne_nil
  have word : isWord c = true := d.keyword_inWord c (by simp [first])
  exact ⟨c, cs ++ d.tail, by rw [chars, first, List.cons_append], by simp [startsLine, word]⟩

end Directive

section

variable {α : Type} {p : Pattern α} {words : List (List Char)}

/-- No symbol of a line announces anything: a comma follows it, or the next line. -/
theorem pass_symbols (h : AnnouncedBy p words isColon) (first : Word) (more : List Further)
    {rest : List Char} (resumes : Resumes rest) :
    scanFrom true p false 0 (first.chars ++ (more.flatMap Further.chars ++ rest)) =
      scanFrom true p true 0 rest := by
  induction more generalizing first with
  | nil =>
    exact h.pass_word first.nonempty first.inWord resumes.stops_isWord fun _ =>
      resumes.not_opens fun _ => not_isColon_of_startsLine
  | cons f more ih =>
    have between : first.chars ++ ((f :: more).flatMap Further.chars ++ rest) =
        first.chars ++ ((f.before.chars ++ [',']) ++ ((f.after.chars ++ [':']) ++
          (f.name.chars ++ (more.flatMap Further.chars ++ rest)))) := by
      simp [Further.chars]
    have quiet : ¬ Opens isColon ((f.before.chars ++ [',']) ++ ((f.after.chars ++ [':']) ++
        (f.name.chars ++ (more.flatMap Further.chars ++ rest)))) := by
      rw [List.append_assoc, List.singleton_append]
      exact not_opens f.before.blank (by decide) (by decide)
    rw [between, h.pass_both first.nonempty first.inWord (by simp) (mark_out f.before.blank (by decide))
      fun _ => quiet, h.pass_marks (by simp) (mark_out f.after.blank (by decide)), ih]

/-- A directive announces nothing but what its first word does. -/
theorem pass_directive (h : AnnouncedBy p words isColon) (d : Directive)
    (other : d.keyword.toList ∉ words) {rest : List Char} (resumes : Resumes rest) :
    scanFrom true p false 0 (d.chars ++ rest) = scanFrom true p true 0 rest := by
  obtain ⟨gap, first, more, split⟩ : ∃ gap : Gap, ∃ (first : Word) (more : List Further), d.tail =
      (gap.chars ++ [':']) ++ (first.chars ++ more.flatMap Further.chars) := by
    cases d with
    | accessors gap first more => exact ⟨gap, first, more, by simp [Directive.tail]⟩
    | relation r gap target => exact ⟨gap, target, [], by simp [Directive.tail]⟩
  have line : d.chars ++ rest = d.keyword.toList ++ ((gap.chars ++ [':']) ++
      (first.chars ++ (more.flatMap Further.chars ++ rest))) := by
    simp [Directive.chars, split]
  rw [line, h.pass_both d.keyword_ne_nil d.keyword_inWord (by simp) (mark_out gap.blank (by decide))
    fun member => absurd member other, pass_symbols h first more resumes]

theorem meets (h : AnnouncedBy p words isColon) (others : ∀ w ∈ ["class", "end", "ApplicationRecord"],
      w.toList ∉ words) {value : Directive → Option α}
    (own : ∀ d a rest, value d = some a → Resumes rest → p (d.chars ++ rest) = some (a, rest))
    (foreign : ∀ d, value d = none → d.keyword.toList ∉ words) :
    Meets .record Directive.chars true p value := by
  refine meets_of_announcedBy h others (by decide) Directive.starts fun d rest resumes => ?_
  cases told : value d with
  | none => exact ⟨true, pass_directive h d (foreign d told) resumes⟩
  | some a =>
    obtain ⟨c, cs, first, _⟩ := d.starts
    exact ⟨_, scanFrom_found rfl (by simp [first]) (own d a rest told resumes)⟩

end

theorem symbol_eq_some {s : String} {cs rest : List Char} : symbol cs = some (s, rest) ↔
    ∃ w : Word, cs = ':' :: (w.chars ++ rest) ∧ Stops isWord rest ∧ s = .ofList w.chars := by
  rw [symbol]
  simp only [bind_eq_some, literal_eq_some, word, run1_eq_some, pure_eq_some, List.all_eq_true]
  constructor
  · rintro ⟨_, _, rfl, w, _, ⟨rfl, inWord, stops, some⟩, rfl, rfl⟩
    exact ⟨⟨w, some, inWord⟩, rfl, stops, rfl⟩
  · rintro ⟨w, rfl, stops, rfl⟩
    exact ⟨(), _, rfl, w.chars, rest, ⟨rfl, w.inWord, stops, w.nonempty⟩, rfl, rfl⟩

theorem relation_eq_some {r : Relation} {a : Association} {cs rest : List Char} :
    relation r cs = some (a, rest) ↔ ∃ (gap : Gap) (w : Word),
      cs = r.keyword.toList ++ (gap.chars ++ ':' :: (w.chars ++ rest)) ∧ Stops isWord rest ∧
        a = ⟨r, .ofList w.chars⟩ := by
  rw [relation]
  simp only [bind_eq_some, literal_eq_some, blanks1_eq_some, symbol_eq_some, pure_eq_some,
    List.all_eq_true]
  constructor
  · rintro ⟨_, _, rfl, _, _, ⟨gap, rfl, blank, _, some⟩, _, _, ⟨w, rfl, stops, rfl⟩, rfl, rfl⟩
    exact ⟨⟨⟨gap, blank⟩, some⟩, w, rfl, stops, rfl⟩
  · rintro ⟨gap, w, rfl, stops, rfl⟩
    exact ⟨(), _, rfl, (), _, ⟨gap.chars, rfl, gap.blank, stops_cons (by decide), gap.nonempty⟩, _, _,
      ⟨w, rfl, stops, rfl⟩, rfl, rfl⟩

theorem association_announcedBy :
    AnnouncedBy association ((Relation.all.map Relation.keyword).map String.toList) isColon where
  nonempty := by decide
  announced cs found reads := by
    obtain ⟨q, member, reads⟩ := exists_of_oneOf reads
    obtain ⟨r, known, rfl⟩ := List.mem_map.mp member
    obtain ⟨gap, w, rfl, _⟩ := relation_eq_some.mp reads
    have keyword := List.mem_map_of_mem (f := Relation.keyword) known
    exact announces_symbol (List.mem_map_of_mem keyword)
      (Directive.keywords_inWord _ (List.mem_cons_of_mem _ keyword)) gap _

theorem keyword_inj : ∀ r ∈ Relation.all, ∀ q ∈ Relation.all,
    q.keyword.toList = r.keyword.toList → q = r := by
  decide

theorem takeWhile_keyword (r : Relation) (gap : Gap) (rest : List Char) :
    (r.keyword.toList ++ (gap.chars ++ ':' :: rest)).takeWhile isWord = r.keyword.toList := by
  have keyword := List.mem_map_of_mem (f := Relation.keyword) (Directive.mem_all r)
  have announced := announces_symbol (List.mem_singleton_self _)
    (Directive.keywords_inWord _ (List.mem_cons_of_mem _ keyword)) gap rest
  exact List.mem_singleton.mp announced.1

/-- Of all relations only the one of the line is read. -/
theorem association_line (r : Relation) (gap : Gap) (target : Word) {rest : List Char}
    (stops : Stops isWord rest) : association ((Directive.relation r gap target).chars ++ rest) =
      some (⟨r, .ofList target.chars⟩, rest) := by
  have line : (Directive.relation r gap target).chars ++ rest =
      r.keyword.toList ++ (gap.chars ++ ':' :: (target.chars ++ rest)) := by
    simp [Directive.chars, Directive.keyword_relation, Directive.tail]
  have reads := relation_eq_some.mpr ⟨gap, target, line, stops, rfl⟩
  refine oneOf_eq_some (List.mem_map_of_mem (Directive.mem_all r)) reads ?_
  intro p member other found
  obtain ⟨q, known, rfl⟩ := List.mem_map.mp member
  obtain ⟨gap', w, split, _⟩ := relation_eq_some.mp found
  have same : q = r := by
    refine keyword_inj r (Directive.mem_all r) q known ?_
    rw [← takeWhile_keyword q gap', ← split, line, takeWhile_keyword]
  rw [same, reads] at found
  exact (Option.some.inj found).symm

def further : Pattern String := do
  blanks
  literal ","
  blanks
  symbol

theorem further_chars (f : Further) {rest : List Char} (stops : Stops isWord rest) :
    further (f.chars ++ rest) = some (.ofList f.name.chars, rest) := by
  have line : f.chars ++ rest =
      f.before.chars ++ ',' :: (f.after.chars ++ ':' :: (f.name.chars ++ rest)) := by
    simp [Further.chars]
  rw [line, further]
  simp only [bind_eq_some, literal_eq_some, blanks_eq_some, symbol_eq_some, List.all_eq_true]
  exact ⟨(), _, ⟨f.before.chars, rfl, f.before.blank, stops_cons (by decide)⟩, (), _, rfl, (), _,
    ⟨f.after.chars, rfl, f.after.blank, stops_cons (by decide)⟩, f.name, rfl, stops, rfl⟩

theorem further_resumes {rest : List Char} (resumes : Resumes rest) : further rest = none := by
  cases reads : further rest with
  | none => rfl
  | some found =>
    obtain ⟨s, behind⟩ := found
    rw [further] at reads
    simp only [bind_eq_some, literal_eq_some, blanks_eq_some] at reads
    obtain ⟨_, _, ⟨before, rfl, blank, _⟩, _, _, rfl, _⟩ := reads
    obtain ⟨gap, c, cs, split, _, gapBlank, start⟩ := resumes
    have next := congrArg (List.dropWhile isBlank) split
    rw [List.dropWhile_append_of_pos (List.all_eq_true.mp blank), List.dropWhile_append_of_pos gapBlank,
      List.dropWhile_cons_of_neg (by simp [not_isBlank_of_startsLine start])] at next
    have comma : ',' = c := (List.cons.inj next).1
    rw [← comma] at start
    cases start

theorem stops_further (more : List Further) {rest : List Char} (resumes : Resumes rest) :
    Stops isWord (more.flatMap Further.chars ++ rest) := by
  cases more with
  | nil => exact resumes.stops_isWord
  | cons f more =>
    rw [List.flatMap_cons, Further.chars, List.append_assoc, List.append_assoc]
    exact stops_append (fun c member => not_isWord_of_isBlank (f.before.blank c member))
      (stops_cons (by decide))

theorem manyUpTo_further (more : List Further) {rest : List Char} (resumes : Resumes rest) {n : Nat}
    (enough : more.length ≤ n) : manyUpTo further n (more.flatMap Further.chars ++ rest) =
      (more.map fun f => .ofList f.name.chars, rest) := by
  induction more generalizing n with
  | nil =>
    cases n with
    | zero => rfl
    | succ n => rw [List.flatMap_nil, List.nil_append, manyUpTo, further_resumes resumes]; rfl
  | cons f more ih =>
    obtain ⟨n, rfl⟩ : ∃ m, n = m + 1 := ⟨n - 1, by simp at enough; omega⟩
    rw [List.flatMap_cons, List.append_assoc, manyUpTo, further_chars f (stops_further more resumes)]
    simp only [ih (Nat.le_of_succ_le_succ enough), List.map_cons]

theorem length_le_chars (more : List Further) : more.length ≤ (more.flatMap Further.chars).length := by
  induction more with
  | nil => simp
  | cons f more ih =>
    rw [List.flatMap_cons, List.length_append, List.length_cons, Further.chars, List.length_append,
      List.length_cons]
    omega

theorem many_further (more : List Further) {rest : List Char} (resumes : Resumes rest) :
    many further (more.flatMap Further.chars ++ rest) =
      some (more.map fun f => .ofList f.name.chars, rest) := by
  have enough : more.length ≤ (more.flatMap Further.chars ++ rest).length := by
    rw [List.length_append]
    exact (length_le_chars more).trans (Nat.le_add_right _ _)
  rw [many, manyUpTo_further more resumes enough]

theorem accessors_eq : accessors = do
    literal "attr_accessor"
    blanks1
    let first ← symbol
    let more ← many further
    return first :: more :=
  rfl

theorem accessors_announcedBy : AnnouncedBy accessors ["attr_accessor".toList] isColon where
  nonempty := by decide
  announced cs found reads := by
    obtain ⟨names, behind⟩ := found
    rw [accessors_eq] at reads
    simp only [bind_eq_some, literal_eq_some, blanks1_eq_some, symbol_eq_some, List.all_eq_true] at reads
    obtain ⟨_, _, rfl, _, _, ⟨gap, rfl, blank, _, some⟩, _, _, ⟨w, rfl, _⟩, _⟩ := reads
    exact announces_symbol (List.mem_singleton_self _)
      (Directive.keywords_inWord _ List.mem_cons_self) ⟨⟨gap, blank⟩, some⟩ _

theorem accessors_line (gap : Gap) (first : Word) (more : List Further) {rest : List Char}
    (resumes : Resumes rest) : accessors ((Directive.accessors gap first more).chars ++ rest) =
      some (.ofList first.chars :: more.map fun f => .ofList f.name.chars, rest) := by
  have line : (Directive.accessors gap first more).chars ++ rest = "attr_accessor".toList ++
      (gap.chars ++ ':' :: (first.chars ++ (more.flatMap Further.chars ++ rest))) := by
    simp [Directive.chars, Directive.keyword, Directive.tail]
  rw [line, accessors_eq]
  simp only [bind_eq_some, literal_eq_some, blanks1_eq_some, symbol_eq_some, pure_eq_some,
    List.all_eq_true]
  exact ⟨(), _, rfl, (), _, ⟨gap.chars, rfl, gap.blank, stops_cons (by decide), gap.nonempty⟩, _, _,
    ⟨first, rfl, stops_further more resumes, rfl⟩, _, _, many_further more resumes, rfl, rfl⟩

theorem accessors_meets : Meets .record Directive.chars true accessors Directive.attributes? := by
  refine meets accessors_announcedBy (by decide) ?_ ?_
  · rintro (⟨gap, first, more⟩ | _) names rest told resumes
    · cases told
      exact accessors_line gap first more resumes
    · cases told
  · rintro (_ | ⟨r⟩) told
    · cases told
    · cases r <;> simp [Directive.keyword]

theorem association_meets : Meets .record Directive.chars true association Directive.association? := by
  refine meets association_announcedBy (by decide) ?_ ?_
  · rintro (_ | ⟨r, gap, target⟩) a rest told resumes
    · cases told
    · cases told
      exact association_line r gap target resumes.stops_isWord
  · rintro (_ | _) told
    · exact (by decide : "attr_accessor".toList ∉ (Relation.all.map Relation.keyword).map String.toList)
    · cases told

/-- The record of a class has its name and all that its lines declare: the symbols of the accessors, and
the relations with their targets, each in the order of the lines. -/
theorem ofText?_lines (name : Word) (lines : List (Line Directive)) (last : Blanks) :
    ofText? (textOf .record name Directive.chars lines last) = some
      { name := .ofList name.chars
        attributes := (lines.filterMap fun l => l.content.attributes?).flatten
        associations := lines.filterMap fun l => l.content.association? } := by
  have declared : (scanWords declaration (charsOf .record name Directive.chars lines last)).head? =
      some (.ofList name.chars) := head?_declared .record name rfl Directive.starts lines last
  have attributes := accessors_meets.scan_text name last lines
  have associations := association_meets.scan_text name last lines
  simp only [scanWords] at declared
  simp only [ofText?, textOf, String.toList_ofList, scanWords, declared, attributes, associations]
  rfl

def postLines : List (Line Directive) :=
  [⟨.indent, .accessors .space (.of "title") [⟨Gap.space.toBlanks, .of "\n    ", .of "body"⟩], .none⟩,
    ⟨.of "\n  ", .relation .hasMany .space (.of "has_one"), .none⟩]

theorem ofText?_post :
    textOf .record (.of "Post") Directive.chars postLines (.of "\n") =
      "class Post < ApplicationRecord\n  attr_accessor :title ,\n    :body\n\n  has_many :has_one\nend\n" ∧
    ofText? (textOf .record (.of "Post") Directive.chars postLines (.of "\n")) =
      some ⟨"Post", ["title", "body"], [⟨.hasMany, "has_one"⟩]⟩ := by
  refine ⟨by decide +kernel, (ofText?_lines _ postLines _).trans ?_⟩
  decide +kernel

end Transplant.Rails.Record
