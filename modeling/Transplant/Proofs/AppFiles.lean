import Transplant.Proofs.FieldOrder
import Transplant.Proofs.FileLines

/-! The files of an app tell what its plan says. Two lists of models, of views or of paths have the same
file just if they are the same one by one, where of a type only its call counts. -/
namespace Transplant

/-- The text is made of word characters. -/
def Plan.Wordy (s : String) : Prop := ∀ c ∈ s.toList, Text.isWord c = true

instance (s : String) : Decidable (Plan.Wordy s) :=
  decidable_of_iff (s.toList.all Text.isWord = true) List.all_eq_true

theorem Plan.Wordy.not_mem {s : String} (wordy : Wordy s) {c : Char} (mark : Text.isWord c = false) :
    c ∉ s.toList := by
  intro inside
  rw [wordy c inside] at mark
  cases mark

namespace Plan

open Text (Blank)

def withoutCall : List Char → List Char
  | ['(', ')'] => []
  | c :: cs => if c = '(' then c :: cs else c :: withoutCall cs
  | [] => []

/-- What a type comes to: without the blanks around it, without `models.` in front of it and without an
empty list of arguments behind it. A blank type is the default. -/
def FieldMap.normalType (type : Option String) : String :=
  if Blank (type.getD "").toList then "CharField(max_length=255)"
  else .ofList (withoutCall (Django.withoutModels (type.getD "").trimmed).toList)

def View.normalType (type : Option String) : String :=
  if Blank (type.getD "").toList then "View" else (type.getD "").trimmed

def FieldMap.normal (m : FieldMap) : FieldMap where
  entries := m.entries.map fun e => (e.1, some (normalType e.2))
  distinct := by simpa [Function.comp_def] using m.distinct

def Model.normal (m : Model) : Model := ⟨m.name, m.fields.normal⟩

def View.normal (v : View) : View := { v with type := some (normalType v.type) }

/-- Names are words, and each type is on one line. -/
structure Model.Plain (m : Model) : Prop where
  name : Wordy m.name
  fields : ∀ e ∈ m.fields.entries, Wordy e.1 ∧ ∀ type ∈ e.2, '\n' ∉ type.toList

structure View.Plain (v : View) : Prop where
  name : Wordy v.name
  type : ∀ type ∈ v.type, '\n' ∉ type.toList
  model : ∀ name ∈ v.model, Wordy name
  template : ∀ name ∈ v.template, '\n' ∉ name.toList

/-- The view is named with a word, and the pattern can stand between quotes. -/
structure Url.Plain (u : Url) : Prop where
  pattern : '\'' ∉ u.pattern.toList
  view : Wordy u.view

def called (name : List Char) : List Char := if name.contains '(' then name else name ++ ['(', ')']

theorem called_cons {c : Char} (other : c ≠ '(') (cs : List Char) : called (c :: cs) = c :: called cs := by
  rw [called, called, List.contains_cons, beq_false_of_ne other.symm, Bool.false_or]
  split <;> rfl

theorem withoutCall_cons {c : Char} (other : c ≠ '(') (cs : List Char) :
    withoutCall (c :: cs) = c :: withoutCall cs := by
  rw [withoutCall, if_neg other]
  rintro rfl
  exact absurd rfl other

theorem called_withoutCall (cs : List Char) : called (withoutCall cs) = called cs := by
  fun_induction withoutCall cs with
  | case1 => rfl
  | case2 cs => rfl
  | case3 c cs _ other ih => rw [called_cons other, called_cons other, ih]
  | case4 => rfl

theorem withoutCall_called (cs : List Char) : withoutCall (called cs) = withoutCall cs := by
  induction cs with
  | nil => rfl
  | cons c cs ih =>
    by_cases bracket : c = '('
    · subst bracket
      rfl
    · rw [called_cons bracket, withoutCall_cons bracket, withoutCall_cons bracket, ih]

namespace FieldMap

theorem constructorOf_toList (type : Option String) :
    (constructorOf type).toList = called (normalType type).toList := by
  rw [constructorOf, normalType]
  split
  · rfl
  · rename_i given
    obtain _ | t := type
    · exact absurd Text.blank_nil given
    · rw [String.toList_ofList, called_withoutCall]
      simp only [Option.map_some, Option.getD_some, Django.fieldConstructor, called]
      split <;> simp [toString]

theorem normalType_toList (type : Option String) :
    (normalType type).toList = withoutCall (constructorOf type).toList := by
  rw [constructorOf_toList, normalType]
  split
  · rfl
  · rw [String.toList_ofList, called_withoutCall, withoutCall_called]

/-- Two types have the same constructor just if they come to the same. -/
theorem constructorOf_inj {a b : Option String} : constructorOf a = constructorOf b ↔
    normalType a = normalType b := by
  constructor
  · intro same
    rw [← String.toList_inj, normalType_toList, normalType_toList, same]
  · intro same
    rw [← String.toList_inj, constructorOf_toList, constructorOf_toList, same]

end FieldMap

theorem not_mem_trimmed {s : String} {c : Char} (out : c ∉ s.toList) : c ∉ s.trimmed.toList := by
  rw [String.trimmed, String.toList_ofList]
  exact fun inside => out ((Text.trim_within s.toList).subset inside)

theorem withoutCall_subset (name : List Char) : withoutCall name ⊆ name := by
  fun_induction withoutCall name with
  | case1 => exact List.nil_subset _
  | case2 cs => exact List.Subset.refl _
  | case3 c cs _ _ ih => exact List.cons_subset_cons c ih
  | case4 => exact List.Subset.refl _

theorem newline_not_mem_given {type : Option String} (line : ∀ t ∈ type, '\n' ∉ t.toList) :
    '\n' ∉ (type.getD "").toList := by
  cases type with
  | none => simp
  | some t => exact line t rfl

theorem FieldMap.newline_not_mem_constructorOf {type : Option String}
    (line : ∀ t ∈ type, '\n' ∉ t.toList) : '\n' ∉ (constructorOf type).toList := by
  have plain : '\n' ∉ (normalType type).toList := by
    rw [normalType]
    split
    · decide
    · intro inside
      rw [String.toList_ofList] at inside
      have name := withoutCall_subset _ inside
      rw [Django.withoutModels] at name
      refine not_mem_trimmed (newline_not_mem_given line) ?_
      split at name
      · exact List.mem_of_mem_drop (String.toList_ofList ▸ name)
      · exact name
  rw [constructorOf_toList, called]
  split
  · exact plain
  · simpa using plain

theorem map_inj_of {α β γ : Type} {f : α → β} {g : α → γ} {as bs : List α}
    (same : ∀ a ∈ as, ∀ b ∈ bs, (f a = f b ↔ g a = g b)) :
    as.map f = bs.map f ↔ as.map g = bs.map g := by
  induction as generalizing bs with
  | nil => cases bs <;> simp
  | cons a as ih =>
    cases bs with
    | nil => simp
    | cons b bs =>
      have rest : as.map f = bs.map f ↔ as.map g = bs.map g := by
        exact ih fun x hx y hy => same x (List.mem_cons_of_mem a hx) y (List.mem_cons_of_mem b hy)
      rw [List.map_cons, List.map_cons, List.map_cons, List.map_cons, List.cons.injEq, List.cons.injEq,
        same a List.mem_cons_self b List.mem_cons_self, rest]

/-- Behind the two empty lines in front of each block, a block ends where the next empty line is. -/
theorem blocks_inj {α : Type} {block content : α → List String}
    (parts : ∀ a, block a = "" :: "" :: content a) {as bs : List α} (full_as : ∀ a ∈ as, "" ∉ content a)
    (full_bs : ∀ b ∈ bs, "" ∉ content b) :
    as.flatMap block = bs.flatMap block ↔ as.map content = bs.map content := by
  constructor
  · intro same
    induction as generalizing bs with
    | nil =>
      cases bs with
      | nil => rfl
      | cons b bs => simp [parts] at same
    | cons a as ih =>
      cases bs with
      | nil => simp [parts] at same
      | cons b bs =>
        -- Behind the last block an empty line is put, so that each block has one behind it.
        have start : ∀ cs : List α, ∃ rest, cs.flatMap block ++ [""] = "" :: rest := by
          intro cs
          cases cs with
          | nil => exact ⟨[], rfl⟩
          | cons c cs => exact ⟨_, by rw [List.flatMap_cons, parts]; rfl⟩
        obtain ⟨x, hx⟩ := start as
        obtain ⟨y, hy⟩ := start bs
        have whole : content a ++ "" :: x = content b ++ "" :: y := by
          have ended := congrArg (· ++ [""]) same
          simpa [parts, hx, hy] using ended
        rw [append_mark_inj (full_as a List.mem_cons_self) (full_bs b List.mem_cons_self)] at whole
        have behind : as.flatMap block = bs.flatMap block := by
          rw [← List.append_left_inj [""], hx, hy, whole.2]
        rw [List.map_cons, List.map_cons, whole.1, ih (fun c hc => full_as c (List.mem_cons_of_mem a hc))
          (fun c hc => full_bs c (List.mem_cons_of_mem b hc)) behind]
  · intro same
    have whole : ∀ cs : List α, cs.flatMap block = (cs.map content).flatMap fun c => "" :: "" :: c := by
      intro cs
      rw [List.flatMap_map]
      exact List.flatMap_congr fun c _ => parts c
    rw [whole, whole, same]

/-- A file of blocks tells of what it is made, as far as the lines of a block tell it. -/
theorem blocks_file_inj {α β : Type} {block content : α → List String} {normal : α → β} {Plain : α → Prop}
    (parts : ∀ a, block a = "" :: "" :: content a)
    (lines : ∀ {a}, Plain a → ∀ line ∈ content a, line ≠ "" ∧ '\n' ∉ line.toList)
    (inj : ∀ {a b}, Plain a → Plain b → (content a = content b ↔ normal a = normal b))
    {head : List String} (plain_head : ∀ line ∈ head, '\n' ∉ line.toList) {as bs : List α}
    (plain_as : ∀ a ∈ as, Plain a) (plain_bs : ∀ b ∈ bs, Plain b) :
    Django.unlines (head ++ as.flatMap block) = Django.unlines (head ++ bs.flatMap block) ↔
      as.map normal = bs.map normal := by
  have whole : ∀ {cs : List α}, (∀ c ∈ cs, Plain c) →
      ∀ line ∈ head ++ cs.flatMap block, '\n' ∉ line.toList := by
    intro cs plain line member
    obtain old | new := List.mem_append.mp member
    · exact plain_head line old
    · obtain ⟨c, inside, member⟩ := List.mem_flatMap.mp new
      rw [parts, List.mem_cons, List.mem_cons] at member
      obtain rfl | rfl | member := member
      · simp
      · simp
      · exact (lines (plain c inside) line member).2
  have full : ∀ {cs : List α}, (∀ c ∈ cs, Plain c) → ∀ c ∈ cs, "" ∉ content c :=
    fun plain c inside empty => (lines (plain c inside) "" empty).1 rfl
  rw [Django.unlines_inj (whole plain_as) (whole plain_bs), List.append_cancel_left_eq,
    blocks_inj parts (full plain_as) (full plain_bs)]
  exact map_inj_of fun a ha b hb => inj (plain_as a ha) (plain_bs b hb)

section Models

def Model.block (m : Model) : List String := (Django.modelLines m).drop 2

theorem Model.block_eq (m : Model) : m.block = s!"class {m.name}(models.Model):" ::
    if m.fields.entries = [] then [Django.passLine] else m.fields.fields.map Django.fieldLine := by
  simp [block, Django.modelLines]

theorem fieldLine_toList (e : String × Option String) : (Django.fieldLine e).toList =
    "    ".toList ++ (e.1.toList ++ ' ' ::
      ("= models.".toList ++ (Django.fieldConstructor e.2).toList)) := by
  simp [Django.fieldLine, toString]

theorem fieldLine_inj {name name' : String} {type type' : Option String} (wordy : Wordy name)
    (wordy' : Wordy name') : Django.fieldLine (name, type) = Django.fieldLine (name', type') ↔
      name = name' ∧ Django.fieldConstructor type = Django.fieldConstructor type' := by
  rw [← String.toList_inj, fieldLine_toList, fieldLine_toList, List.append_cancel_left_eq,
    append_mark_inj (wordy.not_mem (by decide +kernel)) (wordy'.not_mem (by decide +kernel)),
    List.append_cancel_left_eq, String.toList_inj, String.toList_inj]

/-- A model without fields is not taken for one with a field of that name. -/
theorem fieldLine_ne_pass (e : String × Option String) : Django.fieldLine e ≠ Django.passLine := by
  intro same
  have pass : Django.passLine.toList = "    ".toList ++ "pass".toList := by decide
  rw [← String.toList_inj, fieldLine_toList, pass, List.append_cancel_left_eq] at same
  have blank : ' ' ∈ "pass".toList := same ▸ List.mem_append_right _ List.mem_cons_self
  exact absurd blank (by decide)

theorem Model.Plain.fieldLine_inj {m m' : Model} (plain : m.Plain) (plain' : m'.Plain)
    {e e' : String × Option String} (he : e ∈ m.fields.entries) (he' : e' ∈ m'.fields.entries) :
    Django.fieldLine (e.1, FieldMap.given? e.2) = Django.fieldLine (e'.1, FieldMap.given? e'.2) ↔
      (e.1, some (FieldMap.normalType e.2)) = (e'.1, some (FieldMap.normalType e'.2)) := by
  rw [Plan.fieldLine_inj (plain.fields e he).1 (plain'.fields e' he').1,
    FieldMap.fieldConstructor_given?, FieldMap.fieldConstructor_given?, FieldMap.constructorOf_inj,
    Prod.mk.injEq, Option.some.injEq]

theorem Model.block_inj {m m' : Model} (plain : m.Plain) (plain' : m'.Plain) :
    m.block = m'.block ↔ m.normal = m'.normal := by
  obtain ⟨name, ⟨entries, distinct⟩⟩ := m
  obtain ⟨other, ⟨entries', distinct'⟩⟩ := m'
  have head : s!"class {name}(models.Model):" = s!"class {other}(models.Model):" ↔ name = other := by
    simp [toString]
  have lines := map_inj_of fun _ he _ he' => plain.fieldLine_inj plain' he he'
  rw [block_eq, block_eq, List.cons.injEq, head, normal, normal, Model.mk.injEq, FieldMap.normal,
    FieldMap.normal, FieldMap.mk.injEq, and_congr_right_iff]
  rintro -
  rw [← lines]
  cases entries with
  | nil => cases entries' <;> simp [FieldMap.fields, Ne.symm (fieldLine_ne_pass _)]
  | cons e entries => cases entries' <;> simp [FieldMap.fields, Function.comp_def, fieldLine_ne_pass]

theorem Model.Plain.lines {m : Model} (plain : m.Plain) :
    ∀ line ∈ m.block, line ≠ "" ∧ '\n' ∉ line.toList := by
  have name : '\n' ∉ m.name.toList := plain.name.not_mem (by decide +kernel)
  rw [block_eq, List.forall_mem_cons]
  refine ⟨⟨by simp [toString], by simpa [toString] using name⟩, ?_⟩
  split
  · decide
  · rw [FieldMap.fields, List.map_map, List.forall_mem_map]
    intro e member
    have line := FieldMap.newline_not_mem_constructorOf (plain.fields e member).2
    have word := (plain.fields e member).1.not_mem (c := '\n') (by decide +kernel)
    rw [Function.comp_apply, ← FieldMap.fieldConstructor_given?] at *
    rw [← String.toList_inj.ne, fieldLine_toList]
    exact ⟨by simp, by simpa using ⟨word, line⟩⟩

theorem modelsPy_inj {models models' : List Model} (plain : ∀ m ∈ models, m.Plain)
    (plain' : ∀ m ∈ models', m.Plain) : Django.modelsPy models = Django.modelsPy models' ↔
      models.map Model.normal = models'.map Model.normal := by
  have head : ∀ line ∈ ["from django.db import models"], '\n' ∉ line.toList := by decide
  exact blocks_file_inj (fun _ => rfl) Model.Plain.lines Model.block_inj head plain plain'

end Models

section Views

def View.block (v : View) : List String := (Django.viewLines v).drop 2

theorem viewBase_eq (v : View) : Django.viewBase v = View.normalType v.type := by
  rw [Django.viewBase, FieldMap.given?_eq, View.normalType]
  split
  · rfl
  · rename_i given
    cases type : v.type with
    | none => exact absurd (type ▸ Text.blank_nil) given
    | some t => rfl

theorem View.block_eq (v : View) : v.block = s!"class {v.name}(generic.{Django.viewBase v}):" ::
    if v.model.isNone && v.template.isNone then [Django.passLine] else Django.bindingLines v := by
  simp [block, Django.viewLines, toString]

theorem viewHead_inj {name other base otherBase : String} (wordy : Wordy name) (wordy' : Wordy other) :
    s!"class {name}(generic.{base}):" = s!"class {other}(generic.{otherBase}):" ↔
      name = other ∧ base = otherBase := by
  have chars : ∀ name base : String, s!"class {name}(generic.{base}):".toList =
      "class ".toList ++ (name.toList ++ '(' :: ("generic.".toList ++ (base.toList ++ "):".toList))) := by
    simp [toString]
  rw [← String.toList_inj, chars, chars, List.append_cancel_left_eq,
    append_mark_inj (wordy.not_mem (by decide +kernel)) (wordy'.not_mem (by decide +kernel)),
    List.append_cancel_left_eq, List.append_cancel_right_eq, String.toList_inj, String.toList_inj]

/-- The lines of a view say which of the two bindings there are, and what they are. -/
theorem bindings_inj {v v' : View} :
    (if v.model.isNone && v.template.isNone then [Django.passLine] else Django.bindingLines v) =
        (if v'.model.isNone && v'.template.isNone then [Django.passLine] else Django.bindingLines v') ↔
      v.model = v'.model ∧ v.template = v'.template := by
  have pass : Django.passLine.toList = "    pass".toList := by decide
  obtain ⟨_, _, model, template⟩ := v
  obtain ⟨_, _, model', template'⟩ := v'
  cases model <;> cases template <;> cases model' <;> cases template' <;>
    simp [Django.bindingLines, toString, ← String.toList_inj, pass]

theorem View.block_inj {v v' : View} (plain : v.Plain) (plain' : v'.Plain) :
    v.block = v'.block ↔ v.normal = v'.normal := by
  rw [block_eq, block_eq, List.cons.injEq, viewHead_inj plain.name plain'.name, bindings_inj, viewBase_eq,
    viewBase_eq, normal, normal, View.mk.injEq, Option.some.injEq, and_assoc]

theorem View.Plain.lines {v : View} (plain : v.Plain) :
    ∀ line ∈ v.block, line ≠ "" ∧ '\n' ∉ line.toList := by
  have name : '\n' ∉ v.name.toList := plain.name.not_mem (by decide +kernel)
  have base : '\n' ∉ (Django.viewBase v).toList := by
    rw [viewBase_eq, View.normalType]
    split
    · decide
    · exact not_mem_trimmed (newline_not_mem_given plain.type)
  rw [block_eq, List.forall_mem_cons]
  refine ⟨⟨by simp [toString], by simpa [toString] using ⟨name, base⟩⟩, ?_⟩
  split
  · decide
  · rw [Django.bindingLines, List.forall_mem_append]
    constructor
    · intro line member
      obtain ⟨model, some, rfl⟩ := by simpa using member
      have word := (plain.model model some).not_mem (c := '\n') (by decide +kernel)
      exact ⟨by simp [toString], by simpa [toString] using word⟩
    · intro line member
      obtain ⟨template, some, rfl⟩ := by simpa using member
      exact ⟨by simp [toString], by simpa [toString] using plain.template template some⟩

theorem viewsPy_inj {views views' : List View} (plain : ∀ v ∈ views, v.Plain)
    (plain' : ∀ v ∈ views', v.Plain) : Django.viewsPy views = Django.viewsPy views' ↔
      views.map View.normal = views'.map View.normal :=
  blocks_file_inj (fun _ => rfl) View.Plain.lines View.block_inj (by decide) plain plain'

end Views

section Urls

theorem unlines_urlLine (u : Url) (rest : List String) :
    (Django.unlines (Django.urlLine u :: rest)).toList = "    path('".toList ++ (u.pattern.toList ++
      '\'' :: (", views.".toList ++ (u.view.toList ++ '.' :: ("as_view(), name='".toList ++
        ((Django.lowerCase u.view).toList ++ ("'),\n".toList ++ (Django.unlines rest).toList)))))) := by
  rw [Django.unlines_cons_toList]
  simp [Django.urlLine, toString]

theorem Url.Plain.line_inj {u u' : Url} (plain : u.Plain) (plain' : u'.Plain) {rest rest' : List String} :
    Django.unlines (Django.urlLine u :: rest) = Django.unlines (Django.urlLine u' :: rest') ↔
      u = u' ∧ Django.unlines rest = Django.unlines rest' := by
  obtain ⟨pattern, view⟩ := u
  obtain ⟨pattern', view'⟩ := u'
  rw [← String.toList_inj, unlines_urlLine, unlines_urlLine, List.append_cancel_left_eq,
    append_mark_inj plain.pattern plain'.pattern, List.append_cancel_left_eq,
    append_mark_inj (plain.view.not_mem (by decide +kernel)) (plain'.view.not_mem (by decide +kernel)),
    List.append_cancel_left_eq, String.toList_inj, String.toList_inj, Url.mk.injEq, and_assoc]
  refine and_congr_right fun _ => and_congr_right ?_
  rintro rfl
  rw [List.append_cancel_left_eq, List.append_cancel_left_eq, String.toList_inj]

theorem urlLines_inj {urls urls' : List Url} (plain : ∀ u ∈ urls, u.Plain)
    (plain' : ∀ u ∈ urls', u.Plain) :
    Django.unlines (urls.map Django.urlLine ++ ["]"]) = Django.unlines (urls'.map Django.urlLine ++ ["]"]) ↔
      urls = urls' := by
  have ended : ∀ (u : Url) rest, Django.unlines ["]"] ≠ Django.unlines (Django.urlLine u :: rest) := by
    intro u rest same
    rw [← String.toList_inj, unlines_urlLine] at same
    cases same
  induction urls generalizing urls' with
  | nil =>
    cases urls' with
    | nil => simp
    | cons u' urls' => simpa using ended u' _
  | cons u urls ih =>
    rw [List.forall_mem_cons] at plain
    cases urls' with
    | nil => simpa using (ended u _).symm
    | cons u' urls' =>
      rw [List.forall_mem_cons] at plain'
      rw [List.map_cons, List.map_cons, List.cons_append, List.cons_append, plain.1.line_inj plain'.1,
        List.cons.injEq]
      exact and_congr_right fun _ => ih plain.2 plain'.2

theorem urlsPy_inj {urls urls' : List Url} (plain : ∀ u ∈ urls, u.Plain)
    (plain' : ∀ u ∈ urls', u.Plain) : Django.urlsPy urls = Django.urlsPy urls' ↔ urls = urls' := by
  rw [← urlLines_inj plain plain', Django.urlsPy, Django.urlsPy]
  simp [Django.unlines]

end Urls

/-- The files of an app say all that its plan says of its models, views and paths: two lists have the same
file just if they are the same one by one. Of the type of a field only its constructor counts, without
`models.` in front and without an empty list of arguments, and of that of a view what is left without the
blanks around it; a type that is blank or not given is the default. -/
theorem files_injective {models models' : List Model} {views views' : List View} {urls urls' : List Url}
    (models_plain : ∀ m ∈ models ++ models', m.Plain) (views_plain : ∀ v ∈ views ++ views', v.Plain)
    (urls_plain : ∀ u ∈ urls ++ urls', u.Plain) :
    (Django.modelsPy models = Django.modelsPy models' ↔
      models.map Model.normal = models'.map Model.normal) ∧
    (Django.viewsPy views = Django.viewsPy views' ↔ views.map View.normal = views'.map View.normal) ∧
    (Django.urlsPy urls = Django.urlsPy urls' ↔ urls = urls') := by
  rw [List.forall_mem_append] at models_plain views_plain urls_plain
  exact ⟨modelsPy_inj models_plain.1 models_plain.2, viewsPy_inj views_plain.1 views_plain.2,
    urlsPy_inj urls_plain.1 urls_plain.2⟩

def note (text : String) : Model := ⟨"Note", ⟨[("pass", none), ("text", some text)], by simp⟩⟩

def noteView (type : String) : View := ⟨"NoteList", some type, some "Note", none⟩

theorem files_injective_note :
    (∀ m ∈ [note " models.TextField "] ++ [note "TextField()"], m.Plain) ∧
    (∀ v ∈ [noteView " ListView"] ++ [noteView "DetailView"], v.Plain) ∧
    (∀ u ∈ [⟨"notes/", "NoteList"⟩] ++ ([] : List Url), u.Plain) ∧
    Django.modelsPy [note " models.TextField "] = Django.modelsPy [note "TextField()"] ∧
    Django.viewsPy [noteView " ListView"] ≠ Django.viewsPy [noteView "DetailView"] ∧
    Django.urlsPy [⟨"notes/", "NoteList"⟩] ≠ Django.urlsPy [] := by
  have models : ∀ m ∈ [note " models.TextField "] ++ [note "TextField()"], m.Plain := by
    simp only [List.cons_append, List.nil_append, List.forall_mem_cons]
    exact ⟨⟨by decide +kernel, by decide +kernel⟩, ⟨by decide +kernel, by decide +kernel⟩, by simp⟩
  have views : ∀ v ∈ [noteView " ListView"] ++ [noteView "DetailView"], v.Plain := by
    simp only [List.cons_append, List.nil_append, List.forall_mem_cons]
    exact ⟨⟨by decide +kernel, by decide +kernel, by decide +kernel, by decide +kernel⟩,
      ⟨by decide +kernel, by decide +kernel, by decide +kernel, by decide +kernel⟩, by simp⟩
  have urls : ∀ u ∈ [⟨"notes/", "NoteList"⟩] ++ ([] : List Url), u.Plain := by
    simp only [List.append_nil, List.forall_mem_cons]
    exact ⟨⟨by decide +kernel, by decide +kernel⟩, by simp⟩
  obtain ⟨same, views_differ, urls_differ⟩ := files_injective models views urls
  exact ⟨models, views, urls, same.mpr (by decide +kernel), mt views_differ.mp (by decide +kernel),
    mt urls_differ.mp (by decide +kernel)⟩

end Plan

end Transplant
