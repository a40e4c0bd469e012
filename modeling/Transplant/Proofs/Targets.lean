import Transplant.Proofs.Answers

/-! The files that templates are converted to. A template is a file whose name has the ending of one;
it goes below the templates of the project, into the same directory under the same name with the
ending of a page. -/
namespace Transplant

namespace Path

theorem isPart_of_isName {name : String} (named : IsName name) : (Component.normal name).IsPart :=
  isPart_of_normal (p := ⟨name⟩) (by rw [named]; exact List.mem_cons_self)

theorem slash_not_mem_name {name : String} (named : IsName name) : '/' ∉ name.toList :=
  (isPart_of_isName named).2

theorem components_intercalate {names : List String} (named : ∀ name ∈ names, IsName name) :
    (Path.mk ("/".intercalate names)).components = names.map Component.normal := by
  have parts : ∀ c ∈ names.map Component.normal, c.IsPart := by
    intro c member
    obtain ⟨name, there, rfl⟩ := List.mem_map.mp member
    exact isPart_of_isName (named name there)
  have spelled : ("/".intercalate names).toList =
      (joinComponents (names.map Component.normal)).toList := by
    rw [joinComponents_toList, String.toList_intercalate, List.map_map]
    rfl
  rw [components_text, componentsOf_eq, spelled, lead_join parts, filterMap_splitSlashes_join parts]
  rfl

end Path

theorem isName_ending {stem ending : String} (plain : '/' ∉ stem.toList) (inner : '/' ∉ ending.toList)
    (size : 3 ≤ ending.toList.length) : IsName (stem ++ ending) := by
  apply Path.isName_of_isPart
  constructor
  · change Path.componentOf? (stem ++ ending).toList = _
    have long : 3 ≤ (stem ++ ending).toList.length := by
      rw [String.toList_append, List.length_append]
      exact Nat.le_trans size (Nat.le_add_left _ _)
    unfold Path.componentOf?
    split
    · rename_i short
      rw [short] at long
      exact absurd long (by decide)
    · rename_i short
      rw [short] at long
      exact absurd long (by decide)
    · rename_i short
      rw [short] at long
      exact absurd long (by decide)
    · rw [String.ofList_toList]
  · change '/' ∉ (stem ++ ending).toList
    rw [String.toList_append, List.mem_append, not_or]
    exact ⟨plain, inner⟩

theorem isName_page {stem rest : String} (named : IsName (stem ++ rest)) : IsName (stem ++ ".html") := by
  have plain := Path.slash_not_mem_name named
  rw [String.toList_append, List.mem_append, not_or] at plain
  exact isName_ending plain.1 (by decide) (by decide)

namespace Rails.Template

def plainEnding : String := ".erb"

def pageEnding : String := ".html.erb"

/-- The file under these names is a template, in this directory and with this stem. -/
def IsAt (dir : List String) (stem : String) (names : List String) : Prop :=
  names = dir ++ [stem ++ pageEnding] ∨
    names = dir ++ [stem ++ plainEnding] ∧ ¬ ".html".toList <:+ stem.toList

/-- What stands in front of a name in the text of a path. -/
def frontOf (dir : List String) : List Char := dir.flatMap fun name => name.toList ++ ['/']

theorem toList_intercalate_concat (dir : List String) (name : String) :
    ("/".intercalate (dir ++ [name])).toList = frontOf dir ++ name.toList := by
  rw [String.toList_intercalate]
  induction dir with
  | nil => simp [frontOf, List.intercalate_singleton]
  | cons first rest ih =>
    cases rest with
    | nil =>
      simp only [List.cons_append, List.nil_append, List.map_cons, List.map_nil,
        List.intercalate_cons_cons, List.intercalate_singleton]
      simp [frontOf]
    | cons next rest =>
      simp only [List.cons_append, List.map_cons, List.intercalate_cons_cons] at ih ⊢
      rw [ih]
      simp [frontOf]

theorem slash_of_frontOf {dir : List String} {before after : List Char}
    (split : frontOf dir = before ++ after) (further : after ≠ []) : '/' ∈ after := by
  rcases List.eq_nil_or_concat dir with rfl | ⟨dir, name, rfl⟩
  · have none : before ++ after = [] := split.symm
    exact absurd (List.append_eq_nil_iff.mp none).2 further
  · have last : (frontOf (dir.concat name)).getLast? = some '/' := by
      rw [List.concat_eq_append, frontOf, List.flatMap_append, List.flatMap_singleton,
        ← List.append_assoc, List.getLast?_concat]
    rw [split, List.getLast?_append_of_ne_nil _ further] at last
    exact List.mem_of_getLast? last

theorem ending_iff {dir : List String} {file : String} {ending text : List Char}
    (plain : '/' ∉ ending) :
    frontOf dir ++ file.toList = text ++ ending ↔
      ∃ stem, text = frontOf dir ++ stem ∧ file.toList = stem ++ ending := by
  constructor
  · intro whole
    rcases List.append_eq_append_iff.mp whole with ⟨stem, same, split⟩ | ⟨after, split, same⟩
    · exact ⟨stem, same, split⟩
    · rcases List.eq_nil_or_concat after with none | ⟨_, _, _⟩
      · subst none
        exact ⟨[], by simpa using split.symm, by simpa using same.symm⟩
      · have slash := slash_of_frontOf split (by simp [*])
        exact absurd (same ▸ List.mem_append_left _ slash) plain
  · rintro ⟨stem, rfl, split⟩
    rw [split, List.append_assoc]

def withoutEnding (ending : String) (name : List Char) : Option String :=
  if ending.toList.isSuffixOf name then some (.ofList (name.take (name.length - ending.length)))
  else none

theorem nameOf?_eq (components : List Path.Component) : nameOf? components =
    (withoutEnding pageEnding ("/".intercalate (components.map Path.Component.text)).toList).or
      (withoutEnding plainEnding ("/".intercalate (components.map Path.Component.text)).toList) :=
  rfl

theorem withoutEnding_eq_some_iff {ending : String} {text : List Char} {name : String} :
    withoutEnding ending text = some name ↔ text = name.toList ++ ending.toList := by
  rw [withoutEnding]
  split_ifs with ends
  · obtain ⟨front, rfl⟩ := List.isSuffixOf_iff_suffix.mp ends
    rw [List.length_append, String.length_toList, Nat.add_sub_cancel, List.take_left,
      Option.some.injEq, List.append_cancel_right_eq]
    constructor
    · rintro rfl
      exact String.toList_ofList.symm
    · rintro rfl
      exact String.ofList_toList
  · constructor
    · intro none; cases none
    · rintro rfl
      exact absurd (List.isSuffixOf_iff_suffix.mpr (List.suffix_append _ _)) ends

theorem withoutEnding_eq_none_iff {ending : String} {text : List Char} :
    withoutEnding ending text = none ↔ ¬ ending.toList <:+ text := by
  rw [withoutEnding, ← List.isSuffixOf_iff_suffix]
  split_ifs with ends <;> simp [ends]

theorem withoutEnding_file {ending file name : String} {dir : List String}
    (plain : '/' ∉ ending.toList) :
    withoutEnding ending ("/".intercalate (dir ++ [file])).toList = some name ↔
      ∃ stem, file = stem ++ ending ∧ name = "/".intercalate (dir ++ [stem]) := by
  rw [withoutEnding_eq_some_iff, toList_intercalate_concat, ending_iff plain]
  constructor
  · rintro ⟨stem, front, split⟩
    refine ⟨.ofList stem, ?_, ?_⟩
    · rw [← String.toList_inj, split, String.toList_append, String.toList_ofList]
    · rw [← String.toList_inj, front, toList_intercalate_concat, String.toList_ofList]
  · rintro ⟨stem, rfl, rfl⟩
    exact ⟨stem.toList, toList_intercalate_concat dir stem, String.toList_append⟩

theorem page_suffix_iff {dir : List String} {stem : String} :
    pageEnding.toList <:+ ("/".intercalate (dir ++ [stem ++ plainEnding])).toList ↔
      ".html".toList <:+ stem.toList := by
  have whole : pageEnding.toList = ".html".toList ++ plainEnding.toList := by decide
  constructor
  · rintro ⟨text, split⟩
    rw [toList_intercalate_concat] at split
    obtain ⟨stem', _, same⟩ := (ending_iff (by decide)).mp split.symm
    rw [String.toList_append, whole, ← List.append_assoc, List.append_cancel_right_eq] at same
    exact ⟨stem', same.symm⟩
  · rintro ⟨front, same⟩
    refine ⟨frontOf dir ++ front, ?_⟩
    rw [toList_intercalate_concat, String.toList_append, ← same, whole]
    simp

/-- The name of a template is that of its file with the ending left out. -/
theorem nameOf?_eq_some_iff {names : List String} {name : String} :
    nameOf? (names.map Path.Component.normal) = some name ↔
      ∃ dir stem, IsAt dir stem names ∧ name = "/".intercalate (dir ++ [stem]) := by
  have texts : (names.map Path.Component.normal).map Path.Component.text = names := by
    rw [List.map_map]
    exact List.map_id _
  rw [nameOf?_eq, texts, Option.or_eq_some_iff, withoutEnding_eq_none_iff]
  constructor
  · rcases List.eq_nil_or_concat names with rfl | ⟨dir, file, rfl⟩
    · intro none
      simp [withoutEnding_eq_some_iff, plainEnding, pageEnding] at none
    · rw [List.concat_eq_append, withoutEnding_file (by decide), withoutEnding_file (by decide)]
      rintro (⟨stem, rfl, rfl⟩ | ⟨other, stem, rfl, rfl⟩)
      · exact ⟨dir, stem, .inl rfl, rfl⟩
      · exact ⟨dir, stem, .inr ⟨rfl, fun ends => other (page_suffix_iff.mpr ends)⟩, rfl⟩
  · rintro ⟨dir, stem, rfl | ⟨rfl, other⟩, rfl⟩
    · exact .inl ((withoutEnding_file (by decide)).mpr ⟨stem, rfl, rfl⟩)
    · exact .inr ⟨fun ends => other (page_suffix_iff.mp ends),
        (withoutEnding_file (by decide)).mpr ⟨stem, rfl, rfl⟩⟩

/-- A path below the views is a template just if its names have one. -/
theorem named?_joinAll {views : Path} {names : List String} (named : ∀ name ∈ names, IsName name) :
    named? views (views.joinAll names) =
      (nameOf? (names.map Path.Component.normal)).map (views.joinAll names, ·) := by
  rw [named?, Path.below?_joinAll named]
  cases same : nameOf? (names.map Path.Component.normal) <;> simp [same]

end Rails.Template

namespace Build

open Rails.Template (IsAt pageEnding plainEnding)

variable {views root : Path} {t : FileTree} {dir names : List String} {stem : String}

theorem mem_templatesIn_iff (sound : t.Sound) {source : Path} {name : String} :
    (source, name) ∈ templatesIn views t ↔
      ∃ sub, t.find views = .ok sub ∧ ∃ names ∈ sub.places, source = views.joinAll names ∧
        ∃ dir stem, IsAt dir stem names ∧ name = "/".intercalate (dir ++ [stem]) := by
  rw [templatesIn, List.mem_filterMap]
  have named : ∀ {sub : FileTree}, t.find views = .ok sub → ∀ names ∈ sub.places,
      Rails.Template.named? views (views.joinAll names) =
        (Rails.Template.nameOf? (names.map Path.Component.normal)).map (views.joinAll names, ·) :=
    fun found names listed => Rails.Template.named?_joinAll
      ((sound.get? (FileTree.find_ok_iff.mp found).2).names listed)
  constructor
  · rintro ⟨p, listed, same⟩
    obtain ⟨sub, found, names, there, rfl⟩ := FileTree.find_of_mem_listAt listed
    rw [named found names there, Option.map_eq_some_iff] at same
    obtain ⟨name', same, pair⟩ := same
    cases pair
    exact ⟨sub, found, names, there, rfl, Rails.Template.nameOf?_eq_some_iff.mp same⟩
  · rintro ⟨sub, found, names, there, rfl, isTemplate⟩
    refine ⟨views.joinAll names, ?_, ?_⟩
    · rw [FileTree.listAt_eq found]
      exact List.mem_map_of_mem there
    · rw [named found names there, Rails.Template.nameOf?_eq_some_iff.mpr isTemplate]
      rfl

theorem page_names (named : ∀ name ∈ names, IsName name) (isAt : IsAt dir stem names) :
    ∀ name ∈ dir ++ [stem ++ ".html"], IsName name := by
  have parts : ∃ rest, names = dir ++ [stem ++ rest] := by
    rcases isAt with same | ⟨same, _⟩ <;> exact ⟨_, same⟩
  obtain ⟨rest, rfl⟩ := parts
  rw [List.forall_mem_append] at named ⊢
  refine ⟨named.1, ?_⟩
  rw [List.forall_mem_singleton] at named ⊢
  exact isName_page named.2

theorem page_components (named : ∀ name ∈ names, IsName name) (isAt : IsAt dir stem names) :
    (Path.mk ("/".intercalate (dir ++ [stem]) ++ ".html")).components =
      (dir ++ [stem ++ ".html"]).map Path.Component.normal := by
  have text : "/".intercalate (dir ++ [stem]) ++ ".html" = "/".intercalate (dir ++ [stem ++ ".html"]) := by
    rw [← String.toList_inj, String.toList_append, Rails.Template.toList_intercalate_concat,
      Rails.Template.toList_intercalate_concat, String.toList_append, List.append_assoc]
  rw [text, Path.components_intercalate (page_names named isAt)]

theorem page_staysBelow (named : ∀ name ∈ names, IsName name) (isAt : IsAt dir stem names) :
    staysBelow ("/".intercalate (dir ++ [stem]) ++ ".html") = true := by
  have components := page_components named isAt
  have some : "/".intercalate (dir ++ [stem]) ++ ".html" ≠ "" := by
    intro none
    have empty : (Path.mk "").components = [] := by decide
    rw [none, empty] at components
    simp at components
  rw [staysBelow, components]
  simp [some, Path.Component.isNormal]

/-- A template is converted to the page in the same directory. -/
theorem place_conversionTarget (named : ∀ name ∈ names, IsName name) (isAt : IsAt dir stem names) :
    (conversionTarget root ("/".intercalate (dir ++ [stem]))).place =
      root.place ++ templatesDir :: (dir ++ [stem ++ ".html"]) := by
  have texts : ((dir ++ [stem ++ ".html"]).map Path.Component.normal).map Path.Component.text =
      dir ++ [stem ++ ".html"] := by
    rw [List.map_map]
    exact List.map_id _
  have templates : (root.join templatesDir).place = root.place ++ [templatesDir] :=
    root.place_join_entry (by decide)
  rw [conversionTarget, Path.place_join (page_staysBelow named isAt), page_components named isAt,
    texts, templates, List.append_assoc, List.singleton_append]

theorem conversionOf_eq (sound : t.Sound) {a : Path × String} (ha : a ∈ templatesIn views t) :
    conversionOf root t a =
      .write (conversionTarget root a.2) (Rails.Erb.toDjango (orEmpty (t.read a.1))) := by
  obtain ⟨sub, found, names, there, _, dir, stem, isAt, name⟩ := (mem_templatesIn_iff sound).mp ha
  have named := (sound.get? (FileTree.find_ok_iff.mp found).2).names there
  rw [conversionOf, conversionStep, name, if_pos (page_staysBelow named isAt)]

end Build

end Transplant
