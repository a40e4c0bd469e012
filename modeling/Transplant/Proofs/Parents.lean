import Transplant.Proofs.Ways
import Mathlib.Data.List.Basic

/-! The parent of a path: its components without the last one, spelled again. The new spelling leaves
out what components leave out, so it is no longer than the path was. -/
namespace Transplant

open FileTree (Step Node)

namespace Path

theorem slash_not_mem_part {cs part : List Char} (member : part ∈ splitSlashes cs) : '/' ∉ part := by
  induction cs using splitSlashes.induct generalizing part with
  | case1 =>
    rw [splitSlashes, List.mem_singleton] at member
    simp [member]
  | case2 cs ih =>
    rcases List.mem_cons.mp member with rfl | later
    · exact List.not_mem_nil
    · exact ih later
  | case3 c cs plain first others split ih =>
    rw [splitSlashes, split] at member
    · rcases List.mem_cons.mp member with rfl | later
      · have behind : '/' ∉ first := ih (by rw [split]; exact List.mem_cons_self)
        exact fun slash => (List.mem_cons.mp slash).elim (fun same => plain same.symm) behind
      · exact ih (by rw [split]; exact List.mem_cons_of_mem _ later)
    · exact plain
  | case4 c cs plain split _ => exact absurd split (splitSlashes_ne_nil cs)

theorem splitSlashes_of_not_mem {cs : List Char} (none : '/' ∉ cs) : splitSlashes cs = [cs] := by
  induction cs with
  | nil => rfl
  | cons c rest ih =>
    have start : c ≠ '/' := by
      rintro rfl
      exact none List.mem_cons_self
    rw [splitSlashes, ih fun slash => none (List.mem_cons_of_mem _ slash)]
    exact start

theorem intercalate_splitSlashes (cs : List Char) : ['/'].intercalate (splitSlashes cs) = cs := by
  induction cs using splitSlashes.induct with
  | case1 => rfl
  | case2 cs ih =>
    obtain ⟨part, parts, split⟩ := List.exists_cons_of_ne_nil (splitSlashes_ne_nil cs)
    rw [splitSlashes, split, List.intercalate_cons_cons, ← split, ih]
    rfl
  | case3 c cs plain first others split ih =>
    rw [splitSlashes, split]
    · rw [split] at ih
      cases others with
      | nil => rw [List.intercalate_singleton] at ih ⊢; rw [ih]
      | cons next others =>
        rw [List.intercalate_cons_cons] at ih ⊢
        simpa using ih
    · exact plain
  | case4 c cs plain split _ => exact absurd split (splitSlashes_ne_nil cs)

theorem intercalate_sublist {sep : List Char} {parts kept : List (List Char)}
    (h : kept.Sublist parts) : (sep.intercalate kept).Sublist (sep.intercalate parts) := by
  induction h with
  | slnil => exact List.Sublist.refl _
  | @cons kept parts part _ ih =>
    cases parts with
    | nil => exact ih.trans (List.nil_sublist _)
    | cons next parts =>
      rw [List.intercalate_cons_cons]
      exact ih.trans (List.sublist_append_right _ _)
  | @cons_cons kept parts part sub ih =>
    cases kept with
    | nil =>
      cases parts with
      | nil => exact List.Sublist.refl _
      | cons next parts =>
        rw [List.intercalate_cons_cons, List.intercalate_singleton, List.append_assoc]
        exact List.sublist_append_left _ _
    | cons first kept =>
      cases parts with
      | nil => cases sub
      | cons next parts =>
        rw [List.intercalate_cons_cons, List.intercalate_cons_cons]
        exact (List.Sublist.refl _).append ih

theorem utf8ByteSize_le_of_sublist {cs ds : List Char} (h : cs.Sublist ds) :
    (String.ofList cs).utf8ByteSize ≤ (String.ofList ds).utf8ByteSize := by
  have cons : ∀ c (rest : List Char),
      (String.ofList (c :: rest)).utf8ByteSize = c.utf8Size + (String.ofList rest).utf8ByteSize := by
    intro c rest
    simp
  induction h with
  | slnil => exact Nat.le_refl _
  | cons c _ ih => rw [cons]; exact Nat.le_trans ih (Nat.le_add_left _ _)
  | cons_cons c _ ih => rw [cons, cons]; exact Nat.add_le_add_left ih _

def Component.spelling (c : Component) : List Char := c.text.toList

def Component.IsPart (c : Component) : Prop := componentOf? c.spelling = some c ∧ '/' ∉ c.spelling

theorem spelling_of_componentOf? {part : List Char} {c : Component}
    (h : componentOf? part = some c) : c.spelling = part := by
  unfold componentOf? at h
  split at h <;> cases h
  · rfl
  · exact String.toList_ofList

theorem isPart_of_mem {cs : List Char} {c : Component}
    (member : c ∈ (splitSlashes cs).filterMap componentOf?) : c.IsPart := by
  obtain ⟨part, there, named⟩ := List.mem_filterMap.mp member
  rw [Component.IsPart, spelling_of_componentOf? named]
  exact ⟨named, slash_not_mem_part there⟩

theorem spellings_sublist (parts : List (List Char)) :
    ((parts.filterMap componentOf?).map Component.spelling).Sublist parts := by
  induction parts with
  | nil => exact List.Sublist.refl _
  | cons part rest ih =>
    rw [List.filterMap_cons]
    cases named : componentOf? part with
    | none => exact ih.cons part
    | some c =>
      rw [List.map_cons, spelling_of_componentOf? named]
      exact ih.cons_cons part

theorem joinComponents_toList (cs : List Component) :
    (joinComponents cs).toList = ['/'].intercalate (cs.map Component.spelling) := by
  induction cs with
  | nil => rfl
  | cons c rest ih =>
    cases rest with
    | nil => rw [joinComponents, List.map_singleton, List.intercalate_singleton]; rfl
    | cons next rest =>
      rw [joinComponents, String.toList_append, String.toList_append, ih]
      · simp only [List.map_cons, List.intercalate_cons_cons]
        rfl
      · exact List.cons_ne_nil _ _

theorem splitSlashes_intercalate {parts : List (List Char)} (some : parts ≠ [])
    (plain : ∀ part ∈ parts, '/' ∉ part) : splitSlashes (['/'].intercalate parts) = parts := by
  induction parts with
  | nil => exact absurd rfl some
  | cons part rest ih =>
    have first := splitSlashes_of_not_mem (plain part List.mem_cons_self)
    cases rest with
    | nil => rw [List.intercalate_singleton, first]
    | cons next rest =>
      have later := ih (List.cons_ne_nil _ _) fun part member => plain part (List.mem_cons_of_mem _ member)
      rw [List.intercalate_cons_cons, List.append_assoc, List.singleton_append,
        splitSlashes_append_slash, first, later]
      rfl

theorem splitSlashes_join {cs : List Component} (some : cs ≠ []) (parts : ∀ c ∈ cs, c.IsPart) :
    splitSlashes (joinComponents cs).toList = cs.map Component.spelling := by
  rw [joinComponents_toList]
  apply splitSlashes_intercalate (by simpa using some)
  intro part member
  obtain ⟨c, there, rfl⟩ := List.mem_map.mp member
  exact (parts c there).2

theorem filterMap_splitSlashes_join {cs : List Component} (parts : ∀ c ∈ cs, c.IsPart) :
    (splitSlashes (joinComponents cs).toList).filterMap componentOf? = cs := by
  cases cs with
  | nil => rfl
  | cons c rest =>
    rw [splitSlashes_join (List.cons_ne_nil _ _) parts]
    generalize c :: rest = cs at parts
    induction cs with
    | nil => rfl
    | cons c rest ih =>
      rw [List.map_cons, List.filterMap_cons_some (parts c List.mem_cons_self).1,
        ih fun c' member => parts c' (List.mem_cons_of_mem _ member)]

theorem lead_join {cs : List Component} (parts : ∀ c ∈ cs, c.IsPart) :
    lead (joinComponents cs).toList = [] := by
  cases cs with
  | nil => rfl
  | cons c rest =>
    have named := (parts c List.mem_cons_self).1
    have split := splitSlashes_join (List.cons_ne_nil _ _) parts
    unfold lead
    split_ifs with absolute dot
    · exfalso
      obtain ⟨behind, slash⟩ := List.head?_eq_some_iff.mp absolute
      rw [slash, splitSlashes, List.map_cons] at split
      have nothing : c.spelling = [] := (List.cons.inj split).1.symm
      rw [nothing] at named
      cases named
    · rw [split, List.map_cons, List.head?_cons, Option.some.injEq] at dot
      rw [dot] at named
      cases named
    · rfl

theorem components_ofComponents {front rest : List Component} (leads : IsLead front)
    (parts : ∀ c ∈ rest, c.IsPart) :
    (ofComponents (front ++ rest)).components = front ++ rest := by
  rcases leads with rfl | rfl | rfl
  · have plain : ofComponents ([] ++ rest) = ⟨joinComponents rest⟩ := by
      cases rest with
      | nil => rfl
      | cons c rest =>
        cases c with
        | root => exact absurd (parts .root List.mem_cons_self).2 (by decide)
        | _ => rfl
    rw [plain, components_text, componentsOf_eq, lead_join parts, filterMap_splitSlashes_join parts]
  · rw [components_text]
    change componentsOf ("/" ++ joinComponents rest).toList = _
    rw [String.toList_append]
    change Component.root :: (splitSlashes (joinComponents rest).toList).filterMap componentOf? = _
    rw [filterMap_splitSlashes_join parts]
    rfl
  · rw [components_text]
    change componentsOf (joinComponents (.current :: rest)).toList = _
    cases rest with
    | nil => rfl
    | cons c rest =>
      have dot : (joinComponents (.current :: c :: rest)).toList =
          '.' :: '/' :: (joinComponents (c :: rest)).toList := by
        rw [joinComponents, String.toList_append, String.toList_append]
        · rfl
        · exact List.cons_ne_nil _ _
      rw [dot, componentsOf_eq]
      change Component.current :: (splitSlashes (joinComponents (c :: rest)).toList).filterMap
        componentOf? = _
      rw [filterMap_splitSlashes_join parts]
      rfl

theorem parent?_eq_some {p q : Path} (h : p.parent? = some q) :
    ∃ c, p.components = q.components ++ [c] ∧ q = ofComponents q.components := by
  obtain ⟨c, before, whole, rfl⟩ : ∃ c before, p.components = before ++ [c] ∧ q = ofComponents before := by
    unfold parent? at h
    split at h
    · cases h
    · cases h
    · rename_i c before _ back
      cases h
      refine ⟨c, before.reverse, ?_, rfl⟩
      rw [← List.reverse_reverse p.components, back, List.reverse_cons]
  have back : (ofComponents before).components = before := by
    have split := componentsOf_eq p.text.toList
    rw [← components_text, whole] at split
    have spelled : ∀ c ∈ (splitSlashes p.text.toList).filterMap componentOf?, c.IsPart :=
      fun _ member => isPart_of_mem member
    have leads := isLead_lead p.text.toList
    generalize (splitSlashes p.text.toList).filterMap componentOf? = parts at split spelled
    rcases List.eq_nil_or_concat parts with rfl | ⟨front, last, rfl⟩
    · -- Only a lead is left, and nothing in front of it.
      rw [List.append_nil] at split
      have nothing : before = [] := by
        rcases leads with none | one | one
        · simp [none] at split
        · exact (List.append_inj' (split.trans (one.trans (List.nil_append _).symm)) rfl).1
        · exact (List.append_inj' (split.trans (one.trans (List.nil_append _).symm)) rfl).1
      rw [nothing]
      rfl
    · rw [List.concat_eq_append, ← List.append_assoc] at split
      obtain ⟨same, _⟩ := List.append_inj' split rfl
      rw [same]
      apply components_ofComponents leads
      intro c member
      exact spelled c (by rw [List.concat_eq_append]; exact List.mem_append_left _ member)
  refine ⟨c, ?_, ?_⟩
  · rw [back, whole]
  · rw [back]

theorem isName_of_isPart {name : String} (part : (Component.normal name).IsPart) : IsName name := by
  have parts : ∀ c ∈ [Component.normal name], c.IsPart := by simpa using part
  have single := filterMap_splitSlashes_join parts
  have plain := lead_join parts
  rw [joinComponents] at single plain
  rw [IsName, components_text, componentsOf_eq]
  change lead name.toList = [] at plain
  rw [plain]
  exact single

theorem isPart_of_normal {p : Path} {name : String} (member : .normal name ∈ p.components) :
    (Component.normal name).IsPart := by
  rw [components_text, componentsOf_eq, List.mem_append] at member
  rcases member with front | behind
  · rcases isLead_lead p.text.toList with none | one | one <;> simp_all
  · exact isPart_of_mem behind

theorem isName_of_mem {p : Path} {name : String} (member : .normal name ∈ p.components) :
    IsName name :=
  isName_of_isPart (isPart_of_normal member)

theorem names_of_foldl {cs : List Component} {place : List String}
    (named : ∀ name, .normal name ∈ cs → IsName name) (before : ∀ name ∈ place, IsName name) :
    ∀ name ∈ cs.foldl Component.move place, IsName name := by
  induction cs generalizing place with
  | nil => exact before
  | cons c rest ih =>
    apply ih fun name member => named name (List.mem_cons_of_mem _ member)
    cases c with
    | normal own => exact List.forall_mem_cons.mpr ⟨named own List.mem_cons_self, before⟩
    | parent => exact fun name member => before name (List.mem_of_mem_tail member)
    | _ => exact before

theorem isName_of_mem_place {p : Path} {name : String} (member : name ∈ p.place) : IsName name :=
  names_of_foldl (fun _ there => isName_of_mem there) (by simp) name (List.mem_reverse.mp member)

theorem ofComponents_of_ne_root {cs : List Component} (relative : cs.head? ≠ some .root) :
    ofComponents cs = ⟨joinComponents cs⟩ := by
  cases cs with
  | nil => rfl
  | cons c rest =>
    cases c with
    | root => exact absurd rfl relative
    | _ => rfl

theorem joinComponents_sublist {cs : List Component} {text : List Char}
    (some : (cs.map Component.spelling).Sublist (splitSlashes text)) :
    (joinComponents cs).toList.Sublist text := by
  rw [joinComponents_toList, ← intercalate_splitSlashes text]
  exact intercalate_sublist some

theorem spellings_sublist_of_split {parts : List (List Char)} {before after : List Component}
    (split : parts.filterMap componentOf? = before ++ after) :
    (before.map Component.spelling).Sublist parts := by
  apply List.Sublist.trans _ (spellings_sublist parts)
  rw [split, List.map_append]
  exact List.sublist_append_left _ _

/-- The first components of a path, spelled again, take some of its characters. -/
theorem ofComponents_sublist {text : List Char} {before after : List Component}
    (whole : componentsOf text = before ++ after) :
    (ofComponents before).text.toList.Sublist text := by
  cases before with
  | nil => exact List.nil_sublist _
  | cons first before =>
    revert whole
    fun_cases componentsOf text with
    | case1 rest =>
      intro whole
      obtain ⟨rfl, split⟩ := List.cons.inj whole
      change ("/" ++ joinComponents before).toList.Sublist _
      rw [String.toList_append]
      exact (joinComponents_sublist (spellings_sublist_of_split split)).cons_cons '/'
    | case2 text relative parts dot =>
      intro whole
      obtain ⟨rfl, split⟩ := List.cons.inj whole
      rw [ofComponents_of_ne_root (by simp)]
      apply joinComponents_sublist
      rw [dot]
      exact (spellings_sublist_of_split split).cons_cons ['.']
    | case3 text relative plain =>
      intro whole
      rw [ofComponents_of_ne_root]
      · exact joinComponents_sublist (spellings_sublist_of_split whole)
      · intro absolute
        have part : first.IsPart := isPart_of_mem (by rw [whole]; exact List.mem_cons_self)
        cases absolute
        exact absurd part.2 (by decide)

theorem parent_sublist {p q : Path} (h : p.parent? = some q) : q.text.toList.Sublist p.text.toList := by
  obtain ⟨c, split, again⟩ := parent?_eq_some h
  rw [again]
  rw [components_text] at split
  exact ofComponents_sublist split

end Path

namespace FileTree

theorem checkText_eq_ok_iff {p : Path} :
    checkText p = .ok () ↔
      Char.ofNat 0 ∉ p.text.toList ∧ p.text ≠ "" ∧ p.text.utf8ByteSize < pathLimit := by
  unfold checkText
  rw [Path.chars_eq]
  split_ifs with nul empty long <;> simp_all

theorem checkText_parent {p q : Path} (h : p.parent? = some q) (checked : checkText p = .ok ()) :
    q.text = "" ∨ checkText q = .ok () := by
  have fewer := Path.parent_sublist h
  obtain ⟨plain, _, short⟩ := checkText_eq_ok_iff.mp checked
  have size := Path.utf8ByteSize_le_of_sublist fewer
  rw [String.ofList_toList, String.ofList_toList] at size
  by_cases empty : q.text = ""
  · exact .inl empty
  · exact .inr (checkText_eq_ok_iff.mpr
      ⟨fun nul => plain (fewer.mem nul), empty, Nat.lt_of_le_of_lt size short⟩)

theorem way_parent {p q : Path} (h : p.parent? = some q) {place : List String}
    (there : place ∈ q.way) : place ∈ p.way := by
  obtain ⟨c, split, _⟩ := Path.parent?_eq_some h
  rw [Path.way, split, Path.mem_wayFrom_append]
  exact .inl there

/-- Above a directory, and above what could be made one, there is a directory. -/
theorem isDirectory_parent {t : FileTree} {p q : Path} (h : p.parent? = some q)
    (there : t.isDirectory p = true) : q.text = "" ∨ t.isDirectory q = true := by
  obtain ⟨⟨found, located⟩, _⟩ := isDirectory_iff.mp there
  obtain ⟨checked, followed, _⟩ := locate_ok located
  obtain ⟨c, split, _⟩ := Path.parent?_eq_some h
  apply (checkText_parent h checked).imp_right
  intro above
  apply isDirectory_of_dirs above
  · intro place on
    exact dirs_of_isDirectory there (way_parent h on)
  · intro name member
    apply fits_of_followAll followed
    rw [down_mem_steps_iff, split]
    exact List.mem_append_left _ member

theorem components_above {p q : Path} {c : Path.Component} {before : List Step} {name : String}
    (split : p.components = q.components ++ [c]) (ends : steps p = before ++ [.down name]) :
    q.components = Path.lead p.text.toList ++ before.filterMap Step.component? := by
  rw [components_eq, ends, List.filterMap_append, ← List.append_assoc] at split
  exact (List.append_inj' split rfl).1.symm

/-- The way to where the last step of a path is taken from leads through directories, by names that are
short enough. -/
theorem dirs_above {t : FileTree} {p q : Path} {c : Path.Component}
    (split : p.components = q.components ++ [c]) {place : List String} {name : String}
    (located : t.locateLast p = .ok (some (place, .down name))) :
    (∀ x ∈ q.way, t.node? x = some .dir) ∧
      ∀ other, .normal other ∈ q.components → other.utf8ByteSize ≤ nameLimit := by
  obtain ⟨_, before, ends, followed, here⟩ := locateLast_steps located
  have same := components_above split ends
  constructor
  · intro x there
    rw [Path.way, same, Path.mem_wayFrom_lead (Path.isLead_lead _), ← mem_visited_iff] at there
    exact dirs_of_followAll followed here there
  · intro other member
    apply fits_of_followAll followed
    rw [same, List.mem_append] at member
    rcases member with front | behind
    · rcases Path.isLead_lead p.text.toList with none | one | one <;> simp_all
    · obtain ⟨s, there, named⟩ := List.mem_filterMap.mp behind
      cases s <;> cases named
      exact there

theorem isDirectory_above {t : FileTree} {p q : Path} (h : p.parent? = some q) {place : List String}
    {name : String} (located : t.locateLast p = .ok (some (place, .down name))) :
    q.text = "" ∨ t.isDirectory q = true := by
  obtain ⟨checked, _⟩ := locateLast_steps located
  obtain ⟨c, split, _⟩ := Path.parent?_eq_some h
  obtain ⟨dirs, fits⟩ := dirs_above split located
  exact (checkText_parent h checked).imp_right fun above => isDirectory_of_dirs above dirs fits

end FileTree

end Transplant
