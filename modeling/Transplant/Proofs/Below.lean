import Transplant.Build.Step

/-! Paths below other paths, by components. A join with a name that stays below adds the components
of the name and changes none in front of them. -/
namespace Transplant

namespace Path

theorem splitSlashes_ne_nil (cs : List Char) : splitSlashes cs ≠ [] := by
  fun_cases splitSlashes cs <;> simp

theorem splitSlashes_append_slash (before after : List Char) :
    splitSlashes (before ++ '/' :: after) = splitSlashes before ++ splitSlashes after := by
  induction before with
  | nil => rfl
  | cons c cs ih =>
    by_cases slash : c = '/'
    · subst slash
      simp only [List.cons_append, splitSlashes, ih]
    · obtain ⟨part, parts, h⟩ := List.exists_cons_of_ne_nil (splitSlashes_ne_nil cs)
      have whole : splitSlashes (cs ++ '/' :: after) = part :: (parts ++ splitSlashes after) := by
        rw [ih, h, List.cons_append]
      rw [List.cons_append, splitSlashes, splitSlashes, h, whole]
      · rfl
      · exact slash
      · exact slash

/-- What stands in front of the components that the parts of a path give. -/
def lead (cs : List Char) : List Component :=
  if cs.head? = some '/' then [.root]
  else if (splitSlashes cs).head? = some ['.'] then [.current]
  else []

theorem componentsOf_eq (cs : List Char) :
    componentsOf cs = lead cs ++ (splitSlashes cs).filterMap componentOf? := by
  fun_cases componentsOf cs with
  | case1 cs => rfl
  | case2 cs relative parts h =>
    have start : cs.head? ≠ some '/' := by
      intro first
      obtain ⟨rest, rfl⟩ := List.head?_eq_some_iff.mp first
      exact relative rest rfl
    rw [lead, if_neg start, h]
    rfl
  | case3 cs relative plain =>
    have start : cs.head? ≠ some '/' := by
      intro first
      obtain ⟨rest, rfl⟩ := List.head?_eq_some_iff.mp first
      exact relative rest rfl
    have name : (splitSlashes cs).head? ≠ some ['.'] := by
      intro first
      obtain ⟨parts, h⟩ := List.head?_eq_some_iff.mp first
      exact plain parts h
    rw [lead, if_neg start, if_neg name, List.nil_append]

theorem lead_append_slash {cs : List Char} (after : List Char) (nonempty : cs ≠ []) :
    lead (cs ++ '/' :: after) = lead cs := by
  obtain ⟨c, rest, rfl⟩ := List.exists_cons_of_ne_nil nonempty
  obtain ⟨part, parts, h⟩ := List.exists_cons_of_ne_nil (splitSlashes_ne_nil (c :: rest))
  unfold lead
  rw [splitSlashes_append_slash, h]
  rfl

theorem lead_eq_nil {cs : List Char} (h : (componentsOf cs).all Component.isNormal = true) :
    lead cs = [] := by
  rw [componentsOf_eq, List.all_append, Bool.and_eq_true] at h
  unfold lead at h ⊢
  split
  · simp_all [Component.isNormal]
  · split
    · simp_all [Component.isNormal]
    · rfl

theorem componentsOf_append_slash {before after : List Char} (nonempty : before ≠ [])
    (normal : (componentsOf after).all Component.isNormal = true) :
    componentsOf (before ++ '/' :: after) = componentsOf before ++ componentsOf after := by
  have relative := lead_eq_nil normal
  rw [componentsOf_eq, lead_append_slash after nonempty, splitSlashes_append_slash,
    List.filterMap_append, componentsOf_eq before, componentsOf_eq after, relative]
  simp

theorem componentsOf_slash (after : List Char)
    (normal : (componentsOf after).all Component.isNormal = true) :
    componentsOf ('/' :: after) = .root :: componentsOf after := by
  have relative := lead_eq_nil normal
  rw [componentsOf_eq after, relative]
  rfl

theorem normal_of_staysBelow {name : String} (stays : Build.staysBelow name = true) :
    (Path.mk name).components.all Component.isNormal = true := by
  rw [Build.staysBelow, Bool.and_eq_true] at stays
  exact stays.2

theorem not_isAbsolute {name : String}
    (normal : (Path.mk name).components.all Component.isNormal = true) :
    (Path.mk name).isAbsolute = false := by
  rw [Bool.eq_false_iff]
  intro absolute
  obtain ⟨rest, h⟩ := List.head?_eq_some_iff.mp (isAbsolute_iff.mp absolute)
  have start : name.toList = '/' :: rest := h
  rw [components_text, start] at normal
  simp [componentsOf, Component.isNormal] at normal

theorem components_join {base : Path} {name : String} (stays : Build.staysBelow name = true) :
    (base.join name).components = base.components ++ (Path.mk name).components := by
  have normal := normal_of_staysBelow stays
  have relative := not_isAbsolute normal
  rw [components_text] at normal
  simp only [join, relative, Bool.false_eq_true, if_false]
  by_cases empty : base.text.isEmpty = true
  · have none : base.text = "" := String.isEmpty_iff.mp empty
    simp [components_text, none, componentsOf, splitSlashes, componentOf?]
  · have nonempty : base.text.toList ≠ [] := by simpa using empty
    by_cases slash : base.endsInSlash = true
    · obtain ⟨before, h⟩ := List.getLast?_eq_some_iff.mp (endsInSlash_iff.mp slash)
      have whole : (base.text ++ name).toList = before ++ '/' :: name.toList := by
        rw [String.toList_append, h, List.append_assoc]
        rfl
      simp only [slash, Bool.or_true, if_true, components_text, whole]
      cases before with
      | nil => rw [h]; exact componentsOf_slash _ normal
      | cons c cs =>
        have ending : componentsOf (c :: cs ++ ['/']) = componentsOf (c :: cs) ++ componentsOf [] :=
          componentsOf_append_slash (by simp) rfl
        rw [h, componentsOf_append_slash (by simp) normal, ending]
        simp [componentsOf, splitSlashes, componentOf?]
    · have whole : (base.text ++ "/" ++ name).toList = base.text.toList ++ '/' :: name.toList := by
        simp [String.toList_append]
      simp only [slash, empty, Bool.or_self, Bool.false_eq_true, if_false, components_text, whole]
      exact componentsOf_append_slash nonempty normal

theorem components_ne_nil {name : String} (stays : Build.staysBelow name = true) :
    (Path.mk name).components ≠ [] := by
  have normal := normal_of_staysBelow stays
  have relative := not_isAbsolute normal
  rw [components_text] at normal
  have plain := lead_eq_nil normal
  rw [Build.staysBelow, Bool.and_eq_true] at stays
  have nonempty : name.toList ≠ [] := by simpa using stays.1
  intro none
  rw [components_text, componentsOf_eq, plain, List.nil_append, List.filterMap_eq_nil_iff] at none
  obtain ⟨c, cs, h⟩ := List.exists_cons_of_ne_nil nonempty
  have start : c ≠ '/' := by
    intro slash
    have absolute : (Path.mk name).isAbsolute = true := isAbsolute_iff.mpr (by simp [h, slash])
    exact Bool.false_ne_true (relative.symm.trans absolute)
  obtain ⟨part, parts, split⟩ := List.exists_cons_of_ne_nil (splitSlashes_ne_nil cs)
  have first : splitSlashes name.toList = (c :: part) :: parts := by
    rw [h, splitSlashes, split]
    exact start
  have noComponent := none (c :: part) (by rw [first]; simp)
  have dot : c :: part = ['.'] := by
    unfold componentOf? at noComponent
    split at noComponent <;> simp_all
  rw [lead, h, List.head?_cons, if_neg (by simpa using start), ← h, first, dot] at plain
  simp at plain

/-- The path is the base or lies below it, with nothing but names of entries behind the base. -/
def Within (base p : Path) : Prop :=
  ∃ tail, tail.all Component.isNormal = true ∧ p.components = base.components ++ tail

def Below (base p : Path) : Prop :=
  ∃ tail, tail ≠ [] ∧ tail.all Component.isNormal = true ∧ p.components = base.components ++ tail

theorem Below.within {base p : Path} (h : base.Below p) : base.Within p := by
  obtain ⟨tail, _, normal, split⟩ := h
  exact ⟨tail, normal, split⟩

theorem Within.refl (base : Path) : base.Within base := ⟨[], rfl, by simp⟩

theorem Within.trans {base mid p : Path} (h : base.Within mid) (h' : mid.Within p) : base.Within p := by
  obtain ⟨tail, normal, split⟩ := h
  obtain ⟨more, normal', split'⟩ := h'
  exact ⟨tail ++ more, by simp [normal, normal'], by rw [split', split, List.append_assoc]⟩

theorem Within.join {base p : Path} {name : String} (h : base.Within p)
    (stays : Build.staysBelow name = true) : base.Within (p.join name) := by
  obtain ⟨tail, normal, split⟩ := h
  refine ⟨tail ++ (Path.mk name).components, ?_, ?_⟩
  · rw [List.all_append, normal, normal_of_staysBelow stays]
    rfl
  · rw [components_join stays, split, List.append_assoc]

theorem below_join (base : Path) {name : String} (stays : Build.staysBelow name = true) :
    base.Below (base.join name) :=
  ⟨(Path.mk name).components, components_ne_nil stays, normal_of_staysBelow stays,
    components_join stays⟩

end Path

namespace Build

theorem staysBelow_of_isEntry {name : String} (entry : isEntry name = true) :
    staysBelow name = true := by
  rw [isEntry, Bool.and_eq_true] at entry
  exact entry.1

theorem isEntry_iff {name : String} :
    isEntry name = true ↔ ∃ entry, (Path.mk name).components = [.normal entry] := by
  constructor
  · intro entry
    rw [isEntry, Bool.and_eq_true, beq_iff_eq] at entry
    obtain ⟨c, single⟩ := List.length_eq_one_iff.mp entry.2
    have normal := Path.normal_of_staysBelow entry.1
    rw [single] at normal ⊢
    cases c with
    | normal entry => exact ⟨entry, rfl⟩
    | _ => cases normal
  · rintro ⟨entry, single⟩
    have nonempty : name ≠ "" := by
      rintro rfl
      cases single
    simp [isEntry, staysBelow, single, nonempty, Path.Component.isNormal]

end Build

end Transplant
