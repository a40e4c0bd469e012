import Transplant.Django.Files
import Transplant.Proofs.PlanText
import Mathlib.Data.Finset.Card
import Mathlib.Data.List.Induction

/-! Field maps keep an order. However a map is built from some fields, it has each name once, where the
name first occurs, and with the type that the name has last. Its text is read back as the same map, and the
file of a model has one line for each of its fields, in that order. -/
namespace Transplant.Plan.FieldMap

open Json.Document (Gap Spells ofJson)
open Text (Blank)

/-- The names of some fields, each where it first occurs. -/
def namesOf (fields : List (String × Option String)) : List String := (fields.map Prod.fst).eraseDups

/-- The type that a name has where it last occurs. -/
def lastType (fields : List (String × Option String)) (name : String) : Option String :=
  (fields.reverse.lookup name).join

theorem namesOf_concat (fields : List (String × Option String)) (name : String) (type : Option String) :
    namesOf (fields ++ [(name, type)]) =
      if name ∈ namesOf fields then namesOf fields else namesOf fields ++ [name] := by
  rw [namesOf, List.map_append, List.eraseDups_append, ← namesOf]
  by_cases old : name ∈ fields.map Prod.fst
  · simp [namesOf, old, List.removeAll]
  · simp [namesOf, old, List.removeAll, List.eraseDups_cons]

theorem namesOf_nodup (fields : List (String × Option String)) : (namesOf fields).Nodup := by
  induction fields using List.reverseRecOn with
  | nil => exact List.nodup_nil
  | append_singleton fields e ih =>
    rw [namesOf_concat]
    split
    · exact ih
    · rename_i new
      rw [← List.concat_eq_append]
      exact ih.concat new

theorem lastType_concat (fields : List (String × Option String)) (name : String) (type : Option String)
    (other : String) :
    lastType (fields ++ [(name, type)]) other = if other = name then type else lastType fields other := by
  rw [lastType, List.reverse_append, List.reverse_singleton, List.singleton_append, List.lookup_cons]
  by_cases same : other = name
  · simp [same]
  · simp [beq_false_of_ne same, same, lastType]

theorem insertEntry_map {names : List String} (distinct : names.Nodup) (types : String → Option String)
    (name : String) (type : Option String) :
    insertEntry name type (names.map fun n => (n, types n)) =
      (if name ∈ names then names else names ++ [name]).map
        fun n => (n, if n = name then type else types n) := by
  induction names with
  | nil => simp [insertEntry]
  | cons first names ih =>
    obtain ⟨other, distinct⟩ := List.nodup_cons.mp distinct
    rw [List.map_cons, insertEntry]
    by_cases same : first = name
    · subst same
      have rest : ∀ n ∈ names, (n, types n) = (n, if n = first then type else types n) := by
        intro n member
        rw [if_neg (ne_of_mem_of_not_mem member other)]
      simpa using rest
    · rw [if_neg same, ih distinct]
      by_cases old : name ∈ names <;> simp [same, Ne.symm same, old]

/-- What is built: each name where it first occurs, with its last type. -/
theorem entries_ofList (fields : List (String × Option String)) :
    (ofList fields).entries = (namesOf fields).map fun n => (n, lastType fields n) := by
  induction fields using List.reverseRecOn with
  | nil => rfl
  | append_singleton fields e ih =>
    obtain ⟨name, type⟩ := e
    have step : ofList (fields ++ [(name, type)]) = (ofList fields).insert name type := by
      rw [ofList, List.foldl_append]
      rfl
    rw [step, entries_insert, ih, insertEntry_map (namesOf_nodup fields), namesOf_concat]
    simp only [lastType_concat]

theorem size_ofList (fields : List (String × Option String)) :
    (ofList fields).size = (fields.map Prod.fst).toFinset.card := by
  have same : (namesOf fields).toFinset = (fields.map Prod.fst).toFinset := by
    ext name
    simp [namesOf]
  rw [size, entries_ofList, List.length_map, ← List.toFinset_card_of_nodup (namesOf_nodup fields), same]

/-- The text is an object that lists the fields in their order, with space around. -/
def Lists (text : String) (fields : List (String × Option String)) : Prop :=
  ∃ lead cs trail, text.toList = lead ++ (cs ++ trail) ∧ Gap lead ∧ Gap trail ∧
    Spells cs (.value (ofJson (listing fields)))

theorem ofText?_of_lists {text : String} {fields : List (String × Option String)}
    (lists : Lists text fields) : ofText? text = some (ofList fields) := by
  rw [ofText?, Json.Document.ofText?_eq_some_iff.mpr lists]
  exact ofDocument?_listing fields

theorem lists_compact (fields : List (String × Option String)) :
    Lists (listing fields).compact fields :=
  ⟨[], (listing fields).compactChars, [], by simp [Json.compact], Json.Document.gap_nil,
    Json.Document.gap_nil, Json.spells_compact (worded_listing fields)⟩

theorem ofText?_reprinted (fields : List (String × Option String)) :
    ofText? (ofList fields).toJson.compact = some (ofList fields) := by
  have read := ofText?_of_lists (lists_compact (ofList fields).entries)
  rwa [ofList_entries] at read

/-- The constructor of a field: that of its type without the blanks around it, if the type is more than
blanks. -/
def constructorOf (type : Option String) : String :=
  if Blank (type.getD "").toList then "CharField(max_length=255)"
  else Django.fieldConstructor (type.map String.trimmed)

theorem given?_eq (type : Option String) :
    given? type = if Blank (type.getD "").toList then none else type.map String.trimmed := by
  cases type with
  | none => rfl
  | some t =>
    have empty : t.trimmed.isEmpty = true ↔ Blank t.toList := by
      rw [String.isEmpty_iff, ← Text.trim_eq_nil_iff, String.trimmed, String.ofList_eq_empty_iff]
    by_cases blank : Blank t.toList
    · simp [given?, Option.filter_some, empty.mpr blank, blank]
    · simp [given?, Option.filter_some, mt empty.mp blank, blank]

theorem fieldConstructor_given? (type : Option String) :
    Django.fieldConstructor (given? type) = constructorOf type := by
  rw [given?_eq, constructorOf]
  split <;> rfl

def bodyLines (fields : List (String × Option String)) : List String :=
  if fields = [] then ["    pass"]
  else (namesOf fields).map fun n => s!"    {n} = models." ++ constructorOf (lastType fields n)

theorem modelLines_ofList (name : String) (fields : List (String × Option String)) :
    Django.modelLines ⟨name, ofList fields⟩ =
      ["", "", s!"class {name}(models.Model):"] ++ bodyLines fields := by
  rw [Django.modelLines, entries_ofList, FieldMap.fields, entries_ofList, bodyLines]
  cases fields with
  | nil => rfl
  | cons e fields =>
    have some : namesOf (e :: fields) ≠ [] := by simp [namesOf, List.eraseDups_cons]
    have line : ∀ n, Django.fieldLine (n, given? (lastType (e :: fields) n)) =
        s!"    {n} = models." ++ constructorOf (lastType (e :: fields) n) := by
      intro n
      rw [Django.fieldLine, fieldConstructor_given?]
    simp [List.isEmpty_iff, some, ← line]

/-- A field map is the same however it is built: field by field behind any first part of the fields, or read
from any text of an object that lists them. It has each name once and in order, with its last type, its text
is read back, and among any other models the file of a model has its fields in that order. -/
theorem keeps_order (fields : List (String × Option String)) :
    (∀ front back, fields = front ++ back →
      back.foldl (fun m e => m.insert e.1 e.2) (ofList front) = ofList fields) ∧
    (∀ text, Lists text fields → ofText? text = some (ofList fields)) ∧
    (ofList fields).entries = (namesOf fields).map (fun n => (n, lastType fields n)) ∧
    (ofList fields).size = (fields.map Prod.fst).toFinset.card ∧
    ofText? (ofList fields).toJson.compact = some (ofList fields) ∧
    ∀ before name after, Django.modelsPy (before ++ ⟨name, ofList fields⟩ :: after) =
      Django.unlines ("from django.db import models" :: (before.flatMap Django.modelLines ++
        (["", "", s!"class {name}(models.Model):"] ++ bodyLines fields) ++
          after.flatMap Django.modelLines)) := by
  refine ⟨?_, fun text => ofText?_of_lists, entries_ofList fields, size_ofList fields,
    ofText?_reprinted fields, ?_⟩
  · rintro front back rfl
    rw [ofList, ofList, List.foldl_append]
  · intro before name after
    rw [Django.modelsPy, List.flatMap_append, List.flatMap_cons, modelLines_ofList, ← List.append_assoc]

def draftFields : List (String × Option String) :=
  [("title", some "SlugField"), ("body", some " models.TextField "), ("title", some " ")]

def draftText : String :=
  "\x7b\"title\":\"SlugField\",\"body\":\" models.TextField \",\"title\":\" \"\x7d"

theorem keeps_order_draft : (([] : List (String × Option String)) ++ draftFields = draftFields) ∧
    Lists draftText draftFields ∧
    draftFields.foldl (fun m e => m.insert e.1 e.2) (ofList []) = ofList draftFields ∧
    ofText? draftText = some (ofList draftFields) ∧
    (ofList draftFields).entries = [("title", some " "), ("body", some " models.TextField ")] ∧
    Django.modelsPy [⟨"Draft", ofList draftFields⟩] = Django.unlines
      ["from django.db import models", "", "", "class Draft(models.Model):",
        "    title = models.CharField(max_length=255)", "    body = models.TextField()"] := by
  obtain ⟨inserted, read, entries, _, _, file⟩ := keeps_order draftFields
  have lists : Lists draftText draftFields := lists_compact draftFields
  refine ⟨rfl, lists, inserted [] draftFields rfl, read draftText lists, entries, ?_⟩
  exact file [] "Draft" []

end Transplant.Plan.FieldMap
