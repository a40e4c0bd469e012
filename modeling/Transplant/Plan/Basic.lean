import Transplant.Json.Printer
import Transplant.Text.Characters

/-! Build plans: the apps of a Django project with their models, views, paths and templates. A
plan that could not be read is kept as text. -/
namespace Transplant.Plan

namespace FieldMap

def insertEntry (name : String) (type : Option String) :
    List (String × Option String) → List (String × Option String)
  | [] => [(name, type)]
  | (n, t) :: rest =>
    if n = name then (n, type) :: rest else (n, t) :: insertEntry name type rest

theorem insertEntry_names (name : String) (type : Option String) (entries : List (String × Option String)) :
    (insertEntry name type entries).map Prod.fst =
      if name ∈ entries.map Prod.fst then entries.map Prod.fst else entries.map Prod.fst ++ [name] := by
  induction entries with
  | nil => rfl
  | cons e entries ih =>
    rw [insertEntry]
    split
    · rename_i same
      simp [same]
    · rename_i other
      simp only [List.map_cons, ih, List.mem_cons, Ne.symm other, false_or]
      split <;> rfl

theorem insertEntry_distinct (name : String) (type : Option String) {entries : List (String × Option String)}
    (distinct : (entries.map Prod.fst).Nodup) : ((insertEntry name type entries).map Prod.fst).Nodup := by
  rw [insertEntry_names]
  split
  · exact distinct
  · rename_i new
    rw [List.nodup_append]
    exact ⟨distinct, by simp, fun n old m last => by grind⟩

end FieldMap

/-- The fields of a model in order, each name once, with the type that the plan gives. -/
@[ext]
structure FieldMap where
  entries : List (String × Option String)
  distinct : (entries.map Prod.fst).Nodup
  deriving DecidableEq, Repr

namespace FieldMap

def empty : FieldMap := ⟨[], List.nodup_nil⟩

/-- A new field goes to the end; a field that is there keeps its place. -/
def insert (m : FieldMap) (name : String) (type : Option String) : FieldMap :=
  ⟨insertEntry name type m.entries, insertEntry_distinct name type m.distinct⟩

@[simp] theorem entries_insert (m : FieldMap) (name : String) (type : Option String) :
    (m.insert name type).entries = insertEntry name type m.entries := rfl

def ofList (entries : List (String × Option String)) : FieldMap :=
  entries.foldl (fun m e => m.insert e.1 e.2) empty

def size (m : FieldMap) : Nat := m.entries.length

/-- A blank type is no type. -/
def given? (type : Option String) : Option String :=
  (type.map String.trimmed).filter fun t => !t.isEmpty

def fields (m : FieldMap) : List (String × Option String) :=
  m.entries.map fun e => (e.1, given? e.2)

def toJson (m : FieldMap) : Json := .object (m.entries.map fun e => (e.1, .ofOption e.2))

end FieldMap

structure Model where
  name : String
  fields : FieldMap
  deriving DecidableEq, Repr

structure View where
  name : String
  type : Option String
  model : Option String
  template : Option String
  deriving DecidableEq, Repr

structure Url where
  pattern : String
  view : String
  deriving DecidableEq, Repr

structure App where
  name : String
  models : List Model
  views : List View
  urls : List Url
  templates : List String
  deriving DecidableEq, Repr

end Plan

inductive Plan where
  | structured (apps : List Plan.App)
  | raw (text : String)
  deriving DecidableEq, Repr

namespace Plan

def apps : Plan → List App
  | structured apps => apps
  | raw _ => []

def isRaw : Plan → Bool
  | structured _ => false
  | raw _ => true

def Model.toJson (m : Model) : Json :=
  .object [("name", .string m.name), ("fields", m.fields.toJson)]

def memberOf (key : String) (value : Option String) : List (String × Json) :=
  (value.map fun v => (key, .string v)).toList

/-- A binding that is not there is not written. -/
def View.toJson (v : View) : Json :=
  .object ([("name", .string v.name), ("type_tag", .ofOption v.type)] ++
    memberOf "model" v.model ++ memberOf "template" v.template)

def Url.toJson (u : Url) : Json :=
  .object [("pattern", .string u.pattern), ("view", .string u.view)]

def App.toJson (a : App) : Json :=
  .object [("name", .string a.name), ("models", .array (a.models.map Model.toJson)),
    ("views", .array (a.views.map View.toJson)), ("urls", .array (a.urls.map Url.toJson)),
    ("templates", .array (a.templates.map fun t => .object [("name", .string t)]))]

def toJson : Plan → Json
  | structured apps => .object [("apps", .array (apps.map App.toJson))]
  | raw text => .object [("raw_plan", .string text)]

end Plan

end Transplant
