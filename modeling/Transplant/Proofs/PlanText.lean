import Mathlib.Data.List.Nodup
import Transplant.Proofs.Fences
import Transplant.Proofs.ReadBack

/-! Plans and their texts. A structured plan is read back from the text of its value, on one line or with
one item a line: names in their order, types and bindings as they are. -/
namespace Transplant.Plan

open Json (Document Part Worded worded_ofOption worded_array)
open Json.Document

namespace FieldMap

theorem insertEntry_new {name : String} {entries : List (String × Option String)}
    (new : name ∉ entries.map Prod.fst) (type : Option String) :
    insertEntry name type entries = entries ++ [(name, type)] := by
  induction entries with
  | nil => rfl
  | cons e entries ih =>
    rw [List.map_cons, List.mem_cons, not_or] at new
    rw [insertEntry, if_neg (Ne.symm new.1), ih new.2]
    rfl

theorem foldl_insert {m : FieldMap} {entries : List (String × Option String)}
    (distinct : ((m.entries ++ entries).map Prod.fst).Nodup) :
    (entries.foldl (fun m e => m.insert e.1 e.2) m).entries = m.entries ++ entries := by
  induction entries generalizing m with
  | nil => simp
  | cons e entries ih =>
    have new : e.1 ∉ m.entries.map Prod.fst := by
      intro old
      rw [List.map_append, List.nodup_append] at distinct
      exact distinct.2.2 _ old _ (by simp) rfl
    have step : (m.insert e.1 e.2).entries = m.entries ++ [e] := insertEntry_new new e.2
    have rest : (((m.insert e.1 e.2).entries ++ entries).map Prod.fst).Nodup := by
      rw [step]
      simpa using distinct
    rw [List.foldl_cons, ih rest, step, List.append_assoc, List.singleton_append]

theorem ofList_entries (m : FieldMap) : ofList m.entries = m :=
  FieldMap.ext (foldl_insert (by simpa [empty] using m.distinct))

end FieldMap

/-- The object that lists some fields in their order. -/
def FieldMap.listing (fields : List (String × Option String)) : Json :=
  .object (fields.map fun e => (e.1, .ofOption e.2))

theorem FieldMap.ofDocument?_listing (fields : List (String × Option String)) :
    ofDocument? (ofJson (listing fields)) = some (ofList fields) := by
  have read : (ofMembers (fields.map fun e => (e.1, .ofOption e.2))).mapM (fun m => do
      return (← m.1, ← asNullable? asString? m.2)) = some fields := by
    induction fields with
    | nil => rfl
    | cons e fields ih =>
      rw [List.map_cons, ofMembers, List.mapM_cons, ih]
      simp only [asNullable?_ofJson]
      rfl
  rw [listing, ofJson, ofDocument?, read]
  rfl

theorem FieldMap.ofDocument?_toJson (m : FieldMap) : ofDocument? (ofJson m.toJson) = some m := by
  have read := ofDocument?_listing m.entries
  rwa [ofList_entries] at read

theorem Model.ofDocument?_toJson (m : Model) : Model.ofDocument? (ofJson m.toJson) = some m := by
  rw [ofDocument?, toJson, parts?_ofJson]
  simp [partOf?, Part.required, Part.orElse, asString?_ofJson, m.fields.ofDocument?_toJson]

theorem View.ofDocument?_toJson (v : View) : View.ofDocument? (ofJson v.toJson) = some v := by
  obtain ⟨name, type, model, template⟩ := v
  have given : ∀ s, asNullable? asString? (ofJson (.string s)) = some (some s) := fun _ => rfl
  rw [ofDocument?, toJson, parts?_ofJson]
  cases model <;> cases template <;>
    simp [memberOf, partOf?, Part.required, Part.orElse, asString?_ofJson, asNullable?_ofJson, given]

theorem Url.ofDocument?_toJson (u : Url) : Url.ofDocument? (ofJson u.toJson) = some u := by
  rw [ofDocument?, toJson, parts?_ofJson]
  simp [partOf?, Part.required, asString?_ofJson]

theorem templateOf?_ofJson (name : String) :
    templateOf? (ofJson (.object [("name", .string name)])) = some name := by
  rw [templateOf?, parts?_ofJson]
  simp [partOf?, Part.required, asString?_ofJson]

theorem App.ofDocument?_toJson (a : App) : App.ofDocument? (ofJson a.toJson) = some a := by
  have models := asList?_ofJson fun m (_ : m ∈ a.models) => m.ofDocument?_toJson
  have views := asList?_ofJson fun v (_ : v ∈ a.views) => v.ofDocument?_toJson
  have urls := asList?_ofJson fun u (_ : u ∈ a.urls) => u.ofDocument?_toJson
  have templates := asList?_ofJson fun t (_ : t ∈ a.templates) => templateOf?_ofJson t
  rw [ofDocument?, toJson, parts?_ofJson]
  simp [partOf?, Part.required, Part.orElse, asString?_ofJson, models, views, urls, templates]

theorem appsOf?_toJson (apps : List App) : appsOf? (ofJson (structured apps).toJson) = some apps := by
  have read := asList?_ofJson fun a (_ : a ∈ apps) => a.ofDocument?_toJson
  rw [appsOf?, toJson, parts?_ofJson]
  simp [partOf?, Part.required, read]

theorem FieldMap.worded_listing (fields : List (String × Option String)) : Worded (listing fields) := by
  apply Worded.object
  intro member inside
  obtain ⟨e, _, rfl⟩ := List.mem_map.mp inside
  exact worded_ofOption e.2

theorem FieldMap.worded (m : FieldMap) : Worded m.toJson := worded_listing m.entries

theorem Model.worded (m : Model) : Worded m.toJson := by
  apply Worded.object
  simp [Worded.string, FieldMap.worded]

theorem View.worded (v : View) : Worded v.toJson := by
  obtain ⟨name, type, model, template⟩ := v
  apply Worded.object
  cases model <;> cases template <;> simp [memberOf, Worded.string, worded_ofOption]

theorem Url.worded (u : Url) : Worded u.toJson := by
  apply Worded.object
  simp [Worded.string]

theorem worded_template (name : String) : Worded (.object [("name", .string name)]) := by
  apply Worded.object
  simp [Worded.string]

theorem App.worded (a : App) : Worded a.toJson := by
  apply Worded.object
  simp only [List.forall_mem_cons, List.not_mem_nil, false_implies, implies_true, and_true]
  exact ⟨.string a.name, worded_array a.models Model.worded, worded_array a.views View.worded,
    worded_array a.urls Url.worded, worded_array a.templates worded_template⟩

theorem worded (apps : List App) : Worded (structured apps).toJson := by
  apply Worded.object
  simp only [List.forall_mem_cons, List.not_mem_nil, false_implies, implies_true, and_true]
  exact worded_array apps App.worded

theorem ofText_of_spells {cs : List Char} {apps : List App}
    (spells : Spells cs (.value (ofJson (structured apps).toJson))) :
    ofText (.ofList cs) = structured apps := by
  apply ofText_of_apps
  rw [appsOfText?_eq_some_iff]
  exact ⟨[], cs, [], _, by simp, gap_nil, gap_nil, spells, appsOf?_toJson apps⟩

/-- A plan that is read and written is the same plan when it is read again. -/
theorem ofText_reread {text : String} {apps : List App} (read : ofText text = structured apps) :
    ofText (ofText text).toJson.compact = ofText text := by
  rw [read]
  exact ofText_of_spells (Json.spells_compact (worded apps))

/-- A structured plan is the plan of each of its texts. -/
theorem ofText_toJson (apps : List App) :
    ofText (structured apps).toJson.compact = structured apps ∧
      ofText (structured apps).toJson.pretty = structured apps :=
  ⟨ofText_of_spells (Json.spells_compact (worded apps)),
    ofText_of_spells (Json.spells_pretty (worded apps) 0)⟩

def blogApp : App where
  name := "blog\n\x60\x60\x60"
  models := [⟨"Post", ⟨[("title", some "CharField"), ("body", none), ("slug", some " ")], by decide⟩⟩]
  views := [⟨"PostList", none, some "Post", none⟩]
  urls := [⟨"posts/", "PostList"⟩]
  templates := ["blog/post_list.html"]

theorem ofText_blog : ofText (structured [blogApp]).toJson.compact = structured [blogApp] ∧
    ofText (structured [blogApp]).toJson.pretty = structured [blogApp] :=
  ofText_toJson [blogApp]

end Transplant.Plan
