import Mathlib.Data.String.Basic
import Transplant.CommandLine.Command
import Transplant.Proofs.ReadBack
import Transplant.Proofs.StageCalls
import Transplant.Rails.Reader

/-! Applications and their texts. A described application is read back from the text of its value, on one
line or with one item a line, and each of its routes in the form that it has. -/
namespace Transplant.Rails

open Json (Document Part Worded worded_ofOption worded_array)
open Json.Document

theorem asList?_ofStrings (xs : List String) : asList? asString? (ofJson (.ofStrings xs)) = some xs :=
  asList?_ofJson fun s _ => asString?_ofJson s

theorem worded_ofStrings (xs : List String) : Worded (.ofStrings xs) :=
  worded_array xs Worded.string

theorem Relation.ofDocument?_keyword (r : Relation) : ofDocument? (ofJson (.string r.keyword)) = some r := by
  cases r <;> decide

theorem Association.ofDocument?_toJson (a : Association) : ofDocument? (ofJson a.toJson) = some a := by
  rw [ofDocument?, toJson, parts?_ofJson]
  simp [partOf?, Part.required, asString?_ofJson, Relation.ofDocument?_keyword]

theorem Record.ofDocument?_toJson (r : Record) : ofDocument? (ofJson r.toJson) = some r := by
  have associations := asList?_ofJson fun a (_ : a ∈ r.associations) => a.ofDocument?_toJson
  rw [ofDocument?, toJson, parts?_ofJson]
  simp [partOf?, Part.required, asString?_ofJson, asList?_ofStrings, associations]

theorem Controller.ofDocument?_toJson (c : Controller) : ofDocument? (ofJson c.toJson) = some c := by
  rw [ofDocument?, toJson, parts?_ofJson]
  simp [partOf?, Part.required, nullablePart, asString?_ofJson, asList?_ofStrings, asNullable?_ofJson]

namespace Route

theorem worded (r : Route) : Worded r.toJson := by
  cases r with
  | collection path controller actions =>
    apply Worded.object
    simp [Worded.string, worded_ofStrings]
  | explicit path controller action =>
    apply Worded.object
    simp [Worded.string]

theorem depth_toJson (r : Route) : (ofJson r.toJson).depth ≤ 2 := by
  cases r with
  | collection path controller actions =>
    simp [toJson, Json.ofStrings, ofJson, ofMembers, depth, membersDepth, itemsDepth_strings]
  | explicit path controller action => simp [toJson, ofJson, ofMembers, depth, membersDepth]

theorem collectionOf?_collection (path controller : String) (actions : List String) :
    collectionOf? (ofJson (collection path controller actions).toJson) =
      some (collection path controller actions) := by
  rw [collectionOf?, toJson, objectParts?_ofJson]
  simp [partOf?, Part.required, asString?_ofJson, asList?_ofStrings]

/-- A single binding has no actions, so it is no collection, and the other form comes in. -/
theorem collectionOf?_explicit (path controller action : String) :
    collectionOf? (ofJson (explicit path controller action).toJson) = none := by
  rw [collectionOf?, toJson, objectParts?_ofJson]
  simp [partOf?, Part.required, asString?_ofJson]

theorem explicitOf?_explicit (path controller action : String) :
    explicitOf? (ofJson (explicit path controller action).toJson) =
      some (explicit path controller action) := by
  rw [explicitOf?, toJson, objectParts?_ofJson]
  simp [partOf?, Part.required, asString?_ofJson]

theorem explicitOf?_collection (path controller : String) (actions : List String) :
    explicitOf? (ofJson (collection path controller actions).toJson) = none := by
  rw [explicitOf?, toJson, objectParts?_ofJson]
  simp [partOf?, Part.required, asString?_ofJson]

theorem ofDocument?_toJson (r : Route) : ofDocument? (ofJson r.toJson) = some r := by
  have depth := r.depth_toJson
  have shallow : (ofJson r.toJson).depth + 2 ≤ depthLimit := by
    rw [depthLimit]
    omega
  rw [ofDocument?, if_pos (by simp [shallow, denote?_isSome r.worded])]
  cases r with
  | collection path controller actions => rw [collectionOf?_collection, Option.some_or]
  | explicit path controller action =>
    rw [collectionOf?_explicit, explicitOf?_explicit, Option.none_or]

end Route

namespace Template

theorem insertSorted_of_lt {x : String} {xs : List String} (least : ∀ y ∈ xs, x < y) :
    insertSorted x xs = x :: xs := by
  cases xs with
  | nil => rfl
  | cons y ys => rw [insertSorted, if_pos (least y List.mem_cons_self)]

theorem ascending_of_pairwise {xs : List String} (ascends : xs.Pairwise (· < ·)) : ascending xs = xs := by
  induction ascends with
  | nil => rfl
  | @cons x xs least _ ih =>
    change insertSorted x (ascending xs) = x :: xs
    rw [ih, insertSorted_of_lt least]

theorem ofDocument?_toJson (t : Template) : ofDocument? (ofJson t.toJson) = some t := by
  rw [ofDocument?, toJson, parts?_ofJson]
  simp [partOf?, Part.required, asString?_ofJson, asList?_ofStrings, ascending_of_pairwise t.ascends]

end Template

theorem Association.worded (a : Association) : Worded a.toJson := by
  apply Worded.object
  simp [Worded.string]

theorem Record.worded (r : Record) : Worded r.toJson := by
  apply Worded.object
  simp [Worded.string, worded_ofStrings, worded_array r.associations Association.worded]

theorem Controller.worded (c : Controller) : Worded c.toJson := by
  apply Worded.object
  simp [Worded.string, worded_ofStrings, worded_ofOption]

theorem Template.worded (t : Template) : Worded t.toJson := by
  apply Worded.object
  simp [Worded.string, worded_ofStrings]

namespace Application

theorem worded (a : Application) : Worded a.toJson := by
  apply Worded.object
  simp [worded_array a.records Record.worded, worded_array a.controllers Controller.worded,
    worded_array a.routes Route.worded, worded_array a.templates Template.worded]

theorem ofDocument?_toJson (a : Application) : ofDocument? (ofJson a.toJson) = some a := by
  have records := asList?_ofJson fun r (_ : r ∈ a.records) => r.ofDocument?_toJson
  have controllers := asList?_ofJson fun c (_ : c ∈ a.controllers) => c.ofDocument?_toJson
  have routes := asList?_ofJson fun r (_ : r ∈ a.routes) => r.ofDocument?_toJson
  have templates := asList?_ofJson fun t (_ : t ∈ a.templates) => t.ofDocument?_toJson
  rw [ofDocument?, toJson, parts?_ofJson]
  simp [partOf?, Part.required, records, controllers, routes, templates]

/-- A text of an application, with nothing but space behind it. -/
theorem ofText?_of_spells {a : Application} {cs trail : List Char}
    (spells : Spells cs (.value (ofJson a.toJson))) (space : Gap trail) :
    ofText? (.ofList (cs ++ trail)) = some a := by
  have read : Document.ofText? (.ofList (cs ++ trail)) = some (ofJson a.toJson) :=
    Document.ofText?_eq_some_iff.mpr ⟨[], cs, trail, by simp, gap_nil, space, spells⟩
  rw [ofText?, read]
  exact ofDocument?_toJson a

theorem ofText?_printed (a : Application) : ofText? (a.toJson.pretty ++ "\n") = some a := by
  have feed : Gap ['\n'] := by simp [Gap, isSpace]
  have read := ofText?_of_spells (Json.spells_pretty a.worded 0) feed
  rwa [String.ofList_append] at read

end Application

namespace Survey

variable {σ : Type} {o : Outside σ}

/-- What an analysis prints is read as what it has found, on any files. -/
theorem analysis_reread (input : Path) :
    Meets o (Command.analyzeTree o.files.recorded input).run fun _ r =>
      ∀ lines, r = .ok lines → ∃ app : Application, lines = [app.toJson.pretty] ∧
        Application.ofText? (app.toJson.pretty ++ "\n") = some app := by
  apply (Meets.contains input).fetch
  rintro _ there rfl
  cases there with
  | false =>
    apply Meets.pure
    nofun
  | true =>
    apply (onlyLooks_run input).fetch
    intro _ app _
    apply Meets.pure
    rintro _ h
    cases h
    exact ⟨app, rfl, app.ofText?_printed⟩

end Survey

/-- A described application is the one that is read from each of its texts, also from the line that an
analysis prints, and none of its routes could be read in the form that it has not. -/
theorem Application.ofText?_toJson (a : Application) :
    ofText? a.toJson.compact = some a ∧ ofText? a.toJson.pretty = some a ∧
      ofText? (a.toJson.pretty ++ "\n") = some a ∧
      ∀ r ∈ a.routes, Route.ofDocument? (ofJson r.toJson) = some r ∧
        (Route.collectionOf? (ofJson r.toJson) = none ∨ Route.explicitOf? (ofJson r.toJson) = none) := by
  refine ⟨?_, ?_, a.ofText?_printed, ?_⟩
  · have read := ofText?_of_spells (Json.spells_compact a.worded) gap_nil
    rwa [List.append_nil] at read
  · have read := ofText?_of_spells (Json.spells_pretty a.worded 0) gap_nil
    rwa [List.append_nil] at read
  · intro r _
    refine ⟨r.ofDocument?_toJson, ?_⟩
    cases r with
    | collection path controller actions => exact .inr (Route.explicitOf?_collection path controller actions)
    | explicit path controller action => exact .inl (Route.collectionOf?_explicit path controller action)

/-- An application with routes of both forms, one of them without actions. -/
def pressApplication : Application where
  records := [⟨"Post", ["title\n", "\"\u0001"], [⟨.hasMany, "comments"⟩, ⟨.hasRichText, ""⟩]⟩]
  controllers := [⟨"PostsController", [], ["login!"], some "Post"⟩, ⟨"HomeController", ["index"], [], none⟩]
  routes := [.explicit "/about" "pages" "actions", .collection "/posts" "posts" [], .explicit "/" "" ""]
  templates := [⟨"posts/show", ["post", "posts"], by decide⟩, ⟨"", [], .nil⟩]

theorem Application.ofText?_press : ofText? pressApplication.toJson.compact = some pressApplication ∧
    ofText? (pressApplication.toJson.pretty ++ "\n") = some pressApplication := by
  obtain ⟨compact, _, printed, _⟩ := pressApplication.ofText?_toJson
  exact ⟨compact, printed⟩

end Transplant.Rails
