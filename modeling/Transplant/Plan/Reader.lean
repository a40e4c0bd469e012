import Transplant.Plan.Basic
import Transplant.Plan.Fence
import Transplant.Json.Parts

/-! Plans read from the text of a collaborator. -/
namespace Transplant.Plan

open Json (Document)
open Json.Document

def FieldMap.ofDocument? : Document → Option FieldMap
  | .object members => do
    let entries ← members.mapM fun m => do
      return (← m.1, ← asNullable? asString? m.2)
    return ofList entries
  | _ => none

def FieldMap.ofText? (text : String) : Option FieldMap := do
  ofDocument? (← Document.ofText? text)

def Model.ofDocument? (d : Document) : Option Model := do
  match ← parts? [["name"], ["fields"]] d with
  | [name, fields] =>
    return ⟨← name.required asString?, ← fields.orElse .empty FieldMap.ofDocument?⟩
  | _ => none

/-- The type of a view has two names. -/
def View.ofDocument? (d : Document) : Option View := do
  match ← parts? [["name"], ["type_tag", "type"], ["model"], ["template"]] d with
  | [name, type, model, template] =>
    return ⟨← name.required asString?, ← type.orElse none (asNullable? asString?),
      ← model.orElse none (asNullable? asString?),
      ← template.orElse none (asNullable? asString?)⟩
  | _ => none

def Url.ofDocument? (d : Document) : Option Url := do
  match ← parts? [["pattern"], ["view"]] d with
  | [pattern, view] => return ⟨← pattern.required asString?, ← view.required asString?⟩
  | _ => none

def templateOf? (d : Document) : Option String := do
  match ← parts? [["name"]] d with
  | [name] => name.required asString?
  | _ => none

def App.ofDocument? (d : Document) : Option App := do
  match ← parts? [["name"], ["models"], ["views"], ["urls"], ["templates"]] d with
  | [name, models, views, urls, templates] =>
    return ⟨← name.required asString?, ← models.orElse [] (asList? Model.ofDocument?),
      ← views.orElse [] (asList? View.ofDocument?), ← urls.orElse [] (asList? Url.ofDocument?),
      ← templates.orElse [] (asList? templateOf?)⟩
  | _ => none

def appsOf? (d : Document) : Option (List App) := do
  match ← parts? [["apps"]] d with
  | [apps] => apps.required (asList? App.ofDocument?)
  | _ => none

def appsOfText? (text : String) : Option (List App) := do
  appsOf? (← Document.ofText? text)

/-- A text that is no plan, with its fences or without, is kept as it is. -/
def ofText (text : String) : Plan :=
  match appsOfText? (Fence.strip text) with
  | some apps => structured apps
  | none => raw text

end Transplant.Plan
