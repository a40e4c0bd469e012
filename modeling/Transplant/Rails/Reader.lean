import Transplant.Rails.Application
import Transplant.Json.Parts

/-! Applications read back from JSON text. -/
namespace Transplant.Rails

open Json (Document)
open Json.Document

/-- A relation is named by its keyword, alone or as the key of a null. -/
def Relation.ofDocument? : Document → Option Relation
  | .string s => s.bind ofKeyword?
  | .object [(key, .null)] => key.bind ofKeyword?
  | _ => none

def Association.ofDocument? (d : Document) : Option Association := do
  match ← parts? [["kind"], ["target"]] d with
  | [kind, target] =>
    return ⟨← kind.required Relation.ofDocument?, ← target.required asString?⟩
  | _ => none

def Record.ofDocument? (d : Document) : Option Record := do
  match ← parts? [["name"], ["attributes"], ["associations"]] d with
  | [name, attributes, associations] =>
    return ⟨← name.required asString?, ← attributes.required (asList? asString?),
      ← associations.required (asList? Association.ofDocument?)⟩
  | _ => none

def Controller.ofDocument? (d : Document) : Option Controller := do
  match ← parts? [["name"], ["actions"], ["before_filters"], ["inferred_model"]] d with
  | [name, actions, filters, model] =>
    return ⟨← name.required asString?, ← actions.required (asList? asString?),
      ← filters.required (asList? asString?), ← nullablePart asString? model⟩
  | _ => none

def Route.collectionOf? (d : Document) : Option Route := do
  match ← objectParts? [["path"], ["controller"], ["actions"]] d with
  | [path, controller, actions] =>
    return collection (← path.required asString?) (← controller.required asString?)
      (← actions.required (asList? asString?))
  | _ => none

def Route.explicitOf? (d : Document) : Option Route := do
  match ← objectParts? [["path"], ["controller"], ["action"]] d with
  | [path, controller, action] =>
    return explicit (← path.required asString?) (← controller.required asString?)
      (← action.required asString?)
  | _ => none

/-- A route is read whole before its form is known, so all of it has to denote a value. Two
levels of the document stand around it. -/
def Route.ofDocument? (d : Document) : Option Route :=
  if d.depth + 2 ≤ depthLimit && d.denote?.isSome then
    (collectionOf? d).or (explicitOf? d)
  else none

def Template.ofDocument? (d : Document) : Option Template := do
  match ← parts? [["name"], ["variables"]] d with
  | [name, instanceVariables] =>
    let name ← name.required asString?
    let found ← instanceVariables.required (asList? asString?)
    return ⟨name, ascending found, pairwise_ascending found⟩
  | _ => none

namespace Application

def ofDocument? (d : Document) : Option Application := do
  match ← parts? [["domain_records"], ["controllers"], ["routes"], ["templates"]] d with
  | [records, controllers, routes, templates] =>
    return ⟨← records.required (asList? Record.ofDocument?),
      ← controllers.required (asList? Controller.ofDocument?),
      ← routes.required (asList? Route.ofDocument?),
      ← templates.required (asList? Template.ofDocument?)⟩
  | _ => none

def ofText? (text : String) : Option Application := do
  ofDocument? (← Document.ofText? text)

end Application

end Transplant.Rails
