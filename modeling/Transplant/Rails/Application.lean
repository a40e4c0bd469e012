import Transplant.Rails.Record
import Transplant.Rails.Controller
import Transplant.Rails.Route
import Transplant.Rails.Template
import Transplant.Json.Printer

/-! A described application: all records, controllers, routes and templates of a source tree, and
their JSON. -/
namespace Transplant.Rails

structure Application where
  records : List Record
  controllers : List Controller
  routes : List Route
  templates : List Template
  deriving DecidableEq, Repr

def Association.toJson (a : Association) : Json :=
  .object [("kind", .string a.relation.keyword), ("target", .string a.target)]

def Record.toJson (r : Record) : Json :=
  .object [("name", .string r.name), ("attributes", .ofStrings r.attributes),
    ("associations", .array (r.associations.map Association.toJson))]

def Controller.toJson (c : Controller) : Json :=
  .object [("name", .string c.name), ("actions", .ofStrings c.actions),
    ("before_filters", .ofStrings c.filters), ("inferred_model", .ofOption c.inferredModel)]

/-- The forms are told apart by their last key. -/
def Route.toJson : Route → Json
  | collection path controller actions =>
    .object [("path", .string path), ("controller", .string controller),
      ("actions", .ofStrings actions)]
  | explicit path controller action =>
    .object [("path", .string path), ("controller", .string controller),
      ("action", .string action)]

def Template.toJson (t : Template) : Json :=
  .object [("name", .string t.name), ("variables", .ofStrings t.instanceVariables)]

namespace Application

def empty : Application := ⟨[], [], [], []⟩

def isEmpty (a : Application) : Bool :=
  a.records.isEmpty && a.controllers.isEmpty && a.routes.isEmpty && a.templates.isEmpty

def toJson (a : Application) : Json :=
  .object [("domain_records", .array (a.records.map Record.toJson)),
    ("controllers", .array (a.controllers.map Controller.toJson)),
    ("routes", .array (a.routes.map Route.toJson)),
    ("templates", .array (a.templates.map Template.toJson))]

end Application

end Transplant.Rails
