import Transplant.Rails.Application
import Transplant.FileSystem

/-! The survey of a source tree. Records, controllers, routes and templates each have their own
place below the root; what is not there leaves its section empty. -/
namespace Transplant.Rails

namespace Survey

def modelsDir : String := "app/models"

def controllersDir : String := "app/controllers"

def routesFile : String := "config/routes.rb"

def viewsDir : String := "app/views"

end Survey

/-- The name of a template: its components below the views, without the ending of a template. -/
def Template.nameOf? (components : List Path.Component) : Option String :=
  let name := ("/".intercalate (components.map Path.Component.text)).toList
  let without (ending : String) : Option String :=
    if ending.toList.isSuffixOf name then some (.ofList (name.take (name.length - ending.length)))
    else none
  (without ".html.erb").or (without ".erb")

def Template.named? (views p : Path) : Option (Path × String) := do
  return (p, ← nameOf? (← views.below? p))

namespace Survey

variable {m : Type → Type} [Monad m]

def templateFiles (fs : FileSystem m) (views : Path) : m (List (Path × String)) := do
  return (← fs.list views).filterMap (Template.named? views)

def rubyFiles (fs : FileSystem m) (dir : Path) : m (List Path) := do
  return (← fs.list dir).filter fun p => p.extension? == some "rb"

def readAll {α : Type} (fs : FileSystem m) (read? : String → Option α) : List Path → m (List α)
  | [] => return []
  | p :: rest => do
    let found := read? (← fs.readOrEmpty p)
    return found.toList ++ (← readAll fs read? rest)

def routes (fs : FileSystem m) (file : Path) : m (List Route) := do
  if ← fs.contains file then return Route.allOfText (← fs.readOrEmpty file) else return []

def templates (fs : FileSystem m) : List (Path × String) → m (List Template)
  | [] => return []
  | (p, name) :: rest => do
    let template := Template.ofText name (← fs.readOrEmpty p)
    return template :: (← templates fs rest)

def run (fs : FileSystem m) (root : Path) : m Application := do
  let records ← readAll fs Record.ofText? (← rubyFiles fs (root.join modelsDir))
  let controllers ← readAll fs Controller.ofText? (← rubyFiles fs (root.join controllersDir))
  let routes ← routes fs (root.join routesFile)
  let templates ← templates fs (← templateFiles fs (root.join viewsDir))
  return ⟨records, controllers, routes, templates⟩

end Survey

end Transplant.Rails
