import Transplant.Build.Step
import Transplant.Django.Files
import Transplant.Json.Printer

/-! A project: its scaffold, which are the files that make its root run, and its apps, one directory each,
in the order of the plan. -/
namespace Transplant.Build

def templatesDir : String := "templates"

def Scaffold.files (plan : Plan) (root : Path) (package : String) : List Step :=
  let dir := root.join package
  let apps := plan.apps.map Plan.App.name
  [.write (root.join "manage.py") (Django.managePy package),
   .write (dir.join "__init__.py") "",
   .write (dir.join "settings.py") (Django.settingsPy package apps),
   .write (dir.join "urls.py") (Django.rootUrlsPy apps),
   .write (dir.join "wsgi.py") (Django.wsgiPy package),
   .write ((root.join templatesDir).join "base.html") (Django.baseHtml package)]

/-- The package of the settings is an entry below the root, and no app has its name. -/
def Scaffold.steps (plan : Plan) (root : Path) (package : String) : List Step :=
  if !isEntry package then [.refuse (.unsafePath package)]
  else if (plan.apps.map Plan.App.name).contains package then [.refuse (.nameCollision package)]
  else files plan root package

structure BuiltApp where
  name : String
  dir : Path
  files : List Path
  deriving DecidableEq, Repr

structure Project where
  root : Path
  apps : List BuiltApp
  scaffold : List Path
  converted : List Path
  deriving DecidableEq, Repr

def pathsToJson (paths : List Path) : Json := .ofStrings (paths.map Path.text)

def BuiltApp.toJson (a : BuiltApp) : Json :=
  .object [("name", .string a.name), ("dir", .string a.dir.text), ("files", pathsToJson a.files)]

def Project.toJson (p : Project) : Json :=
  .object [("root", .string p.root.text), ("apps", .array (p.apps.map BuiltApp.toJson)),
    ("scaffold", pathsToJson p.scaffold), ("converted_templates", pathsToJson p.converted)]

namespace Apps

def templateStep (dir : Path) (name : String) : Step :=
  if staysBelow name then .write ((dir.join templatesDir).join name) (Django.templateStub name)
  else .refuse (.unsafePath name)

def fileSteps (app : Plan.App) (dir : Path) : List Step :=
  [.write (dir.join "models.py") (Django.modelsPy app.models),
   .write (dir.join "views.py") (Django.viewsPy app.views),
   .write (dir.join "urls.py") (Django.urlsPy app.urls)] ++
  app.templates.map (templateStep dir) ++
  [.write (dir.join "apps.py") (Django.appsPy app.name),
   .write (dir.join "__init__.py") ""]

/-- The directory of an app is an entry below the root. -/
def appSteps (root : Path) (app : Plan.App) : List Step :=
  if isEntry app.name then
    let dir := root.join app.name
    .createDir dir :: fileSteps app dir
  else [.refuse (.unsafePath app.name)]

def steps (plan : Plan) (root : Path) : List Step :=
  .createDir root :: plan.apps.flatMap (appSteps root)

def built (root : Path) (app : Plan.App) : BuiltApp :=
  ⟨app.name, root.join app.name, written (appSteps root app)⟩

end Apps

variable {m : Type → Type} [Monad m]

def scaffold (fs : FileSystem m) (plan : Plan) (root : Path) (package : String) :
    ExceptT BuildError m (List Path) := do
  let steps := Scaffold.steps plan root package
  runAll fs steps
  return written steps

def generate (fs : FileSystem m) (plan : Plan) (root : Path) : ExceptT BuildError m Project := do
  runAll fs (Apps.steps plan root)
  return ⟨root, plan.apps.map (Apps.built root), [], []⟩

end Transplant.Build
