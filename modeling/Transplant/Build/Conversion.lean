import Transplant.Build.Project
import Transplant.Rails.Erb
import Transplant.Rails.Survey

/-! The conversion of source templates into templates of the project. -/
namespace Transplant.Build

def conversionTarget (root : Path) (name : String) : Path :=
  (root.join templatesDir).join (name ++ ".html")

def conversionStep (root : Path) (name text : String) : Step :=
  if staysBelow (name ++ ".html") then
    .write (conversionTarget root name) (Rails.Erb.toDjango text)
  else .refuse (.unsafePath (name ++ ".html"))

variable {m : Type → Type} [Monad m]

def convertAll (fs : FileSystem m) (root : Path) :
    List (Path × String) → ExceptT BuildError m (List Path)
  | [] => return []
  | (source, name) :: rest => do
    let text ← ExceptT.lift (fs.readOrEmpty source)
    (conversionStep root name text).run fs
    return conversionTarget root name :: (← convertAll fs root rest)

def convertTemplates (fs : FileSystem m) (views root : Path) :
    ExceptT BuildError m (List Path) := do
  convertAll fs root (← ExceptT.lift (Rails.Survey.templateFiles fs views))

end Transplant.Build
