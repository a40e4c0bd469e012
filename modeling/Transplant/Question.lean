import Transplant.Plan.Basic
import Transplant.Rails.Application
import Transplant.Path

/-! What a conversion asks its collaborator, and the prompts that put it into words. -/
namespace Transplant

inductive Question where
  | outline (root : Path)
  | summary (app : Rails.Application)
  | plan (app : Rails.Application) (notes : String)
  | description (app : Rails.Application) (plan : Plan)
  | requirements
  deriving DecidableEq, Repr

namespace Question

def system : String :=
  "You are a senior software architect migrating Ruby on Rails applications to Django."

def planShape : String := "\n".intercalate
  ["\x7b",
   "  \"apps\": [",
   "    \x7b",
   "      \"name\": \"blog\",",
   "      \"models\": [\x7b\"name\": \"Post\", " ++
     "\"fields\": \x7b\"title\": \"CharField(max_length=200)\", \"body\": \"TextField\"\x7d\x7d],",
   "      \"views\": [\x7b\"name\": \"PostListView\", \"type\": \"ListView\", " ++
     "\"model\": \"Post\", \"template\": \"blog/post_list.html\"\x7d],",
   "      \"urls\": [\x7b\"pattern\": \"posts/\", \"view\": \"PostListView\"\x7d],",
   "      \"templates\": [\x7b\"name\": \"blog/post_list.html\"\x7d]",
   "    \x7d",
   "  ]",
   "\x7d"]

def outlinePrompt (root : Path) : String :=
  "Analyze the Rails project located at '" ++ root.text ++ "'.\n" ++
  "Produce a step-by-step plan for converting it to Django. " ++
  "List each step with a short action, a description, and the steps it depends on."

def summaryPrompt (app : Rails.Application) : String :=
  "Structure extracted from a Rails application:\n\n" ++ app.toJson.pretty ++ "\n" ++
  "\nDescribe the application's architecture: the domain models and how they relate, " ++
  "what each controller is responsible for, how requests are routed, " ++
  "and what the views render. Be concise."

/-- A blank summary is left out. -/
def summarySection (notes : String) : String :=
  if notes.trimmed.isEmpty then "" else "Architecture summary:\n" ++ notes ++ "\n\n"

def planPrompt (app : Rails.Application) (notes : String) : String :=
  "Convert this Rails application into a Django project plan.\n\n" ++
  "Rails structure:\n" ++ app.toJson.pretty ++ "\n\n" ++ summarySection notes ++
  "Group related models into Django apps. Respond with JSON only, no prose, in this shape:\n" ++
  planShape ++ "\n"

def descriptionPrompt (app : Rails.Application) (plan : Plan) : String :=
  "Write a README.md for a Django project converted from a Rails application.\n\n" ++
  "Rails structure:\n" ++ app.toJson.pretty ++ "\n\n" ++
  "Django plan:\n" ++ plan.toJson.pretty ++ "\n\n" ++
  "Cover what the project contains, how the Rails pieces map to Django apps, " ++
  "how to install dependencies and run migrations, and what still needs manual work. " ++
  "Respond with Markdown only."

def requirementsPrompt : String :=
  "Generate a minimal requirements.txt for a Django 5 project using SQLite. " ++
  "Respond with the file contents only."

def prompt : Question → String
  | .outline root => outlinePrompt root
  | .summary app => summaryPrompt app
  | .plan app notes => planPrompt app notes
  | .description app made => descriptionPrompt app made
  | .requirements => requirementsPrompt

end Question

end Transplant
