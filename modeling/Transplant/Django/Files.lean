import Transplant.Plan.Basic
import Transplant.Text.Case

/-! The files of a Django project. Those of an app are rendered from its plan. Those at the root install the
fixed apps of the framework and then the project's own, and mount these after the administration. -/
namespace Transplant.Django

/-- Each line with its line end. -/
def unlines : List String → String
  | [] => ""
  | line :: rest => line ++ "\n" ++ unlines rest

open Plan (Model View Url FieldMap)

def defaultField : String := "CharField(max_length=255)"

def withoutModels (type : String) : String :=
  if "models.".toList.isPrefixOf type.toList then .ofList (type.toList.drop 7) else type

/-- The constructor of a field; a bare type is called without arguments. -/
def fieldConstructor : Option String → String
  | none => defaultField
  | some type =>
    let name := withoutModels type
    if name.toList.contains '(' then name else s!"{name}()"

def fieldLine (field : String × Option String) : String :=
  s!"    {field.1} = models." ++ fieldConstructor field.2

def passLine : String := "    pass"

def modelLines (m : Model) : List String :=
  ["", "", s!"class {m.name}(models.Model):"] ++
    (if m.fields.entries.isEmpty then [passLine] else m.fields.fields.map fieldLine)

def modelsPy (models : List Model) : String :=
  unlines ("from django.db import models" :: models.flatMap modelLines)

/-- A view without a type of its own is a plain one. -/
def viewBase (v : View) : String := (FieldMap.given? v.type).getD "View"

def bindingLines (v : View) : List String :=
  (v.model.map fun m => s!"    model = {m}").toList ++
    (v.template.map fun t => s!"    template_name = '{t}'").toList

def viewLines (v : View) : List String :=
  let base := viewBase v
  ["", "", s!"class {v.name}(generic.{base}):"] ++
    (if v.model.isNone && v.template.isNone then [passLine] else bindingLines v)

def viewsPy (views : List View) : String :=
  unlines (["from django.views import generic", "from .models import *"] ++
    views.flatMap viewLines)

def lowerCase (s : String) : String := .ofList (Text.lower s.toList)

def urlLine (u : Url) : String :=
  let name := lowerCase u.view
  s!"    path('{u.pattern}', views.{u.view}.as_view(), name='{name}'),"

def urlsPy (urls : List Url) : String :=
  unlines (["from django.urls import path", "from . import views", "", "urlpatterns = ["] ++
    urls.map urlLine ++ ["]"])

def templateStub (name : String) : String := unlines
  ["\x7b% extends 'base.html' %\x7d",
   "\x7b% block content %\x7d",
   s!"<!-- Auto-generated template for {name} -->",
   "\x7b% endblock %\x7d"]

/-- The first character in upper case and the others in lower case. -/
def capitalized (s : String) : String :=
  match s.toList with
  | [] => ""
  | c :: cs => .ofList (Text.upperChar c ++ Text.lower cs)

def configClassName (app : String) : String := capitalized app ++ "Config"

def appsPy (app : String) : String :=
  let config := configClassName app
  unlines
    ["from django.apps import AppConfig",
     "",
     "",
     s!"class {config}(AppConfig):",
     "    default_auto_field = 'django.db.models.BigAutoField'",
     s!"    name = '{app}'"]

def managePy (package : String) : String := unlines
  ["#!/usr/bin/env python",
   "\"\"\"Django's command-line utility for administrative tasks.\"\"\"",
   "import os",
   "import sys",
   "",
   "",
   "def main():",
   s!"    os.environ.setdefault('DJANGO_SETTINGS_MODULE', '{package}.settings')",
   "    from django.core.management import execute_from_command_line",
   "    execute_from_command_line(sys.argv)",
   "",
   "",
   "if __name__ == '__main__':",
   "    main()"]

def contribApps : List String :=
  ["django.contrib.admin", "django.contrib.auth", "django.contrib.contenttypes",
   "django.contrib.sessions", "django.contrib.messages", "django.contrib.staticfiles"]

def installedLine (app : String) : String := s!"    '{app}',"

def settingsHead : List String :=
  ["from pathlib import Path",
   "",
   "BASE_DIR = Path(__file__).resolve().parent.parent",
   "",
   "SECRET_KEY = 'django-insecure-replace-before-deploying'",
   "DEBUG = True",
   "ALLOWED_HOSTS = []",
   "",
   "INSTALLED_APPS = ["]

def settingsTail (package : String) : List String :=
  ["]",
   "",
   "MIDDLEWARE = [",
   "    'django.middleware.security.SecurityMiddleware',",
   "    'django.contrib.sessions.middleware.SessionMiddleware',",
   "    'django.middleware.common.CommonMiddleware',",
   "    'django.middleware.csrf.CsrfViewMiddleware',",
   "    'django.contrib.auth.middleware.AuthenticationMiddleware',",
   "    'django.contrib.messages.middleware.MessageMiddleware',",
   "    'django.middleware.clickjacking.XFrameOptionsMiddleware',",
   "]",
   "",
   s!"ROOT_URLCONF = '{package}.urls'",
   "",
   "TEMPLATES = [",
   "    \x7b",
   "        'BACKEND': 'django.template.backends.django.DjangoTemplates',",
   "        'DIRS': [BASE_DIR / 'templates'],",
   "        'APP_DIRS': True,",
   "        'OPTIONS': \x7b",
   "            'context_processors': [",
   "                'django.template.context_processors.request',",
   "                'django.contrib.auth.context_processors.auth',",
   "                'django.contrib.messages.context_processors.messages',",
   "            ],",
   "        \x7d,",
   "    \x7d,",
   "]",
   "",
   s!"WSGI_APPLICATION = '{package}.wsgi.application'",
   "",
   "DATABASES = \x7b",
   "    'default': \x7b",
   "        'ENGINE': 'django.db.backends.sqlite3',",
   "        'NAME': BASE_DIR / 'db.sqlite3',",
   "    \x7d",
   "\x7d",
   "",
   "LANGUAGE_CODE = 'en-us'",
   "TIME_ZONE = 'UTC'",
   "USE_I18N = True",
   "USE_TZ = True",
   "",
   "STATIC_URL = 'static/'",
   "",
   "DEFAULT_AUTO_FIELD = 'django.db.models.BigAutoField'"]

def settingsPy (package : String) (apps : List String) : String :=
  unlines (settingsHead ++ (contribApps ++ apps).map installedLine ++ settingsTail package)

def mountLine (app : String) : String := s!"    path('{app}/', include('{app}.urls')),"

def rootUrlsHead : List String :=
  ["from django.contrib import admin",
   "from django.urls import include, path",
   "",
   "urlpatterns = [",
   "    path('admin/', admin.site.urls),"]

def rootUrlsPy (apps : List String) : String :=
  unlines (rootUrlsHead ++ apps.map mountLine ++ ["]"])

def wsgiPy (package : String) : String := unlines
  ["import os",
   "",
   "from django.core.wsgi import get_wsgi_application",
   "",
   s!"os.environ.setdefault('DJANGO_SETTINGS_MODULE', '{package}.settings')",
   "",
   "application = get_wsgi_application()"]

def baseHtml (package : String) : String := unlines
  ["<!DOCTYPE html>",
   "<html lang=\"en\">",
   "<head>",
   "  <meta charset=\"utf-8\">",
   s!"  <title>\x7b% block title %\x7d{package}\x7b% endblock %\x7d</title>",
   "</head>",
   "<body>",
   "\x7b% block content %\x7d\x7b% endblock %\x7d",
   "</body>",
   "</html>"]

end Transplant.Django
