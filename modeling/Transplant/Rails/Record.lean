import Transplant.Text.Pattern

/-! Persistent records: classes below `ApplicationRecord`, with the accessors and relations
they declare. -/
namespace Transplant.Rails

open Text Text.Pattern

inductive Relation where
  | hasMany
  | belongsTo
  | hasOne
  | hasOneAttached
  | hasRichText
  deriving DecidableEq, Repr

namespace Relation

def keyword : Relation → String
  | hasMany => "has_many"
  | belongsTo => "belongs_to"
  | hasOne => "has_one"
  | hasOneAttached => "has_one_attached"
  | hasRichText => "has_rich_text"

def all : List Relation := [hasMany, belongsTo, hasOne, hasOneAttached, hasRichText]

def ofKeyword? (word : String) : Option Relation := all.find? fun r => r.keyword == word

end Relation

structure Association where
  relation : Relation
  target : String
  deriving DecidableEq, Repr

structure Record where
  name : String
  attributes : List String
  associations : List Association
  deriving DecidableEq, Repr

namespace Record

def declaration : Pattern String := do
  literal "class"
  blanks1
  let name ← word
  blanks
  literal "<"
  blanks
  literal "ApplicationRecord"
  wordEnd
  return .ofList name

def symbol : Pattern String := do
  literal ":"
  let name ← word
  return .ofList name

def accessors : Pattern (List String) := do
  literal "attr_accessor"
  blanks1
  let first ← symbol
  let more ← many do
    blanks
    literal ","
    blanks
    symbol
  return first :: more

def relation (r : Relation) : Pattern Association := do
  literal r.keyword
  blanks1
  let target ← symbol
  return ⟨r, target⟩

def association : Pattern Association := oneOf (Relation.all.map relation)

/-- The record that a text declares: the first declaration names it, and all directives of the
text belong to it. -/
def ofText? (text : String) : Option Record := do
  let cs := text.toList
  let name ← (scanWords declaration cs).head?
  return ⟨name, (scanWords accessors cs).flatten, scanWords association cs⟩

end Record

end Transplant.Rails
