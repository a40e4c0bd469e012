import Transplant.Json.Basic

/-! The text of a JSON value, on one line or with one item a line. -/
namespace Transplant.Json

def hexDigits (width n : Nat) : List Char :=
  let digits := Nat.toDigits 16 n
  List.replicate (width - digits.length) '0' ++ digits

def escapeChar (c : Char) : List Char :=
  if c = '"' then ['\\', '"']
  else if c = '\\' then ['\\', '\\']
  else if c = '\n' then ['\\', 'n']
  else if c = '\r' then ['\\', 'r']
  else if c = '\t' then ['\\', 't']
  else if c.toNat = 8 then ['\\', 'b']
  else if c.toNat = 12 then ['\\', 'f']
  else if c.toNat < 0x20 then ['\\', 'u'] ++ hexDigits 4 c.toNat
  else [c]

def quote (s : String) : List Char := '"' :: s.toList.flatMap escapeChar ++ ['"']

def atom : Json → List Char
  | null => "null".toList
  | bool true => "true".toList
  | bool false => "false".toList
  | number n => n.render.toList
  | string s => quote s
  | array _ => []
  | object _ => []

mutual

def compactChars : Json → List Char
  | array [] => ['[', ']']
  | array (x :: xs) => '[' :: compactChars x ++ compactItems xs ++ [']']
  | object [] => ['{', '}']
  | object ((k, v) :: rest) =>
    '{' :: quote k ++ ':' :: compactChars v ++ compactMembers rest ++ ['}']
  | leaf => leaf.atom

def compactItems : List Json → List Char
  | [] => []
  | x :: xs => ',' :: compactChars x ++ compactItems xs

def compactMembers : List (String × Json) → List Char
  | [] => []
  | (k, v) :: rest => ',' :: quote k ++ ':' :: compactChars v ++ compactMembers rest

end

def newline (depth : Nat) : List Char := '\n' :: List.replicate (2 * depth) ' '

mutual

def prettyChars (depth : Nat) : Json → List Char
  | array [] => ['[', ']']
  | array (x :: xs) =>
    '[' :: newline (depth + 1) ++ prettyChars (depth + 1) x ++ prettyItems (depth + 1) xs ++
      newline depth ++ [']']
  | object [] => ['{', '}']
  | object ((k, v) :: rest) =>
    '{' :: newline (depth + 1) ++ quote k ++ [':', ' '] ++ prettyChars (depth + 1) v ++
      prettyMembers (depth + 1) rest ++ newline depth ++ ['}']
  | leaf => leaf.atom

def prettyItems (depth : Nat) : List Json → List Char
  | [] => []
  | x :: xs => ',' :: newline depth ++ prettyChars depth x ++ prettyItems depth xs

def prettyMembers (depth : Nat) : List (String × Json) → List Char
  | [] => []
  | (k, v) :: rest =>
    ',' :: newline depth ++ quote k ++ [':', ' '] ++ prettyChars depth v ++
      prettyMembers depth rest

end

def compact (j : Json) : String := .ofList j.compactChars

/-- One item a line, indented by two blanks. -/
def pretty (j : Json) : String := .ofList (prettyChars 0 j)

end Transplant.Json
