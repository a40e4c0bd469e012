import Transplant.Text.Pattern

/-! Templates with embedded code. A text splits into plain characters and tags, and each tag turns
into Django markup. Blocks that tags open are kept on a stack, so that an `end` gets the word that
closes its block. -/
namespace Transplant.Rails.Erb

open Text Text.Pattern

inductive Sigil where
  | statement
  | output
  | comment
  | trimmed
  deriving DecidableEq, Repr

structure Tag where
  sigil : Sigil
  body : List Char
  deriving DecidableEq, Repr

inductive Piece where
  | plain (c : Char)
  | tag (t : Tag)
  deriving DecidableEq, Repr

def readSigil : List Char → Sigil × List Char
  | '=' :: cs => (.output, cs)
  | '#' :: cs => (.comment, cs)
  | '-' :: cs => (.trimmed, cs)
  | cs => (.statement, cs)

/-- The body of a tag ends before the first `%>`, or before a `-` in front of it. -/
def readBody? : List Char → Option (List Char × List Char)
  | '%' :: '>' :: rest => some ([], rest)
  | '-' :: '%' :: '>' :: rest => some ([], rest)
  | c :: cs => (readBody? cs).map fun read => (c :: read.1, read.2)
  | [] => none

def readTag? : List Char → Option (Tag × List Char)
  | '<' :: '%' :: cs =>
    let (sigil, inner) := readSigil cs
    (readBody? inner).map fun read => (⟨sigil, read.1⟩, read.2)
  | _ => none

/-- The pieces of a text of which `skip` characters are already read. -/
def piecesFrom : Nat → List Char → List Piece
  | _, [] => []
  | skip + 1, _ :: cs => piecesFrom skip cs
  | 0, c :: cs =>
    match readTag? (c :: cs) with
    | some (tag, rest) => .tag tag :: piecesFrom (cs.length - rest.length) cs
    | none => .plain c :: piecesFrom 0 cs

def pieces (cs : List Char) : List Piece := piecesFrom 0 cs

/-- Drops each `@` that a word character follows. -/
def withoutSigils : List Char → List Char
  | '@' :: c :: cs => if isWord c then withoutSigils (c :: cs) else '@' :: withoutSigils (c :: cs)
  | c :: cs => c :: withoutSigils cs
  | [] => []

inductive Markup where
  | output (code : List Char)
  | block (code : List Char)
  | comment (text : List Char)
  | commentBlock (text : List Char)
  deriving DecidableEq, Repr

def Markup.render : Markup → List Char
  | output code => "\x7b\x7b ".toList ++ code ++ " \x7d\x7d".toList
  | block code => "\x7b% ".toList ++ code ++ " %\x7d".toList
  | comment text => "\x7b# ".toList ++ text ++ " #\x7d".toList
  | commentBlock text =>
    "\x7b% comment %\x7d".toList ++ text ++ "\x7b% endcomment %\x7d".toList

inductive Block where
  | conditional
  | loop
  | other
  deriving DecidableEq, Repr

def Block.closer : Option Block → String
  | some .conditional => "endif"
  | some .loop => "endfor"
  | some .other => "end"
  | none => "end"

/-- A comment that runs over a line break takes the block form. -/
def commentMarkup (text : List Char) : Markup :=
  if text.contains '\n' then .commentBlock text else .comment text

def partialName : Pattern (List Char) := do
  literal "render"
  blanks
  let _ ← maybe (literal "(")
  blanks
  let _ ← maybe (do literal "partial:"; blanks)
  let _ ← one fun c => c = '\'' || c = '"'
  let name ← run1 fun c => isWord c || c = '/'
  let _ ← one fun c => c = '\'' || c = '"'
  return name

/-- What follows the receiver of a loop over it, up to the end of the code. -/
def eachTail : Pattern (List Char) := do
  literal ".each"
  blanks1
  literal "do"
  blanks
  literal "|"
  blanks
  let item ← word
  blanks
  literal "|"
  atEnd
  return item

/-- Splits `xs.each do |x|` at the first place where the tail reads; the receiver, so far in
reverse, is on one line. -/
def eachFrom (receiver : List Char) : List Char → Option (List Char × List Char)
  | [] => none
  | c :: cs =>
    match if receiver.isEmpty then none else eachTail (c :: cs) with
    | some (item, _) => some (receiver.reverse, item)
    | none => if c = '\n' then none else eachFrom (c :: receiver) cs

def readEach? (code : List Char) : Option (List Char × List Char) := eachFrom [] code

def blockParameters : Pattern Unit := do
  literal "|"
  let _ ← run (· ≠ '|')
  literal "|"

def doTail : Pattern Unit := do
  literal "do"
  blanks
  either atEnd (do blockParameters; atEnd)

/-- The code ends in `do`, or in `do` with block parameters. -/
def endsInDo (code : List Char) : Bool := !(scanWords doTail code).isEmpty

def afterLiteral? (s : String) (code : List Char) : Option (List Char) :=
  literalList s.toList code

def openOther (code : List Char) (blocks : List Block) : List Block :=
  if endsInDo code then .other :: blocks else blocks

def outputMarkup (code : List Char) (blocks : List Block) : Markup × List Block :=
  match partialName code with
  | some (name, _) => (.block ("include '".toList ++ name ++ ".html'".toList), blocks)
  | none => (.output code, openOther code blocks)

def statementMarkup (code : List Char) (blocks : List Block) : Markup × List Block :=
  if code = "end".toList then (.block (Block.closer blocks.head?).toList, blocks.tail)
  else if code = "else".toList then (.block "else".toList, blocks)
  else if let some condition := afterLiteral? "elsif " code then
    (.block ("elif ".toList ++ trim condition), blocks)
  else if let some condition := afterLiteral? "if " code then
    (.block ("if ".toList ++ trim condition), .conditional :: blocks)
  else if let some condition := afterLiteral? "unless " code then
    (.block ("if not ".toList ++ trim condition), .conditional :: blocks)
  else if let some (receiver, item) := readEach? code then
    (.block ("for ".toList ++ item ++ " in ".toList ++ trim receiver), .loop :: blocks)
  else (.block code, openOther code blocks)

def Tag.markup (t : Tag) (blocks : List Block) : Markup × List Block :=
  let code := trim t.body
  match t.sigil with
  | .comment => (commentMarkup code, blocks)
  | .output => outputMarkup (withoutSigils code) blocks
  | .statement => statementMarkup (withoutSigils code) blocks
  | .trimmed => statementMarkup (withoutSigils code) blocks

def renderPieces (blocks : List Block) : List Piece → List Char
  | [] => []
  | .plain c :: ps => c :: renderPieces blocks ps
  | .tag t :: ps =>
    let (markup, after) := t.markup blocks
    markup.render ++ renderPieces after ps

/-- The Django template for a template text; all outside the tags is kept. -/
def toDjango (text : String) : String := .ofList (renderPieces [] (pieces text.toList))

end Transplant.Rails.Erb
