/-!
# Placed characters

The characters of a YAML text with their places. A line break, whichever way it is written, is one
character: `'\n'`, or one of the two Unicode separators of lines and paragraphs.
-/

namespace TaskFlow.Yaml

/-- A character and where it stands: its line, its column, and how many characters are before it. -/
structure Glyph where
  char : Char
  line : Nat
  column : Nat
  index : Nat
  deriving DecidableEq, Repr

namespace Glyph

/-- Whether a character may stand in a YAML text: none of the control characters may but the tab
and the line breaks. -/
def isPermitted (c : Char) : Bool :=
  let n := c.toNat
  n == 9 || n == 10 || n == 13 || (0x20 ≤ n && n ≤ 0x7E) || n == 0x85 ||
    (0xA0 ≤ n && n ≤ 0xFFFD) || 0x10000 ≤ n

/-- Whether a character separates words within a line. -/
def isSpace (c : Char) : Bool :=
  c == ' ' || c == '\t'

/-- Whether a character ends a line, in a text whose breaks are single characters. -/
def isBreak (c : Char) : Bool :=
  c == '\n' || c == '\u2028' || c == '\u2029'

/-- Whether a character may stand in the name of an anchor, a tag handle or a directive. -/
def isName (c : Char) : Bool :=
  c.isAlphanum || c == '_' || c == '-'

/-- The placed characters of a text, last first, with the place that follows them. -/
structure Placing where
  placed : List Glyph := []
  line : Nat := 0
  column : Nat := 0
  index : Nat := 0
  afterReturn : Bool := false

/-- The placing with one more character. A line feed after a carriage return belongs to the same
break. -/
def Placing.add (p : Placing) (c : Char) : Placing :=
  if c = '\n' && p.afterReturn then { p with index := p.index + 1, afterReturn := false }
  else
    let char := if c = '\r' || c = '\u0085' then '\n' else c
    let placed := { char, line := p.line, column := p.column, index := p.index } :: p.placed
    if isBreak char then
      { placed, line := p.line + 1, column := 0, index := p.index + 1, afterReturn := c = '\r' }
    else { p with placed, column := p.column + 1, index := p.index + 1, afterReturn := false }

/-- The placed characters of a text, `none` if one of them may not stand there. A byte order mark
at the front is left out, but has its place. -/
def ofText (text : String) : Option (List Glyph) :=
  let cs := text.toList
  if cs.all isPermitted then
    match (cs.foldl Placing.add {}).placed.reverse with
    | g :: rest => some (if g.char = '\uFEFF' then rest else g :: rest)
    | [] => some []
  else none

def chars (gs : List Glyph) : List Char :=
  gs.map Glyph.char

/-- Whether a word ends here: at a space, at a break, or at the end of the text. -/
def atWordEnd : List Glyph → Bool
  | [] => true
  | g :: _ => isSpace g.char || isBreak g.char

def atLineEnd : List Glyph → Bool
  | [] => true
  | g :: _ => isBreak g.char

/-- Whether the next character is one of the given ones. -/
def startsWith (cs : List Char) : List Glyph → Bool
  | [] => false
  | g :: _ => cs.contains g.char

/-- Whether a line begins here with three times a character, standing alone. -/
def atTriple (c : Char) : List Glyph → Bool
  | a :: b :: d :: rest => a.column == 0 && [a, b, d].all (·.char == c) && atWordEnd rest
  | _ => false

/-- Whether a mark stands here that begins or ends a document. -/
def atDocumentMark (gs : List Glyph) : Bool :=
  atTriple '-' gs || atTriple '.' gs

/-- The text from the next character on which is not a space. -/
def skipSpaces (gs : List Glyph) : List Glyph :=
  gs.dropWhile (isSpace ·.char)

/-- The text from the end of the line on if a comment begins here. -/
def skipComment (gs : List Glyph) : List Glyph :=
  if startsWith ['#'] gs then gs.dropWhile (!isBreak ·.char) else gs

/-- The text from the next line on, if there is nothing more on this one than a comment. -/
def skipToNextLine (gs : List Glyph) : Option (List Glyph) :=
  match skipComment (skipSpaces gs) with
  | [] => some []
  | g :: rest => if isBreak g.char then some rest else none

end Glyph

end TaskFlow.Yaml
