import TaskFlow.Text
import TaskFlow.Yaml.Glyph

/-!
# Scalars

Reads the text of a scalar in each of its styles: plain, in quotes, and in a block of lines of its
own. Between the words of a plain or quoted scalar a single line break is read as a space, and of
several the first is dropped.
-/

namespace TaskFlow.Yaml

open Glyph

inductive Style where
  | plain
  | quoted
  | literal
  | folded
  deriving DecidableEq, Repr

/-- What stands between two words: spaces, or line breaks, the first of them apart unless it is
escaped; the latest character is the first of a list. -/
inductive Gap where
  | spaces (spaces : List Char)
  | lines (first : Option Char) (more : List Char)
  deriving DecidableEq, Repr

namespace Gap

/-- The gap between two characters of a word. -/
def none : Gap := .spaces []

/-- The gap with one more space: spaces around line breaks are not kept. -/
def addSpace (c : Char) : Gap → Gap
  | .spaces cs => .spaces (c :: cs)
  | gap => gap

def addBreak (c : Char) : Gap → Gap
  | .spaces _ => .lines (some c) []
  | .lines first more => .lines first (c :: more)

def crossesLine : Gap → Bool
  | .spaces _ => false
  | .lines _ _ => true

/-- The text that a gap stands for, last character first. -/
def text : Gap → List Char
  | .spaces cs => cs
  | .lines (some '\n') [] => [' ']
  | .lines (some '\n') more => more
  | .lines (some c) more => more ++ [c]
  | .lines .none more => more

end Gap

namespace Scalar

/-- Whether a plain scalar ends with the word before a character: at a colon that stands alone,
and among brackets at each of these and at a comma. -/
def endsPlain (inFlow : Bool) (c : Char) (rest : List Glyph) : Bool :=
  (c == ':' && atWordEnd rest) || (inFlow && [',', '[', ']', '{', '}'].contains c)

/-- Reads a plain scalar, of which `done` was read and then a gap. Its further lines begin at the
margin or beyond it. Among brackets a colon may not touch another indicator. The answer holds the
text, whether it is followed by a line break, and what follows. -/
def plain (inFlow : Bool) (margin : Nat) :
    List Glyph → (done : List Char) → Gap → Option (List Char × Bool × List Glyph)
  | [], done, gap => some (done.reverse, gap.crossesLine, [])
  | g :: rest, done, gap =>
    if isSpace g.char then
      if gap.crossesLine && g.column < margin && g.char == '\t' then none
      else plain inFlow margin rest done (gap.addSpace g.char)
    else if isBreak g.char then plain inFlow margin rest done (gap.addBreak g.char)
    else
      let leaves := (!inFlow && g.column < margin) || g.char == '#' || atDocumentMark (g :: rest)
      if (gap != .none && leaves) || endsPlain inFlow g.char rest then
        some (done.reverse, gap.crossesLine, g :: rest)
      else if inFlow && g.char == ':' && startsWith [',', '?', '[', ']', '{', '}'] rest then none
      else plain inFlow margin rest (g.char :: (gap.text ++ done)) .none

/-- Reads a scalar in single quotes up to its closing quote; a quote in it is written twice. -/
def single : List Glyph → (done : List Char) → Gap → Option (List Char × List Glyph)
  | [], _, _ => none
  | g :: rest, done, gap =>
    if isSpace g.char then single rest done (gap.addSpace g.char)
    else if isBreak g.char then single rest done (gap.addBreak g.char)
    else if atDocumentMark (g :: rest) then none
    else
      let done := gap.text ++ done
      if g.char = '\'' then
        match rest with
        | g :: more =>
          if g.char = '\'' then single more ('\'' :: done) .none else some (done.reverse, g :: more)
        | [] => some (done.reverse, [])
      else single rest (g.char :: done) .none

/-- The character that an escape by one letter stands for. -/
def escape? : Char → Option Char
  | '0' => some '\x00'
  | 'a' => some '\x07'
  | 'b' => some '\x08'
  | 't' | '\t' => some '\t'
  | 'n' => some '\n'
  | 'v' => some '\x0b'
  | 'f' => some '\x0c'
  | 'r' => some '\r'
  | 'e' => some '\x1b'
  | ' ' => some ' '
  | '"' => some '"'
  | '/' => some '/'
  | '\\' => some '\\'
  | 'N' => some '\u0085'
  | '_' => some '\u00a0'
  | 'L' => some '\u2028'
  | 'P' => some '\u2029'
  | _ => none

/-- How many hexadecimal digits follow the letter of an escape by number. -/
def escapeWidth? : Char → Option Nat
  | 'x' => some 2
  | 'u' => some 4
  | 'U' => some 8
  | _ => none

def ofCodePoint? (n : Nat) : Option Char :=
  if n.isValidChar then some (.ofNat n) else none

/-- Reads what follows a backslash: the character that is meant, and how much was read. -/
def escape (gs : List Glyph) : Option (Char × Nat) := do
  let c :: rest := gs | none
  match escapeWidth? c.char with
  | none => return (← escape? c.char, 1)
  | some width =>
    let digits := rest.take width
    if digits.length < width then none
    return (← ofCodePoint? (← Text.readHex (chars digits)), width + 1)

/-- Reads a scalar in double quotes up to its closing quote. The next `skip` characters were read
already. An escaped line break, with the spaces that follow it, stands for nothing. -/
def double : List Glyph → (skip : Nat) → (done : List Char) → Gap →
    Option (List Char × List Glyph)
  | [], _, _, _ => none
  | _ :: rest, skip + 1, done, gap => double rest skip done gap
  | g :: rest, 0, done, gap =>
    if isSpace g.char then double rest 0 done (gap.addSpace g.char)
    else if isBreak g.char then double rest 0 done (gap.addBreak g.char)
    else if atDocumentMark (g :: rest) then none
    else
      let done := gap.text ++ done
      if g.char = '"' then some (done.reverse, rest)
      else if g.char = '\\' then
        if !rest.isEmpty && atLineEnd rest then double rest 1 done (.lines none [])
        else
          match escape rest with
          | some (c, read) => double rest read (c :: done) .none
          | none => none
      else double rest 0 (g.char :: done) .none

/-- What becomes of the line breaks at the end of a block. -/
inductive Chomping where
  | strip
  | clip
  | keep
  deriving DecidableEq, Repr

/-- What the first line of a block says: its chomping, and how far it is indented. -/
structure Header where
  chomping : Chomping := .clip
  indent : Option Nat := none
  deriving DecidableEq, Repr

/-- Reads the indicators of a block, each at most once and in either order. -/
def header : List Glyph → (h : Header := {}) → Option (Header × List Glyph)
  | g :: rest, h =>
    if (g.char = '+' || g.char = '-') && h.chomping == .clip then
      header rest { h with chomping := if g.char = '+' then .keep else .strip }
    else if g.char.isDigit && h.indent.isNone then
      if g.char = '0' then none
      else header rest { h with indent := some (g.char.toNat - '0'.toNat) }
    else some (h, g :: rest)
  | [], h => some (h, [])

/-- The column of the first line of a block that is not empty, or the length of a longer empty line
before it; no tab may stand before that column. -/
def widest : List Glyph → (most : Nat := 0) → Option Nat
  | [], most => some most
  | g :: rest, most =>
    if g.char = ' ' then widest rest most
    else if g.char = '\t' then none
    else if isBreak g.char then widest rest (max most g.column)
    else some (max most g.column)

/-- A block as far as it was read: its text, the break that ends its last line, the empty lines
after that, whether the last line begins with a space, and whether it is still being read. Lists
begin with the latest character. -/
structure Block where
  done : List Char := []
  lineEnd : List Char := []
  empty : List Char := []
  spaced : Bool := false
  inLine : Bool := false

/-- The block with the first character of another line. In a folded block the break between two
lines that begin with no space is read as a space, or is dropped if empty lines follow it. -/
def Block.openLine (b : Block) (fold : Bool) (c : Char) : Block :=
  let folds := fold && b.lineEnd == ['\n'] && !b.spaced && !isSpace c
  let lineEnd := if folds then (if b.empty.isEmpty then [' '] else []) else b.lineEnd
  { done := c :: (b.empty ++ lineEnd ++ b.done), spaced := isSpace c, inLine := true }

def Block.text (b : Block) (chomping : Chomping) : List Char :=
  let kept := match chomping with
    | .strip => b.done
    | .clip => b.lineEnd ++ b.done
    | .keep => b.empty ++ b.lineEnd ++ b.done
  kept.reverse

/-- Reads the lines of a block whose lines begin at column `indent`. -/
def blockLines (fold : Bool) (indent : Nat) : List Glyph → Block → Option (Block × List Glyph)
  | [], b => some (b, [])
  | g :: rest, b =>
    if b.inLine then
      blockLines fold indent rest <|
        if isBreak g.char then { b with lineEnd := [g.char], inLine := false }
        else { b with done := g.char :: b.done }
    else if g.column < indent && g.char = ' ' then blockLines fold indent rest b
    else if g.column < indent && g.char = '\t' then none
    else if isBreak g.char then blockLines fold indent rest { b with empty := g.char :: b.empty }
    else if g.column = indent then blockLines fold indent rest (b.openLine fold g.char)
    else some (b, g :: rest)

/-- Reads a block after its indicator. What is not said of its indentation is found from its lines;
it is indented beyond the margin less one in any case. -/
def block (fold : Bool) (margin : Nat) (gs : List Glyph) : Option (List Char × List Glyph) := do
  let (h, rest) ← header gs
  let rest ← skipToNextLine rest
  let indent ← match h.indent with
    | some n => some (margin - 1 + n)
    | none => (widest rest).map fun n => max n (max margin 1)
  let (b, rest) ← blockLines fold indent rest {}
  return (b.text h.chomping, rest)

end Scalar

end TaskFlow.Yaml
