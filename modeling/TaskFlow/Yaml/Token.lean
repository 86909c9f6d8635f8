import TaskFlow.Text
import TaskFlow.Yaml.Scalar

/-!
# Tokens

The parts of a YAML text. Block collections have no closing mark in the text: their ends are found
from the indentation and are tokens all the same. Anchors, aliases, tags and directives begin with
an indicator and go on with names.
-/

namespace TaskFlow.Yaml

/-- A part of a YAML text. -/
inductive Token where
  | version (major minor : Nat)
  | shorthand (handle tag : String)
  | documentStart
  | documentEnd
  | blockListStart
  | blockMapStart
  | blockEnd
  | flowListStart
  | flowListEnd
  | flowMapStart
  | flowMapEnd
  | item
  | comma
  | key
  | value
  | alias (name : String)
  | anchor (name : String)
  | tag (handle suffix : String)
  | scalar (style : Style) (text : String)
  | textEnd
  deriving DecidableEq, Repr

namespace Token

open Glyph

/-- The characters at the front that may stand in a name, and what follows them. -/
def takeName (gs : List Glyph) : List Char × List Glyph :=
  let (name, rest) := gs.span (isName ·.char)
  (chars name, rest)

/-- The name of an anchor or an alias; a space or one of a few indicators ends it. -/
def anchorName (gs : List Glyph) : Option (String × List Glyph) :=
  let (name, rest) := takeName gs
  if name.isEmpty then none
  else if atWordEnd rest || startsWith ['?', ':', ',', ']', '}', '%', '@', '`'] rest then
    some (.ofList name, rest)
  else none

/-- Whether a character may stand in a tag as it is; brackets and commas may only in one that is
written in full. -/
def isTagChar (full : Bool) (c : Char) : Bool :=
  isName c || ";/?:@&=+$.!~*'()".toList.contains c || (full && [',', '[', ']'].contains c)

/-- How many bytes a UTF-8 sequence has, from its first one. -/
def sequenceLength? (byte : Nat) : Option Nat :=
  if byte < 0x80 then some 1
  else if 0xC0 ≤ byte && byte < 0xE0 then some 2
  else if 0xE0 ≤ byte && byte < 0xF0 then some 3
  else if 0xF0 ≤ byte && byte < 0xF8 then some 4
  else none

/-- The byte that a percent sign and two hexadecimal digits stand for. -/
def escapedByte? : List Glyph → Option (Nat × List Glyph)
  | p :: a :: b :: rest =>
    if p.char = '%' then (Text.readHex [a.char, b.char]).map (·, rest) else none
  | _ => none

/-- Reads `count` more escaped bytes of a sequence that has given `n` so far. -/
def escapedTail : (count : Nat) → (n : Nat) → List Glyph → Option Nat
  | 0, n, _ => some n
  | count + 1, n, gs => do
    let (byte, rest) ← escapedByte? gs
    if byte / 0x40 = 2 then escapedTail count (0x40 * n + byte % 0x40) rest else none

/-- Reads a character that is written as the escaped bytes of its UTF-8 sequence, and counts the
characters that are written for it. -/
def escapedChar (gs : List Glyph) : Option (Char × Nat) := do
  let (byte, rest) ← escapedByte? gs
  let length ← sequenceLength? byte
  let n ← escapedTail (length - 1) (if length = 1 then byte else byte % Nat.pow 2 (7 - length)) rest
  return (.ofNat n, 3 * length)

/-- The characters of a tag at the front, after `done`, and what follows them. The next `skip`
characters were read already. -/
def takeTag (full : Bool) :
    List Glyph → (skip : Nat) → (done : List Char) → Option (List Char × List Glyph)
  | [], _, done => some (done.reverse, [])
  | _ :: rest, skip + 1, done => takeTag full rest skip done
  | g :: rest, 0, done =>
    if g.char = '%' then
      match escapedChar (g :: rest) with
      | some (c, read) => takeTag full rest (read - 1) (c :: done)
      | none => none
    else if isTagChar full g.char then takeTag full rest 0 (g.char :: done)
    else some (done.reverse, g :: rest)

/-- The handle at the front, with its exclamation marks: one or two of them. -/
def takeHandle (gs : List Glyph) : Option (List Char × List Glyph) := do
  let g :: rest := gs | none
  if g.char ≠ '!' then none
  let (name, rest) := takeName rest
  match rest with
  | g :: more =>
    if g.char = '!' then some ('!' :: name ++ ['!'], more) else some ('!' :: name, rest)
  | [] => some ('!' :: name, [])

/-- Whether a handle is closed by an exclamation mark of its own. -/
def isClosedHandle (handle : List Char) : Bool :=
  1 < handle.length && handle.getLast? == some '!'

/-- Reads a tag: in full between angle brackets, by a handle and a suffix, or by the local suffix
alone. A lone exclamation mark is a tag in full. -/
def readTag (inFlow : Bool) (gs : List Glyph) : Option (Token × List Glyph) := do
  let (token, rest) ← match gs with
    | _ :: a :: rest =>
      if a.char = '<' then do
        let (suffix, rest) ← takeTag true rest 0 []
        let g :: rest := rest | none
        if suffix.isEmpty || g.char ≠ '>' then none
        some (tag "" (.ofList suffix), rest)
      else byHandle gs
    | _ => byHandle gs
  if atWordEnd rest || (inFlow && startsWith [','] rest) then some (token, rest) else none
where
  /-- Reads a tag that begins with a handle. -/
  byHandle (gs : List Glyph) : Option (Token × List Glyph) := do
    let (handle, rest) ← takeHandle gs
    if isClosedHandle handle then
      let (suffix, rest) ← takeTag false rest 0 []
      if suffix.isEmpty then none
      some (tag (.ofList handle) (.ofList suffix), rest)
    else
      let (suffix, rest) ← takeTag false rest 0 (handle.drop 1).reverse
      some (if suffix.isEmpty then tag "" "!" else tag "!" (.ofList suffix), rest)

/-- A number of at most nine digits. -/
def versionNumber (gs : List Glyph) : Option (Nat × List Glyph) := do
  let (digits, rest) := gs.span (·.char.isDigit)
  if digits.isEmpty || 9 < digits.length then none
  return (Text.readDigits (chars digits), rest)

def readVersion (gs : List Glyph) : Option (Token × List Glyph) := do
  let (major, rest) ← versionNumber (skipSpaces gs)
  let g :: rest := rest | none
  if g.char ≠ '.' then none
  let (minor, rest) ← versionNumber rest
  return (version major minor, rest)

/-- Reads the handle that a directive makes known and the tag that it stands for. -/
def readShorthand (gs : List Glyph) : Option (Token × List Glyph) := do
  let (handle, rest) ← takeHandle (skipSpaces gs)
  if !isClosedHandle handle && handle ≠ ['!'] then none
  if rest.isEmpty || atLineEnd rest || !atWordEnd rest then none
  let (full, rest) ← takeTag true (skipSpaces rest) 0 []
  if full.isEmpty || !atWordEnd rest then none
  return (shorthand (.ofList handle) (.ofList full), rest)

/-- Reads a directive after its percent sign, to the end of its line. -/
def readDirective (gs : List Glyph) : Option (Token × List Glyph) := do
  let (name, rest) := takeName gs
  if !atWordEnd rest then none
  let (token, rest) ←
    if name = "YAML".toList then readVersion rest
    else if name = "TAG".toList then readShorthand rest
    else none
  return (token, ← skipToNextLine rest)

end Token

end TaskFlow.Yaml
