import TaskFlow.Yaml.Token

/-!
# The tokens of a text

Splits a YAML text into tokens. Whether a word begins a key shows only at the colon after it, so
every place where a key may begin is kept open until then; such a key is on one line and not longer
than 1024 characters.
-/

namespace TaskFlow.Yaml

open Glyph

/-- A place where a key may begin: the slot that is kept open for it, where it stands, and whether
there has to be a key, because the line begins at the margin of a block. -/
structure KeyPlace where
  slot : Nat
  line : Nat
  column : Nat
  index : Nat
  required : Bool
  deriving DecidableEq, Repr

/-- Whether the colon that belongs to a key may still stand at a character. -/
def KeyPlace.isFresh (p : KeyPlace) (g : Glyph) : Bool :=
  p.line == g.line && g.index ≤ p.index + 1024

/-- A text that is being split. A margin is the column at which the entries of an open block
collection begin, plus one; the innermost is the first. Of the places where a key may begin there
is one outside all brackets and one for every open bracket. Tokens are kept in slots, which hold
none if they are kept open. -/
structure Scan where
  rest : List Glyph
  slots : Array (List Token) := #[]
  margins : List Nat := []
  keyAllowed : Bool := true
  keyPlace : Option KeyPlace := none
  outer : List (Option KeyPlace) := []

namespace Scan

def inFlow (s : Scan) : Bool :=
  !s.outer.isEmpty

/-- The margin of the innermost open block collection, 0 if there is none. -/
def margin (s : Scan) : Nat :=
  s.margins.headD 0

def push (s : Scan) (t : Token) : Scan :=
  { s with slots := s.slots.push [t] }

/-- The scan after spaces, comments and line breaks. Outside brackets a tab may not stand where a
key may begin, and a key may begin after a line break. -/
def skipBlank (s : Scan) : Scan :=
  let (rest, keyAllowed) := go s.rest false s.keyAllowed
  { s with rest, keyAllowed }
where
  /-- Skips to the next token, in a comment or not. -/
  go : List Glyph → Bool → Bool → List Glyph × Bool
    | [], _, allowed => ([], allowed)
    | g :: rest, inComment, allowed =>
      if isBreak g.char then go rest false (allowed || !s.inFlow)
      else if inComment || g.char = ' ' || (g.char = '\t' && (s.inFlow || !allowed)) then
        go rest inComment allowed
      else if g.char = '#' then go rest true allowed
      else (g :: rest, allowed)

/-- Closes the place where a key may begin; there must be no key missing from it. -/
def closeKeyPlace (s : Scan) : Option Scan :=
  if s.keyPlace.any KeyPlace.required then none else some { s with keyPlace := none }

/-- Closes the place where a key may begin if its colon would come too late. The places outside a
bracket are looked at when it is closed. -/
def closeStale (s : Scan) (g : Glyph) : Option Scan :=
  match s.keyPlace with
  | some p => if p.isFresh g then some s else s.closeKeyPlace
  | none => some s

/-- Keeps a slot open if a key may begin at a character. -/
def openKeyPlace (s : Scan) (g : Glyph) : Option Scan := do
  if !s.keyAllowed then return s
  let s ← s.closeKeyPlace
  let place : KeyPlace := {
    slot := s.slots.size, line := g.line, column := g.column, index := g.index,
    required := !s.inFlow && s.margin == g.column + 1 }
  return { s with slots := s.slots.push [], keyPlace := some place }

/-- Closes the block collections whose entries begin beyond a column. -/
def closeBlocks (s : Scan) (column : Nat) : Scan :=
  if s.inFlow then s
  else
    let (closed, margins) := s.margins.span fun margin => column + 1 < margin
    { s with margins, slots := closed.foldl (fun slots _ => slots.push [.blockEnd]) s.slots }

def closeAllBlocks (s : Scan) : Scan :=
  if s.inFlow then s
  else { s with
    margins := []
    slots := s.margins.foldl (fun slots _ => slots.push [.blockEnd]) s.slots }

/-- The tokens that stand before an entry at a column: the start of a block collection if one opens
there. -/
def blockStart (s : Scan) (column : Nat) (start : Token) : List Token :=
  if !s.inFlow && s.margin ≤ column then [start] else []

/-- Opens a block collection at a column if its entries begin beyond the margin. -/
def openBlock (s : Scan) (column : Nat) : Scan :=
  if !s.inFlow && s.margin ≤ column then { s with margins := (column + 1) :: s.margins } else s

def openBracket (s : Scan) (g : Glyph) (rest : List Glyph) (t : Token) : Option Scan := do
  let s ← s.openKeyPlace g
  return { s with
    slots := s.slots.push [t], rest, keyAllowed := true
    keyPlace := none, outer := s.keyPlace :: s.outer }

def closeBracket (s : Scan) (rest : List Glyph) (t : Token) : Option Scan := do
  let s ← s.closeKeyPlace
  return { s with
    slots := s.slots.push [t], rest, keyAllowed := false
    keyPlace := s.outer.head?.join, outer := s.outer.tail }

/-- The scan after a mark that has an entry begin: of a list, or a key that is marked as one. -/
def openEntry (s : Scan) (g : Glyph) (rest : List Glyph) (start entry : Token)
    (keyAllowed : Bool) : Option Scan := do
  if !s.inFlow && !s.keyAllowed then none
  let before := s.blockStart g.column start
  let s ← (s.openBlock g.column).closeKeyPlace
  return { s with slots := s.slots.push (before ++ [entry]), rest, keyAllowed }

/-- The scan after a colon. What stands at the open place, if there is one, is its key. -/
def openValue (s : Scan) (g : Glyph) (rest : List Glyph) : Option Scan :=
  match s.keyPlace with
  | some place =>
    let before := s.blockStart place.column .blockMapStart
    let s := { s with slots := s.slots.setIfInBounds place.slot (before ++ [Token.key]) }
    some { (s.openBlock place.column).push .value with rest, keyAllowed := false, keyPlace := none }
  | none =>
    if !s.inFlow && !s.keyAllowed then none
    else
      let before := s.blockStart g.column .blockMapStart
      let s := s.openBlock g.column
      some { s with slots := s.slots.push (before ++ [Token.value]), rest, keyAllowed := !s.inFlow }

/-- The scan after a mark that begins or ends a document. -/
def openDocument (s : Scan) (t : Token) : Option Scan := do
  let s ← s.closeAllBlocks.closeKeyPlace
  return { s.push t with rest := s.rest.drop 3, keyAllowed := false }

def directive (s : Scan) (rest : List Glyph) : Option Scan := do
  let s ← s.closeAllBlocks.closeKeyPlace
  let (t, rest) ← Token.readDirective rest
  return { s.push t with rest, keyAllowed := false }

/-- The scan after a word that may begin a key: `read` gives its token and what follows. -/
def word (s : Scan) (g : Glyph) (read : Option (Token × List Glyph)) : Option Scan := do
  let s ← s.openKeyPlace g
  let (t, rest) ← read
  return { s.push t with rest, keyAllowed := false }

def scalarToken (style : Style) (r : List Char × List Glyph) : Token × List Glyph :=
  (.scalar style (.ofList r.1), r.2)

def block (s : Scan) (fold : Bool) (rest : List Glyph) : Option Scan := do
  let s ← s.closeKeyPlace
  let r ← Scalar.block fold s.margin rest
  let (t, rest) := scalarToken (if fold then .folded else .literal) r
  return { s.push t with rest, keyAllowed := true }

/-- The scan after a plain scalar. A key may begin after it if it is followed by a line break. -/
def plain (s : Scan) (g : Glyph) (rest : List Glyph) : Option Scan := do
  let s ← s.openKeyPlace g
  let (text, atBreak, rest) ← Scalar.plain s.inFlow s.margin (g :: rest) [] .none
  return { s.push (.scalar .plain (.ofList text)) with rest, keyAllowed := atBreak }

/-- Whether a plain scalar may begin with a character. -/
def startsPlain (s : Scan) (c : Char) (rest : List Glyph) : Bool :=
  if c == '-' then !startsWith [' ', '\t'] rest
  else if c == '?' || c == ':' then !s.inFlow && !atWordEnd rest
  else !"\t,[]{}#&*!|>'\"%@`".toList.contains c

/-- The scan after the next token, which begins with `g`. -/
def step (s : Scan) (g : Glyph) (rest : List Glyph) : Option Scan :=
  let stands := s.inFlow || atWordEnd rest
  if g.column = 0 && g.char = '%' then s.directive rest
  else if atTriple '-' (g :: rest) then s.openDocument .documentStart
  else if atTriple '.' (g :: rest) then s.openDocument .documentEnd
  else
    match g.char with
    | '[' => s.openBracket g rest .flowListStart
    | '{' => s.openBracket g rest .flowMapStart
    | ']' => s.closeBracket rest .flowListEnd
    | '}' => s.closeBracket rest .flowMapEnd
    | ',' => do
      let s ← s.closeKeyPlace
      return { s.push .comma with rest, keyAllowed := true }
    | '*' => s.word g ((Token.anchorName rest).map fun (name, rest) => (.alias name, rest))
    | '&' => s.word g ((Token.anchorName rest).map fun (name, rest) => (.anchor name, rest))
    | '!' => s.word g (Token.readTag s.inFlow (g :: rest))
    | '\'' => s.word g ((Scalar.single rest [] .none).map (scalarToken .quoted))
    | '"' => s.word g ((Scalar.double rest 0 [] .none).map (scalarToken .quoted))
    | '|' => if s.inFlow then none else s.block false rest
    | '>' => if s.inFlow then none else s.block true rest
    | c =>
      if c = '-' && atWordEnd rest then s.openEntry g rest .blockListStart .item true
      else if c = '?' && stands then s.openEntry g rest .blockMapStart .key (!s.inFlow)
      else if c = ':' && stands then s.openValue g rest
      else if s.startsPlain c rest then s.plain g rest
      else none

def tokens (s : Scan) : List Token :=
  s.slots.toList.flatten

/-- Splits the rest of a text, of at most as many tokens as `fuel`. -/
def run : (fuel : Nat) → Scan → Option (List Token)
  | 0, _ => none
  | fuel + 1, s =>
    let s := s.skipBlank
    match s.rest with
    | [] => s.closeAllBlocks.closeKeyPlace.map fun s => (s.push .textEnd).tokens
    | g :: rest => do
      let s ← s.closeStale g
      let s ← (s.closeBlocks g.column).step g rest
      run fuel s

end Scan

/-- The tokens of a text, `none` if it cannot be split into tokens. -/
def Token.ofText (text : String) : Option (List Token) := do
  let glyphs ← Glyph.ofText text
  Scan.run (glyphs.length + 1) { rest := glyphs }

end TaskFlow.Yaml
