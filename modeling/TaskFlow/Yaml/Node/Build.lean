import TaskFlow.Yaml.Node
import TaskFlow.Yaml.Token.Scan

/-!
# The nodes of a text

Puts tokens together to nodes. The collections that have begun and not ended are a stack of frames,
each with what it holds so far; the document is at its bottom. Where a node is missing between two
marks it is the empty one.
-/

namespace TaskFlow.Yaml

/-- Where a node stands, which decides how it may be written: only between brackets may it not be a
block collection, and only after the mark of a key or a value may it be a list whose items begin at
the margin of the map around it. -/
inductive Position where
  | block
  | entry
  | flow
  deriving DecidableEq, Repr

/-- How far a document was read. -/
inductive Progress where
  | start
  | directives
  | content
  | done (root : Node)

/-- How far the entries of a map were read: one may begin; one is complete; the mark of a key was
read, the key, the mark of its value. -/
inductive Stage where
  | fresh
  | full
  | key
  | colon (key : Node)
  | value (key : Node)

/-- What has begun and not ended. What it holds stands in reverse. An item is pending after its
mark. A flat list is a block list whose items begin at the margin of the map around it; a pair is a
map of one entry among the items of a list in brackets. -/
inductive Frame where
  | document (progress : Progress)
  | properties (p : Properties) (position : Position)
  | blockList (p : Properties) (items : List Node) (pending : Bool)
  | flatList (p : Properties) (items : List Node) (pending : Bool)
  | blockMap (p : Properties) (entries : List (Node × Node)) (stage : Stage)
  | flowList (p : Properties) (items : List Node) (full : Bool)
  | flowMap (p : Properties) (entries : List (Node × Node)) (stage : Stage)
  | pair (stage : Stage)
  | wholePair (key value : Node)

namespace Frame

/-- The frame after a node that belongs to it. -/
def take (n : Node) : Frame → Frame
  | .document _ => .document (.done n)
  | .blockList p items _ => .blockList p (n :: items) false
  | .flatList p items _ => .flatList p (n :: items) false
  | .blockMap p entries .key => .blockMap p entries (.colon n)
  | .blockMap p entries (.value k) => .blockMap p ((k, n) :: entries) .fresh
  | .flowList p items _ => .flowList p (n :: items) true
  | .flowMap p entries .fresh => .flowMap p ((n, .empty) :: entries) .full
  | .flowMap p entries .key => .flowMap p entries (.colon n)
  | .flowMap p entries (.value k) => .flowMap p ((k, n) :: entries) .full
  | .pair .key => .pair (.colon n)
  | .pair (.value k) => .wholePair k n
  | f => f

/-- The entries of a map with the last of them, which may lack its value. -/
def finish (entries : List (Node × Node)) : Stage → List (Node × Node)
  | .fresh | .full => entries
  | .key => (.empty, .empty) :: entries
  | .colon k | .value k => (k, .empty) :: entries

/-- Whether a node with properties may begin with a token. -/
def begins (position : Position) : Token → Bool
  | .scalar _ _ | .flowListStart | .flowMapStart => true
  | .blockListStart | .blockMapStart => position != .flow
  | .item => position == .entry
  | _ => false

/-- The node of a frame without a closing mark that a token ends, although it is no part of it. -/
def endedBy (t : Token) : Frame → Option Node
  | .properties p position =>
    let goesOn := match t with
      | .anchor _ => p.anchor.isNone
      | .tag _ _ => p.tag.isNone
      | t => begins position t
    if goesOn then none else some (.empty p)
  | .flatList p items pending =>
    if pending then
      if t matches .key | .value | .blockEnd then some (.list p (.empty :: items).reverse) else none
    else if t matches .item then none
    else some (.list p items.reverse)
  | .pair (.colon k) => if t matches .value then none else some (.map {} [(k, .empty)])
  | .pair (.value k) =>
    if t matches .comma | .flowListEnd then some (.map {} [(k, .empty)]) else none
  | .wholePair k v => some (.map {} [(k, v)])
  | _ => none

/-- What a token does: it is part of the frame, it begins another one within it, it ends the frame,
or it begins a node. -/
inductive Move where
  | stay (f : Frame)
  | enter (f inner : Frame)
  | close (n : Node)
  | begin (position : Position)

/-- What a token does to a document. The text ends after one document. -/
def moveDocument (t : Token) : Progress → Option Move
  | .start =>
    match t with
    | .documentStart => some (.stay (.document .content))
    | _ => some (.begin .block)
  | .directives => if t matches .documentStart then some (.stay (.document .content)) else none
  | .content =>
    match t with
    | .version _ _ | .shorthand _ _ | .documentStart => none
    | .documentEnd | .textEnd => some (.stay (.document (.done .empty)))
    | _ => some (.begin .block)
  | .done root =>
    if t matches .documentEnd | .textEnd then some (.stay (.document (.done root))) else none

def moveBlockMap (p : Properties) (entries : List (Node × Node)) (t : Token) (stage : Stage) :
    Option Move :=
  match t, stage with
  | .blockEnd, stage => some (.close (.map p (finish entries stage).reverse))
  | .key, stage => some (.stay (.blockMap p (finish entries stage) .key))
  | .value, .key => some (.stay (.blockMap p entries (.value .empty)))
  | .value, .colon k => some (.stay (.blockMap p entries (.value k)))
  | .value, _ | _, .fresh | _, .full | _, .colon _ => none
  | _, .key | _, .value _ => some (.begin .entry)

/-- What a token does to a map in brackets. -/
def moveFlowMap (p : Properties) (entries : List (Node × Node)) (t : Token) (stage : Stage) :
    Option Move :=
  match t, stage with
  | .flowMapEnd, stage => some (.close (.map p (finish entries stage).reverse))
  | .comma, .fresh => some (.begin .flow)
  | .comma, stage => some (.stay (.flowMap p (finish entries stage) .fresh))
  | .key, .fresh => some (.stay (.flowMap p entries .key))
  | .value, .key => some (.stay (.flowMap p entries (.value .empty)))
  | .value, .colon k => some (.stay (.flowMap p entries (.value k)))
  | _, .full | _, .colon _ => none
  | _, .fresh | _, .key | _, .value _ => some (.begin .flow)

/-- What a token does to a frame that it does not end. In a pair whose key is missing the mark that
follows it is passed over. -/
def move (t : Token) : Frame → Option Move
  | .document progress => moveDocument t progress
  | .properties _ position => some (.begin position)
  | .blockList p items pending =>
    let before := if pending then .empty :: items else items
    match t with
    | .item => some (.stay (.blockList p before true))
    | .blockEnd => some (.close (.list p before.reverse))
    | _ => if pending then some (.begin .block) else none
  | .flatList p items pending =>
    match t with
    | .item => some (.stay (.flatList p (if pending then .empty :: items else items) true))
    | _ => some (.begin .block)
  | .blockMap p entries stage => moveBlockMap p entries t stage
  | .flowList p items full =>
    match t, full with
    | .flowListEnd, _ => some (.close (.list p items.reverse))
    | .comma, true => some (.stay (.flowList p items false))
    | _, true => none
    | .key, false => some (.enter (.flowList p items false) (.pair .key))
    | _, false => some (.begin .flow)
  | .flowMap p entries stage => moveFlowMap p entries t stage
  | .pair .key =>
    if t matches .value | .comma | .flowListEnd then some (.stay (.pair (.colon .empty)))
    else some (.begin .flow)
  | .pair (.colon k) => some (.stay (.pair (.value k)))
  | .pair _ => some (.begin .flow)
  | .wholePair _ _ => none

end Frame

/-- Nodes that are being built: the frames, innermost first; the label that each name has now; the
shorthands of tags; whether a version was given; and the finished nodes with an anchor. -/
structure Build where
  frames : List Frame := [.document .start]
  labels : List (String × Nat) := []
  anchors : Nat := 0
  shorthands : List (String × String) := []
  versioned : Bool := false
  anchored : List (Anchor × Node) := []

namespace Build

/-- Gives a finished node to the frame that it belongs to. -/
def give (b : Build) (n : Node) : Build :=
  let anchored := match n.anchor? with
    | some a => (a, n) :: b.anchored
    | none => b.anchored
  { b with anchored, frames := match b.frames with
    | f :: rest => f.take n :: rest
    | [] => [] }

/-- Ends the innermost frame if a token ends it although it is no part of it. -/
def settle (b : Build) (t : Token) : Build :=
  match b.frames with
  | f :: rest =>
    match f.endedBy t with
    | some n => { b with frames := rest }.give n
    | none => b
  | [] => b

/-- The tag that a handle and a suffix stand for. -/
def tag? (b : Build) (handle suffix : String) : Option String :=
  if handle.isEmpty then some suffix
  else
    let known := b.shorthands ++ [("!", "!"), ("!!", "tag:yaml.org,2002:")]
    (known.lookup handle).map (· ++ suffix)

/-- Gives a name to the next node. Its label is the number of names that were given before it, each
counted once. -/
def name (b : Build) (name : String) : Anchor × Build :=
  let label := b.labels.length
  let labels := (name, label) :: b.labels.filter fun l => l.1 != name
  ({ label, order := b.anchors }, { b with labels, anchors := b.anchors + 1 })

/-- Begins a node with properties at a position, or gives it if it is of one token. -/
def beginNode (b : Build) (p : Properties) (position : Position) (t : Token) : Option Build :=
  let push (f : Frame) : Option Build := some { b with frames := f :: b.frames }
  match t with
  | .anchor name =>
    let (anchor, b) := b.name name
    some { b with frames := .properties { p with anchor := some anchor } position :: b.frames }
  | .tag handle suffix => do
    let tag ← b.tag? handle suffix
    push (.properties { p with tag := some tag } position)
  | .alias name => (b.labels.lookup name).map fun label => b.give (.alias label)
  | .scalar style text =>
    let tag := if p.tag = some "!" then none else p.tag
    some (b.give (.scalar { p with tag } style text))
  | .flowListStart => push (.flowList p [] false)
  | .flowMapStart => push (.flowMap p [] .fresh)
  | .blockListStart => if position = .flow then none else push (.blockList p [] false)
  | .blockMapStart => if position = .flow then none else push (.blockMap p [] .fresh)
  | .item => if position = .entry then push (.flatList p [] true) else none
  | _ => none

def direct (b : Build) (t : Token) : Option Build :=
  let b := { b with frames := [.document .directives] }
  match t with
  | .version major minor =>
    if major = 1 && (minor = 1 || minor = 2) && !b.versioned then some { b with versioned := true }
    else none
  | .shorthand handle tag =>
    if (b.shorthands.lookup handle).isSome then none
    else some { b with shorthands := b.shorthands ++ [(handle, tag)] }
  | _ => none

/-- Does what a token that is no directive does to the innermost frame. -/
def shift (b : Build) (t : Token) : Option Build :=
  match b.frames with
  | f :: rest => do
    match ← f.move t with
    | .stay f => some { b with frames := f :: rest }
    | .enter f inner => some { b with frames := inner :: f :: rest }
    | .close n => some ({ b with frames := rest }.give n)
    | .begin position =>
      match f with
      | .properties p _ => beginNode { b with frames := rest } p position t
      | _ => b.beginNode {} position t
  | [] => none

/-- Does what a token does to the innermost frame. -/
def act (b : Build) (t : Token) : Option Build :=
  match b.frames with
  | [.document .start] | [.document .directives] =>
    if t matches .version _ _ | .shorthand _ _ then b.direct t else b.shift t
  | _ => b.shift t

/-- Reads a token. Before that it may end an empty node and the collection around it. -/
def step (b : Build) (t : Token) : Option Build :=
  ((b.settle t).settle t).act t

end Build

/-- The document that tokens stand for, `none` if they do not form one. -/
def Tree.ofTokens (ts : List Token) : Option Tree :=
  if ts = [.textEnd] then some { root := none, anchored := [] }
  else do
    let b ← ts.foldlM Build.step {}
    let [.document (.done root)] := b.frames | none
    return { root := some root, anchored := b.anchored }

/-- The document of a text, `none` if it is not well formed. -/
def Tree.ofText (text : String) : Option Tree := do
  Tree.ofTokens (← Token.ofText text)

end TaskFlow.Yaml
