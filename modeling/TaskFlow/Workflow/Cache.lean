import TaskFlow.Workflow.Spec

/-!
# The workflow cache

One workflow of each kind is kept for as long as it is young and asked for under the root that it
was loaded for. Loading never fails: where no document can be used, the built-in workflow stands
in. The clock is a stream of readings, of which each check of an age and each load takes one. So are
the orders in which the keys of a document are gone through, of which each load takes one.
-/

namespace TaskFlow.Workflow

/-- Where documents come from: the document for a root, `none` where there is none. -/
abbrev Source := String → Except ConfigError (Option Document)

/-- A workflow that was loaded. -/
structure CacheEntry where
  spec : Spec
  root : String
  fallback : Bool
  loadedAt : Nat
  deriving DecidableEq, Repr

/-- How often the cache was asked, and what came of it. -/
structure CacheTally where
  hits : Nat := 0
  misses : Nat := 0
  reloads : Nat := 0
  fallbacks : Nat := 0
  loads : Nat := 0
  deriving DecidableEq, Repr

/-- The cache: its settings, the readings of its clock, the orders that its loads draw, and what it
holds. -/
structure Cache where
  enabled : Bool
  ttl : Nat
  clock : Nat → Nat := fun _ => 0
  orders : Nat → KeyOrder := fun _ => .given
  readings : Nat := 0
  entries : Kind → Option CacheEntry := fun _ => none
  tally : CacheTally := {}

/-- The workflow of a kind under a root, and whether it is one that had to stand in. -/
def Source.resolve (source : Source) (kind : Kind) (root : String) (order : KeyOrder) :
    Spec × Bool :=
  match source root with
  | .ok (some document) =>
    match document.spec kind order with
    | .ok spec => (spec, false)
    | .error _ => (.builtIn kind, true)
  | .ok none | .error _ => (.builtIn kind, true)

namespace Cache

/-- The time on the clock, which moves on. -/
def now (c : Cache) : Nat × Cache :=
  (c.clock c.readings, { c with readings := c.readings + 1 })

/-- Whether an entry still serves at a time: it is younger than the limit and of the same root. -/
def serves (c : Cache) (root : String) (time : Nat) (e : CacheEntry) : Bool :=
  time - e.loadedAt < c.ttl && e.root == root

/-- What the cache holds for a kind, if it may be looked at. -/
def held (c : Cache) (kind : Kind) : Option CacheEntry :=
  if c.enabled then c.entries kind else none

def setEntry (c : Cache) (kind : Kind) (e : Option CacheEntry) : Cache :=
  { c with entries := fun k => if k = kind then e else c.entries k }

/-- Loads the workflow of a kind and keeps it. -/
def load (c : Cache) (source : Source) (kind : Kind) (root : String) : Spec × Cache :=
  let (spec, fallback) := source.resolve kind root (c.orders c.tally.loads)
  let (loadedAt, c) := c.now
  let c := { c with tally := { c.tally with
    loads := c.tally.loads + 1
    fallbacks := c.tally.fallbacks + (if fallback then 1 else 0) } }
  (spec, if c.enabled then c.setEntry kind (some { spec, root, fallback, loadedAt }) else c)

/-- The workflow of a kind under a root: the one that is held if it still serves, else a loaded
one. -/
def get (c : Cache) (source : Source) (kind : Kind) (root : String) : Spec × Cache :=
  match c.held kind with
  | none => { c with tally := { c.tally with misses := c.tally.misses + 1 } }.load source kind root
  | some e =>
    let (time, c) := c.now
    if c.serves root time e then
      (e.spec, { c with tally := { c.tally with hits := c.tally.hits + 1 } })
    else
      { c with tally := { c.tally with reloads := c.tally.reloads + 1 } }.load source kind root

def invalidate (c : Cache) (kind : Kind) : Cache :=
  c.setEntry kind none

def clear (c : Cache) : Cache :=
  { c with entries := fun _ => none }

end Cache

end TaskFlow.Workflow
