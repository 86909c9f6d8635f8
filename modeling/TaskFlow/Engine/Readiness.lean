import TaskFlow.Engine

/-!
# Readiness

What stands in the way of a change of status beyond the transition itself: a task is completed only
with a summary of a fitting length and started only when its blockers have come far enough; features
and projects follow what belongs to them.
-/

namespace TaskFlow

namespace Engine

/-- What is wrong with the length of a summary. -/
def summaryShortfall (s : PrerequisiteSettings) (length : Nat) : Option Shortfall :=
  let requirement := .summaryLength length s.summaryMin s.summaryMax
  let range := s!"(required range {s.summaryMin}-{s.summaryMax})"
  if length < s.summaryMin then
    some {
      requirement
      reason :=
        s!"Task summary is {length} characters, below the minimum of {s.summaryMin} {range}" }
  else if s.summaryMax < length then
    some {
      requirement
      reason :=
        s!"Task summary is {length} characters, above the maximum of {s.summaryMax} {range}" }
  else none

/-- The shortfall of a task that is held back by blockers, if there are any. -/
def blockerShortfall (items : List BlockingItem) : Option Shortfall :=
  if items.isEmpty then none
  else
    let noun := if items.length = 1 then "task" else "tasks"
    some {
      requirement := .blockingDependencies
      reason := s!"Task is blocked by {items.length} incomplete {noun}"
      items }

/-- The shortfall of an entity some of whose children are not complete. -/
def childShortfall (requirement : Requirement) (noun owner : String) (count : Nat)
    (items : List BlockingItem) : Option Shortfall :=
  if items.isEmpty then none
  else
    some {
      requirement
      reason := s!"{items.length} of {count} {noun} in the {owner} are not complete"
      items }

/-- A task as an item that stands in the way. -/
def blockingTask (t : Task) (requiredRole : Option Role) : BlockingItem where
  id := t.id
  kind := .task
  title := t.title
  status := t.status.name
  requiredRole := requiredRole

/-- A feature as an item that stands in the way. -/
def blockingFeature (f : Feature) : BlockingItem where
  id := f.id
  kind := .feature
  title := f.name
  status := f.status.name

/-- The blockers that edges name, each once and with the role that the first of its edges asks
for. -/
def blockerRoles (edges : List Dependency) : List (Ident × Role) :=
  let named := edges.filterMap fun d => d.pair.map fun (blocker, _) => (blocker, d.requiredRole)
  (named.map Prod.fst).eraseDups.filterMap fun blocker =>
    (named.lookup blocker).map fun role => (blocker, role)

/-- The blockers among `tasks` whose status has not come to the role asked for. -/
def unresolved (w : Workflow.Spec) (tasks : List Task) (roles : List (Ident × Role)) :
    List BlockingItem :=
  roles.filterMap fun (blocker, required) => do
    let t ← tasks.find? (·.id == blocker)
    if (w.roleOf t.status).satisfies required then none else some (blockingTask t (some required))

/-- The blockers that still keep a task from being started. A blocker that is not stored keeps
nothing back. -/
def unresolvedBlockers (task : Ident) : Operation (List BlockingItem) := do
  let edges ← ask (·.blockersOf task)
  if edges.isEmpty then return []
  let roles := blockerRoles edges
  let w ← workflow .task
  let tasks ← ask (·.getTasks (roles.map Prod.fst))
  return unresolved w tasks roles

/-- What keeps an entity from its target status, by the kind and the target. -/
def shortfall (kind : Kind) (id : Ident) (target : Status) : Operation (Option Shortfall) := do
  match kind with
  | .task =>
    if target = .completed then
      let some t ← ask (·.getTask id) | throw (.missing (.entity .task) id)
      return summaryShortfall (← get).settings.prerequisites t.summaryLength
    else if target = .inProgress then
      return blockerShortfall (← unresolvedBlockers id)
    else return none
  | .feature =>
    if target = .inDevelopment then
      let tasks ← ask (·.tasksForFeature id)
      if tasks.isEmpty then
        return some {
          requirement := .noChildTasks
          reason := "Feature must have at least 1 task before moving to IN_DEVELOPMENT" }
      else return none
    else if target = .testing ∨ target = .completed then
      let w ← workflow .task
      let tasks ← ask (·.tasksForFeature id)
      let rest := tasks.filter fun t => !w.isTerminal t.status
      return childShortfall .incompleteChildTasks "tasks" "feature" tasks.length
        (rest.map (blockingTask · none))
    else return none
  | .project =>
    if target = .completed then
      let w ← workflow .feature
      let features ← ask (·.featuresForProject id)
      let rest := features.filter fun f => !w.isTerminal f.status
      return childShortfall .incompleteChildFeatures "features" "project" features.length
        (rest.map blockingFeature)
    else return none

/-- The status of an entity, which must be stored. -/
def requireStatus (kind : Kind) (id : Ident) : Operation Status := do
  let some status ← ask (·.statusOf kind id) | throw (.missing (.entity kind) id)
  return status

/-- Whether an entity is ready for a target status. Where the settings or the rules of its workflow
do without prerequisites it always is. -/
def readiness (id : Ident) (kind : Kind) (target : Status) : Operation Readiness := do
  let _ ← requireStatus kind id
  let w ← workflow kind
  if !(← get).settings.prerequisites.enabled || !w.rules.validatePrerequisites then
    return .satisfied
  match ← shortfall kind id target with
  | some shortfall => return .unmet shortfall
  | none => return .satisfied

end Engine

end TaskFlow
