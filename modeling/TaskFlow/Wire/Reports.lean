import TaskFlow.Engine.Operations
import TaskFlow.Wire.Records

/-!
# The wire forms of reports and results
-/

namespace TaskFlow.Wire

instance : Codec NeighborQuery where
  encode q := .object (
    [("direction", encode q.direction)] ++ field? "type" encode q.relation ++
    [("includeTaskInfo", encode q.withTasks)])
  decode v := do
    let slot ← slots ["direction", "type", "includeTaskInfo"] v
    return {
      direction := ← (slot "direction").required
      relation := ← (slot "type").optional
      withTasks := ← (slot "includeTaskInfo").required }

/-- The counts of an object whose keys are the names of relations; no other key may occur. -/
def decodePerRelation : Value → Option (PerRelation (Option Nat))
  | .object fields =>
    if fields.all fun f => Relation.all.any (·.name = f.1) then do
      let get (r : Relation) : Option (Option Nat) :=
        match fields.lookup r.name with
        | some v => (decode v).map some
        | none => some none
      return ⟨← get .blocks, ← get .isBlockedBy, ← get .relatesTo⟩
    else none
  | _ => none

instance : Codec (PerRelation (Option Nat)) where
  encode p := .object (Relation.all.flatMap fun r => field? r.name encode (p.get r))
  decode := decodePerRelation

instance : Codec NeighborCounts where
  encode c := .object [
    ("total", encode c.total), ("incoming", encode c.incoming), ("outgoing", encode c.outgoing),
    ("byType", encode c.byRelation)]
  decode v := do
    let slot ← slots ["total", "incoming", "outgoing", "byType"] v
    return {
      total := ← (slot "total").required
      incoming := ← (slot "incoming").required
      outgoing := ← (slot "outgoing").required
      byRelation := ← (slot "byType").required }

instance : Codec NeighborSet where
  encode s := .object [
    ("taskId", encode s.task), ("items", encode s.items), ("counts", encode s.counts),
    ("appliedFilters", encode s.filters)]
  decode v := do
    let slot ← slots ["taskId", "items", "counts", "appliedFilters"] v
    return {
      task := ← (slot "taskId").required
      items := ← (slot "items").required
      counts := ← (slot "counts").required
      filters := ← (slot "appliedFilters").required }

instance : Codec Bottleneck where
  encode b := .object (
    [("taskId", encode b.task), ("fanOut", encode b.fanOut)] ++ field? "title" encode b.title)
  decode v := do
    let slot ← slots ["taskId", "fanOut", "title"] v
    return {
      task := ← (slot "taskId").required
      fanOut := ← (slot "fanOut").required
      title := ← (slot "title").optional }

instance : Codec ParallelGroup where
  encode g := .object [("depth", encode g.depth), ("tasks", encode g.tasks)]
  decode v := do
    let slot ← slots ["depth", "tasks"] v
    return { depth := ← (slot "depth").required, tasks := ← (slot "tasks").required }

instance : Codec GraphReport where
  encode p := .object [
    ("chain", encode p.chain), ("depth", encode p.depth), ("criticalPath", encode p.criticalPath),
    ("bottlenecks", encode p.bottlenecks), ("parallelizable", encode p.parallel)]
  decode v := do
    let slot ← slots ["chain", "depth", "criticalPath", "bottlenecks", "parallelizable"] v
    return {
      chain := ← (slot "chain").required
      depth := ← (slot "depth").required
      criticalPath := ← (slot "criticalPath").required
      bottlenecks := ← (slot "bottlenecks").required
      parallel := ← (slot "parallelizable").required }

instance : Codec BlockingItem where
  encode i := .object (
    [("id", encode i.id), ("kind", encode i.kind), ("title", encode i.title),
      ("status", encode i.status)] ++ field? "requiredRole" encode i.requiredRole)
  decode v := do
    let slot ← slots ["id", "kind", "title", "status", "requiredRole"] v
    return {
      id := ← (slot "id").required
      kind := ← (slot "kind").required
      title := ← (slot "title").required
      status := ← (slot "status").required
      requiredRole := ← (slot "requiredRole").optional }

/-- The fields of a requirement, which its name and its figures fill. -/
def requirementFields : Requirement → List (String × Value)
  | .summaryLength actual min max => [
    ("rule", .text "summary_length"), ("actual", encode actual), ("min", encode min),
    ("max", encode max)]
  | .blockingDependencies => [("rule", .text "blocking_dependencies")]
  | .noChildTasks => [("rule", .text "no_child_tasks")]
  | .incompleteChildTasks => [("rule", .text "incomplete_child_tasks")]
  | .incompleteChildFeatures => [("rule", .text "incomplete_child_features")]

def requirementNames : List String :=
  ["summary_length", "blocking_dependencies", "no_child_tasks", "incomplete_child_tasks",
    "incomplete_child_features"]

/-- The name of a requirement, which its place in the declaration order can stand for. -/
def requirementName : Value → Option String
  | .text s => if s ∈ requirementNames then some s else none
  | .number m 0 => if 0 ≤ m then requirementNames[m.toNat]? else none
  | _ => none

/-- The requirement that a name stands for, with figures read from a record. -/
def requirementOf (name : String) (figures : Option (String → Slot)) : Option Requirement :=
  match name with
  | "summary_length" => do
    let slot ← figures
    return .summaryLength (← (slot "actual").required) (← (slot "min").required)
      (← (slot "max").required)
  | "blocking_dependencies" => some .blockingDependencies
  | "no_child_tasks" => some .noChildTasks
  | "incomplete_child_tasks" => some .incompleteChildTasks
  | "incomplete_child_features" => some .incompleteChildFeatures
  | _ => none

/-- Reads a requirement: from an object, or from a list of its name and its figures. A requirement
without figures takes no further items in a list. -/
def decodeRequirement : Value → Option Requirement
  | .object fields => do
    let name ← requirementName (← fields.lookup "rule")
    requirementOf name (slots [] (.object fields))
  | .list (head :: items) => do
    let name ← requirementName head
    if name = "summary_length" ∨ items.isEmpty then
      requirementOf name (slots ["actual", "min", "max"] (.list items))
    else none
  | _ => none

instance : Codec Requirement where
  encode r := .object (requirementFields r)
  decode := decodeRequirement

instance : Codec Shortfall where
  encode f := .object (
    requirementFields f.requirement ++
    [("reason", encode f.reason), ("blockingItems", encode f.items)])
  decode
    | .object fields => do
      let slot ← slots [] (.object fields)
      return {
        requirement := ← decodeRequirement (.object fields)
        reason := ← (slot "reason").required
        items := ← (slot "blockingItems").required }
    | _ => none

instance : Codec Workflow.Verdict where
  encode
    | .valid => .object [("result", .text "valid")]
    | .invalid reason => .object [("result", .text "invalid"), ("reason", .text reason)]
  decode v := do
    let slot ← slots ["result", "reason"] v
    let result ← match slot "result" with
      | .given r => decodeNamed ["valid", "invalid"] id r
      | _ => none
    if result = "valid" then
      match slot "reason" with
      | .given .null | .absent => some .valid
      | _ => none
    else return .invalid (← (slot "reason").required)

instance : Codec StatusChange where
  encode c := .object [
    ("entityId", encode c.entity), ("kind", encode c.kind), ("from", encode c.source),
    ("to", encode c.target)]
  decode v := do
    let slot ← slots ["entityId", "kind", "from", "to"] v
    return {
      entity := ← (slot "entityId").required
      kind := ← (slot "kind").required
      source := ← (slot "from").required
      target := ← (slot "to").required }

def encodeReadiness : Readiness → List (String × Value)
  | .satisfied => [("result", .text "satisfied")]
  | .unmet shortfall => [("result", .text "unmet"), ("failure", encode shortfall)]

/-- The wire form of a report on a bulk deletion. -/
def encodeDeletion (p : DeletionReport) : Value :=
  .object [
    ("deleted", encode p.deleted),
    ("failed", .list (p.failed.map fun f =>
      .object [("dependencyId", encode f.id), ("reason", encode f.reason)]))]

end TaskFlow.Wire
