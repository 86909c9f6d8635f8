import TaskFlow.Repository
import TaskFlow.Wire.Codec

/-!
# The wire forms of records, edges and requests
-/

namespace TaskFlow.Wire

instance : Codec Dependency where
  encode d := .object [
    ("id", encode d.id), ("from_task_id", encode d.source), ("to_task_id", encode d.target),
    ("dependency_type", encode d.relation), ("unblock_at", encode d.unblockAt),
    ("created_at", encode d.createdAt)]
  decode v := do
    let slot ← slots
      ["id", "from_task_id", "to_task_id", "dependency_type", "unblock_at", "created_at"] v
    return {
      id := ← (slot "id").required
      source := ← (slot "from_task_id").required
      target := ← (slot "to_task_id").required
      relation := ← (slot "dependency_type").required
      unblockAt := ← (slot "unblock_at").optional
      createdAt := ← (slot "created_at").required }

instance : Codec Request where
  encode r := .object [
    ("from_task_id", encode r.source), ("to_task_id", encode r.target),
    ("dependency_type", encode r.relation), ("unblock_at", encode r.unblockAt)]
  decode v := do
    let slot ← slots ["from_task_id", "to_task_id", "dependency_type", "unblock_at"] v
    return {
      source := ← (slot "from_task_id").required
      target := ← (slot "to_task_id").required
      relation := ← (slot "dependency_type").required
      unblockAt := ← (slot "unblock_at").optional }

instance : Codec TaskInfo where
  encode t := .object [("title", encode t.title), ("status", encode t.status)]
  decode v := do
    let slot ← slots ["title", "status"] v
    return { title := ← (slot "title").required, status := ← (slot "status").required }

instance : Codec DependencyView where
  encode d := .object (
    [("id", encode d.id), ("fromTaskId", encode d.source), ("toTaskId", encode d.target),
      ("type", encode d.relation)] ++
    field? "unblockAt" encode d.unblockAt ++
    field? "effectiveUnblockRole" encode d.effectiveRole ++
    [("createdAt", encode d.createdAt)] ++
    field? "fromTask" encode d.sourceTask ++
    field? "toTask" encode d.targetTask)
  decode v := do
    let slot ← slots
      ["id", "fromTaskId", "toTaskId", "type", "unblockAt", "effectiveUnblockRole", "createdAt",
        "fromTask", "toTask"] v
    return {
      id := ← (slot "id").required
      source := ← (slot "fromTaskId").required
      target := ← (slot "toTaskId").required
      relation := ← (slot "type").required
      unblockAt := ← (slot "unblockAt").optional
      effectiveRole := ← (slot "effectiveUnblockRole").optional
      createdAt := ← (slot "createdAt").required
      sourceTask := ← (slot "fromTask").optional
      targetTask := ← (slot "toTask").optional }

instance : Codec Task where
  encode t := .object [
    ("id", encode t.id), ("title", encode t.title), ("status", encode t.status),
    ("summary", encode t.summary), ("feature_id", encode t.feature),
    ("created_at", encode t.createdAt)]
  decode v := do
    let slot ← slots ["id", "title", "status", "summary", "feature_id", "created_at"] v
    return {
      id := ← (slot "id").required
      title := ← (slot "title").required
      status := ← (slot "status").required
      summary := ← (slot "summary").optional
      feature := ← (slot "feature_id").optional
      createdAt := ← (slot "created_at").required }

instance : Codec Feature where
  encode f := .object [
    ("id", encode f.id), ("name", encode f.name), ("status", encode f.status),
    ("project_id", encode f.project), ("created_at", encode f.createdAt)]
  decode v := do
    let slot ← slots ["id", "name", "status", "project_id", "created_at"] v
    return {
      id := ← (slot "id").required
      name := ← (slot "name").required
      status := ← (slot "status").required
      project := ← (slot "project_id").optional
      createdAt := ← (slot "created_at").required }

instance : Codec Project where
  encode p := .object [
    ("id", encode p.id), ("name", encode p.name), ("status", encode p.status),
    ("created_at", encode p.createdAt)]
  decode v := do
    let slot ← slots ["id", "name", "status", "created_at"] v
    return {
      id := ← (slot "id").required
      name := ← (slot "name").required
      status := ← (slot "status").required
      createdAt := ← (slot "created_at").required }

end TaskFlow.Wire
