import TaskFlow.Settings
import TaskFlow.Wire.Codec
import TaskFlow.Workflow.Cache

/-!
# The wire forms of workflows and settings
-/

namespace TaskFlow.Wire

open Workflow

instance : Codec Dictionary where
  encode d := .object (d.entries.map fun e => (e.1, .text e.2))
  decode
    | .object fields => do
      let entries ← fields.mapM fun f => (decode f.2).map fun (s : String) => (f.1, s)
      return .ofList entries
    | _ => none

instance : Codec Progression where
  encode p := .object [
    ("default_flow", encode p.flow), ("emergency_transitions", encode p.emergency),
    ("terminal_statuses", encode p.terminal), ("status_roles", encode p.roles)]
  decode v := do
    let slot ← slots
      ["default_flow", "emergency_transitions", "terminal_statuses", "status_roles"] v
    return {
      flow := ← (slot "default_flow").defaulted []
      emergency := ← (slot "emergency_transitions").defaulted []
      terminal := ← (slot "terminal_statuses").defaulted []
      roles := ← (slot "status_roles").defaulted .empty }

instance : Codec RuleSettings where
  encode r := .object [
    ("enforce_sequential", encode r.enforceSequential),
    ("allow_backward", encode r.allowBackward), ("allow_emergency", encode r.allowEmergency),
    ("validate_prerequisites", encode r.validatePrerequisites)]
  decode v := do
    let slot ← slots
      ["enforce_sequential", "allow_backward", "allow_emergency", "validate_prerequisites"] v
    return {
      enforceSequential := ← (slot "enforce_sequential").defaulted none
      allowBackward := ← (slot "allow_backward").defaulted none
      allowEmergency := ← (slot "allow_emergency").defaulted none
      validatePrerequisites := ← (slot "validate_prerequisites").defaulted none }

instance : Codec Rules where
  encode r := .object [
    ("enforce_sequential", encode r.enforceSequential),
    ("allow_backward", encode r.allowBackward), ("allow_emergency", encode r.allowEmergency),
    ("validate_prerequisites", encode r.validatePrerequisites)]
  decode v := do
    let slot ← slots
      ["enforce_sequential", "allow_backward", "allow_emergency", "validate_prerequisites"] v
    return {
      enforceSequential := ← (slot "enforce_sequential").required
      allowBackward := ← (slot "allow_backward").required
      allowEmergency := ← (slot "allow_emergency").required
      validatePrerequisites := ← (slot "validate_prerequisites").required }

structure Progressions where
  tasks : Option Progression := none
  features : Option Progression := none
  projects : Option Progression := none

instance : Codec Progressions where
  encode p := .object [
    ("tasks", encode p.tasks), ("features", encode p.features), ("projects", encode p.projects)]
  decode v := do
    let slot ← slots ["tasks", "features", "projects"] v
    return {
      tasks := ← (slot "tasks").defaulted none
      features := ← (slot "features").defaulted none
      projects := ← (slot "projects").defaulted none }

instance : Codec Document where
  encode d := .object [
    ("status_progression",
      encode ({ tasks := d.tasks, features := d.features, projects := d.projects } : Progressions)),
    ("status_validation", encode d.rules)]
  decode v := do
    let slot ← slots ["status_progression", "status_validation"] v
    let p : Progressions ← (slot "status_progression").defaulted {}
    return {
      tasks := p.tasks
      features := p.features
      projects := p.projects
      rules := ← (slot "status_validation").defaulted {} }

/-- A list of statuses as a set: each once, in the order of their names. -/
def encodeStatusSet (l : List Status) : Value :=
  encode ((l.map Status.name).eraseDups.mergeSort fun a b => a ≤ b)

def encodeSpec (w : Spec) : Value :=
  let given := (w.roles.map Prod.fst).eraseDups
  .object [
    ("kind", encode w.kind),
    ("allowed", encode w.allowed),
    ("allowed_names", .text w.allowedNames),
    ("flow", encode w.flow),
    ("emergency", encodeStatusSet w.emergency),
    ("terminal", encodeStatusSet w.terminal),
    ("status_roles", .object (given.map fun s => (s.name, encode (w.roleOf s)))),
    ("rules", encode w.rules),
    ("role_of", .object (w.allowed.map fun s => (s.name, encode (w.roleOf s)))),
    ("has_non_terminal_emergency", .bool w.hasOpenEmergency)]

/-- The wire form of the tally of a cache. -/
def encodeTally (t : CacheTally) : Value :=
  .object [
    ("hits", encode t.hits), ("misses", encode t.misses), ("reloads", encode t.reloads),
    ("fallbacks", encode t.fallbacks)]

instance : Codec CacheSettings where
  encode s := .object [("enabled", encode s.enabled), ("ttl_seconds", encode s.ttlSeconds)]
  decode v := do
    let slot ← slots ["enabled", "ttl_seconds"] v
    let base : CacheSettings := {}
    return {
      enabled := ← (slot "enabled").defaulted base.enabled
      ttlSeconds := ← (slot "ttl_seconds").defaulted base.ttlSeconds }

instance : Codec LockSettings where
  encode s := .object [("timeout_ms", encode s.timeoutMillis)]
  decode v := do
    let slot ← slots ["timeout_ms"] v
    let base : LockSettings := {}
    return { timeoutMillis := ← (slot "timeout_ms").defaulted base.timeoutMillis }

instance : Codec PrerequisiteSettings where
  encode s := .object [
    ("enabled", encode s.enabled), ("summary_min_length", encode s.summaryMin),
    ("summary_max_length", encode s.summaryMax)]
  decode v := do
    let slot ← slots ["enabled", "summary_min_length", "summary_max_length"] v
    let base : PrerequisiteSettings := {}
    return {
      enabled := ← (slot "enabled").defaulted base.enabled
      summaryMin := ← (slot "summary_min_length").defaulted base.summaryMin
      summaryMax := ← (slot "summary_max_length").defaulted base.summaryMax }

instance : Codec WorkflowSettings where
  encode s := .object [("config_dir", encode s.directory), ("config_file", encode s.file)]
  decode v := do
    let slot ← slots ["config_dir", "config_file"] v
    let base : WorkflowSettings := {}
    return {
      directory := ← (slot "config_dir").defaulted base.directory
      file := ← (slot "config_file").defaulted base.file }

instance : Codec Settings where
  encode s := .object [
    ("cache", encode s.cache), ("locking", encode s.locking),
    ("prerequisites", encode s.prerequisites), ("workflow", encode s.workflow)]
  decode v := do
    let slot ← slots ["cache", "locking", "prerequisites", "workflow"] v
    let base : Settings := {}
    return {
      cache := ← (slot "cache").defaulted base.cache
      locking := ← (slot "locking").defaulted base.locking
      prerequisites := ← (slot "prerequisites").defaulted base.prerequisites
      workflow := ← (slot "workflow").defaulted base.workflow }

end TaskFlow.Wire
