import TaskFlow.Settings.Layer

/-!
# Settings of a layer

Every setting has its place in a section. A setting that its section does not give has its usual
value.
-/

namespace TaskFlow

/-- The value of a setting of a section, `usual` if it is not given. -/
def Section.read {α : Type} (s : Section) (place : Nat) (name : String) (usual : α)
    (convert : Given → Option α) : Option α := do
  match ← s.get? place name with
  | some g => convert g
  | none => return usual

/-- The settings of the cache that a section gives. -/
def CacheSettings.ofSection (s : Section) : Option CacheSettings := do
  let usual : CacheSettings := {}
  return {
    enabled := ← s.read 0 "enabled" usual.enabled Given.toBool?
    ttlSeconds := ← s.read 1 "ttl_seconds" usual.ttlSeconds Given.toNat? }

/-- The settings of the locks that a section gives. -/
def LockSettings.ofSection (s : Section) : Option LockSettings := do
  let usual : LockSettings := {}
  return { timeoutMillis := ← s.read 0 "timeout_ms" usual.timeoutMillis Given.toNat? }

/-- The settings of the prerequisite checks that a section gives. -/
def PrerequisiteSettings.ofSection (s : Section) : Option PrerequisiteSettings := do
  let usual : PrerequisiteSettings := {}
  return {
    enabled := ← s.read 0 "enabled" usual.enabled Given.toBool?
    summaryMin := ← s.read 1 "summary_min_length" usual.summaryMin Given.toNat?
    summaryMax := ← s.read 2 "summary_max_length" usual.summaryMax Given.toNat? }

/-- The place of the workflow document that a section gives. -/
def WorkflowSettings.ofSection (s : Section) : Option WorkflowSettings := do
  let usual : WorkflowSettings := {}
  return {
    directory := ← s.read 0 "config_dir" usual.directory Given.toText?
    file := ← s.read 1 "config_file" usual.file Given.toText? }

/-- The part of the settings that a layer gives in a section, its usual value if there is no such
section. -/
def Layer.part {α : Type} (l : Layer) (name : String) (usual : α) (read : Section → Option α) :
    Option α :=
  match l.sections.lookup name with
  | some s => read s
  | none => some usual

namespace Settings

def ofLayer (l : Layer) : Option Settings := do
  return {
    cache := ← l.part "cache" {} CacheSettings.ofSection
    locking := ← l.part "locking" {} LockSettings.ofSection
    prerequisites := ← l.part "prerequisites" {} PrerequisiteSettings.ofSection
    workflow := ← l.part "workflow" {} WorkflowSettings.ofSection }

def toLayer (s : Settings) : Layer :=
  let nat (n : Nat) : Given := .whole n
  ⟨[("cache", .table [("enabled", .bool s.cache.enabled), ("ttl_seconds", nat s.cache.ttlSeconds)]),
    ("locking", .table [("timeout_ms", nat s.locking.timeoutMillis)]),
    ("prerequisites", .table [
      ("enabled", .bool s.prerequisites.enabled),
      ("summary_min_length", nat s.prerequisites.summaryMin),
      ("summary_max_length", nat s.prerequisites.summaryMax)]),
    ("workflow", .table [
      ("config_dir", .text s.workflow.directory), ("config_file", .text s.workflow.file)])]⟩

end Settings

end TaskFlow
