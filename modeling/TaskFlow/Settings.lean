import TaskFlow.Instant
import TaskFlow.Error
import TaskFlow.Text

/-!
# Engine settings

How long workflows are kept, how long a lock is waited for, which bounds a summary has to keep, and
where the workflow document lies.
-/

namespace TaskFlow

structure CacheSettings where
  enabled : Bool := true
  ttlSeconds : Nat := 60
  deriving DecidableEq, Repr

structure LockSettings where
  timeoutMillis : Nat := 30000
  deriving DecidableEq, Repr

/-- Settings of the prerequisite checks: the bounds on the length of a task's summary, both of them
allowed. -/
structure PrerequisiteSettings where
  enabled : Bool := true
  summaryMin : Nat := 300
  summaryMax : Nat := 500
  deriving DecidableEq, Repr

structure WorkflowSettings where
  directory : String := ".taskorchestrator"
  file : String := "config.yaml"
  deriving DecidableEq, Repr

structure Settings where
  cache : CacheSettings := {}
  locking : LockSettings := {}
  prerequisites : PrerequisiteSettings := {}
  workflow : WorkflowSettings := {}
  deriving DecidableEq, Repr

namespace Settings

/-- The settings that a named environment starts from: tests keep workflows and wait for locks only
for a short time. -/
def forEnvironment (environment : String) : Settings :=
  if environment = "test" then
    { cache := { ttlSeconds := 1 }, locking := { timeoutMillis := 2000 } }
  else {}

/-- Checks that locks can be waited for, that the bounds on summaries leave room, and that the
workflow document has a name. -/
def check (s : Settings) : Except ConfigError Unit :=
  if s.locking.timeoutMillis = 0 then
    .error (.invalidValue "locking.timeout_ms" "0" "lock timeout must be greater than zero")
  else if s.prerequisites.summaryMax < s.prerequisites.summaryMin then
    .error (.invalidValue "prerequisites.summary_min_length"
      (toString s.prerequisites.summaryMin)
      s!"must not exceed summary_max_length ({s.prerequisites.summaryMax})")
  else if Text.isAllBlank s.workflow.file then
    .error (.missingField "config_file" "workflow")
  else .ok ()

end Settings

end TaskFlow
