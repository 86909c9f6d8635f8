import TaskFlow.Workflow.Spec

/-!
# Transitions

Which changes of status a workflow accepts, and why it refuses the others.
-/

namespace TaskFlow.Workflow

/-- Why a status or a change of status is refused. -/
inductive Rejection where
  | unknown (status : Status) (kind : Kind) (allowed : String)
  | unchanged (kind : Kind) (status : Status)
  | leavesTerminal (source target : Status)
  | resumesTerminal (source target : Status)
  | skips (source target next : Status)
  | backward (source target : Status)
  | unrelated (target : Status)
  deriving DecidableEq, Repr

def Rejection.message : Rejection → String
  | .unknown status kind allowed =>
    s!"Invalid status '{status.name}' for {kind.name}. Allowed statuses: {allowed}"
  | .unchanged kind status => s!"{kind.name} is already in status {status.name}"
  | .leavesTerminal source target =>
    s!"Cannot transition from terminal status {source.name} to {target.name}: " ++
      "only emergency transitions are allowed"
  | .resumesTerminal source target =>
    s!"Cannot resume from {source.name} directly into terminal status {target.name}"
  | .skips source target next =>
    s!"Cannot skip from {source.name} to {target.name}: " ++
      s!"the next status in default flow is {next.name}"
  | .backward source target =>
    s!"Backward transition from {source.name} to {target.name} is not allowed"
  | .unrelated target =>
    s!"{target.name} is not the next status in default flow and not an emergency status"

/-- Whether something is accepted, and the reason if it is not. -/
inductive Verdict where
  | valid
  | invalid (reason : String)
  deriving DecidableEq, Repr

def Verdict.ofCheck : Except Rejection Unit → Verdict
  | .ok () => .valid
  | .error r => .invalid r.message

namespace Spec

/-- The rejection of a status that is not allowed. -/
def unknown (w : Spec) (s : Status) : Rejection :=
  .unknown s w.kind w.allowedNames

def checkStatus (w : Spec) (s : Status) : Except Rejection Unit :=
  if w.isAllowed s then .ok () else .error (w.unknown s)

/-- Whether the flow itself leads from one place in it to another: a step on, or a way back where
that is allowed. -/
def flowLeads (w : Spec) : Option Nat → Option Nat → Bool
  | some i, some j => j == i + 1 || (j < i && w.rules.allowBackward)
  | _, _ => false

/-- Why a change of status that no rule accepts is refused, from the places of the two in the
flow. -/
def refusal (w : Spec) (source target : Status) : Option Nat → Option Nat → Rejection
  | some i, some j =>
    if i < j then
      match w.flow[i + 1]? with
      | some next => .skips source target next
      | none => .unrelated target
    else .backward source target
  | _, _ => .unrelated target

/-- Checks a change of status. Both statuses must be allowed and differ. Unless the sequence is
not enforced, the flow must lead from one to the other, or the target must be an emergency status,
or the source must be outside the flow and the target in it: out of a terminal status only where
an emergency status leads on, and not straight into a terminal one. -/
def checkTransition (w : Spec) (source target : Status) : Except Rejection Unit :=
  let i := w.position source
  let j := w.position target
  if !w.isAllowed source then .error (w.unknown source)
  else if !w.isAllowed target then .error (w.unknown target)
  else if source = target then .error (.unchanged w.kind target)
  else if !w.rules.enforceSequential then .ok ()
  else if w.flowLeads i j then .ok ()
  else if w.rules.allowEmergency && w.isEmergency target then .ok ()
  else if w.isTerminal source then
    if w.rules.allowEmergency && j.isSome && w.hasOpenEmergency then .ok ()
    else .error (.leavesTerminal source target)
  else if i.isNone && j.isSome then
    if w.isTerminal target then .error (.resumesTerminal source target) else .ok ()
  else .error (w.refusal source target i j)

end Spec

end TaskFlow.Workflow
