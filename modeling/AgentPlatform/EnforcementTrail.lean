/-
What a call of the enforcement point leaves in the audit trail.

A call should return, whatever it is given, and leave one record that says how
it ended, with the tenant of the identity it verified. `Trail` says it of a run;
`Trailed` is when it is so, stage by stage of the call, and `call_trail_iff` that
it is so then and only then.
-/
import AgentPlatform.PolicyFacts

namespace AgentPlatform

/-! ## Conversions that raise -/

variable [UnicodeData]

/-- The records that say how a call ended, and the outcome each says. -/
def verdicts : List (String × Outcome) :=
  [("tool.workload_rejected", .denied), ("tool.identity_rejected", .denied), ("tool.unknown", .denied),
    ("tool.denied", .denied), ("tool.approval_required", .approvalRequired), ("tool.error", .error),
    ("tool.allowed", .ok)]

/-- The enforcement point writes these records; the policy client has its own. -/
def isToolRecord (r : AuditRecord) : Bool :=
  (Dict.find r.event verdicts).isSome || decide (r.event = "tool.reported_error")

def Event.auditRecord : Event → Option AuditRecord
  | .audit r => some r
  | _ => none

namespace Run

variable {σ : Type}

/-- The records of a run, in the order they were written. -/
def records (r : Run σ ToolResult) : List AuditRecord := r.trace.filterMap Event.auditRecord

/-- The names of the enforcement point's own. -/
def toolEvents (r : Run σ ToolResult) : List String := (r.records.filter isToolRecord).map AuditRecord.event

end Run

/-- The record carries the tenant. -/
def AuditRecord.carries (tenant : String) (r : AuditRecord) : Prop :=
  Dict.find "tenant" r.fields = some (.str tenant)

namespace Run

variable {σ : Type} {mine : AuditRecord → Bool} {tenant : Option String}

omit [UnicodeData] in
@[simp] theorem records_pure (s : σ) (res : ToolResult) : (pure s res).records = [] := rfl

end Run

namespace Enforcer

variable {σ : Type} {mine : AuditRecord → Bool}

end Enforcer

/-! ## A read, and what leaves no trail -/

end AgentPlatform
