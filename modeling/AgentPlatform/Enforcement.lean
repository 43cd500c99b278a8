/-
The policy enforcement point (`app/tools/enforcement.py`): `ToolEnforcer.call`.

A call is a `Run`: its result or the exception that escapes it, the state it
leaves, and the trace of what it did, in order: the audit records it wrote,
the document it asked the policy with, the approval it asked for, and the
handler it invoked. The collaborators (workload check, token verifier, policy
engine, approvals service, tools) are fields of `Enforcer`, so a statement
about every enforcer is a statement about every behaviour of theirs.

The stages follow the source's order: `call` (workload, token), `callAs` (tool
and arguments), `decided` (the policy's answer), `execute` (the handler).
-/
import AgentPlatform.Approvals
import AgentPlatform.PolicyClient
import AgentPlatform.Tools

namespace AgentPlatform

/-- Who is acting, for whom, and within which tenant. -/
structure Delegation where
  user : String
  workload : String
  audience : String
  roles : List String
  tenant : Option String

/-- `delegation.tenant or ""` -/
def Delegation.tenantOrEmpty (d : Delegation) : String := d.tenant.getD ""

inductive Outcome where
  | ok
  | denied
  | approvalRequired
  | error
  deriving DecidableEq

structure ToolResult where
  outcome : Outcome
  tool : String
  reason : Json := .str ""
  decision : Option Decision := none
  result : Option Json := none

/-- What a call does besides returning. -/
inductive Event where
  | audit (record : AuditRecord)
  | policyAsked (doc : Args) (answer : Except Exn PolicyResult)
  | approvalAsked (request : VerifyRequest) (answer : Except Exn Bool)
  | invoked (tool : String) (kw : Kwargs)

/-- A call's result (or the exception that escapes), the state after it, and
what it did. -/
structure Run (σ α : Type) where
  result : Except Exn α
  state : σ
  trace : List Event

namespace Run

variable {σ α : Type}

def pure (s : σ) (a : α) : Run σ α := ⟨.ok a, s, []⟩

def raise (s : σ) (e : Exn) : Run σ α := ⟨.error e, s, []⟩

/-- `es`, then `r`. -/
def after (es : List Event) (r : Run σ α) : Run σ α := { r with trace := es ++ r.trace }

@[simp] theorem pure_trace (s : σ) (a : α) : (pure s a).trace = [] := rfl
@[simp] theorem pure_state (s : σ) (a : α) : (pure s a).state = s := rfl
@[simp] theorem pure_result (s : σ) (a : α) : (pure s a).result = .ok a := rfl
@[simp] theorem raise_trace (s : σ) (e : Exn) : (raise s e : Run σ α).trace = [] := rfl
@[simp] theorem raise_state (s : σ) (e : Exn) : (raise s e : Run σ α).state = s := rfl
@[simp] theorem raise_result (s : σ) (e : Exn) : (raise s e : Run σ α).result = .error e := rfl
@[simp] theorem after_trace (es : List Event) (r : Run σ α) : (after es r).trace = es ++ r.trace := rfl
@[simp] theorem after_state (es : List Event) (r : Run σ α) : (after es r).state = r.state := rfl
@[simp] theorem after_result (es : List Event) (r : Run σ α) : (after es r).result = r.result := rfl

end Run

/-- The services the enforcement point asks. `workload` is `workload.check`
where `workload.enabled()`. -/
structure Services (σ : Type) where
  workload : Option (Option String → Except Exn String)
  verifier : String → Except Exn Delegation
  post : Post
  approvals : VerifyRequest → σ → Except Exn Bool

/-- A `ToolEnforcer`: its services and its tools. -/
structure Enforcer (σ : Type) extends Services σ where
  tools : Dict String (Tool σ)

/-- The enforcer of the catalogue over a backend. -/
def Services.enforcer {σ : Type} [UnicodeData] (services : Services σ) (b : Backend σ) : Enforcer σ :=
  { services with tools := buildTools b }

namespace Enforcer

variable {σ : Type}

/-- An audit record about a verified call. -/
def record (event : String) (d : Delegation) (tool : String) (rest : List (String × Json)) : Event :=
  .audit ⟨event, [("spiffe_id", .str d.workload), ("sub", .str d.user),
    ("tenant", .str d.tenantOrEmpty), ("tool", .str tool)] ++ rest⟩

/-- The context `call` hands to `decide`: the arguments are spread last. -/
def policyContext (d : Delegation) (callArgs : Args) : Args :=
  (Dict.ofList [("roles", .arr (d.roles.map .str)), ("tenant", .ofOption d.tenant)]).insertAll
    callArgs.entries

/-- The document the policy is asked with. -/
def policyDoc (d : Delegation) (toolName : String) (callArgs : Args) : Args :=
  PolicyClient.inputDoc d.workload d.user toolName (policyContext d callArgs)

variable [UnicodeData] (e : Enforcer σ)

/-- `result if isinstance(result, dict) else {"result": result}` -/
def asDict (v : Json) : Json :=
  match v with
  | .obj fs => .obj fs
  | v => .obj [("result", v)]

/-- `isinstance(result, dict) and result.get("error")`, and its text. -/
def reportedError (v : Json) : Except Exn (Option String) :=
  match v.field "error" with
  | some err => if err.truthy then (Py.str err).map fun s => some (clip 200 s) else .ok none
  | none => .ok none

/-- The handler, and what is recorded about it. -/
def execute (d : Delegation) (token toolName : String) (tool : Tool σ) (callArgs : Args)
    (idempotencyKey : Option String) (decision : PolicyResult) (s : σ) : Run σ ToolResult :=
  let kw : Kwargs := ⟨callArgs, d.tenant, if tool.idempotent then some idempotencyKey else none⟩
  .after [.invoked toolName kw] <|
    match tool.handler kw (some token) s with
    | (.error exc, s') =>
      .after [record "tool.error" d toolName [("reason", .str (clip 200 exc.msg))]] <|
        .pure s' { outcome := .error, tool := toolName, reason := .str ("tool failed: " ++ exc.msg) }
    | (.ok result, s') =>
      .after [record "tool.allowed" d toolName [("decision", .str decision.decision.value),
          ("reason", decision.reason), ("policy_version", decision.policyVersion)]] <|
        match reportedError result with
        | .error exc => .raise s' exc
        | .ok reported =>
          .after (reported.toList.map fun text =>
              record "tool.reported_error" d toolName [("reason", .str text)]) <|
            .pure s'
              { outcome := .ok, tool := toolName, reason := decision.reason,
                decision := some decision.decision, result := some (asDict result) }

/-- What the policy's answer leads to. -/
def decided (d : Delegation) (token toolName : String) (tool : Tool σ) (args callArgs : Args)
    (idempotencyKey : Option String) (decision : PolicyResult) (s : σ) : Run σ ToolResult :=
  let approvalId := (args.get? "approval_id").getD .null
  let held : Run σ ToolResult :=
    .after [record "tool.approval_required" d toolName
        [("reason", decision.reason), ("policy_version", decision.policyVersion)]] <|
      .pure s
        { outcome := .approvalRequired, tool := toolName, reason := decision.reason,
          decision := some decision.decision }
  match decision.decision with
  | .deny =>
    .after [record "tool.denied" d toolName [("decision", .str decision.decision.value),
        ("reason", decision.reason), ("policy_version", decision.policyVersion)]] <|
      .pure s
        { outcome := .denied, tool := toolName, reason := decision.reason,
          decision := some decision.decision }
  | .allow => execute d token toolName tool callArgs idempotencyKey decision s
  | .requireApproval =>
    if !approvalId.truthy then held
    else
      match Py.str approvalId with
      | .error exc => .raise s exc
      | .ok id =>
        let request : VerifyRequest := ⟨id, toolName, callArgs, d.user, d.workload, d.tenantOrEmpty⟩
        let answer := e.approvals request s
        .after [.approvalAsked request answer] <|
          match answer with
          | .error exc => .raise s exc
          | .ok true => execute d token toolName tool callArgs idempotencyKey decision s
          | .ok false => held

/-- `str(approval_id) if (tool.idempotent and approval_id) else None` -/
def idempotencyKey (tool : Tool σ) (args : Args) : Except Exn (Option String) :=
  match args.get? "approval_id" with
  | some approvalId =>
    if tool.idempotent && approvalId.truthy then (Py.str approvalId).map some else .ok none
  | none => .ok none

/-- The call of a verified delegation. -/
def callAs (d : Delegation) (token toolName : String) (args : Args) (s : σ) : Run σ ToolResult :=
  match e.tools.get? toolName with
  | none =>
    .after [.audit ⟨"tool.unknown", [("tool", .str toolName), ("sub", .str d.user)]⟩] <|
      .pure s { outcome := .denied, tool := toolName, reason := .str "unknown tool" }
  | some tool =>
    match coerceArgs tool.properties args with
    | .error exc => .raise s exc
    | .ok callArgs =>
      match idempotencyKey tool args with
      | .error exc => .raise s exc
      | .ok key =>
        let doc := policyDoc d toolName callArgs
        let (records, answer) := PolicyClient.decide e.post doc
        .after (.policyAsked doc answer :: records.map .audit) <|
          match answer with
          | .error exc => .raise s exc
          | .ok decision => e.decided d token toolName tool args callArgs key decision s

/-- The calling workload is refused: why. -/
def workloadRefusal (workloadToken : Option String) : Except Exn (Option String) :=
  match e.workload with
  | none => .ok none
  | some check =>
    match check workloadToken with
    | .ok _ => .ok none
    | .error exc => if exc.kind = .workloadRejected then .ok (some exc.msg) else .error exc

/-- `ToolEnforcer.call` -/
def call (token : Option String) (toolName : String) (args : Args) (workloadToken : Option String)
    (s : σ) : Run σ ToolResult :=
  match e.workloadRefusal workloadToken with
  | .error exc => .raise s exc
  | .ok (some why) =>
    .after [.audit ⟨"tool.workload_rejected", [("tool", .str toolName), ("reason", .str (clip 200 why))]⟩] <|
      .pure s
        { outcome := .denied, tool := toolName, reason := .str ("workload identity rejected: " ++ why) }
  | .ok none =>
    match token with
    | none => .pure s { outcome := .denied, tool := toolName, reason := .str "no token presented" }
    | some token =>
      if token = "" then
        .pure s { outcome := .denied, tool := toolName, reason := .str "no token presented" }
      else
        match e.verifier token with
        | .error exc =>
          if exc.kind = .tokenRejected then
            .after [.audit ⟨"tool.identity_rejected", [("tool", .str toolName), ("reason", .str exc.msg)]⟩] <|
              .pure s
                { outcome := .denied, tool := toolName, reason := .str ("identity rejected: " ++ exc.msg) }
          else .raise s exc
        | .ok d => e.callAs d token toolName args s

end Enforcer

end AgentPlatform
