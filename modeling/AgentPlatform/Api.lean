/-
The platform API (`app/api/main.py`): the approvals, the denylist of workloads
and the audit trail, behind the gates of `app/api/authz.py`.

A request is made at a moment, with a bearer token for the person and a JWT-SVID
for the workload; a route asks for one, the other, or both, and is refused
before it touches a store. The api is the authority of the denylist, so its own
gate looks into the store itself.

The stores are machines, in memory or in the database. Bodies are those the
platform's own callers send: strings, and a dictionary of arguments.
-/
import AgentPlatform.PrivacyView
import AgentPlatform.Revocations
import AgentPlatform.Workload

namespace AgentPlatform

namespace Api

/-- How tokens are verified, and the audience of this service (`WORKLOAD_AUDIENCE`). -/
structure Gates where
  verifier : ℚ → TokenVerifier
  svids : Svids
  audience : String

/-- Who asks, and when. -/
structure Caller where
  now : ℚ
  authorization : Option String
  workloadToken : Option String

structure State (σ δ : Type) where
  approvals : σ
  revocations : δ
  trail : AuditBackend

inductive Route where
  /-- `POST /approvals`, with what `create` draws, and when -/
  | createApproval (tool : String) (args : Args) (reason : String) (hex : String) (createdAt : F64)
  /-- `GET /approvals` -/
  | listApprovals (status : Option String)
  /-- `POST /approvals/verify` -/
  | verifyApproval (q : VerifyRequest)
  /-- `POST /approvals/{id}/decision` -/
  | decideApproval (id : String) (approved : Bool) (note : Option String) (decidedAt : F64)
  /-- `GET /workloads/revoked` -/
  | listRevoked
  /-- `GET /admin/workloads/revoked` -/
  | listRevokedAdmin
  /-- `POST /admin/workloads/revoke` -/
  | revokeWorkload (spiffeId reason : String) (revokedAt : F64)
  /-- `POST /admin/workloads/restore` -/
  | restoreWorkload (spiffeId : String)
  /-- `POST /audit/events` -/
  | ingestAudit (record : Args)
  /-- `GET /audit` -/
  | getAudit (limit : Int) (event tool sub : Option String)
  /-- `GET /privacy/access` -/
  | privacyAccess

structure Request where
  caller : Caller
  route : Route

inductive Reply where
  | refused (status : Nat) (detail : String)
  | approvals (answer : StoreAnswer)
  | revocations (answer : RevocationAnswer)
  | ok
  | records (l : List Args)
  | privacy (access : List AccessRow) (approvals : List Approval)
  | raised (e : Exn)

/-! ## The gates -/

section Gates

variable [UnicodeData] (g : Gates)

/-- `current_delegation` -/
def currentDelegation (c : Caller) : Except Reply Delegation :=
  let token := Workload.bare (c.authorization.getD "")
  if token = "" then .error (.refused 401 "missing bearer token")
  else
    match (g.verifier c.now).verify token with
    | .error e => .error (.refused 403 e.msg)
    | .ok d => .ok d

/-- `require_roles(*roles)` -/
def requireRoles (roles : List String) (c : Caller) : Except Reply Delegation :=
  match currentDelegation g c with
  | .error reply => .error reply
  | .ok d =>
    if roles.any (d.roles.contains ·) then .ok d
    else .error (.refused 403 ("requires one of these roles: " ++ ", ".intercalate roles))

variable {δ : Type} (revocations : Machine δ RevocationOp RevocationAnswer)

/-- `is_revoked(spiffe_id)`, by the in-process source. -/
def isRevoked (id : String) (s : δ) : Bool × δ :=
  match revocations.step .ids s with
  | (.ids l, s) => (decide (id ∈ l), s)
  | (_, s) => (false, s)

/-- `require_workload(*allowed)` -/
def requireWorkload (allowed : List String) (c : Caller) (s : δ) : Except Reply String × δ :=
  if g.audience = "" then (.ok "", s)
  else
    match Workload.verify (isRevoked revocations) g.svids g.audience c.now c.workloadToken s with
    | (.error e, s) => (.error (.refused 403 ("workload identity rejected: " ++ e.msg)), s)
    | (.ok caller, s) =>
      if caller ∈ allowed then (.ok caller, s) else (.error (.refused 403 (caller ++ " may not call this route")), s)

end Gates

/-! ## The routes -/

/-- `_audit.append(record)` -/
def append [UnicodeData] (record : Args) : AuditBackend → Except Exn Unit × AuditBackend
  | .memory store => (.ok (), .memory (store.append record))
  | .postgres db table =>
    let (result, table) := PostgresAuditStore.append db record table
    (result, .postgres db table)

/-- `max(1, min(limit, 500))` -/
def clamp (limit : Int) : Nat := (max 1 (min limit 500)).toNat

/-- What `GET /audit` asks the store for. -/
def auditQuery (d : Delegation) (limit : Int) (event tool sub : Option String) : AuditQuery :=
  { limit := clamp limit, event, tool, sub, tenant := some d.tenantOrEmpty }

def ofRecords : Except Exn (List Args) → Reply
  | .ok l => .records l
  | .error e => .raised e

/-- What a listing of approvals holds. -/
def listedApprovals : StoreAnswer → List Approval
  | .listed l => l
  | _ => []

variable {σ δ : Type} [UnicodeData] (g : Gates) (approvals : Machine σ StoreOp StoreAnswer)
  (revocations : Machine δ RevocationOp RevocationAnswer)

/-- An operation on the approvals, and its answer. -/
def onApprovals (op : StoreOp) (s : State σ δ) : Reply × State σ δ :=
  let (answer, a) := approvals.step op s.approvals
  (.approvals answer, { s with approvals := a })

/-- An operation on the denylist, and its answer. -/
def onRevocations (op : RevocationOp) (s : State σ δ) : Reply × State σ δ :=
  let (answer, r) := revocations.step op s.revocations
  (.revocations answer, { s with revocations := r })

/-- `sorted(_revocations.ids())` -/
def sortedIds : RevocationAnswer → RevocationAnswer
  | .ids l => .ids (l.mergeSort fun a b => decide (a ≤ b))
  | answer => answer

/-- A route for workloads: the rest of it, for who is let in. -/
def asWorkload (allowed : List String) (c : Caller) (s : State σ δ)
    (rest : State σ δ → Reply × State σ δ) : Reply × State σ δ :=
  match requireWorkload g revocations allowed c s.revocations with
  | (.error reply, r) => (reply, { s with revocations := r })
  | (.ok _, r) => rest { s with revocations := r }

/-- A route for people with one of these roles. -/
def asRole (roles : List String) (c : Caller) (s : State σ δ) (rest : Delegation → Reply × State σ δ) :
    Reply × State σ δ :=
  match requireRoles g roles c with
  | .error reply => (reply, s)
  | .ok d => rest d

/-- A route for anyone with a token. -/
def asAnyone (c : Caller) (s : State σ δ) (rest : Delegation → Reply × State σ δ) : Reply × State σ δ :=
  match currentDelegation g c with
  | .error reply => (reply, s)
  | .ok d => rest d

/-- What `create_approval` asks the store to create. -/
def newApproval (d : Delegation) (tool : String) (args : Args) (reason hex : String) (createdAt : F64) : NewApproval :=
  ⟨hex, tool, args, d.user, d.workload, reason, d.tenantOrEmpty, createdAt⟩

/-- What `decide_approval` asks the store to decide. -/
def ruling (d : Delegation) (id : String) (approved : Bool) (note : Option String) (decidedAt : F64) : Ruling :=
  ⟨id, d.user, approved, note, d.tenantOrEmpty, decidedAt⟩

def decisionRefused : Reply :=
  .refused 409 "approval not found, already decided, or self-approval is not allowed"

/-- The view over a trail that could be read, by what listing the approvals came to. -/
def privacyReply (access : List AccessRow) : StoreAnswer → Reply
  | .raised e => .raised e
  | answer => .privacy access ((listedApprovals answer).filter fun a => decide (a.tool = piiTool))

/-- `privacy_access(delegation)` -/
def privacyView (d : Delegation) (s : State σ δ) : Reply × State σ δ :=
  match AgentPlatform.privacyAccess s.trail d.tenant with
  | .error e => (.raised e, s)
  | .ok access =>
    let (answer, a) := approvals.step (.all d.tenantOrEmpty) s.approvals
    (privacyReply access answer, { s with approvals := a })

def handle (req : Request) (s : State σ δ) : Reply × State σ δ :=
  let c := req.caller
  match req.route with
  | .createApproval tool args reason hex createdAt =>
    asAnyone g c s fun d =>
      asWorkload g revocations [Workload.agent] c s fun s =>
        if tool = "" then (.refused 400 "tool is required", s)
        else onApprovals approvals (.create (newApproval d tool args reason hex createdAt)) s
  | .listApprovals status =>
    asAnyone g c s fun d =>
      onApprovals approvals (if status = some "pending" then .pending d.tenantOrEmpty else .all d.tenantOrEmpty) s
  | .verifyApproval q =>
    asWorkload g revocations [Workload.tools] c s fun s => onApprovals approvals (.verify q) s
  | .decideApproval id approved note decidedAt =>
    asRole g ["manager"] c s fun d =>
      match approvals.step (.decide (ruling d id approved note decidedAt)) s.approvals with
      | (.found none, a) => (decisionRefused, { s with approvals := a })
      | (answer, a) => (.approvals answer, { s with approvals := a })
  | .listRevoked =>
    asWorkload g revocations [Workload.agent, Workload.tools, Workload.gateway] c s fun s =>
      let (answer, r) := revocations.step .ids s.revocations
      (.revocations (sortedIds answer), { s with revocations := r })
  | .listRevokedAdmin => asRole g ["platform_admin"] c s fun _ => onRevocations revocations .all s
  | .revokeWorkload spiffeId reason revokedAt =>
    asRole g ["platform_admin"] c s fun d =>
      let id := String.ofList (Py.strip spiffeId.toList)
      if id = "" then (.refused 400 "spiffe_id is required", s)
      else onRevocations revocations (.revoke ⟨id, reason, d.user, revokedAt⟩) s
  | .restoreWorkload spiffeId =>
    asRole g ["platform_admin"] c s fun _ =>
      let id := String.ofList (Py.strip spiffeId.toList)
      if id = "" then (.refused 400 "spiffe_id is required", s) else onRevocations revocations (.restore id) s
  | .ingestAudit record =>
    asWorkload g revocations [Workload.agent, Workload.tools] c s fun s =>
      match append record s.trail with
      | (.ok (), trail) => (.ok, { s with trail })
      | (.error e, trail) => (.raised e, { s with trail })
  | .getAudit limit event tool sub =>
    asAnyone g c s fun d => (ofRecords (s.trail.query (auditQuery d limit event tool sub)), s)
  | .privacyAccess => asRole g ["manager"] c s fun d => privacyView approvals d s

/-- The api over its stores, from an empty trail of the kind it was built with. -/
def api (trail : AuditBackend) : Machine (State σ δ) Request Reply where
  init := ⟨approvals.init, revocations.init, trail⟩
  step := handle g approvals revocations

end Api

end AgentPlatform
