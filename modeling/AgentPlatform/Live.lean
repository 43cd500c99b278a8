/-
The live dependencies of the graph (`app/agent/live.py`), wired to the tool
server (`app/tools/http_app.py`), the approvals endpoints (`app/api/main.py`)
and the approval store.

What is outside the platform (the identity provider, the policy engine, the
model, the vendor systems, the draw of an identifier) is a `LiveEnv`, given anew
for each node of a run, so it may answer differently each time. A tool's name
is one segment of the path it is posted to.

`liveAgent` is a run of one thread among rulings on approvals and approvals
that other runs request.
-/
import AgentPlatform.Llm
import AgentPlatform.Platform

namespace AgentPlatform

/-- The tool server: its services and the backend of its tools. -/
structure ToolServer where
  workload : Option (Option String → Except Exn String)
  verifier : String → Except Exn Delegation
  post : Post
  backend : Backend Simulators.State

/-- The approvals endpoint: how it verifies its callers. -/
structure ApprovalsApi where
  workload : Option (Option String → Except Exn String)
  verifier : String → Except Exn Delegation

/-- What is outside the platform, at one node of a run. -/
structure LiveEnv where
  /-- `tools_for_roles` for the caller -/
  offered : Except Exn (List Json)
  reply : Llm.ModelReply
  /-- `_tool_token()`: the user's token, exchanged -/
  exchange : Except Exn String
  workloadToken : Option String
  /-- `none` where the request fails -/
  server : Option ToolServer
  api : Option ApprovalsApi
  /-- what `create` draws, and when -/
  hex : String
  now : F64

/-- The workload that may request approvals. -/
def agentWorkload : String := "spiffe://acme.com/ns/agent-platform/sa/agent"

variable [UnicodeData]

def ToolServer.services (server : ToolServer) : Services World :=
  ⟨server.workload, server.verifier, server.post, fun q w => .ok (w.approvals.verify q)⟩

/-- The tools of the server, in the world. -/
def ToolServer.worldBackend (server : ToolServer) : Backend World :=
  server.backend.within World.sim fun sim w => { w with sim }

def ToolServer.enforcer (server : ToolServer) : Enforcer World := server.services.enforcer server.worldBackend

/-- The bearer token of a request: `"Bearer " + token`, without the prefix and
stripped, or `None`. -/
def bearer (token : String) : Option String :=
  let text := String.ofList (Py.strip token.toList)
  if text = "" then none else some text

/-- What `LiveDeps.call_tool` makes of the tool server's response. -/
def toolResponse : Except Exn ToolResult → ToolCallResult
  | .error _ => { status := .error, reason := .str "unexpected status 500" }
  | .ok res =>
    match res.outcome with
    | .ok =>
      if (res.result.getD .null).encodable then { status := .ok, result := some (res.result.getD .null) }
      else { status := .error, reason := .str "unexpected status 500" }
    | .approvalRequired => { status := .approvalRequired, reason := res.reason }
    | .denied => { status := .denied, reason := res.reason }
    | .error => { status := .error, reason := .str "unexpected status 400" }

/-- The reason as the store keeps it. -/
def reasonText : Json → String
  | .str s => s
  | _ => ""

namespace ApprovalsApi

/-- `current_delegation` and `require_workload(AGENT)`: who asks. -/
def admitted (api : ApprovalsApi) (token : Option String) (workloadToken : Option String) : Except Exn Delegation :=
  match token with
  | none => .error ⟨.httpError, "401"⟩
  | some token =>
    match api.verifier token with
    | .error _ => .error ⟨.httpError, "403"⟩
    | .ok d =>
      match api.workload with
      | none => .ok d
      | some check =>
        match check workloadToken with
        | .error _ => .error ⟨.httpError, "403"⟩
        | .ok caller => if caller = agentWorkload then .ok d else .error ⟨.httpError, "403"⟩

end ApprovalsApi

/-- The catalogue as the agent reads it: what the tools declare, over a backend
it never calls. -/
def declaredTools : Dict String (Tool Unit) :=
  buildTools
    { getCustomer := fun _ _ _ s => (.ok .null, s)
      getPii := fun _ _ _ s => (.ok .null, s)
      listOrders := fun _ _ _ s => (.ok .null, s)
      getTicket := fun _ _ _ s => (.ok .null, s)
      draftReply := fun _ _ _ _ s => (.ok .null, s)
      quoteRefund := fun _ _ _ s => (.ok .null, s)
      issueRefund := fun _ _ _ _ _ s => (.ok .null, s) }

namespace LiveEnv

variable (env : LiveEnv)

/-- The catalogue, split by whether a tool is offered. -/
def split (offered : List Json) (keep : Bool) : Dict String (Tool Unit) :=
  declaredTools.filterMap fun name tool => if offered.any (Policy.isStr name) = keep then some tool else none

/-- `LiveDeps.decide(task, observations)` -/
def decide (task : String) (observations : List Observation) (w : World) : Except Exn ModelDecision × World :=
  match env.offered with
  | .error e => (.error e, w)
  | .ok offered => (.ok (Llm.decideTool (split offered true) (split offered false) env.reply task observations), w)

/-- The body of a tool call. -/
def body (args : Args) (approvalId : Option String) : Args :=
  if given approvalId then args.insert "approval_id" (.ofOption approvalId) else args

/-- `LiveDeps.call_tool(tool, args, approval_id)` -/
def callTool (tool : String) (args : Args) (approvalId : Option String) (w : World) :
    Except Exn ToolCallResult × World :=
  match env.exchange with
  | .error e => (.error e, w)
  | .ok token =>
    if !(body args approvalId).encodable then
      (.error ⟨.valueError, "Out of range float values are not JSON compliant"⟩, w)
    else
      match env.server with
      | none => (.ok { status := .error, reason := .str "tool server unreachable" }, w)
      | some server =>
        let r := server.enforcer.call (bearer token) tool (body args approvalId) env.workloadToken w
        (.ok (toolResponse r.result), r.state)

/-- The request for an approval, as the endpoint passes it to the store. -/
def newApproval (d : Delegation) (tool : String) (args : Args) (reason : Json) : NewApproval where
  hex := env.hex
  tool := tool
  args := args
  user := d.user
  agent := d.workload
  reason := reasonText reason
  tenant := d.tenantOrEmpty
  now := env.now

/-- `LiveDeps.create_approval(tool, args, reason)` -/
def createApproval (tool : String) (args : Args) (reason : Json) (w : World) : Except Exn String × World :=
  match env.exchange with
  | .error e => (.error e, w)
  | .ok token =>
    if !(args.encodable && reason.encodable) then
      (.error ⟨.valueError, "Out of range float values are not JSON compliant"⟩, w)
    else
      match env.api with
      | none => (.error ⟨.httpError, "connection failed"⟩, w)
      | some api =>
        match api.admitted (bearer token) env.workloadToken with
        | .error e => (.error e, w)
        | .ok d =>
          if tool = "" then (.error ⟨.httpError, "400"⟩, w)
          else
            let n := env.newApproval d tool args reason
            (.ok (w.approvals.create n).1.id, { w with approvals := (w.approvals.create n).2 })

/-- `LiveDeps` -/
def deps : AgentDeps World := ⟨env.decide, env.callTool, env.createApproval⟩

end LiveEnv

/-! ## A run of a live thread -/

structure Live where
  thread : Thread
  world : World

inductive LiveInput where
  | advance (env : LiveEnv)
  | resume (answer : Json)
  /-- another run requests an approval -/
  | create (n : NewApproval)
  | decide (d : Ruling)

/-- A fresh thread in a world that has a past. -/
def liveAgent (task : String) (past : World) : Machine Live LiveInput (List GraphEvent) where
  init := ⟨.fresh task, past⟩
  step
    | .advance env, s =>
      let (events, thread, world) := s.thread.advance env.deps s.world
      (events, ⟨thread, world⟩)
    | .resume answer, s => ([], { s with thread := s.thread.resume answer })
    | .create n, s => ([], { s with world := { s.world with approvals := (s.world.approvals.create n).2 } })
    | .decide d, s => ([], { s with world := { s.world with approvals := (s.world.approvals.decide d).2 } })

end AgentPlatform
