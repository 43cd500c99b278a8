/-
The platform around a refund: the enforcement point over the policy engine,
the approval store and the simulated ledger, as one machine.

A step is a tool call, a request for an approval, or a ruling on one. Each
call brings its own workload check and token verifier, so nothing is assumed
of who calls; the decisions are the policy's, and the approvals client answers
what the store's `verify` does.
-/
import AgentPlatform.Enforcement
import AgentPlatform.Machine

namespace AgentPlatform

/-- The state behind the tools. -/
structure World where
  sim : Simulators.State
  approvals : ApprovalStore

/-- A method of one component, in a state that holds the component. -/
def Method.within {σ τ : Type} (view : τ → σ) (put : σ → τ → τ) (m : Method σ) : Method τ :=
  fun subject t => ((m subject (view t)).1, put (m subject (view t)).2 t)

def Backend.within {σ τ : Type} (view : τ → σ) (put : σ → τ → τ) (b : Backend σ) : Backend τ where
  getCustomer customerId tenant := (b.getCustomer customerId tenant).within view put
  getPii customerId tenant := (b.getPii customerId tenant).within view put
  listOrders customerId tenant := (b.listOrders customerId tenant).within view put
  getTicket ticketId tenant := (b.getTicket ticketId tenant).within view put
  draftReply ticketId body tenant := (b.draftReply ticketId body tenant).within view put
  quoteRefund orderId tenant := (b.quoteRefund orderId tenant).within view put
  issueRefund orderId amount tenant key := (b.issueRefund orderId amount tenant key).within view put

/-- A request to the tool server, with how its tokens verify. -/
structure CallRequest where
  workload : Option (Option String → Except Exn String)
  verifier : String → Except Exn Delegation
  token : Option String
  toolName : String
  args : Args
  workloadToken : Option String

variable [UnicodeData]

/-- The in-process backend, in the world. -/
def worldBackend : Backend World := simulatorBackend.within World.sim fun sim w => { w with sim }

/-- The enforcement point that serves a request. -/
def CallRequest.enforcer (b : Policy.Bundle) (fmt : Json → String) (c : CallRequest) : Enforcer World :=
  Services.enforcer ⟨c.workload, c.verifier, opa b fmt, fun q w => .ok (w.approvals.verify q)⟩ worldBackend

def CallRequest.run (b : Policy.Bundle) (fmt : Json → String) (c : CallRequest) (w : World) :
    Run World ToolResult :=
  (c.enforcer b fmt).call c.token c.toolName c.args c.workloadToken w

inductive PlatformOp where
  | call (c : CallRequest)
  | create (n : NewApproval)
  | decide (d : Ruling)

inductive PlatformAnswer where
  | called (r : Run World ToolResult)
  | created (a : Approval)
  | decided (a : Option Approval)

def platform (b : Policy.Bundle) (fmt : Json → String) : Machine World PlatformOp PlatformAnswer where
  init := ⟨.initial, ∅⟩
  step
    | .call c, w => (.called (c.run b fmt w), (c.run b fmt w).state)
    | .create n, w => (.created (w.approvals.create n).1, { w with approvals := (w.approvals.create n).2 })
    | .decide d, w => (.decided (w.approvals.decide d).1, { w with approvals := (w.approvals.decide d).2 })

end AgentPlatform
