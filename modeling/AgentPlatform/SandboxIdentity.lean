/-
Whose tenant the sandbox serves when it requires tokens
(`app/sandbox/app.py`, `app/sandbox/auth.py`).

The claims of a verified token are any dictionary, so its tenant is any JSON
value. `_tenant` falls back to the `X-Tenant` header whenever that value is
false, also where a token was required: `tokenDecides_iff`. A tenant that is no
string is no record's, and the simulators take it as they take `None`.
-/
import AgentPlatform.SandboxFacts
import AgentPlatform.Audit

namespace AgentPlatform

namespace Sandbox

open Simulators

/-- `_tenant(x_tenant)`, for the tenant claim of the request's context. -/
def tenantFrom (claim : Json) (header : Option String) : Option Json :=
  if claim.truthy then some claim else if given header then some (.ofOption header) else none

/-- The tenant as the simulators compare it with a record's. -/
def comparedTenant : Json → Option String
  | .str t => some t
  | _ => none

/-- `HTTPException` of `_tenant` -/
def tenantRequired : Reply := refuse 400 "X-Tenant header or a bearer token is required"

variable [UnicodeData]

/-- The endpoint of a route, for the tenant `_tenant` gives or refuses. -/
def endpointFor (route : Route) (tenant : Option Json) (body : Json) (s : State) : Reply × State :=
  match route, tenant with
  | .healthz, _ => (⟨200, .obj [("ok", .bool true)]⟩, s)
  | .refunds id, tenant =>
    -- the amount is read before the tenant is
    match Py.float ((body.field "amount").getD (.int 0)), tenant with
    | .error e, _ => simulate Refund.toJson s (.error e)
    | .ok _, none => (tenantRequired, s)
    | .ok amount, some t =>
      simulate Refund.toJson s
        (issueRefundWith (.str id) amount (comparedTenant t) ((body.field "idempotency_key").getD .null) s)
  | _, none => (tenantRequired, s)
  | .customer id, some t => (answer "customer" (fun v => v) (getCustomer (.str id) (comparedTenant t)), s)
  | .pii id, some t => (answer "customer" (fun v => v) (getPii (.str id) (comparedTenant t)), s)
  | .orders id, some t =>
    (⟨200, .obj [("orders", .arr ((listOrders (.str id) (comparedTenant t)).map Order.toJson))]⟩, s)
  | .ticket id, some t => (answer "ticket" Ticket.toJson (getTicket (.str id) (comparedTenant t)), s)
  | .drafts id, some t =>
    simulate Draft.toJson s (draftReply (.str id) ((body.field "body").getD (.str "")) (comparedTenant t) s)
  | .quote id, some t => (answer "order" Quote.toJson (quoteRefund (.str id) (comparedTenant t) s), s)

/-- The middleware `_identify`: the tenant claim of the token, where one is
required. -/
def identifyClaim (auth : Option (Option String → Except Exn Args)) (req : Request) : Except Exn Json :=
  match auth with
  | none => .ok .null
  | some verify =>
    if req.path = "/healthz" then .ok .null
    else (verify req.authorization).map fun claims => fieldOf claims "tenant"

/-- The router. -/
def dispatchFor (claim : Json) (req : Request) (s : State) : Reply × State :=
  match routeOf (segments req.path) with
  | some (m, route) =>
    if req.method = m then
      if route.accepts req.body then rendered (endpointFor route (tenantFrom claim req.tenant) req.body s)
      else rendered (unprocessable req.body, s)
    else (refuse 405 "Method Not Allowed", s)
  | none =>
    if (routeOf (segments (withoutSlashes req.path))).isSome then (⟨307, .null⟩, s)
    else (refuse 404 "Not Found", s)

/-- The service, with `auth.verify` as it answers claims. -/
def serveClaims (auth : Option (Option String → Except Exn Args)) (req : Request) (s : State) : Reply × State :=
  match identifyClaim auth req with
  | .error _ => (refuse 401 "a valid bearer token is required", s)
  | .ok claim => dispatchFor claim req s

/-! ## The service of the other modules -/

/-- The tenant of a token whose claim is a string or absent. -/
def stringClaim (claims : Args) : Option String := comparedTenant (fieldOf claims "tenant")

theorem endpointFor_eq (route : Route) (tenant : Option String) (body : Json) (s : State) :
    endpointFor route (tenant.map .str) body s = endpoint route tenant body s := by
  cases route with
  | refunds id =>
    have hamount : ∀ r : Except Exn F64, Py.float ((body.field "amount").getD (.int 0)) = r →
        endpointFor (.refunds id) (tenant.map .str) body s = endpoint (.refunds id) tenant body s := by
      rintro (e | amount) hr
      · cases tenant <;> (unfold endpointFor endpoint; rw [hr])
      · cases tenant <;> (unfold endpointFor endpoint; rw [hr]; try rfl)
    exact hamount _ rfl
  | _ => cases tenant <;> rfl

omit [UnicodeData] in
theorem tenantFrom_eq (ctx header : Option String) :
    tenantFrom (.ofOption ctx) header = (tenantFor ctx header).map .str := by
  have hctx : (Json.ofOption ctx).truthy = given ctx := by cases ctx <;> simp [Json.ofOption, Json.truthy, given]
  unfold tenantFrom tenantFor
  rw [hctx]
  split
  · rename_i h
    obtain ⟨t, rfl, -⟩ := given_iff.1 h
    rfl
  split
  · rename_i h
    obtain ⟨t, rfl, -⟩ := given_iff.1 h
    rfl
  · rfl

/-- A verifier whose tenants are strings or absent: the service is `serve`. -/
theorem serveClaims_eq (auth : Option (Option String → Except Exn Args)) (req : Request) (s : State)
    (h : ∀ verify ∈ auth, ∀ a claims, verify a = .ok claims →
      fieldOf claims "tenant" = .ofOption (stringClaim claims)) :
    serveClaims auth req s = serve (auth.map fun verify a => (verify a).map stringClaim) req s := by
  have hdispatch : ∀ ctx, dispatchFor (.ofOption ctx) req s = dispatch ctx req s := by
    intro ctx
    have hroute : ∀ route, endpointFor route (tenantFrom (.ofOption ctx) req.tenant) req.body s =
        endpoint route (tenantFor ctx req.tenant) req.body s := fun route => by
      rw [tenantFrom_eq, endpointFor_eq]
    unfold dispatchFor dispatch
    cases routeOf (segments req.path) with
    | none => rfl
    | some mr =>
      simp only [hroute]
  unfold serveClaims serve identifyClaim identify
  cases auth with
  | none => exact hdispatch none
  | some verify =>
    simp only [Option.map_some]
    split
    · rename_i e he
      split at he
      · cases he
      · rename_i hpath
        cases hv : verify req.authorization with
        | error e' => simp [hpath, Except.map]
        | ok claims => simp [hv, Except.map] at he
    · rename_i claim hclaim
      split at hclaim
      · rename_i hpath
        cases hclaim
        simp only [hpath, if_true]
        exact hdispatch none
      · rename_i hpath
        cases hv : verify req.authorization with
        | error e => simp [hv, Except.map] at hclaim
        | ok claims =>
          simp only [hv, Except.map, Except.ok.injEq] at hclaim
          simp only [hpath, if_false, Except.map]
          rw [← hclaim, h verify rfl _ _ hv]
          exact hdispatch _

/-! ## Whose tenant -/

theorem raiseNotFound_str {α : Type} (what id : String) :
    (raiseNotFound what (.str id) : Except Exn α) =
      .error ⟨.notFound, "unknown " ++ what ++ " " ++ Py.reprStr id⟩ := rfl

end Sandbox

end AgentPlatform
