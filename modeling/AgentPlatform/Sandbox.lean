/-
The sandbox service (`app/sandbox/app.py`) and the backend that calls it over
HTTP (`HttpBackend` in `app/tools/backends.py`).

The request path is the concatenation the backend builds, and the service
dispatches on its `/`-separated segments: a path parameter is one non-empty
segment. A path no route has is a 404, or a redirect when it has one without
its trailing slashes; a path whose route has another method is a 405.

A body is the JSON the framework reads, `null` where there is none. A route
that takes one takes an object, and is answered 422 before its endpoint runs
where it got anything else.

Token verification at the service and the token exchange of the backend are
parameters. A header arrives as it was sent.
-/
import AgentPlatform.PolicyClient
import AgentPlatform.Tools

namespace AgentPlatform

inductive HttpMethod where
  | get
  | post
  deriving DecidableEq

structure Request where
  method : HttpMethod
  path : String
  /-- `X-Tenant` -/
  tenant : Option String
  authorization : Option String
  body : Json

/-- The segments of a path, the one before the leading slash included. -/
def segments (path : String) : List String := (path.toList.splitOn '/').map String.ofList

namespace Sandbox

inductive Route where
  | healthz
  | customer (id : String)
  | pii (id : String)
  | orders (id : String)
  | ticket (id : String)
  | drafts (id : String)
  | quote (id : String)
  | refunds (id : String)

/-- A path parameter. -/
def param (id : String) (m : HttpMethod) (route : String → Route) : Option (HttpMethod × Route) :=
  if id = "" then none else some (m, route id)

/-- The route table. -/
def routeOf : List String → Option (HttpMethod × Route)
  | ["", "healthz"] => some (.get, .healthz)
  | ["", "customers", id] => param id .get .customer
  | ["", "customers", id, "pii"] => param id .get .pii
  | ["", "customers", id, "orders"] => param id .get .orders
  | ["", "tickets", id] => param id .get .ticket
  | ["", "tickets", id, "drafts"] => param id .post .drafts
  | ["", "orders", id, "refund-quote"] => param id .get .quote
  | ["", "orders", id, "refunds"] => param id .post .refunds
  | _ => none

/-- The route has the parameter `body: dict`. -/
def Route.takesBody : Route → Bool
  | .drafts _ | .refunds _ => true
  | _ => false

/-- The body is an object, where the route takes one. -/
def Route.accepts (route : Route) (body : Json) : Bool :=
  match route.takesBody, body with
  | true, .obj _ => true
  | true, _ => false
  | false, _ => true

/-- `path.rstrip("/")` -/
def withoutSlashes (path : String) : String :=
  String.ofList (path.toList.reverse.dropWhile (· = '/')).reverse

/-- A response: its status and its JSON. -/
structure Reply where
  status : Nat
  body : Json

/-- `HTTPException(status, detail)` -/
def refuse (status : Nat) (detail : String) : Reply := ⟨status, .obj [("detail", .str detail)]⟩

/-- The framework's refusal of a body that is no object. -/
def unprocessable (body : Json) : Reply :=
  let (type, msg) := if body.isNull then ("missing", "Field required")
    else ("dict_type", "Input should be a valid dictionary")
  ⟨422, .obj [("detail", .arr [.obj [("type", .str type), ("loc", .arr [.str "body"]), ("msg", .str msg),
    ("input", body)]])]⟩

/-- `_tenant(x_tenant)`: the token's tenant wins, the header is the fallback. -/
def tenantFor (ctx header : Option String) : Option String :=
  if given ctx then ctx else if given header then header else none

/-- A read: the record, or a 404. -/
def answer {α : Type} (what : String) (toJson : α → Json) : Except Exn (Option α) → Reply
  | .ok (some r) => ⟨200, toJson r⟩
  | .ok none => refuse 404 ("unknown " ++ what)
  | .error _ => refuse 500 "Internal Server Error"

/-- `_simulate(call)` and the response: a missing record is a 404, any other
refusal bad input. -/
def simulate {α σ : Type} (toJson : α → Json) (s : σ) : Except Exn (α × σ) → Reply × σ
  | .ok (a, s') => (⟨200, toJson a⟩, s')
  | .error e =>
    (if e.kind = .notFound then refuse 404 e.msg
      else if e.kind = .valueError then refuse 400 e.msg
      else refuse 500 "Internal Server Error", s)

/-- The response an endpoint's value is written into; one that has no JSON text
fails, after the endpoint has run. -/
def rendered {σ : Type} (r : Reply × σ) : Reply × σ :=
  if r.1.body.encodable then r else (refuse 500 "Internal Server Error", r.2)

variable [UnicodeData]

/-- The endpoint of a route, for the tenant `_tenant` gives. -/
def endpoint (route : Route) (tenant : Option String) (body : Json) (s : Simulators.State) :
    Reply × Simulators.State :=
  match route, tenant with
  | .healthz, _ => (⟨200, .obj [("ok", .bool true)]⟩, s)
  | .refunds id, tenant =>
    -- the amount is read before the tenant is
    match Py.float ((body.field "amount").getD (.int 0)), tenant with
    | .error e, _ => simulate Simulators.Refund.toJson s (.error e)
    | .ok _, none => (refuse 400 "X-Tenant header or a bearer token is required", s)
    | .ok amount, some t =>
      simulate Simulators.Refund.toJson s
        (Simulators.issueRefundWith (.str id) amount (some t) ((body.field "idempotency_key").getD .null) s)
  | _, none => (refuse 400 "X-Tenant header or a bearer token is required", s)
  | .customer id, some t => (answer "customer" (fun v => v) (Simulators.getCustomer (.str id) (some t)), s)
  | .pii id, some t => (answer "customer" (fun v => v) (Simulators.getPii (.str id) (some t)), s)
  | .orders id, some t =>
    (⟨200, .obj [("orders", .arr ((Simulators.listOrders (.str id) (some t)).map Simulators.Order.toJson))]⟩, s)
  | .ticket id, some t => (answer "ticket" Simulators.Ticket.toJson (Simulators.getTicket (.str id) (some t)), s)
  | .drafts id, some t =>
    simulate Simulators.Draft.toJson s
      (Simulators.draftReply (.str id) ((body.field "body").getD (.str "")) (some t) s)
  | .quote id, some t => (answer "order" Simulators.Quote.toJson (Simulators.quoteRefund (.str id) (some t) s), s)

/-- The middleware `_identify`: the tenant of the bearer token, where one is
required. `auth` is `auth.verify` where `auth.enabled()`. -/
def identify (auth : Option (Option String → Except Exn (Option String))) (req : Request) :
    Except Exn (Option String) :=
  match auth with
  | none => .ok none
  | some verify => if req.path = "/healthz" then .ok none else verify req.authorization

/-- The router. -/
def dispatch (ctx : Option String) (req : Request) (s : Simulators.State) : Reply × Simulators.State :=
  match routeOf (segments req.path) with
  | some (m, route) =>
    if req.method = m then
      if route.accepts req.body then rendered (endpoint route (tenantFor ctx req.tenant) req.body s)
      else rendered (unprocessable req.body, s)
    else (refuse 405 "Method Not Allowed", s)
  | none =>
    if (routeOf (segments (withoutSlashes req.path))).isSome then (⟨307, .null⟩, s)
    else (refuse 404 "Not Found", s)

/-- The service. Any failure of the middleware is a refusal. -/
def serve (auth : Option (Option String → Except Exn (Option String))) (req : Request) (s : Simulators.State) :
    Reply × Simulators.State :=
  match identify auth req with
  | .error _ => (refuse 401 "a valid bearer token is required", s)
  | .ok ctx => dispatch ctx req s

end Sandbox

/-! ## The HTTP backend -/

/-- How the backend and the service are configured: the token exchange, the
static token, and the service's token verification. -/
structure HttpConfig where
  downstreamToken : Option String → Option String
  token : String
  auth : Option (Option String → Except Exn (Option String))

/-- The `Authorization` header: the user's token, or the static one. -/
def HttpConfig.authorization (cfg : HttpConfig) (subject : Option String) : Option String :=
  let bearer := if given (cfg.downstreamToken subject) then (cfg.downstreamToken subject).getD "" else cfg.token
  if bearer = "" then none else some ("Bearer " ++ bearer)

/-- What `_request` makes of a response: a 404 is `None`, and any other status
`raise_for_status` does not accept raises. -/
def received (reply : Sandbox.Reply) : Except Exn Json :=
  if reply.status = 404 then .ok .null
  else if 200 ≤ reply.status ∧ reply.status < 300 then .ok reply.body
  else .error ⟨.httpError, "HTTP status error"⟩

section HttpBackend

variable [UnicodeData] (cfg : HttpConfig)

/-- `_request(method, path, tenant, json=body)` -/
def httpRequest (method : HttpMethod) (path : String) (tenant : Option String) (body : Json) :
    Method Simulators.State := fun subject s =>
  match tenant with
  | none => (.error ⟨.typeError, "Header value must be str or bytes, not <class 'NoneType'>"⟩, s)
  | some t =>
    if !body.encodable then (.error ⟨.valueError, "Out of range float values are not JSON compliant"⟩, s)
    else
      let (reply, s') := Sandbox.serve cfg.auth ⟨method, path, some t, cfg.authorization subject, body⟩ s
      (received reply, s')

/-- A request whose path holds an identifier, written as the f-string does. -/
def httpTo (method : HttpMethod) (before : String) (id : Json) (after : String) (tenant : Option String)
    (body : Json) : Method Simulators.State :=
  match Py.str id with
  | .error e => raising e
  | .ok text => httpRequest cfg method (before ++ text ++ after) tenant body

/-- `HttpBackend` -/
def httpBackend : Backend Simulators.State where
  getCustomer customerId tenant := httpTo cfg .get "/customers/" customerId "" tenant .null
  getPii customerId tenant := httpTo cfg .get "/customers/" customerId "/pii" tenant .null
  listOrders customerId tenant := fun subject s =>
    match httpTo cfg .get "/customers/" customerId "/orders" tenant .null subject s with
    | (.ok body, s') => (.ok (((orEmpty body).field "orders").getD (.arr [])), s')
    | r => r
  getTicket ticketId tenant := httpTo cfg .get "/tickets/" ticketId "" tenant .null
  draftReply ticketId body tenant := httpTo cfg .post "/tickets/" ticketId "/drafts" tenant (.obj [("body", body)])
  quoteRefund orderId tenant := httpTo cfg .get "/orders/" orderId "/refund-quote" tenant .null
  issueRefund orderId amount tenant key :=
    httpTo cfg .post "/orders/" orderId "/refunds" tenant
      (.obj (("amount", .float amount) :: if given key then [("idempotency_key", .ofOption key)] else []))

end HttpBackend

end AgentPlatform
