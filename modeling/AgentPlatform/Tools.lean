/-
The tool catalogue (`app/tools/catalog.py`) over a backend
(`app/tools/backends.py`), and the in-process backend.

A backend method is a state transformer that may raise. It reads the inbound
user token of the call it serves (the context variable `_subject_token`), so a
`Method` takes it as its first argument; only the HTTP backend looks at it.
-/
import AgentPlatform.Schema
import AgentPlatform.Simulators

namespace AgentPlatform

/-- A backend method or a handler, as a function of the subject token and the
state it runs in: what it returns or raises, and the state after. -/
abbrev Method (σ : Type) := Option String → σ → Except Exn Json × σ

/-- `Backend`. `None` is `null`. -/
structure Backend (σ : Type) where
  getCustomer : (customerId : Json) → (tenant : Option String) → Method σ
  getPii : (customerId : Json) → (tenant : Option String) → Method σ
  listOrders : (customerId : Json) → (tenant : Option String) → Method σ
  getTicket : (ticketId : Json) → (tenant : Option String) → Method σ
  draftReply : (ticketId body : Json) → (tenant : Option String) → Method σ
  quoteRefund : (orderId : Json) → (tenant : Option String) → Method σ
  issueRefund : (orderId : Json) → (amount : F64) → (tenant : Option String) →
    (idempotencyKey : Option String) → Method σ

inductive Risk where
  | low
  | high
  deriving DecidableEq

/-- The keyword arguments a handler is called with: the call's arguments, the
tenant, and `idempotency_key` when the enforcement passes one. -/
structure Kwargs where
  args : Args
  tenant : Option String
  extra : Option (Option String)

structure Tool (σ : Type) where
  name : String
  description : String
  risk : Risk
  properties : Properties
  required : List String
  handler : Kwargs → Method σ
  idempotent : Bool

/-! ## The handlers -/

section Handlers

variable {σ : Type}

/-- Binding the arguments of a `lambda`: a missing or an unknown one is a
`TypeError`. -/
def bindArgs (params : List String) (takesKey : Bool) (kw : Kwargs) : Except Exn (List Json) :=
  if kw.args.keys.any (fun k => decide (k ∉ params)) || (kw.extra.isSome && !takesKey) then
    .error ⟨.typeError, "<lambda>() got an unexpected keyword argument"⟩
  else
    params.mapM fun p =>
      match kw.args.get? p with
      | some v => .ok v
      | none => .error ⟨.typeError, "<lambda>() missing 1 required positional argument: '" ++ p ++ "'"⟩

/-- `_not_found(what)` -/
def notFound (what : String) : Json := .obj [("error", .str ("unknown " ++ what))]

/-- `method(...) or fallback` -/
def orElse (m : Method σ) (fallback : Json) : Method σ := fun subject s =>
  match m subject s with
  | (.ok v, s') => (.ok (if v.truthy then v else fallback), s')
  | r => r

def raising (e : Exn) : Method σ := fun _ s => (.error e, s)

/-- A handler of one argument that answers the backend's record, or that it
was not found. -/
def readHandler (param what : String) (method : Json → Option String → Method σ) : Kwargs → Method σ :=
  fun kw =>
    match bindArgs [param] false kw with
    | .ok [v] => orElse (method v kw.tenant) (notFound what)
    | .ok _ => raising ⟨.typeError, "<lambda>()"⟩
    | .error e => raising e

end Handlers

/-! ## The catalogue -/

/-- A schema's `properties` that are all strings but one. -/
def customerIdSchema : Properties := ⟨[("customer_id", some .string)], by decide⟩

def ticketIdSchema : Properties := ⟨[("ticket_id", some .string)], by decide⟩

def replySchema : Properties := ⟨[("ticket_id", some .string), ("body", some .string)], by decide⟩

def orderIdSchema : Properties := ⟨[("order_id", some .string)], by decide⟩

def refundSchema : Properties := ⟨[("order_id", some .string), ("amount", some .number)], by decide⟩

section Catalogue

variable [UnicodeData] {σ : Type} (b : Backend σ)

def crmCustomerRead : Tool σ where
  name := "crm.customer.read"
  description := "Read a customer's profile (non-sensitive fields)."
  risk := .low
  properties := customerIdSchema
  required := ["customer_id"]
  handler := readHandler "customer_id" "customer" b.getCustomer
  idempotent := false

/-- The list is answered as it is, under `orders`. -/
def crmOrdersList : Tool σ where
  name := "crm.orders.list"
  description := "List a customer's orders."
  risk := .low
  properties := customerIdSchema
  required := ["customer_id"]
  handler := fun kw =>
    match bindArgs ["customer_id"] false kw with
    | .ok [customerId] => fun subject s =>
      match b.listOrders customerId kw.tenant subject s with
      | (.ok v, s') => (.ok (.obj [("orders", v)]), s')
      | r => r
    | .ok _ => raising ⟨.typeError, "<lambda>()"⟩
    | .error e => raising e
  idempotent := false

def ticketsRead : Tool σ where
  name := "tickets.read"
  description := "Read a support ticket and its messages."
  risk := .low
  properties := ticketIdSchema
  required := ["ticket_id"]
  handler := readHandler "ticket_id" "ticket" b.getTicket
  idempotent := false

def ticketsReplyDraft : Tool σ where
  name := "tickets.reply.draft"
  description := "Draft a reply to a ticket. Does NOT send it."
  risk := .low
  properties := replySchema
  required := ["ticket_id", "body"]
  handler := fun kw =>
    match bindArgs ["ticket_id", "body"] false kw with
    | .ok [ticketId, body] => orElse (b.draftReply ticketId body kw.tenant) (notFound "ticket")
    | .ok _ => raising ⟨.typeError, "<lambda>()"⟩
    | .error e => raising e
  idempotent := false

def refundsQuote : Tool σ where
  name := "refunds.quote"
  description := "Quote how much of an order is refundable."
  risk := .low
  properties := orderIdSchema
  required := ["order_id"]
  handler := readHandler "order_id" "order" b.quoteRefund
  idempotent := false

/-- The one tool that takes an idempotency key, `None` by default. -/
def refundsIssue : Tool σ where
  name := "refunds.issue"
  description := "Issue a refund for an order. High-risk: policy may require approval."
  risk := .high
  properties := refundSchema
  required := ["order_id", "amount"]
  handler := fun kw =>
    match bindArgs ["order_id", "amount"] true kw with
    | .ok [orderId, amount] =>
      match Py.float amount with
      | .ok x => orElse (b.issueRefund orderId x kw.tenant (kw.extra.getD none)) (notFound "order")
      | .error e => raising e
    | .ok _ => raising ⟨.typeError, "<lambda>()"⟩
    | .error e => raising e
  idempotent := true

def privacyPiiRead : Tool σ where
  name := "privacy.pii.read"
  description := "Read a customer's direct identifiers (name, email, phone). High-risk."
  risk := .high
  properties := customerIdSchema
  required := ["customer_id"]
  handler := readHandler "customer_id" "customer" b.getPii
  idempotent := false

/-- The tools in catalogue order. -/
def catalogue : List (Tool σ) :=
  [crmCustomerRead b, crmOrdersList b, ticketsRead b, ticketsReplyDraft b, refundsQuote b,
    refundsIssue b, privacyPiiRead b]

/-- The names of the catalogue. -/
def toolNames : List String :=
  ["crm.customer.read", "crm.orders.list", "tickets.read", "tickets.reply.draft", "refunds.quote",
    "refunds.issue", "privacy.pii.read"]

/-- `build_tools(backend)` -/
def buildTools : Dict String (Tool σ) :=
  ⟨(catalogue b).map fun t => (t.name, t), by
    show toolNames.Nodup
    decide⟩

end Catalogue

/-! ## The in-process backend -/

section Simulator

variable [UnicodeData]

/-- A read: the record as JSON, `None` when it is not there for the tenant. -/
def answered {α : Type} (toJson : α → Json) (r : Except Exn (Option α)) : Except Exn Json :=
  r.map fun o => (o.map toJson).getD .null

/-- A write: `NotFound` becomes `None`, any other exception escapes. -/
def written {α σ : Type} (toJson : α → Json) (s : σ) : Except Exn (α × σ) → Except Exn Json × σ
  | .ok (a, s') => (.ok (toJson a), s')
  | .error e => (if e.kind = .notFound then .ok .null else .error e, s)

/-- `SimulatorBackend` -/
def simulatorBackend : Backend Simulators.State where
  getCustomer customerId tenant := fun _ s => (answered id (Simulators.getCustomer customerId tenant), s)
  getPii customerId tenant := fun _ s => (answered id (Simulators.getPii customerId tenant), s)
  listOrders customerId tenant := fun _ s =>
    (.ok (.arr ((Simulators.listOrders customerId tenant).map Simulators.Order.toJson)), s)
  getTicket ticketId tenant := fun _ s =>
    (answered Simulators.Ticket.toJson (Simulators.getTicket ticketId tenant), s)
  draftReply ticketId body tenant := fun _ s =>
    written Simulators.Draft.toJson s (Simulators.draftReply ticketId body tenant s)
  quoteRefund orderId tenant := fun _ s =>
    (answered Simulators.Quote.toJson (Simulators.quoteRefund orderId tenant s), s)
  issueRefund orderId amount tenant idempotencyKey := fun _ s =>
    written Simulators.Refund.toJson s (Simulators.issueRefund orderId amount tenant idempotencyKey s)

end Simulator

end AgentPlatform
