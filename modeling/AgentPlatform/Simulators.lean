/-
The simulated downstream systems (`app/simulators/`): the fixture data, the
tenant-scoped reads, and the two pieces of runtime state, the refund ledger
and the drafts.

Identifiers are JSON values, as they reach the simulators from a tool call:
only a string can name a record, `None` and numbers name none, and a list or
a dictionary cannot be looked up at all (a `TypeError`).
-/
import AgentPlatform.PyText

namespace AgentPlatform

/-- `bool(s)` of an optional string. -/
def given : Option String → Bool
  | some s => decide (s ≠ "")
  | none => false

theorem given_iff {t : Option String} : given t = true ↔ ∃ s, t = some s ∧ s ≠ "" := by
  cases t <;> simp [given]

/-- An optional string as JSON: `None` is `null`. -/
def Json.ofOption : Option String → Json
  | some s => .str s
  | none => .null

namespace Simulators

/-! ## Fixture data (`data.py`) -/

structure Customer where
  id : String
  tenant : String
  name : String
  email : String
  phone : String
  tier : String
  region : String
  createdAt : String
  deriving DecidableEq

def Customer.items (c : Customer) : List (String × Json) :=
  [("id", .str c.id), ("tenant", .str c.tenant), ("name", .str c.name), ("email", .str c.email),
    ("phone", .str c.phone), ("tier", .str c.tier), ("region", .str c.region),
    ("created_at", .str c.createdAt)]

structure Order where
  id : String
  tenant : String
  customerId : String
  items : Json
  total : F64
  status : String
  paymentToken : String
  createdAt : String

def Order.toJson (o : Order) : Json :=
  .obj [("id", .str o.id), ("tenant", .str o.tenant), ("customer_id", .str o.customerId),
    ("items", o.items), ("total", .float o.total), ("status", .str o.status),
    ("payment_token", .str o.paymentToken), ("created_at", .str o.createdAt)]

structure Ticket where
  id : String
  tenant : String
  customerId : String
  subject : String
  status : String
  messages : Json

def Ticket.toJson (t : Ticket) : Json :=
  .obj [("id", .str t.id), ("tenant", .str t.tenant), ("customer_id", .str t.customerId),
    ("subject", .str t.subject), ("status", .str t.status), ("messages", t.messages)]

/-- `CUSTOMERS` -/
def customers : Dict String Customer :=
  ⟨[("c-100", ⟨"c-100", "acme", "Alice Example", "alice@example.com", "+1-555-0100", "gold",
        "us-east", "2024-03-01"⟩),
    ("c-200", ⟨"c-200", "acme", "Bob Sample", "bob@example.com", "+1-555-0200", "silver",
        "eu-west", "2024-06-14"⟩),
    ("c-300", ⟨"c-300", "acme", "Carol Demo", "carol@example.com", "+1-555-0300", "standard",
        "us-west", "2025-01-09"⟩),
    ("c-900", ⟨"c-900", "globex", "Grace Other", "grace@globex.example", "+1-555-0900", "gold",
        "us-east", "2024-11-02"⟩)], by decide⟩

def orderItem (sku : String) (qty : Int) (price : F64) : Json :=
  .arr [.obj [("sku", .str sku), ("qty", .int qty), ("price", .float price)]]

/-- `ORDERS` -/
def orders : Dict String Order :=
  ⟨[("o-1001", ⟨"o-1001", "acme", "c-100", orderItem "WIDGET-A" 2 (F64.ofInt 25), F64.ofInt 50,
        "delivered", "tok_demo_4242", "2025-02-10"⟩),
    ("o-1002", ⟨"o-1002", "acme", "c-100", orderItem "GADGET-B" 1 (F64.ofInt 320), F64.ofInt 320,
        "delivered", "tok_demo_1881", "2025-03-02"⟩),
    ("o-2001", ⟨"o-2001", "acme", "c-200", orderItem "WIDGET-A" 1 (F64.ofInt 25), F64.ofInt 25,
        "shipped", "tok_demo_9009", "2025-04-21"⟩),
    ("o-3001", ⟨"o-3001", "acme", "c-300", orderItem "SUBSCRIPTION" 1 (F64.ofInt 900),
        F64.ofInt 900, "delivered", "tok_demo_7777", "2025-05-30"⟩),
    ("o-9001", ⟨"o-9001", "globex", "c-900", orderItem "WIDGET-A" 4 (F64.ofInt 25), F64.ofInt 100,
        "delivered", "tok_demo_0900", "2025-06-11"⟩)], by decide⟩

def customerMessage (body : String) : Json :=
  .arr [.obj [("from", .str "customer"), ("body", .str body)]]

/-- `TICKETS` -/
def tickets : Dict String Ticket :=
  ⟨[("t-5001", ⟨"t-5001", "acme", "c-100", "My order arrived damaged", "open",
        customerMessage "The GADGET-B arrived with a cracked screen."⟩),
    ("t-5002", ⟨"t-5002", "acme", "c-200", "Where is my order?", "open",
        customerMessage "It has been a week."⟩),
    ("t-9001", ⟨"t-9001", "globex", "c-900", "Invoice question", "open",
        customerMessage "Please re-send the invoice."⟩)], by decide⟩

/-- `table.get(id)` for an identifier of any JSON type. -/
def lookup {α : Type} (table : Dict String α) : Json → Except Exn (Option α)
  | .str s => .ok (table.get? s)
  | .arr _ => .error ⟨.typeError, "unhashable type: 'list'"⟩
  | .obj _ => .error ⟨.typeError, "unhashable type: 'dict'"⟩
  | _ => .ok none

/-- `scoped(record, tenant)` of `data.py`: the record only if it belongs to the tenant. -/
def scopedTo {α : Type} (tenantOf : α → String) (record : Option α) (tenant : Option String) :
    Option α :=
  match record with
  | none => none
  | some r => if !given tenant then none else if some (tenantOf r) = tenant then some r else none

/-! ## CRM (`crm.py`) -/

/-- The customer record without its direct identifiers. -/
def Customer.profile (c : Customer) : Json :=
  .obj (c.items.filter fun e => decide (e.1 ∉ ["name", "email", "phone"]))

/-- The direct identifiers. -/
def Customer.pii (c : Customer) : Json :=
  .obj [("id", .str c.id), ("name", .str c.name), ("email", .str c.email), ("phone", .str c.phone)]

def getCustomer (customerId : Json) (tenant : Option String) : Except Exn (Option Json) :=
  (lookup customers customerId).map fun c => (scopedTo Customer.tenant c tenant).map Customer.profile

def getPii (customerId : Json) (tenant : Option String) : Except Exn (Option Json) :=
  (lookup customers customerId).map fun c => (scopedTo Customer.tenant c tenant).map Customer.pii

/-! ## Orders (`orders.py`) -/

def listOrders (customerId : Json) (tenant : Option String) : List Order :=
  orders.values.filter fun o =>
    Json.pyEq (.str o.customerId) customerId && decide (some o.tenant = tenant)

def getOrder (orderId : Json) (tenant : Option String) : Except Exn (Option Order) :=
  (lookup orders orderId).map fun o => scopedTo Order.tenant o tenant

/-! ## Runtime state -/

structure Refund where
  id : String
  orderId : Json
  tenant : Option String
  amount : F64
  status : String
  /-- What was passed for the key, whether it names one or not. -/
  idempotencyKey : Json

def Refund.toJson (r : Refund) : Json :=
  .obj [("id", .str r.id), ("order_id", r.orderId), ("tenant", .ofOption r.tenant),
    ("amount", .float r.amount), ("status", .str r.status),
    ("idempotency_key", r.idempotencyKey)]

/-- A key of the ledger. Equal numbers are one key (`True == 1 == 1.0`); a NaN
equals no key, and each refund issued with one stands under its own. -/
inductive LedgerKey where
  | text (s : String)
  | number (scaled : Int)
  | infinity (negative : Bool)
  | nan (refundId : String)
  deriving DecidableEq

instance : Coe String LedgerKey := ⟨.text⟩

/-- The key a number is, for a refund of this identifier. -/
def numberKey (refundId : String) : Int ⊕ F64 → LedgerKey
  | .inl i => .number (i * F64.unit)
  | .inr x =>
    match x, x.scaled with
    | _, some n => .number n
    | .inf negative, none => .infinity negative
    | _, none => .nan refundId

/-- `idempotency_key or refund["id"]` -/
def Refund.key (r : Refund) : LedgerKey :=
  if r.idempotencyKey.truthy then
    match r.idempotencyKey with
    | .str k => k
    | v => (v.asNum.map (numberKey r.id)).getD r.id
  else r.id

structure Draft where
  id : String
  ticketId : Json
  tenant : Option String
  body : Json
  status : String

def Draft.toJson (d : Draft) : Json :=
  .obj [("id", .str d.id), ("ticket_id", d.ticketId), ("tenant", .ofOption d.tenant),
    ("body", d.body), ("status", .str d.status)]

/-- The ledger, the drafts, and the next number of each counter. -/
structure State where
  refunds : Dict LedgerKey Refund
  refundSeq : Nat
  drafts : Dict String Draft
  draftSeq : Nat

/-- What a fresh process starts from. -/
def State.initial : State := ⟨∅, 1, ∅, 1⟩

/-- `f"{n:04d}"` -/
def pad4 (n : Nat) : String :=
  let ds := Py.decimalDigits n
  String.ofList (List.replicate (4 - ds.length) '0' ++ ds)

/-- `sum()` of doubles: the interpreter carries the rounding error of each
addition and adds it at the end. -/
def sumFloats : List F64 → Option F64
  | [] => none
  | x :: xs =>
    let step (acc : F64 × F64) (x : F64) : F64 × F64 :=
      let t := acc.1.add x
      let err := if x.abs.le acc.1.abs then (acc.1.sub t).add x else (x.sub t).add acc.1
      (t, acc.2.add err)
    let (total, carried) := xs.foldl step (F64.zero.add x, F64.zero)
    some (if !carried.eq F64.zero && carried.isFinite then total.add carried else total)

/-- `raise NotFound(f"unknown {what} {id!r}")`: writing the identifier can itself
raise. -/
def raiseNotFound [UnicodeData] {α : Type} (what : String) (id : Json) : Except Exn α :=
  match Py.repr id with
  | .ok text => .error ⟨.notFound, "unknown " ++ what ++ " " ++ text⟩
  | .error e => .error e

/-! ## Payments (`payments.py`) -/

structure Quote where
  orderId : Json
  total : F64
  alreadyRefunded : Json
  refundable : F64

def Quote.toJson (q : Quote) : Json :=
  .obj [("order_id", q.orderId), ("total", .float q.total), ("already_refunded", q.alreadyRefunded),
    ("refundable", .float q.refundable)]

def quoteRefund (orderId : Json) (tenant : Option String) (s : State) : Except Exn (Option Quote) :=
  (getOrder orderId tenant).map fun order => order.map fun order =>
    let amounts := (s.refunds.values.filter fun r =>
      Json.pyEq r.orderId orderId && decide (r.status = "issued")).map Refund.amount
    -- the sum of no amounts is the integer zero
    let already := sumFloats amounts
    let left := order.total.sub (already.getD F64.zero)
    { orderId
      total := order.total
      alreadyRefunded := match already with
        | some x => .float x.roundCents
        | none => .int 0
      refundable := (if F64.lt F64.zero left then left else F64.zero).roundCents }

/-- The refund under a key, `_refunds[idempotency_key]` where it is `in _refunds`:
a list or a dictionary cannot be looked up, and a NaN is never found. -/
def State.held (s : State) : Json → Except Exn (Option Refund)
  | .str k => .ok (s.refunds.get? k)
  | .arr _ => .error ⟨.typeError, "unhashable type: 'list'"⟩
  | .obj _ => .error ⟨.typeError, "unhashable type: 'dict'"⟩
  | .float .nan => .ok none
  | v => .ok (v.asNum.bind fun n => s.refunds.get? (numberKey "" n))

/-- `issue_refund`, with any value for the key: the sandbox passes on what it was sent. -/
def issueRefundWith [UnicodeData] (orderId : Json) (amount : F64) (tenant : Option String)
    (idempotencyKey : Json) (s : State) : Except Exn (Refund × State) :=
  match if idempotencyKey.truthy then s.held idempotencyKey else .ok none with
  | .error e => .error e
  | .ok (some refund) => .ok (refund, s)
  | .ok none =>
    match getOrder orderId tenant with
    | .error e => .error e
    | .ok none => raiseNotFound "order" orderId
    | .ok (some _) =>
      if amount.le F64.zero then .error ⟨.valueError, "refund amount must be positive"⟩
      else
        let refund : Refund :=
          ⟨"r-" ++ pad4 s.refundSeq, orderId, tenant, amount.roundCents, "issued", idempotencyKey⟩
        .ok (refund, { s with refunds := s.refunds.insert refund.key refund, refundSeq := s.refundSeq + 1 })

/-- `issue_refund` -/
def issueRefund [UnicodeData] (orderId : Json) (amount : F64) (tenant : Option String)
    (idempotencyKey : Option String) (s : State) : Except Exn (Refund × State) :=
  issueRefundWith orderId amount tenant (.ofOption idempotencyKey) s

/-! ## Tickets (`tickets.py`) -/

def getTicket (ticketId : Json) (tenant : Option String) : Except Exn (Option Ticket) :=
  (lookup tickets ticketId).map fun t => scopedTo Ticket.tenant t tenant

def draftReply [UnicodeData] (ticketId body : Json) (tenant : Option String) (s : State) :
    Except Exn (Draft × State) :=
  match getTicket ticketId tenant with
  | .error e => .error e
  | .ok none => raiseNotFound "ticket" ticketId
  | .ok (some _) =>
    let draft : Draft := ⟨"d-" ++ pad4 s.draftSeq, ticketId, tenant, body, "draft"⟩
    .ok (draft, { s with drafts := s.drafts.insert draft.id draft, draftSeq := s.draftSeq + 1 })

end Simulators

end AgentPlatform
