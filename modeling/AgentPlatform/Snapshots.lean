/-
Snapshots of the simulated systems: `snapshot` and `restore` of
`app/simulators/`, the lists of their records, and the JSON a snapshot is kept
as (`app/sandbox/persistence.py`).

A snapshot holds the records in the order of the dictionaries. `restore` builds
the dictionaries and the counters again from the records alone.

A value that was written as JSON reads back as the same value: the file of the
sandbox is the JSON its text stands for. A file with other records than the
simulators' own is not modelled.
-/
import AgentPlatform.Machine
import AgentPlatform.Simulators

namespace AgentPlatform

namespace Json

def string : Json → Option String
  | .str s => some s
  | _ => none

/-- A string or `None`. -/
def optionalString : Json → Option (Option String)
  | .str s => some (some s)
  | .null => some none
  | _ => none

def double : Json → Option F64
  | .float x => some x
  | _ => none

/-- The records of a list. -/
def items : Json → List Json
  | .arr xs => xs
  | _ => []

end Json

namespace Simulators

/-! ## The records (`payments.py`, `tickets.py`) -/

/-- `list_refunds(tenant, order_id)` -/
def listRefunds (tenant orderId : Option String) (s : State) : List Refund :=
  let values := s.refunds.values.filter fun r => decide (r.tenant = tenant)
  if given orderId then values.filter fun r => Json.pyEq r.orderId (.ofOption orderId) else values

/-- `list_drafts(tenant, ticket_id)` -/
def listDrafts (tenant ticketId : Option String) (s : State) : List Draft :=
  let values := s.drafts.values.filter fun d => decide (d.tenant = tenant)
  if given ticketId then values.filter fun d => Json.pyEq d.ticketId (.ofOption ticketId) else values

/-- The number at the end of an identifier, `rsplit("-", 1)[-1]`, when that is
all digits. The digits of the simulators' own identifiers are ASCII. -/
def idNumber (id : String) : Option Nat :=
  let suffix := (id.toList.reverse.takeWhile (· ≠ '-')).reverse
  if suffix ≠ [] ∧ suffix.all Char.isDigit then some (Nat.ofDigitChars 10 suffix 0) else none

/-- `next_id_number(records)`, of the records' identifiers -/
def nextIdNumber (ids : List String) : Nat := (ids.filterMap idNumber).max?.getD 0 + 1

structure Snapshot where
  refunds : List Refund
  drafts : List Draft

/-- `snapshot()` -/
def snapshot (s : State) : Snapshot := ⟨s.refunds.values, s.drafts.values⟩

/-- `restore(refunds=..., drafts=...)` -/
def restore (snap : Snapshot) : State where
  refunds := Dict.ofList (snap.refunds.map fun r => (r.key, r))
  refundSeq := nextIdNumber (snap.refunds.map Refund.id)
  drafts := Dict.ofList (snap.drafts.map fun d => (d.id, d))
  draftSeq := nextIdNumber (snap.drafts.map Draft.id)

/-! ## As JSON -/

/-- The refund a JSON record is. -/
def Refund.ofJson (v : Json) : Option Refund := do
  let id ← (v.field "id").bind Json.string
  let orderId ← v.field "order_id"
  let tenant ← (v.field "tenant").bind Json.optionalString
  let amount ← (v.field "amount").bind Json.double
  let status ← (v.field "status").bind Json.string
  let idempotencyKey ← v.field "idempotency_key"
  return ⟨id, orderId, tenant, amount, status, idempotencyKey⟩

def Draft.ofJson (v : Json) : Option Draft := do
  let id ← (v.field "id").bind Json.string
  let ticketId ← v.field "ticket_id"
  let tenant ← (v.field "tenant").bind Json.optionalString
  let body ← v.field "body"
  let status ← (v.field "status").bind Json.string
  return ⟨id, ticketId, tenant, body, status⟩

/-- The `payload` of `SandboxState.save`. -/
def Snapshot.toJson (snap : Snapshot) : Json :=
  .obj [("refunds", .arr (snap.refunds.map Refund.toJson)), ("drafts", .arr (snap.drafts.map Draft.toJson))]

/-- `SandboxState.load()`: the last snapshot, or empty lists. -/
def Snapshot.load : Option Json → Snapshot
  | none => ⟨[], []⟩
  | some data =>
    ⟨((data.field "refunds").getD .null).items.filterMap Refund.ofJson,
      ((data.field "drafts").getD .null).items.filterMap Draft.ofJson⟩

/-- A process that starts on what another one left: `restore(**snapshot())`
through JSON. -/
def restart (s : State) : State := restore (.load (some (snapshot s).toJson))

/-! ## Operations on the runtime state -/

inductive Operation where
  | issueRefund (orderId : Json) (amount : F64) (tenant key : Option String)
  | draftReply (ticketId body : Json) (tenant : Option String)
  | quoteRefund (orderId : Json) (tenant : Option String)
  | listRefunds (tenant orderId : Option String)
  | listDrafts (tenant ticketId : Option String)

/-- What an operation returns. -/
inductive Record where
  | refund (r : Refund)
  | draft (d : Draft)
  | quote (q : Option Quote)
  | refunds (rs : List Refund)
  | drafts (ds : List Draft)

/-- What a write returns, and the state after it; one that raises changes nothing. -/
def wrote {α : Type} (record : α → Record) (s : State) : Except Exn (α × State) → Except Exn Record × State
  | .ok (a, s') => (.ok (record a), s')
  | .error e => (.error e, s)

def Operation.perform [UnicodeData] : Operation → State → Except Exn Record × State
  | issueRefund orderId amount tenant key, s => wrote .refund s (Simulators.issueRefund orderId amount tenant key s)
  | draftReply ticketId body tenant, s => wrote .draft s (Simulators.draftReply ticketId body tenant s)
  | quoteRefund orderId tenant, s => ((Simulators.quoteRefund orderId tenant s).map .quote, s)
  | listRefunds tenant orderId, s => (.ok (.refunds (Simulators.listRefunds tenant orderId s)), s)
  | listDrafts tenant ticketId, s => (.ok (.drafts (Simulators.listDrafts tenant ticketId s)), s)

/-- An operation, or a restart of the process. -/
inductive Step where
  | operation (op : Operation)
  | restart

def Step.isOperation : Step → Bool
  | operation _ => true
  | restart => false

/-- The simulated systems, restarted now and then. A restart answers nothing. -/
def restartable [UnicodeData] : Machine State Step (Option (Except Exn Record)) where
  init := .initial
  step
    | .operation op, s => ((op.perform s).1, (op.perform s).2)
    | .restart, s => (none, restart s)

abbrev StepTaken := Transition State Step (Option (Except Exn Record))

end Simulators

end AgentPlatform
