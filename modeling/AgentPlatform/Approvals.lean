/-
The approval stores (`app/approvals/store.py`): the in-memory `ApprovalStore`
and the `PostgresApprovalStore`.

The identifier a `create` draws and the time a call reads are inputs, so each
store is a machine over `StoreOp`. Each operation is one atomic step: the
in-memory store takes its lock, the database runs one statement.

Of the database only what the statements say is modelled: `Table.insert` with
its primary key, `Table.update` with `WHERE` and `RETURNING`, `Table.select`.
What it makes of values is a parameter: a call with a text it does not take raises
before its statement runs.
-/
import AgentPlatform.Json
import AgentPlatform.Machine
import AgentPlatform.PyText

namespace AgentPlatform

inductive ApprovalStatus where
  | pending
  | approved
  | denied
  deriving DecidableEq

structure Approval where
  id : String
  tool : String
  args : Args
  user : String
  agent : String
  reason : String
  tenant : String
  status : ApprovalStatus := .pending
  approver : Option String := none
  note : Option String := none
  createdAt : F64
  decidedAt : Option F64 := none

/-- What `create` is given, with the hex digits it draws (`uuid4().hex[:12]`)
and the time. -/
structure NewApproval where
  hex : String
  tool : String
  args : Args
  user : String
  agent : String
  reason : String
  tenant : String
  now : F64

def NewApproval.id (n : NewApproval) : String := "ap-" ++ n.hex

/-- `Approval(id=…, tool=tool, args=_normalize(args), …)` -/
def NewApproval.approval (n : NewApproval) : Approval where
  id := n.id
  tool := n.tool
  args := n.args.sorted
  user := n.user
  agent := n.agent
  reason := n.reason
  tenant := n.tenant
  createdAt := n.now

/-- What `decide` is given, with the time. -/
structure Ruling where
  id : String
  approver : String
  approved : Bool
  note : Option String
  tenant : String
  now : F64

/-- What `decide` writes into the approval. -/
def Ruling.apply (d : Ruling) (a : Approval) : Approval :=
  { a with
    status := if d.approved then .approved else .denied
    approver := some d.approver
    note := d.note
    decidedAt := some d.now }

theorem Ruling.apply_id (d : Ruling) (a : Approval) : (d.apply a).id = a.id := rfl

/-- What `verify` is given. -/
structure VerifyRequest where
  approvalId : String
  tool : String
  args : Args
  user : String
  agent : String
  tenant : String

/-- The comparison both stores make on an approved approval. -/
def VerifyRequest.matchesApproval (q : VerifyRequest) (a : Approval) : Bool :=
  decide (a.tool = q.tool) && a.args.pyEq q.args.sorted && decide (a.user = q.user)
    && decide (a.agent = q.agent)

/-! ## In memory -/

/-- `_items` -/
abbrev ApprovalStore := Dict String Approval

namespace ApprovalStore

def create (n : NewApproval) (s : ApprovalStore) : Approval × ApprovalStore :=
  (n.approval, s.insert n.id n.approval)

def get (id tenant : String) (s : ApprovalStore) : Option Approval :=
  match s.get? id with
  | some a => if a.tenant = tenant then some a else none
  | none => none

def pending (tenant : String) (s : ApprovalStore) : List Approval :=
  s.values.filter fun a => decide (a.status = .pending ∧ a.tenant = tenant)

def pendingCount (s : ApprovalStore) : Nat :=
  (s.values.filter fun a => decide (a.status = .pending)).length

def all (tenant : String) (s : ApprovalStore) : List Approval :=
  s.values.filter fun a => decide (a.tenant = tenant)

def decide (d : Ruling) (s : ApprovalStore) : Option Approval × ApprovalStore :=
  match s.get? d.id with
  | none => (none, s)
  | some a =>
    if a.status ≠ .pending ∨ a.tenant ≠ d.tenant then (none, s)
    else if d.approver = a.user then (none, s)
    else (some (d.apply a), s.insert d.id (d.apply a))

def verify (q : VerifyRequest) (s : ApprovalStore) : Bool :=
  match s.get? q.approvalId with
  | none => false
  | some a => if a.status ≠ .approved ∨ a.tenant ≠ q.tenant then false else q.matchesApproval a

end ApprovalStore

/-! ## In Postgres -/

/-- The rows of `approvals`, in heap order; `id` is the primary key. -/
structure Table where
  rows : List Approval
  key : (rows.map Approval.id).Nodup

namespace Table

def empty : Table := ⟨[], List.nodup_nil⟩

/-- `INSERT`: refused when the key is taken. -/
def insert (row : Approval) (t : Table) : Option Table :=
  if h : row.id ∈ t.rows.map Approval.id then none
  else some ⟨t.rows ++ [row], by
    rw [List.map_append, List.nodup_append]
    refine ⟨t.key, by simp, fun a ha b hb e => ?_⟩
    simp only [List.map_cons, List.map_nil, List.mem_singleton] at hb
    exact h (hb ▸ e ▸ ha)⟩

/-- `SELECT … WHERE cond` -/
def select (cond : Approval → Bool) (t : Table) : List Approval := t.rows.filter cond

/-- `UPDATE … SET … WHERE cond RETURNING …`, for an assignment that leaves the
key alone. -/
def update (cond : Approval → Bool) (set : Approval → Approval) (hset : ∀ r, (set r).id = r.id)
    (t : Table) : List Approval × Table :=
  ((t.rows.filter cond).map set,
    ⟨t.rows.map fun r => if cond r then set r else r, by
      have hids : ∀ r, (if cond r then set r else r).id = r.id := by
        intro r
        split
        · exact hset r
        · rfl
      simpa [Function.comp_def, hids] using t.key⟩)

end Table

namespace PostgresApprovalStore

variable (jsonb : Args → Option Args)

/-- `create`: the approval answered is the one built, not the row. -/
def create (n : NewApproval) (t : Table) : Except Exn Approval × Table :=
  match jsonb n.approval.args with
  | none => (.error ⟨.valueError, "invalid input syntax for type json"⟩, t)
  | some stored =>
    match t.insert { n.approval with args := stored } with
    | none => (.error ⟨.valueError, "duplicate key value violates unique constraint"⟩, t)
    | some t' => (.ok n.approval, t')

def get (id tenant : String) (t : Table) : Option Approval :=
  (t.select fun r => decide (r.id = id ∧ r.tenant = tenant)).head?

def pending (tenant : String) (t : Table) : List Approval :=
  (t.select fun r => decide (r.status = .pending ∧ r.tenant = tenant)).mergeSort
    fun a b => a.createdAt.le b.createdAt

def pendingCount (t : Table) : Nat := (t.select fun r => decide (r.status = .pending)).length

def all (tenant : String) (t : Table) : List Approval :=
  (t.select fun r => decide (r.tenant = tenant)).mergeSort fun a b => b.createdAt.le a.createdAt

def decide (d : Ruling) (t : Table) : Option Approval × Table :=
  let (returned, t') := t.update
    (fun r => Decidable.decide (r.id = d.id ∧ r.status = .pending ∧ r.tenant = d.tenant ∧ r.user ≠ d.approver))
    d.apply d.apply_id
  (returned.head?, t')

def verify (q : VerifyRequest) (t : Table) : Bool :=
  match get q.approvalId q.tenant t with
  | none => false
  | some a => if a.status ≠ .approved then false else q.matchesApproval a

end PostgresApprovalStore

/-! ## The stores as machines -/

inductive StoreOp where
  | create (n : NewApproval)
  | decide (d : Ruling)
  | get (id tenant : String)
  | pending (tenant : String)
  | pendingCount
  | all (tenant : String)
  | verify (q : VerifyRequest)

/-- The texts among the parameters of a call's statement. -/
def StoreOp.texts : StoreOp → List String
  | .create n => [n.id, n.tool, n.user, n.agent, n.reason, n.tenant]
  | .decide d => [d.approver] ++ d.note.toList ++ [d.id, d.tenant]
  | .get id tenant => [id, tenant]
  | .pending tenant => [tenant]
  | .pendingCount => []
  | .all tenant => [tenant]
  | .verify q => [q.approvalId, q.tenant]

inductive StoreAnswer where
  | created (a : Approval)
  | found (a : Option Approval)
  | listed (l : List Approval)
  | counted (n : Nat)
  | verified (b : Bool)
  | raised (e : Exn)

def memoryStore : Machine ApprovalStore StoreOp StoreAnswer where
  init := ∅
  step
    | .create n, s => (.created (s.create n).1, (s.create n).2)
    | .decide d, s => (.found (s.decide d).1, (s.decide d).2)
    | .get id tenant, s => (.found (s.get id tenant), s)
    | .pending tenant, s => (.listed (s.pending tenant), s)
    | .pendingCount, s => (.counted s.pendingCount, s)
    | .all tenant, s => (.listed (s.all tenant), s)
    | .verify q, s => (.verified (s.verify q), s)

/-- A call whose parameters are taken. -/
def PostgresApprovalStore.run (jsonb : Args → Option Args) : StoreOp → Table → StoreAnswer × Table
  | .create n, t =>
    match create jsonb n t with
    | (.ok a, t') => (.created a, t')
    | (.error e, t') => (.raised e, t')
  | .decide d, t => (.found (decide d t).1, (decide d t).2)
  | .get id tenant, t => (.found (get id tenant t), t)
  | .pending tenant, t => (.listed (pending tenant t), t)
  | .pendingCount, t => (.counted (pendingCount t), t)
  | .all tenant, t => (.listed (all tenant t), t)
  | .verify q, t => (.verified (verify q t), t)

/-- What the driver and the database make of values: which strings they take (not one
with a NUL), and how the `jsonb` column takes a mapping: `none` where it refuses the
text, otherwise what a later `SELECT` reads back. -/
structure ApprovalDatabase where
  takes : String → Bool
  jsonb : Args → Option Args

def postgresStore (db : ApprovalDatabase) : Machine Table StoreOp StoreAnswer where
  init := .empty
  step op t :=
    if op.texts.all db.takes then PostgresApprovalStore.run db.jsonb op t
    else (.raised ⟨.other, "the database refuses a value"⟩, t)

end AgentPlatform
