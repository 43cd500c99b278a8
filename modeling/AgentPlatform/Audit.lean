/-
The audit stores (`app/audit/store.py`): the in-memory `AuditStore`, bounded,
and the `PostgresAuditStore`.

The database is a parameter: how a text column or a text parameter takes a
value, how the `jsonb` column does, and which limits `LIMIT` takes. What the
statements say is modelled on rows: the key a `bigserial` draws, the `WHERE`
clause with its `IS NULL` tests, `ORDER BY id DESC` and `LIMIT`.
-/
import AgentPlatform.Rows
import AgentPlatform.Simulators

namespace AgentPlatform

/-! ## Columns and filters -/

/-- The indexed fields of a record. -/
structure AuditColumns where
  ts : F64
  event : String
  sub : String
  tenant : String
  tool : Json
  decision : Json

/-- `record.get(field)` -/
def fieldOf (record : Args) (field : String) : Json := (record.get? field).getD .null

/-- `str(v or "")` -/
def strOrEmpty [UnicodeData] (v : Json) : Except Exn String := if v.truthy then Py.str v else .ok ""

/-- `float(v or 0.0)` -/
def floatOrZero [UnicodeData] (v : Json) : Except Exn F64 := if v.truthy then Py.float v else .ok F64.zero

/-- `_columns(record)` -/
def columns [UnicodeData] (record : Args) : Except Exn AuditColumns := do
  let ts ← floatOrZero (fieldOf record "ts")
  let event ← strOrEmpty (fieldOf record "event")
  let sub ← strOrEmpty (fieldOf record "sub")
  let tenant ← strOrEmpty (fieldOf record "tenant")
  return ⟨ts, event, sub, tenant, fieldOf record "tool", fieldOf record "decision"⟩

/-- What `query` is given. -/
structure AuditQuery where
  limit : Nat
  event : Option String := none
  tool : Option String := none
  sub : Option String := none
  tenant : Option String := none

/-- `value and record.get(field) != value` -/
def differs (record : Args) (field : String) (value : Option String) : Bool :=
  given value && !(fieldOf record field).pyEq (.ofOption value)

/-- `_matches(record, …)` -/
def AuditQuery.matches (q : AuditQuery) (record : Args) : Bool :=
  if differs record "event" q.event then false
  else if differs record "tool" q.tool then false
  else if differs record "sub" q.sub then false
  else
    match q.tenant with
    | none => true
    | some tenant =>
      let v := fieldOf record "tenant"
      (if v.truthy then v else .str "").pyEq (.str tenant)

/-! ## In memory -/

/-- `MAX_IN_MEMORY` -/
def maxInMemory : Nat := 500

/-- `_records`: a `deque`, newest first. -/
abbrev AuditStore := List Args

namespace AuditStore

/-- `appendleft` on a bounded deque drops from the other end. -/
def append (record : Args) (s : AuditStore) : AuditStore := (record :: s).take maxInMemory

def query (q : AuditQuery) (s : AuditStore) : List Args := (s.filter q.matches).take q.limit

/-- The store after these records, from empty. -/
def holding (records : List Args) : AuditStore := records.foldl (fun s r => append r s) []

end AuditStore

/-! ## In Postgres -/

/-- What the driver and the database make of values. They may refuse some (a
string with a NUL, a number that is no JSON, a limit past `bigint`). A text that is
taken is kept; whether a mapping is taken depends on its value only, and what is read
back of it may be another value (`1e23` is read back as an integer that differs). -/
structure AuditDatabase where
  /-- A value for a text column or parameter: refused, or the string, or `NULL`. -/
  text : Json → Option (Option String)
  /-- A mapping for the `jsonb` column: refused, or what a `SELECT` reads back. -/
  json : Args → Option Args
  /-- The limits that `LIMIT` takes. -/
  limits : Nat → Bool
  text_null : text .null = some none
  text_empty : text (.str "") = some (some "")
  text_str : ∀ {s c}, text (.str s) = some c → c = some s
  json_value : ∀ {a b}, a.pyEq b = true → (json a).isSome = true → (json b).isSome = true

/-- What the `jsonb` column reads back of the record is equal (`==`) to it. -/
def AuditDatabase.Keeps (db : AuditDatabase) (record : Args) : Prop :=
  ∀ stored, db.json record = some stored → record.pyEq stored = true

/-- What a row of `audit_events` holds beside its key. -/
structure AuditEntry where
  ts : F64
  event : String
  sub : String
  tenant : String
  tool : Option String
  decision : Option String
  record : Args

structure AuditRow where
  id : Nat
  entry : AuditEntry

/-- `audit_events`, and the next key of its `bigserial`. -/
structure AuditTable where
  rows : List AuditRow
  next : Nat
  ascending : rows.Pairwise fun a b => a.id < b.id
  fresh : ∀ r ∈ rows, r.id < next

namespace AuditTable

def empty : AuditTable := ⟨[], 1, .nil, fun _ h => absurd h List.not_mem_nil⟩

/-- `INSERT` -/
def insert (entry : AuditEntry) (t : AuditTable) : AuditTable where
  rows := t.rows ++ [⟨t.next, entry⟩]
  next := t.next + 1
  ascending := by
    refine List.pairwise_append.2 ⟨t.ascending, List.pairwise_singleton .., fun a ha b hb => ?_⟩
    rw [List.mem_singleton.1 hb]
    exact t.fresh a ha
  fresh r hr := by
    rcases List.mem_append.1 hr with hr | hr
    · exact Nat.lt_succ_of_lt (t.fresh r hr)
    · rw [List.mem_singleton.1 hr]
      exact Nat.lt_succ_self _

end AuditTable

/-- `(param IS NULL OR col = param)`: a `NULL` column equals nothing. -/
def passes (param col : Option String) : Bool :=
  match param with
  | none => true
  | some p => decide (col = some p)

namespace PostgresAuditStore

variable (db : AuditDatabase)

/-- The values of the `INSERT`, if the database takes them all. -/
def entry [UnicodeData] (record : Args) : Except Exn AuditEntry :=
  match columns record with
  | .error e => .error e
  | .ok c =>
    match db.text (.str c.event), db.text (.str c.sub), db.text (.str c.tenant), db.text c.tool, db.text c.decision,
      db.json record with
    | some (some event), some (some sub), some (some tenant), some tool, some decision, some stored =>
      .ok ⟨c.ts, event, sub, tenant, tool, decision, stored⟩
    | _, _, _, _, _, _ => .error ⟨.other, "the database refuses a value"⟩

def append [UnicodeData] (record : Args) (t : AuditTable) : Except Exn Unit × AuditTable :=
  match entry db record with
  | .error e => (.error e, t)
  | .ok entry => (.ok (), t.insert entry)

def query (q : AuditQuery) (t : AuditTable) : Except Exn (List Args) :=
  match db.text (.ofOption q.event), db.text (.ofOption q.tool), db.text (.ofOption q.sub),
    db.text (.ofOption q.tenant), db.limits q.limit with
  | some event, some tool, some sub, some tenant, true =>
    let rows := t.rows.filter fun r =>
      passes event (some r.entry.event) && passes tool r.entry.tool && passes sub (some r.entry.sub)
        && passes tenant (some r.entry.tenant)
    .ok (((rows.mergeSort fun a b => decide (b.id ≤ a.id)).take q.limit).map fun r => r.entry.record)
  | _, _, _, _, _ => .error ⟨.other, "the database refuses a value"⟩

/-- The table after these records, from empty: one that raises is not there. -/
def holding [UnicodeData] (records : List Args) : AuditTable := records.foldl (fun t r => (append db r t).2) .empty

end PostgresAuditStore

end AgentPlatform
