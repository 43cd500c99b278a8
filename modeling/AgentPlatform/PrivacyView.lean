/-
The access list of `GET /privacy/access` (`app/api/main.py`): who tried to read
personal data in a tenant.

The store is asked for the newest 500 records of the tool, and the view keeps
those whose event is an access. Other events name the same tool (a question the
agent asked, an error a backend reported), so they take up the limit:
`privacyAccess_iff` says when the view is the newest accesses all the same.
-/
import AgentPlatform.AuditFacts
import AgentPlatform.PolicyClient

namespace AgentPlatform

/-- The store `build_audit_store` picked, and what it holds. -/
inductive AuditBackend where
  | memory (store : AuditStore)
  | postgres (db : AuditDatabase) (table : AuditTable)

def AuditBackend.query (q : AuditQuery) : AuditBackend → Except Exn (List Args)
  | .memory store => .ok (store.query q)
  | .postgres db table => PostgresAuditStore.query db q table

/-! ## The view -/

/-- `PII_TOOL` -/
def piiTool : String := "privacy.pii.read"

/-- `_TOOL_EVENTS` -/
def toolEvents : List String :=
  ["tool.allowed", "tool.denied", "tool.approval_required", "tool.error", "agent.refused"]

/-- The event is one of the set's. -/
def isToolEvent : Json → Bool
  | .str s => toolEvents.contains s
  | _ => false

/-- `event in _TOOL_EVENTS`: an unhashable event raises. -/
def inToolEvents (event : Json) : Except Exn Bool :=
  if unhashable event then .error ⟨.typeError, "unhashable type"⟩ else .ok (isToolEvent event)

/-- A row of the access list. -/
structure AccessRow where
  event : Json
  user : Json
  tool : Json
  decision : Json
  reason : Json
  policyVersion : Json
  ts : Json

/-- `e.get(field, default)` -/
def fieldOr (record : Args) (field : String) (default : Json) : Json := (record.get? field).getD default

/-- The row of a record. -/
def accessRow (e : Args) : AccessRow where
  event := fieldOr e "event" (.str "")
  user := fieldOr e "sub" (.str "")
  tool := fieldOr e "tool" (.str "")
  decision :=
    let decision := fieldOf e "decision"
    if decision.truthy then decision
    else if (fieldOf e "event").pyEq (.str "tool.approval_required") then .str "approval_required"
    else if (fieldOf e "event").pyEq (.str "agent.refused") then .str "refused"
    else .str ""
  reason := fieldOr e "reason" (.str "")
  policyVersion := fieldOr e "policy_version" (.str "")
  ts := fieldOr e "ts" (.int 0)

/-- The comprehension over the records found. -/
def accessRows : List Args → Except Exn (List AccessRow)
  | [] => .ok []
  | e :: found => do
    let shown ← inToolEvents (fieldOf e "event")
    let rows ← accessRows found
    return if shown then accessRow e :: rows else rows

/-- What the view asks the store for. -/
def privacyQuery (tenant : Option String) : AuditQuery :=
  { limit := 500, tool := some piiTool, tenant := some (tenant.getD "") }

/-- `privacy_access(delegation)`, its access list. -/
def privacyAccess (store : AuditBackend) (tenant : Option String) : Except Exn (List AccessRow) := do
  let found ← store.query (privacyQuery tenant)
  accessRows found

/-! ## What it should show -/

/-- The record is an access. -/
def isAccess (record : Args) : Bool := isToolEvent (fieldOf record "event")

/-- The records of the trail about the tool in a tenant, newest first. -/
def AuditBackend.about (tenant : Option String) : AuditBackend → List Args
  | .memory store => store.filter (privacyQuery tenant).matches
  | .postgres _ table =>
    (table.rows.filter fun r =>
      decide (r.entry.tool = some piiTool) && decide (r.entry.tenant = tenant.getD "")).reverse.map fun r =>
        r.entry.record

/-- The newest accesses, up to the limit. -/
def newestAccesses (store : AuditBackend) (tenant : Option String) : List AccessRow :=
  (((store.about tenant).filter isAccess).take 500).map accessRow

/-- The store takes the query. -/
def AuditBackend.Answers (tenant : Option String) : AuditBackend → Prop
  | .memory _ => True
  | .postgres db _ => PostgresAuditStore.Takes db (privacyQuery tenant)

/-- The newest records about the tool: each event can be looked up, and none of
them takes the place of an access. -/
structure NotDisplaced (records : List Args) : Prop where
  hashable : ∀ r ∈ records.take 500, unhashable (fieldOf r "event") = false
  accesses : (∀ r ∈ records.drop 500, isAccess r = false) ∨ ∀ r ∈ records.take 500, isAccess r = true

/-- The store answers the first 500 of the records about the tool. -/
theorem query_about (store : AuditBackend) (tenant : Option String) (h : store.Answers tenant) :
    store.query (privacyQuery tenant) = .ok ((store.about tenant).take 500) := by
  cases store with
  | memory store => rfl
  | postgres db table =>
    have htext : ∀ s, some s ∈ [(privacyQuery tenant).event, (privacyQuery tenant).tool, (privacyQuery tenant).sub,
        (privacyQuery tenant).tenant] → db.text (.str s) = some (some s) := fun s hs => by
      obtain ⟨c, hc⟩ := Option.isSome_iff_exists.1 (h.2 s hs)
      rw [hc, db.text_str hc]
    have hpii := htext piiTool (by simp [privacyQuery])
    have htenant := htext (tenant.getD "") (by simp [privacyQuery])
    have hascending := table.ascending.filter fun r =>
      decide (r.entry.tool = some piiTool) && decide (r.entry.tenant = tenant.getD "")
    have hsort : List.mergeSort _ (fun a b : AuditRow => decide (b.id ≤ a.id)) = _ :=
      Rows.mergeSort_descending (fun _ _ _ _ => rfl) hascending
    have hlimit : db.limits 500 = true := h.1
    simp only [AuditBackend.query, PostgresAuditStore.query, privacyQuery, Json.ofOption, db.text_null, hpii, htenant,
      hlimit, passes, Bool.true_and, Bool.and_true, Option.some.injEq, AuditBackend.about]
    rw [← hsort, ← List.map_take]

theorem query_refused {store : AuditBackend} {tenant : Option String} (h : ¬ store.Answers tenant) :
    ∀ found, store.query (privacyQuery tenant) ≠ .ok found := by
  intro found hfound
  cases store with
  | memory store => exact h trivial
  | postgres db table => exact h (PostgresAuditStore.takes_of_query hfound)

/-- The rows of the records found, unless an event cannot be looked up. -/
theorem accessRows_eq : ∀ {found : List Args}, (∀ r ∈ found, unhashable (fieldOf r "event") = false) →
    accessRows found = .ok ((found.filter isAccess).map accessRow)
  | [], _ => rfl
  | e :: found, h => by
    rw [List.forall_mem_cons] at h
    have hin : inToolEvents (fieldOf e "event") = .ok (isAccess e) := by
      rw [inToolEvents, if_neg (by simp [h.1]), isAccess]
    rw [accessRows, hin, accessRows_eq h.2]
    cases he : isAccess e <;> simp [he, bind, Except.bind, pure, Except.pure]

theorem accessRows_hashable : ∀ {found : List Args} {rows : List AccessRow}, accessRows found = .ok rows →
    ∀ r ∈ found, unhashable (fieldOf r "event") = false
  | [], _, _ => by simp
  | e :: found, rows, h => by
    rw [accessRows] at h
    cases he : unhashable (fieldOf e "event") with
    | true =>
      rw [inToolEvents, if_pos he] at h
      cases h
    | false =>
      rw [inToolEvents, if_neg (by simp [he])] at h
      cases hrows : accessRows found with
      | error err =>
        rw [hrows] at h
        cases h
      | ok rest => exact List.forall_mem_cons.2 ⟨he, accessRows_hashable hrows⟩

theorem privacyAccess_eq {store : AuditBackend} {tenant : Option String} (h : store.Answers tenant) :
    privacyAccess store tenant = accessRows ((store.about tenant).take 500) := by
  rw [privacyAccess, query_about store tenant h]
  rfl

/-- **When the view shows the newest accesses**: the store takes the query, and
no other event about the tool takes an access's place. -/
theorem privacyAccess_iff (store : AuditBackend) (tenant : Option String) :
    privacyAccess store tenant = .ok (newestAccesses store tenant) ↔
      store.Answers tenant ∧ NotDisplaced (store.about tenant) := by
  by_cases ha : store.Answers tenant
  · rw [privacyAccess_eq ha]
    by_cases hh : ∀ r ∈ (store.about tenant).take 500, unhashable (fieldOf r "event") = false
    · rw [accessRows_eq hh, Except.ok.injEq, newestAccesses, Rows.filter_take_eq_iff]
      exact ⟨fun h => ⟨ha, hh, h⟩, fun h => h.2.accesses⟩
    · exact iff_of_false (fun h => hh (accessRows_hashable h)) fun h => hh h.2.hashable
  · refine iff_of_false (fun h => ?_) fun h => ha h.1
    cases hq : store.query (privacyQuery tenant) with
    | error e =>
      rw [privacyAccess, hq] at h
      cases h
    | ok found => exact query_refused ha found hq

/-! ## The trails of the two stores -/

theorem holding_memory (records : List Args) :
    (AuditStore.holding records).length ≤ maxInMemory ∧ ∀ r ∈ AuditStore.holding records, r ∈ records := by
  induction records using List.reverseRecOn with
  | nil => exact ⟨Nat.zero_le _, fun r h => h⟩
  | append_singleton records r ih =>
    rw [AuditStore.holding, List.foldl_append]
    refine ⟨List.length_take_le .., fun x hx => ?_⟩
    rcases List.mem_cons.1 (List.mem_of_mem_take hx) with rfl | hx
    · simp
    · exact List.mem_append_left _ (ih.2 x hx)

/-- The trail in memory never holds more than the view asks for, so the view
shows every access it holds. -/
theorem privacyAccess_memory (records : List Args) (tenant : Option String)
    (h : ∀ r ∈ records, unhashable (fieldOf r "event") = false) :
    NotDisplaced ((AuditBackend.memory (AuditStore.holding records)).about tenant) := by
  obtain ⟨hlength, hmem⟩ := holding_memory records
  have hshort : ((AuditBackend.memory (AuditStore.holding records)).about tenant).length ≤ 500 :=
    (List.length_filter_le ..).trans hlength
  refine ⟨fun r hr => h r (hmem r (List.mem_filter.1 (List.mem_of_mem_take hr)).1), .inl fun r hr => ?_⟩
  rw [List.drop_eq_nil_of_le hshort] at hr
  cases hr

variable [UnicodeData]

/-- The trail in the database, after these records. -/
theorem about_holding (db : AuditDatabase) (records : List Args) (tenant : Option String) :
    (AuditBackend.postgres db (PostgresAuditStore.holding db records)).about tenant =
      (records.reverse.filterMap (PostgresAuditStore.shown db (privacyQuery tenant))).map AuditEntry.record := by
  have hselects : ∀ e : AuditEntry, (privacyQuery tenant).selects e =
      (decide (e.tool = some piiTool) && decide (e.tenant = tenant.getD "")) := fun e => by
    simp [AuditQuery.selects, privacyQuery, passes]
  have hentries : ((PostgresAuditStore.holding db records).rows.filter fun r =>
      decide (r.entry.tool = some piiTool) && decide (r.entry.tenant = tenant.getD "")).map AuditRow.entry =
      records.filterMap (PostgresAuditStore.shown db (privacyQuery tenant)) := by
    show _ = records.filterMap fun r => (PostgresAuditStore.entry db r).toOption.filter (privacyQuery tenant).selects
    rw [← List.filter_filterMap, ← PostgresAuditStore.holding_entries, List.filter_map]
    simp only [Function.comp_def, hselects]
  rw [List.filterMap_reverse, ← hentries, ← List.map_reverse, List.map_map]
  rfl

omit [UnicodeData] in
def allowedRead : Args :=
  Dict.ofList [("event", .str "tool.allowed"), ("tenant", .str "acme"), ("tool", .str piiTool)]

omit [UnicodeData] in
def askedRead : Args :=
  Dict.ofList [("event", .str "agent.clarification_requested"), ("tenant", .str "acme"), ("tool", .str piiTool)]

omit [UnicodeData] in
/-- One access, then 500 questions about the same tool: the view is empty. -/
theorem privacyAccess_displaced : ¬ ∀ (_ : UnicodeData) (db : AuditDatabase) (records : List Args)
    (tenant : Option String), let store := AuditBackend.postgres db (PostgresAuditStore.holding db records)
    privacyAccess store tenant = .ok (newestAccesses store tenant) := by
  intro h
  let _ := asciiData
  let found : Args → Option Args := fun r =>
    (PostgresAuditStore.shown plainDatabase (privacyQuery (some "acme")) r).map AuditEntry.record
  have hallowed : found allowedRead = some allowedRead := by rfl
  have hasked : found askedRead = some askedRead := by rfl
  let store := AuditBackend.postgres plainDatabase (PostgresAuditStore.holding plainDatabase
    (allowedRead :: List.replicate 500 askedRead))
  have habout : store.about (some "acme") = List.replicate 500 askedRead ++ [allowedRead] := by
    rw [about_holding, List.map_filterMap, List.reverse_cons, List.reverse_replicate, List.filterMap_append]
    refine congrArg₂ (· ++ ·) (?_ : List.filterMap found _ = _) (?_ : List.filterMap found _ = _)
    · rw [List.filterMap_replicate_of_some hasked]
    · rw [List.filterMap_cons_some hallowed, List.filterMap_nil]
  have hanswers : store.Answers (some "acme") := by
    refine ⟨rfl, fun s hs => ?_⟩
    simp only [privacyQuery, List.mem_cons, Option.some.injEq, reduceCtorEq, List.not_mem_nil, or_false, false_or] at hs
    rcases hs with rfl | rfl <;> rfl
  have hview := h asciiData plainDatabase (allowedRead :: List.replicate 500 askedRead) (some "acme")
  have htake : (store.about (some "acme")).take 500 = List.replicate 500 askedRead := by
    rw [habout, List.take_left' (List.length_replicate ..)]
  have hhash : ∀ r ∈ List.replicate 500 askedRead, unhashable (fieldOf r "event") = false := fun r hr =>
    List.eq_of_mem_replicate hr ▸ rfl
  have hnone : (List.replicate 500 askedRead).filter isAccess = [] :=
    List.filter_eq_nil_iff.2 fun r hr => List.eq_of_mem_replicate hr ▸ (by decide)
  have hone : newestAccesses store (some "acme") = [accessRow allowedRead] := by
    rw [newestAccesses, habout, List.filter_append, hnone]
    rfl
  have hempty : privacyAccess store (some "acme") = .ok [] := by
    rw [privacyAccess_eq hanswers, htake, accessRows_eq hhash, hnone]
    rfl
  cases (hempty.symm.trans hview).trans (congrArg Except.ok hone)

end AgentPlatform
