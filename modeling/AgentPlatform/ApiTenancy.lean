/-
Tenants of one API do not see each other.

A person's request is about the tenant of their token, a tool server's about the
tenant it names, a forwarded audit record about the tenant it is stored under;
the denylist belongs to no tenant, and everyone is under it.

`tenants_apart`: over the database, what a tenant's requests are answered, in
any run, is what they would have been answered had no other tenant asked for
anything (`Machine.unseen_of`).
-/
import AgentPlatform.ApiDenylist

namespace AgentPlatform

/-! ## The approvals of a tenant -/

/-- The tenant an operation is for. -/
def StoreOp.tenant : StoreOp → Option String
  | .create n => some n.tenant
  | .decide d => some d.tenant
  | .get _ tenant => some tenant
  | .pending tenant => some tenant
  | .pendingCount => none
  | .all tenant => some tenant
  | .verify q => some q.tenant

/-- The tables hold the same approvals of the tenant, and the second no
identifier that the first lacks. -/
structure Table.SameFor (tenant : String) (t t' : Table) : Prop where
  rows : (t.rows.filter fun r => decide (r.tenant = tenant)) = t'.rows.filter fun r => decide (r.tenant = tenant)
  ids : ∀ id, id ∈ t'.rows.map Approval.id → id ∈ t.rows.map Approval.id

/-- An update that keeps tenants updates each tenant's rows. -/
theorem Table.filter_update {t : Table} {tenant : String} {cond : Approval → Bool} {set : Approval → Approval}
    (hset : ∀ r, (set r).id = r.id) (htenant : ∀ r, (set r).tenant = r.tenant) :
    ((t.update cond set hset).2.rows.filter fun r => decide (r.tenant = tenant)) =
      (t.rows.filter fun r => decide (r.tenant = tenant)).map fun r => if cond r then set r else r := by
  have hkept : (fun r : Approval => decide (r.tenant = tenant)) ∘ (fun r => if cond r then set r else r) =
      fun r => decide (r.tenant = tenant) := by
    funext r
    cases hr : cond r <;> simp [hr, htenant]
  simp only [Table.update, List.filter_map, hkept]

theorem Table.ids_update {t : Table} {cond : Approval → Bool} {set : Approval → Approval}
    {hset : ∀ r, (set r).id = r.id} : (t.update cond set hset).2.rows.map Approval.id = t.rows.map Approval.id := by
  have hids : Approval.id ∘ (fun r => if cond r then set r else r) = Approval.id := by
    funext r
    cases hr : cond r <;> simp [hr, hset]
  simp only [Table.update, List.map_map, hids]

namespace Table.SameFor

variable {tenant : String} {t t' : Table} (h : t.SameFor tenant t')
include h

theorem select {cond : Approval → Bool} (hcond : ∀ r, cond r = true → r.tenant = tenant) :
    t.select cond = t'.select cond := by
  have hboth (rows : List Approval) :
      rows.filter cond = (rows.filter fun r => decide (r.tenant = tenant)).filter cond := by
    rw [List.filter_filter]
    refine List.filter_congr fun r _ => ?_
    cases hr : cond r with
    | true => simp [hcond r hr]
    | false => rfl
  rw [Table.select, Table.select, hboth t.rows, hboth t'.rows, h.rows]

theorem update {cond : Approval → Bool} {set : Approval → Approval} (hset : ∀ r, (set r).id = r.id)
    (htenant : ∀ r, (set r).tenant = r.tenant) :
    (t.update cond set hset).2.SameFor tenant (t'.update cond set hset).2 where
  rows := by rw [Table.filter_update hset htenant, Table.filter_update hset htenant, h.rows]
  ids := by
    rw [Table.ids_update, Table.ids_update]
    exact h.ids

/-- An update of other tenants' rows. -/
theorem update_other {cond : Approval → Bool} {set : Approval → Approval} (hset : ∀ r, (set r).id = r.id)
    (htenant : ∀ r, (set r).tenant = r.tenant) (hcond : ∀ r, cond r = true → r.tenant ≠ tenant) :
    (t.update cond set hset).2.SameFor tenant t' where
  rows := by
    rw [Table.filter_update hset htenant, ← h.rows]
    refine (List.map_congr_left fun r hr => ?_).trans (List.map_id _)
    refine if_neg fun hr' => hcond r hr' (of_decide_eq_true (List.mem_filter.1 hr).2)
  ids := by
    rw [Table.ids_update]
    exact h.ids

theorem insert {row : Approval} (hnew : row.id ∉ t.rows.map Approval.id) :
    ∃ u u', t.insert row = some u ∧ t'.insert row = some u' ∧ u.SameFor tenant u' := by
  have hnew' : row.id ∉ t'.rows.map Approval.id := fun hin => hnew (h.ids _ hin)
  refine ⟨_, _, dif_neg hnew, dif_neg hnew', ?_, fun id hid => ?_⟩
  · simp only [List.filter_append, h.rows]
  · simp only [List.map_append, List.mem_append] at hid ⊢
    exact hid.imp_left (h.ids id)

theorem insert_other {row : Approval} {u : Table} (hinsert : t.insert row = some u) (hrow : row.tenant ≠ tenant) :
    u.SameFor tenant t' := by
  simp only [Table.insert] at hinsert
  split at hinsert
  · cases hinsert
  · cases hinsert
    refine ⟨?_, fun id hid => ?_⟩
    · simp only [List.filter_append, h.rows]
      simp [hrow]
    · simp only [List.map_append, List.mem_append]
      exact .inl (h.ids id hid)

/-- An operation of the tenant is answered alike, on identifiers that are new. -/
theorem run_alike (jsonb : Args → Option Args) (op : StoreOp) (hop : op.tenant = some tenant)
    (hnew : ∀ n, op = .create n → n.id ∉ t.rows.map Approval.id) :
    (PostgresApprovalStore.run jsonb op t).1 = (PostgresApprovalStore.run jsonb op t').1 ∧
      (PostgresApprovalStore.run jsonb op t).2.SameFor tenant (PostgresApprovalStore.run jsonb op t').2 := by
  cases op with
  | create n =>
    simp only [PostgresApprovalStore.run, PostgresApprovalStore.create]
    cases jsonb n.approval.args with
    | none => exact ⟨rfl, h⟩
    | some stored =>
      have hrow : ({ n.approval with args := stored } : Approval).id ∉ t.rows.map Approval.id := hnew n rfl
      obtain ⟨u, u', hu, hu', hsame⟩ := h.insert hrow
      simp only [hu, hu', true_and]
      exact hsame
  | decide d =>
    have htenant : d.tenant = tenant := Option.some.inj hop
    refine ⟨?_, h.update d.apply_id fun _ => rfl⟩
    simp only [PostgresApprovalStore.run, PostgresApprovalStore.decide, Table.update]
    exact congrArg (fun l : List Approval => StoreAnswer.found (l.map d.apply).head?)
      (h.select fun r hr => (of_decide_eq_true hr).2.2.1.trans htenant)
  | get id tenant' =>
    obtain rfl : tenant' = tenant := Option.some.inj hop
    refine ⟨?_, h⟩
    simp only [PostgresApprovalStore.run, PostgresApprovalStore.get]
    rw [h.select fun r hr => (of_decide_eq_true hr).2]
  | pending tenant' =>
    obtain rfl : tenant' = tenant := Option.some.inj hop
    refine ⟨?_, h⟩
    simp only [PostgresApprovalStore.run, PostgresApprovalStore.pending]
    rw [h.select fun r hr => (of_decide_eq_true hr).2]
  | pendingCount => cases hop
  | all tenant' =>
    obtain rfl : tenant' = tenant := Option.some.inj hop
    refine ⟨?_, h⟩
    simp only [PostgresApprovalStore.run, PostgresApprovalStore.all]
    rw [h.select fun r hr => of_decide_eq_true hr]
  | verify q =>
    obtain rfl : q.tenant = tenant := Option.some.inj hop
    refine ⟨?_, h⟩
    simp only [PostgresApprovalStore.run, PostgresApprovalStore.verify, PostgresApprovalStore.get]
    rw [h.select fun r hr => (of_decide_eq_true hr).2]

theorem step_alike (db : ApprovalDatabase) (op : StoreOp) (hop : op.tenant = some tenant)
    (hnew : ∀ n, op = .create n → n.id ∉ t.rows.map Approval.id) :
    ((postgresStore db).step op t).1 = ((postgresStore db).step op t').1 ∧
      ((postgresStore db).step op t).2.SameFor tenant ((postgresStore db).step op t').2 := by
  simp only [postgresStore]
  split
  · exact h.run_alike db.jsonb op hop hnew
  · exact ⟨rfl, h⟩

/-- An operation of another tenant is not seen. -/
theorem step_other (db : ApprovalDatabase) (op : StoreOp) (hop : op.tenant ≠ some tenant) :
    ((postgresStore db).step op t).2.SameFor tenant t' := by
  rcases postgresStore_cases db op t with hsame | ⟨n, stored, u, rfl, -, hinsert, hs⟩ | ⟨d, rfl, hs⟩
  · rw [hsame]
    exact h
  · rw [hs]
    exact h.insert_other hinsert fun heq => hop (congrArg some heq)
  · rw [hs]
    refine h.update_other d.apply_id (fun _ => rfl) fun r hr heq => hop (congrArg some ?_)
    exact (Ruling.selects_iff.1 hr).2.2.1.symm.trans heq

end Table.SameFor

/-! ## The trail of a tenant -/

/-- The tables hold the same entries of the tenant. -/
def AuditTable.SameFor (tenant : String) (t t' : AuditTable) : Prop :=
  ((t.rows.filter fun r => decide (r.entry.tenant = tenant)).map AuditRow.entry) =
    (t'.rows.filter fun r => decide (r.entry.tenant = tenant)).map AuditRow.entry

/-- The tenant a record is stored under. -/
def recordTenant [UnicodeData] (record : Args) : Option String :=
  (strOrEmpty (fieldOf record "tenant")).toOption

theorem columns_tenant [UnicodeData] {record : Args} {c : AuditColumns} (h : columns record = .ok c) :
    recordTenant record = some c.tenant := by
  unfold columns at h
  cases hts : floatOrZero (fieldOf record "ts") with
  | error e => simp [hts, bind, Except.bind] at h
  | ok ts =>
    cases hevent : strOrEmpty (fieldOf record "event") with
    | error e => simp [hts, hevent, bind, Except.bind] at h
    | ok event =>
      cases hsub : strOrEmpty (fieldOf record "sub") with
      | error e => simp [hts, hevent, hsub, bind, Except.bind] at h
      | ok sub =>
        cases htenant : strOrEmpty (fieldOf record "tenant") with
        | error e => simp [hts, hevent, hsub, htenant, bind, Except.bind] at h
        | ok tenant =>
          simp only [hts, hevent, hsub, htenant, bind, Except.bind, pure, Except.pure, Except.ok.injEq] at h
          rw [recordTenant, htenant, ← h]
          rfl

/-- What the database took for the tenant is the record's tenant. -/
theorem entry_tenant [UnicodeData] (db : AuditDatabase) {record : Args} {e : AuditEntry}
    (he : PostgresAuditStore.entry db record = .ok e) : recordTenant record = some e.tenant := by
  unfold PostgresAuditStore.entry at he
  cases hcolumns : columns record with
  | error exn =>
    rw [hcolumns] at he
    cases he
  | ok c =>
    rw [hcolumns] at he
    dsimp only at he
    split at he
    · rename_i tenant tool decision stored hevent hsub htenant htool hdecision hjson
      cases he
      obtain rfl : tenant = c.tenant := Option.some.inj (db.text_str htenant)
      exact columns_tenant hcolumns
    · cases he

/-- The newest entries that pass a test, by the entries alone. -/
theorem sorted_entries (t : AuditTable) (p : AuditEntry → Bool) (n : Nat) :
    (((t.rows.filter fun r => p r.entry).mergeSort fun a b => decide (b.id ≤ a.id)).take n).map
        (fun r => r.entry.record) =
      ((((t.rows.map AuditRow.entry).filter p).reverse).take n).map AuditEntry.record := by
  have hsort : (t.rows.filter fun r => p r.entry).mergeSort (fun a b => decide (b.id ≤ a.id)) =
      (t.rows.filter fun r => p r.entry).reverse :=
    Rows.mergeSort_descending (fun _ _ _ _ => rfl) (t.ascending.filter _)
  rw [hsort, List.filter_map, ← List.map_reverse, ← List.map_take, List.map_map]
  rfl

namespace AuditTable.SameFor

variable [UnicodeData] {tenant : String} {t t' : AuditTable} (h : t.SameFor tenant t') (db : AuditDatabase)
include h

theorem append_alike (record : Args) :
    (PostgresAuditStore.append db record t).1 = (PostgresAuditStore.append db record t').1 ∧
      (PostgresAuditStore.append db record t).2.SameFor tenant (PostgresAuditStore.append db record t').2 := by
  simp only [PostgresAuditStore.append]
  cases PostgresAuditStore.entry db record with
  | error e => exact ⟨rfl, h⟩
  | ok e =>
    refine ⟨rfl, ?_⟩
    simp only [AuditTable.SameFor, AuditTable.insert, List.filter_append, List.map_append] at h ⊢
    rw [h]
    by_cases he : e.tenant = tenant <;> simp [he]

theorem append_other {record : Args} (hrecord : recordTenant record ≠ some tenant) :
    (PostgresAuditStore.append db record t).2.SameFor tenant t' := by
  simp only [PostgresAuditStore.append]
  cases he : PostgresAuditStore.entry db record with
  | error e => exact h
  | ok e =>
    have hother : e.tenant ≠ tenant := fun heq => hrecord (heq ▸ entry_tenant db he)
    simp only [AuditTable.SameFor, AuditTable.insert, List.filter_append, List.map_append] at h ⊢
    rw [h]
    simp [hother]

omit [UnicodeData] in
/-- The newest entries that pass a test of the tenant's are the same. -/
theorem sorted_alike {p : AuditEntry → Bool} (hp : ∀ e, p e = true → e.tenant = tenant) (n : Nat) :
    (((t.rows.filter fun r => p r.entry).mergeSort fun a b => decide (b.id ≤ a.id)).take n).map
        (fun r => r.entry.record) =
      (((t'.rows.filter fun r => p r.entry).mergeSort fun a b => decide (b.id ≤ a.id)).take n).map
        fun r => r.entry.record := by
  have hentries (t : AuditTable) : (t.rows.map AuditRow.entry).filter p =
      ((t.rows.filter fun r => decide (r.entry.tenant = tenant)).map AuditRow.entry).filter p := by
    rw [show (fun r : AuditRow => decide (r.entry.tenant = tenant)) =
      (fun e : AuditEntry => decide (e.tenant = tenant)) ∘ AuditRow.entry from rfl, ← List.filter_map,
      List.filter_filter]
    refine List.filter_congr fun e _ => ?_
    cases he : p e with
    | true => simp [hp e he]
    | false => rfl
  rw [sorted_entries, sorted_entries, hentries t, hentries t', h]

omit [UnicodeData] in
theorem query (q : AuditQuery) (hq : q.tenant = some tenant) :
    PostgresAuditStore.query db q t = PostgresAuditStore.query db q t' := by
  unfold PostgresAuditStore.query
  split
  · rename_i event tool sub column hevent htool hsub htenant hlimit
    rw [hq] at htenant
    obtain rfl : column = some tenant := db.text_str htenant
    have hp : ∀ e : AuditEntry, (passes event (some e.event) && passes tool e.tool && passes sub (some e.sub)
        && passes (some tenant) (some e.tenant)) = true → e.tenant = tenant := fun e he =>
      Option.some.inj (of_decide_eq_true (Bool.and_eq_true_iff.1 he).2)
    exact congrArg Except.ok (h.sorted_alike hp q.limit)
  · rfl

end AuditTable.SameFor

/-! ## The requests of a tenant -/

namespace Api

/-- The tenant a request is about. -/
def tenantOf [UnicodeData] (g : Gates) (req : Request) : Option String :=
  match req.route with
  | .createApproval .. | .listApprovals _ | .decideApproval .. | .getAudit .. | .privacyAccess =>
    (currentDelegation g req.caller).toOption.map Delegation.tenantOrEmpty
  | .verifyApproval q => some q.tenant
  | .ingestAudit record => recordTenant record
  | _ => none

/-- The denylist is everyone's. -/
def toDenylist (req : Request) : Bool :=
  match req.route with
  | .listRevoked | .listRevokedAdmin | .revokeWorkload .. | .restoreWorkload _ => true
  | _ => false

/-- The request is the tenant's, or goes to what tenants share. -/
def concerns [UnicodeData] (g : Gates) (tenant : String) (req : Request) : Bool :=
  toDenylist req || decide (tenantOf g req = some tenant)

variable {δ : Type}

/-- The states are the same for the tenant. -/
structure SameFor (db : AuditDatabase) (tenant : String) (s s' : State Table δ) : Prop where
  approvals : s.approvals.SameFor tenant s'.approvals
  revocations : s.revocations = s'.revocations
  trail : ∃ t t', s.trail = .postgres db t ∧ s'.trail = .postgres db t' ∧ t.SameFor tenant t'

/-- What two requests came to is the same for the tenant. -/
def Alike (db : AuditDatabase) (tenant : String) (x x' : Reply × State Table δ) : Prop :=
  x.1 = x'.1 ∧ SameFor db tenant x.2 x'.2

section Apart

variable [UnicodeData] {g : Gates} {store : ApprovalDatabase} {db : AuditDatabase}
  {revocations : Machine δ RevocationOp RevocationAnswer} {tenant : String} {s s' : State Table δ}
  (h : SameFor db tenant s s')
include h

omit [UnicodeData] in
theorem SameFor.query (q : AuditQuery) (hq : q.tenant = some tenant) : s.trail.query q = s'.trail.query q := by
  obtain ⟨t, t', ht, ht', hsame⟩ := h.trail
  rw [ht, ht']
  exact hsame.query db q hq

theorem asWorkload_alike {allowed : List String} {c : Caller} {rest : State Table δ → Reply × State Table δ}
    (hrest : ∀ u u' : State Table δ, SameFor db tenant u u' → u.approvals = s.approvals →
      Alike db tenant (rest u) (rest u')) :
    Alike db tenant (asWorkload g revocations allowed c s rest) (asWorkload g revocations allowed c s' rest) := by
  unfold asWorkload
  rw [← h.revocations]
  rcases requireWorkload g revocations allowed c s.revocations with ⟨reply | w, r⟩
  · exact ⟨rfl, h.approvals, rfl, h.trail⟩
  · exact hrest _ _ ⟨h.approvals, rfl, h.trail⟩ rfl

theorem asRole_alike {roles : List String} {c : Caller} {rest rest' : Delegation → Reply × State Table δ}
    (hrest : ∀ d, currentDelegation g c = .ok d → Alike db tenant (rest d) (rest' d)) :
    Alike db tenant (asRole g roles c s rest) (asRole g roles c s' rest') := by
  unfold asRole
  cases hroles : requireRoles g roles c with
  | error reply => exact ⟨rfl, h⟩
  | ok d => exact hrest d (requireRoles_ok_iff.1 hroles).1

theorem asAnyone_alike {c : Caller} {rest rest' : Delegation → Reply × State Table δ}
    (hrest : ∀ d, currentDelegation g c = .ok d → Alike db tenant (rest d) (rest' d)) :
    Alike db tenant (asAnyone g c s rest) (asAnyone g c s' rest') := by
  unfold asAnyone
  cases hperson : currentDelegation g c with
  | error reply => exact ⟨rfl, h⟩
  | ok d => exact hrest d hperson

omit [UnicodeData] in
theorem onApprovals_alike {op : StoreOp} (hop : op.tenant = some tenant)
    (hnew : ∀ n, op = .create n → n.id ∉ s.approvals.rows.map Approval.id) :
    Alike db tenant (onApprovals (postgresStore store) op s) (onApprovals (postgresStore store) op s') := by
  obtain ⟨hanswer, hstate⟩ := h.approvals.step_alike store op hop hnew
  exact ⟨congrArg Reply.approvals hanswer, hstate, h.revocations, h.trail⟩

/-- A request of the tenant is answered alike, and leaves the states the same for it. -/
theorem handle_alike (req : Request) (hseen : concerns g tenant req = true)
    (hnew : ∀ id, createdBy req = some id → id ∉ s.approvals.rows.map Approval.id) :
    Alike db tenant (handle g (postgresStore store) revocations req s)
      (handle g (postgresStore store) revocations req s') := by
  have hown : toDenylist req = false → tenantOf g req = some tenant := fun hshared => by
    simpa [concerns, hshared] using hseen
  have hperson {d : Delegation} {c : Caller} (hd : currentDelegation g c = .ok d)
      (htenant : (currentDelegation g c).toOption.map Delegation.tenantOrEmpty = some tenant) :
      d.tenantOrEmpty = tenant := by
    rw [hd] at htenant
    exact Option.some.inj htenant
  obtain ⟨c, route⟩ := req
  cases route with
  | createApproval tool args reason hex createdAt =>
    simp only [handle]
    refine asAnyone_alike h fun d hd => asWorkload_alike h fun u u' hu happrovals => ?_
    split
    · exact ⟨rfl, hu⟩
    · refine onApprovals_alike hu (congrArg some (hperson hd (hown rfl))) fun n hn => ?_
      cases hn
      rw [happrovals]
      exact hnew _ rfl
  | listApprovals status =>
    simp only [handle]
    refine asAnyone_alike h fun d hd => onApprovals_alike h ?_ fun n hn => ?_
    · split <;> exact congrArg some (hperson hd (hown rfl))
    · split at hn <;> cases hn
  | verifyApproval q =>
    simp only [handle]
    exact asWorkload_alike h fun u u' hu _ => onApprovals_alike hu (hown rfl) fun n hn => (by cases hn)
  | decideApproval id approved note decidedAt =>
    simp only [handle]
    refine asRole_alike h fun d hd => ?_
    obtain ⟨hanswer, hstate⟩ := h.approvals.step_alike store
      (.decide (ruling d id approved note decidedAt)) (congrArg some (hperson hd (hown rfl))) fun n hn => (by cases hn)
    revert hanswer hstate
    rcases (postgresStore store).step (.decide (ruling d id approved note decidedAt)) s.approvals with ⟨answer, u⟩
    rcases (postgresStore store).step (.decide (ruling d id approved note decidedAt)) s'.approvals with ⟨answer', u'⟩
    intro (rfl : answer = answer') (hstate : u.SameFor tenant u')
    cases answer with
    | found o => cases o <;> exact ⟨rfl, hstate, h.revocations, h.trail⟩
    | _ => exact ⟨rfl, hstate, h.revocations, h.trail⟩
  | listRevoked =>
    simp only [handle]
    refine asWorkload_alike h fun u u' hu _ => ?_
    rw [← hu.revocations]
    exact ⟨rfl, hu.approvals, rfl, hu.trail⟩
  | listRevokedAdmin =>
    simp only [handle]
    refine asRole_alike h fun d _ => ?_
    simp only [onRevocations, ← h.revocations]
    exact ⟨rfl, h.approvals, rfl, h.trail⟩
  | revokeWorkload spiffeId reason revokedAt =>
    simp only [handle]
    refine asRole_alike h fun d _ => ?_
    split
    · exact ⟨rfl, h⟩
    · simp only [onRevocations, ← h.revocations]
      exact ⟨rfl, h.approvals, rfl, h.trail⟩
  | restoreWorkload spiffeId =>
    simp only [handle]
    refine asRole_alike h fun d _ => ?_
    split
    · exact ⟨rfl, h⟩
    · simp only [onRevocations, ← h.revocations]
      exact ⟨rfl, h.approvals, rfl, h.trail⟩
  | ingestAudit record =>
    simp only [handle]
    refine asWorkload_alike h fun u u' hu _ => ?_
    obtain ⟨t, t', ht, ht', hsame⟩ := hu.trail
    obtain ⟨hanswer, hstate⟩ := hsame.append_alike db record
    simp only [ht, ht', append]
    rcases happend : PostgresAuditStore.append db record t with ⟨result, table⟩
    rcases happend' : PostgresAuditStore.append db record t' with ⟨result', table'⟩
    rw [happend, happend'] at hanswer hstate
    obtain rfl : result = result' := hanswer
    cases result with
    | error e => exact ⟨rfl, hu.approvals, hu.revocations, table, table', rfl, rfl, hstate⟩
    | ok _ => exact ⟨rfl, hu.approvals, hu.revocations, table, table', rfl, rfl, hstate⟩
  | getAudit limit event tool sub =>
    simp only [handle]
    refine asAnyone_alike h fun d hd => ?_
    rw [h.query _ (congrArg some (hperson hd (hown rfl)))]
    exact ⟨rfl, h⟩
  | privacyAccess =>
    simp only [handle]
    refine asRole_alike h fun d hd => ?_
    have htenant := congrArg some (hperson hd (hown rfl))
    obtain ⟨hanswer, hstate⟩ :=
      h.approvals.step_alike store (.all d.tenantOrEmpty) htenant fun n hn => (by cases hn)
    have haccess : AgentPlatform.privacyAccess s.trail d.tenant = AgentPlatform.privacyAccess s'.trail d.tenant := by
      rw [AgentPlatform.privacyAccess, AgentPlatform.privacyAccess, h.query _ htenant]
    unfold privacyView
    rw [haccess]
    cases AgentPlatform.privacyAccess s'.trail d.tenant with
    | error e => exact ⟨rfl, h⟩
    | ok access =>
      dsimp only
      rw [hanswer]
      exact ⟨rfl, hstate, h.revocations, h.trail⟩

/-- A request of another tenant is not seen. -/
theorem handle_other {denied : δ → String → Prop} (D : Denies revocations denied) (req : Request)
    (hunseen : concerns g tenant req = false) :
    SameFor db tenant (handle g (postgresStore store) revocations req s).2 s' := by
  have hother : tenantOf g req ≠ some tenant := fun heq => by simp [concerns, heq] at hunseen
  have hshared : toDenylist req = false := by
    cases hreq : toDenylist req with
    | false => rfl
    | true => simp [concerns, hreq] at hunseen
  have hworkload (allowed : List String) (c : Caller) (rest : State Table δ → Reply × State Table δ)
      (hrest : SameFor db tenant (rest s).2 s') :
      SameFor db tenant (asWorkload g revocations allowed c s rest).2 s' := by
    rcases asWorkload_cases (g := g) D allowed c s rest with ⟨-, heq⟩ | ⟨-, status, detail, heq⟩
    · rw [heq]
      exact hrest
    · rw [heq]
      exact h
  have hop {op : StoreOp} (hop : op.tenant ≠ some tenant) :
      SameFor db tenant (onApprovals (postgresStore store) op s).2 s' :=
    ⟨h.approvals.step_other store _ hop, h.revocations, h.trail⟩
  have hperson {d : Delegation} {c : Caller} (hd : currentDelegation g c = .ok d)
      (htenant : (currentDelegation g c).toOption.map Delegation.tenantOrEmpty ≠ some tenant) :
      some d.tenantOrEmpty ≠ some tenant := by
    rw [hd] at htenant
    exact htenant
  obtain ⟨c, route⟩ := req
  cases route with
  | createApproval tool args reason hex createdAt =>
    simp only [handle, asAnyone]
    cases hd : currentDelegation g c with
    | error reply => exact h
    | ok d =>
      refine hworkload _ c _ ?_
      split
      · exact h
      · exact hop (hperson hd hother)
  | listApprovals status =>
    simp only [handle, asAnyone]
    cases hd : currentDelegation g c with
    | error reply => exact h
    | ok d =>
      refine hop ?_
      split <;> exact hperson hd hother
  | verifyApproval q =>
    simp only [handle]
    exact hworkload _ c _ (hop hother)
  | decideApproval id approved note decidedAt =>
    simp only [handle, asRole]
    cases hroles : requireRoles g ["manager"] c with
    | error reply => exact h
    | ok d =>
      have hstate := h.approvals.step_other store (.decide (ruling d id approved note decidedAt))
        (hperson (requireRoles_ok_iff.1 hroles).1 hother)
      dsimp only
      split
      · rename_i a heq
        rw [heq] at hstate
        exact ⟨hstate, h.revocations, h.trail⟩
      · rename_i answer a _ heq
        rw [heq] at hstate
        exact ⟨hstate, h.revocations, h.trail⟩
  | ingestAudit record =>
    simp only [handle]
    refine hworkload _ c _ ?_
    obtain ⟨t, t', ht, ht', hsame⟩ := h.trail
    have hstate := hsame.append_other db hother
    simp only [ht, append]
    rcases happend : PostgresAuditStore.append db record t with ⟨result, table⟩
    rw [happend] at hstate
    cases result <;> exact ⟨h.approvals, h.revocations, table, t', rfl, ht', hstate⟩
  | getAudit limit event tool sub =>
    simp only [handle, asAnyone]
    cases currentDelegation g c <;> exact h
  | privacyAccess =>
    simp only [handle, asRole]
    cases hroles : requireRoles g ["manager"] c with
    | error reply => exact h
    | ok d =>
      simp only [privacyView]
      cases AgentPlatform.privacyAccess s.trail d.tenant with
      | error e => exact h
      | ok access =>
        exact ⟨h.approvals.step_other store (.all d.tenantOrEmpty)
          (hperson (requireRoles_ok_iff.1 hroles).1 hother), h.revocations, h.trail⟩
  | _ => cases hshared

end Apart

section Run

variable [UnicodeData] (g : Gates) (store : ApprovalDatabase) (text : TextDatabase) (db : AuditDatabase)

/-- The API over its database. -/
abbrev deployed : Machine (State Table RevocationTable) Request Reply :=
  api g (postgresStore store) (postgresRevocations text) (.postgres db .empty)

variable {g store text db}

/-- Identifiers that are drawn once are new when they are drawn. -/
theorem new_run {is : List Request} (hids : (is.filterMap createdBy).Nodup) :
    ∀ t ∈ (deployed g store text db).run is, ∀ id, createdBy t.input = some id →
      id ∉ t.pre.approvals.rows.map Approval.id := by
  induction is using List.reverseRecOn with
  | nil => exact fun t ht => nomatch ht
  | append_singleton is req ih =>
    rw [List.filterMap_append, List.nodup_append] at hids
    intro t ht
    rw [Machine.run_concat, List.mem_append, List.mem_singleton] at ht
    rcases ht with ht | rfl
    · exact ih hids.1 t ht
    · intro id hid hin
      obtain ⟨a, ha⟩ := Option.ne_none_iff_exists'.1 fun hnone => Table.book_eq_none.1 hnone hin
      simp only [Machine.transition_pre] at ha
      rw [← (component_approvals g (postgresStore store) (postgresRevocations text) (.postgres db .empty) is).1] at ha
      have hcreated := (postgresStore_realises store).mem_createdIds _ ha
      have hdrawn := (createdIds_calls g (postgresStore store) (postgresRevocations text) (.postgres db .empty)
        is).subset hcreated
      exact hids.2.2 id hdrawn id (by simpa using hid) rfl

/-- **Tenants are apart.** Over the database, in every run whose approvals draw
new identifiers, what a tenant's requests and the denylist's are answered is what
they are answered in the run without the other tenants' requests. -/
theorem tenants_apart (tenant : String) (is : List Request) (hids : (is.filterMap createdBy).Nodup) :
    (((deployed g store text db).run is).filter fun t => concerns g tenant t.input).map Transition.output =
      ((deployed g store text db).run (is.filter (concerns g tenant))).map Transition.output := by
  refine (Machine.unseen_of (m := deployed g store text db) (R := SameFor db tenant)
    (G := fun t => ∀ id, createdBy t.input = some id → id ∉ t.pre.approvals.rows.map Approval.id)
    (concerns g tenant) ?_ ?_ is ?_ (new_run hids)).1
  · exact fun s s' req h hnew hseen => handle_alike h req hseen hnew
  · exact fun s s' req h hunseen => handle_other h (postgresRevocations_denies text) req hunseen
  · exact ⟨⟨rfl, fun _ h => h⟩, rfl, .empty, .empty, rfl, rfl, rfl⟩

end Run

/-- The refund's desk, with another tenant's manager at it: she rules on the approval,
lists and asks for one of her own, and a record of hers is forwarded. -/
def sharedDesk : List Request :=
  deskRequests.take 1 ++
    [⟨⟨1, some "Bearer gwen", none⟩, .decideApproval "ap-1" false none (F64.ofInt 1)⟩,
      ⟨⟨1, some "Bearer gwen", none⟩, .listApprovals none⟩,
      ⟨⟨1, some "Bearer gwen", some Workload.agent⟩, .createApproval "refunds.issue" ∅ "mine" "2" (F64.ofInt 1)⟩,
      ⟨⟨1, none, some Workload.tools⟩,
        .ingestAudit (Dict.ofList [("event", .str "tool.allowed"), ("tenant", .str "globex")])⟩] ++
    deskRequests.drop 1 ++
    [⟨⟨4, some "Bearer morgan", none⟩, .getAudit 10 none none none⟩,
      ⟨⟨4, some "Bearer gwen", none⟩, .privacyAccess⟩]

theorem desk_tenants_apart : let _ := asciiData
    (sharedDesk.filter (concerns deskGates "acme")).length + 5 = sharedDesk.length ∧
    (((deployed deskGates plainApprovals plainText plainDatabase).run sharedDesk).filter
        fun t => concerns deskGates "acme" t.input).map Transition.output =
      ((deployed deskGates plainApprovals plainText plainDatabase).run
        (sharedDesk.filter (concerns deskGates "acme"))).map Transition.output :=
  ⟨by decide +kernel,
    @tenants_apart asciiData deskGates plainApprovals plainText plainDatabase "acme" sharedDesk (by decide)⟩

end Api

end AgentPlatform
