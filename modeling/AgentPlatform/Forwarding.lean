/-
Forwarding the audit records (`app/common/audit_forward.py`): each service
writes its records to stdout, and a copy of each goes to the API, by a queue
that holds a thousand and one thread that posts.

The services, their threads and the API run in any order: a thread writes a
record and queues it later, the worker takes one and posts it later, and the API
answers requests of anyone in between. A post may not get through, and what the
API answers is not looked at, also when its store raises. `accounted` is where
every record is.
-/
import AgentPlatform.ApiDenylist
import AgentPlatform.Channel

namespace AgentPlatform

namespace Forwarding

/-! ## The services -/

/-- `_queue.maxsize` -/
def maxsize : Nat := 1000

/-- A service: whether its records are forwarded, and those on their way. -/
structure Process (θ : Type) where
  started : Bool := false
  channel : Channel θ Args := {}

inductive Event (ι θ : Type) where
  /-- `enable_forwarding()` in a service, with what `AUDIT_URL` is, empty where it is not set -/
  | enable (i : ι) (url : String)
  /-- A thread of a service writes a record to stdout. -/
  | audit (i : ι) (thread : θ) (record : Args)
  /-- The thread puts it in the queue, or drops it. -/
  | put (i : ι) (thread : θ)
  /-- The worker takes the next record. -/
  | take (i : ι)
  /-- Its post gets to the API, from this caller, or does not. -/
  | post (i : ι) (caller : Option Api.Caller)
  /-- Any request to the API -/
  | request (req : Api.Request)

structure Outcome (θ : Type) where
  /-- What a service wrote to stdout. -/
  stdout : Option Args := none
  effect : Channel.Effect θ Args := .none
  /-- What the API did with a request, and answered. -/
  reply : Option Api.Reply := none

structure State (σ δ ι θ : Type) where
  processes : ι → Process θ
  api : Api.State σ δ

section Model

variable {σ δ ι θ : Type} [UnicodeData] [DecidableEq ι] [DecidableEq θ] (g : Api.Gates)
  (approvals : Machine σ StoreOp StoreAnswer) (revocations : Machine δ RevocationOp RevocationAnswer)

/-- `enable_forwarding()` -/
def enable (url : String) (p : Process θ) : Process θ := if url = "" ∨ p.started then p else { p with started := true }

/-- What a move of a service's channel does. -/
def move (i : ι) (m : Channel.Move θ Args) (s : State σ δ ι θ) : Channel.Effect θ Args × State σ δ ι θ :=
  let (effect, channel) := Channel.step maxsize m (s.processes i).channel
  (effect, { s with processes := Function.update s.processes i { s.processes i with channel } })

/-- `sink(record)`, up to the queue; a thread that has a record to put is still in the sink. -/
def audit (i : ι) (thread : θ) (record : Args) (s : State σ δ ι θ) : Outcome θ × State σ δ ι θ :=
  if (s.processes i).started then
    match move i (.offer thread record) s with
    | (.offered thread record, s) => ({ stdout := some record, effect := .offered thread record }, s)
    | (effect, s) => ({ effect }, s)
  else ({ stdout := some record }, s)

/-- `_post(url, record)` of the record the worker has, and the end of its turn. -/
def post (i : ι) (caller : Option Api.Caller) (s : State σ δ ι θ) : Outcome θ × State σ δ ι θ :=
  match move i .finish s, caller with
  | (.finished record, s), some c =>
    let (reply, api) := Api.handle g approvals revocations ⟨c, .ingestAudit record⟩ s.api
    ({ effect := .finished record, reply := some reply }, { s with api })
  | (effect, s), _ => ({ effect }, s)

def step (e : Event ι θ) (s : State σ δ ι θ) : Outcome θ × State σ δ ι θ :=
  match e with
  | .enable i url => ({}, { s with processes := Function.update s.processes i (enable url (s.processes i)) })
  | .audit i thread record => audit i thread record s
  | .put i thread =>
    let (effect, s) := move i (.put thread) s
    ({ effect }, s)
  | .take i =>
    let (effect, s) := move i .take s
    ({ effect }, s)
  | .post i caller => post g approvals revocations i caller s
  | .request req =>
    let (reply, api) := Api.handle g approvals revocations req s.api
    ({ reply := some reply }, { s with api })

/-- `build_audit_store()`, over a database that is empty -/
def buildAuditStore : Option AuditDatabase → AuditBackend
  | none => .memory []
  | some db => .postgres db .empty

/-- The services and the API, whose trail is in memory or in the database. -/
def platform (db : Option AuditDatabase) : Machine (State σ δ ι θ) (Event ι θ) (Outcome θ) where
  init := ⟨fun _ => {}, ⟨approvals.init, revocations.init, buildAuditStore db⟩⟩
  step := step g approvals revocations

end Model

/-! ## What a request leaves in the trail -/

section Trail

variable {σ δ : Type} [UnicodeData] (g : Api.Gates) (approvals : Machine σ StoreOp StoreAnswer)
  (revocations : Machine δ RevocationOp RevocationAnswer)

/-- The record a request gives the trail, if it is let in and the store does not raise. -/
def ingested (req : Api.Request) (s : Api.State σ δ) : Option Args :=
  match req.route with
  | .ingestAudit record =>
    if Api.letsIn g revocations [Workload.agent, Workload.tools] req.caller s ∧ (Api.append record s.trail).1.isOk then
      some record
    else none
  | _ => none

/-- The trail with a record that came in, if one did. -/
def grown (record : Option Args) (trail : AuditBackend) : AuditBackend :=
  match record with
  | some record => (Api.append record trail).2
  | none => trail

/-- A store that raises is as it was. -/
theorem append_raised {record : Args} {trail : AuditBackend} (h : (Api.append record trail).1.isOk = false) :
    (Api.append record trail).2 = trail := by
  cases trail with
  | memory store => cases h
  | postgres db table =>
    simp only [Api.append, PostgresAuditStore.append] at h ⊢
    cases hentry : PostgresAuditStore.entry db record with
    | error e => rfl
    | ok entry =>
      rw [hentry] at h
      cases h

theorem asWorkload_trail {allowed : List String} {c : Api.Caller} {s : Api.State σ δ}
    {rest : Api.State σ δ → Api.Reply × Api.State σ δ} :
    (Api.asWorkload g revocations allowed c s rest).2.trail =
      if Api.letsIn g revocations allowed c s then
        (rest { s with revocations := (Api.requireWorkload g revocations allowed c s.revocations).2 }).2.trail
      else s.trail := by
  unfold Api.letsIn Api.asWorkload
  rcases Api.requireWorkload g revocations allowed c s.revocations with ⟨reply | w, r⟩ <;> rfl

/-- A route for workloads that leaves the trail alone. -/
theorem asWorkload_same {allowed : List String} {c : Api.Caller} {s : Api.State σ δ}
    {rest : Api.State σ δ → Api.Reply × Api.State σ δ} (hrest : ∀ s, (rest s).2.trail = s.trail) :
    (Api.asWorkload g revocations allowed c s rest).2.trail = s.trail := by
  rw [asWorkload_trail, hrest, ite_self]

theorem asRole_trail {roles : List String} {c : Api.Caller} {s : Api.State σ δ}
    {rest : Delegation → Api.Reply × Api.State σ δ} (hrest : ∀ d, (rest d).2.trail = s.trail) :
    (Api.asRole g roles c s rest).2.trail = s.trail := by
  unfold Api.asRole
  cases Api.requireRoles g roles c with
  | error reply => rfl
  | ok d => exact hrest d

theorem asAnyone_trail {c : Api.Caller} {s : Api.State σ δ} {rest : Delegation → Api.Reply × Api.State σ δ}
    (hrest : ∀ d, (rest d).2.trail = s.trail) : (Api.asAnyone g c s rest).2.trail = s.trail := by
  unfold Api.asAnyone
  cases Api.currentDelegation g c with
  | error reply => rfl
  | ok d => exact hrest d

/-- Only an ingestion that is let in moves the trail, if its record is stored. -/
theorem handle_trail (req : Api.Request) (s : Api.State σ δ) :
    (Api.handle g approvals revocations req s).2.trail = grown (ingested g revocations req s) s.trail := by
  obtain ⟨c, route⟩ := req
  cases route with
  | ingestAudit record =>
    simp only [Api.handle, ingested]
    rw [asWorkload_trail]
    by_cases hin : Api.letsIn g revocations [Workload.agent, Workload.tools] c s = true
    · rw [if_pos hin]
      by_cases hstored : (Api.append record s.trail).1.isOk = true
      · rw [if_pos ⟨hin, hstored⟩]
        rcases happend : Api.append record s.trail with ⟨e | _, trail⟩ <;> simp only [grown, happend]
      · rw [if_neg fun h => hstored h.2]
        have hsame := append_raised (Bool.eq_false_iff.2 hstored)
        rcases happend : Api.append record s.trail with ⟨e | _, trail⟩ <;> rw [happend] at hsame <;> exact hsame
    · rw [if_neg hin, if_neg fun h => hin h.1]
      rfl
  | createApproval tool args reason hex createdAt =>
    simp only [Api.handle, ingested, grown]
    refine asAnyone_trail g fun d => asWorkload_same g revocations fun s => ?_
    split <;> rfl
  | listApprovals status =>
    simp only [Api.handle, ingested, grown]
    exact asAnyone_trail g fun d => rfl
  | verifyApproval q =>
    simp only [Api.handle, ingested, grown]
    exact asWorkload_same g revocations fun s => rfl
  | decideApproval id approved note decidedAt =>
    simp only [Api.handle, ingested, grown]
    refine asRole_trail g fun d => ?_
    split <;> rfl
  | listRevoked =>
    simp only [Api.handle, ingested, grown]
    exact asWorkload_same g revocations fun s => rfl
  | listRevokedAdmin =>
    simp only [Api.handle, ingested, grown]
    exact asRole_trail g fun d => rfl
  | revokeWorkload spiffeId reason revokedAt =>
    simp only [Api.handle, ingested, grown]
    refine asRole_trail g fun d => ?_
    split <;> rfl
  | restoreWorkload spiffeId =>
    simp only [Api.handle, ingested, grown]
    refine asRole_trail g fun d => ?_
    split <;> rfl
  | getAudit limit event tool sub =>
    simp only [Api.handle, ingested, grown]
    exact asAnyone_trail g fun d => rfl
  | privacyAccess =>
    simp only [Api.handle, ingested, grown]
    refine asRole_trail g fun d => ?_
    unfold Api.privacyView
    split <;> rfl

end Trail

/-! ## Where every record is -/

section Accounts

variable {σ δ ι θ : Type} [UnicodeData] [DecidableEq ι] [DecidableEq θ] (g : Api.Gates)
  (approvals : Machine σ StoreOp StoreAnswer) (revocations : Machine δ RevocationOp RevocationAnswer)

abbrev History (σ δ ι θ : Type) := List (Transition (State σ δ ι θ) (Event ι θ) (Outcome θ))

/-- The service an event happens in. -/
def Event.service : Event ι θ → Option ι
  | .enable i _ => some i
  | .audit i _ _ => some i
  | .put i _ => some i
  | .take i => some i
  | .post i _ => some i
  | .request _ => none

/-- What an event does to the channel of a service. -/
def effectOn (i : ι) (t : Transition (State σ δ ι θ) (Event ι θ) (Outcome θ)) : Channel.Effect θ Args :=
  if t.input.service = some i then t.output.effect else .none

/-- The record that an event gives the trail. -/
def arrival (t : Transition (State σ δ ι θ) (Event ι θ) (Outcome θ)) : Option Args :=
  match t.input with
  | .request req => ingested g revocations req t.pre.api
  | .post _ (some c) =>
    t.output.effect.finish.bind fun record => ingested g revocations ⟨c, .ingestAudit record⟩ t.pre.api
  | _ => none

/-- What an event wrote to the stdout of a service whose records are forwarded. -/
def writtenAt (i : ι) (t : Transition (State σ δ ι θ) (Event ι θ) (Outcome θ)) : Option Args :=
  if t.input.service = some i ∧ (t.pre.processes i).started = true then t.output.stdout else none

def written (i : ι) (h : History σ δ ι θ) : List Args := h.filterMap (writtenAt i)

/-- What its threads have to put. -/
def offered (i : ι) (h : History σ δ ι θ) : List (θ × Args) := h.filterMap fun t => (effectOn i t).offer

/-- What its threads put, whether there was room or not. -/
def put (i : ι) (h : History σ δ ι θ) : List (θ × Args) := h.filterMap fun t => (effectOn i t).put

def queued (i : ι) (h : History σ δ ι θ) : List Args := h.filterMap fun t => (effectOn i t).enqueue

/-- What found the queue full. -/
def dropped (i : ι) (h : History σ δ ι θ) : List Args := h.filterMap fun t => (effectOn i t).drop

/-- What the worker is done with. -/
def posted (i : ι) (h : History σ δ ι θ) : List Args := h.filterMap fun t => (effectOn i t).finish

/-- What came into the trail, in order. -/
def arrivals (h : History σ δ ι θ) : List Args := h.filterMap (arrival g revocations)

/-- What of the service came into the trail. -/
def keptAt (i : ι) (t : Transition (State σ δ ι θ) (Event ι θ) (Outcome θ)) : Option Args :=
  if t.input.service = some i then arrival g revocations t else none

def kept (i : ι) (h : History σ δ ι θ) : List Args := h.filterMap (keptAt g revocations i)

/-- What its worker is done with and the trail did not take: the post did not get
through, or was refused, or the store raised. -/
def lost (i : ι) (h : History σ δ ι θ) : List Args :=
  h.filterMap fun t => if (keptAt g revocations i t).isSome then none else (effectOn i t).finish

/-- The trail these records came into: the deque has the newest of them, the table a row of each. -/
def Holds (records : List Args) : Option AuditDatabase → AuditBackend → Prop
  | none, trail => trail = .memory (records.reverse.take maxInMemory)
  | some db, trail => ∃ table, trail = .postgres db table ∧
      List.Forall₂ (fun record row => PostgresAuditStore.entry db record = .ok row.entry) records table.rows

/-- Where the records of a service are. -/
structure Accounted (h : History σ δ ι θ) (i : ι) (c : Channel θ Args) : Prop where
  /-- What is on stdout came into the trail once, or is lost, or dropped, or on its way. -/
  conserved : (written i h).Perm (kept g revocations i h ++ lost g revocations i h ++ dropped i h ++ c.contents)
  arrived : (kept g revocations i h).Sublist (arrivals g revocations h)
  /-- They are posted in the order they were queued in. -/
  inOrder : queued i h = posted i h ++ c.line
  /-- Each thread puts what it wrote, in its order. -/
  stdout : written i h = (offered i h).map Prod.snd
  byThread : ∀ thread, (offered i h).filter (fun p => p.1 = thread) =
    (put i h).filter (fun p => p.1 = thread) ++ c.pendingOf thread
  room : c.queue.length ≤ maxsize

omit [DecidableEq ι] [DecidableEq θ] in
theorem ingested_stored {req : Api.Request} {s : Api.State σ δ} {record : Args}
    (h : ingested g revocations req s = some record) :
    req.route = .ingestAudit record ∧ (Api.append record s.trail).1.isOk = true := by
  obtain ⟨c, route⟩ := req
  unfold ingested at h
  split at h
  next record' hroute =>
    split at h
    next hstored =>
      cases h
      exact ⟨hroute, hstored.2⟩
    next => cases h
  next => cases h

omit [DecidableEq ι] [DecidableEq θ] in
/-- What came in was stored, and a post gave it if a service did. -/
theorem arrival_stored {t : Transition (State σ δ ι θ) (Event ι θ) (Outcome θ)} {record : Args}
    (h : arrival g revocations t = some record) :
    (Api.append record t.pre.api.trail).1.isOk = true ∧
      (t.input.service.isSome = true → t.output.effect.finish = some record) := by
  unfold arrival at h
  split at h
  next req hinput =>
    refine ⟨(ingested_stored g revocations h).2, fun hservice => ?_⟩
    rw [hinput] at hservice
    cases hservice
  next c hinput =>
    obtain ⟨sent, hsent, hin⟩ := Option.bind_eq_some_iff.1 h
    obtain ⟨hroute, hstored⟩ := ingested_stored g revocations hin
    cases hroute
    exact ⟨hstored, fun _ => hsent⟩
  next => cases h

omit [DecidableEq θ] in
/-- What a service's worker is done with the trail took, or it is lost. -/
theorem finish_keptAt (i : ι) (t : Transition (State σ δ ι θ) (Event ι θ) (Outcome θ)) :
    (effectOn i t).finish.toList = (keptAt g revocations i t).toList ++
      (if (keptAt g revocations i t).isSome then none else (effectOn i t).finish).toList := by
  unfold keptAt effectOn
  by_cases hservice : t.input.service = some i
  · simp only [if_pos hservice]
    cases harrival : arrival g revocations t with
    | none => rfl
    | some record =>
      rw [(arrival_stored g revocations harrival).2 (by rw [hservice]; rfl)]
      rfl
  · simp only [if_neg hservice]
    rfl

omit [DecidableEq θ] in
theorem kept_sublist (i : ι) (h : History σ δ ι θ) :
    (kept g revocations i h).Sublist (arrivals g revocations h) := by
  induction h with
  | nil => exact .slnil
  | cons t h ih =>
    simp only [kept, arrivals, List.filterMap_cons, keptAt] at ih ⊢
    split_ifs
    · cases arrival g revocations t with
      | none => exact ih
      | some record => exact ih.cons_cons record
    · cases arrival g revocations t with
      | none => exact ih
      | some record => exact ih.cons record

omit [DecidableEq ι] [DecidableEq θ] in
theorem holds_nil (db : Option AuditDatabase) : Holds [] db (buildAuditStore db) := by
  cases db with
  | none => rfl
  | some db => exact ⟨.empty, rfl, .nil⟩

omit [DecidableEq ι] [DecidableEq θ] in
/-- One more record came in. -/
theorem Holds.append {db : Option AuditDatabase} {records : List Args} {trail : AuditBackend}
    (h : Holds records db trail) {record : Args} (hstored : (Api.append record trail).1.isOk = true) :
    Holds (records ++ [record]) db (Api.append record trail).2 := by
  cases db with
  | none =>
    obtain rfl : trail = .memory (records.reverse.take maxInMemory) := h
    show AuditBackend.memory ((record :: records.reverse.take maxInMemory).take maxInMemory) =
      .memory ((records ++ [record]).reverse.take maxInMemory)
    rw [List.reverse_append, List.reverse_singleton, List.singleton_append, maxInMemory, List.take_succ_cons,
      List.take_succ_cons, List.take_take, Nat.min_eq_left (Nat.le_succ _)]
  | some db =>
    obtain ⟨table, rfl, hrows⟩ := h
    simp only [Api.append, PostgresAuditStore.append] at hstored ⊢
    cases hentry : PostgresAuditStore.entry db record with
    | error e =>
      rw [hentry] at hstored
      cases hstored
    | ok entry => exact ⟨_, rfl, List.rel_append hrows (.cons hentry .nil)⟩

omit [UnicodeData] in
theorem move_moves (i : ι) (m : Channel.Move θ Args) (s : State σ δ ι θ) :
    Channel.Moves maxsize (s.processes i).channel (move i m s).1 ((move i m s).2.processes i).channel := by
  have hmoves := Channel.step_moves maxsize m (s.processes i).channel
  simpa only [move, Function.update_self] using hmoves

omit [UnicodeData] in
theorem move_other {i j : ι} (hne : i ≠ j) (m : Channel.Move θ Args) (s : State σ δ ι θ) :
    ((move j m s).2.processes i) = s.processes i := Function.update_of_ne hne ..

theorem post_processes (i j : ι) (caller : Option Api.Caller) (s : State σ δ ι θ) :
    (post g approvals revocations j caller s).1.effect = (move j .finish s).1 ∧
      (post g approvals revocations j caller s).2.processes i = (move j .finish s).2.processes i := by
  unfold post
  rcases move j .finish s with ⟨effect, s'⟩
  cases caller <;> cases effect <;> exact ⟨rfl, rfl⟩

omit [UnicodeData] in
theorem audit_processes (i j : ι) (thread : θ) (record : Args) (s : State σ δ ι θ) :
    ((audit j thread record s).1.effect = .none ∧ (audit j thread record s).2 = s) ∨
      ((audit j thread record s).1.effect = (move j (.offer thread record) s).1 ∧
        (audit j thread record s).2.processes i = (move j (.offer thread record) s).2.processes i) := by
  unfold audit
  split
  · rcases move j (.offer thread record) s with ⟨effect, s'⟩
    cases effect <;> exact .inr ⟨rfl, rfl⟩
  · exact .inl ⟨rfl, rfl⟩

omit [UnicodeData] in
theorem audit_api (j : ι) (thread : θ) (record : Args) (s : State σ δ ι θ) :
    (audit j thread record s).2.api = s.api := by
  have hapi : (move j (.offer thread record) s).2.api = s.api := rfl
  unfold audit
  split
  · rcases hmove : move j (.offer thread record) s with ⟨effect, s'⟩
    rw [hmove] at hapi
    cases effect <;> exact hapi
  · rfl

/-- A post gives the trail the record, if it gets through and is let in. -/
theorem post_trail (i : ι) (caller : Option Api.Caller) (s : State σ δ ι θ) :
    (post g approvals revocations i caller s).2.api.trail =
      grown (caller.bind fun c => (move i .finish s).1.finish.bind fun record =>
        ingested g revocations ⟨c, .ingestAudit record⟩ s.api) s.api.trail := by
  have hapi : (move i .finish s).2.api = s.api := rfl
  unfold post
  rcases hmove : move i .finish s with ⟨effect, s'⟩
  rw [hmove] at hapi
  cases caller with
  | none =>
    rw [← hapi]
    cases effect <;> rfl
  | some c =>
    rw [← hapi]
    cases effect with
    | finished record => exact handle_trail g approvals revocations ⟨c, .ingestAudit record⟩ s'.api
    | _ => rfl

theorem effectOn_enable (db : Option AuditDatabase) (i j : ι) (url : String) (s : State σ δ ι θ) :
    effectOn i ((platform g approvals revocations db).transition s (.enable j url)) = .none := ite_self ..

/-- What an event does to the channel of each service. -/
theorem step_moves (db : Option AuditDatabase) (i : ι) (e : Event ι θ) (s : State σ δ ι θ) :
    Channel.Moves maxsize (s.processes i).channel
      (effectOn i ((platform g approvals revocations db).transition s e))
      (((platform g approvals revocations db).step e s).2.processes i).channel := by
  have hmove (j : ι) (m : Channel.Move θ Args) (effect : Channel.Effect θ Args) (p : Process θ)
      (heffect : effect = (move j m s).1) (hp : p = (move j m s).2.processes i) :
      Channel.Moves maxsize (s.processes i).channel (if some j = some i then effect else .none) p.channel := by
    by_cases hij : i = j
    · subst hij
      rw [if_pos rfl, heffect, hp]
      exact move_moves i m s
    · rw [if_neg fun h => hij (Option.some.inj h).symm, hp, move_other hij]
      exact .none _
  cases e with
  | enable j url =>
    have hsame : (Function.update s.processes j (enable url (s.processes j)) i).channel = (s.processes i).channel := by
      by_cases hij : i = j
      · subst hij
        rw [Function.update_self, enable]
        split <;> rfl
      · rw [Function.update_of_ne hij]
    rw [effectOn_enable]
    show Channel.Moves _ _ _ (Function.update s.processes j (enable url (s.processes j)) i).channel
    rw [hsame]
    exact .none _
  | audit j thread record =>
    rcases audit_processes i j thread record s with ⟨hnone, hsame⟩ | ⟨heffect, hp⟩
    · have heffect :
          effectOn i ((platform g approvals revocations db).transition s (.audit j thread record)) = .none := by
        show (if some j = some i then (audit j thread record s).1.effect else .none) = _
        rw [hnone, ite_self]
      rw [heffect]
      show Channel.Moves _ _ _ ((audit j thread record s).2.processes i).channel
      rw [hsame]
      exact .none _
    · exact hmove j (.offer thread record) _ _ heffect hp
  | put j thread => exact hmove j (.put thread) _ _ rfl rfl
  | take j => exact hmove j .take _ _ rfl rfl
  | post j caller =>
    have hpost := post_processes g approvals revocations i j caller s
    exact hmove j .finish _ _ hpost.1 hpost.2
  | request req => exact .none _

/-- What a thread has to put is on stdout. -/
theorem step_written (db : Option AuditDatabase) (i : ι) (e : Event ι θ) (s : State σ δ ι θ) :
    writtenAt i ((platform g approvals revocations db).transition s e) =
      (effectOn i ((platform g approvals revocations db).transition s e)).offer.map Prod.snd := by
  have hnone (j : ι) (m : Channel.Move θ Args) (hm : ∀ thread a, m ≠ .offer thread a) :
      (if some j = some i ∧ (s.processes i).started = true then none else none) =
        (if some j = some i then (move j m s).1 else .none).offer.map Prod.snd := by
    have hoffer : (move j m s).1.offer = none := Channel.offer_step maxsize hm _
    rw [ite_self]
    split
    · rw [hoffer]
      rfl
    · rfl
  cases e with
  | enable j url =>
    rw [effectOn_enable]
    exact ite_self ..
  | audit j thread record =>
    show (if some j = some i ∧ (s.processes i).started = true then (audit j thread record s).1.stdout else none) =
      (if some j = some i then (audit j thread record s).1.effect else .none).offer.map Prod.snd
    by_cases hij : some j = some i
    · obtain rfl : j = i := Option.some.inj hij
      simp only [true_and, if_true, audit]
      by_cases hstarted : (s.processes j).started = true
      · simp only [if_pos hstarted]
        rcases move j (.offer thread record) s with ⟨effect, s'⟩
        cases effect <;> rfl
      · simp only [if_neg hstarted]
        rfl
    · rw [if_neg (fun h => hij h.1), if_neg hij]
      rfl
  | put j thread => exact hnone j (.put thread) fun _ _ h => by cases h
  | take j => exact hnone j .take fun _ _ h => by cases h
  | post j caller =>
    have hpost := (post_processes g approvals revocations j j caller s).1
    have hstdout : (post g approvals revocations j caller s).1.stdout = none := by
      unfold post
      rcases move j .finish s with ⟨effect, s'⟩
      cases caller <;> cases effect <;> rfl
    show (if some j = some i ∧ (s.processes i).started = true then (post g approvals revocations j caller s).1.stdout
      else none) =
        (if some j = some i then (post g approvals revocations j caller s).1.effect else .none).offer.map Prod.snd
    rw [hpost, hstdout]
    exact hnone j .finish fun _ _ h => by cases h
  | request req => rfl

/-- An event gives the trail its record, and nothing else. -/
theorem step_trail (db : Option AuditDatabase) (e : Event ι θ) (s : State σ δ ι θ) :
    ((platform g approvals revocations db).step e s).2.api.trail =
      grown (arrival g revocations ((platform g approvals revocations db).transition s e)) s.api.trail := by
  cases e with
  | enable i url => rfl
  | audit i thread record =>
    show (audit i thread record s).2.api.trail = s.api.trail
    rw [audit_api]
  | put i thread => rfl
  | take i => rfl
  | post i caller =>
    refine (post_trail g approvals revocations i caller s).trans ?_
    rw [← (post_processes g approvals revocations i i caller s).1]
    cases caller <;> rfl
  | request req => exact handle_trail g approvals revocations req s.api

omit [UnicodeData] [DecidableEq ι] [DecidableEq θ] in
theorem filterMap_one {α β : Type} (f : α → Option β) (a : α) : [a].filterMap f = (f a).toList := by
  cases h : f a <;> simp [h]

variable {g revocations} in
/-- One more event, by what it did. -/
theorem Accounted.concat {h : History σ δ ι θ} {i : ι} {c c' : Channel θ Args} (hc : Accounted g revocations h i c)
    {t : Transition (State σ δ ι θ) (Event ι θ) (Outcome θ)} (hmoves : Channel.Moves maxsize c (effectOn i t) c')
    (hwritten : writtenAt i t = (effectOn i t).offer.map Prod.snd) : Accounted g revocations (h ++ [t]) i c' where
  conserved := by
    classical
    have hbefore := hc.conserved
    have hstep := hmoves.contents
    have hsplit := finish_keptAt g revocations i t
    simp only [written, kept, lost, dropped, List.filterMap_append, filterMap_one, hwritten, Option.toList_map]
      at hbefore hstep ⊢
    rw [hsplit] at hstep
    rw [List.perm_iff_count] at hbefore hstep ⊢
    intro a
    replace hbefore := hbefore a
    replace hstep := hstep a
    simp only [List.count_append] at hbefore hstep ⊢
    omega
  arrived := kept_sublist g revocations i _
  inOrder := by
    have hstep := hmoves.line
    rw [queued, posted, List.filterMap_append, List.filterMap_append, filterMap_one, filterMap_one, ← queued, ← posted,
      hc.inOrder, List.append_assoc, List.append_assoc, hstep]
  stdout := by
    rw [written, offered, List.filterMap_append, List.filterMap_append, filterMap_one, filterMap_one, ← written,
      ← offered, hc.stdout, hwritten, List.map_append, Option.toList_map]
  byThread thread := by
    have hstep := hmoves.pendingOf thread
    rw [offered, put, List.filterMap_append, List.filterMap_append, filterMap_one, filterMap_one, ← offered, ← put,
      List.filter_append, List.filter_append, hc.byThread, List.append_assoc, List.append_assoc, hstep]
  room := hmoves.length_queue hc.room

/-- **Where every record is.** In every interleaving of the services' threads,
their workers, posts that fail and the requests of anyone: what a service wrote to
stdout since it forwards came into the trail once, or is lost in a post, or dropped
at a full queue, or on its way; and the trail holds what came in, in order, of which
the one in memory has the newest. -/
theorem accounted (db : Option AuditDatabase) (events : List (Event ι θ)) :
    (∀ i, Accounted g revocations ((platform g approvals revocations db).run events) i
      (((platform g approvals revocations db).final events).processes i).channel) ∧
    Holds (arrivals g revocations ((platform g approvals revocations db).run events)) db
      ((platform g approvals revocations db).final events).api.trail := by
  refine Machine.history_rule (m := platform g approvals revocations db) (G := fun _ => True)
    (P := fun h s => (∀ i, Accounted g revocations h i (s.processes i).channel) ∧
      Holds (arrivals g revocations h) db s.api.trail)
    ⟨fun i => ⟨.nil, .slnil, rfl, rfl, fun _ => rfl, Nat.zero_le _⟩, holds_nil db⟩ ?_ events fun _ _ => trivial
  rintro h s e ⟨hservices, htrail⟩ -
  refine ⟨fun i => (hservices i).concat (step_moves g approvals revocations db i e s)
    (step_written g approvals revocations db i e s), ?_⟩
  rw [step_trail, arrivals, List.filterMap_append, filterMap_one]
  cases harrival : arrival g revocations ((platform g approvals revocations db).transition s e) with
  | none => rwa [Option.toList_none, List.append_nil]
  | some record => exact htrail.append (arrival_stored g revocations harrival).1

end Accounts

end Forwarding

end AgentPlatform
