/-
Who the denylist keeps out of the API.

The denylist is what was done to it: a workload is cut off from the answer to
its revocation until the answer to its restoration (`Cut`). The stores keep
that, each in its own way (`Denies`), so the gates of the API go by it from the
very next request.

`denylist_immediate`: at every moment of every run, over either store, a
workload's route lets in exactly the workloads it is for that are not cut off,
a workload kept out changes nothing, the list the other services fetch is the
workloads cut off, and administrators alone change it.
-/
import AgentPlatform.ApiFacts

namespace AgentPlatform

namespace Api

variable {σ δ : Type}

/-- What a store of the denylist owes: `ids` says who is denied, and the calls change it as they say. -/
structure Denies (m : Machine δ RevocationOp RevocationAnswer) (denied : δ → String → Prop) : Prop where
  init : ∀ id, ¬ denied m.init id
  ids : ∀ s, ∃ l, m.step .ids s = (.ids l, s) ∧ ∀ id, id ∈ l ↔ denied s id
  all : ∀ s, ∃ l, m.step .all s = (.listed l, s)
  revoke : ∀ r s, (∃ e, m.step (.revoke r) s = (.raised e, s)) ∨
    ∃ s', m.step (.revoke r) s = (.revoked r, s') ∧ ∀ id, denied s' id ↔ r.spiffeId = id ∨ denied s id
  restore : ∀ spiffeId s, (∃ e, m.step (.restore spiffeId) s = (.raised e, s)) ∨
    ∃ removed s', m.step (.restore spiffeId) s = (.restored removed, s') ∧
      ∀ id, denied s' id ↔ spiffeId ≠ id ∧ denied s id

theorem memoryRevocations_denies : Denies memoryRevocations fun s id => id ∈ s.ids where
  init id h := nomatch h
  ids s := ⟨s.ids, rfl, fun id => Iff.rfl⟩
  all s := ⟨s.all, rfl⟩
  revoke r s := by
    refine .inr ⟨_, rfl, fun id => ?_⟩
    rw [RevocationStore.ids, RevocationStore.ids, Dict.mem_keys, Dict.mem_keys, RevocationStore.revoke,
      Dict.get?_insert]
    by_cases hid : r.spiffeId = id <;> simp [hid]
  restore spiffeId s := by
    refine .inr ⟨_, _, rfl, fun id => ?_⟩
    rw [RevocationStore.ids, RevocationStore.ids, Dict.mem_keys, Dict.mem_keys, RevocationStore.restore,
      Dict.get?_erase]
    by_cases hid : spiffeId = id <;> simp [hid]

theorem postgresRevocations_denies (db : TextDatabase) :
    Denies (postgresRevocations db) fun t id => id ∈ PostgresRevocationStore.ids t where
  init id h := nomatch h
  ids t := ⟨_, rfl, fun id => Iff.rfl⟩
  all t := ⟨_, rfl⟩
  revoke r t := by
    cases htaken : db.takes r.spiffeId && db.takes r.reason && db.takes r.revokedBy with
    | true =>
      refine .inr ⟨t.upsert r, ?_, fun id => PostgresRevocationStore.mem_ids_upsert⟩
      simp only [postgresRevocations, PostgresRevocationStore.revoke, htaken, if_true]
    | false =>
      refine .inl ⟨PostgresRevocationStore.refused, ?_⟩
      simp only [postgresRevocations, PostgresRevocationStore.revoke, htaken, Bool.false_eq_true, if_false]
  restore spiffeId t := by
    cases htaken : db.takes spiffeId with
    | true =>
      refine .inr ⟨t.rows.any fun row => decide (row.spiffeId = spiffeId), t.delete spiffeId, ?_,
        fun id => PostgresRevocationStore.mem_ids_delete⟩
      simp only [postgresRevocations, PostgresRevocationStore.restore, htaken, if_true]
    | false =>
      refine .inl ⟨PostgresRevocationStore.refused, ?_⟩
      simp only [postgresRevocations, PostgresRevocationStore.restore, htaken, Bool.false_eq_true, if_false]

/-! ## The gate -/

section Gate

variable [UnicodeData] {g : Gates} {revocations : Machine δ RevocationOp RevocationAnswer} {denied : δ → String → Prop}
  (D : Denies revocations denied)
include D

omit [UnicodeData] in
theorem isRevoked_eq (id : String) (s : δ) :
    ((isRevoked revocations id s).1 = true ↔ denied s id) ∧ (isRevoked revocations id s).2 = s := by
  obtain ⟨l, hstep, hl⟩ := D.ids s
  simp only [isRevoked, hstep, and_true]
  exact decide_eq_true_iff.trans (hl id)

theorem requireWorkload_state (allowed : List String) (c : Caller) (s : δ) :
    (requireWorkload g revocations allowed c s).2 = s := by
  unfold requireWorkload Workload.verify
  split
  · rfl
  · cases Workload.subject g.svids g.audience c.now c.workloadToken with
    | error e => rfl
    | ok id =>
      rcases hrev : isRevoked revocations id s with ⟨revoked, s'⟩
      obtain rfl : s' = s := (congrArg Prod.snd hrev).symm.trans (isRevoked_eq D id s).2
      cases revoked with
      | true => simp only [hrev]
      | false =>
        simp only [hrev]
        split <;> rfl

/-- The rest of a workload's route goes on from the state the request found, or there is no rest. -/
theorem asWorkload_cases (allowed : List String) (c : Caller) (s : State σ δ) (rest : State σ δ → Reply × State σ δ) :
    (letsIn g revocations allowed c s = true ∧ asWorkload g revocations allowed c s rest = rest s) ∨
    letsIn g revocations allowed c s = false ∧
      ∃ status detail, asWorkload g revocations allowed c s rest = (.refused status detail, s) := by
  have herror : ∀ reply, (requireWorkload g revocations allowed c s.revocations).1 = .error reply →
      ∃ status detail, reply = .refused status detail := fun reply => requireWorkload_error
  have hstate := requireWorkload_state (g := g) D allowed c s.revocations
  unfold letsIn asWorkload
  rcases hgate : requireWorkload g revocations allowed c s.revocations with ⟨reply | w, r⟩
  · rw [hgate] at hstate
    obtain rfl : r = s.revocations := hstate
    obtain ⟨status, detail, rfl⟩ := herror reply (by rw [hgate])
    exact .inr ⟨rfl, status, detail, rfl⟩
  · rw [hgate] at hstate
    obtain rfl : r = s.revocations := hstate
    exact .inl ⟨rfl, rfl⟩

theorem asWorkload_of_letsIn {allowed : List String} {c : Caller} {s : State σ δ}
    (hin : letsIn g revocations allowed c s = true) (rest : State σ δ → Reply × State σ δ) :
    asWorkload g revocations allowed c s rest = rest s := by
  rcases asWorkload_cases (g := g) D allowed c s rest with ⟨-, heq⟩ | ⟨hout, -⟩
  · exact heq
  · cases hin.symm.trans hout

theorem asWorkload_of_kept_out {allowed : List String} {c : Caller} {s : State σ δ}
    (hout : letsIn g revocations allowed c s = false) (rest : State σ δ → Reply × State σ δ) :
    ∃ status detail, asWorkload g revocations allowed c s rest = (.refused status detail, s) := by
  rcases asWorkload_cases (g := g) D allowed c s rest with ⟨hin, -⟩ | ⟨-, hrefused⟩
  · cases hin.symm.trans hout
  · exact hrefused

theorem letsIn_iff_denied (haudience : g.audience ≠ "") (allowed : List String) (c : Caller) (s : State σ δ) :
    letsIn g revocations allowed c s = true ↔
      ∃ w ∈ allowed, Workload.subject g.svids g.audience c.now c.workloadToken = .ok w ∧ ¬ denied s.revocations w := by
  have hgate : ∀ w, (requireWorkload g revocations allowed c s.revocations).1 = .ok w ↔
      Workload.subject g.svids g.audience c.now c.workloadToken = .ok w ∧
        (isRevoked revocations w s.revocations).1 = false ∧ w ∈ allowed := fun w => requireWorkload_ok_iff haudience
  have hrevoked : ∀ w, (isRevoked revocations w s.revocations).1 = false ↔ ¬ denied s.revocations w := fun w => by
    rw [← (isRevoked_eq D w s.revocations).1, Bool.not_eq_true]
  unfold letsIn
  split
  · rename_i w hok
    obtain ⟨hsub, hrev, hw⟩ := (hgate w).1 hok
    exact iff_of_true rfl ⟨w, hw, hsub, (hrevoked w).1 hrev⟩
  · rename_i reply herror
    refine iff_of_false Bool.false_ne_true fun ⟨w, hw, hsub, hdenied⟩ => ?_
    cases herror.symm.trans ((hgate w).2 ⟨hsub, (hrevoked w).2 hdenied, hw⟩)

end Gate

/-! ## What was done to a workload -/

/-- What a transition of the API did to a workload: cut it off, or let it back. -/
def changeAt [UnicodeData] (id : String) (t : Step σ δ) : Option Bool :=
  match t.input.route, t.output with
  | .revokeWorkload spiffeId _ _, .revocations (.revoked _) =>
    if String.ofList (Py.strip spiffeId.toList) = id then some true else none
  | .restoreWorkload spiffeId, .revocations (.restored _) =>
    if String.ofList (Py.strip spiffeId.toList) = id then some false else none
  | _, _ => none

theorem changeAt_of_refused [UnicodeData] {id : String} {t : Step σ δ} {status : Nat} {detail : String}
    (h : t.output = .refused status detail) : changeAt id t = none := by
  unfold changeAt
  rw [h]
  split <;> simp_all

/-- The last thing done to the workload was to cut it off. -/
def Cut [UnicodeData] (id : String) (h : List (Step σ δ)) : Prop := (h.filterMap (changeAt id)).getLast? = some true

/-- The workloads a route is for. -/
def gateOf : Route → Option (List String)
  | .createApproval .. => some [Workload.agent]
  | .verifyApproval _ => some [Workload.tools]
  | .listRevoked => some [Workload.agent, Workload.tools, Workload.gateway]
  | .ingestAudit _ => some [Workload.agent, Workload.tools]
  | _ => none

section Denylist

variable [UnicodeData] {g : Gates} {approvals : Machine σ StoreOp StoreAnswer}
  {revocations : Machine δ RevocationOp RevocationAnswer} {denied : δ → String → Prop}
  (D : Denies revocations denied) {trail : AuditBackend}

theorem cut_concat (id : String) (h : List (Step σ δ)) (t : Step σ δ) :
    Cut id (h ++ [t]) ↔ (changeAt id t = some true ∨ changeAt id t = none ∧ Cut id h) := by
  unfold Cut
  rw [List.filterMap_append]
  cases ht : changeAt id t <;> simp [ht]

/-- An administrator's request changes the denylist, and nobody else's. -/
theorem revoke_cases (c : Caller) (spiffeId reason : String) (revokedAt : F64) (s : State σ δ) :
    (∃ status detail, handle g approvals revocations ⟨c, .revokeWorkload spiffeId reason revokedAt⟩ s =
      (.refused status detail, s)) ∨
    ∃ d, requireRoles g ["platform_admin"] c = .ok d ∧
      handle g approvals revocations ⟨c, .revokeWorkload spiffeId reason revokedAt⟩ s =
        onRevocations revocations
          (.revoke ⟨String.ofList (Py.strip spiffeId.toList), reason, d.user, revokedAt⟩) s := by
  simp only [handle, asRole]
  cases hroles : requireRoles g ["platform_admin"] c with
  | error reply =>
    obtain ⟨status, detail, rfl⟩ := requireRoles_error hroles
    exact .inl ⟨status, detail, rfl⟩
  | ok d =>
    dsimp only
    split
    · exact .inl ⟨_, _, rfl⟩
    · exact .inr ⟨d, rfl, rfl⟩

theorem restore_cases (c : Caller) (spiffeId : String) (s : State σ δ) :
    (∃ status detail, handle g approvals revocations ⟨c, .restoreWorkload spiffeId⟩ s = (.refused status detail, s)) ∨
    ∃ d, requireRoles g ["platform_admin"] c = .ok d ∧
      handle g approvals revocations ⟨c, .restoreWorkload spiffeId⟩ s =
        onRevocations revocations (.restore (String.ofList (Py.strip spiffeId.toList))) s := by
  simp only [handle, asRole]
  cases hroles : requireRoles g ["platform_admin"] c with
  | error reply =>
    obtain ⟨status, detail, rfl⟩ := requireRoles_error hroles
    exact .inl ⟨status, detail, rfl⟩
  | ok d =>
    dsimp only
    split
    · exact .inl ⟨_, _, rfl⟩
    · exact .inr ⟨d, rfl, rfl⟩

/-- Who changes the denylist is an administrator. -/
theorem admin_of_changeAt {id : String} {b : Bool} (req : Request) (s : State σ δ)
    (h : changeAt id ((api g approvals revocations trail).transition s req) = some b) :
    ∃ d, currentDelegation g req.caller = .ok d ∧ "platform_admin" ∈ d.roles := by
  have hadmin {d : Delegation} (hroles : requireRoles g ["platform_admin"] req.caller = .ok d) :
      ∃ d, currentDelegation g req.caller = .ok d ∧ "platform_admin" ∈ d.roles := by
    obtain ⟨hperson, r, hr, hrole⟩ := requireRoles_ok_iff.1 hroles
    exact ⟨d, hperson, List.mem_singleton.1 hr ▸ hrole⟩
  have hrefused {status : Nat} {detail : String}
      (heq : handle g approvals revocations req s = (.refused status detail, s)) :
      changeAt id ((api g approvals revocations trail).transition s req) = none :=
    changeAt_of_refused (congrArg Prod.fst heq)
  obtain ⟨c, route⟩ := req
  cases route with
  | revokeWorkload spiffeId reason revokedAt =>
    rcases revoke_cases c spiffeId reason revokedAt s with ⟨status, detail, heq⟩ | ⟨d, hroles, -⟩
    · cases h.symm.trans (hrefused heq)
    · exact hadmin hroles
  | restoreWorkload spiffeId =>
    rcases restore_cases c spiffeId s with ⟨status, detail, heq⟩ | ⟨d, hroles, -⟩
    · cases h.symm.trans (hrefused heq)
    · exact hadmin hroles
  | _ => cases h

include D

/-- A route that neither revokes nor restores leaves the denylist as it is. -/
theorem handle_revocations (req : Request) (s : State σ δ)
    (hrevoke : ∀ spiffeId reason revokedAt, req.route ≠ .revokeWorkload spiffeId reason revokedAt)
    (hrestore : ∀ spiffeId, req.route ≠ .restoreWorkload spiffeId) :
    (handle g approvals revocations req s).2.revocations = s.revocations := by
  obtain ⟨c, route⟩ := req
  have hworkload (allowed : List String) (rest : State σ δ → Reply × State σ δ)
      (hrest : (rest s).2.revocations = s.revocations) :
      (asWorkload g revocations allowed c s rest).2.revocations = s.revocations := by
    rcases asWorkload_cases (g := g) D allowed c s rest with ⟨-, heq⟩ | ⟨-, status, detail, heq⟩
    · rw [heq, hrest]
    · rw [heq]
  have hanyone (rest : Delegation → Reply × State σ δ) (hrest : ∀ d, (rest d).2.revocations = s.revocations) :
      (asAnyone g c s rest).2.revocations = s.revocations := by
    unfold asAnyone
    cases currentDelegation g c with
    | error reply => rfl
    | ok d => exact hrest d
  have hrole (roles : List String) (rest : Delegation → Reply × State σ δ)
      (hrest : ∀ d, (rest d).2.revocations = s.revocations) :
      (asRole g roles c s rest).2.revocations = s.revocations := by
    unfold asRole
    cases requireRoles g roles c with
    | error reply => rfl
    | ok d => exact hrest d
  cases route with
  | createApproval tool args reason hex createdAt =>
    simp only [handle]
    refine hanyone _ fun d => hworkload _ _ ?_
    split <;> rfl
  | listApprovals status =>
    simp only [handle]
    exact hanyone _ fun d => rfl
  | verifyApproval q =>
    simp only [handle]
    exact hworkload _ _ rfl
  | decideApproval id approved note decidedAt =>
    simp only [handle]
    refine hrole _ _ fun d => ?_
    split <;> rfl
  | listRevoked =>
    obtain ⟨l, hids, -⟩ := D.ids s.revocations
    simp only [handle]
    exact hworkload _ _ (congrArg Prod.snd hids)
  | listRevokedAdmin =>
    obtain ⟨l, hall⟩ := D.all s.revocations
    simp only [handle]
    refine hrole _ _ fun _ => ?_
    simp only [onRevocations, hall]
  | revokeWorkload spiffeId reason revokedAt => exact absurd rfl (hrevoke spiffeId reason revokedAt)
  | restoreWorkload spiffeId => exact absurd rfl (hrestore spiffeId)
  | ingestAudit record =>
    simp only [handle]
    refine hworkload _ _ ?_
    split <;> rfl
  | getAudit limit event tool sub =>
    simp only [handle]
    exact hanyone _ fun d => rfl
  | privacyAccess =>
    simp only [handle]
    refine hrole _ _ fun d => ?_
    unfold privacyView
    split <;> rfl

variable (trail) in
/-- Who is denied after a request: who it cut off, and who was denied before and not let back. -/
theorem denied_step (id : String) (req : Request) (s : State σ δ) :
    denied (handle g approvals revocations req s).2.revocations id ↔
      changeAt id ((api g approvals revocations trail).transition s req) = some true ∨
      changeAt id ((api g approvals revocations trail).transition s req) = none ∧ denied s.revocations id := by
  have hsame (hpost : (handle g approvals revocations req s).2.revocations = s.revocations)
      (hnone : changeAt id ((api g approvals revocations trail).transition s req) = none) :
      denied (handle g approvals revocations req s).2.revocations id ↔
        changeAt id ((api g approvals revocations trail).transition s req) = some true ∨
        changeAt id ((api g approvals revocations trail).transition s req) = none ∧ denied s.revocations id := by
    rw [hpost, hnone]
    simp
  obtain ⟨c, route⟩ := req
  cases route with
  | revokeWorkload spiffeId reason revokedAt =>
    rcases revoke_cases c spiffeId reason revokedAt s with ⟨status, detail, heq⟩ | ⟨d, -, heq⟩
    · exact hsame (by rw [heq]) (changeAt_of_refused (by rw [api_output, heq]))
    · rcases D.revoke ⟨String.ofList (Py.strip spiffeId.toList), reason, d.user, revokedAt⟩ s.revocations with
        ⟨e, he⟩ | ⟨r, hr, hdenied⟩
      · refine hsame (by rw [heq, onRevocations, he]) ?_
        simp only [changeAt, Machine.transition_input, Machine.transition_output, api, heq, onRevocations, he]
      · simp only [changeAt, Machine.transition_input, Machine.transition_output, api, heq, onRevocations, hr, hdenied]
        by_cases hid : String.ofList (Py.strip spiffeId.toList) = id <;> simp [hid]
  | restoreWorkload spiffeId =>
    rcases restore_cases c spiffeId s with ⟨status, detail, heq⟩ | ⟨d, -, heq⟩
    · exact hsame (by rw [heq]) (changeAt_of_refused (by rw [api_output, heq]))
    · rcases D.restore (String.ofList (Py.strip spiffeId.toList)) s.revocations with ⟨e, he⟩ | ⟨removed, r, hr, hdenied⟩
      · refine hsame (by rw [heq, onRevocations, he]) ?_
        simp only [changeAt, Machine.transition_input, Machine.transition_output, api, heq, onRevocations, he]
      · simp only [changeAt, Machine.transition_input, Machine.transition_output, api, heq, onRevocations, hr, hdenied]
        by_cases hid : String.ofList (Py.strip spiffeId.toList) = id <;> simp [hid]
  | _ => exact hsame (handle_revocations D _ s (fun _ _ _ h => nomatch h) fun _ h => nomatch h) rfl

theorem denied_iff (is : List Request) (id : String) :
    denied ((api g approvals revocations trail).final is).revocations id ↔
      Cut id ((api g approvals revocations trail).run is) := by
  induction is using List.reverseRecOn with
  | nil => exact iff_of_false (D.init id) fun h => by simp [Cut] at h
  | append_singleton is req ih =>
    rw [Machine.final_concat, Machine.run_concat, cut_concat, ← ih]
    exact denied_step D trail id req _

/-- A workload kept out of its route is answered with a refusal, and nothing moves. -/
theorem refused_of_kept_out {allowed : List String} {req : Request} {s : State σ δ}
    (hgate : gateOf req.route = some allowed) (hout : letsIn g revocations allowed req.caller s = false) :
    ∃ status detail, handle g approvals revocations req s = (.refused status detail, s) := by
  obtain ⟨c, route⟩ := req
  cases route with
  | createApproval tool args reason hex createdAt =>
    cases hgate
    simp only [handle, asAnyone]
    cases hperson : currentDelegation g c with
    | error reply =>
      obtain ⟨status, detail, rfl⟩ := currentDelegation_error hperson
      exact ⟨status, detail, rfl⟩
    | ok d => exact asWorkload_of_kept_out D hout _
  | verifyApproval q | listRevoked | ingestAudit record =>
    cases hgate
    simp only [handle]
    exact asWorkload_of_kept_out D hout _
  | _ => cases hgate

/-- A workload that is let in is answered with the list. -/
theorem reply_listRevoked {c : Caller} {s : State σ δ} {ids : List String}
    (hin : letsIn g revocations [Workload.agent, Workload.tools, Workload.gateway] c s = true)
    (hids : (revocations.step .ids s.revocations).1 = .ids ids) :
    (handle g approvals revocations ⟨c, .listRevoked⟩ s).1 = .revocations (sortedIds (.ids ids)) := by
  simp only [handle]
  rw [asWorkload_of_letsIn D hin]
  exact congrArg (fun answer => Reply.revocations (sortedIds answer)) hids

/-- The list the other services fetch is the workloads denied. -/
theorem fetched_iff {c : Caller} {s : State σ δ} {l : List String}
    (h : (handle g approvals revocations ⟨c, .listRevoked⟩ s).1 = .revocations (.ids l)) (id : String) :
    id ∈ l ↔ denied s.revocations id := by
  obtain ⟨ids, hstep, hids⟩ := D.ids s.revocations
  cases hin : letsIn g revocations [Workload.agent, Workload.tools, Workload.gateway] c s with
  | true =>
    rw [reply_listRevoked D hin (congrArg Prod.fst hstep)] at h
    simp only [sortedIds, Reply.revocations.injEq, RevocationAnswer.ids.injEq] at h
    rw [← h, List.mem_mergeSort, hids]
  | false =>
    obtain ⟨status, detail, heq⟩ : ∃ status detail,
        handle g approvals revocations ⟨c, .listRevoked⟩ s = (.refused status detail, s) :=
      refused_of_kept_out D rfl hin
    rw [heq] at h
    cases h

end Denylist

/-- What the denylist makes of a request, given what was done before it. -/
structure DenylistKept [UnicodeData] (g : Gates) (revocations : Machine δ RevocationOp RevocationAnswer)
    (h : List (Step σ δ)) (t : Step σ δ) : Prop where
  admitted : ∀ allowed, gateOf t.input.route = some allowed →
    (letsIn g revocations allowed t.input.caller t.pre = true ↔ ∃ w ∈ allowed,
      Workload.subject g.svids g.audience t.input.caller.now t.input.caller.workloadToken = .ok w ∧ ¬ Cut w h)
  refused : ∀ allowed, gateOf t.input.route = some allowed →
    letsIn g revocations allowed t.input.caller t.pre = false →
      (∃ status detail, t.output = .refused status detail) ∧ t.post = t.pre
  fetched : ∀ l, t.input.route = .listRevoked → t.output = .revocations (.ids l) → ∀ id, id ∈ l ↔ Cut id h
  administered : ∀ id b, changeAt id t = some b →
    ∃ d, currentDelegation g t.input.caller = .ok d ∧ "platform_admin" ∈ d.roles

section Run

variable [UnicodeData] {g : Gates} {approvals : Machine σ StoreOp StoreAnswer}
  {revocations : Machine δ RevocationOp RevocationAnswer} {trail : AuditBackend}

theorem denylistKept {denied : δ → String → Prop} (D : Denies revocations denied) (haudience : g.audience ≠ "")
    (is : List Request) : Throughout (DenylistKept g revocations) ((api g approvals revocations trail).run is) := by
  induction is using List.reverseRecOn with
  | nil => exact .nil
  | append_singleton is req ih =>
    rw [Machine.run_concat]
    have hdenied (id : String) : denied ((api g approvals revocations trail).final is).revocations id ↔
        Cut id ((api g approvals revocations trail).run is) := denied_iff D is id
    refine ih.concat ⟨fun allowed _ => ?_, fun allowed hgate hout => ?_, fun l hroute hout id => ?_,
      fun id b hchange => ?_⟩
    · simp only [← hdenied]
      exact letsIn_iff_denied D haudience allowed req.caller _
    · obtain ⟨status, detail, heq⟩ : ∃ status detail, handle g approvals revocations req
          ((api g approvals revocations trail).final is) = (.refused status detail, _) :=
        refused_of_kept_out D hgate hout
      exact ⟨⟨status, detail, congrArg Prod.fst heq⟩, congrArg Prod.snd heq⟩
    · obtain ⟨c, route⟩ := req
      obtain rfl : route = .listRevoked := hroute
      rw [← hdenied]
      exact fetched_iff D hout id
    · exact admin_of_changeAt req _ hchange

/-- **The denylist is immediate.** At every moment of every run of the API, over
either store: the gate of a workload's route lets in exactly the workloads it is
for that are not cut off; a workload kept out is refused and nothing changes; the
list the services fetch is the workloads cut off; and only an administrator cuts
a workload off or lets it back. -/
theorem denylist_immediate (db : TextDatabase) (haudience : g.audience ≠ "") (is : List Request) :
    Throughout (DenylistKept g memoryRevocations) ((api g approvals memoryRevocations trail).run is) ∧
      Throughout (DenylistKept g (postgresRevocations db)) ((api g approvals (postgresRevocations db) trail).run is) :=
  ⟨denylistKept memoryRevocations_denies haudience is, denylistKept (postgresRevocations_denies db) haudience is⟩

end Run

theorem desk_denylist_immediate : let _ := asciiData
    Throughout (DenylistKept deskGates memoryRevocations)
      ((api deskGates memoryStore memoryRevocations (.memory [])).run deskRequests) :=
  (@denylist_immediate _ asciiData deskGates memoryStore (.memory []) ⟨fun _ => true, fun a b => decide (a ≤ b)⟩
    (by decide) deskRequests).1

end Api

end AgentPlatform
