/-
What the API owes to the people and the workloads behind its requests.

`handle_approvals` says which one call a request makes on the approvals once it
is let in, so the approvals of a run of the API are a run of their store
(`Machine.component`).

`valid_iff`: an approval verifies for a tool call exactly when two people stand
behind it, one whose agent asked for it and a manager of the same tenant who
granted it.
-/
import AgentPlatform.Api
import AgentPlatform.ApprovalsFacts

namespace AgentPlatform

namespace Api

variable {σ δ : Type}

abbrev Step (σ δ : Type) := Transition (State σ δ) Request Reply

section Gates

theorem ok_of_toOption {ε α : Type} {x : Except ε α} {a : α} (h : x.toOption = some a) : x = .ok a := by
  cases x with
  | error e => cases h
  | ok b => exact congrArg Except.ok (Option.some.inj h)

variable [UnicodeData] {g : Gates} {revocations : Machine δ RevocationOp RevocationAnswer} {allowed : List String}
  {c : Caller}

/-- With an audience, who is let in is named by its token, may call, and is not revoked. -/
theorem requireWorkload_ok_iff (haudience : g.audience ≠ "") {s : δ} {w : String} :
    (requireWorkload g revocations allowed c s).1 = .ok w ↔
      Workload.subject g.svids g.audience c.now c.workloadToken = .ok w ∧
        (isRevoked revocations w s).1 = false ∧ w ∈ allowed := by
  unfold requireWorkload
  rw [if_neg haudience]
  have hverify : ∀ id, (Workload.verify (isRevoked revocations) g.svids g.audience c.now c.workloadToken s).1 = .ok id ↔
      Workload.subject g.svids g.audience c.now c.workloadToken = .ok id ∧ (isRevoked revocations id s).1 = false :=
    fun id => Workload.verify_ok_iff
  rcases hv : Workload.verify (isRevoked revocations) g.svids g.audience c.now c.workloadToken s with ⟨e | id, s'⟩
  · rw [hv] at hverify
    refine iff_of_false (fun h => nomatch h) fun h => ?_
    cases (hverify w).2 ⟨h.1, h.2.1⟩
  · rw [hv] at hverify
    obtain ⟨hsub, hrev⟩ := (hverify id).1 rfl
    by_cases hid : id ∈ allowed
    · simp only [hid, if_true, Except.ok.injEq]
      constructor
      · rintro rfl
        exact ⟨hsub, hrev, hid⟩
      · rintro ⟨hw, -, -⟩
        exact Except.ok.inj (hsub.symm.trans hw)
    · simp only [hid, if_false, reduceCtorEq, false_iff]
      rintro ⟨hw, -, hmem⟩
      exact hid (Except.ok.inj (hsub.symm.trans hw) ▸ hmem)

theorem requireRoles_ok_iff {roles : List String} {d : Delegation} :
    requireRoles g roles c = .ok d ↔ currentDelegation g c = .ok d ∧ ∃ r ∈ roles, r ∈ d.roles := by
  unfold requireRoles
  cases currentDelegation g c with
  | error reply => simp
  | ok d' =>
    by_cases hany : roles.any (d'.roles.contains ·) = true
    · have hmem : ∃ r ∈ roles, r ∈ d'.roles := by simpa using hany
      simp only [hany, if_true, Except.ok.injEq]
      exact ⟨fun h => ⟨h, h ▸ hmem⟩, And.left⟩
    · have hnone : ¬ ∃ r ∈ roles, r ∈ d'.roles := by simpa using hany
      simp only [hany, if_false, reduceCtorEq, Except.ok.injEq, false_iff]
      rintro ⟨rfl, hmem⟩
      exact hnone hmem

theorem currentDelegation_error {reply : Reply} (h : currentDelegation g c = .error reply) :
    ∃ status detail, reply = .refused status detail := by
  unfold currentDelegation at h
  dsimp only at h
  split at h
  · cases h
    exact ⟨_, _, rfl⟩
  · split at h
    · cases h
      exact ⟨_, _, rfl⟩
    · cases h

theorem requireRoles_error {roles : List String} {reply : Reply} (h : requireRoles g roles c = .error reply) :
    ∃ status detail, reply = .refused status detail := by
  unfold requireRoles at h
  split at h
  · cases h
    exact currentDelegation_error ‹_›
  · split at h
    · cases h
    · cases h
      exact ⟨_, _, rfl⟩

theorem requireWorkload_error {s : δ} {reply : Reply}
    (h : (requireWorkload g revocations allowed c s).1 = .error reply) :
    ∃ status detail, reply = .refused status detail := by
  unfold requireWorkload at h
  split at h
  · cases h
  · split at h
    · cases h
      exact ⟨_, _, rfl⟩
    · split at h
      · cases h
      · cases h
        exact ⟨_, _, rfl⟩

end Gates

/-! ## The approvals of a run -/

section Approvals

variable [UnicodeData] (g : Gates) (approvals : Machine σ StoreOp StoreAnswer)
  (revocations : Machine δ RevocationOp RevocationAnswer)

/-- The workload gate lets the request in. -/
def letsIn (allowed : List String) (c : Caller) (s : State σ δ) : Bool :=
  match (requireWorkload g revocations allowed c s.revocations).1 with
  | .ok _ => true
  | .error _ => false

/-- What a request asks of the approvals, once it is let in. -/
def approvalCall (req : Request) (s : State σ δ) : Option StoreOp :=
  let c := req.caller
  match req.route with
  | .createApproval tool args reason hex createdAt =>
    (currentDelegation g c).toOption.bind fun d =>
      if letsIn g revocations [Workload.agent] c s && decide (tool ≠ "") then
        some (.create (newApproval d tool args reason hex createdAt)) else none
  | .listApprovals status =>
    (currentDelegation g c).toOption.map fun d =>
      if status = some "pending" then .pending d.tenantOrEmpty else .all d.tenantOrEmpty
  | .verifyApproval q => if letsIn g revocations [Workload.tools] c s then some (.verify q) else none
  | .decideApproval id approved note decidedAt =>
    (requireRoles g ["manager"] c).toOption.map fun d => .decide (ruling d id approved note decidedAt)
  | .privacyAccess =>
    (requireRoles g ["manager"] c).toOption.bind fun d =>
      (AgentPlatform.privacyAccess s.trail d.tenant).toOption.map fun _ => .all d.tenantOrEmpty
  | _ => none

/-- A route for workloads leaves the approvals as they are, or as the rest of it does. -/
theorem asWorkload_approvals {allowed : List String} {c : Caller} {s : State σ δ}
    {rest : State σ δ → Reply × State σ δ} :
    (asWorkload g revocations allowed c s rest).2.approvals =
      if letsIn g revocations allowed c s then
        (rest { s with revocations := (requireWorkload g revocations allowed c s.revocations).2 }).2.approvals
      else s.approvals := by
  unfold letsIn asWorkload
  rcases requireWorkload g revocations allowed c s.revocations with ⟨e | w, r⟩ <;> rfl

theorem asRole_approvals {roles : List String} {c : Caller} {s : State σ δ}
    {rest : Delegation → Reply × State σ δ} :
    (asRole g roles c s rest).2.approvals =
      ((requireRoles g roles c).toOption.map fun d => (rest d).2.approvals).getD s.approvals := by
  unfold asRole
  cases requireRoles g roles c <;> rfl

theorem asAnyone_approvals {c : Caller} {s : State σ δ} {rest : Delegation → Reply × State σ δ} :
    (asAnyone g c s rest).2.approvals =
      ((currentDelegation g c).toOption.map fun d => (rest d).2.approvals).getD s.approvals := by
  unfold asAnyone
  cases currentDelegation g c <;> rfl

theorem asWorkload_reply (allowed : List String) (c : Caller) (s : State σ δ)
    (rest : State σ δ → Reply × State σ δ) :
    (letsIn g revocations allowed c s = true ∧ (asWorkload g revocations allowed c s rest).1 =
      (rest { s with revocations := (requireWorkload g revocations allowed c s.revocations).2 }).1) ∨
    letsIn g revocations allowed c s = false ∧
      ∃ status detail, (asWorkload g revocations allowed c s rest).1 = .refused status detail := by
  have herror : ∀ reply, (requireWorkload g revocations allowed c s.revocations).1 = .error reply →
      ∃ status detail, reply = .refused status detail := fun reply => requireWorkload_error
  unfold letsIn asWorkload
  rcases hgate : requireWorkload g revocations allowed c s.revocations with ⟨e | w, r⟩
  · exact .inr ⟨rfl, herror e (by rw [hgate])⟩
  · exact .inl ⟨rfl, rfl⟩

/-- A request moves the approvals by the call it makes and by nothing else. -/
theorem handle_approvals (req : Request) (s : State σ δ) :
    (handle g approvals revocations req s).2.approvals =
      ((approvalCall g revocations req s).map fun op => (approvals.step op s.approvals).2).getD s.approvals := by
  obtain ⟨c, route⟩ := req
  cases route with
  | createApproval tool args reason hex createdAt =>
    simp only [handle, approvalCall, asAnyone_approvals, asWorkload_approvals]
    cases currentDelegation g c with
    | error reply => rfl
    | ok d =>
      cases letsIn g revocations [Workload.agent] c s <;> by_cases htool : tool = "" <;>
        simp [Except.toOption, htool, onApprovals]
  | listApprovals status =>
    simp only [handle, approvalCall, asAnyone_approvals]
    cases currentDelegation g c <;> rfl
  | verifyApproval q =>
    simp only [handle, approvalCall, asWorkload_approvals]
    cases letsIn g revocations [Workload.tools] c s <;> rfl
  | decideApproval id approved note decidedAt =>
    simp only [handle, approvalCall, asRole_approvals]
    cases requireRoles g ["manager"] c with
    | error reply => rfl
    | ok d =>
      simp only [Except.toOption, Option.map_some, Option.getD_some]
      split <;> simp_all
  | revokeWorkload spiffeId reason revokedAt =>
    simp only [handle, approvalCall, asRole_approvals]
    cases requireRoles g ["platform_admin"] c with
    | error reply => rfl
    | ok d =>
      simp only [Except.toOption, Option.map_some, Option.getD_some]
      split <;> rfl
  | restoreWorkload spiffeId =>
    simp only [handle, approvalCall, asRole_approvals]
    cases requireRoles g ["platform_admin"] c with
    | error reply => rfl
    | ok d =>
      simp only [Except.toOption, Option.map_some, Option.getD_some]
      split <;> rfl
  | listRevoked => simp [handle, approvalCall, asWorkload_approvals]
  | listRevokedAdmin =>
    simp only [handle, approvalCall, asRole_approvals]
    cases requireRoles g ["platform_admin"] c <;> rfl
  | ingestAudit record =>
    simp only [handle, approvalCall, asWorkload_approvals]
    split
    · split <;> rfl
    · rfl
  | getAudit limit event tool sub =>
    simp only [handle, approvalCall, asAnyone_approvals]
    cases currentDelegation g c <;> rfl
  | privacyAccess =>
    simp only [handle, approvalCall, asRole_approvals]
    cases requireRoles g ["manager"] c with
    | error reply => rfl
    | ok d =>
      simp only [privacyView, Except.toOption, Option.bind_some, Option.map_some, Option.getD_some]
      cases AgentPlatform.privacyAccess s.trail d.tenant <;> simp

/-! ## Two people behind an approval -/

/-- The request is made in the name of a workload that is not revoked. -/
structure NamedAs (w : String) (t : Step σ δ) : Prop where
  subject : Workload.subject g.svids g.audience t.input.caller.now t.input.caller.workloadToken = .ok w
  unrevoked : (isRevoked revocations w t.pre.revocations).1 = false

/-- The agent asked for the approval of a tool call, for a person. -/
structure Asked (q : VerifyRequest) (d : Delegation) (t : Step σ δ) : Prop where
  route : ∃ args reason hex createdAt, t.input.route = .createApproval q.tool args reason hex createdAt ∧
    args.pyEq q.args = true
  named : NamedAs g revocations Workload.agent t
  person : currentDelegation g t.input.caller = .ok d
  created : ∃ a, t.output = .approvals (.created a) ∧ a.id = q.approvalId
  user : d.user = q.user
  agent : d.workload = q.agent
  tenant : d.tenantOrEmpty = q.tenant

/-- A manager of the tenant, someone else, granted it. -/
structure Granted (q : VerifyRequest) (d : Delegation) (t : Step σ δ) : Prop where
  route : ∃ note decidedAt, t.input.route = .decideApproval q.approvalId true note decidedAt
  person : currentDelegation g t.input.caller = .ok d
  manager : "manager" ∈ d.roles
  ruled : ∃ a, t.output = .approvals (.found (some a))
  other : d.user ≠ q.user
  tenant : d.tenantOrEmpty = q.tenant

/-- The tool call was asked for, and then granted. -/
def FourEyes (q : VerifyRequest) (h : List (Step σ δ)) : Prop :=
  ∃ before t between u after d d', h = before ++ t :: (between ++ u :: after) ∧
    Asked g revocations q d t ∧ Granted g q d' u

/-- What a transition of the API did to an approval. -/
def lifeAt (id : String) (t : Step σ δ) : Option LifeEvent :=
  (approvalCall g revocations t.input t.pre).bind fun op => lifeEvent id (approvals.transition t.pre.approvals op)

/-- Only the agent's request creates, for its person. -/
theorem call_create {req : Request} {s : State σ δ} {n : NewApproval}
    (h : approvalCall g revocations req s = some (.create n)) : ∃ tool args reason hex createdAt d,
      req.route = .createApproval tool args reason hex createdAt ∧ currentDelegation g req.caller = .ok d ∧
      letsIn g revocations [Workload.agent] req.caller s = true ∧ newApproval d tool args reason hex createdAt = n := by
  obtain ⟨c, route⟩ := req
  cases route with
  | createApproval tool args reason hex createdAt =>
    simp only [approvalCall] at h
    obtain ⟨d, hd, hcall⟩ := Option.bind_eq_some_iff.1 h
    split at hcall
    · rename_i hlets
      cases hcall
      exact ⟨tool, args, reason, hex, createdAt, d, rfl, ok_of_toOption hd, (Bool.and_eq_true_iff.1 hlets).1, rfl⟩
    · cases hcall
  | listApprovals status =>
    simp only [approvalCall] at h
    obtain ⟨d, -, hcall⟩ := Option.map_eq_some_iff.1 h
    split at hcall <;> cases hcall
  | verifyApproval q =>
    simp only [approvalCall] at h
    split at h <;> cases h
  | decideApproval id approved note decidedAt =>
    simp only [approvalCall] at h
    obtain ⟨d, -, hcall⟩ := Option.map_eq_some_iff.1 h
    cases hcall
  | privacyAccess =>
    simp only [approvalCall] at h
    obtain ⟨d, -, hcall⟩ := Option.bind_eq_some_iff.1 h
    obtain ⟨l, -, hcall⟩ := Option.map_eq_some_iff.1 hcall
    cases hcall
  | _ => cases h

/-- Only a manager's request rules, in the manager's name and tenant. -/
theorem call_decide {req : Request} {s : State σ δ} {r : Ruling}
    (h : approvalCall g revocations req s = some (.decide r)) : ∃ id approved note decidedAt d,
      req.route = .decideApproval id approved note decidedAt ∧ requireRoles g ["manager"] req.caller = .ok d ∧
      ruling d id approved note decidedAt = r := by
  obtain ⟨c, route⟩ := req
  cases route with
  | createApproval tool args reason hex createdAt =>
    simp only [approvalCall] at h
    obtain ⟨d, -, hcall⟩ := Option.bind_eq_some_iff.1 h
    split at hcall <;> cases hcall
  | listApprovals status =>
    simp only [approvalCall] at h
    obtain ⟨d, -, hcall⟩ := Option.map_eq_some_iff.1 h
    split at hcall <;> cases hcall
  | verifyApproval q =>
    simp only [approvalCall] at h
    split at h <;> cases h
  | decideApproval id approved note decidedAt =>
    simp only [approvalCall] at h
    obtain ⟨d, hd, hcall⟩ := Option.map_eq_some_iff.1 h
    cases hcall
    exact ⟨id, approved, note, decidedAt, d, rfl, ok_of_toOption hd, rfl⟩
  | privacyAccess =>
    simp only [approvalCall] at h
    obtain ⟨d, -, hcall⟩ := Option.bind_eq_some_iff.1 h
    obtain ⟨l, -, hcall⟩ := Option.map_eq_some_iff.1 hcall
    cases hcall
  | _ => cases h

/-- The agent's request is answered with what the store made of it. -/
theorem reply_create {c : Caller} {tool : String} {args : Args} {reason hex : String} {createdAt : F64} {s : State σ δ}
    {d : Delegation} (hd : currentDelegation g c = .ok d) {answer : StoreAnswer} :
    (handle g approvals revocations ⟨c, .createApproval tool args reason hex createdAt⟩ s).1 = .approvals answer ↔
      approvalCall g revocations ⟨c, .createApproval tool args reason hex createdAt⟩ s =
          some (.create (newApproval d tool args reason hex createdAt)) ∧
        (approvals.step (.create (newApproval d tool args reason hex createdAt)) s.approvals).1 = answer := by
  simp only [handle, asAnyone, approvalCall, hd, Except.toOption, Option.bind_some]
  rcases asWorkload_reply g revocations [Workload.agent] c s
    (fun s => if tool = "" then (.refused 400 "tool is required", s)
      else onApprovals approvals (.create (newApproval d tool args reason hex createdAt)) s) with
    ⟨hlets, hreply⟩ | ⟨hlets, status, detail, hreply⟩
  · rw [hreply, hlets]
    by_cases htool : tool = "" <;> simp [htool, onApprovals]
  · rw [hreply, hlets]
    simp

/-- A manager's request is answered with the ruling, where there was one to make. -/
theorem reply_decide {c : Caller} {id : String} {approved : Bool} {note : Option String} {decidedAt : F64}
    {s : State σ δ} {d : Delegation} (hd : requireRoles g ["manager"] c = .ok d) {a : Approval} :
    (handle g approvals revocations ⟨c, .decideApproval id approved note decidedAt⟩ s).1 =
        .approvals (.found (some a)) ↔
      (approvals.step (.decide (ruling d id approved note decidedAt)) s.approvals).1 = .found (some a) := by
  simp only [handle, asRole, hd]
  split
  · rename_i h
    simp [h, decisionRefused]
  · rename_i h
    simp [h]

variable {g approvals revocations} {trail : AuditBackend}

theorem letsIn_iff (haudience : g.audience ≠ "") {w : String} {c : Caller} {s : State σ δ} :
    letsIn g revocations [w] c s = true ↔ Workload.subject g.svids g.audience c.now c.workloadToken = .ok w ∧
      (isRevoked revocations w s.revocations).1 = false := by
  have hgate : ∀ w', (requireWorkload g revocations [w] c s.revocations).1 = .ok w' ↔
      Workload.subject g.svids g.audience c.now c.workloadToken = .ok w' ∧
        (isRevoked revocations w' s.revocations).1 = false ∧ w' ∈ [w] := fun w' => requireWorkload_ok_iff haudience
  unfold letsIn
  split
  · rename_i w' hok
    obtain ⟨hsub, hrev, hw⟩ := (hgate w').1 hok
    obtain rfl := List.mem_singleton.1 hw
    exact iff_of_true rfl ⟨hsub, hrev⟩
  · rename_i reply herror
    refine iff_of_false Bool.false_ne_true fun h => ?_
    cases herror.symm.trans ((hgate w).2 ⟨h.1, h.2, List.mem_singleton_self w⟩)

theorem api_output (s : State σ δ) (req : Request) :
    ((api g approvals revocations trail).transition s req).output = (handle g approvals revocations req s).1 := rfl

theorem asked_iff (haudience : g.audience ≠ "") (q : VerifyRequest) (s : State σ δ) (req : Request) :
    (∃ d, Asked g revocations q d ((api g approvals revocations trail).transition s req)) ↔
      ∃ n, lifeAt g approvals revocations q.approvalId ((api g approvals revocations trail).transition s req) =
          some (.created n) ∧
        n.tool = q.tool ∧ n.args.pyEq q.args = true ∧ n.user = q.user ∧ n.agent = q.agent ∧ n.tenant = q.tenant := by
  constructor
  · rintro ⟨d, ⟨⟨args, reason, hex, createdAt, hroute, hargs⟩, hnamed, hperson, ⟨a, ha, hid⟩, huser, hagent, htenant⟩⟩
    obtain ⟨c, route⟩ := req
    obtain rfl : route = .createApproval q.tool args reason hex createdAt := hroute
    rw [api_output] at ha
    obtain ⟨hcall, hstep⟩ := (reply_create g approvals revocations hperson).1 ha
    refine ⟨newApproval d q.tool args reason hex createdAt, ?_, rfl, hargs, huser, hagent, htenant⟩
    exact Option.bind_eq_some_iff.2 ⟨_, hcall, lifeEvent_created.2 ⟨rfl, a, hstep, hid⟩⟩
  · rintro ⟨n, hlife, htool, hargs, huser, hagent, htenant⟩
    obtain ⟨op, hcall, hev⟩ := Option.bind_eq_some_iff.1 hlife
    obtain ⟨rfl, a, hanswer, hid⟩ := lifeEvent_created.1 hev
    obtain ⟨tool, args, reason, hex, createdAt, d, hroute, hperson, hlets, rfl⟩ := call_create g revocations hcall
    obtain ⟨c, route⟩ := req
    obtain rfl : route = .createApproval tool args reason hex createdAt := hroute
    obtain rfl : tool = q.tool := htool
    refine ⟨d, ⟨⟨args, reason, hex, createdAt, rfl, hargs⟩, ?_, hperson, ⟨a, ?_, hid⟩, huser, hagent, htenant⟩⟩
    · obtain ⟨hsubject, hunrevoked⟩ := (letsIn_iff haudience).1 hlets
      exact ⟨hsubject, hunrevoked⟩
    · rw [api_output]
      exact (reply_create g approvals revocations hperson).2 ⟨hcall, hanswer⟩

theorem granted_iff (q : VerifyRequest) (s : State σ δ) (req : Request) :
    (∃ d, Granted g q d ((api g approvals revocations trail).transition s req)) ↔
      ∃ r, lifeAt g approvals revocations q.approvalId ((api g approvals revocations trail).transition s req) =
          some (.ruled r) ∧ r.approved = true ∧ r.approver ≠ q.user ∧ r.tenant = q.tenant := by
  constructor
  · rintro ⟨d, ⟨⟨note, decidedAt, hroute⟩, hperson, hmanager, ⟨a, ha⟩, hother, htenant⟩⟩
    obtain ⟨c, route⟩ := req
    obtain rfl : route = .decideApproval q.approvalId true note decidedAt := hroute
    rw [api_output] at ha
    have hroles : requireRoles g ["manager"] c = .ok d :=
      requireRoles_ok_iff.2 ⟨hperson, "manager", List.mem_singleton_self _, hmanager⟩
    refine ⟨ruling d q.approvalId true note decidedAt, ?_, rfl, hother, htenant⟩
    refine Option.bind_eq_some_iff.2 ⟨.decide (ruling d q.approvalId true note decidedAt), ?_,
      lifeEvent_ruled.2 ⟨rfl, rfl, a, (reply_decide g approvals revocations hroles).1 ha⟩⟩
    simp [approvalCall, hroles, Except.toOption]
  · rintro ⟨r, hlife, happroved, hother, htenant⟩
    obtain ⟨op, hcall, hev⟩ := Option.bind_eq_some_iff.1 hlife
    obtain ⟨rfl, hid, a, hanswer⟩ := lifeEvent_ruled.1 hev
    obtain ⟨id, approved, note, decidedAt, d, hroute, hroles, rfl⟩ := call_decide g revocations hcall
    obtain ⟨c, route⟩ := req
    obtain rfl : route = .decideApproval id approved note decidedAt := hroute
    obtain rfl : id = q.approvalId := hid
    obtain rfl : approved = true := happroved
    obtain ⟨hperson, r, hr, hmanager⟩ := requireRoles_ok_iff.1 hroles
    obtain rfl := List.mem_singleton.1 hr
    refine ⟨d, ⟨⟨note, decidedAt, rfl⟩, hperson, hmanager, ⟨a, ?_⟩, hother, htenant⟩⟩
    rw [api_output]
    exact (reply_decide g approvals revocations hroles).2 hanswer

/-- The tool server's question is answered by the store. -/
theorem reply_verify (haudience : g.audience ≠ "") (q : VerifyRequest) (c : Caller) (s : State σ δ) :
    (handle g approvals revocations ⟨c, .verifyApproval q⟩ s).1 = .approvals (.verified true) ↔
      (Workload.subject g.svids g.audience c.now c.workloadToken = .ok Workload.tools ∧
        (isRevoked revocations Workload.tools s.revocations).1 = false) ∧
      (approvals.step (.verify q) s.approvals).1 = .verified true := by
  rw [← letsIn_iff haudience]
  simp only [handle]
  rcases asWorkload_reply g revocations [Workload.tools] c s (fun s => onApprovals approvals (.verify q) s) with
    ⟨hlets, hreply⟩ | ⟨hlets, status, detail, hreply⟩
  · rw [hreply, hlets]
    simp [onApprovals]
  · rw [hreply, hlets]
    simp

/-- The identifier a request would create. -/
def createdBy (req : Request) : Option String :=
  match req.route with
  | .createApproval _ _ _ hex _ => some ("ap-" ++ hex)
  | _ => none

section Run

variable (g approvals revocations trail)

/-- What a run of the API asks of the approvals. -/
def approvalCalls (is : List Request) : List StoreOp :=
  ((api g approvals revocations trail).run is).filterMap fun t => approvalCall g revocations t.input t.pre

theorem component_approvals (is : List Request) :
    approvals.final (approvalCalls g approvals revocations trail is) =
        ((api g approvals revocations trail).final is).approvals ∧
      approvals.run (approvalCalls g approvals revocations trail is) =
        ((api g approvals revocations trail).run is).filterMap fun t =>
          (approvalCall g revocations t.input t.pre).map (approvals.transition t.pre.approvals) := by
  have hstep (s : State σ δ) (req : Request) := handle_approvals g approvals revocations req s
  exact @Machine.component _ _ _ (api g approvals revocations trail) _ _ _ approvals State.approvals
    (fun t => approvalCall g revocations t.input t.pre) rfl hstep is

theorem life_calls (is : List Request) (id : String) :
    life id (approvals.run (approvalCalls g approvals revocations trail is)) =
      ((api g approvals revocations trail).run is).filterMap (lifeAt g approvals revocations id) := by
  rw [life, (component_approvals g approvals revocations trail is).2, List.filterMap_filterMap]
  refine List.filterMap_congr fun t _ => ?_
  simp only [lifeAt]
  cases approvalCall g revocations t.input t.pre <;> rfl

theorem createdIds_calls (is : List Request) :
    (createdIds (approvalCalls g approvals revocations trail is)).Sublist (is.filterMap createdBy) := by
  induction is using List.reverseRecOn with
  | nil => exact List.Sublist.refl _
  | append_singleton is req ih =>
    simp only [approvalCalls, createdIds, Machine.run_concat, List.filterMap_append] at ih ⊢
    refine ih.append ?_
    cases hcall : approvalCall g revocations req ((api g approvals revocations trail).final is) with
    | none => simp [hcall]
    | some op =>
      cases op with
      | create n =>
        obtain ⟨tool, args, reason, hex, createdAt, d, hroute, -, -, rfl⟩ := call_create g revocations hcall
        simp [hcall, createdBy, hroute, newApproval, NewApproval.id]
      | _ => simp [hcall]

end Run

omit [UnicodeData] in
theorem shows_split {before between after : List LifeEvent} {n : NewApproval} {r : Ruling} {o : Option Approval}
    (h : Realises.Shows (before ++ .created n :: (between ++ .ruled r :: after)) o) :
    before = [] ∧ between = [] ∧ after = [] := by
  have hlength : (before ++ .created n :: (between ++ .ruled r :: after)).length ≤ 2 := by
    cases o with
    | none => simp [Realises.Shows] at h
    | some a => rcases h with ⟨_, h, -⟩ | ⟨_, _, h, -⟩ <;> rw [h] <;> simp
  simp only [List.length_append, List.length_cons] at hlength
  refine ⟨List.eq_nil_of_length_eq_zero ?_, List.eq_nil_of_length_eq_zero ?_, List.eq_nil_of_length_eq_zero ?_⟩ <;>
    omega

section FourEyes

variable {sound : σ → Prop} {book : σ → Book} {kept : NewApproval → Prop} (R : Realises approvals sound book kept)
  (haudience : g.audience ≠ "") {is : List Request}
  (hfresh : ∀ t ∈ approvals.run (approvalCalls g approvals revocations trail is), Realises.Fresh book kept t)
include R haudience hfresh

/-- Two people stand behind the tool call exactly when the approval's history approves it. -/
theorem fourEyes_iff (q : VerifyRequest) :
    FourEyes g revocations q ((api g approvals revocations trail).run is) ↔
      ApprovedFor (life q.approvalId (approvals.run (approvalCalls g approvals revocations trail is))) q := by
  have hlife := life_calls g approvals revocations trail is q.approvalId
  constructor
  · rintro ⟨before, t, between, u, after, d, d', hrun, hasked, hgranted⟩
    obtain ⟨s, req, rfl⟩ := Machine.mem_run (m := api g approvals revocations trail) (t := t) (by rw [hrun]; simp)
    obtain ⟨s', req', rfl⟩ := Machine.mem_run (m := api g approvals revocations trail) (t := u) (by rw [hrun]; simp)
    obtain ⟨n, hn, htool, hargs, huser, hagent, htenant⟩ := (asked_iff haudience q s req).1 ⟨d, hasked⟩
    obtain ⟨r, hr, happroved, hother, -⟩ := (granted_iff q s' req').1 ⟨d', hgranted⟩
    rw [hrun, List.filterMap_append, List.filterMap_cons_some hn, List.filterMap_append,
      List.filterMap_cons_some hr] at hlife
    have hshows := R.shows_run hfresh q.approvalId
    rw [hlife] at hshows ⊢
    obtain ⟨hbefore, hbetween, hafter⟩ := shows_split hshows
    exact ⟨_, _, _, n, r, rfl, by simp [hbetween, hafter], htool, hargs, huser, hagent, htenant, happroved, hother⟩
  · rintro ⟨before, between, after, n, r, heq, -, htool, hargs, huser, hagent, htenant, happroved, hother⟩
    have hcreated :
        .created n ∈ life q.approvalId (approvals.run (approvalCalls g approvals revocations trail is)) := by
      rw [heq]
      simp
    have hruled : .ruled r ∈ life q.approvalId (approvals.run (approvalCalls g approvals revocations trail is)) := by
      rw [heq]
      simp
    have hruledTenant : r.tenant = n.tenant := R.tenant_run hfresh hcreated hruled
    rw [heq] at hlife
    obtain ⟨h₁, h₂, hrun, -, h₂life⟩ := List.filterMap_eq_append_iff.1 hlife.symm
    obtain ⟨h₃, t, h₄, rfl, -, hn, h₄life⟩ := List.filterMap_eq_cons_iff.1 h₂life
    obtain ⟨h₅, h₆, rfl, -, h₆life⟩ := List.filterMap_eq_append_iff.1 h₄life
    obtain ⟨h₇, u, h₈, rfl, -, hr, -⟩ := List.filterMap_eq_cons_iff.1 h₆life
    obtain ⟨s, req, rfl⟩ := Machine.mem_run (m := api g approvals revocations trail) (t := t) (by rw [hrun]; simp)
    obtain ⟨s', req', rfl⟩ := Machine.mem_run (m := api g approvals revocations trail) (t := u) (by rw [hrun]; simp)
    obtain ⟨d, hasked⟩ := (asked_iff haudience q s req).2 ⟨n, hn, htool, hargs, huser, hagent, htenant⟩
    obtain ⟨d', hgranted⟩ := (granted_iff q s' req').2 ⟨r, hr, happroved, hother, hruledTenant.trans htenant⟩
    exact ⟨h₁ ++ h₃, _, h₅ ++ h₇, _, h₈, d, d', by rw [hrun]; simp, hasked, hgranted⟩

theorem verified_iff (c : Caller) (q : VerifyRequest) :
    (handle g approvals revocations ⟨c, .verifyApproval q⟩ ((api g approvals revocations trail).final is)).1 =
        .approvals (.verified true) ↔
      (Workload.subject g.svids g.audience c.now c.workloadToken = .ok Workload.tools ∧
        (isRevoked revocations Workload.tools ((api g approvals revocations trail).final is).revocations).1 = false) ∧
      FourEyes g revocations q ((api g approvals revocations trail).run is) := by
  have hcalls := (component_approvals g approvals revocations trail is).1
  rw [fourEyes_iff R haudience hfresh q, Realises.approvedFor_iff (R.shows_run hfresh q.approvalId) q, hcalls,
    reply_verify haudience]
  exact and_congr_right' (R.verify q _ (hcalls ▸ R.sound_final _)).2

end FourEyes

/-- At every moment of the run, the question whether a tool call is approved is
answered yes exactly when the tool server asks it and two people stand behind the call. -/
def ApprovedByTwo (g : Gates) (approvals : Machine σ StoreOp StoreAnswer)
    (revocations : Machine δ RevocationOp RevocationAnswer) (trail : AuditBackend) (is : List Request) : Prop :=
  Throughout (fun h t => ∀ q, t.input.route = .verifyApproval q →
    (t.output = .approvals (.verified true) ↔
      NamedAs g revocations Workload.tools t ∧ FourEyes g revocations q h)) ((api g approvals revocations trail).run is)

theorem approvedByTwo {sound : σ → Prop} {book : σ → Book} {kept : NewApproval → Prop}
    (R : Realises approvals sound book kept) (haudience : g.audience ≠ "") {is : List Request} (hids : (is.filterMap createdBy).Nodup)
    (hkept : ∀ req ∈ is, ∀ tool args reason hex createdAt d,
      req.route = .createApproval tool args reason hex createdAt →
        kept (newApproval d tool args reason hex createdAt)) :
    ApprovedByTwo g approvals revocations trail is := by
  induction is using List.reverseRecOn with
  | nil => exact .nil
  | append_singleton is req ih =>
    have hbefore : (is.filterMap createdBy).Nodup := hids.sublist ((List.sublist_append_left is [req]).filterMap _)
    have hstored : ∀ req ∈ is, ∀ tool args reason hex createdAt d,
        req.route = .createApproval tool args reason hex createdAt →
          kept (newApproval d tool args reason hex createdAt) :=
      fun req hreq => hkept req (List.mem_append_left _ hreq)
    have hfresh := R.fresh_of_nodup (hbefore.sublist (createdIds_calls g approvals revocations trail is)) fun n hn => by
      obtain ⟨t, ht, hcall⟩ := List.mem_filterMap.1 hn
      obtain ⟨tool, args, reason, hex, createdAt, d, hroute, -, -, rfl⟩ := call_create g revocations hcall
      exact hstored t.input (Machine.input_mem ht) tool args reason hex createdAt d hroute
    rw [ApprovedByTwo, Machine.run_concat]
    refine (ih hbefore hstored).concat fun q hroute => ?_
    obtain ⟨c, route⟩ := req
    obtain rfl : route = .verifyApproval q := hroute
    refine (verified_iff R haudience hfresh c q).trans (and_congr_left' ?_)
    exact ⟨fun h => ⟨h.1, h.2⟩, fun h => ⟨h.subject, h.unrevoked⟩⟩

/-- **Two people stand behind every approval.** Over either store, and whatever
the other requests are, a tool call's approval verifies exactly when the tool
server asks, unrevoked, after the agent asked for that call in a person's name and
then a manager of the tenant, someone else, granted it. -/
theorem valid_iff (db : ApprovalDatabase) (haudience : g.audience ≠ "") (is : List Request)
    (hids : (is.filterMap createdBy).Nodup) :
    ApprovedByTwo g memoryStore revocations trail is ∧
    ((∀ req ∈ is, ∀ tool args reason hex createdAt d, req.route = .createApproval tool args reason hex createdAt →
        KeptBy db.jsonb (newApproval d tool args reason hex createdAt)) →
      ApprovedByTwo g (postgresStore db) revocations trail is) :=
  ⟨approvedByTwo memoryStore_realises haudience hids fun _ _ _ _ _ _ _ _ _ => trivial,
    approvedByTwo (postgresStore_realises db) haudience hids⟩

end Approvals

/-- A refund's desk: an agent for alice, a manager, an administrator, another
tenant's manager, and workloads named by what they present. -/
def deskGates : Gates where
  verifier _ := ⟨"mcp-tools", none, fun token =>
    if token = "alice" then
      .ok ⟨.str "alice", .absent, some (.str Workload.agent), .absent, some ["support"], none, .str "acme"⟩
    else if token = "morgan" then .ok ⟨.str "morgan", .absent, none, .absent, some ["manager"], none, .str "acme"⟩
    else if token = "gwen" then .ok ⟨.str "gwen", .absent, none, .absent, some ["manager"], none, .str "globex"⟩
    else if token = "root" then .ok ⟨.str "root", .absent, none, .absent, some ["platform_admin"], none, .absent⟩
    else .error (.invalid "Not enough segments")⟩
  svids _ _ token := .ok (.str token)
  audience := Workload.api

def deskCall : VerifyRequest :=
  ⟨"ap-1", "refunds.issue", Dict.ofList [("order_id", .str "o-1002")], "alice", Workload.agent, "acme"⟩

/-- The refund is asked for, granted, and verified, until the tool server is cut off. -/
def deskRequests : List Request :=
  [⟨⟨0, some "Bearer alice", some Workload.agent⟩,
      .createApproval "refunds.issue" deskCall.args "above the limit" "1" (F64.ofInt 0)⟩,
    ⟨⟨1, some "Bearer morgan", none⟩, .decideApproval "ap-1" true none (F64.ofInt 1)⟩,
    ⟨⟨2, none, some Workload.tools⟩, .verifyApproval deskCall⟩,
    ⟨⟨3, some "Bearer root", none⟩, .revokeWorkload Workload.tools "key leaked" (F64.ofInt 3)⟩,
    ⟨⟨4, none, some Workload.tools⟩, .verifyApproval deskCall⟩]

theorem desk_valid_iff : let _ := asciiData
    ApprovedByTwo deskGates memoryStore memoryRevocations (.memory []) deskRequests ∧
      ApprovedByTwo deskGates (postgresStore plainApprovals) memoryRevocations (.memory []) deskRequests := by
  intro _
  have h := @valid_iff _ asciiData deskGates memoryRevocations (.memory []) plainApprovals (by decide) deskRequests
    (by decide)
  refine ⟨h.1, h.2 fun _ _ _ _ _ _ _ _ _ stored hs b => ?_⟩
  cases hs
  rfl

end Api

end AgentPlatform
