/-
What a call of the enforcement point can do.

`Granted` is everything that must have happened for a handler to run, as
data and its proofs; `call_cases` says a call either changes nothing, invokes
nothing and answers a refusal (or raises), or is `execute` on a `Granted`.
Every other result about calls is read off that case split.

`complete_mediation` spells the granted case out.
-/
import AgentPlatform.Enforcement
import AgentPlatform.ToolsFacts

namespace AgentPlatform

/-! ## Traces -/

/-- The handler an event invokes, and with what. -/
def Event.invocation : Event → Option (String × Kwargs)
  | .invoked tool kw => some (tool, kw)
  | _ => none

namespace Event

@[simp] theorem invocation_audit (r : AuditRecord) : (audit r).invocation = none := rfl
@[simp] theorem invocation_policyAsked (doc : Args) (a : Except Exn PolicyResult) :
    (policyAsked doc a).invocation = none := rfl
@[simp] theorem invocation_approvalAsked (r : VerifyRequest) (a : Except Exn Bool) :
    (approvalAsked r a).invocation = none := rfl
@[simp] theorem invocation_invoked (tool : String) (kw : Kwargs) :
    (invoked tool kw).invocation = some (tool, kw) := rfl

end Event

namespace Run

variable {σ α : Type}

/-- The handlers a run invoked. -/
def invocations (r : Run σ α) : List (String × Kwargs) := r.trace.filterMap Event.invocation

@[simp] theorem invocations_pure (s : σ) (a : α) : (pure s a).invocations = [] := rfl
@[simp] theorem invocations_raise (s : σ) (e : Exn) : (raise s e : Run σ α).invocations = [] := rfl

@[simp] theorem invocations_after (es : List Event) (r : Run σ α) :
    (after es r).invocations = es.filterMap Event.invocation ++ r.invocations := by
  simp [invocations]

/-- The run returned without a result of the tool's own. -/
def Refused (r : Run σ ToolResult) : Prop :=
  ∀ res, r.result = .ok res → res.outcome = .denied ∨ res.outcome = .approvalRequired

/-- Nothing happened but audit records and questions. -/
structure Inert (s : σ) (r : Run σ ToolResult) : Prop where
  state : r.state = s
  invocations : r.invocations = []
  refused : r.Refused

theorem inert_raise (s : σ) (exc : Exn) : Inert s (raise s exc) :=
  ⟨rfl, rfl, fun res h => by simp at h⟩

theorem inert_pure (s : σ) {res : ToolResult} (h : res.outcome = .denied ∨ res.outcome = .approvalRequired) :
    Inert s (pure s res) :=
  ⟨rfl, rfl, fun res' h' => by simp only [pure_result, Except.ok.injEq] at h'; exact h' ▸ h⟩

theorem Inert.after {s : σ} {r : Run σ ToolResult} (h : Inert s r) {es : List Event}
    (hes : es.filterMap Event.invocation = []) : Inert s (Run.after es r) :=
  ⟨h.state, by rw [invocations_after, hes, h.invocations]; rfl, h.refused⟩

end Run

/-! ## The document the policy sees -/

namespace Enforcer

theorem policyDoc_get? (d : Delegation) (toolName : String) (callArgs : Args) (k : String) :
    (policyDoc d toolName callArgs).get? k =
      (callArgs.get? k).or (((Dict.ofList [("roles", .arr (d.roles.map .str)),
          ("tenant", .ofOption d.tenant)]).get? k).or
        ((Dict.ofList [("agent", .str d.workload), ("user", .str d.user),
          ("tool", .str toolName)]).get? k)) := by
  have hctx : (policyContext d callArgs).get? k = _ := Dict.get?_insertAll _ k callArgs.nodup
  have hdoc : (policyDoc d toolName callArgs).get? k = _ :=
    Dict.get?_insertAll _ k (policyContext d callArgs).nodup
  rw [hdoc, ← Option.or_assoc]
  exact congrArg (Option.or · _) hctx

/-- The document when no argument has a reserved name: the identity's own
values, and the arguments beside them. -/
structure AskedFor (d : Delegation) (toolName : String) (callArgs doc : Args) : Prop where
  agent : doc.get? "agent" = some (.str d.workload)
  user : doc.get? "user" = some (.str d.user)
  tool : doc.get? "tool" = some (.str toolName)
  roles : doc.get? "roles" = some (.arr (d.roles.map .str))
  tenant : doc.get? "tenant" = some (.ofOption d.tenant)
  rest : ∀ k, k ∉ reservedKeys → doc.get? k = callArgs.get? k

theorem askedFor_policyDoc {d : Delegation} {toolName : String} {callArgs : Args}
    (h : ∀ k ∈ reservedKeys, callArgs.get? k = none) :
    AskedFor d toolName callArgs (policyDoc d toolName callArgs) := by
  constructor
  case rest =>
    intro k hk
    simp only [reservedKeys, List.mem_cons, List.not_mem_nil, or_false, not_or] at hk
    obtain ⟨h1, h2, h3, h4, h5⟩ := hk
    rw [policyDoc_get?]
    simp [Dict.ofList, Dict.insertAll, Dict.get?_insert, Ne.symm h1, Ne.symm h2, Ne.symm h3,
      Ne.symm h4, Ne.symm h5]
  all_goals
    rw [policyDoc_get?, h _ (by simp [reservedKeys])]
    rfl

/-! ## What a call can do -/

variable {σ : Type} [UnicodeData]

/-- Everything that led to a handler: who called, what was asked of whom, and
the answers. -/
structure Granted (e : Enforcer σ) (token : Option String) (toolName : String) (args : Args)
    (workloadToken : Option String) (s : σ) where
  subject : String
  d : Delegation
  tool : Tool σ
  callArgs : Args
  key : Option String
  answer : PolicyResult
  workload_ok : ∀ check, e.workload = some check → ∃ caller, check workloadToken = .ok caller
  token_eq : token = some subject
  subject_ne : subject ≠ ""
  verified : e.verifier subject = .ok d
  found : e.tools.get? toolName = some tool
  coerced : coerceArgs tool.properties args = .ok callArgs
  key_eq : idempotencyKey tool args = .ok key
  asked : (PolicyClient.decide e.post (policyDoc d toolName callArgs)).2 = .ok answer
  permitted : answer.decision = .allow ∨
    (answer.decision = .requireApproval ∧ ∃ approvalId id, args.get? "approval_id" = some approvalId ∧
      approvalId.truthy = true ∧ Py.str approvalId = .ok id ∧
      e.approvals ⟨id, toolName, callArgs, d.user, d.workload, d.tenantOrEmpty⟩ s = .ok true)

/-- The run of the granted handler. -/
def Granted.run {e : Enforcer σ} {token : Option String} {toolName : String} {args : Args}
    {workloadToken : Option String} {s : σ} (g : Granted e token toolName args workloadToken s) :
    Run σ ToolResult :=
  execute g.d g.subject toolName g.tool g.callArgs g.key g.answer s

/-- The keyword arguments the granted handler gets. -/
def Granted.kwargs {e : Enforcer σ} {token : Option String} {toolName : String} {args : Args}
    {workloadToken : Option String} {s : σ} (g : Granted e token toolName args workloadToken s) : Kwargs :=
  ⟨g.callArgs, g.d.tenant, if g.tool.idempotent then some g.key else none⟩

omit [UnicodeData] in
@[simp] theorem invocation_record (event : String) (d : Delegation) (tool : String) (rest : List (String × Json)) :
    (record event d tool rest).invocation = none := rfl

theorem execute_invocations (d : Delegation) (token toolName : String) (tool : Tool σ) (callArgs : Args)
    (key : Option String) (decision : PolicyResult) (s : σ) :
    (execute d token toolName tool callArgs key decision s).invocations =
      [(toolName, ⟨callArgs, d.tenant, if tool.idempotent then some key else none⟩)] := by
  unfold execute
  dsimp only
  rw [Run.invocations_after]
  generalize tool.handler _ (some token) s = r
  rcases r with ⟨_ | result, s'⟩
  · simp
  · dsimp only
    rw [Run.invocations_after]
    cases reportedError result with
    | error exc => simp
    | ok reported => cases reported <;> simp

theorem execute_state (d : Delegation) (token toolName : String) (tool : Tool σ) (callArgs : Args)
    (key : Option String) (decision : PolicyResult) (s : σ) :
    (execute d token toolName tool callArgs key decision s).state =
      (tool.handler ⟨callArgs, d.tenant, if tool.idempotent then some key else none⟩ (some token) s).2 := by
  unfold execute
  dsimp only
  rw [Run.after_state]
  generalize tool.handler _ (some token) s = r
  rcases r with ⟨_ | result, s'⟩
  · rfl
  · dsimp only
    rw [Run.after_state]
    cases reportedError result <;> rfl

/-- A run that ends well answers what the handler returned. -/
theorem execute_ok {d : Delegation} {token toolName : String} {tool : Tool σ} {callArgs : Args}
    {key : Option String} {decision : PolicyResult} {s : σ} {res : ToolResult}
    (h : (execute d token toolName tool callArgs key decision s).result = .ok res) (hok : res.outcome = .ok) :
    ∃ v, (tool.handler ⟨callArgs, d.tenant, if tool.idempotent then some key else none⟩ (some token) s).1 = .ok v ∧
      res.result = some (asDict v) := by
  unfold execute at h
  dsimp only at h
  rw [Run.after_result] at h
  generalize tool.handler _ (some token) s = r at h ⊢
  rcases r with ⟨_ | v, s'⟩
  · simp only [Run.after_result, Run.pure_result, Except.ok.injEq] at h
    subst h
    cases hok
  · refine ⟨v, rfl, ?_⟩
    dsimp only at h
    rw [Run.after_result] at h
    cases hr : reportedError v with
    | error exc => simp [hr] at h
    | ok reported =>
      simp only [hr, Run.after_result, Run.pure_result, Except.ok.injEq] at h
      rw [← h]

/-- A handler whose value reports no error ends the run well. -/
theorem execute_returns {d : Delegation} {token toolName : String} {tool : Tool σ} {callArgs : Args}
    {key : Option String} {decision : PolicyResult} {s : σ} {v : Json}
    (hv : (tool.handler ⟨callArgs, d.tenant, if tool.idempotent then some key else none⟩ (some token) s).1 = .ok v)
    (hnone : v.field "error" = none) :
    ∃ res, (execute d token toolName tool callArgs key decision s).result = .ok res ∧ res.outcome = .ok ∧
      res.result = some (asDict v) := by
  unfold execute
  dsimp only
  rw [Run.after_result]
  generalize tool.handler _ (some token) s = r at hv ⊢
  obtain ⟨r, s'⟩ := r
  cases hv
  simp only [reportedError, hnone]
  exact ⟨_, rfl, rfl, rfl⟩

/-- A call the policy allows is the handler's run. -/
theorem call_of_allow {e : Enforcer σ} {subject toolName : String} {args callArgs : Args}
    {workloadToken key : Option String} {d : Delegation} {tool : Tool σ} {answer : PolicyResult} {s : σ}
    (hworkload : e.workloadRefusal workloadToken = .ok none) (hsubject : subject ≠ "")
    (hverified : e.verifier subject = .ok d) (hfound : e.tools.get? toolName = some tool)
    (hcoerced : coerceArgs tool.properties args = .ok callArgs) (hkey : idempotencyKey tool args = .ok key)
    (hasked : (PolicyClient.decide e.post (policyDoc d toolName callArgs)).2 = .ok answer)
    (hallow : answer.decision = .allow) :
    (e.call (some subject) toolName args workloadToken s).result =
      (execute d subject toolName tool callArgs key answer s).result := by
  simp only [call, hworkload, hsubject, if_false, hverified, callAs, hfound, hcoerced, hkey, hasked,
    Run.after_result, decided, hallow]

/-- The policy's answer: a refusal, or the handler with the answer's leave. -/
theorem decided_cases (e : Enforcer σ) (d : Delegation) (token toolName : String) (tool : Tool σ)
    (args callArgs : Args) (key : Option String) (decision : PolicyResult) (s : σ) :
    (e.decided d token toolName tool args callArgs key decision s).Inert s ∨
      ((decision.decision = .allow ∨ (decision.decision = .requireApproval ∧ ∃ approvalId id,
          args.get? "approval_id" = some approvalId ∧ approvalId.truthy = true ∧
          Py.str approvalId = .ok id ∧
          e.approvals ⟨id, toolName, callArgs, d.user, d.workload, d.tenantOrEmpty⟩ s = .ok true)) ∧
        ∃ pre, pre.filterMap Event.invocation = [] ∧
          e.decided d token toolName tool args callArgs key decision s =
            .after pre (execute d token toolName tool callArgs key decision s)) := by
  unfold decided
  dsimp only
  cases hd : decision.decision with
  | deny => exact .inl ((Run.inert_pure s (.inl rfl)).after rfl)
  | allow => exact .inr ⟨.inl rfl, [], rfl, rfl⟩
  | requireApproval =>
    have held : Run.Inert s (Run.after [record "tool.approval_required" d toolName
        [("reason", decision.reason), ("policy_version", decision.policyVersion)]] (Run.pure s
          { outcome := .approvalRequired, tool := toolName, reason := decision.reason,
            decision := some .requireApproval })) := (Run.inert_pure s (.inr rfl)).after rfl
    dsimp only
    split
    · exact .inl held
    rename_i htruthy
    split
    · exact .inl (Run.inert_raise s _)
    rename_i id hid
    cases hv : e.approvals ⟨id, toolName, callArgs, d.user, d.workload, d.tenantOrEmpty⟩ s with
    | error exc => exact .inl ((Run.inert_raise s exc).after rfl)
    | ok valid =>
      cases valid with
      | false => exact .inl (held.after rfl)
      | true =>
        refine .inr ⟨.inr ⟨rfl, ?_⟩, _, rfl, rfl⟩
        cases ha : args.get? "approval_id" with
        | none => simp [ha, Json.truthy] at htruthy
        | some approvalId =>
          simp only [ha, Option.getD_some, Bool.not_eq_true', Bool.not_eq_false] at htruthy hid
          exact ⟨approvalId, id, rfl, htruthy, hid, hv⟩

omit [UnicodeData] in
theorem workloadRefusal_none {e : Enforcer σ} {workloadToken : Option String}
    (h : e.workloadRefusal workloadToken = .ok none) :
    ∀ check, e.workload = some check → ∃ caller, check workloadToken = .ok caller := by
  intro check hc
  simp only [workloadRefusal, hc] at h
  cases hw : check workloadToken with
  | ok caller => exact ⟨caller, rfl⟩
  | error exc =>
    simp only [hw] at h
    split at h <;> simp at h

omit [UnicodeData] in
theorem workloadRefusal_of_accepted {e : Enforcer σ} {workloadToken : Option String}
    (h : ∀ check, e.workload = some check → ∃ caller, check workloadToken = .ok caller) :
    e.workloadRefusal workloadToken = .ok none := by
  unfold workloadRefusal
  split
  · rfl
  · rename_i check hc
    obtain ⟨caller, hcaller⟩ := h check hc
    rw [hcaller]

/-- **What a call can do.** -/
theorem call_cases (e : Enforcer σ) (token : Option String) (toolName : String) (args : Args)
    (workloadToken : Option String) (s : σ) :
    (e.call token toolName args workloadToken s).Inert s ∨
      ∃ (g : Granted e token toolName args workloadToken s) (pre : List Event),
        pre.filterMap Event.invocation = [] ∧
        .policyAsked (policyDoc g.d toolName g.callArgs) (.ok g.answer) ∈ pre ∧
        e.call token toolName args workloadToken s = .after pre g.run := by
  unfold call
  split
  · exact .inl (Run.inert_raise s _)
  · exact .inl ((Run.inert_pure s (.inl rfl)).after rfl)
  rename_i hworkload
  split
  · exact .inl (Run.inert_pure s (.inl rfl))
  rename_i subject
  split
  · exact .inl (Run.inert_pure s (.inl rfl))
  rename_i hsubject
  split
  · split
    · exact .inl ((Run.inert_pure s (.inl rfl)).after rfl)
    · exact .inl (Run.inert_raise s _)
  rename_i d hverified
  unfold callAs
  split
  · exact .inl ((Run.inert_pure s (.inl rfl)).after rfl)
  rename_i tool hfound
  split
  · exact .inl (Run.inert_raise s _)
  rename_i callArgs hcoerced
  split
  · exact .inl (Run.inert_raise s _)
  rename_i key hkey
  dsimp only
  have hnone : ∀ (doc : Args) (answer : Except Exn PolicyResult) (records : List AuditRecord),
      (Event.policyAsked doc answer :: records.map Event.audit).filterMap Event.invocation = [] := by
    intro doc answer records
    simp
  split
  · exact .inl ((Run.inert_raise s _).after (hnone _ _ _))
  rename_i answer hasked
  rcases decided_cases e d subject toolName tool args callArgs key answer s with h | ⟨hp, pre, hpre, he⟩
  · exact .inl (h.after (hnone _ _ _))
  · refine .inr ⟨⟨subject, d, tool, callArgs, key, answer, workloadRefusal_none hworkload, rfl,
      hsubject, hverified, hfound, hcoerced, hkey, hasked, hp⟩,
      .policyAsked (policyDoc d toolName callArgs) (.ok answer) ::
        (PolicyClient.decide e.post (policyDoc d toolName callArgs)).1.map Event.audit ++ pre, ?_, ?_, ?_⟩
    · rw [List.filterMap_append, hpre, List.append_nil]
      exact hnone _ _ _
    · exact List.mem_append_left _ (List.mem_cons_self ..)
    · rw [he, hasked]
      simp [Run.after, Granted.run]

/-- No coerced argument has a reserved name, or is the approval's. -/
theorem granted_undeclared {services : Services σ} {b : Backend σ} {token : Option String} {toolName : String}
    {args : Args} {workloadToken : Option String} {s : σ}
    (g : (services.enforcer b).Granted token toolName args workloadToken s) :
    ∀ k ∈ "approval_id" :: reservedKeys, g.callArgs.get? k = none := fun _ hk =>
  coerceArgs_undeclared g.coerced (buildTools_undeclared g.found hk)

/-- The tool of a granted call, by its name. -/
theorem granted_tool {services : Services σ} {b : Backend σ} {token : Option String} {toolName name : String}
    {args : Args} {workloadToken : Option String} {s : σ} {tool : Tool σ}
    (g : (services.enforcer b).Granted token toolName args workloadToken s) (hname : toolName = name)
    (h : (buildTools b).get? name = some tool) : g.tool = tool := by
  have hfound : (buildTools b).get? toolName = some g.tool := g.found
  subst hname
  exact Option.some.inj (hfound.symm.trans h)

theorem granted_askedFor {services : Services σ} {b : Backend σ} {token : Option String} {toolName : String}
    {args : Args} {workloadToken : Option String} {s : σ}
    (g : (services.enforcer b).Granted token toolName args workloadToken s) :
    AskedFor g.d toolName g.callArgs (policyDoc g.d toolName g.callArgs) :=
  askedFor_policyDoc fun k hk => granted_undeclared g k (List.mem_cons_of_mem _ hk)

theorem execute_not_held {d : Delegation} {token toolName : String} {tool : Tool σ} {callArgs : Args}
    {key : Option String} {decision : PolicyResult} {s : σ} {res : ToolResult}
    (h : (execute d token toolName tool callArgs key decision s).result = .ok res) :
    res.outcome = .ok ∨ res.outcome = .error := by
  unfold execute at h
  dsimp only at h
  rw [Run.after_result] at h
  generalize tool.handler _ (some token) s = r at h
  rcases r with ⟨_ | v, s'⟩
  · simp only [Run.after_result, Run.pure_result, Except.ok.injEq] at h
    exact .inr (h ▸ rfl)
  · dsimp only at h
    rw [Run.after_result] at h
    cases hr : reportedError v with
    | error exc => simp [hr] at h
    | ok reported =>
      simp only [hr, Run.after_result, Run.pure_result, Except.ok.injEq] at h
      exact .inl (h ▸ rfl)

/-- When the policy's answer leads to a hold. -/
theorem decided_held {e : Enforcer σ} {d : Delegation} {token toolName : String} {tool : Tool σ}
    {args callArgs : Args} {key : Option String} {answer : PolicyResult} {s : σ} {res : ToolResult}
    (h : (e.decided d token toolName tool args callArgs key answer s).result = .ok res)
    (hheld : res.outcome = .approvalRequired) :
    answer.decision = .requireApproval ∧
      (((args.get? "approval_id").getD .null).truthy = false ∨
        ∃ id, Py.str ((args.get? "approval_id").getD .null) = .ok id ∧
        e.approvals ⟨id, toolName, callArgs, d.user, d.workload, d.tenantOrEmpty⟩ s = .ok false) := by
  have hexecuted : ∀ {res : ToolResult}, (execute d token toolName tool callArgs key answer s).result = .ok res →
      res.outcome ≠ .approvalRequired := by
    intro res hres
    rcases execute_not_held hres with ho | ho <;> rw [ho] <;> decide
  unfold decided at h
  dsimp only at h
  split at h
  · cases h
    cases hheld
  · exact absurd hheld (hexecuted h)
  · rename_i hd
    refine ⟨hd, ?_⟩
    split at h
    · rename_i hfalsy
      exact .inl (by simpa using hfalsy)
    split at h
    · cases h
    rename_i id hid
    rw [Run.after_result] at h
    split at h
    · cases h
    · exact absurd hheld (hexecuted h)
    · rename_i hno
      exact .inr ⟨id, hid, hno⟩

/-- When the call of a verified delegation is held. -/
theorem callAs_held {e : Enforcer σ} {d : Delegation} {token toolName : String} {args : Args} {s : σ}
    {res : ToolResult} (h : (e.callAs d token toolName args s).result = .ok res)
    (hheld : res.outcome = .approvalRequired) :
    ∃ tool callArgs answer, e.tools.get? toolName = some tool ∧ coerceArgs tool.properties args = .ok callArgs ∧
      (PolicyClient.decide e.post (policyDoc d toolName callArgs)).2 = .ok answer ∧
      answer.decision = .requireApproval ∧
      (((args.get? "approval_id").getD .null).truthy = false ∨
        ∃ id, Py.str ((args.get? "approval_id").getD .null) = .ok id ∧
        e.approvals ⟨id, toolName, callArgs, d.user, d.workload, d.tenantOrEmpty⟩ s = .ok false) := by
  unfold callAs at h
  split at h
  · cases h
    cases hheld
  rename_i tool hfound
  split at h
  · cases h
  rename_i callArgs hcoerced
  split at h
  · cases h
  rename_i key hkey
  dsimp only at h
  rw [Run.after_result] at h
  split at h
  · cases h
  rename_i answer hasked
  exact ⟨tool, callArgs, answer, hfound, hcoerced, hasked, decided_held h hheld⟩

/-- **When a call is held**: the policy requires approval, and the call names
none or the approvals service does not confirm it. -/
theorem call_held {e : Enforcer σ} {token : Option String} {toolName : String} {args : Args}
    {workloadToken : Option String} {s : σ} {res : ToolResult}
    (h : (e.call token toolName args workloadToken s).result = .ok res) (hheld : res.outcome = .approvalRequired) :
    ∃ subject d tool callArgs answer, token = some subject ∧ e.verifier subject = .ok d ∧
      e.tools.get? toolName = some tool ∧ coerceArgs tool.properties args = .ok callArgs ∧
      (PolicyClient.decide e.post (policyDoc d toolName callArgs)).2 = .ok answer ∧
      answer.decision = .requireApproval ∧
      (((args.get? "approval_id").getD .null).truthy = false ∨
        ∃ id, Py.str ((args.get? "approval_id").getD .null) = .ok id ∧
        e.approvals ⟨id, toolName, callArgs, d.user, d.workload, d.tenantOrEmpty⟩ s = .ok false) := by
  unfold call at h
  split at h
  · cases h
  · cases h
    cases hheld
  split at h
  · cases h
    cases hheld
  rename_i subject
  split at h
  · cases h
    cases hheld
  split at h
  · split at h
    · cases h
      cases hheld
    · cases h
  rename_i d hverified
  obtain ⟨tool, callArgs, answer, hheld⟩ := callAs_held h hheld
  exact ⟨subject, d, tool, callArgs, answer, rfl, hverified, hheld⟩

/-- **Complete mediation.** For every behaviour of the services and of the
backend, a call of the catalogue's enforcer invokes at most one handler; it
does so only for an admitted workload and a verified delegation `d`, after the
policy was asked with `d`'s own values and the coerced arguments and answered
allow, or require-approval and the approvals service confirmed these very
arguments; the handler gets exactly those, `d`'s tenant, and a key only when
the tool is idempotent. A call that invokes nothing answers a refusal. -/
theorem complete_mediation (services : Services σ) (b : Backend σ) (token : Option String)
    (toolName : String) (args : Args) (workloadToken : Option String) (s : σ) :
    let r := (services.enforcer b).call token toolName args workloadToken s
    r.invocations.length ≤ 1 ∧
    (∀ name kw, (name, kw) ∈ r.invocations → ∃ subject d tool callArgs doc answer,
      (∀ check, services.workload = some check → ∃ caller, check workloadToken = .ok caller) ∧
      token = some subject ∧ services.verifier subject = .ok d ∧
      name = toolName ∧ (buildTools b).get? toolName = some tool ∧
      coerceArgs tool.properties args = .ok callArgs ∧
      AskedFor d toolName callArgs doc ∧
      .policyAsked doc (.ok answer) ∈ r.trace ∧
      (PolicyClient.decide services.post doc).2 = .ok answer ∧
      (answer.decision = .allow ∨ (answer.decision = .requireApproval ∧ ∃ approvalId id,
        args.get? "approval_id" = some approvalId ∧ Py.str approvalId = .ok id ∧
        services.approvals ⟨id, toolName, callArgs, d.user, d.workload, d.tenantOrEmpty⟩ s = .ok true)) ∧
      kw.args = callArgs ∧ callArgs.get? "approval_id" = none ∧ kw.tenant = d.tenant ∧
      (kw.extra.isSome → tool.idempotent = true)) ∧
    (r.invocations = [] → r.Refused) := by
  intro r
  rcases call_cases (services.enforcer b) token toolName args workloadToken s with h | ⟨g, pre, hpre, hasked, he⟩
  · refine ⟨by simp [r, h.invocations], fun name kw hm => ?_, fun _ => h.refused⟩
    rw [show r.invocations = [] from h.invocations] at hm
    cases hm
  have hinv : r.invocations = [(toolName, g.kwargs)] := by
    show ((services.enforcer b).call token toolName args workloadToken s).invocations = _
    rw [he, Run.invocations_after, hpre, List.nil_append]
    exact execute_invocations _ _ _ _ _ _ _ _
  refine ⟨by simp [hinv], fun name kw hm => ?_, fun h => ?_⟩
  · rw [hinv, List.mem_singleton, Prod.mk.injEq] at hm
    obtain ⟨rfl, rfl⟩ := hm
    refine ⟨g.subject, g.d, g.tool, g.callArgs, policyDoc g.d name g.callArgs, g.answer, g.workload_ok,
      g.token_eq, g.verified, rfl, g.found, g.coerced,
      granted_askedFor g, ?_, g.asked, ?_, rfl, granted_undeclared g _ (List.mem_cons_self ..), rfl, ?_⟩
    · show _ ∈ ((services.enforcer b).call token name args workloadToken s).trace
      rw [he, Run.after_trace]
      exact List.mem_append_left _ hasked
    · rcases g.permitted with h | ⟨h, approvalId, id, h1, -, h2, h3⟩
      · exact .inl h
      · exact .inr ⟨h, approvalId, id, h1, h2, h3⟩
    · simp only [Granted.kwargs]
      split <;> simp_all
  · rw [hinv] at h
    cases h

end Enforcer

end AgentPlatform
