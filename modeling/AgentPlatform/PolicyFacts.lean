/-
Facts about the policy and its clients.

`decision_eq`: the three bodies of `decision` exclude each other, so it is
deny, else require-approval, else allow. `decide_opa`: what the client answers
over the engine that evaluates the policy.

`unscoped_gets_nothing_iff`: an identity without a tenant is refused
everything exactly when no role it holds is one of the default matrix's that
grant tools. A missing tenant reaches the policy as `null`, and `null` holds.
-/
import AgentPlatform.EnforcementFacts
import AgentPlatform.Tokens

namespace AgentPlatform

namespace Policy

theorem decision_eq (b : Bundle) (input : Args) :
    decision b input = if deny b input then .deny else if needsApproval b input then .requireApproval
      else if allow b input then .allow else .deny := by
  unfold decision ruleValue decisionBodies
  cases deny b input <;> cases needsApproval b input <;> cases allow b input <;> rfl

theorem decision_of_deny {b : Bundle} {input : Args} (h : deny b input = true) :
    decision b input = .deny := by simp [decision_eq, h]

/-- A tool that no role grants is denied. -/
theorem deny_of_not_mayCall {b : Bundle} {input : Args}
    (h : mayCall b input (input.get? "tool") = false) : deny b input = true := by
  unfold deny
  simp only [h]
  cases isTrusted input <;> cases holds (input.get? "tenant") <;> simp

theorem decision_allow {b : Bundle} {input : Args} (h : decision b input = .allow) : allow b input = true := by
  rw [decision_eq] at h
  split at h
  · cases h
  · split at h
    · cases h
    · split at h
      · assumption
      · cases h

theorem decision_requireApproval {b : Bundle} {input : Args} (h : decision b input = .requireApproval) :
    needsApproval b input = true := by
  rw [decision_eq] at h
  split at h
  · cases h
  · split at h
    · assumption
    · split at h <;> cases h

/-- Direct identifiers are never read outright. -/
theorem pii_not_allow {b : Bundle} {input : Args} {tool : String} (ht : input.get? "tool" = some (.str tool))
    (hpii : tool ∈ piiTools) : decision b input ≠ .allow := by
  intro h
  have hallow := decision_allow h
  have hin : isPii input = true := by
    simp only [isPii, ht, inSet, List.any_eq_true]
    exact ⟨tool, hpii, by simp [isStr]⟩
  have hnot : isRefund input = false := by
    simp only [piiTools, List.mem_singleton] at hpii
    simp [isRefund, ht, isStr, refundTool, hpii]
  simp [allow, hin, hnot] at hallow

/-- Any tool but a refund or a read of direct identifiers needs no approval. -/
theorem not_requireApproval {b : Bundle} {input : Args} {tool : String}
    (ht : input.get? "tool" = some (.str tool)) (hrefund : tool ≠ refundTool) (hpii : tool ∉ piiTools) :
    decision b input ≠ .requireApproval := by
  intro h
  have hneeds := decision_requireApproval h
  have hin : isPii input = false := by
    simp only [isPii, ht, inSet, List.any_eq_false]
    intro s hs heq
    simp only [isStr, decide_eq_true_eq] at heq
    exact hpii (heq ▸ hs)
  have hnot : isRefund input = false := by simp [isRefund, ht, isStr, hrefund]
  simp [needsApproval, hin, hnot] at hneeds

/-! ## The tiers of a refund -/

section Refund

variable {b : Bundle} {input : Args} (ht : input.get? "tool" = some (.str refundTool))

include ht

/-- A refund that is allowed outright is at most the automatic limit. -/
theorem refund_allow (h : decision b input = .allow) :
    ∃ n, (input.get? "amount").bind number = some n ∧ 0 < n ∧ n ≤ limit autoRefundLimit := by
  have hallow := decision_allow h
  have hnot : isNotRefund input = false := by simp [isNotRefund, ht, isStr]
  simp only [allow, hnot, Bool.and_false, Bool.false_and, Bool.false_or, Bool.and_eq_true] at hallow
  obtain ⟨⟨-, hpos⟩, hmost⟩ := hallow
  cases hn : (input.get? "amount").bind number with
  | none => simp [isPositiveNumber, hn] at hpos
  | some n =>
    simp only [isPositiveNumber, atMost, hn, decide_eq_true_eq] at hpos hmost
    exact ⟨n, rfl, hpos, hmost⟩

/-- A refund that needs approval is above the automatic limit and at most the
ceiling. -/
theorem refund_requireApproval (h : decision b input = .requireApproval) :
    ∃ n, (input.get? "amount").bind number = some n ∧ 0 < n ∧ limit autoRefundLimit < n ∧
      n ≤ limit approvalRefundLimit := by
  have hneeds := decision_requireApproval h
  have hpii : isPii input = false := by
    simp only [isPii, ht]
    decide
  simp only [needsApproval, hpii, Bool.and_false, Bool.false_and, Bool.or_false, Bool.and_eq_true] at hneeds
  obtain ⟨⟨⟨-, hpos⟩, habove⟩, hmost⟩ := hneeds
  cases hn : (input.get? "amount").bind number with
  | none => simp [isPositiveNumber, hn] at hpos
  | some n =>
    simp only [isPositiveNumber, above, atMost, hn, decide_eq_true_eq] at hpos habove hmost
    exact ⟨n, rfl, hpos, habove, hmost⟩

end Refund

end Policy

/-! ## The client over the engine -/

section Client

variable [UnicodeData] (b : Policy.Bundle) (fmt : Json → String)

omit [UnicodeData] in
theorem queryInput_payload (doc : Args) : queryInput (.obj [("input", .obj doc.entries)]) = doc := by
  simp [queryInput, Dict.find, Dict.ofList_entries]

omit [UnicodeData] in
theorem fetchResult_opa {doc : Args} (h : doc.encodable = true) :
    PolicyClient.fetchResult (opa b fmt) doc = .ok (opaResult b fmt doc) := by
  have he : (Json.obj [("input", .obj doc.entries)]).encodable = true := by
    have h' : Json.encodableFields doc.entries = true := h
    simp [Json.encodable, Json.encodableFields, h']
  have hok : ∀ j, (Response.mk 200 j).isSuccess = true := fun _ => rfl
  simp only [PolicyClient.fetchResult, Post.send, he, if_true, opa, queryInput_payload, bind,
    Except.bind, hok]
  rfl

/-- The engine's decision is the client's, for a document that can be sent. -/
theorem decide_opa {doc : Args} (h : doc.encodable = true) :
    ∃ answer, (PolicyClient.decide (opa b fmt) doc).2 = .ok answer ∧
      answer.decision = Policy.decision b doc := by
  unfold PolicyClient.decide
  rw [fetchResult_opa b fmt h]
  simp only [PolicyClient.readResult, opaResult, getField, Dict.find, if_true, Option.getD_some]
  cases Policy.decision b doc <;> exact ⟨_, rfl, rfl⟩

/-- A document that cannot be sent is denied. -/
theorem decide_unsent {post : Post} {doc : Args} (h : doc.encodable = false) :
    ∃ answer, (PolicyClient.decide post doc).2 = .ok answer ∧ answer.decision = .deny := by
  have he : (Json.obj [("input", .obj doc.entries)]).encodable = false := by
    have h' : Json.encodableFields doc.entries = false := h
    simp [Json.encodable, Json.encodableFields, h']
  have hf : ∃ e, PolicyClient.fetchResult post doc = .error e := by
    simp only [PolicyClient.fetchResult, Post.send, he]
    exact ⟨_, rfl⟩
  obtain ⟨e, hf⟩ := hf
  unfold PolicyClient.decide
  rw [hf]
  exact ⟨_, rfl, rfl⟩

/-- What the client answers that is not a denial was decided by the policy, on
a document that could be sent. -/
theorem decide_opa_granted {doc : Args} {answer : PolicyResult}
    (h : (PolicyClient.decide (opa b fmt) doc).2 = .ok answer) (hd : answer.decision ≠ .deny) :
    doc.encodable = true ∧ answer.decision = Policy.decision b doc := by
  cases he : doc.encodable with
  | true =>
    obtain ⟨answer', h', hd'⟩ := decide_opa b fmt he
    rw [h, Except.ok.injEq] at h'
    exact ⟨rfl, h' ▸ hd'⟩
  | false =>
    obtain ⟨answer', h', hd'⟩ := @decide_unsent _ (opa b fmt) doc he
    rw [h, Except.ok.injEq] at h'
    exact absurd (h' ▸ hd') hd

/-- What is run through the engine was not denied by the policy. -/
theorem Enforcer.Granted.not_denied {σ : Type} {e : Enforcer σ} {token : Option String} {toolName : String}
    {args : Args} {workloadToken : Option String} {s : σ}
    (g : e.Granted token toolName args workloadToken s) (hp : e.post = opa b fmt) :
    (Enforcer.policyDoc g.d toolName g.callArgs).encodable = true ∧ g.answer.decision ≠ .deny ∧
      g.answer.decision = Policy.decision b (Enforcer.policyDoc g.d toolName g.callArgs) := by
  have hne : g.answer.decision ≠ .deny := by
    rcases g.permitted with h | ⟨h, -⟩ <;> rw [h] <;> decide
  have hasked := g.asked
  rw [hp] at hasked
  obtain ⟨he, hd⟩ := decide_opa_granted b fmt hasked hne
  exact ⟨he, hne, hd⟩

/-- A string argument of a granted call is a string, or `null`: what has no text
cannot be sent to the engine. -/
theorem Enforcer.Granted.string_arg {σ : Type} {services : Services σ} {backend : Backend σ} {token : Option String}
    {toolName : String} {args : Args} {workloadToken : Option String} {s : σ}
    (g : (services.enforcer backend).Granted token toolName args workloadToken s)
    (hp : services.post = opa b fmt) {k : String} {v : Json} (hk : k ∉ reservedKeys)
    (hdeclared : g.tool.properties.get? k = some (some .string)) (hv : g.callArgs.get? k = some v) :
    v = .null ∨ ∃ text, v = .str text := by
  obtain ⟨t, w, ht, -, hw⟩ := coerceArgs_declared g.coerced hv
  cases hdeclared.symm.trans ht
  rcases coerce_string hw with h | h | ⟨rfl, e, he⟩
  · exact .inl h
  · exact .inr h
  · exfalso
    obtain ⟨hencodable, -, -⟩ := g.not_denied b fmt hp
    have hdoc := (Enforcer.granted_askedFor g).rest k hk
    rw [hv] at hdoc
    obtain ⟨text, htext⟩ := Py.str_ok
      ((Json.encodableFields_iff _).1 hencodable _ (Dict.mem_entries.2 hdoc))
    rw [he] at htext
    cases htext

end Client

/-! ## An identity without a tenant -/

namespace Policy

/-- The roles the default matrix gives tools. -/
def grantingRoles : List String := ["support_rep", "billing", "read_only", "privacy", "manager"]

theorem defaultRoleTools_eq_nil_iff (role : String) :
    (defaultRoleTools.get? role).getD [] = [] ↔ role ∉ grantingRoles := by
  constructor
  · intro h hr
    have hall : ∀ r ∈ grantingRoles, (defaultRoleTools.get? r).getD [] ≠ [] := by decide
    exact hall role hr h
  · intro hr
    cases h : defaultRoleTools.get? role with
    | none => rfl
    | some tools =>
      have hall : ∀ e ∈ defaultRoleTools.entries, e.1 ∈ grantingRoles ∨ e.2 = [] := by decide
      rcases hall _ (Dict.mem_entries.2 h) with hm | hm
      · exact absurd hm hr
      · simpa using hm

/-- The bundle of the shipped matrices, over any catalogue and revision. -/
def bundle (catalogue : List String) (policyVersion : Option String) : Bundle :=
  ⟨defaultRoleTools, tenantRoleTools, catalogue, policyVersion⟩

variable (catalogue : List String) (version : Option String)

/-- No tenant has an override, and `null` and the empty string are no tenant's
name, so the default matrix answers. -/
theorem roleToolsFor_unscoped {tenant : Json} (ht : tenant = .null ∨ tenant = .str "") (role : String) :
    roleToolsFor (bundle catalogue version) tenant (.str role) = defaultRoleTools.get? role := by
  have hno : ref tenantRoleTools tenant = none := by rcases ht with rfl | rfl <;> decide
  have hdefault : ref defaultRoleTools (.str role) = defaultRoleTools.get? role := rfl
  simp only [roleToolsFor, roleToolsForBodies, bundle, hno, hdefault, Option.bind_none,
    Option.isNone_none, if_true]
  cases defaultRoleTools.get? role <;> rfl

variable {input : Args} {tenant : Json} {roles : List String}

theorem toolsForRoles_unscoped (ht : tenant = .null ∨ tenant = .str "")
    (hi : input.get? "tenant" = some tenant) (hr : input.get? "roles" = some (.arr (roles.map .str))) :
    toolsForRoles (bundle catalogue version) input = [] ↔ ∀ role ∈ roles, role ∉ grantingRoles := by
  simp only [toolsForRoles, hi, hr, members, List.flatMap_eq_nil_iff, List.mem_map, forall_exists_index,
    and_imp, forall_apply_eq_imp_iff₂, roleToolsFor_unscoped _ _ ht, defaultRoleTools_eq_nil_iff]

theorem mayCall_unscoped (ht : tenant = .null ∨ tenant = .str "")
    (hi : input.get? "tenant" = some tenant) (hr : input.get? "roles" = some (.arr (roles.map .str)))
    (hroles : ∀ role ∈ roles, role ∉ grantingRoles) (tool : Option Json) :
    mayCall (bundle catalogue version) input tool = false := by
  cases tool with
  | none => rfl
  | some tool =>
    simp only [mayCall, hi, hr, members, List.any_map, List.any_eq_false, Function.comp]
    intro role hm
    rw [roleToolsFor_unscoped _ _ ht]
    have hnil := (defaultRoleTools_eq_nil_iff role).2 (hroles role hm)
    cases h : defaultRoleTools.get? role with
    | none => simp
    | some tools =>
      have : tools = [] := by simpa [h] using hnil
      simp [this, inSet]

end Policy

/-! ## The tools offered -/

theorem encodableItems_str (l : List String) : Json.encodableItems (l.map .str) = true := by
  simp [Json.encodableItems_iff, Json.encodable]

theorem setOf_strs (l : List String) : setOf (.arr (l.map .str)) = .ok (l.map .str) := by
  have hany : (l.map Json.str).any unhashable = false := by simp [unhashable]
  cases l with
  | nil => rfl
  | cons x l => simpa [setOf, Json.truthy] using hany

/-- The tools offered, as the engine computes them. -/
theorem toolsForRoles_opaTools (b : Policy.Bundle) (roles : List String) (tenant : Option String) :
    toolsForRoles (opaTools b) roles tenant = .ok ((Policy.toolsForRoles b (Dict.ofList
      [("roles", .arr (roles.map .str)), ("tenant", .ofOption tenant)])).map .str) := by
  have hdoc : ∀ t : Json, t.encodable = true →
      opaPost (opaTools b) (Dict.ofList [("roles", .arr (roles.map .str)), ("tenant", t)]) =
        .arr ((Policy.toolsForRoles b (Dict.ofList [("roles", .arr (roles.map .str)),
          ("tenant", t)])).map .str) := by
    intro t ht
    have he : (Json.obj [("input", .obj (Dict.ofList [("roles", Json.arr (roles.map .str)),
        ("tenant", t)]).entries)]).encodable = true := by
      simp [Dict.ofList, Dict.insertAll, Dict.insert, Dict.upsert, Json.encodable, Json.encodableFields,
        encodableItems_str, ht]
    have hok : ∀ j, (Response.mk 200 j).isSuccess = true := fun _ => rfl
    simp only [opaPost, Post.send, he, if_true, opaTools, queryInput_payload, bind, Except.bind, hok,
      getField, Dict.find, Option.getD_some]
  cases tenant with
  | none => rw [toolsForRoles, hdoc .null rfl, setOf_strs]; rfl
  | some t => rw [toolsForRoles, hdoc (.str t) rfl, setOf_strs]; rfl

section Unscoped

variable [UnicodeData] {σ : Type} (v : TokenVerifier) (catalogue : List String) (version : Option String)
  (fmt : Json → String)

/-- The enforcement point over the shipped policy, in front of any backend. -/
def policyEnforcer (workload : Option (Option String → Except Exn String))
    (approvals : VerifyRequest → σ → Except Exn Bool) (backend : Backend σ) : Enforcer σ :=
  Services.enforcer ⟨workload, v.verify, opa (Policy.bundle catalogue version) fmt, approvals⟩ backend

/-- What an identity without a tenant is to get: a denial of the call's
document, no handler, and no tool offered. -/
structure GetsNothing (e : Enforcer σ) (b : Policy.Bundle) (d : Delegation) (token toolName : String)
    (args : Args) (workloadToken : Option String) (s : σ) : Prop where
  decision : ∀ tool callArgs, e.tools.get? toolName = some tool →
    coerceArgs tool.properties args = .ok callArgs →
    Policy.decision b (Enforcer.policyDoc d toolName callArgs) = .deny
  invocations : (e.call (some token) toolName args workloadToken s).invocations = []
  offered : toolsForRoles (opaTools b) d.roles d.tenant = .ok []

omit [UnicodeData] in
theorem verify_eq {token : String} {claims : Claims} {d : Delegation} (hc : v.decode token = .ok claims)
    (hv : v.verify token = .ok d) : d = Delegation.fromClaims claims v.audience := by
  simp only [TokenVerifier.verify, hc] at hv
  split at hv
  · cases hv
  split at hv
  · cases hv
  · exact (Except.ok.inj hv).symm

/-- **An unscoped identity gets nothing exactly when no role it holds is one of
the default matrix's that grant tools.** A missing tenant is sent as `null`,
which holds as a condition and names no override, so the default matrix
answers. -/
theorem unscoped_gets_nothing_iff {token : String} {claims : Claims} {d : Delegation}
    (hc : v.decode token = .ok claims) (hv : v.verify token = .ok d)
    (ht : claims.tenant ∈ [Claim.absent, .null, .str ""])
    (workload : Option (Option String → Except Exn String))
    (approvals : VerifyRequest → σ → Except Exn Bool) (backend : Backend σ)
    (toolName : String) (args : Args) (workloadToken : Option String) (s : σ) :
    GetsNothing (policyEnforcer v catalogue version fmt workload approvals backend)
        (Policy.bundle catalogue version) d token toolName args workloadToken s ↔
      ∀ role ∈ d.roles, role ∉ Policy.grantingRoles := by
  have htenant : Json.ofOption d.tenant = .null ∨ Json.ofOption d.tenant = .str "" := by
    rw [verify_eq v hc hv]
    simp only [List.mem_cons, List.not_mem_nil, or_false] at ht
    rcases ht with h | h | h <;> simp [Delegation.fromClaims, h, Claim.get, Json.ofOption]
  have hoffered : toolsForRoles (opaTools (Policy.bundle catalogue version)) d.roles d.tenant = .ok [] ↔
      ∀ role ∈ d.roles, role ∉ Policy.grantingRoles := by
    rw [toolsForRoles_opaTools, Except.ok.injEq, List.map_eq_nil_iff]
    exact Policy.toolsForRoles_unscoped catalogue version htenant rfl rfl
  constructor
  · intro h
    exact hoffered.1 h.offered
  · intro hroles
    have hdeny : ∀ (tool : Tool σ) callArgs, (buildTools backend).get? toolName = some tool →
        coerceArgs tool.properties args = .ok callArgs →
        Policy.decision (Policy.bundle catalogue version) (Enforcer.policyDoc d toolName callArgs) = .deny := by
      intro tool callArgs hfound hcoerced
      have hdoc : Enforcer.AskedFor d toolName callArgs (Enforcer.policyDoc d toolName callArgs) :=
        Enforcer.askedFor_policyDoc fun k hk => coerceArgs_undeclared hcoerced
          (buildTools_undeclared hfound (List.mem_cons_of_mem _ hk))
      exact Policy.decision_of_deny (Policy.deny_of_not_mayCall
        (Policy.mayCall_unscoped catalogue version htenant hdoc.tenant hdoc.roles hroles _))
    refine ⟨hdeny, ?_, hoffered.2 hroles⟩
    rcases Enforcer.call_cases (policyEnforcer v catalogue version fmt workload approvals backend) (some token)
      toolName args workloadToken s with h | ⟨g, -, -, -, -⟩
    · exact h.invocations
    · exfalso
      obtain ⟨-, hne, hd⟩ := g.not_denied (Policy.bundle catalogue version) fmt rfl
      have hsubject : token = g.subject := Option.some.inj g.token_eq
      have hgd : g.d = d := by
        have hverified : v.verify g.subject = .ok g.d := g.verified
        rw [← hsubject, hv] at hverified
        exact (Except.ok.inj hverified).symm
      rw [hgd, hdeny g.tool g.callArgs g.found g.coerced] at hd
      exact hne hd

end Unscoped

/-- The claims of a caller without a tenant, acting through the agent. -/
def unscopedClaims (roles : List String) : Claims where
  preferredUsername := .str "alice"
  sub := .str "u-1"
  act := some (.str Policy.trustedAgent)
  azp := .str "agent"
  realmRoles := some roles
  roles := none
  tenant := .absent

/-- A verifier that accepts every token as carrying these claims. -/
def acceptingVerifier (claims : Claims) : TokenVerifier := ⟨"tool-server", none, fun _ => .ok claims⟩

theorem unscoped_platform_admin_gets_nothing :
    @GetsNothing asciiData _
      (@policyEnforcer asciiData _ (acceptingVerifier (unscopedClaims ["platform_admin"])) toolNames none
        (fun _ => "") none (fun _ _ => .ok false) (@simulatorBackend asciiData))
      (Policy.bundle toolNames none)
      (Delegation.fromClaims (unscopedClaims ["platform_admin"]) "tool-server") "t" "crm.customer.read"
      (Dict.ofList [("customer_id", .str "c-100")]) none Simulators.State.initial :=
  (@unscoped_gets_nothing_iff asciiData _ (acceptingVerifier (unscopedClaims ["platform_admin"])) toolNames
    none (fun _ => "") "t" (unscopedClaims ["platform_admin"]) _ rfl rfl (by decide) none
    (fun _ _ => .ok false) (@simulatorBackend asciiData) "crm.customer.read" _ none
    Simulators.State.initial).2 (by decide)

/-- A support rep without a tenant is allowed a read, and the handler runs. -/
theorem unscoped_support_rep_reads :
    let claims := unscopedClaims ["support_rep"]
    let b := Policy.bundle toolNames none
    let args : Args := Dict.ofList [("customer_id", .str "c-100")]
    let e := @policyEnforcer asciiData _ (acceptingVerifier claims) toolNames none (fun _ => "") none
      (fun _ _ => .ok false) (@simulatorBackend asciiData)
    (acceptingVerifier claims).verify "t" = .ok (Delegation.fromClaims claims "tool-server") ∧
    claims.tenant = .absent ∧
    Policy.decision b (Enforcer.policyDoc (Delegation.fromClaims claims "tool-server") "crm.customer.read"
      args) = .allow ∧
    ¬ @GetsNothing asciiData _ e b (Delegation.fromClaims claims "tool-server") "t" "crm.customer.read" args
      none Simulators.State.initial := by
  refine ⟨rfl, rfl, by decide +kernel, fun h => ?_⟩
  have hlength := congrArg List.length (@GetsNothing.invocations asciiData _ _ _ _ _ _ _ _ _ h)
  revert hlength
  decide +kernel

end AgentPlatform
