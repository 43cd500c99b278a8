/-
The two transports of the tools: HTTP (`app/tools/http_app.py`), which passes
the posted object on, and MCP (`app/tools/mcp_server.py`), which declares each
tool's handler by hand. Both end in `ToolEnforcer.call`.

A call reads its arguments through the tool's schema and the approval it
presents, so two argument objects that agree on these are the same call:
`call_congr`. `same_power_iff`: over every request, MCP has a call that does the
same exactly when no approval is presented or the tool is `refunds.issue`, the
one whose handler takes an `approval_id`.
-/
import AgentPlatform.Live
import AgentPlatform.PolicyFacts

namespace AgentPlatform

/-! ## MCP -/

/-- A tool call over MCP: its handler, with values of the types the signature
declares. -/
inductive McpCall where
  | crmCustomerRead (customerId : String)
  | crmOrdersList (customerId : String)
  | ticketsRead (ticketId : String)
  | ticketsReplyDraft (ticketId body : String)
  | refundsQuote (orderId : String)
  | refundsIssue (orderId : String) (amount : F64) (approvalId : Option String)
  | privacyPiiRead (customerId : String)

namespace McpCall

def name : McpCall → String
  | crmCustomerRead _ => "crm.customer.read"
  | crmOrdersList _ => "crm.orders.list"
  | ticketsRead _ => "tickets.read"
  | ticketsReplyDraft _ _ => "tickets.reply.draft"
  | refundsQuote _ => "refunds.quote"
  | refundsIssue _ _ _ => "refunds.issue"
  | privacyPiiRead _ => "privacy.pii.read"

/-- The arguments a handler dispatches with. -/
def args : McpCall → Args
  | crmCustomerRead customerId => Dict.ofList [("customer_id", .str customerId)]
  | crmOrdersList customerId => Dict.ofList [("customer_id", .str customerId)]
  | ticketsRead ticketId => Dict.ofList [("ticket_id", .str ticketId)]
  | ticketsReplyDraft ticketId body => Dict.ofList [("ticket_id", .str ticketId), ("body", .str body)]
  | refundsQuote orderId => Dict.ofList [("order_id", .str orderId)]
  | refundsIssue orderId amount approvalId =>
    let args := Dict.ofList [("order_id", .str orderId), ("amount", .float amount)]
    if given approvalId then args.insert "approval_id" (.ofOption approvalId) else args
  | privacyPiiRead customerId => Dict.ofList [("customer_id", .str customerId)]

/-- `dispatch(name, args)`: the call it makes. -/
def dispatch {σ : Type} [UnicodeData] (e : Enforcer σ) (token workloadToken : Option String) (c : McpCall) (s : σ) :
    Run σ ToolResult := e.call token c.name c.args workloadToken s

end McpCall

/-! ## HTTP -/

/-- `POST /tools/{tool_name}`: the posted object is the call's arguments. -/
def callTool {σ : Type} [UnicodeData] (e : Enforcer σ) (token workloadToken : Option String) (toolName : String)
    (body : Args) (s : σ) : Run σ ToolResult := e.call token toolName body workloadToken s

/-- The object a client posts: the arguments, and the approval where it has one. -/
def postedBody (args : Args) (approvalId : Option String) : Args :=
  match approvalId with
  | some id => args.insert "approval_id" (.str id)
  | none => args

/-! ## Arguments that are the same mapping -/

/-- The same mapping, in whatever order. -/
def SameArgs (a b : Args) : Prop := ∀ k, a.get? k = b.get? k

namespace SameArgs

variable {a b : Args} (h : SameArgs a b)
include h

theorem symm : SameArgs b a := fun k => (h k).symm

theorem encodable : a.encodable = b.encodable := by
  have hle : ∀ {a b : Args}, SameArgs a b → a.encodable = true → b.encodable = true := by
    intro a b h ha
    refine (Json.encodableFields_iff _).2 fun e he => ?_
    have hget : a.get? e.1 = some e.2 := (h e.1).trans (Dict.mem_entries.1 he)
    exact (Json.encodableFields_iff _).1 ha _ (Dict.mem_entries.2 hget)
  rw [Bool.eq_iff_iff]
  exact ⟨hle h, hle h.symm⟩

theorem pyEq (c : Args) : c.pyEq a.sorted = c.pyEq b.sorted := by
  rw [Bool.eq_iff_iff, Args.pyEq_iff, Args.pyEq_iff]
  simp only [Args.get?_sorted, h _]

theorem policyDoc (d : Delegation) (toolName : String) :
    SameArgs (Enforcer.policyDoc d toolName a) (Enforcer.policyDoc d toolName b) := by
  intro k
  rw [Enforcer.policyDoc_get?, Enforcer.policyDoc_get?, h k]

theorem verify (s : ApprovalStore) (id tool user agent tenant : String) :
    s.verify ⟨id, tool, a, user, agent, tenant⟩ = s.verify ⟨id, tool, b, user, agent, tenant⟩ := by
  simp only [ApprovalStore.verify, VerifyRequest.matchesApproval, h.pyEq]

end SameArgs

/-! ## What the policy reads -/

namespace Policy

variable {input input' : Args} (h : SameArgs input input')
include h

theorem isTrusted_congr : isTrusted input = isTrusted input' := by simp only [isTrusted, h _]

theorem hasRole_congr (role : String) : hasRole input role = hasRole input' role := by simp only [hasRole, h _]

theorem mayCall_congr (b : Bundle) (tool : Option Json) : mayCall b input tool = mayCall b input' tool := by
  simp only [mayCall, h _]

theorem isRefund_congr : isRefund input = isRefund input' := by simp only [isRefund, h _]

theorem isPii_congr : isPii input = isPii input' := by simp only [isPii, h _]

theorem outsideCatalogue_congr (b : Bundle) : outsideCatalogue b input = outsideCatalogue b input' := by
  simp only [outsideCatalogue, h _]

theorem isBulk_congr : isBulk input = isBulk input' := by simp only [isBulk, h _]

theorem needsApproval_congr (b : Bundle) : needsApproval b input = needsApproval b input' := by
  simp only [needsApproval, isTrusted_congr h, mayCall_congr h, isRefund_congr h, isPii_congr h, hasRole_congr h, h _]

theorem allow_congr (b : Bundle) : allow b input = allow b input' := by
  simp only [allow, isTrusted_congr h, mayCall_congr h, isRefund_congr h, isPii_congr h, isNotRefund, h _]

theorem deny_congr (b : Bundle) : deny b input = deny b input' := by
  simp only [deny, isTrusted_congr h, mayCall_congr h, isRefund_congr h, outsideCatalogue_congr h, isBulk_congr h, h _]

theorem decision_congr (b : Bundle) : decision b input = decision b input' := by
  rw [decision_eq, decision_eq, deny_congr h, needsApproval_congr h, allow_congr h]

theorem reason_congr (b : Bundle) : reason b input = reason b input' := by
  simp only [reason, needsApproval_congr h, allow_congr h, isTrusted_congr h, mayCall_congr h, isRefund_congr h,
    isPii_congr h, hasRole_congr h, outsideCatalogue_congr h, isBulk_congr h, h _]

end Policy

section

variable [UnicodeData]

theorem decide_opa_congr (b : Policy.Bundle) (fmt : Json → String) {doc doc' : Args} (h : SameArgs doc doc') :
    PolicyClient.decide (opa b fmt) doc = PolicyClient.decide (opa b fmt) doc' := by
  have hfetch : PolicyClient.fetchResult (opa b fmt) doc = PolicyClient.fetchResult (opa b fmt) doc' := by
    cases he : doc.encodable with
    | true =>
      rw [fetchResult_opa b fmt he, fetchResult_opa b fmt (h.encodable ▸ he)]
      simp only [opaResult, Policy.decision_congr h, Policy.reason_congr h]
    | false =>
      have hunsent : ∀ {d : Args}, d.encodable = false → (Json.obj [("input", .obj d.entries)]).encodable = false := by
        intro d hd
        have hd' : Json.encodableFields d.entries = false := hd
        simp [Json.encodable, Json.encodableFields, hd']
      simp only [PolicyClient.fetchResult, Post.send, hunsent he, hunsent (h.encodable ▸ he)]
      rfl
  simp only [PolicyClient.decide, hfetch]

/-! ## What the handlers read -/

omit [UnicodeData] in
theorem bindArgs_congr {a b : Args} (h : SameArgs a b) (params : List String) (takesKey : Bool)
    (tenant : Option String)
    (extra : Option (Option String)) :
    bindArgs params takesKey ⟨a, tenant, extra⟩ = bindArgs params takesKey ⟨b, tenant, extra⟩ := by
  have hmem : ∀ k, k ∈ a.keys ↔ k ∈ b.keys := by
    intro k
    rw [Dict.mem_keys, Dict.mem_keys, h k]
  have hkeys : a.keys.any (fun k => decide (k ∉ params)) = b.keys.any (fun k => decide (k ∉ params)) := by
    rw [Bool.eq_iff_iff, List.any_eq_true, List.any_eq_true]
    simp only [hmem]
  simp only [bindArgs, hkeys, h _]

theorem handler_congr {σ : Type} {bk : Backend σ} {name : String} {tool : Tool σ}
    (ht : (buildTools bk).get? name = some tool) {a b : Args} (h : SameArgs a b) (tenant : Option String)
    (extra : Option (Option String)) : tool.handler ⟨a, tenant, extra⟩ = tool.handler ⟨b, tenant, extra⟩ := by
  rcases buildTools_cases ht with ⟨-, rfl⟩ | ⟨-, rfl⟩ | ⟨-, rfl⟩ | ⟨-, rfl⟩ | ⟨-, rfl⟩ | ⟨-, rfl⟩ | ⟨-, rfl⟩
  · simp only [crmCustomerRead, readHandler, bindArgs_congr h]
  · simp only [crmOrdersList, bindArgs_congr h]
  · simp only [ticketsRead, readHandler, bindArgs_congr h]
  · simp only [ticketsReplyDraft, bindArgs_congr h]
  · simp only [refundsQuote, readHandler, bindArgs_congr h]
  · simp only [refundsIssue, bindArgs_congr h]
  · simp only [privacyPiiRead, readHandler, bindArgs_congr h]

/-! ## What the enforcement point reads -/

omit [UnicodeData] in
/-- The approval a call presents: `approval_id`, where it is true. -/
def approvalIn (args : Args) : Option String :=
  match args.get? "approval_id" with
  | some (.str id) => if id = "" then none else some id
  | _ => none

/-- `approval_id` is a string, where it is there. -/
def TextApproval (args : Args) : Prop := ∀ v, args.get? "approval_id" = some v → ∃ id, v = .str id

omit [UnicodeData] in
/-- How the enforcement point reads it. -/
theorem approval_read {args : Args} (h : TextApproval args) :
    (approvalIn args = none ∧ ((args.get? "approval_id").getD .null).truthy = false) ∨
    ∃ id, approvalIn args = some id ∧ args.get? "approval_id" = some (.str id) ∧ (Json.str id).truthy = true := by
  unfold approvalIn
  cases hv : args.get? "approval_id" with
  | none => exact .inl ⟨rfl, rfl⟩
  | some v =>
    obtain ⟨id, rfl⟩ := h v hv
    by_cases hid : id = ""
    · simp [hid, Json.truthy]
    · simp [hid, Json.truthy]

theorem idempotencyKey_read {σ : Type} (tool : Tool σ) {args : Args} (h : TextApproval args) :
    Enforcer.idempotencyKey tool args = .ok (if tool.idempotent then approvalIn args else none) := by
  unfold Enforcer.idempotencyKey
  rcases approval_read h with ⟨hnone, hfalse⟩ | ⟨id, hsome, hget, htrue⟩
  · cases hv : args.get? "approval_id" with
    | none => simp [hnone]
    | some v =>
      rw [hv] at hfalse
      simp only [Option.getD_some] at hfalse
      simp [hfalse, hnone]
  · cases hi : tool.idempotent <;> simp [hget, hsome, htrue, Py.str, Except.map]

/-- The same answer, the same state and the same handlers. -/
structure SameRun {σ : Type} (r r' : Run σ ToolResult) : Prop where
  result : r.result = r'.result
  state : r.state = r'.state
  invoked : r.invocations.map Prod.fst = r'.invocations.map Prod.fst

namespace SameRun

variable {σ : Type} {r r' : Run σ ToolResult}

omit [UnicodeData] in
theorem refl (r : Run σ ToolResult) : SameRun r r := ⟨rfl, rfl, rfl⟩

omit [UnicodeData] in
theorem after (h : SameRun r r') {es es' : List Event}
    (hes : (es.filterMap Event.invocation).map Prod.fst = (es'.filterMap Event.invocation).map Prod.fst) :
    SameRun (r.after es) (r'.after es') :=
  ⟨h.result, h.state,
    by rw [Run.invocations_after, Run.invocations_after, List.map_append, List.map_append, hes, h.invoked]⟩

end SameRun

end

section Calls

variable [UnicodeData] {σ : Type} {bk : Backend σ} {name : String} {tool : Tool σ} {a b : Args}

theorem execute_congr (ht : (buildTools bk).get? name = some tool) (h : SameArgs a b) (d : Delegation)
    (token toolName : String) (key : Option String) (decision : PolicyResult) (s : σ) :
    SameRun (Enforcer.execute d token toolName tool a key decision s)
      (Enforcer.execute d token toolName tool b key decision s) := by
  simp only [Enforcer.execute, handler_congr ht h]
  exact SameRun.after (.refl _) rfl

variable (workload : Option (Option String → Except Exn String)) (verifier : String → Except Exn Delegation)
  (bundle : Policy.Bundle) (fmt : Json → String) (store : σ → ApprovalStore)

/-- The tool server over the policy and an approval store. -/
def toolEnforcer (bk : Backend σ) : Enforcer σ :=
  Services.enforcer ⟨workload, verifier, opa bundle fmt, fun q s => .ok ((store s).verify q)⟩ bk

theorem decided_congr (ht : (buildTools bk).get? name = some tool) (h : SameArgs a b) {args args' : Args}
    (htext : TextApproval args) (htext' : TextApproval args') (happroval : approvalIn args = approvalIn args')
    (d : Delegation) (token toolName : String) (key : Option String) (decision : PolicyResult) (s : σ) :
    SameRun ((toolEnforcer workload verifier bundle fmt store bk).decided d token toolName tool args a key decision s)
      ((toolEnforcer workload verifier bundle fmt store bk).decided d token toolName tool args' b key decision s) := by
  unfold Enforcer.decided
  cases decision.decision with
  | deny => exact .refl _
  | allow => exact execute_congr ht h ..
  | requireApproval =>
    rcases approval_read htext with ⟨hnone, hfalse⟩ | ⟨id, hsome, hget, htrue⟩
    · rcases approval_read htext' with ⟨-, hfalse'⟩ | ⟨id, hsome', -, -⟩
      · simp only [hfalse, hfalse']
        exact .refl _
      · rw [← happroval, hnone] at hsome'
        cases hsome'
    · rcases approval_read htext' with ⟨hnone', -⟩ | ⟨id', hsome', hget', htrue'⟩
      · rw [← happroval, hsome] at hnone'
        cases hnone'
      · obtain rfl : id = id' := Option.some.inj (hsome.symm.trans (happroval.trans hsome'))
        simp only [hget, hget', Option.getD_some, htrue, Py.str, toolEnforcer, Services.enforcer, h.verify]
        refine SameRun.after ?_ rfl
        cases (store s).verify ⟨id, toolName, b, d.user, d.workload, d.tenantOrEmpty⟩ with
        | true => exact execute_congr ht h ..
        | false => exact .refl _

/-- A call reads the same of both argument objects: the declared arguments, and
the approval presented. -/
structure ReadAlike (toolName : String) (args args' : Args) : Prop where
  declared : ∃ decl a a', declaredTools.get? toolName = some decl ∧ coerceArgs decl.properties args = .ok a ∧
    coerceArgs decl.properties args' = .ok a' ∧ SameArgs a a'
  approval : approvalIn args = approvalIn args'

/-- What is read alike is done alike, whoever calls and whatever the policy and
the approvals are. -/
theorem call_congr {toolName : String} {args args' : Args} (h : ReadAlike toolName args args')
    (htext : TextApproval args) (htext' : TextApproval args') (token workloadToken : Option String) (s : σ) :
    SameRun ((toolEnforcer workload verifier bundle fmt store bk).call token toolName args workloadToken s)
      ((toolEnforcer workload verifier bundle fmt store bk).call token toolName args' workloadToken s) := by
  obtain ⟨⟨decl, a, a', hdecl, ha, ha', hsame⟩, happroval⟩ := h
  obtain ⟨tool, htool, hproperties⟩ := buildTools_declares bk hdecl
  rw [← hproperties] at ha ha'
  have hcallAs : ∀ d token,
      SameRun ((toolEnforcer workload verifier bundle fmt store bk).callAs d token toolName args s)
        ((toolEnforcer workload verifier bundle fmt store bk).callAs d token toolName args' s) := by
    intro d token
    have hfound : (toolEnforcer workload verifier bundle fmt store bk).tools.get? toolName = some tool := htool
    have hpost : (toolEnforcer workload verifier bundle fmt store bk).post = opa bundle fmt := rfl
    simp only [Enforcer.callAs, hfound, ha, ha', idempotencyKey_read tool htext, idempotencyKey_read tool htext',
      happroval, hpost, decide_opa_congr bundle fmt (hsame.policyDoc d toolName)]
    refine SameRun.after ?_ rfl
    split
    · exact .refl _
    · exact decided_congr workload verifier bundle fmt store htool hsame htext htext' happroval ..
  unfold Enforcer.call
  split
  · exact .refl _
  · exact .refl _
  · split
    · exact .refl _
    · split
      · exact .refl _
      · split
        · exact .refl _
        · exact hcallAs ..

end Calls

/-! ## Arguments of the declared types -/

/-- A JSON value of a schema's type. -/
def JsonType.Has : JsonType → Json → Prop
  | .number, v => (∃ i, v = .int i) ∨ ∃ x, v = .float x
  | .integer, v => ∃ i, v = .int i
  | .boolean, v => ∃ b, v = .bool b
  | .string, v => ∃ s, v = .str s

/-- The declared arguments, each of its type, and no others. -/
structure TypedArgs (properties : Properties) (args : Args) : Prop where
  only : ∀ k v, args.get? k = some v → ∃ t, properties.get? k = some (some t) ∧ t.Has v
  complete : ∀ k t, properties.get? k = some t → ∃ v, args.get? k = some v

section Typed

variable [UnicodeData] {decl : Tool Unit} {toolName : String} {args : Args}

theorem typed_no_approval (hdecl : declaredTools.get? toolName = some decl) (h : TypedArgs decl.properties args) :
    args.get? "approval_id" = none := by
  cases hv : args.get? "approval_id" with
  | none => rfl
  | some v =>
    obtain ⟨t, ht, -⟩ := h.only _ _ hv
    rw [buildTools_undeclared hdecl (List.mem_cons_self ..)] at ht
    cases ht

omit [UnicodeData] in
theorem postedBody_get? {k : String} (hk : k ≠ "approval_id") (args : Args) (approvalId : Option String) :
    (postedBody args approvalId).get? k = args.get? k := by
  cases approvalId with
  | none => rfl
  | some id => exact Dict.get?_insert_ne _ _ (Ne.symm hk)

omit [UnicodeData] in
theorem postedBody_approval (hnone : args.get? "approval_id" = none) (approvalId : Option String) :
    approvalIn (postedBody args approvalId) = if given approvalId then approvalId else none := by
  cases approvalId with
  | none => simp [postedBody, approvalIn, hnone, given]
  | some id => by_cases hid : id = "" <;> simp [postedBody, approvalIn, given, hid]

omit [UnicodeData] in
theorem postedBody_text (hnone : args.get? "approval_id" = none) (approvalId : Option String) :
    TextApproval (postedBody args approvalId) := by
  intro v hv
  cases approvalId with
  | none =>
    rw [postedBody, hnone] at hv
    cases hv
  | some id =>
    rw [postedBody, Dict.get?_insert_self] at hv
    exact ⟨id, (Option.some.inj hv).symm⟩

/-- Two objects whose declared arguments coerce to the same values. -/
theorem readAlike_of {args args' : Args} (hdecl : declaredTools.get? toolName = some decl)
    (h : ∀ k t, decl.properties.get? k = some t → ∃ v v' u, args.get? k = some v ∧ args'.get? k = some v' ∧
      coerce v t = .ok u ∧ coerce v' t = .ok u) (happroval : approvalIn args = approvalIn args') :
    ReadAlike toolName args args' := by
  obtain ⟨a, ha⟩ : ∃ a, coerceArgs decl.properties args = .ok a := by
    refine coerceArgs_ok_iff.2 fun k v t hv ht => ?_
    obtain ⟨w, -, u, hw, -, hu, -⟩ := h k t ht
    rw [hv, Option.some.injEq] at hw
    exact ⟨u, hw ▸ hu⟩
  obtain ⟨a', ha'⟩ : ∃ a', coerceArgs decl.properties args' = .ok a' := by
    refine coerceArgs_ok_iff.2 fun k v t hv ht => ?_
    obtain ⟨-, w, u, -, hw, -, hu⟩ := h k t ht
    rw [hv, Option.some.injEq] at hw
    exact ⟨u, hw ▸ hu⟩
  refine ⟨⟨decl, a, a', hdecl, ha, ha', fun k => ?_⟩, happroval⟩
  rw [coerceArgs_get? ha, coerceArgs_get? ha']
  cases ht : decl.properties.get? k with
  | none => cases args.get? k <;> cases args'.get? k <;> rfl
  | some t =>
    obtain ⟨v, v', u, hv, hv', hu, hu'⟩ := h k t ht
    simp only [hv, hv', Option.bind_some, hu, hu']

theorem coerce_str (s : String) : coerce (.str s) (some .string) = .ok (.str s) := rfl

/-- A schema of one string. -/
theorem readAlike_one {p id : String} {args' : Args} (hdecl : declaredTools.get? toolName = some decl)
    (hone : ∀ k t, decl.properties.get? k = some t → k = p ∧ t = some .string) (hid : args.get? p = some (.str id))
    (hid' : args'.get? p = some (.str id)) (happroval : approvalIn args = approvalIn args') :
    ReadAlike toolName args args' := by
  refine readAlike_of hdecl (fun k t ht => ?_) happroval
  obtain ⟨rfl, rfl⟩ := hone k t ht
  exact ⟨_, _, _, hid, hid', coerce_str id, coerce_str id⟩

omit [UnicodeData] in
/-- An argument that is declared a string. -/
theorem TypedArgs.str (h : TypedArgs decl.properties args) {k : String}
    (hk : decl.properties.get? k = some (some .string)) : ∃ s, args.get? k = some (.str s) := by
  obtain ⟨v, hv⟩ := h.complete k _ hk
  obtain ⟨t, ht, hhas⟩ := h.only k v hv
  rw [hk, Option.some.injEq, Option.some.injEq] at ht
  subst ht
  obtain ⟨s, rfl⟩ := hhas
  exact ⟨s, hv⟩

omit [UnicodeData] in
theorem schema_one {p k : String} {t : Option JsonType} {hn : ([(p, some JsonType.string)].map Prod.fst).Nodup}
    (h : (⟨[(p, some .string)], hn⟩ : Properties).get? k = some t) : k = p ∧ t = some .string := by
  have hm : (k, t) ∈ [(p, some JsonType.string)] := Dict.mem_entries.2 h
  obtain ⟨rfl, rfl⟩ := Prod.mk.inj (List.mem_singleton.1 hm)
  exact ⟨rfl, rfl⟩

theorem coerce_double {v : Json} {x : F64} (hv : v.isNull = false) (h : Py.float v = .ok x) :
    coerce v (some .number) = .ok (.float x) := by
  simp only [coerce, hv, h, Except.map, swallow]
  rfl

theorem float_int {i : Int} (h : (F64.ofInt i).isFinite = true) : Py.float (.int i) = .ok (F64.ofInt i) := by
  simp only [Py.float, h, if_true]

theorem TypedArgs.double (h : TypedArgs decl.properties args) {k : String}
    (hk : decl.properties.get? k = some (some .number))
    (hfinite : ∀ i, args.get? k = some (.int i) → (F64.ofInt i).isFinite = true) :
    ∃ v x, args.get? k = some v ∧ coerce v (some .number) = .ok (.float x) := by
  obtain ⟨v, hv⟩ := h.complete k _ hk
  obtain ⟨t, ht, hhas⟩ := h.only k v hv
  rw [hk, Option.some.injEq, Option.some.injEq] at ht
  subst ht
  rcases hhas with ⟨i, rfl⟩ | ⟨x, rfl⟩
  · exact ⟨_, F64.ofInt i, hv, coerce_double rfl (float_int (hfinite i hv))⟩
  · exact ⟨_, x, hv, coerce_double rfl rfl⟩

omit [UnicodeData] in
theorem schema_refund {k : String} {t : Option JsonType} (h : refundSchema.get? k = some t) :
    (k = "order_id" ∧ t = some .string) ∨ (k = "amount" ∧ t = some .number) := by
  have hm : (k, t) ∈ [("order_id", some JsonType.string), ("amount", some JsonType.number)] := Dict.mem_entries.2 h
  simpa using hm

omit [UnicodeData] in
theorem schema_reply {k : String} {t : Option JsonType} (h : replySchema.get? k = some t) :
    (k = "ticket_id" ∧ t = some .string) ∨ (k = "body" ∧ t = some .string) := by
  have hm : (k, t) ∈ [("ticket_id", some JsonType.string), ("body", some JsonType.string)] := Dict.mem_entries.2 h
  simpa using hm

/-- The handler of a tool that takes one string, and no approval. -/
theorem mcpCall_one {p : String} {approvalId : Option String} (c : String → McpCall)
    (hdecl : declaredTools.get? toolName = some decl) (htyped : TypedArgs decl.properties args)
    (hstring : decl.properties.get? p = some (some .string)) (hp : p ≠ "approval_id")
    (hone : ∀ k t, decl.properties.get? k = some t → k = p ∧ t = some .string)
    (hname : ∀ id, (c id).name = toolName) (hargs : ∀ id, (c id).args = Dict.ofList [(p, .str id)])
    (hposted : approvalIn (postedBody args approvalId) = none) :
    ∃ c : McpCall, c.name = toolName ∧ ReadAlike toolName (postedBody args approvalId) c.args ∧
      TextApproval c.args := by
  obtain ⟨id, hid⟩ := htyped.str hstring
  have hget : (c id).args.get? p = some (.str id) := by
    rw [hargs]
    simp [Dict.ofList, Dict.insertAll]
  have hnone : (c id).args.get? "approval_id" = none := by
    rw [hargs]
    simp [Dict.ofList, Dict.insertAll, Dict.get?_insert_ne _ _ hp]
  refine ⟨c id, hname id, readAlike_one hdecl hone ((postedBody_get? hp args approvalId).trans hid) hget ?_, ?_⟩
  · rw [hposted, approvalIn, hnone]
  · intro v hv
    rw [hnone] at hv
    cases hv

theorem mcpCall_reply {approvalId : Option String}
    (hdecl : declaredTools.get? "tickets.reply.draft" = some decl) (htyped : TypedArgs replySchema args)
    (hproperties : decl.properties = replySchema) (hposted : approvalIn (postedBody args approvalId) = none) :
    ∃ c : McpCall, c.name = "tickets.reply.draft" ∧
      ReadAlike "tickets.reply.draft" (postedBody args approvalId) c.args ∧
      TextApproval c.args := by
  rw [← hproperties] at htyped
  obtain ⟨id, hid⟩ := htyped.str (k := "ticket_id") (by rw [hproperties]; rfl)
  obtain ⟨body, hbody⟩ := htyped.str (k := "body") (by rw [hproperties]; rfl)
  refine ⟨.ticketsReplyDraft id body, rfl, readAlike_of hdecl (fun k t h => ?_) (hposted.trans rfl), ?_⟩
  · rw [hproperties] at h
    rcases schema_reply h with ⟨rfl, rfl⟩ | ⟨rfl, rfl⟩
    · exact ⟨_, _, _, (postedBody_get? (by decide) args approvalId).trans hid, rfl, coerce_str id, coerce_str id⟩
    · exact ⟨_, _, _, (postedBody_get? (by decide) args approvalId).trans hbody, rfl, coerce_str body, coerce_str body⟩
  · intro v hv
    cases hv

omit [UnicodeData] in
/-- What `refunds.issue` dispatches with. -/
theorem refundsIssue_args (orderId : String) (amount : F64) (approvalId : Option String) :
    (McpCall.refundsIssue orderId amount approvalId).args =
      postedBody (Dict.ofList [("order_id", .str orderId), ("amount", .float amount)])
        (if given approvalId then approvalId else none) := by
  unfold McpCall.args
  dsimp only
  split
  · rename_i h
    obtain ⟨id, rfl, -⟩ := given_iff.1 h
    rfl
  · rfl

theorem mcpCall_refund (approvalId : Option String) (hdecl : declaredTools.get? "refunds.issue" = some decl)
    (htyped : TypedArgs refundSchema args) (hproperties : decl.properties = refundSchema)
    (hamount : ∀ i, args.get? "amount" = some (.int i) → (F64.ofInt i).isFinite = true) :
    ∃ c : McpCall, c.name = "refunds.issue" ∧ ReadAlike "refunds.issue" (postedBody args approvalId) c.args ∧
      TextApproval c.args := by
  rw [← hproperties] at htyped
  have hnone := typed_no_approval hdecl htyped
  obtain ⟨id, hid⟩ := htyped.str (k := "order_id") (by rw [hproperties]; rfl)
  obtain ⟨amount, x, hv, hx⟩ := htyped.double (k := "amount") (by rw [hproperties]; rfl) hamount
  refine ⟨.refundsIssue id x approvalId, rfl, ?_, ?_⟩
  · rw [refundsIssue_args]
    refine readAlike_of hdecl (fun k t h => ?_) ?_
    · rw [hproperties] at h
      rcases schema_refund h with ⟨rfl, rfl⟩ | ⟨rfl, rfl⟩
      · exact ⟨_, _, _, (postedBody_get? (by decide) ..).trans hid, (postedBody_get? (by decide) ..).trans rfl,
          coerce_str id, coerce_str id⟩
      · exact ⟨_, _, _, (postedBody_get? (by decide) ..).trans hv, (postedBody_get? (by decide) ..).trans rfl, hx,
          coerce_double rfl rfl⟩
    · rw [postedBody_approval hnone, postedBody_approval rfl]
      split <;> rfl
  · rw [refundsIssue_args]
    exact postedBody_text rfl _

/-- The MCP call of a request: where an approval is presented, only
`refunds.issue` has one. -/
theorem exists_mcpCall (hdecl : declaredTools.get? toolName = some decl) (htyped : TypedArgs decl.properties args)
    (approvalId : Option String) (happroval : given approvalId = true → toolName = "refunds.issue")
    (hamount : ∀ i, args.get? "amount" = some (.int i) → (F64.ofInt i).isFinite = true) :
    ∃ c : McpCall, c.name = toolName ∧ ReadAlike toolName (postedBody args approvalId) c.args ∧
      TextApproval c.args := by
  have hno : toolName ≠ "refunds.issue" → approvalIn (postedBody args approvalId) = none := by
    intro hne
    rw [postedBody_approval (typed_no_approval hdecl htyped), if_neg fun h => hne (happroval h)]
  rcases buildTools_cases hdecl with ⟨rfl, rfl⟩ | ⟨rfl, rfl⟩ | ⟨rfl, rfl⟩ | ⟨rfl, rfl⟩ | ⟨rfl, rfl⟩ | ⟨rfl, rfl⟩ |
    ⟨rfl, rfl⟩
  · exact mcpCall_one .crmCustomerRead hdecl htyped rfl (by decide) (fun k t h => schema_one h) (fun _ => rfl)
      (fun _ => rfl) (hno (by decide))
  · exact mcpCall_one .crmOrdersList hdecl htyped rfl (by decide) (fun k t h => schema_one h) (fun _ => rfl)
      (fun _ => rfl) (hno (by decide))
  · exact mcpCall_one .ticketsRead hdecl htyped rfl (by decide) (fun k t h => schema_one h) (fun _ => rfl)
      (fun _ => rfl) (hno (by decide))
  · exact mcpCall_reply hdecl htyped rfl (hno (by decide))
  · exact mcpCall_one .refundsQuote hdecl htyped rfl (by decide) (fun k t h => schema_one h) (fun _ => rfl)
      (fun _ => rfl) (hno (by decide))
  · exact mcpCall_refund approvalId hdecl htyped rfl hamount
  · exact mcpCall_one .privacyPiiRead hdecl htyped rfl (by decide) (fun k t h => schema_one h) (fun _ => rfl)
      (fun _ => rfl) (hno (by decide))

omit [UnicodeData] in
/-- Only `refunds.issue` presents an approval. -/
theorem name_of_approval {c : McpCall} {id : String} (h : approvalIn c.args = some id) : c.name = "refunds.issue" := by
  cases c with
  | refundsIssue _ _ _ => rfl
  | _ => cases h

/-- An overflow escapes the `try` of `_coerce`. -/
theorem coerce_overflow {v : Json} {m : String} (hv : v.isNull = false) (h : Py.float v = .error ⟨.overflowError, m⟩) :
    coerce v (some .number) = .error ⟨.overflowError, m⟩ := by
  simp only [coerce, hv, h, Except.map, swallow]
  rfl

theorem float_int_overflow {i : Int} (h : (F64.ofInt i).isFinite = false) :
    Py.float (.int i) = .error ⟨.overflowError, "int too large to convert to float"⟩ := by
  simp only [Py.float, h, Bool.false_eq_true, if_false]

/-- An integer amount that coerces is one a double can hold. -/
theorem isFinite_of_coerce {i : Int} {v : Json} (h : coerce (.int i) (some .number) = .ok v) :
    (F64.ofInt i).isFinite = true := by
  cases hfinite : (F64.ofInt i).isFinite with
  | true => rfl
  | false =>
    rw [coerce_overflow rfl (float_int_overflow hfinite)] at h
    cases h

end Typed

/-! ## The power of a transport -/

section Power

variable [UnicodeData]

/-- MCP has a call that makes `ToolEnforcer.call` read the same tool, arguments
and approval as a request does, so that they are done alike. -/
def SamePower (toolName : String) (body : Args) : Prop :=
  ∃ c : McpCall, c.name = toolName ∧ ReadAlike toolName body c.args ∧
    ∀ (σ : Type) (bk : Backend σ) (workload : Option (Option String → Except Exn String))
      (verifier : String → Except Exn Delegation) (bundle : Policy.Bundle) (fmt : Json → String)
      (store : σ → ApprovalStore) (token workloadToken : Option String) (s : σ),
      SameRun (callTool (toolEnforcer workload verifier bundle fmt store bk) token workloadToken toolName body s)
        (c.dispatch (toolEnforcer workload verifier bundle fmt store bk) token workloadToken s)

variable {toolName : String} {decl : Tool Unit} {args : Args}

/-- What a request must be for MCP to have its like. -/
theorem conditions_of_samePower (hdecl : declaredTools.get? toolName = some decl)
    (htyped : TypedArgs decl.properties args) {approvalId : Option String}
    (h : SamePower toolName (postedBody args approvalId)) :
    (given approvalId = true → toolName = "refunds.issue") ∧
      ∀ i, args.get? "amount" = some (.int i) → (F64.ofInt i).isFinite = true := by
  obtain ⟨c, hname, ⟨⟨decl', a, a', hdecl', ha, -, -⟩, happroval⟩, -⟩ := h
  obtain rfl : decl = decl' := Option.some.inj (hdecl.symm.trans hdecl')
  constructor
  · intro hgiven
    rw [postedBody_approval (typed_no_approval hdecl htyped), if_pos hgiven] at happroval
    obtain ⟨id, rfl, -⟩ := given_iff.1 hgiven
    exact hname ▸ name_of_approval happroval.symm
  · intro i hi
    obtain ⟨t, ht, hhas⟩ := htyped.only _ _ hi
    have hposted : (postedBody args approvalId).get? "amount" = some (.int i) :=
      (postedBody_get? (by decide) args approvalId).trans hi
    obtain ⟨w, hw⟩ := coerceArgs_ok_iff.1 ⟨a, ha⟩ _ _ _ hposted ht
    have hnumber : t = .number := by
      rcases buildTools_cases hdecl with ⟨-, rfl⟩ | ⟨-, rfl⟩ | ⟨-, rfl⟩ | ⟨-, rfl⟩ | ⟨-, rfl⟩ | ⟨-, rfl⟩ | ⟨-, rfl⟩ <;>
        first
          | (cases ht; rfl)
          | cases ht
    subst hnumber
    exact isFinite_of_coerce hw

omit [UnicodeData] in
theorem typedArgs_one {p : String} (id : String) {hn : ([(p, some JsonType.string)].map Prod.fst).Nodup} :
    TypedArgs ⟨[(p, some .string)], hn⟩ (Dict.ofList [(p, .str id)]) := by
  have hget : ∀ k, (Dict.ofList [(p, Json.str id)]).get? k = if p = k then some (.str id) else none := by
    intro k
    simp [Dict.ofList, Dict.insertAll, Dict.get?_insert]
  constructor
  · intro k v hv
    rw [hget] at hv
    split at hv
    · rename_i hk
      subst hk
      exact ⟨.string, Dict.mem_entries.1 (List.mem_singleton_self _), id, (Option.some.inj hv).symm⟩
    · cases hv
  · intro k t ht
    obtain ⟨rfl, -⟩ := schema_one ht
    exact ⟨_, (hget _).trans (if_pos rfl)⟩

omit [UnicodeData] in
theorem typedArgs_reply (id body : String) :
    TypedArgs replySchema (Dict.ofList [("ticket_id", .str id), ("body", .str body)]) := by
  constructor
  · intro k v hv
    have hm : (k, v) ∈ [("ticket_id", Json.str id), ("body", Json.str body)] := Dict.mem_entries.2 hv
    simp only [List.mem_cons, Prod.mk.injEq, List.not_mem_nil, or_false] at hm
    rcases hm with ⟨rfl, rfl⟩ | ⟨rfl, rfl⟩
    · exact ⟨.string, rfl, id, rfl⟩
    · exact ⟨.string, rfl, body, rfl⟩
  · intro k t ht
    rcases schema_reply ht with ⟨rfl, -⟩ | ⟨rfl, -⟩
    · exact ⟨_, rfl⟩
    · exact ⟨_, rfl⟩

omit [UnicodeData] in
theorem typedArgs_refund (id : String) {amount : Json} (h : JsonType.number.Has amount) :
    TypedArgs refundSchema (Dict.ofList [("order_id", .str id), ("amount", amount)]) := by
  constructor
  · intro k v hv
    have hm : (k, v) ∈ [("order_id", Json.str id), ("amount", amount)] := Dict.mem_entries.2 hv
    simp only [List.mem_cons, Prod.mk.injEq, List.not_mem_nil, or_false] at hm
    rcases hm with ⟨rfl, rfl⟩ | ⟨rfl, rfl⟩
    · exact ⟨.string, rfl, id, rfl⟩
    · exact ⟨.number, rfl, h⟩
  · intro k t ht
    rcases schema_refund ht with ⟨rfl, -⟩ | ⟨rfl, -⟩
    · exact ⟨_, rfl⟩
    · exact ⟨_, rfl⟩

/-- Every MCP call is a request's. -/
theorem exists_request (c : McpCall) : ∃ decl args approvalId, declaredTools.get? c.name = some decl ∧
    TypedArgs decl.properties args ∧ postedBody args approvalId = c.args := by
  cases c with
  | crmCustomerRead id => exact ⟨_, _, none, rfl, typedArgs_one id, rfl⟩
  | crmOrdersList id => exact ⟨_, _, none, rfl, typedArgs_one id, rfl⟩
  | ticketsRead id => exact ⟨_, _, none, rfl, typedArgs_one id, rfl⟩
  | ticketsReplyDraft id body => exact ⟨_, _, none, rfl, typedArgs_reply id body, rfl⟩
  | refundsQuote id => exact ⟨_, _, none, rfl, typedArgs_one id, rfl⟩
  | refundsIssue id amount approvalId =>
    exact ⟨_, _, _, rfl, typedArgs_refund id (.inr ⟨amount, rfl⟩), (refundsIssue_args id amount approvalId).symm⟩
  | privacyPiiRead id => exact ⟨_, _, none, rfl, typedArgs_one id, rfl⟩

/-- **MCP has the power of HTTP exactly where no approval is presented, or to
`refunds.issue`**; an integer amount must be one that a double can hold. HTTP
has all of MCP's. -/
theorem same_power_iff (hdecl : declaredTools.get? toolName = some decl) (htyped : TypedArgs decl.properties args)
    (approvalId : Option String) :
    (SamePower toolName (postedBody args approvalId) ↔
      (given approvalId = true → toolName = "refunds.issue") ∧
        ∀ i, args.get? "amount" = some (.int i) → (F64.ofInt i).isFinite = true) ∧
    ∀ c : McpCall, ∃ decl args approvalId, declaredTools.get? c.name = some decl ∧ TypedArgs decl.properties args ∧
      postedBody args approvalId = c.args := by
  refine ⟨⟨conditions_of_samePower hdecl htyped, fun h => ?_⟩, exists_request⟩
  obtain ⟨c, rfl, halike, htext⟩ := exists_mcpCall hdecl htyped approvalId h.1 h.2
  refine ⟨c, rfl, halike, ?_⟩
  intro σ bk workload verifier bundle fmt store token workloadToken s
  exact call_congr workload verifier bundle fmt store halike
    (postedBody_text (typed_no_approval hdecl htyped) approvalId) htext token workloadToken s

end Power

/-- An approved refund. -/
theorem samePower_approvedRefund :
    @SamePower asciiData "refunds.issue"
      (postedBody (Dict.ofList [("order_id", .str "o-1001"), ("amount", .int 120)]) (some "ap-1")) := by
  let _ := asciiData
  have hdecl : declaredTools.get? "refunds.issue" = some _ := rfl
  refine (same_power_iff hdecl ?_ _).1.2 ⟨fun _ => rfl, fun i hi => ?_⟩
  · exact typedArgs_refund "o-1001" (.inl ⟨120, rfl⟩)
  · obtain rfl : 120 = i := Json.int.inj (Option.some.inj hi)
    decide +kernel

/-- An approved read of personal data: no MCP call presents its approval. -/
theorem not_samePower_approvedPii :
    ¬ @SamePower asciiData "privacy.pii.read"
      (postedBody (Dict.ofList [("customer_id", .str "c-100")]) (some "ap-1")) := by
  let _ := asciiData
  intro h
  have hname := (conditions_of_samePower rfl (typedArgs_one "c-100") h).1 rfl
  revert hname
  decide

end AgentPlatform
