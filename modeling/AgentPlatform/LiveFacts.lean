/-
An approved hold proceeds.

The approval records the arguments in the thread's state; the tool server
verifies it for the arguments it coerced. Arguments are `Settled` when coercion
keeps each of them, up to `==`. What the model proposes is; what a person
answers is merged as it is.

`approved_call_accepted`: in every run whose answers are settled, a call that
carries the approval created for it is accepted once the approval is approved.
-/
import AgentPlatform.ApprovalsFacts
import AgentPlatform.EnforcementFacts
import AgentPlatform.GraphFacts
import AgentPlatform.Live
import AgentPlatform.LlmFacts
import AgentPlatform.PolicyFacts

namespace AgentPlatform

open GraphEvent

section Runs

variable [UnicodeData]

/-! ## Settled arguments -/

/-- Coercion keeps the value, up to `==`. -/
def Settled (v : Json) (t : Option JsonType) : Prop := ∃ w, coerce v t = .ok w ∧ (w = v ∨ v.pyEq w = true)

/-- The tool declares the argument, and coercion keeps the value. -/
def SettledFor (tool k : String) (v : Json) : Prop :=
  ∃ decl t, declaredTools.get? tool = some decl ∧ decl.properties.get? k = some t ∧ Settled v t

/-- All arguments are settled for a tool of the catalogue. -/
def SettledArgs (tool : String) (args : Args) : Prop :=
  (declaredTools.get? tool).isSome ∧ ∀ k v, args.get? k = some v → SettledFor tool k v

theorem settledArgs_of_canonical {tool : String} {decl : Tool Unit} {args : Args}
    (hdecl : declaredTools.get? tool = some decl) (h : Canonical decl.properties args) : SettledArgs tool args := by
  refine ⟨by rw [hdecl]; rfl, fun k v hk => ?_⟩
  obtain ⟨t, ht, hv⟩ := h k v hk
  exact ⟨decl, t, hdecl, ht, v, hv, .inl rfl⟩

/-- The arguments after an answer whose values are settled. -/
theorem settledArgs_answered {tool : String} {args : Args} {supplied : List (String × Json)}
    (h : SettledArgs tool args) (hnodup : (supplied.map Prod.fst).Nodup)
    (hsupplied : ∀ k v, (k, v) ∈ supplied → v.isBlank = false → SettledFor tool k v) :
    SettledArgs tool (AgentState.answered args supplied) := by
  refine ⟨h.1, fun k v hk => ?_⟩
  have hsub : ((supplied.filter fun e => !e.2.isBlank).map Prod.fst).Nodup :=
    (List.Sublist.map Prod.fst List.filter_sublist).nodup hnodup
  rw [AgentState.answered, Dict.get?_insertAll _ k hsub] at hk
  cases hf : Dict.find k (supplied.filter fun e => !e.2.isBlank) with
  | none =>
    rw [hf, Option.none_or] at hk
    exact h.2 k v hk
  | some w =>
    rw [hf, Option.some_or] at hk
    cases hk
    obtain ⟨hmem, hblank⟩ := List.mem_filter.1 (Dict.mem_of_find hf)
    exact hsupplied k v hmem (by simpa using hblank)

/-- Settled arguments are what the tool server coerces them to. -/
theorem settledArgs_coerced {σ : Type} {b : Backend σ} {name : String} {tool : Tool σ} {args callArgs : Args}
    {approvalId : Option String} (h : SettledArgs name args) (hencodable : args.encodable = true)
    (hfound : (buildTools b).get? name = some tool)
    (hcoerced : coerceArgs tool.properties (LiveEnv.body args approvalId) = .ok callArgs) :
    args.pyEq callArgs = true := by
  have hdeclared : ∀ {k v}, args.get? k = some v → ∃ t, tool.properties.get? k = some t ∧ Settled v t := by
    intro k v hk
    obtain ⟨decl, t, hdecl, ht, hv⟩ := h.2 k v hk
    obtain ⟨tool', hfound', hproperties⟩ := buildTools_declares b hdecl
    cases hfound.symm.trans hfound'
    exact ⟨t, hproperties ▸ ht, hv⟩
  rw [Args.pyEq_iff]
  intro k
  rw [coerceArgs_get? hcoerced]
  by_cases hk : k = "approval_id"
  · subst hk
    have hundeclared := buildTools_undeclared hfound (List.mem_cons_self ..)
    cases ha : args.get? "approval_id" with
    | none =>
      rw [hundeclared]
      cases (LiveEnv.body args approvalId).get? "approval_id" <;> exact trivial
    | some v =>
      obtain ⟨t, ht, -⟩ := hdeclared ha
      rw [hundeclared] at ht
      cases ht
  · have hbody : (LiveEnv.body args approvalId).get? k = args.get? k := by
      unfold LiveEnv.body
      split
      · exact Dict.get?_insert_ne _ _ (Ne.symm hk)
      · rfl
    rw [hbody]
    cases ha : args.get? k with
    | none => exact trivial
    | some v =>
      obtain ⟨t, ht, w, hw, heq⟩ := hdeclared ha
      simp only [ht, hw, Option.bind_some, Except.toOption]
      rcases heq with rfl | heq
      · exact Json.pyEq_refl w ((Json.encodableFields_iff _).1 hencodable _ (Dict.mem_entries.2 ha))
      · exact heq

/-! ## What the dependencies do -/

theorem split_declared {offered : List Json} {keep : Bool} {name : String} {tool : Tool Unit}
    (h : (LiveEnv.split offered keep).get? name = some tool) : declaredTools.get? name = some tool := by
  rw [LiveEnv.split, Dict.get?_filterMap] at h
  obtain ⟨tool', hget, heq⟩ := Option.bind_eq_some_iff.1 h
  split at heq
  · cases heq
    exact hget
  · cases heq

/-- Every tool is under its name, and its identifiers are strings. -/
theorem declared_stringIds {name : String} {tool : Tool Unit} (h : declaredTools.get? name = some tool) :
    tool.name = name ∧ Llm.StringIds tool := by
  have hall : ∀ e ∈ [(["customer_id"], customerIdSchema), (["ticket_id"], ticketIdSchema),
      (["ticket_id", "body"], replySchema), (["order_id"], orderIdSchema), (["order_id", "amount"], refundSchema)],
      ∀ name ∈ Llm.identifierArgs e.1, e.2.get? name = some (some .string) := by decide
  rcases buildTools_cases h with ⟨rfl, rfl⟩ | ⟨rfl, rfl⟩ | ⟨rfl, rfl⟩ | ⟨rfl, rfl⟩ | ⟨rfl, rfl⟩ | ⟨rfl, rfl⟩ |
    ⟨rfl, rfl⟩
  · exact ⟨rfl, hall (["customer_id"], customerIdSchema) (by simp)⟩
  · exact ⟨rfl, hall (["customer_id"], customerIdSchema) (by simp)⟩
  · exact ⟨rfl, hall (["ticket_id"], ticketIdSchema) (by simp)⟩
  · exact ⟨rfl, hall (["ticket_id", "body"], replySchema) (by simp)⟩
  · exact ⟨rfl, hall (["order_id"], orderIdSchema) (by simp)⟩
  · exact ⟨rfl, hall (["order_id", "amount"], refundSchema) (by simp)⟩
  · exact ⟨rfl, hall (["customer_id"], customerIdSchema) (by simp)⟩

/-- A decision that names a tool has settled arguments. -/
theorem decide_settled {env : LiveEnv} {task : String} {observations : List Observation} {w w' : World}
    {d : ModelDecision} (h : env.decide task observations w = (.ok d, w')) :
    w' = w ∧ ((d.tool = none ∧ d.clarify = false) ∨ SettledArgs (d.tool.getD "") d.args) := by
  unfold LiveEnv.decide at h
  split at h
  · cases h
  · rename_i offered _
    cases h
    refine ⟨rfl, ?_⟩
    rcases Llm.decideTool_cases (LiveEnv.split offered true) (LiveEnv.split offered false) env.reply task observations
      fun name tool ht => declared_stringIds (split_declared ht) with hnone | ⟨name, tool, hname, ht, hcanonical⟩
    · exact .inl hnone
    · rw [hname]
      exact .inr (settledArgs_of_canonical (split_declared ht) hcanonical)

/-- A tool call leaves the approvals as they are. -/
theorem call_approvals (server : ToolServer) (token : Option String) (tool : String) (args : Args)
    (workloadToken : Option String) (w : World) :
    (server.enforcer.call token tool args workloadToken w).state.approvals = w.approvals := by
  have hmethod : ∀ m : Method Simulators.State,
      (m.within World.sim fun sim w => { w with sim }).Keeps fun w w' : World => w'.approvals = w.approvals :=
    fun m subject w => rfl
  rcases Enforcer.call_cases server.enforcer token tool args workloadToken w with h | ⟨g, pre, -, -, he⟩
  · rw [h.state]
  · rw [he, Run.after_state, Enforcer.Granted.run, Enforcer.execute_state]
    exact handler_keeps (b := server.worldBackend) (P := fun w w' => w'.approvals = w.approvals) (fun _ => rfl)
      (fun _ _ => hmethod _) (fun _ _ => hmethod _) (fun _ _ => hmethod _) (fun _ _ => hmethod _)
      (fun _ _ _ => hmethod _) (fun _ _ => hmethod _) g.found
      (.inr fun _ _ _ _ => hmethod _) _ (some g.subject) w

theorem callTool_approvals (env : LiveEnv) (tool : String) (args : Args) (approvalId : Option String) (w : World) :
    (env.callTool tool args approvalId w).2.approvals = w.approvals := by
  unfold LiveEnv.callTool
  split
  · rfl
  · split
    · rfl
    · split
      · rfl
      · exact call_approvals _ _ _ _ _ w

/-- What a request for an approval does: nothing, or it records the request of
an admitted caller. -/
theorem createApproval_cases (env : LiveEnv) (tool : String) (args : Args) (reason : Json) (w : World) :
    (∃ e, env.createApproval tool args reason w = (.error e, w)) ∨
    ∃ d, args.encodable = true ∧ env.createApproval tool args reason w =
      (.ok ("ap-" ++ env.hex),
        { w with approvals := (w.approvals.create (env.newApproval d tool args reason)).2 }) := by
  unfold LiveEnv.createApproval
  split
  · exact .inl ⟨_, rfl⟩
  split
  · exact .inl ⟨_, rfl⟩
  rename_i hencodable
  split
  · exact .inl ⟨_, rfl⟩
  split
  · exact .inl ⟨_, rfl⟩
  rename_i d _
  split
  · exact .inl ⟨_, rfl⟩
  · simp only [Bool.not_eq_true', Bool.not_eq_false, Bool.and_eq_true] at hencodable
    exact .inr ⟨d, hencodable.1, rfl⟩

/-! ## What a run keeps -/

/-- Later approvals keep the tool and the arguments of earlier ones. -/
def Extends (s s' : ApprovalStore) : Prop :=
  ∀ id a, s.get? id = some a → ∃ a', s'.get? id = some a' ∧ a'.tool = a.tool ∧ a'.args = a.args

omit [UnicodeData] in
theorem Extends.refl (s : ApprovalStore) : Extends s s := fun _ a h => ⟨a, h, rfl, rfl⟩

omit [UnicodeData] in
theorem extends_create {s : ApprovalStore} {n : NewApproval} (hfresh : s.get? n.id = none) :
    Extends s (s.create n).2 := by
  intro id a h
  have hne : n.id ≠ id := by
    rintro rfl
    rw [hfresh] at h
    cases h
  exact ⟨a, by rw [ApprovalStore.create, Dict.get?_insert_ne _ _ hne]; exact h, rfl, rfl⟩

omit [UnicodeData] in
theorem extends_decide (d : Ruling) (s : ApprovalStore) : Extends s (s.decide d).2 := by
  rcases s.decide_cases d with hd | ⟨a', ha', -, hd⟩
  · rw [hd]
    exact Extends.refl s
  · rw [hd]
    intro id a h
    by_cases hid : d.id = id
    · subst hid
      cases ha'.symm.trans h
      exact ⟨d.apply a', Dict.get?_insert_self _ _ _, rfl, rfl⟩
    · exact ⟨a, by rw [Dict.get?_insert_ne _ _ hid]; exact h, rfl, rfl⟩

/-- An approval on record for a request, whose arguments are settled. -/
def OnRecord (s : ApprovalStore) (tool : String) (args : Args) (id : String) : Prop :=
  id ≠ "" ∧ args.encodable = true ∧ SettledArgs tool args ∧
    ∃ a, s.get? id = some a ∧ a.tool = tool ∧ a.args = args.sorted

theorem OnRecord.extends {s s' : ApprovalStore} {tool : String} {args : Args} {id : String}
    (h : OnRecord s tool args id) (hext : Extends s s') : OnRecord s' tool args id := by
  obtain ⟨hne, hencodable, hsettled, a, ha, htool, hargs⟩ := h
  obtain ⟨a', ha', htool', hargs'⟩ := hext id a ha
  exact ⟨hne, hencodable, hsettled, a', ha', htool'.trans htool, hargs'.trans hargs⟩

/-- Every approval the run created is on record, and the arguments of a planned
call are settled. -/
structure Kept (l : List GraphEvent) (s : Live) : Prop where
  created : ∀ tool args id, .approvalCreated tool args (.ok id) ∈ l → OnRecord s.world.approvals tool args id
  settled : s.thread.pos ≠ .node .plan → s.thread.pos ≠ .ended →
    SettledArgs s.thread.state.tool s.thread.state.args

/-- No identifier is drawn twice. -/
def DrawsFresh (t : Transition Live LiveInput (List GraphEvent)) : Prop :=
  (∀ n, t.input = .create n → t.pre.world.approvals.get? n.id = none) ∧
  ∀ env, t.input = .advance env → t.pre.thread.pos = .node .createApproval →
    t.pre.world.approvals.get? ("ap-" ++ env.hex) = none

/-- A person's answer to a question: every value given is declared by the tool,
and coercion keeps it. -/
def SettledAnswer (t : Transition Live LiveInput (List GraphEvent)) : Prop :=
  ∀ answer supplied, t.input = .resume answer → t.pre.thread.pos = .paused .askClarification →
    AgentState.values answer = .ok supplied →
    ∀ k v, (k, v) ∈ supplied → v.isBlank = false → SettledFor t.pre.thread.state.tool k v

theorem Kept.step {l es : List GraphEvent} {s s' : Live} (h : Kept l s)
    (hext : Extends s.world.approvals s'.world.approvals)
    (hes : ∀ tool args id, .approvalCreated tool args (.ok id) ∈ es → OnRecord s'.world.approvals tool args id)
    (hsettled : s'.thread.pos ≠ .node .plan → s'.thread.pos ≠ .ended →
      SettledArgs s'.thread.state.tool s'.thread.state.args) : Kept (l ++ es) s' := by
  refine ⟨fun tool args id hm => ?_, hsettled⟩
  rcases List.mem_append.1 hm with hm | hm
  · exact (h.created tool args id hm).extends hext
  · exact hes tool args id hm

/-- The call node and the nodes after it leave the request alone. -/
theorem kept_advance {l : List GraphEvent} {env : LiveEnv} {s : Live} (h : Kept l s)
    (hfresh : s.thread.pos = .node .createApproval → s.world.approvals.get? ("ap-" ++ env.hex) = none) :
    Kept (l ++ (s.thread.advance env.deps s.world).1)
      ⟨(s.thread.advance env.deps s.world).2.1, (s.thread.advance env.deps s.world).2.2⟩ := by
  obtain ⟨⟨st, pos⟩, w⟩ := s
  have hsame : pos ≠ .node .plan → pos ≠ .ended → SettledArgs st.tool st.args := h.settled
  match pos with
  | .node .plan =>
    simp only [Thread.advance, LiveEnv.deps]
    rcases hd : env.decide st.task st.observations w with ⟨_ | d, w'⟩
    · have hw : w' = w := by
        unfold LiveEnv.decide at hd
        split at hd <;> cases hd
        rfl
      subst hw
      exact h.step (Extends.refl _) (by simp) h.settled
    · obtain ⟨rfl, hcases⟩ := decide_settled hd
      refine h.step (Extends.refl _) (by simp) fun _ hend => ?_
      rcases hcases with ⟨hnone, hclarify⟩ | hsettled
      · exfalso
        apply hend
        cases hr : d.refused <;>
          simp [AgentState.plan, hnone, hclarify, hr, given, AgentState.afterPlan]
      · by_cases hg : d.clarify = true ∨ given d.tool = true
        · have hplan : (st.plan d).tool = d.tool.getD "" ∧ (st.plan d).args = d.args := by
            unfold AgentState.plan
            split
            · exact ⟨rfl, rfl⟩
            · rw [if_neg (by simpa using hg.resolve_left ‹_›)]
              exact ⟨rfl, rfl⟩
          show SettledArgs (st.plan d).tool (st.plan d).args
          rw [hplan.1, hplan.2]
          exact hsettled
        · exfalso
          apply hend
          simp only [not_or, Bool.not_eq_true] at hg
          cases hr : d.refused <;> simp [AgentState.plan, hg.1, hg.2, hr, AgentState.afterPlan]
  | .node .callTool =>
    simp only [Thread.advance, LiveEnv.deps]
    cases hrep : st.repeats with
    | some previous => exact h.step (Extends.refl _) (by simp) fun _ _ => hsame (by simp) (by simp)
    | none =>
      have happrovals := callTool_approvals env st.tool st.args st.approvalId w
      refine h.step ?_ (by simp) fun _ _ => ?_
      · dsimp only
        rw [happrovals]
        exact Extends.refl _
      · obtain ⟨-, htool, hargs⟩ := @AgentState.called_request st
          (env.callTool st.tool st.args st.approvalId w).1
        show SettledArgs (st.called _).tool (st.called _).args
        rw [htool, hargs]
        exact hsame (by simp) (by simp)
  | .node .createApproval =>
    have hsettled := hsame (by simp) (by simp)
    simp only [Thread.advance, LiveEnv.deps]
    rcases createApproval_cases env st.tool st.args st.reason w with ⟨e, he⟩ | ⟨d, hencodable, he⟩
    · rw [he]
      exact h.step (Extends.refl _) (by simp) fun _ _ => hsettled
    · rw [he]
      refine h.step (extends_create (hfresh rfl)) (fun tool args id hm => ?_) fun _ _ => hsettled
      simp only [List.mem_singleton, GraphEvent.approvalCreated.injEq, Except.ok.injEq] at hm
      obtain ⟨rfl, rfl, rfl⟩ := hm
      exact ⟨by simp [String.ext_iff], hencodable, hsettled, _, Dict.get?_insert_self _ _ _, rfl, rfl⟩
  | .node .awaitDecision =>
    exact h.step (Extends.refl _) (by simp [Thread.advance]) fun _ _ => hsame (by simp) (by simp)
  | .node .askClarification =>
    exact h.step (Extends.refl _) (by simp [Thread.advance]) fun _ _ => hsame (by simp) (by simp)
  | .paused n => exact h.step (Extends.refl _) (by simp [Thread.advance]) h.settled
  | .ended => exact h.step (Extends.refl _) (by simp [Thread.advance]) h.settled

omit [UnicodeData] in
theorem values_nodup {answer : Json} {supplied : List (String × Json)} (h : AgentState.values answer = .ok supplied) :
    (supplied.map Prod.fst).Nodup := by
  unfold AgentState.values at h
  split at h
  · cases h
  · split at h
    · cases h
      exact Dict.nodup _
    · cases h

omit [UnicodeData] in
theorem clarified_request (st : AgentState) (supplied : List (String × Json)) :
    (st.clarified supplied).tool = st.tool ∧
      (st.clarified supplied).args = AgentState.answered st.args supplied := by
  unfold AgentState.clarified
  dsimp only
  split
  · exact ⟨rfl, rfl⟩
  · split <;> exact ⟨rfl, rfl⟩

theorem kept_resume {l : List GraphEvent} {answer : Json} {s : Live} (h : Kept l s)
    (hanswer : s.thread.pos = .paused .askClarification → ∀ supplied, AgentState.values answer = .ok supplied →
      ∀ k v, (k, v) ∈ supplied → v.isBlank = false → SettledFor s.thread.state.tool k v) :
    Kept l { s with thread := s.thread.resume answer } := by
  obtain ⟨⟨st, pos⟩, w⟩ := s
  have hsame : pos ≠ .node .plan → pos ≠ .ended → SettledArgs st.tool st.args := h.settled
  refine ⟨h.created, ?_⟩
  match pos with
  | .paused .awaitDecision =>
    simp only [Thread.resume]
    cases ha : st.awaited answer with
    | error e => exact fun _ _ => hsame (by simp) (by simp)
    | ok st' =>
      obtain ⟨status, rfl⟩ := AgentState.awaited_ok ha
      exact fun _ _ => hsame (by simp) (by simp)
  | .paused .askClarification =>
    simp only [Thread.resume]
    cases hv : AgentState.values answer with
    | error e => exact fun _ _ => hsame (by simp) (by simp)
    | ok supplied =>
      intro _ _
      obtain ⟨htool, hargs⟩ := clarified_request st supplied
      show SettledArgs (st.clarified supplied).tool (st.clarified supplied).args
      rw [htool, hargs]
      exact settledArgs_answered (hsame (by simp) (by simp)) (values_nodup hv) (hanswer rfl supplied hv)
  | .node n => exact h.settled
  | .ended => exact h.settled
  | .paused .plan => exact h.settled
  | .paused .callTool => exact h.settled
  | .paused .createApproval => exact h.settled

theorem kept_step {task : String} {past : World} {l : List GraphEvent} {s : Live} {i : LiveInput}
    (h : Kept l s) (hfresh : DrawsFresh ((liveAgent task past).transition s i))
    (hanswer : SettledAnswer ((liveAgent task past).transition s i)) :
    Kept (l ++ ((liveAgent task past).step i s).1) ((liveAgent task past).step i s).2 := by
  cases i with
  | advance env => exact kept_advance h (hfresh.2 env rfl)
  | resume answer =>
    simp only [liveAgent, List.append_nil]
    exact kept_resume h fun hpos supplied hv => hanswer answer supplied rfl hpos hv
  | create n => exact h.step (extends_create (hfresh.1 n rfl)) (by simp [liveAgent]) h.settled
  | decide d => exact h.step (extends_decide d _) (by simp [liveAgent]) h.settled

/-! ## The resumed call -/

/-- A call that carries the approval the graph created for it, made with a token
of the user it was created for, after the approval was approved and while the
policy requires it. -/
structure ResumedCall (before : List GraphEvent) (t : Transition Live LiveInput (List GraphEvent)) where
  env : LiveEnv
  server : ToolServer
  token : String
  subject : String
  id : String
  d : Delegation
  approval : Approval
  tool : Tool World
  callArgs : Args
  answer : PolicyResult
  input : t.input = .advance env
  reached : env.server = some server
  exchanged : env.exchange = .ok token
  pos : t.pre.thread.pos = .node .callTool
  carries : t.pre.thread.state.approvalId = some id
  created : Created (sincePlan before) t.pre.thread.state.tool t.pre.thread.state.args id
  recorded : t.pre.world.approvals.get? id = some approval
  approved : approval.status = .approved
  bearer_eq : bearer token = some subject
  verified : server.verifier subject = .ok d
  sameUser : d.user = approval.user ∧ d.workload = approval.agent ∧ d.tenantOrEmpty = approval.tenant
  found : (buildTools server.worldBackend).get? t.pre.thread.state.tool = some tool
  coerced : coerceArgs tool.properties (LiveEnv.body t.pre.thread.state.args (some id)) = .ok callArgs
  asked : (PolicyClient.decide server.post (Enforcer.policyDoc d t.pre.thread.state.tool callArgs)).2 = .ok answer
  required : answer.decision = .requireApproval

/-- The approvals service confirms the call, and it is not held again. -/
structure Accepted {before : List GraphEvent} {t : Transition Live LiveInput (List GraphEvent)}
    (c : ResumedCall before t) : Prop where
  verified : t.pre.world.approvals.verify ⟨c.id, t.pre.thread.state.tool, c.callArgs, c.d.user, c.d.workload,
    c.d.tenantOrEmpty⟩ = true
  proceeds : ∀ tool args approvalId r, .toolCalled tool args approvalId (.ok r) ∈ t.output →
    r.status ≠ .approvalRequired

omit [UnicodeData] in
theorem toolResponse_held {r : Except Exn ToolResult} (h : (toolResponse r).status = .approvalRequired) :
    ∃ res, r = .ok res ∧ res.outcome = .approvalRequired := by
  cases r with
  | error e => cases h
  | ok res =>
    refine ⟨res, rfl, ?_⟩
    simp only [toolResponse] at h
    cases ho : res.outcome with
    | approvalRequired => rfl
    | ok =>
      rw [ho] at h
      dsimp only at h
      split at h <;> cases h
    | denied =>
      rw [ho] at h
      cases h
    | error =>
      rw [ho] at h
      cases h

/-- The approval on record is confirmed for what its arguments coerce to. -/
theorem ResumedCall.confirmed {before : List GraphEvent} {t : Transition Live LiveInput (List GraphEvent)}
    (c : ResumedCall before t) (hkept : Kept before t.pre) :
    t.pre.world.approvals.verify ⟨c.id, t.pre.thread.state.tool, c.callArgs, c.d.user, c.d.workload,
      c.d.tenantOrEmpty⟩ = true := by
  obtain ⟨-, hencodable, hsettled, a, ha, htool, hargs⟩ := hkept.created _ _ _ (mem_of_sincePlan c.created)
  cases c.recorded.symm.trans ha
  refine ApprovalStore.verify_iff.2 ⟨c.approval, c.recorded, c.approved, c.sameUser.2.2.symm, ?_⟩
  have heq := settledArgs_coerced hsettled hencodable c.found c.coerced
  simp only [VerifyRequest.matchesApproval, Bool.and_eq_true, decide_eq_true_eq]
  refine ⟨⟨⟨htool, ?_⟩, c.sameUser.1.symm⟩, c.sameUser.2.1.symm⟩
  rw [hargs, Args.pyEq_sorted]
  exact heq

/-- A call the approvals service confirms is not held. -/
theorem ResumedCall.not_held {before : List GraphEvent} {t : Transition Live LiveInput (List GraphEvent)}
    (c : ResumedCall before t) (hid : c.id ≠ "")
    (hverify : t.pre.world.approvals.verify ⟨c.id, t.pre.thread.state.tool, c.callArgs, c.d.user, c.d.workload,
      c.d.tenantOrEmpty⟩ = true) {r : ToolCallResult}
    (hr : (c.env.callTool t.pre.thread.state.tool t.pre.thread.state.args (some c.id) t.pre.world).1 = .ok r) :
    r.status ≠ .approvalRequired := by
  intro hheld
  simp only [LiveEnv.callTool, c.exchanged, c.reached] at hr
  split at hr
  · cases hr
  obtain rfl := Except.ok.inj hr
  obtain ⟨res, hres, hout⟩ := toolResponse_held hheld
  obtain ⟨subject, d, tool, callArgs, answer, hsubject, hverified, hfound, hcoerced, -, -, hno⟩ :=
    Enforcer.call_held hres hout
  cases c.bearer_eq.symm.trans hsubject
  cases c.verified.symm.trans hverified
  cases c.found.symm.trans hfound
  cases c.coerced.symm.trans hcoerced
  have hbody : (LiveEnv.body t.pre.thread.state.args (some c.id)).get? "approval_id" = some (.str c.id) := by
    rw [LiveEnv.body, if_pos (given_iff.2 ⟨c.id, rfl, hid⟩)]
    exact Dict.get?_insert_self _ _ _
  rw [hbody, Option.getD_some] at hno
  rcases hno with hfalsy | ⟨id, hstr, hno⟩
  · simp [Json.truthy, hid] at hfalsy
  · cases hstr
    have hfalse := Except.ok.inj hno
    rw [hverify] at hfalse
    cases hfalse

/-- **An approved hold proceeds**, in every run in which no identifier is drawn
twice and every answer a person gives to a question is settled. -/
theorem approved_call_accepted (task : String) (past : World) (inputs : List LiveInput)
    (hfresh : ∀ t ∈ (liveAgent task past).run inputs, DrawsFresh t)
    (hanswers : ∀ t ∈ (liveAgent task past).run inputs, SettledAnswer t) :
    ∀ before t after, (liveAgent task past).run inputs = before ++ t :: after →
      ∀ c : ResumedCall (graphEvents before) t, Accepted c := by
  intro before t after heq c
  obtain ⟨s, i, rfl, hkept⟩ := Machine.history_rule_at (m := liveAgent task past)
    (G := fun t => DrawsFresh t ∧ SettledAnswer t) (P := fun h s => Kept (graphEvents h) s)
    ⟨by simp [graphEvents], fun h => absurd rfl h⟩
    (fun h s i hp hg => by rw [graphEvents_concat]; exact kept_step hp hg.1 hg.2) inputs
    (fun t ht => ⟨hfresh t ht, hanswers t ht⟩) before t after heq
  have hverify := c.confirmed hkept
  obtain ⟨hid, -⟩ := hkept.created _ _ _ (mem_of_sincePlan c.created)
  refine ⟨hverify, fun tool args approvalId r hm => ?_⟩
  have hcalled : (c.env.callTool s.thread.state.tool s.thread.state.args (some c.id) s.world).1 = .ok r := by
    have hinput : i = .advance c.env := c.input
    have hpos : s.thread.pos = .node .callTool := c.pos
    have hcarries : s.thread.state.approvalId = some c.id := c.carries
    rw [Machine.transition_output, hinput] at hm
    simp only [liveAgent, Thread.advance, hpos, LiveEnv.deps] at hm
    cases hrep : s.thread.state.repeats with
    | some previous => simp [hrep] at hm
    | none =>
      simp only [hrep, List.mem_singleton, GraphEvent.toolCalled.injEq] at hm
      rw [← hcarries]
      exact hm.2.2.2.symm
  exact c.not_held hid hverify hcalled

/-- A live run binds approvals to their steps as any run of the graph does. -/
theorem live_bound {task : String} {past : World} {inputs : List LiveInput}
    (hclear : ∀ t ∈ (liveAgent task past).run inputs, ∀ d, .planned d ∈ t.output → d.clarify = true →
      t.pre.thread.state.approvalId = none) :
    let s := (liveAgent task past).final inputs
    Bound (graphEvents ((liveAgent task past).run inputs)) s.thread.state s.thread.pos := by
  refine (Machine.history_rule (m := liveAgent task past)
    (G := fun t => ∀ d, .planned d ∈ t.output → d.clarify = true → t.pre.thread.state.approvalId = none)
    (P := fun h s => AllJustified (graphEvents h) ∧ Bound (graphEvents h) s.thread.state s.thread.pos)
    ⟨fun before e after h => by simp [graphEvents] at h, trivial⟩ ?_ inputs hclear).2
  intro h s i hp hg
  rw [graphEvents_concat]
  have hmoves : s.thread.Moves ((liveAgent task past).step i s).1 ((liveAgent task past).step i s).2.thread := by
    cases i with
    | advance env => exact s.thread.advance_moves env.deps s.world
    | resume answer => exact s.thread.resume_moves answer
    | create n => exact .stays _
    | decide d => exact .stays _
  exact bound_moves hmoves hg hp.1 hp.2

end Runs

/-! ## A refund whose amount a person supplies -/

/-- alice, acting through the agent, in `acme`. -/
def alice : Delegation := ⟨"alice", Policy.trustedAgent, "tool-server", ["support_rep"], some "acme"⟩

def aliceServer : ToolServer :=
  ⟨none, fun _ => .ok alice, opa (Policy.bundle toolNames none) fun _ => "", @simulatorBackend asciiData⟩

/-- What alice's requests meet. -/
def aliceEnv : LiveEnv where
  offered := .ok (toolNames.map .str)
  reply := .read (.obj [("tool", .str "refunds.issue"), ("args", .obj [("order_id", .str "o-1002")])])
  exchange := .ok "t"
  workloadToken := none
  server := some aliceServer
  api := some ⟨none, fun _ => .ok alice⟩
  hex := "1"
  now := F64.ofInt 1

/-- The model leaves the amount out, alice supplies it, the call is held, and a
manager approves it. -/
def approvedAnswer (amount : Json) : List LiveInput :=
  [.advance aliceEnv, .advance aliceEnv, .resume (.obj [("values", .obj [("amount", amount)])]), .advance aliceEnv,
    .advance aliceEnv, .advance aliceEnv, .decide ⟨"ap-1", "manager", true, none, "acme", F64.ofInt 2⟩,
    .resume (.obj [("approved", .bool true)])]

/-- alice's thread. -/
def aliceAgent : Machine Live LiveInput (List GraphEvent) := @liveAgent asciiData "refund o-1002" ⟨.initial, ∅⟩

/-- The last call of these inputs is one that is to be accepted. -/
def awaitsCall (inputs : List LiveInput) : Bool :=
  let s := aliceAgent.final inputs
  decide (s.thread.pos = .node .callTool) && decide (s.thread.state.approvalId = some "ap-1") &&
    decide (s.thread.state.tool = "refunds.issue") &&
    (s.world.approvals.get? "ap-1").any (fun a => decide (a.status = .approved ∧ a.user = "alice" ∧
      a.agent = Policy.trustedAgent ∧ a.tenant = "acme")) &&
    (@coerceArgs asciiData refundSchema (LiveEnv.body s.thread.state.args (some "ap-1"))).toOption.any
      (fun callArgs =>
        let doc := Enforcer.policyDoc alice "refunds.issue" callArgs
        doc.encodable && decide (Policy.decision (Policy.bundle toolNames none) doc = .requireApproval)) &&
    (aliceAgent.run inputs).all fun t => t.output.all fun
      | .planned d => !d.clarify || t.pre.thread.state.approvalId.isNone
      | _ => true

theorem exists_resumedCall {inputs : List LiveInput} (h : awaitsCall inputs = true) :
    let _ := asciiData
    ∃ c : ResumedCall (graphEvents (aliceAgent.run inputs))
        (aliceAgent.transition (aliceAgent.final inputs) (.advance aliceEnv)),
      coerceArgs refundSchema (LiveEnv.body (aliceAgent.final inputs).thread.state.args (some "ap-1")) =
        .ok c.callArgs ∧ c.id = "ap-1" ∧ c.d.user = "alice" ∧ c.d.workload = Policy.trustedAgent ∧
      c.d.tenantOrEmpty = "acme" := by
  intro _
  simp only [awaitsCall, Bool.and_eq_true, decide_eq_true_eq] at h
  obtain ⟨⟨⟨⟨⟨hpos, happroval⟩, htool⟩, hrecord⟩, hpolicy⟩, hplans⟩ := h
  obtain ⟨a, ha, hrec⟩ := (Option.any_eq_true _ _).1 hrecord
  obtain ⟨hstatus, huser, hagent, htenant⟩ := of_decide_eq_true hrec
  obtain ⟨callArgs, hcoerced, hdoc⟩ := (Option.any_eq_true _ _).1 hpolicy
  simp only [Bool.and_eq_true, decide_eq_true_eq] at hdoc
  obtain ⟨answer, hasked, hanswer⟩ := decide_opa (Policy.bundle toolNames none) (fun _ => "") hdoc.1
  have hcallArgs : coerceArgs refundSchema (LiveEnv.body (aliceAgent.final inputs).thread.state.args (some "ap-1")) =
      .ok callArgs := by
    cases hc : coerceArgs refundSchema (LiveEnv.body (aliceAgent.final inputs).thread.state.args (some "ap-1")) with
    | error e =>
      rw [hc] at hcoerced
      cases hcoerced
    | ok out =>
      rw [hc] at hcoerced
      cases hcoerced
      rfl
  have hcreated : Created (sincePlan (graphEvents (aliceAgent.run inputs)))
      (aliceAgent.final inputs).thread.state.tool (aliceAgent.final inputs).thread.state.args "ap-1" := by
    have hb : Bound (graphEvents (aliceAgent.run inputs)) (aliceAgent.final inputs).thread.state
        (aliceAgent.final inputs).thread.pos := by
      refine live_bound fun t ht d hd hclarify => ?_
      have hplan := List.all_eq_true.1 (List.all_eq_true.1 hplans t ht) _ hd
      simpa [hclarify] using hplan
    rw [hpos] at hb
    exact hb "ap-1" happroval
  refine ⟨{ env := aliceEnv, server := aliceServer, token := "t", subject := "t", id := "ap-1",
            d := alice, approval := a,
            tool := refundsIssue aliceServer.worldBackend, callArgs, answer, input := rfl,
            reached := rfl, exchanged := rfl, pos := hpos,
            carries := happroval, created := hcreated, recorded := ha, approved := hstatus,
            bearer_eq := by decide, verified := rfl, sameUser := ⟨huser.symm, hagent.symm, htenant.symm⟩,
            found := ?_, coerced := hcallArgs, asked := ?_, required := hanswer.trans hdoc.2 },
    hcallArgs, rfl, rfl, rfl, rfl⟩
  · rw [Machine.transition_pre, htool]
    rfl
  · rw [Machine.transition_pre, htool]
    exact hasked

/-- An amount given as a number is accepted. -/
theorem numberAnswer_accepted :
    let _ := asciiData
    ∃ c : ResumedCall (graphEvents (aliceAgent.run (approvedAnswer (.int 200))))
        (aliceAgent.transition (aliceAgent.final (approvedAnswer (.int 200))) (.advance aliceEnv)), Accepted c := by
  intro _
  obtain ⟨c, -⟩ := @exists_resumedCall (approvedAnswer (.int 200)) (by decide +kernel)
  have hrun : aliceAgent.run (approvedAnswer (.int 200) ++ [.advance aliceEnv]) =
      aliceAgent.run (approvedAnswer (.int 200)) ++ [aliceAgent.transition _ (.advance aliceEnv)] :=
    aliceAgent.run_concat _ _
  have hfresh : (aliceAgent.run (approvedAnswer (.int 200) ++ [.advance aliceEnv])).all (fun t =>
      decide (t.pre.thread.pos ≠ .node .createApproval) || (t.pre.world.approvals.get? "ap-1").isNone) = true := by
    decide +kernel
  have htool : (aliceAgent.run (approvedAnswer (.int 200) ++ [.advance aliceEnv])).all (fun t =>
      decide (t.pre.thread.pos ≠ .paused .askClarification) ||
        decide (t.pre.thread.state.tool = "refunds.issue")) = true := by
    decide +kernel
  refine ⟨c, @approved_call_accepted asciiData "refund o-1002" ⟨.initial, ∅⟩
    (approvedAnswer (.int 200) ++ [LiveInput.advance aliceEnv])
    (fun t ht => ⟨fun n hn => ?_, fun env henv hpos => ?_⟩) (fun t ht answer supplied hin hpos hv k v hm hblank => ?_)
    _ _ [] hrun c⟩
  · have hmem := Machine.input_mem ht
    rw [hn] at hmem
    simp [approvedAnswer] at hmem
  · have hmem := Machine.input_mem ht
    rw [henv] at hmem
    have hhex : env = aliceEnv := by simpa [approvedAnswer] using hmem
    have hnone := List.all_eq_true.1 hfresh t ht
    simpa [hpos, hhex, aliceEnv] using hnone
  · have hmem := Machine.input_mem ht
    rw [hin] at hmem
    have hname : t.pre.thread.state.tool = "refunds.issue" := by
      simpa [hpos] using List.all_eq_true.1 htool t ht
    simp only [approvedAnswer, List.cons_append, List.nil_append, List.mem_cons, reduceCtorEq, false_or,
      LiveInput.resume.injEq, List.not_mem_nil, or_false] at hmem
    rcases hmem with rfl | rfl
    · cases hv
      cases List.mem_singleton.1 (show (k, v) ∈ [("amount", Json.int 200)] from hm)
      obtain ⟨w, hw, heq⟩ := exists_ok (e := coerce (.int 200) (some .number)) (p := fun w => (Json.int 200).pyEq w)
        (by decide +kernel)
      rw [hname]
      exact ⟨_, _, rfl, rfl, w, hw, .inr heq⟩
    · cases hv
      cases hm

/-- The same amount given as a string is held again. -/
theorem stringAnswer_held :
    let _ := asciiData
    ¬ ∀ before t after, aliceAgent.run (approvedAnswer (.str "200") ++ [.advance aliceEnv]) = before ++ t :: after →
      ∀ c : ResumedCall (graphEvents before) t, Accepted c := by
  intro _ h
  obtain ⟨c, hcoerced, hid, huser, hworkload, htenant⟩ :=
    @exists_resumedCall (approvedAnswer (.str "200")) (by decide +kernel)
  have hverified := (h _ _ [] (aliceAgent.run_concat _ _) c).verified
  rw [Machine.transition_pre, hid, huser, hworkload, htenant] at hverified
  have hrejected : (coerceArgs refundSchema
      (LiveEnv.body (aliceAgent.final (approvedAnswer (.str "200"))).thread.state.args (some "ap-1"))).toOption.map
      (fun callArgs => (aliceAgent.final (approvedAnswer (.str "200"))).world.approvals.verify
        ⟨"ap-1", (aliceAgent.final (approvedAnswer (.str "200"))).thread.state.tool, callArgs, "alice",
          Policy.trustedAgent, "acme"⟩) = some false := by decide +kernel
  rw [hcoerced] at hrejected
  cases hverified.symm.trans (Option.some.inj hrejected)

end AgentPlatform
