/-
What the agent is offered, and what the tool server can allow.

`offered_iff_callable`: over the shipped matrices, a tool is among
`tools_for_roles` exactly when the policy does not deny every call of it by the
trusted agent for the same roles and tenant; so the agent offers its model the
tools of the catalogue that can be called, and refuses the others by name.

The matrices do the work that the offer does not: every tool they grant is in
the catalogue, none is a bulk tool, and only `privacy` grants direct
identifiers.
-/
import AgentPlatform.PolicySpec
import AgentPlatform.LiveFacts

namespace AgentPlatform

namespace Policy

/-! ## The shipped matrices -/

/-- What a grant of the shipped matrices says. -/
def GrantOk (role tool : String) : Prop := tool ∈ toolNames ∧ (tool ∈ piiTools → role = "privacy")

instance (role tool : String) : Decidable (GrantOk role tool) := inferInstanceAs (Decidable (_ ∧ _))

theorem grants_ok {catalogue : List String} {version : Option String} {tenant role tool : String} {tools : Tools}
    (h : roleToolsFor (bundle catalogue version) (.str tenant) (.str role) = some tools) (hm : tool ∈ tools) :
    GrantOk role tool := by
  have hdefault : ∀ e ∈ defaultRoleTools.entries, ∀ t ∈ e.2, GrantOk e.1 t := by decide
  have htenant : ∀ per ∈ tenantRoleTools.entries, ∀ e ∈ per.2.entries, ∀ t ∈ e.2, GrantOk e.1 t := by decide
  rw [roleToolsFor_eq] at h
  rcases Option.or_eq_some_iff.1 h with h | ⟨-, h⟩
  · obtain ⟨perRole, hper, hrole⟩ := Option.bind_eq_some_iff.1 h
    exact htenant _ (Dict.mem_entries.2 hper) _ (Dict.mem_entries.2 hrole) tool hm
  · exact hdefault _ (Dict.mem_entries.2 h) tool hm

/-! ## Offers and calls -/

variable (b : Bundle) (roles : List String) (tenant : String)

/-- The document `tools_for_roles` is asked with. -/
def rolesDoc : Args := Dict.ofList [("roles", .arr (roles.map .str)), ("tenant", .str tenant)]

/-- The document of a call by the trusted agent for a user, with an amount or
none. -/
def callDoc (user tool : String) (amount : Option Json) : Args :=
  Enforcer.policyDoc ⟨user, trustedAgent, "", roles, some tenant⟩ tool
    (Dict.ofList (amount.toList.map fun a => ("amount", a)))

/-- There is an amount for which the call is not denied. -/
def Callable (user tool : String) : Prop :=
  ∃ amount : Json, decision b (callDoc roles tenant user tool (some amount)) ≠ .deny

variable {b roles tenant}

theorem callDoc_get (user tool : String) (amount : Option Json) :
    let doc := callDoc roles tenant user tool amount
    doc.get? "agent" = some (.str trustedAgent) ∧ doc.get? "roles" = some (.arr (roles.map .str)) ∧
      doc.get? "tenant" = some (.str tenant) ∧ doc.get? "tool" = some (.str tool) ∧ doc.get? "amount" = amount := by
  cases amount <;> exact ⟨rfl, rfl, rfl, rfl, rfl⟩

/-- The roles of a document grant the tool. -/
theorem mem_toolsForRoles {tool : String} :
    tool ∈ toolsForRoles b (rolesDoc roles tenant) ↔
      ∃ role ∈ roles, ∃ tools, roleToolsFor b (.str tenant) (.str role) = some tools ∧ tool ∈ tools := by
  have hroles : (rolesDoc roles tenant).get? "roles" = some (.arr (roles.map .str)) := rfl
  have htenant : (rolesDoc roles tenant).get? "tenant" = some (.str tenant) := rfl
  simp only [toolsForRoles, hroles, htenant, members, List.mem_flatMap, List.mem_map, exists_exists_and_eq_and]
  constructor
  · intro h
    obtain ⟨role, hrole, hm⟩ := h
    cases ht : roleToolsFor b (.str tenant) (.str role) with
    | none =>
      rw [ht] at hm
      cases hm
    | some tools =>
      rw [ht] at hm
      exact ⟨role, hrole, tools, ht, hm⟩
  · intro h
    obtain ⟨role, hrole, tools, ht, hm⟩ := h
    exact ⟨role, hrole, by rw [ht]; exact hm⟩

theorem inSet_str {set : List String} {tool : String} : inSet set (.str tool) = true ↔ tool ∈ set := by
  simp [inSet, isStr]

theorem mayCall_callDoc {user tool : String} {amount : Option Json} :
    mayCall b (callDoc roles tenant user tool amount) (some (.str tool)) = true ↔
      tool ∈ toolsForRoles b (rolesDoc roles tenant) := by
  obtain ⟨-, hroles, htenant, -, -⟩ := @callDoc_get roles tenant user tool amount
  rw [mem_toolsForRoles]
  simp only [mayCall, hroles, htenant, members, List.any_map, List.any_eq_true, Function.comp]
  refine exists_congr fun role => and_congr_right fun _ => ?_
  cases roleToolsFor b (.str tenant) (.str role) with
  | none => simp
  | some tools => simp [inSet_str]

theorem hasRole_callDoc {user tool role : String} {amount : Option Json} (h : role ∈ roles) :
    hasRole (callDoc roles tenant user tool amount) role = true := by
  obtain ⟨-, hroles, -, -, -⟩ := @callDoc_get roles tenant user tool amount
  simp only [hasRole, hroles, members, List.any_map, List.any_eq_true]
  exact ⟨role, h, by simp [isStr]⟩

/-- A call that is not denied is of a granted tool. -/
theorem mem_toolsForRoles_of_decision {user tool : String} {amount : Option Json}
    (h : decision b (callDoc roles tenant user tool amount) ≠ .deny) :
    tool ∈ toolsForRoles b (rolesDoc roles tenant) := by
  have hdeny : deny b (callDoc roles tenant user tool amount) = false := by
    by_contra hdeny
    exact h (decision_of_deny (Bool.not_eq_false _ |>.mp hdeny))
  obtain ⟨-, -, -, htool, -⟩ := @callDoc_get roles tenant user tool amount
  have hgranted := ((deny_eq_false_iff b _).1 hdeny).granted
  rw [htool] at hgranted
  exact mayCall_callDoc.1 hgranted

/-- An amount that needs no approval. -/
def smallAmount : Json := .int 10

theorem smallAmount_ok :
    isPositiveNumber (some smallAmount) = true ∧ above approvalRefundLimit (some smallAmount) = false := by
  decide +kernel

/-- A granted tool of the shipped matrices is not denied a small amount. -/
theorem decision_smallAmount {catalogue : List String} {version : Option String}
    (hcatalogue : catalogue = [] ∨ catalogue = toolNames) {user tool : String}
    (h : tool ∈ toolsForRoles (bundle catalogue version) (rolesDoc roles tenant)) :
    decision (bundle catalogue version) (callDoc roles tenant user tool (some smallAmount)) ≠ .deny := by
  have hgranted := (@mayCall_callDoc (bundle catalogue version) roles tenant user tool (some smallAmount)).2 h
  obtain ⟨role, hrole, tools, ht, hm⟩ := mem_toolsForRoles.1 h
  obtain ⟨hname, hprivacy⟩ := grants_ok ht hm
  obtain ⟨hagent, hroles, htenant, htool, hamount⟩ := @callDoc_get roles tenant user tool (some smallAmount)
  have htrusted : isTrusted (callDoc roles tenant user tool (some smallAmount)) = true := by
    simp [isTrusted, hagent, isStr]
  have hknown : outsideCatalogue (bundle catalogue version) (callDoc roles tenant user tool (some smallAmount)) =
      false := by
    rcases hcatalogue with rfl | rfl
    · rfl
    · simp [outsideCatalogue, htool, bundle, inSet_str.2 hname]
  have hbulk : isBulk (callDoc roles tenant user tool (some smallAmount)) = false := by
    have hall : ∀ t ∈ toolNames, "bulk.".toList.isPrefixOf t.toList = false := by decide +kernel
    simpa [isBulk, htool] using hall tool hname
  have hpii : (isPii (callDoc roles tenant user tool (some smallAmount)) &&
      !hasRole (callDoc roles tenant user tool (some smallAmount)) "privacy") = false := by
    have hset : isPii (callDoc roles tenant user tool (some smallAmount)) = inSet piiTools (.str tool) := by
      rw [isPii, htool]
    cases hin : inSet piiTools (.str tool) with
    | false => rw [hset, hin, Bool.false_and]
    | true =>
      obtain rfl := hprivacy (inSet_str.1 hin)
      rw [hasRole_callDoc hrole, Bool.not_true, Bool.and_false]
  have hdenies :
      specDenies (bundle catalogue version) (callDoc roles tenant user tool (some smallAmount)) = false := by
    rw [specDenies, htrusted, htenant, hknown, htool, hgranted, hbulk,
      hamount, smallAmount_ok.1, smallAmount_ok.2, hpii]
    simp [holds]
  rw [decision_eq_spec, specDecision, hdenies]
  cases specHolds (callDoc roles tenant user tool (some smallAmount)) <;> simp

end Policy

/-! ## The agent -/

section

variable [UnicodeData]

theorem declaredTools_isSome (name : String) : (declaredTools.get? name).isSome = true ↔ name ∈ toolNames := by
  have hkeys : declaredTools.keys = toolNames := rfl
  rw [← hkeys, Dict.mem_keys, Option.isSome_iff_exists]

theorem split_isSome {offered : List String} {keep : Bool} {name : String} :
    ((LiveEnv.split (offered.map .str) keep).get? name).isSome = true ↔
      name ∈ toolNames ∧ (decide (name ∈ offered) = keep) := by
  have hany : (offered.map Json.str).any (Policy.isStr name) = decide (name ∈ offered) := by
    rw [List.any_map, Bool.eq_iff_iff, List.any_eq_true, decide_eq_true_iff]
    simp [Policy.isStr]
  rw [LiveEnv.split, Dict.get?_filterMap, hany, ← declaredTools_isSome]
  cases declaredTools.get? name with
  | none => simp
  | some tool => by_cases hkeep : decide (name ∈ offered) = keep <;> simp [hkeep]

end

namespace Llm

variable [UnicodeData] {σ : Type}

/-- A proposal is no refusal. -/
theorem propose_not_refused {tool : Tool σ} {decision : Json} {task : String} {observations : List Observation}
    {d : ModelDecision} (h : propose tool decision task observations = .ok d) : d.refused = false := by
  obtain ⟨given, -, h⟩ := bind_ok h
  obtain ⟨filled, -, h⟩ := bind_ok h
  obtain ⟨seen, -, h⟩ := bind_ok h
  obtain ⟨fromTask, -, h⟩ := bind_ok h
  obtain ⟨args, -, h⟩ := bind_ok h
  dsimp only at h
  split at h <;>
  · obtain rfl := Except.ok.inj h
    rfl

/-- A reply that names a tool is refused when the tool is not available, and
then only. -/
theorem decideTool_refused (tools unavailable : Dict String (Tool σ)) {fields : List (String × Json)} {name : String}
    (task : String) (observations : List Observation) (h : Dict.find "tool" fields = some (.str name))
    (hne : name ≠ "") :
    let d := decideTool tools unavailable (.read (.obj fields)) task observations
    (d.refused = true ↔ (unavailable.get? name).isSome = true) ∧ (d.refused = true → d.refusedTool = name) := by
  have htool : getField (.obj fields) "tool" = .ok (.str name) := by rw [getField, h, Option.getD_some]
  have htruthy : (Json.str name).truthy = true := by simpa [Json.truthy] using hne
  cases hun : (unavailable.get? name).isSome with
  | true => simp [decideTool, chosen, htool, htruthy, toolKey, hun, bind, Except.bind, pure, Except.pure]
  | false =>
    have hnot : (decideTool tools unavailable (.read (.obj fields)) task observations).refused = false := by
      cases ht : tools.get? name with
      | none =>
        have hchosen : chosen tools unavailable (.obj fields) task observations = .ok none := by
          simp only [chosen, htool, htruthy, toolKey, hun, ht, bind, Except.bind,
            pure, Except.pure, Bool.false_eq_true,
            if_false]
          rfl
        simp only [decideTool, hchosen, noTool]
      | some tool =>
        have hchosen : chosen tools unavailable (.obj fields) task observations =
            (propose tool (.obj fields) task observations).map some := by
          simp only [chosen, htool, htruthy, toolKey, hun, ht, bind, Except.bind,
            pure, Except.pure, Bool.false_eq_true,
            if_false]
          rfl
        cases hp : propose tool (.obj fields) task observations with
        | error e => simp only [decideTool, hchosen, hp, Except.map, noTool]
        | ok d => simp only [decideTool, hchosen, hp, Except.map, propose_not_refused hp]
    simp [hnot]

end Llm

/-! ## Together -/

section

variable [UnicodeData]

/-- What is offered is what can be allowed. -/
structure OfferMatches (b : Policy.Bundle) (roles : List String) (tenant user : String) : Prop where
  offered : ∀ tool, tool ∈ Policy.toolsForRoles b (Policy.rolesDoc roles tenant) ↔
    Policy.Callable b roles tenant user tool
  /-- `allowed_tools` -/
  allowed : ∃ offered, toolsForRoles (opaTools b) roles (some tenant) = .ok offered ∧
    ∀ name, ((LiveEnv.split offered true).get? name).isSome = true ↔
      name ∈ toolNames ∧ Policy.Callable b roles tenant user name
  /-- `decide`, on a reply that names a tool -/
  refused : ∀ (env : LiveEnv) (task : String) (observations : List Observation) (w : World)
    (fields : List (String × Json)) (name : String),
    env.offered = toolsForRoles (opaTools b) roles (some tenant) → env.reply = .read (.obj fields) →
    Dict.find "tool" fields = some (.str name) → name ≠ "" →
    ∃ d, env.decide task observations w = (.ok d, w) ∧
      (d.refused = true ↔ name ∈ toolNames ∧ ¬Policy.Callable b roles tenant user name) ∧
      (d.refused = true → d.refusedTool = name)

/-- **The offer is what can be called**, for any roles, in any tenant. -/
theorem offered_iff_callable (catalogue : List String) (version : Option String)
    (hcatalogue : catalogue = [] ∨ catalogue = toolNames) (roles : List String) (tenant user : String) :
    OfferMatches (Policy.bundle catalogue version) roles tenant user := by
  have hiff : ∀ tool, tool ∈ Policy.toolsForRoles (Policy.bundle catalogue version) (Policy.rolesDoc roles tenant) ↔
      Policy.Callable (Policy.bundle catalogue version) roles tenant user tool := by
    intro tool
    constructor
    · intro h
      exact ⟨Policy.smallAmount, Policy.decision_smallAmount hcatalogue h⟩
    · intro h
      obtain ⟨amount, hamount⟩ := h
      exact Policy.mem_toolsForRoles_of_decision hamount
  have hoffered : toolsForRoles (opaTools (Policy.bundle catalogue version)) roles (some tenant) =
      .ok ((Policy.toolsForRoles (Policy.bundle catalogue version) (Policy.rolesDoc roles tenant)).map .str) :=
    toolsForRoles_opaTools (Policy.bundle catalogue version) roles (some tenant)
  refine ⟨hiff, ⟨_, hoffered, ?_⟩, ?_⟩
  · intro name
    rw [split_isSome, ← hiff name, decide_eq_true_iff]
  · intro env task observations w fields name henv hreply hfield hne
    have hdecide := Llm.decideTool_refused
      (LiveEnv.split ((Policy.toolsForRoles (Policy.bundle catalogue version) (Policy.rolesDoc roles tenant)).map .str)
        true)
      (LiveEnv.split ((Policy.toolsForRoles (Policy.bundle catalogue version) (Policy.rolesDoc roles tenant)).map .str)
        false)
      task observations hfield hne
    rw [split_isSome, decide_eq_false_iff_not, hiff name] at hdecide
    refine ⟨_, ?_, hdecide⟩
    rw [LiveEnv.decide, henv, hoffered, hreply]

end

/-- Where a tenant narrows a role, and another role grants direct identifiers. -/
theorem offered_globex :
    (toolNames = [] ∨ toolNames = toolNames) ∧
      @OfferMatches asciiData (Policy.bundle toolNames none) ["support_rep", "privacy"] "globex" "bob" :=
  ⟨.inr rfl, @offered_iff_callable asciiData toolNames none (.inr rfl) ["support_rep", "privacy"] "globex" "bob"⟩

end AgentPlatform
