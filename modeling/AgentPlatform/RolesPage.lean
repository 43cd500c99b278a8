/-
The Roles page (`app/api/roles.py`): the matrix of the caller's tenant, read
from the policy.

`roles` is the route over any engine; `opaMatrix` and `opaData` answer the two
kinds of query it makes the way the policy package does. `page_is_power`: over
the engine the page comes out, its rows are what the policy gives each role in
the caller's tenant, the tools the agent is offered are those of the caller's
own rows, and no handler of the tool server ever runs for the caller outside
them.
-/
import AgentPlatform.Offer
import Mathlib.Data.String.Basic

namespace AgentPlatform

namespace Policy

variable (b : Bundle)

/-- `known_roles` -/
def knownRoles : List String :=
  (b.defaultRoleTools.keys ++ b.tenantRoleTools.values.flatMap Dict.keys).dedup

/-- `role_matrix`, undefined without a tenant. -/
def roleMatrix (input : Args) : Option (Dict String Tools) :=
  match input.get? "tenant" with
  | some tenant =>
    if holds (some tenant) then
      some (Dict.ofList ((knownRoles b).filterMap fun role => (roleToolsFor b tenant (.str role)).map (role, ·)))
    else none
  | none => none

end Policy

/-! ## The engine -/

/-- A rule's value as a response: no `result` where the rule is undefined. -/
def resultBody : Option Json → Json
  | some v => .obj [("result", v)]
  | none => .obj []

/-- The engine on the `role_matrix` path: a set is written as a list without
repeats. -/
def opaMatrix (b : Policy.Bundle) : Post := fun payload =>
  .ok ⟨200, .ok (resultBody ((Policy.roleMatrix b (queryInput payload)).map fun m =>
    .obj (m.entries.map fun e => (e.1, .arr (e.2.dedup.map .str)))))⟩

/-- What a GET of a document path answers, or raises. -/
abbrev Get := String → Except Exn Response

/-- The engine's documents: the catalogue, when one was injected, and the
limits. -/
def opaData (b : Policy.Bundle) : Get := fun path =>
  .ok ⟨200, .ok (resultBody (
    if path = "tools" then if b.catalogue.isEmpty then none else some (.arr (b.catalogue.map .str))
    else if path = "agentnhi/authz/auto_refund_limit" then some (.int Policy.autoRefundLimit)
    else if path = "agentnhi/authz/approval_refund_limit" then some (.int Policy.approvalRefundLimit)
    else none))⟩

/-! ## The client -/

/-- `_opa_get`: `None` on any error. -/
def opaGet (get : Get) (path : String) : Json :=
  let fetched : Except Exn Json := do
    let resp ← get path
    if resp.isSuccess then
      let body ← resp.json
      getField body "result"
    else throw ⟨.httpError, "status error"⟩
  match fetched with
  | .ok v => v
  | .error _ => .null

/-- `role_matrix(opa_url, tenant)` -/
def roleMatrix (post : Post) (tenant : Option String) : Json :=
  orEmpty (opaPost post (Dict.ofList [("tenant", .ofOption tenant)]))

/-- `catalogue(opa_url)` -/
def catalogueNames (get : Get) : Json :=
  let v := opaGet get "tools"
  if v.truthy then v else .arr []

/-- `refund_limits(opa_url)` -/
structure RefundLimits where
  auto : Json
  approval : Json

def refundLimits (get : Get) : RefundLimits :=
  ⟨opaGet get "agentnhi/authz/auto_refund_limit", opaGet get "agentnhi/authz/approval_refund_limit"⟩

/-! ## The route -/

/-- `sorted` of names. -/
def sortedNames (l : List String) : List String := l.mergeSort fun a b => decide (a ≤ b)

/-- The strings of a list of strings. -/
def namesOf : List Json → Except Exn (List String)
  | [] => .ok []
  | .str s :: l => (namesOf l).map (s :: ·)
  | _ :: _ => .error ⟨.typeError, "not a name"⟩

/-- `sorted(tools)` -/
def sortedTools : Json → Except Exn (List String)
  | .arr l => (namesOf l).map sortedNames
  | _ => .error ⟨.typeError, "not a list"⟩

/-- The rows of the response, in the order given. -/
def rowsOf : List (String × Json) → Except Exn (List (String × List String))
  | [] => .ok []
  | (role, tools) :: l => do
    let row ← sortedTools tools
    let rows ← rowsOf l
    return (role, row) :: rows

/-- `matrix.items()` -/
def items : Json → Except Exn (List (String × Json))
  | .obj fs => .ok fs
  | _ => .error ⟨.attributeError, "items"⟩

structure RolesPage where
  roles : Dict String (List String)
  tools : List String
  limits : RefundLimits
  yourRoles : List String
  yourTenant : Option String

/-- `roles(delegation)` -/
def roles (post : Post) (get : Get) (d : Delegation) : Except Exn RolesPage := do
  let matrix ← items (roleMatrix post d.tenant)
  let rows ← rowsOf (matrix.mergeSort fun e e' => decide (e.1 ≤ e'.1))
  let tools ← sortedTools (catalogueNames get)
  return ⟨Dict.ofList rows, tools, refundLimits get, d.roles, d.tenant⟩

/-! ## The matrix -/

namespace Policy

variable {b : Bundle}

/-- A role that is given tools in some tenant is known. -/
theorem mem_knownRoles {tenant : Json} {role : String} {tools : Tools}
    (h : roleToolsFor b tenant (.str role) = some tools) : role ∈ knownRoles b := by
  rw [knownRoles, List.mem_dedup, List.mem_append]
  rw [roleToolsFor_eq] at h
  rcases Option.or_eq_some_iff.1 h with h | ⟨-, h⟩
  · obtain ⟨perRole, hper, hrole⟩ := Option.bind_eq_some_iff.1 h
    refine .inr (List.mem_flatMap.2 ⟨perRole, ?_, Dict.mem_keys.2 ⟨_, hrole⟩⟩)
    cases tenant with
    | str name => exact Dict.mem_values.2 ⟨name, hper⟩
    | _ => cases hper
  · exact .inl (Dict.mem_keys.2 ⟨_, h⟩)

/-- The row of a role is what the policy gives it. -/
theorem roleMatrix_get? {input : Args} {m : Dict String Tools} {tenant : Json}
    (htenant : input.get? "tenant" = some tenant) (h : roleMatrix b input = some m) (role : String) :
    m.get? role = roleToolsFor b tenant (.str role) := by
  simp only [roleMatrix, htenant, Option.ite_none_right_eq_some, Option.some.injEq] at h
  obtain ⟨-, rfl⟩ := h
  rw [Dict.get?_ofList_filterMap (l := knownRoles b) (List.nodup_dedup _)]
  split
  · rfl
  · rename_i hunknown
    cases htools : roleToolsFor b tenant (.str role) with
    | none => rfl
    | some tools => exact absurd (mem_knownRoles htools) hunknown

end Policy

/-! ## The rows -/

theorem namesOf_strs (l : List String) : namesOf (l.map .str) = .ok l := by
  induction l with
  | nil => rfl
  | cons s l ih => simp [namesOf, ih, Except.map]

/-- The rows of lists of names. -/
theorem rowsOf_names (l : List (String × List String)) :
    rowsOf (l.map fun e => (e.1, .arr (e.2.map .str))) = .ok (l.map fun e => (e.1, sortedNames e.2)) := by
  induction l with
  | nil => rfl
  | cons e l ih => simp [rowsOf, sortedTools, namesOf_strs, ih, Except.map, bind, Except.bind, pure, Except.pure]

theorem mem_sortedNames {s : String} {l : List String} : s ∈ sortedNames l ↔ s ∈ l := List.mem_mergeSort

theorem opaGet_result (v : Option Json) (get : Get) (path : String)
    (h : get path = .ok ⟨200, .ok (resultBody v)⟩) : opaGet get path = v.getD .null := by
  have hok : ∀ j, (Response.mk 200 j).isSuccess = true := fun _ => rfl
  cases v <;> simp [opaGet, h, hok, resultBody, getField, Dict.find, bind, Except.bind]

/-- The client reads the matrix as the engine computes it. -/
theorem roleMatrix_opaMatrix (b : Policy.Bundle) (tenant : Option String) :
    ∃ m, Policy.roleMatrix b (Dict.ofList [("tenant", .ofOption tenant)]) = some m ∧
      roleMatrix (opaMatrix b) tenant = .obj (m.entries.map fun e => (e.1, .arr (e.2.dedup.map .str))) := by
  have hholds : Policy.holds (some (.ofOption tenant)) = true := by cases tenant <;> rfl
  have htenant : (Dict.ofList [("tenant", Json.ofOption tenant)]).get? "tenant" = some (.ofOption tenant) := rfl
  have hencodable : (Json.obj [("input", .obj (Dict.ofList [("tenant", Json.ofOption tenant)]).entries)]).encodable =
      true := by cases tenant <;> rfl
  have hok : ∀ j, (Response.mk 200 j).isSuccess = true := fun _ => rfl
  have hobj : ∀ fs, orEmpty (.obj fs) = .obj fs := by intro fs; cases fs <;> rfl
  refine ⟨_, by rw [Policy.roleMatrix, htenant]; simp only [hholds, if_true]; rfl, ?_⟩
  simp only [roleMatrix, opaPost, Post.send, hencodable, if_true, opaMatrix, queryInput_payload, Policy.roleMatrix,
    htenant, hholds, Option.map_some, resultBody, bind, Except.bind, hok, getField, Dict.find, Option.getD_some, hobj]

/-! ## Together -/

/-- The page of a delegation. -/
structure ShowsPolicy (b : Policy.Bundle) (d : Delegation) (page : RolesPage) : Prop where
  row : ∀ role, page.roles.get? role =
    (Policy.roleToolsFor b (.ofOption d.tenant) (.str role)).map fun tools => sortedNames tools.dedup
  ordered : page.roles.keys.Pairwise (· < ·)
  tools : page.tools = sortedNames b.catalogue
  limits : page.limits = ⟨.int Policy.autoRefundLimit, .int Policy.approvalRefundLimit⟩
  roles : page.yourRoles = d.roles
  tenant : page.yourTenant = d.tenant

/-- A row of the caller's own roles lists the tool. -/
def RolesPage.Yours (page : RolesPage) (tool : String) : Prop :=
  ∃ role ∈ page.yourRoles, ∃ row, page.roles.get? role = some row ∧ tool ∈ row

/-- The items in the order of their names. -/
def sortedItems {α : Type} (l : List (String × α)) : List (String × α) :=
  l.mergeSort fun e e' => decide (e.1 ≤ e'.1)

theorem sortedItems_map {α β : Type} (f : α → β) (l : List (String × α)) :
    sortedItems (l.map fun e => (e.1, f e.2)) = (sortedItems l).map fun e => (e.1, f e.2) := by
  have hsort := List.map_mergeSort (r := fun e e' : String × α => decide (e.1 ≤ e'.1))
    (s := fun e e' : String × β => decide (e.1 ≤ e'.1)) (f := fun e => (e.1, f e.2)) (l := l) (fun _ _ _ _ => rfl)
  exact hsort.symm

theorem sortedItems_nodup {α : Type} {l : List (String × α)} (hl : (l.map Prod.fst).Nodup) :
    ((sortedItems l).map Prod.fst).Nodup :=
  ((List.mergeSort_perm l _).map Prod.fst).nodup_iff.2 hl

theorem sortedItems_pairwise {α : Type} {l : List (String × α)} (hl : (l.map Prod.fst).Nodup) :
    ((sortedItems l).map Prod.fst).Pairwise (· < ·) := by
  have hle : ((sortedItems l).map Prod.fst).Pairwise (· ≤ ·) := by
    refine List.pairwise_map.2 ((List.pairwise_mergeSort (fun x y z hxy hyz => ?_) (fun x y => ?_) l).imp
      of_decide_eq_true)
    · exact decide_eq_true ((of_decide_eq_true hxy).trans (of_decide_eq_true hyz))
    · simpa using le_total x.1 y.1
  exact (hle.and (sortedItems_nodup hl)).imp fun ⟨h, hne⟩ => lt_of_le_of_ne h hne

theorem catalogueNames_opaData (b : Policy.Bundle) :
    sortedTools (catalogueNames (opaData b)) = .ok (sortedNames b.catalogue) := by
  have hget : opaGet (opaData b) "tools" = _ := opaGet_result _ (opaData b) "tools" rfl
  rw [catalogueNames, hget]
  cases hc : b.catalogue with
  | nil => rfl
  | cons name l =>
    simp only [if_true, List.isEmpty_cons, Bool.false_eq_true, if_false, Option.getD_some, Json.truthy,
      List.map_cons, Bool.not_false]
    rw [← List.map_cons, sortedTools, namesOf_strs]
    rfl

theorem roles_opa (b : Policy.Bundle) (d : Delegation) :
    ∃ page, roles (opaMatrix b) (opaData b) d = .ok page ∧ ShowsPolicy b d page := by
  obtain ⟨m, hm, hmatrix⟩ := roleMatrix_opaMatrix b d.tenant
  let rows := (sortedItems m.entries).map fun e => (e.1, sortedNames e.2.dedup)
  have hkeys : rows.map Prod.fst = (sortedItems m.entries).map Prod.fst := by
    rw [List.map_map]
    rfl
  have hnodup : (rows.map Prod.fst).Nodup := hkeys ▸ sortedItems_nodup m.nodup
  have hrows : rowsOf (sortedItems (m.entries.map fun e => (e.1, Json.arr (e.2.dedup.map .str)))) = .ok rows := by
    have hnames := rowsOf_names ((sortedItems m.entries).map fun e => (e.1, e.2.dedup))
    rw [List.map_map, List.map_map] at hnames
    have hsort := sortedItems_map (fun tools : Policy.Tools => Json.arr (tools.dedup.map .str)) m.entries
    rw [hsort]
    exact hnames
  have hlimit : refundLimits (opaData b) = ⟨.int Policy.autoRefundLimit, .int Policy.approvalRefundLimit⟩ := by
    rw [refundLimits, opaGet_result _ (opaData b) "agentnhi/authz/auto_refund_limit" rfl,
      opaGet_result _ (opaData b) "agentnhi/authz/approval_refund_limit" rfl]
    rfl
  refine ⟨⟨Dict.ofList rows, sortedNames b.catalogue, refundLimits (opaData b), d.roles, d.tenant⟩, ?_, ?_⟩
  · have hsort : rowsOf ((m.entries.map fun e => (e.1, Json.arr (e.2.dedup.map .str))).mergeSort
        fun e e' => decide (e.1 ≤ e'.1)) = .ok rows := hrows
    simp only [roles, hmatrix, items, bind, Except.bind, hsort, catalogueNames_opaData, pure, Except.pure]
  · refine ⟨fun role => Option.ext fun row => ?_, ?_, rfl, hlimit, rfl, rfl⟩
    · have htenant : (Dict.ofList [("tenant", Json.ofOption d.tenant)]).get? "tenant" = some (.ofOption d.tenant) :=
        rfl
      rw [Dict.get?_ofList_eq_some hnodup, ← Policy.roleMatrix_get? htenant hm]
      simp only [rows, sortedItems, List.mem_map, List.mem_mergeSort, Prod.mk.injEq, Option.map_eq_some_iff]
      constructor
      · rintro ⟨e, he, rfl, rfl⟩
        exact ⟨e.2, Dict.mem_entries.1 he, rfl⟩
      · rintro ⟨tools, htools, rfl⟩
        exact ⟨(role, tools), Dict.mem_entries.2 htools, rfl, rfl⟩
    · have hentries : (Dict.ofList rows).keys = rows.map Prod.fst :=
        congrArg Dict.keys (Dict.ofList_entries ⟨rows, hnodup⟩)
      rw [hentries, hkeys]
      exact sortedItems_pairwise m.nodup

/-! ## The caller's rows -/

/-- A role of the caller gives the tool. -/
def GivesTool (b : Policy.Bundle) (d : Delegation) (tool : String) : Prop :=
  ∃ role ∈ d.roles, ∃ tools, Policy.roleToolsFor b (.ofOption d.tenant) (.str role) = some tools ∧ tool ∈ tools

theorem ShowsPolicy.yours_iff {b : Policy.Bundle} {d : Delegation} {page : RolesPage} (h : ShowsPolicy b d page)
    {tool : String} : page.Yours tool ↔ GivesTool b d tool := by
  simp only [RolesPage.Yours, GivesTool, h.roles, h.row, Option.map_eq_some_iff]
  refine exists_congr fun role => and_congr_right fun _ => ⟨?_, ?_⟩
  · rintro ⟨_, ⟨tools, htools, rfl⟩, hmem⟩
    exact ⟨tools, htools, List.mem_dedup.1 (mem_sortedNames.1 hmem)⟩
  · rintro ⟨tools, htools, hmem⟩
    exact ⟨_, ⟨tools, htools, rfl⟩, mem_sortedNames.2 (List.mem_dedup.2 hmem)⟩

theorem mem_toolsForRoles_iff {b : Policy.Bundle} {d : Delegation} {input : Args} {tool : String}
    (hroles : input.get? "roles" = some (.arr (d.roles.map .str)))
    (htenant : input.get? "tenant" = some (.ofOption d.tenant)) :
    tool ∈ Policy.toolsForRoles b input ↔ GivesTool b d tool := by
  simp only [Policy.toolsForRoles, hroles, htenant, Policy.members, List.mem_flatMap, List.mem_map,
    exists_exists_and_eq_and, GivesTool]
  refine exists_congr fun role => and_congr_right fun _ => ?_
  cases Policy.roleToolsFor b (.ofOption d.tenant) (.str role) <;> simp

theorem mayCall_iff {b : Policy.Bundle} {d : Delegation} {input : Args} {tool : String}
    (hroles : input.get? "roles" = some (.arr (d.roles.map .str)))
    (htenant : input.get? "tenant" = some (.ofOption d.tenant)) :
    Policy.mayCall b input (some (.str tool)) = true ↔ GivesTool b d tool := by
  simp only [Policy.mayCall, hroles, htenant, Policy.members, List.any_map, List.any_eq_true, Function.comp, GivesTool]
  refine exists_congr fun role => and_congr_right fun _ => ?_
  cases Policy.roleToolsFor b (.ofOption d.tenant) (.str role) with
  | none => simp
  | some tools => simp [Policy.inSet_str]

/-- A handler runs only for a tool some role of the caller is given. -/
theorem givesTool_of_invocation [UnicodeData] {σ : Type} {b : Policy.Bundle} {fmt : Json → String} {d : Delegation}
    {services : Services σ} {subject : String} (hpost : services.post = opa b fmt)
    (hverified : services.verifier subject = .ok d) {backend : Backend σ} {toolName : String} {args : Args}
    {workloadToken : Option String} {s : σ} {name : String} {kw : Kwargs}
    (h : (name, kw) ∈ ((services.enforcer backend).call (some subject) toolName args workloadToken s).invocations) :
    GivesTool b d name := by
  rcases Enforcer.call_cases (services.enforcer backend) (some subject) toolName args workloadToken s with
    hinert | ⟨g, pre, hpre, -, he⟩
  · rw [hinert.invocations] at h
    cases h
  have hverified' : services.verifier g.subject = .ok g.d := g.verified
  rw [← Option.some.inj g.token_eq] at hverified'
  obtain rfl : d = g.d := Except.ok.inj (hverified.symm.trans hverified')
  have hinv : (name, kw) ∈ [(toolName, g.kwargs)] := by
    rw [he, Run.invocations_after, hpre, List.nil_append] at h
    exact Enforcer.execute_invocations _ _ _ _ _ _ _ _ ▸ h
  obtain rfl : name = toolName := congrArg Prod.fst (List.mem_singleton.1 hinv)
  have hasked := Enforcer.granted_askedFor g
  obtain ⟨-, hne, hdecision⟩ := g.not_denied b fmt hpost
  have hdeny : Policy.deny b (Enforcer.policyDoc g.d name g.callArgs) = false := by
    by_contra hdeny
    exact hne (hdecision.trans (Policy.decision_of_deny (Bool.not_eq_false _ |>.mp hdeny)))
  have hgranted := ((Policy.deny_eq_false_iff b _).1 hdeny).granted
  rw [hasked.tool] at hgranted
  exact (mayCall_iff hasked.roles hasked.tenant).1 hgranted

/-- **The page is the power.** Over one policy, the page a caller is shown has
the policy's rows; the tools the agent is offered for the caller are those of
the caller's own rows; and no call of the tool server as the caller runs a
handler outside them. -/
theorem page_is_power [UnicodeData] {σ : Type} (b : Policy.Bundle) (fmt : Json → String) (d : Delegation)
    (services : Services σ) (subject : String) (hpost : services.post = opa b fmt)
    (hverified : services.verifier subject = .ok d) (backend : Backend σ) :
    ∃ page, roles (opaMatrix b) (opaData b) d = .ok page ∧ ShowsPolicy b d page ∧
      (∃ offered, toolsForRoles (opaTools b) d.roles d.tenant = .ok offered ∧
        ∀ tool, .str tool ∈ offered ↔ page.Yours tool) ∧
      ∀ (toolName : String) (args : Args) (workloadToken : Option String) (s : σ) (name : String) (kw : Kwargs),
        (name, kw) ∈ ((services.enforcer backend).call (some subject) toolName args workloadToken s).invocations →
          page.Yours name := by
  obtain ⟨page, hpage, hshows⟩ := roles_opa b d
  refine ⟨page, hpage, hshows, ⟨_, toolsForRoles_opaTools b d.roles d.tenant, fun tool => ?_⟩, ?_⟩
  · have hmem := @mem_toolsForRoles_iff b d (Dict.ofList [("roles", .arr (d.roles.map .str)),
      ("tenant", .ofOption d.tenant)]) tool rfl rfl
    rw [hshows.yours_iff, ← hmem]
    simp
  · intro toolName args workloadToken s name kw h
    exact hshows.yours_iff.2 (givesTool_of_invocation hpost hverified h)

/-- A support rep of `globex`, whose page has no refunds to issue. -/
def robDelegation : Delegation := ⟨"rob", Policy.trustedAgent, "tool-server", ["support_rep"], some "globex"⟩

theorem rob_page_is_power :
    let b := Policy.bundle toolNames none
    let services : Services Simulators.State :=
      ⟨none, fun _ => .ok robDelegation, opa b fun _ => "", fun _ _ => .ok false⟩
    ∃ page, roles (opaMatrix b) (opaData b) robDelegation = .ok page ∧ ShowsPolicy b robDelegation page ∧
      (∃ offered, toolsForRoles (opaTools b) robDelegation.roles robDelegation.tenant = .ok offered ∧
        ∀ tool, .str tool ∈ offered ↔ page.Yours tool) ∧
      ∀ (toolName : String) (args : Args) (workloadToken : Option String) (s : Simulators.State) (name : String)
        (kw : Kwargs),
        (name, kw) ∈ (@Enforcer.call _ asciiData (@Services.enforcer _ asciiData services (@simulatorBackend asciiData))
          (some "t") toolName args workloadToken s).invocations → page.Yours name :=
  @page_is_power asciiData _ (Policy.bundle toolNames none) (fun _ => "") robDelegation _ "t" rfl rfl
    (@simulatorBackend asciiData)

end AgentPlatform
