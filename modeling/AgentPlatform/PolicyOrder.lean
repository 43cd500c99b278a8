/-
How the decision moves with the input.

`Decision` is ordered by what it lets through: deny, below require approval,
below allow. `decision_mono`: whatever the matrices, a call by someone with
more roles, or for a smaller refund, is never decided more strictly, and what
`tools_for_roles` lists only grows with the roles. So the roles of a document
count as a set: their order, repeats and the roles no matrix knows are without
effect (`decision_roles`).
-/
import AgentPlatform.PolicySpec
import Mathlib.Order.Basic

namespace AgentPlatform

/-- How much a decision lets through. -/
def Decision.rank : Decision → Nat
  | .deny => 0
  | .requireApproval => 1
  | .allow => 2

instance : Preorder Decision := Preorder.lift Decision.rank

theorem Decision.le_iff {d e : Decision} : d ≤ e ↔ d.rank ≤ e.rank := Iff.rfl

theorem Decision.deny_le (d : Decision) : .deny ≤ d := Nat.zero_le _

theorem Decision.le_antisymm {d e : Decision} (h : d ≤ e) (h' : e ≤ d) : d = e := by
  rw [Decision.le_iff] at h h'
  cases d <;> cases e <;> first | rfl | (simp only [Decision.rank] at h h'; omega)

namespace Policy

/-- `input'` is the same call, by someone with all the roles of `input` and
for no larger an amount. -/
structure Widens (input input' : Args) : Prop where
  same : ∀ k, k ≠ "roles" → k ≠ "amount" → input'.get? k = input.get? k
  roles : ∀ role ∈ members (input.get? "roles"), role ∈ members (input'.get? "roles")
  /-- A positive amount is replaced by a positive one, no larger. -/
  amount : ∀ a, (input.get? "amount").bind number = some a → 0 < a →
    ∃ a', (input'.get? "amount").bind number = some a' ∧ 0 < a' ∧ a' ≤ a

variable {b : Bundle} {input input' : Args}

section

variable (h : Widens input input')

include h

theorem Widens.isTrusted_eq : isTrusted input' = isTrusted input := by
  simp only [isTrusted, h.same "agent" (by decide) (by decide)]

theorem Widens.tenant_eq : input'.get? "tenant" = input.get? "tenant" :=
  h.same "tenant" (by decide) (by decide)

theorem Widens.tool_eq : input'.get? "tool" = input.get? "tool" := h.same "tool" (by decide) (by decide)

theorem Widens.isRefund_eq : isRefund input' = isRefund input := by simp only [isRefund, h.tool_eq]

theorem Widens.isPii_eq : isPii input' = isPii input := by simp only [isPii, h.tool_eq]

theorem Widens.isBulk_eq : isBulk input' = isBulk input := by simp only [isBulk, h.tool_eq]

theorem Widens.outsideCatalogue_eq : outsideCatalogue b input' = outsideCatalogue b input := by
  simp only [outsideCatalogue, h.tool_eq]

theorem Widens.hasRole {role : String} (hrole : hasRole input role = true) : Policy.hasRole input' role = true := by
  simp only [Policy.hasRole, List.any_eq_true] at hrole ⊢
  obtain ⟨v, hv, his⟩ := hrole
  exact ⟨v, h.roles v hv, his⟩

/-- A grant is a grant of one of the roles, so it is kept. -/
theorem Widens.mayCall {tool : Option Json} (hcall : mayCall b input tool = true) :
    Policy.mayCall b input' tool = true := by
  obtain ⟨v, rfl⟩ := tool_of_mayCall hcall
  cases htenant : input.get? "tenant" with
  | none => simp [Policy.mayCall, htenant] at hcall
  | some tenant =>
    simp only [Policy.mayCall, htenant, h.tenant_eq, List.any_eq_true] at hcall ⊢
    obtain ⟨role, hrole, htools⟩ := hcall
    exact ⟨role, h.roles role hrole, htools⟩

theorem Widens.toolsForRoles_subset : toolsForRoles b input ⊆ toolsForRoles b input' := by
  intro tool
  simp only [toolsForRoles, h.tenant_eq]
  cases input.get? "tenant" with
  | none => exact id
  | some tenant =>
    simp only [List.mem_flatMap]
    rintro ⟨role, hrole, htool⟩
    exact ⟨role, h.roles role hrole, htool⟩

theorem Widens.isPositiveNumber (hpos : isPositiveNumber (input.get? "amount") = true) :
    Policy.isPositiveNumber (input'.get? "amount") = true := by
  cases ha : (input.get? "amount").bind number with
  | none => simp [Policy.isPositiveNumber, ha] at hpos
  | some a =>
    obtain ⟨a', ha', hpos', -⟩ := h.amount a ha (by simpa [Policy.isPositiveNumber, ha] using hpos)
    simp [Policy.isPositiveNumber, ha', hpos']

/-- A limit the smaller amount is above, the larger one is above. -/
theorem Widens.above {n : Nat} (hpos : Policy.isPositiveNumber (input.get? "amount") = true)
    (habove : above n (input'.get? "amount") = true) : Policy.above n (input.get? "amount") = true := by
  cases ha : (input.get? "amount").bind number with
  | none => simp [Policy.isPositiveNumber, ha] at hpos
  | some a =>
    obtain ⟨a', ha', -, hle⟩ := h.amount a ha (by simpa [Policy.isPositiveNumber, ha] using hpos)
    simp only [Policy.above, ha, ha', decide_eq_true_eq] at habove ⊢
    exact lt_of_lt_of_le habove hle

/-- What is let through stays let through. -/
theorem Widens.passes (hp : Passes b input) : Passes b input' where
  trusted := by rw [h.isTrusted_eq, hp.trusted]
  tenant := by rw [h.tenant_eq, hp.tenant]
  known := by rw [h.outsideCatalogue_eq, hp.known]
  granted := by
    rw [h.tool_eq]
    exact h.mayCall hp.granted
  bulk := by rw [h.isBulk_eq, hp.bulk]
  amount hrefund := by
    obtain ⟨hpos, hbelow⟩ := hp.amount (h.isRefund_eq ▸ hrefund)
    refine ⟨h.isPositiveNumber hpos, ?_⟩
    cases habove : Policy.above approvalRefundLimit (input'.get? "amount") with
    | false => rfl
    | true => rw [h.above hpos habove] at hbelow; cases hbelow

/-- What needs approval for the wider call needs it for the narrower. -/
theorem Widens.specHolds (hp : Passes b input) (hholds : specHolds input' = true) :
    Policy.specHolds input = true := by
  simp only [Policy.specHolds, h.isRefund_eq, h.isPii_eq, Bool.or_eq_true, Bool.and_eq_true] at hholds ⊢
  rcases hholds with ⟨hrefund, habove⟩ | hpii
  · exact .inl ⟨hrefund, h.above (hp.amount hrefund).1 habove⟩
  · exact .inr hpii

end

theorem specDenies_eq_false_iff : specDenies b input = false ↔
    Passes b input ∧ (isPii input = true → hasRole input "privacy" = true) := by
  rw [← deny_eq_false_iff, deny_eq, specDenies, Bool.or_eq_false_iff]
  cases isPii input <;> cases hasRole input "privacy" <;> simp

theorem specDecision_mono (h : Widens input input') : specDecision b input ≤ specDecision b input' := by
  cases hdenies : specDenies b input with
  | true =>
    rw [specDecision, hdenies, if_pos rfl]
    exact Decision.deny_le _
  | false =>
    obtain ⟨hp, hprivacy⟩ := specDenies_eq_false_iff.1 hdenies
    have hdenies' : specDenies b input' = false :=
      specDenies_eq_false_iff.2 ⟨h.passes hp, fun hpii => h.hasRole (hprivacy (h.isPii_eq ▸ hpii))⟩
    simp only [specDecision, hdenies, hdenies', Bool.false_eq_true, if_false]
    cases hholds' : specHolds input' with
    | false => cases specHolds input <;> decide
    | true => rw [h.specHolds hp hholds']

/-- **More roles and a smaller refund are never decided more strictly**, and
the tools offered only grow. -/
theorem decision_mono (b : Bundle) {input input' : Args} (h : Widens input input') :
    decision b input ≤ decision b input' ∧ toolsForRoles b input ⊆ toolsForRoles b input' := by
  rw [decision_eq_spec, decision_eq_spec]
  exact ⟨specDecision_mono h, h.toolsForRoles_subset⟩

/-- A refund asked for by the agent in `acme`. -/
def refundDoc (roles : List Json) (amount : Int) : Args :=
  Dict.ofList [("agent", .str trustedAgent), ("tenant", .str "acme"), ("tool", .str refundTool),
    ("roles", .arr roles), ("amount", .int amount)]

/-- A refund of a hundred by a support rep needs approval; one of forty by
someone who also does the billing is let through. -/
theorem billing_mono :
    let input := refundDoc [.str "support_rep"] 100
    let input' := refundDoc [.str "billing", .str "support_rep"] 40
    (decision (bundle [] none) input = .requireApproval ∧ decision (bundle [] none) input' = .allow) ∧
      decision (bundle [] none) input ≤ decision (bundle [] none) input' ∧
      toolsForRoles (bundle [] none) input ⊆ toolsForRoles (bundle [] none) input' := by
  refine ⟨⟨by decide +kernel, by decide +kernel⟩, decision_mono _ ⟨?_, ?_, ?_⟩⟩
  · intro k hroles hamount
    simp [refundDoc, Dict.ofList, Dict.insertAll, Dict.get?_insert, hroles.symm, hamount.symm]
  · intro role (hrole : role ∈ [Json.str "support_rep"])
    exact show role ∈ [Json.str "billing", .str "support_rep"] from List.mem_cons_of_mem _ hrole
  · intro a ha _
    obtain rfl : 100 * F64.unit = a := Option.some.inj ha
    exact ⟨40 * F64.unit, rfl, by decide +kernel, by decide +kernel⟩

/-- The decision reads the roles as a set. -/
theorem decision_roles (b : Bundle) {input input' : Args}
    (hsame : ∀ k, k ≠ "roles" → input'.get? k = input.get? k)
    (hroles : ∀ role, role ∈ members (input.get? "roles") ↔ role ∈ members (input'.get? "roles")) :
    decision b input = decision b input' := by
  have hamount := hsame "amount" (by decide)
  have hwider : Widens input input' :=
    ⟨fun k hk _ => hsame k hk, fun role => (hroles role).1, fun a ha hpos => ⟨a, by rw [hamount, ha], hpos, le_rfl⟩⟩
  have hnarrower : Widens input' input :=
    ⟨fun k hk _ => (hsame k hk).symm, fun role => (hroles role).2,
      fun a ha hpos => ⟨a, by rw [← hamount, ha], hpos, le_rfl⟩⟩
  rw [decision_eq_spec, decision_eq_spec]
  exact Decision.le_antisymm (specDecision_mono hwider) (specDecision_mono hnarrower)

end Policy

end AgentPlatform
