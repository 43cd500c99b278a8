/-
What the policy decides, said once.

`specDecision` is the purpose of the policy in one place: what is denied, else
what needs approval, else allow. `well_defined`: for every bundle and every
input document the rules are functions (no two bodies give a value), `decision`
has exactly one value and it is the specification's, and the string of
`reason`, which is computed by a chain of its own, begins with the word of the
decision.
-/
import AgentPlatform.PolicyFacts

namespace AgentPlatform

namespace Policy

variable (b : Bundle) (input : Args)

/-! ## The specification -/

/-- What is denied. -/
def specDenies : Bool :=
  !isTrusted input || !holds (input.get? "tenant") || outsideCatalogue b input
    || !mayCall b input (input.get? "tool") || isBulk input
    || (isRefund input && (!isPositiveNumber (input.get? "amount") || above approvalRefundLimit (input.get? "amount")))
    || (isPii input && !hasRole input "privacy")

/-- What needs approval, where it is not denied. -/
def specHolds : Bool := (isRefund input && above autoRefundLimit (input.get? "amount")) || isPii input

def specDecision : Decision :=
  if specDenies b input then .deny else if specHolds input then .requireApproval else .allow

/-! ## Rules with several bodies -/

theorem roleToolsFor_eq (tenant role : Json) :
    roleToolsFor b tenant role =
      ((ref b.tenantRoleTools tenant).bind fun perRole => ref perRole role).or (ref b.defaultRoleTools role) := by
  simp only [roleToolsFor, ruleValue, roleToolsForBodies]
  cases (ref b.tenantRoleTools tenant).bind fun perRole => ref perRole role with
  | none => cases ref b.defaultRoleTools role <;> rfl
  | some tools => rfl

theorem roleToolsForBodies_le_one (tenant role : Json) :
    ((roleToolsForBodies b tenant role).filterMap id).length ≤ 1 := by
  simp only [roleToolsForBodies]
  cases (ref b.tenantRoleTools tenant).bind fun perRole => ref perRole role with
  | none => cases ref b.defaultRoleTools role <;> simp
  | some tools => simp

/-- The values of `decision`: those its bodies give, or the default. -/
def decisionValues : List Decision :=
  match (decisionBodies b input).filterMap id with
  | [] => [.deny]
  | values => values

theorem decisionValues_eq : decisionValues b input = [decision b input] := by
  unfold decisionValues decision ruleValue decisionBodies
  cases deny b input <;> cases needsApproval b input <;> cases allow b input <;> rfl

/-! ## The decision -/

section

variable {b input}

theorem tool_of_mayCall {tool : Option Json} (h : mayCall b input tool = true) : ∃ v, tool = some v := by
  cases tool with
  | none => simp [mayCall] at h
  | some v => exact ⟨v, rfl⟩

/-- A tool that may be called is a refund or is not. -/
theorem isNotRefund_of_mayCall (h : mayCall b input (input.get? "tool") = true) :
    isNotRefund input = !isRefund input := by
  obtain ⟨v, hv⟩ := tool_of_mayCall h
  simp [isNotRefund, isRefund, hv]

theorem not_pii_of_refund (h : isRefund input = true) : isPii input = false := by
  unfold isRefund at h
  unfold isPii
  cases ht : input.get? "tool" with
  | none => rfl
  | some v =>
    rw [ht] at h
    cases v with
    | str s =>
      simp only [isStr, decide_eq_true_eq] at h
      subst h
      decide
    | _ => cases h

theorem atMost_eq {v : Option Json} (h : isPositiveNumber v = true) (n : Nat) : atMost n v = !above n v := by
  unfold isPositiveNumber at h
  unfold atMost above
  cases hv : v.bind number with
  | none => rw [hv] at h; cases h
  | some a =>
    by_cases hle : a ≤ limit n
    · simp [hle, not_lt.2 hle]
    · simp [hle, not_le.1 hle]

end

theorem deny_eq :
    deny b input = (!isTrusted input || !holds (input.get? "tenant") || outsideCatalogue b input
      || !mayCall b input (input.get? "tool") || isBulk input
      || (isRefund input &&
        (!isPositiveNumber (input.get? "amount") || above approvalRefundLimit (input.get? "amount")))) := by
  simp only [deny]
  cases isTrusted input <;> cases holds (input.get? "tenant") <;> cases outsideCatalogue b input <;>
    cases mayCall b input (input.get? "tool") <;> cases isBulk input <;> cases isRefund input <;>
    cases isPositiveNumber (input.get? "amount") <;> rfl

/-- What the rules say of a call that `deny` lets through. -/
structure Passes : Prop where
  trusted : isTrusted input = true
  tenant : holds (input.get? "tenant") = true
  known : outsideCatalogue b input = false
  granted : mayCall b input (input.get? "tool") = true
  bulk : isBulk input = false
  amount : isRefund input = true →
    isPositiveNumber (input.get? "amount") = true ∧ above approvalRefundLimit (input.get? "amount") = false

theorem deny_eq_false_iff : deny b input = false ↔ Passes b input := by
  rw [deny_eq]
  simp only [Bool.or_eq_false_iff, Bool.not_eq_false', Bool.and_eq_false_iff]
  constructor
  · intro h
    obtain ⟨⟨⟨⟨⟨htrusted, htenant⟩, hknown⟩, hgranted⟩, hbulk⟩, hamount⟩ := h
    refine ⟨htrusted, htenant, hknown, hgranted, hbulk, fun hrefund => ?_⟩
    rcases hamount with hno | hamount
    · rw [hrefund] at hno
      cases hno
    · exact hamount
  · intro h
    refine ⟨⟨⟨⟨⟨h.trusted, h.tenant⟩, h.known⟩, h.granted⟩, h.bulk⟩, ?_⟩
    cases hrefund : isRefund input with
    | false => exact .inl rfl
    | true => exact .inr (h.amount hrefund)

section

variable {b input}

theorem Passes.needsApproval_eq (h : Passes b input) :
    needsApproval b input = ((isRefund input && above autoRefundLimit (input.get? "amount"))
      || (isPii input && hasRole input "privacy")) := by
  simp only [needsApproval, h.trusted, h.tenant, h.granted, Bool.true_and]
  cases hrefund : isRefund input with
  | false => rfl
  | true =>
    obtain ⟨hpositive, habove⟩ := h.amount hrefund
    rw [atMost_eq hpositive, habove, hpositive, Bool.not_false, Bool.true_and, Bool.true_and, Bool.and_true]

theorem Passes.allow_eq (h : Passes b input) :
    allow b input = ((!isRefund input && !isPii input)
      || (isRefund input && !above autoRefundLimit (input.get? "amount"))) := by
  simp only [allow, h.trusted, h.tenant, h.granted, Bool.true_and, isNotRefund_of_mayCall h.granted]
  cases hrefund : isRefund input with
  | false => rfl
  | true =>
    obtain ⟨hpositive, -⟩ := h.amount hrefund
    rw [atMost_eq hpositive, hpositive, Bool.true_and, Bool.true_and]

end

/-- The policy decides as specified. -/
theorem decision_eq_spec : decision b input = specDecision b input := by
  have hspec : specDenies b input = (deny b input || (isPii input && !hasRole input "privacy")) := by
    rw [deny_eq, specDenies]
  rw [decision_eq, specDecision, hspec, specHolds]
  cases hdeny : deny b input with
  | true => rfl
  | false =>
    have hpasses := (deny_eq_false_iff b input).1 hdeny
    rw [hpasses.needsApproval_eq, hpasses.allow_eq]
    cases hrefund : isRefund input with
    | false => cases isPii input <;> cases hasRole input "privacy" <;> rfl
    | true =>
      rw [not_pii_of_refund hrefund]
      cases above autoRefundLimit (input.get? "amount") <;> rfl

/-! ## The reason -/

/-- The decision a reason is for. -/
def Reason.decision : Reason → Decision
  | .refundApproval .. | .piiApproval => .requireApproval
  | .allowed _ => .allow
  | _ => .deny

/-- The word a reason for a decision begins with. -/
def word : Decision → String
  | .deny => "denied"
  | .requireApproval => "requires"
  | .allow => "allowed"

theorem begins_append {w s : String} (h : w.toList <+: s.toList) (rest : String) :
    w.toList <+: (s ++ rest).toList := by
  rw [String.toList_append]
  exact h.trans (List.prefix_append _ _)

theorem Reason.text_word (fmt : Json → String) (r : Reason) : (word r.decision).toList <+: (r.text fmt).toList := by
  cases r with
  | untrusted | noTenant | bulk | badAmount | piiRole | piiApproval | byDefault =>
    dsimp only [Reason.decision, word, Reason.text]
    decide +kernel
  | unknownTool t =>
    have h : "denied".toList <+: "denied: ".toList := by decide +kernel
    exact begins_append (begins_append h _) _
  | role t =>
    have h : "denied".toList <+: "denied: your role may not call ".toList := by decide +kernel
    exact begins_append h _
  | aboveCeiling a c =>
    have h : "denied".toList <+: "denied: refund of ".toList := by decide +kernel
    exact begins_append (begins_append (begins_append h _) _) _
  | refundApproval a l =>
    have h : "requires".toList <+: "requires manager approval: refund of ".toList := by decide +kernel
    exact begins_append (begins_append (begins_append h _) _) _
  | allowed t =>
    have h : "allowed".toList <+: "allowed: ".toList := by decide +kernel
    exact begins_append (begins_append h _) _

section

variable {b input}

theorem reason_of_no_tool (h : input.get? "tool" = none) : (reason b input).decision = .deny := by
  cases htrusted : isTrusted input with
  | false => simp [reason, htrusted, Reason.decision]
  | true =>
    cases htenant : holds (input.get? "tenant") <;>
      simp [reason, htrusted, htenant, h, isBulk, isRefund, isPii, needsApproval, allow, mayCall, Reason.decision]

/-- A call that passes reaches the end of the chain. -/
theorem Passes.reason_eq (h : Passes b input) : (reason b input).decision = decision b input := by
  obtain ⟨tool, htool⟩ := tool_of_mayCall h.granted
  have hgranted := h.granted
  have hneeds := h.needsApproval_eq
  have hallow := h.allow_eq
  rw [htool] at hgranted
  rw [decision_eq, (deny_eq_false_iff b input).2 h]
  cases hrefund : isRefund input with
  | false =>
    rw [hrefund] at hneeds hallow
    cases hpii : isPii input <;> cases hprivacy : hasRole input "privacy" <;>
      simp_all [reason, h.trusted, h.tenant, h.known, h.bulk, Reason.decision]
  | true =>
    have hpii := not_pii_of_refund hrefund
    obtain ⟨hpositive, habove⟩ := h.amount hrefund
    rw [hrefund, hpii] at hneeds hallow
    cases hamount : input.get? "amount" with
    | none =>
      rw [hamount] at hpositive
      cases hpositive
    | some amount =>
      cases hauto : above autoRefundLimit (input.get? "amount") <;>
        simp_all [reason, h.trusted, h.tenant, h.known, h.bulk, Reason.decision]

/-- A call that does not pass is explained before. -/
theorem reason_of_deny (hdeny : deny b input = true) : (reason b input).decision = .deny := by
  cases htool : input.get? "tool" with
  | none => exact reason_of_no_tool htool
  | some tool =>
    rw [deny_eq, htool] at hdeny
    cases htrusted : isTrusted input with
    | false => simp [reason, htrusted, Reason.decision]
    | true =>
      cases htenant : holds (input.get? "tenant") with
      | false => simp [reason, htrusted, htenant, Reason.decision]
      | true =>
        cases hknown : outsideCatalogue b input with
        | true => simp [reason, htrusted, htenant, hknown, htool, Reason.decision]
        | false =>
          cases hbulk : isBulk input with
          | true => simp [reason, htrusted, htenant, hknown, hbulk, Reason.decision]
          | false =>
            cases hgranted : mayCall b input (some tool) with
            | false => simp [reason, htrusted, htenant, hknown, hbulk, htool, hgranted, Reason.decision]
            | true =>
              cases hrefund : isRefund input with
              | false => simp [htrusted, htenant, hknown, hbulk, hgranted, hrefund] at hdeny
              | true =>
                cases hpositive : isPositiveNumber (input.get? "amount") with
                | false =>
                  simp [reason, htrusted, htenant, hknown, hbulk, htool, hgranted, hrefund, hpositive, Reason.decision]
                | true =>
                  have habove : above approvalRefundLimit (input.get? "amount") = true := by
                    simpa [htrusted, htenant, hknown, hbulk, hgranted, hrefund, hpositive] using hdeny
                  cases hamount : input.get? "amount" with
                  | none =>
                    rw [hamount] at hpositive
                    cases hpositive
                  | some amount =>
                    rw [hamount] at hpositive habove
                    simp [reason, htrusted, htenant, hknown, hbulk, htool, hgranted, hrefund, hamount,
                      hpositive, habove,
                      Reason.decision]

end

/-- The reason is for the decision. -/
theorem reason_decision : (reason b input).decision = decision b input := by
  cases hdeny : deny b input with
  | true => rw [reason_of_deny hdeny, decision_of_deny hdeny]
  | false => exact ((deny_eq_false_iff b input).1 hdeny).reason_eq

/-! ## Together -/

structure WellDefined (fmt : Json → String) : Prop where
  /-- a tenant's entry replaces the default's, and no two bodies give a value -/
  roleTools : ∀ tenant role, ((roleToolsForBodies b tenant role).filterMap id).length ≤ 1 ∧
    roleToolsFor b tenant role =
      ((ref b.tenantRoleTools tenant).bind fun perRole => ref perRole role).or (ref b.defaultRoleTools role)
  single : decisionValues b input = [decision b input]
  specified : decision b input = specDecision b input
  /-- the reason is for the decision, and its string says so -/
  explained : (reason b input).decision = decision b input ∧
    (word (decision b input)).toList <+: ((reason b input).text fmt).toList

/-- **The policy is well defined**, on every document. -/
theorem well_defined (fmt : Json → String) : WellDefined b input fmt where
  roleTools tenant role := ⟨roleToolsForBodies_le_one b tenant role, roleToolsFor_eq b tenant role⟩
  single := decisionValues_eq b input
  specified := decision_eq_spec b input
  explained := by
    refine ⟨reason_decision b input, ?_⟩
    rw [← reason_decision]
    exact Reason.text_word fmt _

end Policy

end AgentPlatform
