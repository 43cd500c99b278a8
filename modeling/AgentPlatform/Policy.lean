/-
The authorization policy (`policy/authz.rego`), rule by rule.

A reference into the input document is an `Option Json`: absent is undefined.
As a condition a reference fails only when it is undefined or `false`
(`holds`), so `null` and the empty string hold. A rule with several bodies is
the list of its bodies (`roleToolsForBodies`, `decisionBodies`), each with the
value it gives when its conditions hold; its value is the one a body gives.

The role matrices and the catalogue are parameters (`Bundle`); the shipped
ones are `defaultRoleTools` and `tenantRoleTools`.
-/
import AgentPlatform.Json

namespace AgentPlatform

/-- The three outcomes. -/
inductive Decision where
  | allow
  | deny
  | requireApproval
  deriving DecidableEq

def Decision.value : Decision → String
  | .allow => "allow"
  | .deny => "deny"
  | .requireApproval => "require_approval"

namespace Policy

/-- A role's set of tools. -/
abbrev Tools := List String

/-- What a policy bundle carries besides the rules. -/
structure Bundle where
  /-- `default_role_tools` -/
  defaultRoleTools : Dict String Tools
  /-- `tenant_role_tools` -/
  tenantRoleTools : Dict String (Dict String Tools)
  /-- `data.tools`, empty when it is not injected -/
  catalogue : List String
  /-- `data.agentnhi.policy_version` -/
  policyVersion : Option String

/-- A reference used as a condition: undefined and `false` fail. -/
def holds : Option Json → Bool
  | none => false
  | some (.bool b) => b
  | some _ => true

/-- `obj[key]` for a key of any type. -/
def ref {α : Type} (obj : Dict String α) : Json → Option α
  | .str s => obj.get? s
  | _ => none

/-- What `some x in v` ranges over: the items of an array, the values of an
object, nothing otherwise. -/
def members : Option Json → List Json
  | some (.arr xs) => xs
  | some (.obj fs) => fs.map Prod.snd
  | _ => []

/-- `v == s` for a string constant. -/
def isStr (s : String) : Json → Bool
  | .str t => decide (t = s)
  | _ => false

/-- `v in set` for a set of strings. -/
def inSet (set : List String) (v : Json) : Bool := set.any fun s => isStr s v

/-- A number's value in units of `2^-1074`; the comparisons of the policy are
exact. -/
def number : Json → Option Int
  | .int i => some (i * F64.unit)
  | .float x => x.scaled
  | _ => none

/-- A limit of the policy, in the same units. -/
def limit (n : Nat) : Int := (n : Int) * F64.unit

/-- The values the bodies of a rule give: `none` where the conditions fail. -/
def ruleValue {α : Type} (bodies : List (Option α)) : Option α := (bodies.filterMap id).head?

/-! ## Constants -/

def trustedAgent : String := "spiffe://acme.com/ns/agent-platform/sa/agent"

def refundTool : String := "refunds.issue"

def piiTools : Tools := ["privacy.pii.read"]

def autoRefundLimit : Nat := 50

def approvalRefundLimit : Nat := 500

def defaultRoleTools : Dict String Tools :=
  ⟨[("support_rep", ["crm.customer.read", "crm.orders.list", "tickets.read", "tickets.reply.draft",
        "refunds.quote", "refunds.issue"]),
    ("billing", ["crm.orders.list", "refunds.quote", "refunds.issue"]),
    ("read_only", ["crm.customer.read", "crm.orders.list", "tickets.read"]),
    ("privacy", ["privacy.pii.read", "crm.customer.read", "crm.orders.list", "tickets.read"]),
    ("manager", ["crm.customer.read", "crm.orders.list", "tickets.read", "refunds.quote"]),
    ("platform_admin", [])], by decide⟩

def tenantRoleTools : Dict String (Dict String Tools) :=
  ⟨[("globex", ⟨[("support_rep", ["crm.customer.read", "crm.orders.list", "tickets.read",
        "tickets.reply.draft", "refunds.quote"])], by decide⟩)], by decide⟩

/-! ## Predicates -/

variable (b : Bundle)

/-- The two bodies of `role_tools_for(tenant, role)`. -/
def roleToolsForBodies (tenant role : Json) : List (Option Tools) :=
  let override := (ref b.tenantRoleTools tenant).bind fun perRole => ref perRole role
  [override, if override.isNone then ref b.defaultRoleTools role else none]

def roleToolsFor (tenant role : Json) : Option Tools := ruleValue (roleToolsForBodies b tenant role)

section Input

variable (input : Args)

def isTrusted : Bool :=
  match input.get? "agent" with
  | some v => isStr trustedAgent v
  | none => false

def hasRole (role : String) : Bool := (members (input.get? "roles")).any (isStr role)

/-- `may_call(tool)`: undefined, so false, when the tool or the tenant is. -/
def mayCall (tool : Option Json) : Bool :=
  match tool, input.get? "tenant" with
  | some tool, some tenant =>
    (members (input.get? "roles")).any fun role =>
      match roleToolsFor b tenant role with
      | some tools => inSet tools tool
      | none => false
  | _, _ => false

/-- `tools_for_roles`. -/
def toolsForRoles : Tools :=
  match input.get? "tenant" with
  | some tenant =>
    (members (input.get? "roles")).flatMap fun role => (roleToolsFor b tenant role).getD []
  | none => []

/-- The amount, when it is a positive number. -/
def isPositiveNumber (v : Option Json) : Bool :=
  match v.bind number with
  | some n => decide (0 < n)
  | none => false

/-- `v > limit` -/
def above (n : Nat) (v : Option Json) : Bool :=
  match v.bind number with
  | some a => decide (limit n < a)
  | none => false

/-- `v <= limit` -/
def atMost (n : Nat) (v : Option Json) : Bool :=
  match v.bind number with
  | some a => decide (a ≤ limit n)
  | none => false

/-- `input.tool == refund_tool` -/
def isRefund : Bool :=
  match input.get? "tool" with
  | some v => isStr refundTool v
  | none => false

/-- `input.tool in pii_tools` -/
def isPii : Bool :=
  match input.get? "tool" with
  | some v => inSet piiTools v
  | none => false

/-- `not input.tool in catalogue`, under a non-empty catalogue. -/
def outsideCatalogue : Bool :=
  !b.catalogue.isEmpty &&
    match input.get? "tool" with
    | some v => !inSet b.catalogue v
    | none => true

/-- `startswith(input.tool, "bulk.")`: a type error is undefined. -/
def isBulk : Bool :=
  match input.get? "tool" with
  | some (.str s) => "bulk.".toList.isPrefixOf s.toList
  | _ => false

/-! ## The rules -/

def deny : Bool :=
  let tenant := holds (input.get? "tenant")
  let granted := mayCall b input (input.get? "tool")
  let amount := input.get? "amount"
  !isTrusted input
    || (isTrusted input && !tenant)
    || (isTrusted input && tenant && outsideCatalogue b input)
    || (isTrusted input && tenant && !granted)
    || (isTrusted input && tenant && isBulk input)
    || (isTrusted input && tenant && granted && isRefund input && !isPositiveNumber amount)
    || (isTrusted input && tenant && granted && isRefund input && isPositiveNumber amount
        && above approvalRefundLimit amount)

def needsApproval : Bool :=
  let tenant := holds (input.get? "tenant")
  let granted := mayCall b input (input.get? "tool")
  let amount := input.get? "amount"
  (isTrusted input && tenant && granted && isRefund input && isPositiveNumber amount
      && above autoRefundLimit amount && atMost approvalRefundLimit amount)
    || (isTrusted input && tenant && granted && isPii input && hasRole input "privacy")

/-- `input.tool != refund_tool`: undefined, so false, without a tool. -/
def isNotRefund : Bool :=
  match input.get? "tool" with
  | some v => !isStr refundTool v
  | none => false

def allow : Bool :=
  let tenant := holds (input.get? "tenant")
  let granted := mayCall b input (input.get? "tool")
  let amount := input.get? "amount"
  (isTrusted input && tenant && granted && isNotRefund input && !isPii input)
    || (isTrusted input && tenant && granted && isRefund input && isPositiveNumber amount
        && atMost autoRefundLimit amount)

/-- The three bodies of `decision`. -/
def decisionBodies : List (Option Decision) :=
  [if deny b input then some .deny else none,
    if needsApproval b input && !deny b input then some .requireApproval else none,
    if allow b input && !deny b input && !needsApproval b input then some .allow else none]

/-- `decision`, with its default. -/
def decision : Decision := (ruleValue (decisionBodies b input)).getD .deny

/-! ## The reason -/

/-- The strings of the `else` chain, with what `sprintf` puts in them. -/
inductive Reason where
  | untrusted
  | noTenant
  | unknownTool (tool : Json)
  | bulk
  | role (tool : Json)
  | badAmount
  | aboveCeiling (amount : Json) (ceiling : Nat)
  | piiRole
  | refundApproval (amount : Json) (auto : Nat)
  | piiApproval
  | allowed (tool : Json)
  | byDefault

/-- `reason`. An `else` whose `sprintf` would format an undefined reference is
itself undefined, and the next one is tried. -/
def reason : Reason :=
  let tool := input.get? "tool"
  let amount := input.get? "amount"
  if !isTrusted input then .untrusted
  else if !holds (input.get? "tenant") then .noTenant
  else if let (true, some t) := (outsideCatalogue b input, tool) then .unknownTool t
  else if isBulk input then .bulk
  else if let (false, some t) := (mayCall b input tool, tool) then .role t
  else if isRefund input && !isPositiveNumber amount then .badAmount
  else if let (true, some a) := (isRefund input && isPositiveNumber amount
      && above approvalRefundLimit amount, amount) then .aboveCeiling a approvalRefundLimit
  else if isPii input && !hasRole input "privacy" then .piiRole
  else if let (true, some a) := (needsApproval b input && isRefund input, amount) then
    .refundApproval a autoRefundLimit
  else if needsApproval b input && isPii input then .piiApproval
  else if let (true, some t) := (allow b input, tool) then .allowed t
  else .byDefault

/-- The text of a reason; `fmt` is what `sprintf` writes for `%v`. -/
def Reason.text (fmt : Json → String) : Reason → String
  | .untrusted => "denied: untrusted workload identity"
  | .noTenant => "denied: caller has no tenant (unscoped identity)"
  | .unknownTool t => "denied: " ++ fmt t ++ " is not a known tool"
  | .bulk => "denied: bulk actions are not permitted"
  | .role t => "denied: your role may not call " ++ fmt t
  | .badAmount => "denied: a refund needs a positive, numeric amount"
  | .aboveCeiling a c =>
    "denied: refund of " ++ fmt a ++ " exceeds the approval ceiling of " ++ fmt (.int c)
  | .piiRole => "denied: PII access requires the privacy role"
  | .refundApproval a l =>
    "requires manager approval: refund of " ++ fmt a ++ " is above the auto-approval limit of "
      ++ fmt (.int l)
  | .piiApproval => "requires privacy approval: PII access"
  | .allowed t => "allowed: " ++ fmt t ++ " is within your role"
  | .byDefault => "denied by default: no rule permitted this action"

end Input

end Policy

end AgentPlatform
