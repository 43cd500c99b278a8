/-
The two clients of the policy engine: `PolicyClient.decide`
(`sdk/agentnhi/policy.py`) and `tools_for_roles` (`app/common/policy.py`).

The engine is a function from the posted document to a response, or to the
transport's exception. `opa` is the engine that evaluates `Policy`; the
theorems about the client alone hold for any other.
-/
import AgentPlatform.Policy
import AgentPlatform.PyText

namespace AgentPlatform

/-- One audit record: its event and its fields. -/
structure AuditRecord where
  event : String
  fields : List (String × Json)

/-- `s[:n]` -/
def clip (n : Nat) (s : String) : String := String.ofList (s.toList.take n)

/-- An HTTP response: its status, and its body as `resp.json()` reads it. -/
structure Response where
  status : Nat
  json : Except Exn Json

/-- `resp.raise_for_status()` accepts the response. -/
def Response.isSuccess (r : Response) : Bool := decide (200 ≤ r.status ∧ r.status < 300)

/-- A POST to a data path of the engine, as a function of the JSON sent. -/
abbrev Post := Json → Except Exn Response

/-- Sending a document that has no JSON text fails. -/
def Post.send (post : Post) (payload : Json) : Except Exn Response :=
  if payload.encodable then post payload
  else .error ⟨.valueError, "Out of range float values are not JSON compliant"⟩

structure PolicyResult where
  decision : Decision
  reason : Json
  policyVersion : Json

/-- `v.get(k)`: only a dictionary has the method. -/
def getField (v : Json) (k : String) : Except Exn Json :=
  match v with
  | .obj fs => .ok ((Dict.find k fs).getD .null)
  | _ => .error ⟨.attributeError, "object has no attribute 'get'"⟩

/-- `v or {}` -/
def orEmpty (v : Json) : Json := if v.truthy then v else .obj []

/-- `Decision(raw)` -/
def decisionOf : Json → Option Decision
  | .str s =>
    if s = "allow" then some .allow
    else if s = "deny" then some .deny
    else if s = "require_approval" then some .requireApproval
    else none
  | _ => none

namespace PolicyClient

/-- The document `decide` posts: the context's keys win over the first three. -/
def inputDoc (agent user tool : String) (context : Args) : Args :=
  (Dict.ofList [("agent", .str agent), ("user", .str user), ("tool", .str tool)]).insertAll
    context.entries

/-- What `decide` asks for: the response's `result`, or the exception that
fails closed. -/
def fetchResult (post : Post) (doc : Args) : Except Exn Json := do
  let resp ← post.send (.obj [("input", .obj doc.entries)])
  if resp.isSuccess then
    let body ← resp.json
    let result ← getField (orEmpty body) "result"
    return orEmpty result
  else throw ⟨.httpError, "status error"⟩

variable [UnicodeData]

/-- What `decide` reads out of a result. The accesses below are outside its
`try`, so they can raise. -/
def readResult (result : Json) : List AuditRecord × Except Exn PolicyResult :=
  match getField result "decision" with
  | .error e => ([], .error e)
  | .ok raw =>
    match decisionOf raw with
    | none =>
      match Py.str raw with
      | .error e => ([], .error e)
      | .ok text =>
        ([⟨"policy.invalid", [("raw", .str (clip 100 text))]⟩],
          .ok ⟨.deny, .str "policy returned no valid decision — denying", .null⟩)
    | some decision =>
      let reason := (result.field "reason").getD .null
      ([], .ok
        { decision
          reason := if reason.truthy then reason else .str ("policy decision: " ++ decision.value)
          policyVersion := (result.field "policy_version").getD .null })

/-- `decide`, with the audit records it writes. -/
def decide (post : Post) (doc : Args) : List AuditRecord × Except Exn PolicyResult :=
  match fetchResult post doc with
  | .error e =>
    ([⟨"policy.unavailable", [("reason", .str (clip 200 e.msg))]⟩],
      .ok ⟨.deny, .str "policy unavailable — denying (fail closed)", .null⟩)
  | .ok result => readResult result

end PolicyClient

/-! ## The engine -/

/-- What the engine answers a query of the package: the three rules `decide`
reads. -/
def opaResult (b : Policy.Bundle) (fmt : Json → String) (input : Args) : Json :=
  .obj [("decision", .str (Policy.decision b input).value),
    ("reason", .str ((Policy.reason b input).text fmt)),
    ("policy_version", .str (b.policyVersion.getD "dev"))]

/-- The input document of a query. -/
def queryInput : Json → Args
  | .obj fs =>
    match Dict.find "input" fs with
    | some (.obj input) => Dict.ofList input
    | _ => ∅
  | _ => ∅

/-- The engine on the decision path. -/
def opa (b : Policy.Bundle) (fmt : Json → String) : Post := fun payload =>
  .ok ⟨200, .ok (.obj [("result", opaResult b fmt (queryInput payload))])⟩

/-- The engine on the `tools_for_roles` path. The rule is a comprehension, so
it is defined (and empty) when the tenant is not. -/
def opaTools (b : Policy.Bundle) : Post := fun payload =>
  .ok ⟨200, .ok (.obj [("result", .arr ((Policy.toolsForRoles b (queryInput payload)).map .str))])⟩

/-- `_opa_post`: `None` on any error. -/
def opaPost (post : Post) (input : Args) : Json :=
  let fetched : Except Exn Json := do
    let resp ← post.send (.obj [("input", .obj input.entries)])
    if resp.isSuccess then
      let body ← resp.json
      getField body "result"
    else throw ⟨.httpError, "status error"⟩
  match fetched with
  | .ok v => v
  | .error _ => .null

/-- A list or a dictionary is no member of a set. -/
def unhashable : Json → Bool
  | .arr _ | .obj _ => true
  | _ => false

/-- `set(result or [])`: the elements of a list, the keys of a dictionary, the
characters of a string; any other true value raises. -/
def setOf (result : Json) : Except Exn (List Json) :=
  match if result.truthy then result else .arr [] with
  | .arr xs => if xs.any unhashable then .error ⟨.typeError, "unhashable type"⟩ else .ok xs
  | .obj fs => .ok (fs.map fun e => .str e.1)
  | .str s => .ok (s.toList.map fun c => .str (String.ofList [c]))
  | _ => .error ⟨.typeError, "object is not iterable"⟩

/-- `tools_for_roles(opa_url, roles, tenant)` -/
def toolsForRoles (post : Post) (roles : List String) (tenant : Option String) : Except Exn (List Json) :=
  setOf (opaPost post (Dict.ofList [("roles", .arr (roles.map .str)),
    ("tenant", match tenant with
      | some t => .str t
      | none => .null)]))

end AgentPlatform
