/-
Token verification (`sdk/agentnhi/tokens.py`): what a verified token says about
who is acting, for whom, and in which tenant.

Signature, issuer, audience and expiry are the JWT library's (`decode`). A
string claim is absent, null or a string; the code reads it with `get`, and
takes the empty string for absent wherever it writes `or`.
-/
import AgentPlatform.Enforcement

namespace AgentPlatform

/-- A string claim. -/
inductive Claim where
  | absent
  | null
  | str (s : String)
  deriving DecidableEq

/-- `claims.get(name)` -/
def Claim.get : Claim → Option String
  | .str s => some s
  | _ => none

/-- `claims.get(name) or rest` -/
def Claim.orElse (c : Claim) (rest : String) : String :=
  match c.get with
  | some s => if s = "" then rest else s
  | none => rest

/-- The claims `from_claims` and `verify` read. `act` and `realm_access` are
`none` where the claim is absent or null. -/
structure Claims where
  preferredUsername : Claim
  sub : Claim
  act : Option Claim
  azp : Claim
  realmRoles : Option (List String)
  roles : Option (List String)
  tenant : Claim

namespace Delegation

/-- `Delegation.from_claims(claims, audience)` -/
def fromClaims (c : Claims) (audience : String) : Delegation where
  user := c.preferredUsername.orElse (c.sub.orElse "?")
  workload := (c.act.getD .absent).orElse (c.azp.orElse "?")
  audience := audience
  roles := match c.realmRoles with
    | some (r :: rs) => r :: rs
    | _ => c.roles.getD []
  tenant := c.tenant.get

end Delegation

/-- What the JWT library raises. -/
inductive JwtError where
  | invalidAudience
  | invalid (msg : String)

/-- A `TokenVerifier`: the audience and the workload it expects, and the JWT
library's `decode` for that audience and issuer. -/
structure TokenVerifier where
  audience : String
  trustedWorkload : Option String
  decode : String → Except JwtError Claims

/-- `TokenVerifier.verify(token)` -/
def TokenVerifier.verify (v : TokenVerifier) (token : String) : Except Exn Delegation :=
  if v.audience = "" then .error ⟨.tokenRejected, "no expected audience configured"⟩
  else
    match v.decode token with
    | .error .invalidAudience =>
      .error ⟨.tokenRejected, "token audience is not '" ++ v.audience ++ "' (refusing a forwarded token)"⟩
    | .error (.invalid msg) => .error ⟨.tokenRejected, "invalid token: " ++ msg⟩
    | .ok claims =>
      if v.trustedWorkload.isSome ∧ claims.azp.get ≠ v.trustedWorkload then
        .error ⟨.tokenRejected, "token was issued to another workload (refusing a forwarded token)"⟩
      else .ok (Delegation.fromClaims claims v.audience)

end AgentPlatform
