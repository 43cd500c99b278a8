/-
Who is calling: the workload a request names itself to be
(`app/common/workload.py`), and the person it acts for (`app/api/authz.py`).

A JWT-SVID is decoded for the audience of the service it is presented to, at the
moment it is presented; its signature, audience and expiry are the JWT
library's. The denylist is asked about the subject of a token that was accepted.
The question may move the denylist's state, so a check is a step of that state.
-/
import AgentPlatform.Tokens
import Mathlib.Algebra.Order.Ring.Rat

namespace AgentPlatform

/-- `jwt.decode(token, key, audience=audience)` at a moment: the `sub` claim, or
why the token is refused. -/
abbrev Svids := ℚ → String → String → Except String Claim

namespace Workload

/-- `AGENT` -/
def agent : String := "spiffe://acme.com/ns/agent-platform/sa/agent"

/-- `API` -/
def api : String := "spiffe://acme.com/ns/agent-platform/sa/api"

/-- `TOOLS` -/
def tools : String := "spiffe://acme.com/ns/agent-platform/sa/tools"

/-- `GATEWAY` -/
def gateway : String := "spiffe://acme.com/ns/agent-platform/sa/gateway"

/-- `WorkloadRejected` -/
def rejected (why : String) : Exn := ⟨.workloadRejected, why⟩

section Verify

variable [UnicodeData]

/-- `token.removeprefix("Bearer ").strip()` -/
def bare (token : String) : String :=
  let text := token.toList
  String.ofList (Py.strip (if "Bearer ".toList.isPrefixOf text then text.drop 7 else text))

/-- `verify(token)`, up to the question to the denylist: the subject of the token. -/
def subject (svids : Svids) (audience : String) (now : ℚ) (token : Option String) : Except Exn String :=
  if !given token then .error (rejected "missing workload token")
  else if audience = "" then .error (rejected "this service has no configured audience")
  else
    match svids now audience (bare (token.getD "")) with
    | .error why => .error (rejected why)
    | .ok sub =>
      match sub.get with
      | none => .error (rejected "workload token has no subject")
      | some s => if s = "" then .error (rejected "workload token has no subject") else .ok s

/-- `verify(token)` -/
def verify {δ : Type} (isRevoked : String → δ → Bool × δ) (svids : Svids) (audience : String) (now : ℚ)
    (token : Option String) (s : δ) : Except Exn String × δ :=
  match subject svids audience now token with
  | .error e => (.error e, s)
  | .ok id =>
    match isRevoked id s with
    | (true, s) => (.error (rejected (id ++ " has been revoked")), s)
    | (false, s) => (.ok id, s)

/-- `allowed_callers()` -/
def allowedCallers (raw : String) : List String :=
  if Py.strip raw.toList = [] then [agent]
  else (((Py.strip raw.toList).splitOn ',').map Py.strip).filterMap fun item =>
    if item = [] then none else some (String.ofList item)

/-- `check(token)` -/
def check {δ : Type} (isRevoked : String → δ → Bool × δ) (svids : Svids) (audience allowed : String) (now : ℚ)
    (token : Option String) (s : δ) : Except Exn String × δ :=
  match verify isRevoked svids audience now token s with
  | (.error e, s) => (.error e, s)
  | (.ok id, s) =>
    if id ∈ allowedCallers allowed then (.ok id, s) else (.error (rejected (id ++ " may not call this service")), s)

variable {δ : Type} {isRevoked : String → δ → Bool × δ} {svids : Svids} {audience : String} {now : ℚ}
  {token : Option String} {s : δ}

/-- Who is let in has a token for this service, and the denylist was asked about it. -/
theorem verify_ok {id : String} (h : (verify isRevoked svids audience now token s).1 = .ok id) :
    subject svids audience now token = .ok id ∧ (isRevoked id s).1 = false ∧
      (verify isRevoked svids audience now token s).2 = (isRevoked id s).2 := by
  unfold verify at h ⊢
  cases hsub : subject svids audience now token with
  | error e =>
    rw [hsub] at h
    cases h
  | ok id' =>
    rw [hsub] at h
    simp only at h ⊢
    rcases hrev : isRevoked id' s with ⟨revoked, s'⟩
    rw [hrev] at h
    cases revoked with
    | true => cases h
    | false =>
      cases h
      rw [hrev]
      exact ⟨rfl, rfl, rfl⟩

/-- A workload is let in exactly when it holds a token for this service and is not denied. -/
theorem verify_ok_iff {id : String} :
    (verify isRevoked svids audience now token s).1 = .ok id ↔
      subject svids audience now token = .ok id ∧ (isRevoked id s).1 = false := by
  refine ⟨fun h => ⟨(verify_ok h).1, (verify_ok h).2.1⟩, fun ⟨hsub, hrev⟩ => ?_⟩
  rcases hboth : isRevoked id s with ⟨revoked, s'⟩
  rw [hboth] at hrev
  obtain rfl : revoked = false := hrev
  simp only [verify, hsub, hboth]

/-- A check moves the denylist's state by the question it asks, if it asks. -/
theorem check_state (isRevoked : String → δ → Bool × δ) (svids : Svids) (audience allowed : String) (now : ℚ)
    (token : Option String) (s : δ) :
    (check isRevoked svids audience allowed now token s).2 = s ∨
      ∃ id, (check isRevoked svids audience allowed now token s).2 = (isRevoked id s).2 := by
  unfold check verify
  cases subject svids audience now token with
  | error e => exact .inl rfl
  | ok id =>
    refine .inr ⟨id, ?_⟩
    rcases hrev : isRevoked id s with ⟨revoked, s'⟩
    cases revoked with
    | true => simp only [hrev]
    | false =>
      simp only [hrev]
      split <;> rfl

/-- A workload the denylist has is refused. -/
theorem check_denied {allowed id : String} (hsubject : subject svids audience now token = .ok id)
    (hdenied : (isRevoked id s).1 = true) : ∃ e, (check isRevoked svids audience allowed now token s).1 = .error e := by
  rcases hrev : isRevoked id s with ⟨revoked, s'⟩
  rw [hrev] at hdenied
  obtain rfl : revoked = true := hdenied
  exact ⟨rejected (id ++ " has been revoked"), by simp only [check, verify, hsubject, hrev]⟩

end Verify

end Workload

end AgentPlatform
