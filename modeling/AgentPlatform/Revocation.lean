/-
The client side of the admission denylist (`app/common/revocation.py`).

A process that is not the authority fetches the set of revoked identities and
keeps it for `ttl` seconds. A clock reading is a rational number of seconds
since the epoch. What a fetch at some moment gives is the authority's set of
that moment, or the reason it fails.
-/
import AgentPlatform.Machine
import AgentPlatform.PyText
import Mathlib.Algebra.Order.Ring.Rat

namespace AgentPlatform

namespace Revocation

/-- `TTL` -/
def ttl : ℚ := 5

/-- `_cache`, `_cached_at`, `_available` -/
structure Denylist where
  cache : List String
  cachedAt : ℚ
  available : Bool

def Denylist.initial : Denylist := ⟨[], 0, false⟩

/-- `REVOCATION_URL`, `REVOCATION_FAIL_CLOSED`, and the in-process source. -/
structure Env where
  url : String
  failClosed : String
  source : Option (ℚ → List String)

/-- `_url()` -/
def Env.address (env : Env) : String := String.ofList (env.url.toList.reverse.dropWhile (· = '/')).reverse

/-- `fail_closed()` -/
def Env.failsClosed [UnicodeData] (env : Env) : Bool :=
  ["1".toList, "true".toList, "yes".toList, "on".toList].contains
    ((Py.strip env.failClosed.toList).map Char.toLower)

/-- `unavailable()` -/
def Env.unavailable (env : Env) (s : Denylist) : Bool :=
  env.source.isNone && decide (env.address ≠ "") && !s.available

/-- What a lookup returns, and the fetch it made. -/
structure Looked where
  ids : List String
  attempt : Option (Except Exn (List String))

/-- `revoked_ids()`, where a fetch would give `fetched`. -/
def revokedIds (env : Env) (now : ℚ) (fetched : Except Exn (List String)) (s : Denylist) : Looked × Denylist :=
  match env.source with
  | some ids => (⟨ids now, none⟩, s)
  | none =>
    if env.address = "" then (⟨[], none⟩, s)
    else if now - s.cachedAt < ttl then (⟨s.cache, none⟩, s)
    else
      match fetched with
      | .ok ids => (⟨ids, some fetched⟩, ⟨ids, now, true⟩)
      | .error _ => (⟨s.cache, some fetched⟩, { s with cachedAt := now })

/-- What a call answers, when it is a check, and the fetch it made. -/
structure Polled where
  revoked : Option Bool
  attempt : Option (Except Exn (List String))

/-- `is_revoked(spiffe_id)` -/
def isRevoked [UnicodeData] (env : Env) (spiffeId : String) (now : ℚ) (fetched : Except Exn (List String))
    (s : Denylist) : Polled × Denylist :=
  if env.failsClosed && env.unavailable s then (⟨some true, none⟩, s)
  else
    let (looked, s') := revokedIds env now fetched s
    (⟨some (decide (spiffeId ∈ looked.ids)), looked.attempt⟩, s')

/-- A call at a moment: a check of an identity, or `revoked_ids()` itself, and
why a fetch would fail then, if it would. -/
structure Call where
  now : ℚ
  check : Option String
  outage : Option Exn

/-- What a fetch gives at the moment of the call. -/
def Call.fetched (authority : ℚ → List String) (c : Call) : Except Exn (List String) :=
  match c.outage with
  | none => .ok (authority c.now)
  | some e => .error e

/-- A process that checks identities against an authority whose set changes as
it may. -/
def polling [UnicodeData] (env : Env) (authority : ℚ → List String) : Machine Denylist Call Polled where
  init := .initial
  step c s :=
    match c.check with
    | some spiffeId => isRevoked env spiffeId c.now (c.fetched authority) s
    | none =>
      let (looked, s') := revokedIds env c.now (c.fetched authority) s
      (⟨none, looked.attempt⟩, s')

end Revocation

end AgentPlatform
