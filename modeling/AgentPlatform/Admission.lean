/-
Admission across the platform: one API with the denylist, and any number of
services that check their callers against the copy they keep
(`app/common/workload.py`, `app/common/revocation.py`).

A service asks `GET /workloads/revoked` when its copy is `ttl` seconds old; the
request passes the API's own gate, so what it gets is what the API answers at
that moment. A restart forgets the copy.

`refused_in_time`: whatever the interleaving of requests, checks and restarts,
`ttl` seconds after the API answered a revocation every service that can still
ask the API refuses the workload, until it is restored.
-/
import AgentPlatform.ApiDenylist
import AgentPlatform.RevocationFacts

namespace AgentPlatform

namespace Admission

/-- A service that names its callers: how it reads their tokens, and its settings. -/
structure Service where
  svids : Svids
  audience : String
  allowed : String
  env : Revocation.Env

inductive Event (ι : Type) where
  /-- A request to the API. -/
  | request (req : Api.Request)
  /-- A service checks a caller. It has a token of its own for the API, should it ask, and asking may fail. -/
  | check (i : ι) (now : ℚ) (token own : Option String) (outage : Option Exn)
  | restart (i : ι) (now : ℚ)

def Event.now {ι : Type} : Event ι → ℚ
  | .request req => req.caller.now
  | .check _ now .. => now
  | .restart _ now => now

inductive Answer where
  | replied (reply : Api.Reply)
  | checked (caller : Except Exn String)
  | restarted

structure State (σ δ ι : Type) where
  api : Api.State σ δ
  denylists : ι → Revocation.Denylist

/-- `resp.raise_for_status()`, and the set of the body. -/
def fetched : Api.Reply → Except Exn (List String)
  | .revocations (.ids l) => .ok l
  | .refused _ detail => .error ⟨.httpError, detail⟩
  | _ => .error ⟨.httpError, "Internal Server Error"⟩

section Model

variable {σ δ ι : Type} [UnicodeData] [DecidableEq ι] (g : Api.Gates) (approvals : Machine σ StoreOp StoreAnswer)
  (revocations : Machine δ RevocationOp RevocationAnswer) (services : ι → Service)

/-- `_fetch()`, with the token the service has: what it gets, and the API afterwards. -/
def fetch (now : ℚ) (own : Option String) (outage : Option Exn) (a : Api.State σ δ) :
    Except Exn (List String) × Api.State σ δ :=
  match outage with
  | some e => (.error e, a)
  | none =>
    let (reply, a) := Api.handle g approvals revocations ⟨⟨now, none, own⟩, .listRevoked⟩ a
    (fetched reply, a)

/-- `revocation.is_revoked(subject)` in a service. -/
def isRevoked (env : Revocation.Env) (now : ℚ) (own : Option String) (outage : Option Exn) (id : String)
    (s : Revocation.Denylist × Api.State σ δ) : Bool × Revocation.Denylist × Api.State σ δ :=
  let (ids, a) := fetch g approvals revocations now own outage s.2
  let (polled, d) := Revocation.isRevoked env id now ids s.1
  (polled.revoked.getD false, d, if polled.attempt.isSome then a else s.2)

/-- `workload.check(token)` in a service. -/
def check (service : Service) (now : ℚ) (token own : Option String) (outage : Option Exn)
    (s : Revocation.Denylist × Api.State σ δ) : Except Exn String × Revocation.Denylist × Api.State σ δ :=
  Workload.check (isRevoked g approvals revocations service.env now own outage) service.svids service.audience
    service.allowed now token s

def step (e : Event ι) (s : State σ δ ι) : Answer × State σ δ ι :=
  match e with
  | .request req =>
    let (reply, a) := Api.handle g approvals revocations req s.api
    (.replied reply, { s with api := a })
  | .check i now token own outage =>
    let (caller, d, a) := check g approvals revocations (services i) now token own outage (s.denylists i, s.api)
    (.checked caller, ⟨a, Function.update s.denylists i d⟩)
  | .restart i _ => (.restarted, { s with denylists := Function.update s.denylists i .initial })

def platform (trail : AuditBackend) : Machine (State σ δ ι) (Event ι) Answer where
  init := ⟨⟨approvals.init, revocations.init, trail⟩, fun _ => .initial⟩
  step := step g approvals revocations services

end Model

/-! ## The copy a service keeps -/

/-- The copy is from before the moment, or has the workload. -/
def Covers (r : ℚ) (w : String) (d : Revocation.Denylist) : Prop := d.cachedAt ≤ r ∨ w ∈ d.cache

section Copy

variable {env : Revocation.Env} (hsource : env.source = none) (haddr : env.address ≠ "") {now r : ℚ}
  {w : String} {ids : Except Exn (List String)} {d : Revocation.Denylist} (hd : Covers r w d)
  (hids : ∃ l, ids = .ok l ∧ w ∈ l)
include hsource haddr hd hids

theorem covers_revokedIds : Covers r w (Revocation.revokedIds env now ids d).2 := by
  obtain ⟨l, rfl, hw⟩ := hids
  unfold Revocation.revokedIds
  by_cases hfresh : now - d.cachedAt < Revocation.ttl
  · simpa only [hsource, haddr, if_false, hfresh, if_true] using hd
  · simp only [hsource, haddr, if_false, hfresh]
    exact .inr hw

/-- Once the moment is `ttl` seconds past, the set looked at has the workload. -/
theorem mem_revokedIds (hlate : r + Revocation.ttl ≤ now) : w ∈ (Revocation.revokedIds env now ids d).1.ids := by
  obtain ⟨l, rfl, hw⟩ := hids
  unfold Revocation.revokedIds
  by_cases hfresh : now - d.cachedAt < Revocation.ttl
  · simp only [hsource, haddr, if_false, hfresh, if_true]
    refine hd.resolve_left fun hbefore => ?_
    linarith
  · simpa only [hsource, haddr, if_false, hfresh] using hw

variable [UnicodeData] in
theorem covers_isRevoked (id : String) : Covers r w (Revocation.isRevoked env id now ids d).2 := by
  unfold Revocation.isRevoked
  split
  · exact hd
  · exact covers_revokedIds hsource haddr hd hids

variable [UnicodeData] in
theorem isRevoked_late (hlate : r + Revocation.ttl ≤ now) :
    (Revocation.isRevoked env w now ids d).1.revoked = some true := by
  unfold Revocation.isRevoked
  split
  · rfl
  · exact congrArg some (decide_eq_true (mem_revokedIds hsource haddr hd hids hlate))

end Copy

/-! ## One event -/

section Step

variable {σ δ ι : Type} [UnicodeData] [DecidableEq ι] {g : Api.Gates} {approvals : Machine σ StoreOp StoreAnswer}
  {revocations : Machine δ RevocationOp RevocationAnswer} {services : ι → Service} {denied : δ → String → Prop}
  (D : Api.Denies revocations denied)

variable (g approvals revocations) in
omit [DecidableEq ι] in
/-- A check leaves the copy as it is, or asks then. -/
theorem check_cachedAt (service : Service) (now : ℚ) (token own : Option String) (outage : Option Exn)
    (d : Revocation.Denylist) (a : Api.State σ δ) :
    (check g approvals revocations service now token own outage (d, a)).2.1.cachedAt = d.cachedAt ∨
      (check g approvals revocations service now token own outage (d, a)).2.1.cachedAt = now := by
  rcases Workload.check_state (isRevoked g approvals revocations service.env now own outage) service.svids
    service.audience service.allowed now token (d, a) with heq | ⟨id, heq⟩
  · rw [check, heq]
    exact .inl rfl
  · rw [check, heq]
    simp only [isRevoked, Revocation.isRevoked]
    split
    · exact .inl rfl
    · rw [Revocation.revokedIds_post]
      rcases (Revocation.revokedIds service.env now (fetch g approvals revocations now own outage a).1 d).1.attempt with
        _ | _ | ids
      · exact .inl rfl
      · exact .inr rfl
      · exact .inr rfl

/-- The API lets the service in, should it ask. -/
def Asks (g : Api.Gates) (revocations : Machine δ RevocationOp RevocationAnswer) (now : ℚ) (own : Option String)
    (outage : Option Exn) (a : Api.State σ δ) : Prop :=
  outage = none ∧
    Api.letsIn g revocations [Workload.agent, Workload.tools, Workload.gateway] ⟨now, none, own⟩ a = true

include D

theorem fetch_revocations (now : ℚ) (own : Option String) (outage : Option Exn) (a : Api.State σ δ) :
    (fetch g approvals revocations now own outage a).2.revocations = a.revocations := by
  unfold fetch
  cases outage with
  | some e => rfl
  | none => exact Api.handle_revocations D _ a (fun _ _ _ h => nomatch h) fun _ h => nomatch h

variable (approvals) in
/-- What a service that is let in gets is who is denied. -/
theorem fetch_ok {now : ℚ} {own : Option String} {outage : Option Exn} {a : Api.State σ δ}
    (h : Asks g revocations now own outage a) :
    ∃ l, (fetch g approvals revocations now own outage a).1 = .ok l ∧ ∀ id, id ∈ l ↔ denied a.revocations id := by
  obtain ⟨rfl, hin⟩ := h
  obtain ⟨ids, hstep, -⟩ := D.ids a.revocations
  have hreply : (Api.handle g approvals revocations ⟨⟨now, none, own⟩, .listRevoked⟩ a).1 =
      .revocations (Api.sortedIds (.ids ids)) :=
    Api.reply_listRevoked D hin (congrArg Prod.fst hstep)
  refine ⟨ids.mergeSort fun a b => decide (a ≤ b), by simp only [fetch, hreply, Api.sortedIds, fetched], fun id => ?_⟩
  exact Api.fetched_iff D hreply id

variable (g approvals) in
/-- What the denylist says is the same after a check. -/
theorem check_revocations (service : Service) (now : ℚ) (token own : Option String) (outage : Option Exn)
    (s : Revocation.Denylist × Api.State σ δ) :
    (check g approvals revocations service now token own outage s).2.2.revocations = s.2.revocations := by
  rcases Workload.check_state (isRevoked g approvals revocations service.env now own outage) service.svids
    service.audience service.allowed now token s with heq | ⟨id, heq⟩
  · rw [check, heq]
  · rw [check, heq]
    simp only [isRevoked]
    split
    · exact fetch_revocations D now own outage s.2
    · rfl

theorem check_covers {service : Service} (hsource : service.env.source = none) (haddr : service.env.address ≠ "")
    {now r : ℚ} {token own : Option String} {outage : Option Exn} {w : String} {d : Revocation.Denylist}
    {a : Api.State σ δ} (hasks : Asks g revocations now own outage a) (hw : denied a.revocations w)
    (hd : Covers r w d) :
    Covers r w (check g approvals revocations service now token own outage (d, a)).2.1 := by
  obtain ⟨l, hfetch, hl⟩ := fetch_ok approvals D hasks
  rcases Workload.check_state (isRevoked g approvals revocations service.env now own outage) service.svids
    service.audience service.allowed now token (d, a) with heq | ⟨id, heq⟩
  · rw [check, heq]
    exact hd
  · rw [check, heq]
    exact covers_isRevoked hsource haddr hd ⟨l, hfetch, (hl w).2 hw⟩ id

variable (approvals) in
theorem check_refused {service : Service} (hsource : service.env.source = none) (haddr : service.env.address ≠ "")
    {now r : ℚ} {token own : Option String} {outage : Option Exn} {w : String} {d : Revocation.Denylist}
    {a : Api.State σ δ} (hasks : Asks g revocations now own outage a) (hw : denied a.revocations w)
    (hd : Covers r w d) (hlate : r + Revocation.ttl ≤ now)
    (hsubject : Workload.subject service.svids service.audience now token = .ok w) :
    ∃ e, (check g approvals revocations service now token own outage (d, a)).1 = .error e := by
  obtain ⟨l, hfetch, hl⟩ := fetch_ok approvals D hasks
  refine Workload.check_denied hsubject ?_
  have hrevoked := isRevoked_late hsource haddr hd ⟨l, hfetch, (hl w).2 hw⟩ hlate
  simp only [isRevoked, hrevoked, Option.getD_some]

end Step

/-! ## From one event to every run -/

section Run

variable {σ δ ι : Type} [UnicodeData]

abbrev Moment (σ δ ι : Type) := Transition (State σ δ ι) (Event ι) Answer

/-- What a moment did to a workload: cut it off, or let it back. -/
def changes (w : String) (t : Moment σ δ ι) : Option Bool :=
  match t.input, t.output with
  | .request req, .replied reply => Api.changeAt w ⟨t.pre.api, req, reply, t.post.api⟩
  | _, _ => none

/-- If the service checks a caller then, the API lets it in should it ask. -/
def AsksAt (g : Api.Gates) (revocations : Machine δ RevocationOp RevocationAnswer) (i : ι) (t : Moment σ δ ι) : Prop :=
  ∀ now token own outage, t.input = .check i now token own outage → Asks g revocations now own outage t.pre.api

/-- A workload was cut off, and not let back since, while the service could ask. -/
structure Since (g : Api.Gates) (revocations : Machine δ RevocationOp RevocationAnswer) (w : String) (i : ι)
    (before : List (Moment σ δ ι)) (t : Moment σ δ ι) (mid : List (Moment σ δ ι)) : Prop where
  revoked : changes w t = some true
  start : 0 ≤ t.input.now
  late : ∀ v ∈ before, v.input.now ≤ t.input.now
  kept : ∀ v ∈ mid, changes w v ≠ some false
  asks : ∀ v ∈ mid, AsksAt g revocations i v

variable [DecidableEq ι] {g : Api.Gates} {approvals : Machine σ StoreOp StoreAnswer}
  {revocations : Machine δ RevocationOp RevocationAnswer} {services : ι → Service} {trail : AuditBackend}

/-- A service last asked at a moment of the run, if it asked. -/
theorem cachedAt_step {h : List (Moment σ δ ι)} {s : State σ δ ι} (e : Event ι)
    (hs : ∀ i, (s.denylists i).cachedAt = 0 ∨ ∃ v ∈ h, (s.denylists i).cachedAt = v.input.now) (i : ι) :
    (((platform g approvals revocations services trail).step e s).2.denylists i).cachedAt = 0 ∨
      ∃ v ∈ h ++ [(platform g approvals revocations services trail).transition s e],
        (((platform g approvals revocations services trail).step e s).2.denylists i).cachedAt = v.input.now := by
  have hold : (s.denylists i).cachedAt = 0 ∨
      ∃ v ∈ h ++ [(platform g approvals revocations services trail).transition s e],
        (s.denylists i).cachedAt = v.input.now :=
    (hs i).imp_right fun ⟨v, hv, heq⟩ => ⟨v, List.mem_append_left _ hv, heq⟩
  cases e with
  | request req => exact hold
  | check j now token own outage =>
    by_cases hij : i = j
    · subst hij
      simp only [platform, step, Function.update_self]
      rcases check_cachedAt g approvals revocations (services i) now token own outage (s.denylists i) s.api with
        heq | heq
      · rw [heq]
        exact hold
      · exact .inr ⟨_, List.mem_append_right _ (List.mem_singleton_self _), heq⟩
    · simp only [platform, step, Function.update_of_ne hij]
      exact hold
  | restart j now =>
    by_cases hij : i = j
    · subst hij
      simp only [platform, step, Function.update_self]
      exact .inl rfl
    · simp only [platform, step, Function.update_of_ne hij]
      exact hold

variable {denied : δ → String → Prop} (D : Api.Denies revocations denied)
include D

/-- Who was denied stays denied until let back. -/
theorem denied_event {w : String} {s : State σ δ ι} (e : Event ι) (hs : denied s.api.revocations w)
    (hkept : changes w ((platform g approvals revocations services trail).transition s e) ≠ some false) :
    denied ((platform g approvals revocations services trail).step e s).2.api.revocations w := by
  cases e with
  | request req =>
    have hchange : Api.changeAt w ((Api.api g approvals revocations trail).transition s.api req) ≠ some false := hkept
    refine (Api.denied_step D trail w req s.api).2 ?_
    cases hw : Api.changeAt w ((Api.api g approvals revocations trail).transition s.api req) with
    | none => exact .inr ⟨rfl, hs⟩
    | some b =>
      rw [hw] at hchange
      cases b with
      | true => exact .inl rfl
      | false => exact absurd rfl hchange
  | check i now token own outage =>
    have hsame := check_revocations g approvals D (services i) now token own outage
      (s.denylists i, s.api)
    show denied
      (check g approvals revocations (services i) now token own outage (s.denylists i, s.api)).2.2.revocations w
    rw [hsame]
    exact hs
  | restart i now => exact hs

/-- What a service keeps has who is denied, or is from before. -/
theorem covers_event {w : String} {r : ℚ} {s : State σ δ ι} (e : Event ι) (i : ι)
    (hsource : (services i).env.source = none) (haddr : (services i).env.address ≠ "") (hr : 0 ≤ r)
    (hs : denied s.api.revocations w) (hd : Covers r w (s.denylists i))
    (hasks : AsksAt g revocations i ((platform g approvals revocations services trail).transition s e)) :
    Covers r w (((platform g approvals revocations services trail).step e s).2.denylists i) := by
  cases e with
  | request req => exact hd
  | check j now token own outage =>
    by_cases hij : i = j
    · subst hij
      simp only [platform, step, Function.update_self]
      exact check_covers D hsource haddr (hasks now token own outage rfl) hs hd
    · simp only [platform, step, Function.update_of_ne hij]
      exact hd
  | restart j now =>
    by_cases hij : i = j
    · subst hij
      simp only [platform, step, Function.update_self]
      exact .inl hr
    · simp only [platform, step, Function.update_of_ne hij]
      exact hd

/-- The workload is cut off at the moment, and everything kept is from before it. -/
theorem cut_event {w : String} {h : List (Moment σ δ ι)} {s : State σ δ ι} (e : Event ι) (i : ι)
    (hcached : (s.denylists i).cachedAt = 0 ∨ ∃ v ∈ h, (s.denylists i).cachedAt = v.input.now)
    (hsince : Since g revocations w i h ((platform g approvals revocations services trail).transition s e) []) :
    denied ((platform g approvals revocations services trail).step e s).2.api.revocations w ∧
      Covers e.now w (((platform g approvals revocations services trail).step e s).2.denylists i) := by
  cases e with
  | request req =>
    have hchange : Api.changeAt w ((Api.api g approvals revocations trail).transition s.api req) = some true :=
      hsince.revoked
    refine ⟨(Api.denied_step D trail w req s.api).2 (.inl hchange), .inl ?_⟩
    rcases hcached with heq | ⟨v, hv, heq⟩
    · exact heq.trans_le hsince.start
    · exact heq.trans_le (hsince.late v hv)
  | check j now token own outage => cases hsince.revoked
  | restart j now => cases hsince.revoked

/-- What is kept of a run: how old the copies are, and that since a workload was
cut off it is denied, and has a place in each copy that is not from before. -/
def Kept (g : Api.Gates) (revocations : Machine δ RevocationOp RevocationAnswer) (denied : δ → String → Prop)
    (h : List (Moment σ δ ι)) (s : State σ δ ι) : Prop :=
  (∀ i, (s.denylists i).cachedAt = 0 ∨ ∃ v ∈ h, (s.denylists i).cachedAt = v.input.now) ∧
    ∀ w i before t mid, h = before ++ t :: mid → Since g revocations w i before t mid →
      denied s.api.revocations w ∧ Covers t.input.now w (s.denylists i)

theorem kept_event (hservices : ∀ i, (services i).env.source = none ∧ (services i).env.address ≠ "")
    {h : List (Moment σ δ ι)} {s : State σ δ ι} (e : Event ι) (hs : Kept g revocations denied h s) :
    Kept g revocations denied (h ++ [(platform g approvals revocations services trail).transition s e])
      ((platform g approvals revocations services trail).step e s).2 := by
  refine ⟨cachedAt_step e hs.1, fun w i before t mid heq hsince => ?_⟩
  rcases List.eq_nil_or_concat mid with rfl | ⟨mid, v, rfl⟩
  · obtain ⟨rfl, hlast⟩ := List.append_inj' heq rfl
    obtain rfl := (List.cons.inj hlast).1
    exact cut_event D e i (hs.1 i) hsince
  · rw [List.concat_eq_append, ← List.cons_append, ← List.append_assoc] at heq
    obtain ⟨rfl, hlast⟩ := List.append_inj' heq rfl
    obtain rfl := (List.cons.inj hlast).1
    rw [List.concat_eq_append] at hsince
    obtain ⟨hdenied, hcovers⟩ := hs.2 w i before t mid rfl ⟨hsince.revoked, hsince.start, hsince.late,
      fun v hv => hsince.kept v (List.mem_append_left _ hv), fun v hv => hsince.asks v (List.mem_append_left _ hv)⟩
    refine ⟨denied_event D e hdenied (hsince.kept _ (by simp)), ?_⟩
    exact covers_event D e i (hservices i).1 (hservices i).2 hsince.start hdenied hcovers (hsince.asks _ (by simp))

omit D in
theorem kept_init : Kept g revocations denied [] (platform g approvals revocations services trail).init :=
  ⟨fun _ => .inl rfl, fun _ _ _ _ _ heq => by simp at heq⟩

end Run

/-- A workload that was cut off `ttl` seconds ago, and not let back, is refused
by every service that could ask the API since. -/
def RefusedInTime {σ δ ι : Type} [UnicodeData] (g : Api.Gates) (revocations : Machine δ RevocationOp RevocationAnswer)
    (services : ι → Service) (run : List (Moment σ δ ι)) : Prop :=
  ∀ before t mid u rest, run = before ++ t :: (mid ++ u :: rest) → ∀ w, changes w t = some true →
    (∀ v ∈ mid, changes w v ≠ some false) → ∀ i now token own outage, u.input = .check i now token own outage →
    (∀ v ∈ mid ++ [u], AsksAt g revocations i v) → t.input.now + Revocation.ttl ≤ now →
    Workload.subject (services i).svids (services i).audience now token = .ok w → ∃ e, u.output = .checked (.error e)

section RefusedInTime

variable {σ δ ι : Type} [UnicodeData] [DecidableEq ι] {g : Api.Gates} {approvals : Machine σ StoreOp StoreAnswer}
  {revocations : Machine δ RevocationOp RevocationAnswer} {services : ι → Service} {trail : AuditBackend}
  (hservices : ∀ i, (services i).env.source = none ∧ (services i).env.address ≠ "") {events : List (Event ι)}
  (hstart : ∀ e ∈ events, 0 ≤ e.now) (htime : events.Pairwise fun e f => e.now ≤ f.now)
include hservices hstart htime

theorem refusedInTime {denied : δ → String → Prop} (D : Api.Denies revocations denied) :
    RefusedInTime g revocations services ((platform g approvals revocations services trail).run events) := by
  intro before t mid u rest heq w hrevoked hkept i now token own outage hcheck hasks hlate hsubject
  have hsplit : (platform g approvals revocations services trail).run events = (before ++ t :: mid) ++ u :: rest := by
    rw [heq]
    simp
  obtain ⟨s, e, rfl, hs⟩ := Machine.history_rule_at (m := platform g approvals revocations services trail)
    (G := fun _ => True) (P := Kept g revocations denied) kept_init (fun h s e hs _ => kept_event D hservices e hs)
    events (fun _ _ => trivial) _ u rest hsplit
  obtain rfl : e = .check i now token own outage := hcheck
  have hordered := Machine.pairwise_run (m := platform g approvals revocations services trail) htime
  rw [heq, List.pairwise_append] at hordered
  have ht : t.input ∈ events :=
    Machine.input_mem (m := platform g approvals revocations services trail) (by rw [heq]; simp)
  obtain ⟨hdenied, hcovers⟩ := hs.2 w i before t mid rfl ⟨hrevoked, hstart _ ht,
    fun v hv => hordered.2.2 v hv t (List.mem_cons_self ..), hkept, fun v hv => hasks v (List.mem_append_left _ hv)⟩
  obtain ⟨exn, hexn⟩ := check_refused approvals D (hservices i).1 (hservices i).2
    (hasks _ (List.mem_append_right _ (List.mem_singleton_self _)) now token own outage rfl) hdenied hcovers hlate
    hsubject
  exact ⟨exn, congrArg Answer.checked hexn⟩

/-- **Revocation reaches every hop in time.** Over either store of the denylist,
in every interleaving of requests to the API, checks by the services and restarts,
with the clocks in order: a workload is refused by every service `ttl` seconds
after the API answered its revocation, until the API answers its restoration, as
long as what the service asks the API gets through. -/
theorem refused_in_time (db : TextDatabase) :
    RefusedInTime g memoryRevocations services ((platform g approvals memoryRevocations services trail).run events) ∧
      RefusedInTime g (postgresRevocations db) services
        ((platform g approvals (postgresRevocations db) services trail).run events) :=
  ⟨refusedInTime hservices hstart htime Api.memoryRevocations_denies,
    refusedInTime hservices hstart htime (Api.postgresRevocations_denies db)⟩

end RefusedInTime

/-- A tool server checks the agent, before and after it is cut off. -/
def deskEvents : List (Event Unit) :=
  [.check () 6 (some Workload.agent) (some Workload.tools) none,
    .request ⟨⟨7, some "Bearer root", none⟩, .revokeWorkload Workload.agent "key leaked" (F64.ofInt 7)⟩,
    .restart () 8,
    .check () 9 (some Workload.gateway) (some Workload.tools) none,
    .check () 13 (some Workload.agent) (some Workload.tools) none]

def deskTools : Service := ⟨fun _ _ token => .ok (.str token), Workload.tools, "", Revocation.gateway⟩

theorem desk_refused_in_time : let _ := asciiData
    RefusedInTime Api.deskGates memoryRevocations (fun _ => deskTools)
      ((platform Api.deskGates memoryStore memoryRevocations (fun _ => deskTools) (.memory [])).run deskEvents) :=
  (@refused_in_time _ _ asciiData _ Api.deskGates memoryStore (fun _ => deskTools) (.memory [])
    (fun _ => ⟨rfl, by decide⟩) deskEvents (by decide) (by decide) plainText).1

end Admission

end AgentPlatform
