/-
Refunds across the platform: what every order of calls, requests and rulings
leaves in the ledger.

`call_ledger` says what a call does to the world: nothing the ledger shows, or
one new refund issued on a grant. `issued_tier` traces such a refund back
through the policy's tiers: it is small, or an approval of exactly it is on
record (`Backed`). The run results are these two, by induction:

* `large_refund_backed`: every refund above the automatic limit has its own
  approval.
* `approved_refund_once`: an approved refund is issued once, and is the one
  approved, in every run where no allowed call takes its key first.
-/
import AgentPlatform.ApprovalsFacts
import AgentPlatform.Platform
import AgentPlatform.PolicyFacts
import AgentPlatform.SimulatorsFacts

namespace AgentPlatform

open Simulators

variable [UnicodeData]

/-! ## What a call does to the world -/

/-- Nothing the ledger or the approvals show has changed. -/
def SameBooks (w w' : World) : Prop := w'.sim.refunds = w.sim.refunds ∧ w'.approvals = w.approvals

omit [UnicodeData] in
theorem keeps_within {m : Method State} (h : m.Keeps fun s s' => s'.refunds = s.refunds) :
    (m.within World.sim fun sim w => { w with sim }).Keeps SameBooks :=
  fun subject w => ⟨h subject w.sim, rfl⟩

theorem draftReply_keeps (ticketId body : Json) (tenant : Option String) :
    (simulatorBackend.draftReply ticketId body tenant).Keeps fun s s' => s'.refunds = s.refunds := by
  intro subject s
  simp only [simulatorBackend]
  cases hd : draftReply ticketId body tenant s with
  | error e => rfl
  | ok r =>
    obtain ⟨-, -, hs'⟩ := draftReply_cases hd
    simp only [written, hs']

/-- Only `refunds.issue` writes the ledger. -/
theorem handler_sameBooks {name : String} {tool : Tool World}
    (h : (buildTools worldBackend).get? name = some tool) (hne : name ≠ "refunds.issue") (kw : Kwargs) :
    (tool.handler kw).Keeps SameBooks :=
  handler_keeps (fun _ => ⟨rfl, rfl⟩) (fun _ _ => keeps_within fun _ _ => rfl)
    (fun _ _ => keeps_within fun _ _ => rfl) (fun _ _ => keeps_within fun _ _ => rfl)
    (fun _ _ => keeps_within fun _ _ => rfl) (fun v w t => keeps_within (draftReply_keeps v w t))
    (fun _ _ => keeps_within fun _ _ => rfl) h (.inl hne) kw

/-- The refund the ledger answers for a call: what was asked, and the ledger
before and after. -/
structure Answered (kw : Kwargs) (w : World) (r : Refund) (w' : World) where
  orderId : Json
  amount : Json
  x : F64
  s' : State
  order_eq : kw.args.get? "order_id" = some orderId
  amount_eq : kw.args.get? "amount" = some amount
  float_eq : Py.float amount = .ok x
  keys : ∀ k v, kw.args.get? k = some v → k = "order_id" ∨ k = "amount"
  issued : issueRefund orderId x kw.tenant (kw.extra.getD none) w.sim = .ok (r, s')
  post : w' = { w with sim := s' }

/-- `refunds.issue` raises, or answers that there is no such order, and leaves
the world as it was; or it answers a refund. -/
theorem refundsIssue_world (kw : Kwargs) (subject : Option String) (w : World) :
    (((refundsIssue worldBackend).handler kw subject w).2 = w ∧
      ∀ v, ((refundsIssue worldBackend).handler kw subject w).1 = .ok v → v = notFound "order") ∨
    ∃ r, ∃ _ : Answered kw w r ((refundsIssue worldBackend).handler kw subject w).2,
      ((refundsIssue worldBackend).handler kw subject w).1 = .ok r.toJson := by
  rcases refundsIssue_cases worldBackend kw with ⟨e, he⟩ | ⟨orderId, amount, x, h1, h2, hx, hkeys, he⟩
  · rw [he]
    exact .inl ⟨rfl, fun v hv => by cases hv⟩
  · rw [he, orElse_eq]
    have hmethod : worldBackend.issueRefund orderId x kw.tenant (kw.extra.getD none) subject w =
        ((written Refund.toJson w.sim (issueRefund orderId x kw.tenant (kw.extra.getD none) w.sim)).1,
          { w with sim := (written Refund.toJson w.sim
              (issueRefund orderId x kw.tenant (kw.extra.getD none) w.sim)).2 }) := rfl
    rw [hmethod]
    cases hi : issueRefund orderId x kw.tenant (kw.extra.getD none) w.sim with
    | error e =>
      refine .inl ⟨rfl, fun v hv => ?_⟩
      obtain ⟨u, hu, hv⟩ := map_ok hv
      simp only [written] at hu
      split at hu
      · cases hu
        exact hv.symm
      · cases hu
    | ok r => exact .inr ⟨r.1, ⟨orderId, amount, x, r.2, h1, h2, hx, hkeys, hi, rfl⟩, rfl⟩

variable (b : Policy.Bundle) (fmt : Json → String)

/-- The grant of a request. -/
abbrev CallRequest.Grant (c : CallRequest) (w : World) : Type :=
  (c.enforcer b fmt).Granted c.token c.toolName c.args c.workloadToken w

theorem grant_tool {c : CallRequest} {w : World} (g : c.Grant b fmt w) (hname : c.toolName = "refunds.issue") :
    g.tool = refundsIssue worldBackend := by
  have hfound : (buildTools worldBackend).get? "refunds.issue" = some g.tool :=
    (congrArg (buildTools worldBackend).get? hname).symm.trans g.found
  exact (Option.some.inj hfound).symm

/-- What a call does: it changes no book, or it is a refund the ledger answered
on a grant. What a call that went well answers is the refund, or that there is
no such order. -/
theorem call_ledger (c : CallRequest) (w : World) :
    (SameBooks w (c.run b fmt w).state ∧ (c.toolName = "refunds.issue" → ∀ res,
      (c.run b fmt w).result = .ok res → res.outcome = .ok → res.result = some (notFound "order"))) ∨
    ∃ (g : c.Grant b fmt w) (r : Refund), c.toolName = "refunds.issue" ∧
      Nonempty (Answered g.kwargs w r (c.run b fmt w).state) ∧ ∀ res,
        (c.run b fmt w).result = .ok res → res.outcome = .ok → res.result = some r.toJson := by
  rcases Enforcer.call_cases (c.enforcer b fmt) c.token c.toolName c.args c.workloadToken w with
    h | ⟨g, pre, -, -, he⟩
  · refine .inl ⟨?_, fun _ res hres hok => ?_⟩
    · rw [CallRequest.run, h.state]
      exact ⟨rfl, rfl⟩
    · rcases h.refused res hres with h | h <;> rw [hok] at h <;> cases h
  · have hstate : (c.run b fmt w).state = (g.tool.handler g.kwargs (some g.subject) w).2 := by
      rw [CallRequest.run, he, Run.after_state]
      exact Enforcer.execute_state _ _ _ _ _ _ _ _
    have hresult : ∀ res, (c.run b fmt w).result = .ok res → res.outcome = .ok →
        ∃ v, (g.tool.handler g.kwargs (some g.subject) w).1 = .ok v ∧ res.result = some (Enforcer.asDict v) := by
      intro res hres hok
      rw [CallRequest.run, he, Run.after_result] at hres
      exact Enforcer.execute_ok hres hok
    by_cases hname : c.toolName = "refunds.issue"
    · rw [grant_tool b fmt g hname] at hstate hresult
      rcases refundsIssue_world g.kwargs (some g.subject) w with ⟨hsame, hnone⟩ | ⟨r, hans, hr⟩
      · refine .inl ⟨by rw [hstate, hsame]; exact ⟨rfl, rfl⟩, fun _ res hres hok => ?_⟩
        obtain ⟨v, hv, hres⟩ := hresult res hres hok
        rw [hres, hnone v hv]
        rfl
      · refine .inr ⟨g, r, hname, ⟨hstate ▸ hans⟩, fun res hres hok => ?_⟩
        obtain ⟨v, hv, hres⟩ := hresult res hres hok
        rw [hr, Except.ok.injEq] at hv
        rw [hres, ← hv]
        rfl
    · refine .inl ⟨?_, fun h => absurd h hname⟩
      rw [hstate]
      exact handler_sameBooks g.found hname g.kwargs (some g.subject) w

/-! ## Where a refund comes from -/

/-- The arguments of a refund. -/
def refundArgs (orderId : Json) (x : F64) : Args := Dict.ofList [("order_id", orderId), ("amount", .float x)]

/-- An approval of exactly this refund, on record. -/
structure Covers (a : Approval) (orderId : Json) (x : F64) (tenant : Option String) : Prop where
  status : a.status = .approved
  tool : a.tool = "refunds.issue"
  args : a.args.pyEq (refundArgs orderId x) = true
  tenant : tenant = some a.tenant

variable {b fmt} {c : CallRequest} {w w' : World} {r : Refund}

/-- The amount a granted refund was asked for, as the policy saw it. -/
theorem answered_amount (g : c.Grant b fmt w) (hname : c.toolName = "refunds.issue")
    (ans : Answered g.kwargs w r w') : ans.amount = .float ans.x := by
  obtain ⟨t, v, ht, -, hv⟩ := coerceArgs_declared g.coerced ans.amount_eq
  rw [grant_tool b fmt g hname] at ht
  cases ht
  have hx := ans.float_eq
  rcases coerce_number hv with h | ⟨x, h⟩
  · rw [h] at hx
    cases hx
  · rw [h] at hx ⊢
    cases hx
    rfl

theorem answered_args (g : c.Grant b fmt w) (hname : c.toolName = "refunds.issue")
    (ans : Answered g.kwargs w r w') (k : String) :
    g.callArgs.get? k = (refundArgs ans.orderId ans.x).get? k := by
  have horder : g.callArgs.get? "order_id" = some ans.orderId := ans.order_eq
  have hamount : g.callArgs.get? "amount" = some (.float ans.x) :=
    ans.amount_eq.trans (congrArg some (answered_amount g hname ans))
  simp only [refundArgs, Dict.ofList, Dict.insertAll, List.foldl_cons, List.foldl_nil, Dict.get?_insert]
  by_cases h1 : "amount" = k
  · subst h1
    simp [hamount]
  · by_cases h2 : "order_id" = k
    · subst h2
      simp [horder]
    · simp only [h1, h2, if_false]
      cases hk : g.callArgs.get? k with
      | none => rfl
      | some v =>
        rcases ans.keys k v hk with h | h
        · exact absurd h.symm h2
        · exact absurd h.symm h1

/-- The identifier of the approval a request carries. -/
def CallRequest.Carries (c : CallRequest) (id : String) : Prop :=
  ∃ v, c.args.get? "approval_id" = some v ∧ v.truthy = true ∧ Py.str v = .ok id

/-- **The tiers, behind a refund.** What the ledger answered was asked for an
amount the policy saw: within the automatic limit, or within the ceiling and
then an approval of this request is on record. -/
theorem issued_tier (g : c.Grant b fmt w) (hname : c.toolName = "refunds.issue")
    (ans : Answered g.kwargs w r w') :
    ∃ s, ans.x.scaled = some s ∧ 0 < s ∧
      ((Policy.decision b (Enforcer.policyDoc g.d c.toolName g.callArgs) = .allow ∧
        s ≤ Policy.limit Policy.autoRefundLimit) ∨
      (s ≤ Policy.limit Policy.approvalRefundLimit ∧ ∃ id a, c.Carries id ∧ g.key = some id ∧
        w.approvals.get? id = some a ∧ a.status = .approved ∧ a.tool = "refunds.issue" ∧
        a.args.pyEq (refundArgs ans.orderId ans.x) = true ∧ a.tenant = g.d.tenantOrEmpty)) := by
  have hdoc := Enforcer.granted_askedFor g
  obtain ⟨hencodable, hne, hdecision⟩ := g.not_denied b fmt rfl
  have hamount : (Enforcer.policyDoc g.d c.toolName g.callArgs).get? "amount" = some (.float ans.x) := by
    rw [hdoc.rest _ (by decide)]
    exact ans.amount_eq.trans (congrArg some (answered_amount g hname ans))
  have htool : (Enforcer.policyDoc g.d c.toolName g.callArgs).get? "tool" = some (.str Policy.refundTool) := by
    rw [hdoc.tool, hname]
    rfl
  rcases g.permitted with hallow | ⟨happroval, v, id, hv, htruthy, hid, hverify⟩
  · rw [hallow] at hdecision
    obtain ⟨s, hs, hpos, hle⟩ := Policy.refund_allow htool hdecision.symm
    rw [hamount] at hs
    exact ⟨s, hs, hpos, .inl ⟨hdecision.symm, hle⟩⟩
  · rw [happroval] at hdecision
    obtain ⟨s, hs, hpos, -, hle⟩ := Policy.refund_requireApproval htool hdecision.symm
    rw [hamount] at hs
    refine ⟨s, hs, hpos, .inr ⟨hle, ?_⟩⟩
    have hvalid : w.approvals.verify ⟨id, c.toolName, g.callArgs, g.d.user, g.d.workload,
        g.d.tenantOrEmpty⟩ = true := Except.ok.inj hverify
    obtain ⟨a, ha, hst, ht, hmatch⟩ := ApprovalStore.verify_iff.1 hvalid
    simp only [VerifyRequest.matchesApproval, Bool.and_eq_true, decide_eq_true_eq] at hmatch
    have hkey : g.key = some id := by
      have hk := g.key_eq
      have hidem : (refundsIssue worldBackend).idempotent = true := rfl
      rw [Enforcer.idempotencyKey, hv, grant_tool b fmt g hname] at hk
      simp only [hidem, htruthy, Bool.and_self, if_true, hid, Except.map, Except.ok.injEq] at hk
      exact hk.symm
    refine ⟨id, a, ⟨v, hv, htruthy, hid⟩, hkey, ha, hst, hmatch.1.1.1.trans hname, ?_, ht⟩
    rw [Args.pyEq_iff] at hmatch ⊢
    intro k
    rw [← answered_args g hname ans]
    simpa using hmatch.1.1.2 k

/-! ## The amounts, in cents -/

omit [UnicodeData] in
theorem scaled_limit : (F64.ofInt 50).scaled = some (Policy.limit Policy.autoRefundLimit) ∧
    (F64.ofInt 500).scaled = some (Policy.limit Policy.approvalRefundLimit) := by decide +kernel

omit [UnicodeData] in
/-- Rounding to cents keeps an amount within either limit. -/
theorem roundCents_within {x : F64} {s : Int} (hx : x.scaled = some s) (hpos : 0 < s) :
    (s ≤ Policy.limit Policy.autoRefundLimit → (F64.ofInt 50).lt x.roundCents = false) ∧
    (s ≤ Policy.limit Policy.approvalRefundLimit → x.roundCents.le (F64.ofInt 500) = true) := by
  have h50 : F64.Valid (50 * 2 ^ 47) 1027 ∧ (50 * 2 ^ 47) * 2 ^ 1027 * 100 = 5000 * F64.unit ∧
      ((50 * 2 ^ 47 * 2 ^ 1027 : Nat) : Int) = Policy.limit Policy.autoRefundLimit := by decide +kernel
  have h500 : F64.Valid (500 * 2 ^ 44) 1030 ∧ (500 * 2 ^ 44) * 2 ^ 1030 * 100 = 50000 * F64.unit ∧
      ((500 * 2 ^ 44 * 2 ^ 1030 : Nat) : Int) = Policy.limit Policy.approvalRefundLimit := by decide +kernel
  constructor
  · intro hs
    obtain ⟨t, ht, hle⟩ := F64.roundCents_le h50.1 h50.2.1 hx hpos (h50.2.2 ▸ hs)
    rw [← Bool.not_eq_true, F64.lt_iff scaled_limit.1 ht, ← h50.2.2]
    exact Int.not_lt.2 hle
  · intro hs
    obtain ⟨t, ht, hle⟩ := F64.roundCents_le h500.1 h500.2.1 hx hpos (h500.2.2 ▸ hs)
    rw [F64.le_iff ht scaled_limit.2, ← h500.2.2]
    exact hle

/-! ## New refunds -/

/-- A refund is on the ledger under an approval of exactly it. -/
def Backed (w : World) (r : Refund) : Prop :=
  ∃ id a x s, r.idempotencyKey = .str id ∧ w.approvals.get? id = some a ∧ Covers a r.orderId x r.tenant ∧
    r.amount = x.roundCents ∧ x.scaled = some s ∧ 0 < s ∧ s ≤ Policy.limit Policy.approvalRefundLimit ∧
    ∃ o, Names orders Order.tenant r.orderId r.tenant o

/-- A call put a new refund on the ledger. -/
structure Issued (b : Policy.Bundle) (fmt : Json → String) (c : CallRequest) (w : World) (k : LedgerKey)
    (r : Refund) (w' : World) where
  grant : c.Grant b fmt w
  name : c.toolName = "refunds.issue"
  answered : Answered grant.kwargs w r w'
  miss : ∀ j, grant.key = some j → j ≠ "" → w.sim.refunds.get? j = none
  key : r.idempotencyKey = .ofOption grant.key
  at_key : (∃ j, grant.key = some j ∧ j ≠ "" ∧ k = j) ∨
    (given grant.key = false ∧ ∃ seq : String, k = (("r-" ++ seq : String) : LedgerKey))
  order : r.orderId = answered.orderId
  amount : r.amount = answered.x.roundCents
  tenant : r.tenant = grant.d.tenant
  named : ∃ o, Names orders Order.tenant r.orderId r.tenant o

theorem kwargs_key (g : c.Grant b fmt w) (hname : c.toolName = "refunds.issue") :
    g.kwargs.extra.getD none = g.key := by
  simp only [Enforcer.Granted.kwargs, grant_tool b fmt g hname]
  rfl

/-- What a call leaves in the ledger was there before, or it issued it. -/
theorem ledger_call (c : CallRequest) (w : World) {k : LedgerKey} {r : Refund}
    (h : (c.run b fmt w).state.sim.refunds.get? k = some r) :
    w.sim.refunds.get? k = some r ∨ Nonempty (Issued b fmt c w k r (c.run b fmt w).state) := by
  rcases call_ledger b fmt c w with ⟨hsame, -⟩ | ⟨g, r', hname, ⟨ans⟩, -⟩
  · rw [hsame.1] at h
    exact .inl h
  · have hissued := ans.issued
    rw [kwargs_key g hname] at hissued
    rw [ans.post] at h
    rcases issueRefund_cases hissued with ⟨j, -, -, -, hs'⟩ | ⟨hmiss, hnamed, -, hr, hs'⟩
    · rw [hs'] at h
      exact .inl h
    · rw [hs'] at h
      rcases Dict.get?_insert_cases h with ⟨hk, rfl⟩ | ⟨-, h⟩
      · have horder := congrArg Refund.orderId hr
        have htenant := congrArg Refund.tenant hr
        refine .inr ⟨g, hname, ans, hmiss, congrArg Refund.idempotencyKey hr, ?_, horder,
          congrArg Refund.amount hr, htenant, ?_⟩
        · rw [Refund.key_of_option (congrArg Refund.idempotencyKey hr)] at hk
          by_cases hg : given g.key = true
          · obtain ⟨j, hj, hne⟩ := given_iff.1 hg
            rw [if_pos hg, hj] at hk
            exact .inl ⟨j, hj, hne, hk⟩
          · rw [if_neg hg, congrArg Refund.id hr] at hk
            rw [Bool.not_eq_true] at hg
            exact .inr ⟨hg, _, hk⟩
        · rwa [horder, htenant]
      · exact .inl h

theorem approvals_call (c : CallRequest) (w : World) : (c.run b fmt w).state.approvals = w.approvals := by
  rcases call_ledger b fmt c w with ⟨hsame, -⟩ | ⟨g, r, -, ⟨ans⟩, -⟩
  · exact hsame.2
  · rw [ans.post]

/-- **What a new refund rests on**: it is within the automatic limit, on a call
the policy allowed, or an approval of exactly it is on record. -/
theorem issued_backed {k : LedgerKey} (i : Issued b fmt c w k r w') (happ : w'.approvals = w.approvals) :
    (Policy.decision b (Enforcer.policyDoc i.grant.d c.toolName i.grant.callArgs) = .allow ∧
      (F64.ofInt 50).lt r.amount = false) ∨ Backed w' r := by
  obtain ⟨s, hs, hpos, htier⟩ := issued_tier i.grant i.name i.answered
  rcases htier with ⟨hallow, hle⟩ | ⟨hle, id, a, -, hkey, ha, hst, htool, hargs, ht⟩
  · rw [i.amount]
    exact .inl ⟨hallow, (roundCents_within hs hpos).1 hle⟩
  · refine .inr ⟨id, a, i.answered.x, s, i.key.trans (congrArg Json.ofOption hkey), by rw [happ, ha], ⟨hst, htool, ?_, ?_⟩, i.amount,
      hs, hpos, hle, i.named⟩
    · rwa [i.order]
    · obtain ⟨o, -, -, -, ho⟩ := i.named
      have hd : i.grant.d.tenant = some o.tenant := i.tenant ▸ ho.symm
      rw [i.tenant, hd, ht, Delegation.tenantOrEmpty, hd]
      rfl

/-! ## What every step keeps -/

/-- The books in order: approvals are under their own identifiers, a decided
one was decided by someone else, and a refund is under its key when it has one. -/
structure Sound (w : World) : Prop where
  ids : ∀ id a, w.approvals.get? id = some a → a.id = id ∧ ∃ hex, id = "ap-" ++ hex
  ruled : ∀ id a, w.approvals.get? id = some a → a.status ≠ .pending →
    ∃ approver, a.approver = some approver ∧ approver ≠ a.user
  keys : ∀ k r, w.sim.refunds.get? k = some r → (∃ j : String, k = j ∧ r.idempotencyKey = .str j) ∨
    (r.idempotencyKey.truthy = false ∧ ∃ seq : String, k = (("r-" ++ seq : String) : LedgerKey))

/-- The step creates no approval that is already there. -/
def FreshStep (t : Transition World PlatformOp PlatformAnswer) : Prop :=
  ∀ n, t.input = .create n → t.pre.approvals.get? n.id = none

/-- The identifiers the steps create. -/
def requestedIds (ops : List PlatformOp) : List String :=
  ops.filterMap fun
    | .create n => some n.id
    | _ => none

theorem sound_step {op : PlatformOp} (hw : Sound w) (hf : FreshStep ((platform b fmt).transition w op)) :
    Sound ((platform b fmt).step op w).2 := by
  cases op with
  | call c =>
    have happ := @approvals_call _ b fmt c w
    refine ⟨?_, ?_, fun k r h => ?_⟩
    · show ∀ id a, (c.run b fmt w).state.approvals.get? id = some a → _
      rw [happ]
      exact hw.ids
    · show ∀ id a, (c.run b fmt w).state.approvals.get? id = some a → _
      rw [happ]
      exact hw.ruled
    · rcases ledger_call c w h with h | ⟨⟨i⟩⟩
      · exact hw.keys k r h
      · rw [i.key, truthy_ofOption]
        rcases i.at_key with ⟨j, hj, -, hk⟩ | hid
        · exact .inl ⟨j, hk, ofOption_eq_str.2 hj⟩
        · exact .inr hid
  | create n =>
    refine ⟨fun id a h => ?_, fun id a h hne => ?_, hw.keys⟩
    · rcases Dict.get?_insert_cases h with ⟨rfl, rfl⟩ | ⟨-, h⟩
      · exact ⟨rfl, n.hex, rfl⟩
      · exact hw.ids id a h
    · rcases Dict.get?_insert_cases h with ⟨rfl, rfl⟩ | ⟨-, h⟩
      · exact absurd rfl hne
      · exact hw.ruled id a h hne
  | decide d =>
    simp only [platform]
    rcases w.approvals.decide_cases d with hd | ⟨a', ha', hadm, hd⟩
    · rw [hd]
      exact hw
    · rw [hd]
      refine ⟨fun id a h => ?_, fun id a h hne => ?_, hw.keys⟩
      · rcases Dict.get?_insert_cases h with ⟨rfl, rfl⟩ | ⟨-, h⟩
        · exact hw.ids d.id a' ha'
        · exact hw.ids id a h
      · rcases Dict.get?_insert_cases h with ⟨rfl, rfl⟩ | ⟨-, h⟩
        · exact ⟨d.approver, rfl, hadm.2.2⟩
        · exact hw.ruled id a h hne

/-- A refund's approval stays on record. -/
theorem backed_step {op : PlatformOp} (hf : FreshStep ((platform b fmt).transition w op)) (h : Backed w r) :
    Backed ((platform b fmt).step op w).2 r := by
  obtain ⟨id, a, x, s, hkey, ha, hcovers, hrest⟩ := h
  refine ⟨id, a, x, s, hkey, ?_, hcovers, hrest⟩
  cases op with
  | call c =>
    show (c.run b fmt w).state.approvals.get? id = some a
    rwa [approvals_call]
  | create n =>
    have hne : n.id ≠ id := by
      rintro rfl
      have hnone := hf n rfl
      rw [Machine.transition_pre, ha] at hnone
      cases hnone
    show (w.approvals.insert n.id n.approval).get? id = some a
    rwa [Dict.get?_insert_ne _ _ hne]
  | decide d =>
    simp only [platform]
    rcases w.approvals.decide_cases d with hd | ⟨a', ha', hadm, hd⟩
    · rwa [hd]
    · have hne : d.id ≠ id := by
        rintro rfl
        cases ha.symm.trans ha'
        exact absurd (hadm.1.symm.trans hcovers.status) (by decide)
      rw [hd]
      rwa [Dict.get?_insert_ne _ _ hne]

/-! ## Fresh identifiers -/

theorem mem_requestedIds (ops : List PlatformOp) {id : String} {a : Approval}
    (h : ((platform b fmt).final ops).approvals.get? id = some a) : id ∈ requestedIds ops := by
  induction ops using List.reverseRecOn generalizing a with
  | nil => cases h
  | append_singleton ops op ih =>
    rw [Machine.final_concat] at h
    rw [requestedIds, List.filterMap_append, List.mem_append]
    cases op with
    | call c =>
      have hsame : (c.run b fmt ((platform b fmt).final ops)).state.approvals.get? id = some a := h
      rw [approvals_call] at hsame
      exact .inl (ih hsame)
    | create n =>
      rcases Dict.get?_insert_cases h with ⟨rfl, -⟩ | ⟨-, h⟩
      · exact .inr (by simp)
      · exact .inl (ih h)
    | decide d =>
      have hpost : (((platform b fmt).final ops).approvals.decide d).2.get? id = some a := h
      rcases ((platform b fmt).final ops).approvals.decide_cases d with hd | ⟨a', ha', -, hd⟩
      · rw [hd] at hpost
        exact .inl (ih hpost)
      · rw [hd] at hpost
        rcases Dict.get?_insert_cases hpost with ⟨rfl, -⟩ | ⟨-, hpost⟩
        · exact .inl (ih ha')
        · exact .inl (ih hpost)

theorem freshStep_of_nodup {ops : List PlatformOp} (hn : (requestedIds ops).Nodup) :
    ∀ t ∈ (platform b fmt).run ops, FreshStep t := by
  induction ops using List.reverseRecOn with
  | nil => simp
  | append_singleton ops op ih =>
    rw [requestedIds, List.filterMap_append, List.nodup_append] at hn
    intro t ht
    rw [Machine.run_concat, List.mem_append, List.mem_singleton] at ht
    rcases ht with ht | rfl
    · exact ih hn.1 t ht
    · intro n hop
      rw [Machine.transition_input] at hop
      subst hop
      rw [Machine.transition_pre]
      cases ha : ((platform b fmt).final ops).approvals.get? n.id with
      | none => rfl
      | some a => exact absurd rfl (hn.2.2 n.id (mem_requestedIds ops ha) n.id (by simp))

/-! ## No large refund without its own approval -/

omit [UnicodeData] in
theorem given_approvalId (hex : String) : given (some ("ap-" ++ hex)) = true := by
  simp [given, String.ext_iff]

omit [UnicodeData] in
/-- A refund under an approval's identifier is under its own key. -/
theorem Sound.key_of_approval (hw : Sound w) {k : LedgerKey} {hex : String} (h : w.sim.refunds.get? k = some r)
    (hkey : r.idempotencyKey = .str ("ap-" ++ hex)) : k = (("ap-" ++ hex : String) : LedgerKey) := by
  rcases hw.keys k r h with ⟨j, rfl, hj⟩ | ⟨hg, -⟩
  · cases hkey.symm.trans hj
    rfl
  · rw [hkey] at hg
    cases (given_approvalId hex).symm.trans ((truthy_ofOption (some ("ap-" ++ hex))).symm.trans hg)

omit [UnicodeData] in
/-- A refund at an approval's identifier was issued under it. -/
theorem Sound.approval_of_key (hw : Sound w) {hex : String}
    (h : w.sim.refunds.get? (("ap-" ++ hex : String) : LedgerKey) = some r) :
    r.idempotencyKey = .str ("ap-" ++ hex) := by
  rcases hw.keys _ r h with ⟨j, hj, hkey⟩ | ⟨-, seq, hseq⟩
  · cases hj
    exact hkey
  · simp [String.ext_iff] at hseq

/-- Every refund is within the automatic limit, or an approval backs it. -/
def LargeBacked (w : World) : Prop :=
  ∀ k r, w.sim.refunds.get? k = some r → (F64.ofInt 50).lt r.amount = false ∨ Backed w r

theorem largeBacked_step {op : PlatformOp} (hf : FreshStep ((platform b fmt).transition w op))
    (h : LargeBacked w) : LargeBacked ((platform b fmt).step op w).2 := by
  have hold : ∀ k r, w.sim.refunds.get? k = some r →
      (F64.ofInt 50).lt r.amount = false ∨ Backed ((platform b fmt).step op w).2 r := fun k r hr =>
    (h k r hr).imp_right (backed_step hf)
  intro k r hr
  cases op with
  | call c =>
    rcases ledger_call c w hr with hr | ⟨⟨i⟩⟩
    · exact hold k r hr
    · exact (issued_backed i (approvals_call c w)).imp_left And.right
  | create n => exact hold k r hr
  | decide d => exact hold k r hr

theorem sound_init : Sound (platform b fmt).init :=
  ⟨fun _ _ h => (by cases h), fun _ _ h => (by cases h), fun _ _ h => (by cases h)⟩

/-- **No large refund without its own approval.** After any calls, requests and
rulings, every refund above the automatic limit is within the ceiling and
under the identifier of an approval of exactly it, granted by someone other
than its requester; and two such refunds have two approvals. -/
theorem large_refund_backed (b : Policy.Bundle) (fmt : Json → String) (ops : List PlatformOp)
    (hn : (requestedIds ops).Nodup) :
    let w := (platform b fmt).final ops
    (∀ k r, w.sim.refunds.get? k = some r → (F64.ofInt 50).lt r.amount = true →
      r.amount.le (F64.ofInt 500) = true ∧ ∃ a x approver, r.idempotencyKey = .str a.id ∧
        w.approvals.get? a.id = some a ∧ a.status = .approved ∧ a.tool = "refunds.issue" ∧
        a.args.pyEq (refundArgs r.orderId x) = true ∧ r.amount = x.roundCents ∧ r.tenant = some a.tenant ∧
        a.approver = some approver ∧ approver ≠ a.user) ∧
    (∀ k k' r r', w.sim.refunds.get? k = some r → w.sim.refunds.get? k' = some r' →
      (F64.ofInt 50).lt r.amount = true → (F64.ofInt 50).lt r'.amount = true → k ≠ k' →
      r.idempotencyKey ≠ r'.idempotencyKey) := by
  intro w
  obtain ⟨hsound, hlarge⟩ : Sound w ∧ LargeBacked w :=
    Machine.invariant (m := platform b fmt) (G := FreshStep) (I := fun w => Sound w ∧ LargeBacked w)
      ⟨sound_init, fun k r h => by cases h⟩
      (fun _ _ h hf => ⟨sound_step h.1 hf, largeBacked_step hf h.2⟩) ops (freshStep_of_nodup hn)
  have hbacked : ∀ {k r}, w.sim.refunds.get? k = some r → (F64.ofInt 50).lt r.amount = true → Backed w r := by
    intro k r hr hlt
    exact (hlarge k r hr).resolve_left (by simp [hlt])
  refine ⟨fun k r hr hlt => ?_, fun k k' r r' hr hr' hlt hlt' hne heq => hne ?_⟩
  · obtain ⟨id, a, x, s, hkey, ha, hcovers, hamount, hs, hpos, hle, -⟩ := hbacked hr hlt
    obtain ⟨hid, -⟩ := hsound.ids id a ha
    obtain ⟨approver, happrover, hother⟩ := hsound.ruled id a ha (by rw [hcovers.status]; decide)
    subst hid
    exact ⟨hamount ▸ (roundCents_within hs hpos).2 hle, a, x, approver, hkey, ha, hcovers.status, hcovers.tool,
      hcovers.args, hamount, hcovers.tenant, happrover, hother⟩
  · -- both are under the identifier of the one approval
    obtain ⟨id, a, -, -, hkey, ha, -⟩ := hbacked hr hlt
    obtain ⟨-, hex, rfl⟩ := hsound.ids id a ha
    rw [hsound.key_of_approval hr hkey, hsound.key_of_approval hr' (heq ▸ hkey)]

/-! ## An approved refund, issued once -/

/-- The request is for a refund, by a verified delegation and on these coerced
arguments. -/
structure CallRequest.Asks (c : CallRequest) (d : Delegation) (callArgs : Args) : Prop where
  name : c.toolName = "refunds.issue"
  verified : ∃ subject, c.token = some subject ∧ c.verifier subject = .ok d
  coerced : coerceArgs refundSchema c.args = .ok callArgs

/-- The request carries an approval's identifier, policy requires approval, and
the approval verifies for it. -/
structure CallRequest.Approved (b : Policy.Bundle) (w : World) (c : CallRequest) (id : String) (d : Delegation)
    (callArgs : Args) : Prop where
  asks : c.Asks d callArgs
  carries : c.Carries id
  decision : Policy.decision b (Enforcer.policyDoc d c.toolName callArgs) = .requireApproval
  verified : w.approvals.verify ⟨id, c.toolName, callArgs, d.user, d.workload, d.tenantOrEmpty⟩ = true

/-- The request takes a key that is not on the ledger yet for a refund policy
allows outright. -/
def CallRequest.TakesKey (b : Policy.Bundle) (w : World) (c : CallRequest) (id : String) : Prop :=
  w.sim.refunds.get? id = none ∧ c.Carries id ∧ ∃ d callArgs, c.Asks d callArgs ∧
    Policy.decision b (Enforcer.policyDoc d c.toolName callArgs) = .allow

/-- The answer is the refund that was asked for, and the ledger holds it, under
the key and nowhere else. -/
def IssuedOnce (id : String) (d : Delegation) (callArgs : Args) (res : ToolResult) (w' : World) : Prop :=
  ∃ r orderId x, res.result = some r.toJson ∧ callArgs.get? "order_id" = some orderId ∧
    callArgs.get? "amount" = some (.float x) ∧ r.orderId = orderId ∧ r.amount = x.roundCents ∧
    r.tenant = d.tenant ∧ w'.sim.refunds.get? id = some r ∧
    ∀ k r', w'.sim.refunds.get? k = some r' → (r'.idempotencyKey = .str id ↔ k = id)

/-- What an identifier's refund rests on, in a run where no allowed call took
the key. -/
def KeyBacked (id : String) (w : World) : Prop :=
  ∀ r, w.sim.refunds.get? id = some r → r.idempotencyKey = .str id → Backed w r

/-- The grant of a request is for what it asks. -/
theorem grant_asks (g : c.Grant b fmt w) (hname : c.toolName = "refunds.issue") : c.Asks g.d g.callArgs := by
  refine ⟨hname, ⟨g.subject, g.token_eq, g.verified⟩, ?_⟩
  have hcoerced := g.coerced
  rwa [grant_tool b fmt g hname] at hcoerced

theorem Asks.unique {d d' : Delegation} {callArgs callArgs' : Args} (h : c.Asks d callArgs)
    (h' : c.Asks d' callArgs') : d = d' ∧ callArgs = callArgs' := by
  obtain ⟨subject, ht, hv⟩ := h.verified
  obtain ⟨subject', ht', hv'⟩ := h'.verified
  cases ht.symm.trans ht'
  exact ⟨Except.ok.inj (hv.symm.trans hv'), Except.ok.inj (h.coerced.symm.trans h'.coerced)⟩

/-- The key of a grant is the identifier the request carries. -/
theorem grant_carries_iff (g : c.Grant b fmt w) (hname : c.toolName = "refunds.issue") (id : String) :
    c.Carries id ↔ g.key = some id := by
  have hk := g.key_eq
  have hidem : (refundsIssue worldBackend).idempotent = true := rfl
  rw [Enforcer.idempotencyKey, grant_tool b fmt g hname, hidem] at hk
  cases hv : c.args.get? "approval_id" with
  | none =>
    simp only [hv, Except.ok.injEq] at hk
    simp [CallRequest.Carries, hv, ← hk]
  | some v =>
    simp only [hv, Bool.true_and] at hk
    cases htruthy : v.truthy with
    | false =>
      simp only [htruthy, Bool.false_eq_true, if_false, Except.ok.injEq] at hk
      simp [CallRequest.Carries, hv, htruthy, ← hk]
    | true =>
      simp only [htruthy, if_true] at hk
      obtain ⟨key, hstr, hkey⟩ := map_ok hk
      simp [CallRequest.Carries, hv, htruthy, hstr, ← hkey]

theorem keyBacked_step {id : String} {op : PlatformOp} (hf : FreshStep ((platform b fmt).transition w op))
    (htakes : ∀ c, op = .call c → ¬ c.TakesKey b w id) (h : KeyBacked id w) :
    KeyBacked id ((platform b fmt).step op w).2 := by
  have hold : ∀ r, w.sim.refunds.get? id = some r → r.idempotencyKey = .str id →
      Backed ((platform b fmt).step op w).2 r := fun r hr hkey => backed_step hf (h r hr hkey)
  intro r hr hkey
  cases op with
  | call c =>
    rcases ledger_call c w hr with hr | ⟨⟨i⟩⟩
    · exact hold r hr hkey
    · rcases issued_backed i (approvals_call c w) with ⟨hallow, -⟩ | hbacked
      · -- the allowed call would have taken the key
        have hgkey : i.grant.key = some id := ofOption_eq_str.1 (i.key.symm.trans hkey)
        have hne : id ≠ "" := by
          rintro rfl
          rcases i.at_key with ⟨j, hj, hne, -⟩ | ⟨-, seq, hseq⟩
          · exact hne (Option.some.inj (hj.symm.trans hgkey))
          · simp [String.ext_iff] at hseq
        exact absurd ⟨i.miss id hgkey hne, (grant_carries_iff i.grant i.name id).2 hgkey, _, _,
          grant_asks i.grant i.name, hallow⟩ (htakes c rfl)
      · exact hbacked
  | create n => exact hold r hr hkey
  | decide d => exact hold r hr hkey

omit [UnicodeData] in
/-- No order is of a tenant without a name. -/
theorem orders_tenant {id : Json} {o : Order} : ¬ Names orders Order.tenant id (some "") o := by
  rintro ⟨k, -, ho, ht⟩
  have hall : ∀ o ∈ orders.values, o.tenant ≠ "" := by
    simp only [orders, Dict.values, List.map_cons, List.map_nil, List.forall_mem_cons]
    decide
  exact hall o (Dict.mem_values.2 ⟨k, ho⟩) (Option.some.inj ht)

omit [UnicodeData] in
/-- The approval that covers a refund on the ledger covers no other request. -/
theorem covers_same {a : Approval} {orderId : Json} {x y : F64} {s : Int} (hcovers : Covers a r.orderId x r.tenant)
    (hamount : r.amount = x.roundCents) (hs : x.scaled = some s) (hpos : 0 < s)
    (hnamed : ∃ o, Names orders Order.tenant r.orderId r.tenant o)
    (hargs : a.args.pyEq (refundArgs orderId y) = true) : r.orderId = orderId ∧ r.amount = y.roundCents := by
  obtain ⟨o, k, hk, -⟩ := hnamed
  have h1 := Args.pyEq_iff.1 hcovers.args
  have h2 := Args.pyEq_iff.1 hargs
  have hleft : ∀ id z, (refundArgs id z).get? "order_id" = some id ∧
      (refundArgs id z).get? "amount" = some (.float z) := fun _ _ => ⟨rfl, rfl⟩
  have horder1 := h1 "order_id"
  have horder2 := h2 "order_id"
  have hamount1 := h1 "amount"
  have hamount2 := h2 "amount"
  rw [(hleft _ _).1] at horder1 horder2
  rw [(hleft _ _).2] at hamount1 hamount2
  cases ho : a.args.get? "order_id" with
  | none => rw [ho] at horder1; exact horder1.elim
  | some v =>
    cases ha : a.args.get? "amount" with
    | none => rw [ha] at hamount1; exact hamount1.elim
    | some u =>
      rw [ho] at horder1 horder2
      rw [ha] at hamount1 hamount2
      refine ⟨?_, ?_⟩
      · rw [hk] at horder1 ⊢
        have hv : v = .str k := Json.pyEq_str_right.1 horder1
        rw [hv] at horder2
        exact (Json.pyEq_str.1 horder2).symm
      · rw [hamount]
        exact F64.roundCents_congr hs (Json.scaled_of_pyEq hamount1 hamount2 hs) hpos

omit [UnicodeData] in
/-- A refund that was on the ledger under the approval is the one this request
asks for. -/
theorem keyBacked_same {hex : String} {a : Approval} {orderId : Json} {y : F64} {d : Delegation}
    (hw : Sound w) (hkb : KeyBacked ("ap-" ++ hex) w) (hr : w.sim.refunds.get? ("ap-" ++ hex) = some r)
    (ha : w.approvals.get? ("ap-" ++ hex) = some a) (hargs : a.args.pyEq (refundArgs orderId y) = true)
    (ht : a.tenant = d.tenantOrEmpty) : r.orderId = orderId ∧ r.amount = y.roundCents ∧ r.tenant = d.tenant := by
  have hkey := hw.approval_of_key hr
  obtain ⟨id, a', x, s, hid, ha', hcovers, hamount, hs, hpos, -, hnamed⟩ := hkb r hr hkey
  cases hkey.symm.trans hid
  cases ha.symm.trans ha'
  obtain ⟨horder, hround⟩ := covers_same hcovers hamount hs hpos hnamed hargs
  refine ⟨horder, hround, ?_⟩
  have htenant : r.tenant = some d.tenantOrEmpty := by rw [hcovers.tenant, ht]
  cases hd : d.tenant with
  | some t =>
    rw [htenant, Delegation.tenantOrEmpty, hd]
    rfl
  | none =>
    -- an approval of no tenant would cover an order of no tenant
    obtain ⟨o, ho⟩ := hnamed
    rw [htenant, Delegation.tenantOrEmpty, hd] at ho
    exact absurd ho orders_tenant

/-- The call that an approval verifies for answers the refund approved. -/
theorem issuedOnce_of_approved {id : String} {d : Delegation} {callArgs : Args} {res : ToolResult}
    (hw : Sound w) (hkb : KeyBacked id w) (hpost : Sound (c.run b fmt w).state)
    (happroved : c.Approved b w id d callArgs) (hres : (c.run b fmt w).result = .ok res)
    (hok : res.outcome = .ok) (hnoerror : ∀ v, res.result = some v → v.field "error" = none) :
    IssuedOnce id d callArgs res (c.run b fmt w).state := by
  rcases call_ledger b fmt c w with ⟨-, hnone⟩ | ⟨g, r, hname, ⟨ans⟩, hanswer⟩
  · have herror := hnoerror _ (hnone happroved.asks.name res hres hok)
    cases herror
  obtain ⟨rfl, rfl⟩ := Asks.unique (grant_asks g hname) happroved.asks
  obtain ⟨a, ha, -, ht, hmatch⟩ := ApprovalStore.verify_iff.1 happroved.verified
  obtain ⟨-, hex, rfl⟩ := hw.ids id a ha
  have hargs : a.args.pyEq (refundArgs ans.orderId ans.x) = true := by
    simp only [VerifyRequest.matchesApproval, Bool.and_eq_true, decide_eq_true_eq] at hmatch
    rw [Args.pyEq_iff] at hmatch ⊢
    intro k
    rw [← answered_args g hname ans]
    simpa using hmatch.1.1.2 k
  have hissued := ans.issued
  rw [kwargs_key g hname, (grant_carries_iff g hname _).1 happroved.carries] at hissued
  have hsim : (c.run b fmt w).state.sim = ans.s' := congrArg World.sim ans.post
  -- on the ledger under the key, for this request, however it got there
  have hledger : ans.s'.refunds.get? ("ap-" ++ hex) = some r ∧ r.orderId = ans.orderId ∧
      r.amount = ans.x.roundCents ∧ r.tenant = g.d.tenant := by
    rcases issueRefund_cases hissued with ⟨j, hj, -, hr, hs'⟩ | ⟨-, -, -, hr, hs'⟩
    · cases hj
      exact ⟨hs' ▸ hr, keyBacked_same hw hkb hr ha hargs ht⟩
    · refine ⟨?_, congrArg Refund.orderId hr, congrArg Refund.amount hr, congrArg Refund.tenant hr⟩
      have hrkey : r.key = _ := @Refund.key_of_option r (some ("ap-" ++ hex)) (congrArg Refund.idempotencyKey hr)
      rw [given_approvalId, if_pos rfl, Option.getD_some] at hrkey
      rw [hs', ← hrkey]
      exact Dict.get?_insert_self _ _ _
  obtain ⟨hget, horder, hround, htenant⟩ := hledger
  refine ⟨r, ans.orderId, ans.x, hanswer res hres hok, ans.order_eq,
    ans.amount_eq.trans (congrArg some (answered_amount g hname ans)), horder, hround, htenant,
    hsim ▸ hget, fun k r' hr' => ⟨hpost.key_of_approval hr', ?_⟩⟩
  rintro rfl
  exact hpost.approval_of_key hr'

/-- **An approved refund is issued once, and is the one approved**, in every
run where no call that policy allows outright takes the approval's identifier
as its key. -/
theorem approved_refund_once (b : Policy.Bundle) (fmt : Json → String) (ops : List PlatformOp) (id : String)
    (hn : (requestedIds ops).Nodup)
    (hkey : ∀ t ∈ (platform b fmt).run ops, ∀ c, t.input = .call c → ¬ c.TakesKey b t.pre id) :
    ∀ t ∈ (platform b fmt).run ops, ∀ c run res d callArgs, t.input = .call c → t.output = .called run →
      c.Approved b t.pre id d callArgs → run.result = .ok res → res.outcome = .ok →
      (∀ v, res.result = some v → v.field "error" = none) → IssuedOnce id d callArgs res t.post := by
  let G : Transition World PlatformOp PlatformAnswer → Prop := fun t =>
    FreshStep t ∧ ∀ c, t.input = .call c → ¬ c.TakesKey b t.pre id
  have hG : ∀ t ∈ (platform b fmt).run ops, G t := fun t ht => ⟨freshStep_of_nodup hn t ht, hkey t ht⟩
  intro t ht c run res d callArgs hin hout happroved hres hok hnoerror
  obtain ⟨w, op, rfl, hw, hkb⟩ := Machine.invariant_run (G := G) (I := fun w => Sound w ∧ KeyBacked id w)
    ⟨sound_init, fun r h => by cases h⟩
    (fun _ _ h hg => ⟨sound_step h.1 hg.1, keyBacked_step hg.1 hg.2 h.2⟩) ops hG t ht
  rw [Machine.transition_input] at hin
  subst hin
  cases hout
  exact issuedOnce_of_approved hw hkb (sound_step hw (hG _ ht).1) happroved hres hok hnoerror

/-! ## A run with a squatted key -/

/-- A refund asked for through the agent, in `acme`. -/
def refundCall (user : String) (orderId : String) (amount : Int) (approvalId : String) : CallRequest where
  workload := none
  verifier := fun _ => .ok ⟨user, Policy.trustedAgent, "tool-server", ["support_rep"], some "acme"⟩
  token := some "t"
  toolName := "refunds.issue"
  args := Dict.ofList [("order_id", .str orderId), ("amount", .int amount), ("approval_id", .str approvalId)]
  workloadToken := none

/-- A manager approves alice's refund of 200. -/
def approvedRefund : List PlatformOp :=
  [.create ⟨"1", "refunds.issue", Dict.ofList [("order_id", .str "o-1002"), ("amount", .int 200)], "alice",
      Policy.trustedAgent, "above the limit", "acme", F64.ofInt 1⟩,
    .decide ⟨"ap-1", "manager", true, none, "acme", F64.ofInt 2⟩]

/-- alice issues it, twice. -/
def repeatedRefund : List PlatformOp :=
  approvedRefund ++ [.call (refundCall "alice" "o-1002" 200 "ap-1")] ++
    [.call (refundCall "alice" "o-1002" 200 "ap-1")]

/-- bob sends her approval's identifier with a refund of his own, first. -/
def squattedRefund : List PlatformOp :=
  approvedRefund ++ [.call (refundCall "bob" "o-1001" 10 "ap-1")] ++
    [.call (refundCall "alice" "o-1002" 200 "ap-1")]

/-- The shipped policy, over the catalogue. -/
def shippedPolicy : Policy.Bundle := Policy.bundle toolNames none

omit [UnicodeData] in
theorem repeatedRefund_backed :
    let w := (@platform asciiData shippedPolicy fun _ => "").final repeatedRefund
    ∃ r a x approver, w.sim.refunds.get? "ap-1" = some r ∧ r.amount.le (F64.ofInt 500) = true ∧
      r.idempotencyKey = .str a.id ∧ w.approvals.get? a.id = some a ∧ a.status = .approved ∧
      a.args.pyEq (refundArgs r.orderId x) = true ∧ a.approver = some approver ∧ approver ≠ a.user := by
  intro w
  have hlarge : (w.sim.refunds.get? "ap-1").map (fun r => (F64.ofInt 50).lt r.amount) = some true := by
    decide +kernel
  obtain ⟨r, hr, hlt⟩ := Option.map_eq_some_iff.1 hlarge
  obtain ⟨hle, a, x, approver, h1, h2, h3, -, h4, -, -, h5, h6⟩ :=
    (@large_refund_backed asciiData shippedPolicy (fun _ => "") repeatedRefund (by decide)).1 "ap-1" r hr hlt
  exact ⟨r, a, x, approver, hr, hle, h1, h2, h3, h4, h5, h6⟩

/-- alice's request, as the tool server coerces it. -/
def aliceArgs : Args :=
  (@coerceArgs asciiData refundSchema (refundCall "alice" "o-1002" 200 "ap-1").args).toOption.getD ∅

def aliceDelegation : Delegation := ⟨"alice", Policy.trustedAgent, "tool-server", ["support_rep"], some "acme"⟩

omit [UnicodeData] in
theorem alice_asks :
    @CallRequest.Asks asciiData (refundCall "alice" "o-1002" 200 "ap-1") aliceDelegation aliceArgs := by
  let _ := asciiData
  refine ⟨rfl, ⟨"t", rfl, rfl⟩, ?_⟩
  obtain ⟨a, ha, -⟩ := exists_ok (p := fun _ => true)
    (e := coerceArgs refundSchema (refundCall "alice" "o-1002" 200 "ap-1").args) (by decide +kernel)
  rw [aliceArgs, ha]
  rfl

omit [UnicodeData] in
theorem alice_decision : Policy.decision shippedPolicy
    (Enforcer.policyDoc aliceDelegation "refunds.issue" aliceArgs) = .requireApproval := by decide +kernel

/-- The call ends well and reports no error. -/
def endsWell (res : ToolResult) : Bool :=
  decide (res.outcome = .ok) && res.result.all fun v => (v.field "error").isNone

omit [UnicodeData] in
theorem endsWell_iff {res : ToolResult} : endsWell res = true ↔
    res.outcome = .ok ∧ ∀ v, res.result = some v → v.field "error" = none := by
  simp [endsWell, Option.all_eq_true]

omit [UnicodeData] in
theorem repeatedRefund_issued_once :
    ∃ res, IssuedOnce "ap-1" aliceDelegation aliceArgs res
      ((@platform asciiData shippedPolicy fun _ => "").final repeatedRefund) := by
  let _ := asciiData
  let c := refundCall "alice" "o-1002" 200 "ap-1"
  let m := platform shippedPolicy fun _ => ""
  let w := m.final (approvedRefund ++ [.call c])
  have hlast : m.transition w (.call c) ∈ m.run repeatedRefund := by
    rw [repeatedRefund, m.run_concat]
    exact List.mem_append_right _ (List.mem_singleton_self _)
  obtain ⟨res, hres, hwell⟩ := exists_ok (e := (c.run shippedPolicy (fun _ => "") w).result) (p := endsWell)
    (by decide +kernel)
  obtain ⟨hok, hnoerror⟩ := endsWell_iff.1 hwell
  refine ⟨res, approved_refund_once shippedPolicy (fun _ => "") repeatedRefund "ap-1" (by decide) ?_ _ hlast
    c _ res _ _ rfl rfl ⟨alice_asks, ⟨.str "ap-1", rfl, rfl, rfl⟩, alice_decision, by decide +kernel⟩ hres hok hnoerror⟩
  -- her calls are the only ones, and policy requires approval of them
  rintro t ht c' hin ⟨-, -, d, callArgs, hasks, hallow⟩
  have hc : c' = c := by
    obtain ⟨s, op, rfl⟩ := Machine.mem_run ht
    have hop : op ∈ repeatedRefund := m.input_mem ht
    rw [Machine.transition_input] at hin
    subst hin
    simpa [repeatedRefund, approvedRefund] using hop
  subst hc
  obtain ⟨rfl, rfl⟩ := Asks.unique alice_asks hasks
  exact absurd (alice_decision.symm.trans hallow) (by decide)

omit [UnicodeData] in
/-- The approved call answers bob's refund: not the one approved. -/
theorem squattedRefund_not_issued :
    ¬ ∀ t ∈ (@platform asciiData shippedPolicy fun _ => "").run squattedRefund, ∀ c run res d callArgs,
      t.input = .call c → t.output = .called run →
      @CallRequest.Approved asciiData shippedPolicy t.pre c "ap-1" d callArgs → run.result = .ok res →
      res.outcome = .ok → (∀ v, res.result = some v → v.field "error" = none) →
      IssuedOnce "ap-1" d callArgs res t.post := by
  intro h
  let _ := asciiData
  let c := refundCall "alice" "o-1002" 200 "ap-1"
  let m := platform shippedPolicy fun _ => ""
  let w := m.final (approvedRefund ++ [.call (refundCall "bob" "o-1001" 10 "ap-1")])
  have hlast : m.transition w (.call c) ∈ m.run squattedRefund := by
    rw [squattedRefund, m.run_concat]
    exact List.mem_append_right _ (List.mem_singleton_self _)
  have happroved : c.Approved shippedPolicy w "ap-1" aliceDelegation aliceArgs :=
    ⟨alice_asks, ⟨.str "ap-1", rfl, rfl, rfl⟩, alice_decision, by decide +kernel⟩
  obtain ⟨res, hres, hwell⟩ := exists_ok (e := (c.run shippedPolicy (fun _ => "") w).result) (p := endsWell)
    (by decide +kernel)
  obtain ⟨hok, hnoerror⟩ := endsWell_iff.1 hwell
  obtain ⟨r, orderId, x, -, horder, -, heq, -, -, hr, -⟩ := h _ hlast c _ res _ _ rfl rfl
    happroved hres hok hnoerror
  have hledger : ((m.step (.call c) w).2.sim.refunds.get? "ap-1").map (fun r => Policy.isStr "o-1001" r.orderId) =
      some true := by decide +kernel
  have hasked : (aliceArgs.get? "order_id").map (Policy.isStr "o-1001") = some false := by decide +kernel
  rw [Machine.transition_post] at hr
  rw [hr, Option.map_some, heq] at hledger
  rw [horder, Option.map_some, Option.some.inj hledger] at hasked
  cases hasked

end AgentPlatform
