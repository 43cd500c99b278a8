/-
What the handlers of the catalogue do.

`buildTools_cases` names the seven tools. A handler binds its arguments and
then is one method of the backend, so what the backend's methods keep of the
state the handlers keep (`handler_keeps`); `refundsIssue_cases` is the one
that writes the ledger.
-/
import AgentPlatform.Tools

namespace AgentPlatform

section Handlers

variable {σ : Type}

/-- The method relates the state before to the state after. -/
def Method.Keeps (P : σ → σ → Prop) (m : Method σ) : Prop := ∀ subject s, P s (m subject s).2

theorem bindArgs_ok {params : List String} {takesKey : Bool} {kw : Kwargs} {vs : List Json}
    (h : bindArgs params takesKey kw = .ok vs) :
    (∀ k v, kw.args.get? k = some v → k ∈ params) ∧
      List.Forall₂ (fun p v => kw.args.get? p = some v) params vs := by
  unfold bindArgs at h
  split at h
  · cases h
  rename_i hkeys
  simp only [Bool.or_eq_true, not_or, List.any_eq_true, not_exists, not_and, decide_eq_true_eq,
    not_not] at hkeys
  refine ⟨fun k v hk => hkeys.1 k (Dict.mem_keys.2 ⟨v, hk⟩), ?_⟩
  clear hkeys
  induction params generalizing vs with
  | nil =>
    simp only [List.mapM_nil, pure, Except.pure, Except.ok.injEq] at h
    subst h
    exact .nil
  | cons p params ih =>
    simp only [List.mapM_cons, bind, Except.bind, pure, Except.pure] at h
    cases hp : kw.args.get? p with
    | none => simp [hp] at h
    | some v =>
      simp only [hp] at h
      split at h
      · cases h
      · rename_i ws hws
        cases h
        exact .cons hp (ih hws)

theorem orElse_eq (m : Method σ) (fallback : Json) (subject : Option String) (s : σ) :
    orElse m fallback subject s =
      ((m subject s).1.map fun v => if v.truthy then v else fallback, (m subject s).2) := by
  unfold orElse
  rcases m subject s with ⟨_ | v, s'⟩ <;> rfl

variable {P : σ → σ → Prop}

theorem Method.Keeps.orElse {m : Method σ} (h : m.Keeps P) (fallback : Json) :
    (AgentPlatform.orElse m fallback).Keeps P := by
  intro subject s
  rw [orElse_eq]
  exact h subject s

theorem keeps_raising (hrefl : ∀ s, P s s) (e : Exn) : (raising e : Method σ).Keeps P := fun _ s => hrefl s

/-- A read handler raises before it reaches the backend, or answers the
method's record, or that there is none. -/
theorem readHandler_cases (param what : String) (method : Json → Option String → Method σ) (kw : Kwargs) :
    (∃ e, readHandler param what method kw = raising e) ∨
    ∃ id, kw.args.get? param = some id ∧
      readHandler param what method kw = orElse (method id kw.tenant) (notFound what) := by
  unfold readHandler
  split
  · rename_i id hb
    obtain ⟨-, hargs⟩ := bindArgs_ok hb
    cases hargs with
    | cons hid _ => exact .inr ⟨id, hid, rfl⟩
  · exact .inl ⟨_, rfl⟩
  · exact .inl ⟨_, rfl⟩

/-- A read handler called with its one argument reaches the backend. -/
theorem readHandler_bound {param what : String} {method : Json → Option String → Method σ} {kw : Kwargs} {id : Json}
    (hid : kw.args.get? param = some id) (honly : ∀ k v, kw.args.get? k = some v → k = param)
    (hextra : kw.extra = none) :
    readHandler param what method kw = orElse (method id kw.tenant) (notFound what) := by
  have hkeys : kw.args.keys.any (fun k => decide (k ∉ [param])) = false := by
    simp only [List.any_eq_false, decide_eq_true_eq, List.mem_singleton, not_not]
    intro k hk
    obtain ⟨v, hv⟩ := Dict.mem_keys.1 hk
    exact honly k v hv
  have hbind : bindArgs [param] false kw = .ok [id] := by
    simp only [bindArgs, hkeys, hextra, Option.isSome_none, Bool.false_and, Bool.or_self, Bool.false_eq_true, if_false,
      List.mapM_cons, List.mapM_nil, hid]
    rfl
  simp only [readHandler, hbind]

theorem keeps_readHandler (hrefl : ∀ s, P s s) {param what : String} {method : Json → Option String → Method σ}
    (h : ∀ v tenant, (method v tenant).Keeps P) (kw : Kwargs) : (readHandler param what method kw).Keeps P := by
  rcases readHandler_cases param what method kw with ⟨e, he⟩ | ⟨id, -, he⟩
  · exact he ▸ keeps_raising hrefl e
  · exact he ▸ (h id kw.tenant).orElse _

end Handlers

section Catalogue

variable [UnicodeData] {σ : Type} {b : Backend σ}

/-- The keys the enforcement point sets itself. -/
def reservedKeys : List String := ["agent", "user", "tool", "roles", "tenant"]

/-- A tool of the catalogue is one of the seven. -/
theorem buildTools_cases {name : String} {tool : Tool σ}
    (h : (buildTools b).get? name = some tool) :
    (name = "crm.customer.read" ∧ tool = crmCustomerRead b) ∨
    (name = "crm.orders.list" ∧ tool = crmOrdersList b) ∨
    (name = "tickets.read" ∧ tool = ticketsRead b) ∨
    (name = "tickets.reply.draft" ∧ tool = ticketsReplyDraft b) ∨
    (name = "refunds.quote" ∧ tool = refundsQuote b) ∨
    (name = "refunds.issue" ∧ tool = refundsIssue b) ∨
    (name = "privacy.pii.read" ∧ tool = privacyPiiRead b) := by
  have hm := Dict.mem_entries.2 h
  simp only [buildTools, catalogue, List.map_cons, List.map_nil, List.mem_cons, Prod.mk.injEq,
    List.not_mem_nil, or_false] at hm
  exact hm

/-- No tool of the catalogue declares a reserved name, or `approval_id`. -/
theorem buildTools_undeclared {name : String} {tool : Tool σ}
    (h : (buildTools b).get? name = some tool) {k : String} (hk : k ∈ "approval_id" :: reservedKeys) :
    tool.properties.get? k = none := by
  have hall : ∀ p ∈ [customerIdSchema, ticketIdSchema, replySchema, orderIdSchema, refundSchema],
      ∀ k ∈ "approval_id" :: reservedKeys, p.get? k = none := by decide
  have hp : tool.properties ∈ [customerIdSchema, ticketIdSchema, replySchema, orderIdSchema, refundSchema] := by
    rcases buildTools_cases h with ⟨-, rfl⟩ | ⟨-, rfl⟩ | ⟨-, rfl⟩ | ⟨-, rfl⟩ | ⟨-, rfl⟩ | ⟨-, rfl⟩ | ⟨-, rfl⟩ <;>
      simp [crmCustomerRead, crmOrdersList, ticketsRead, ticketsReplyDraft, refundsQuote, refundsIssue,
        privacyPiiRead]
  exact hall _ hp k hk

omit [UnicodeData] in
/-- `crm.orders.list` raises before it reaches the backend, or answers the
backend's list under `orders`. -/
theorem crmOrdersList_cases (b : Backend σ) (kw : Kwargs) :
    (∃ e, (crmOrdersList b).handler kw = raising e) ∨
    ∃ customerId, (crmOrdersList b).handler kw = fun subject s =>
      ((b.listOrders customerId kw.tenant subject s).1.map fun v => .obj [("orders", v)],
        (b.listOrders customerId kw.tenant subject s).2) := by
  simp only [crmOrdersList]
  split
  · rename_i customerId _
    refine .inr ⟨customerId, ?_⟩
    funext subject s
    rcases b.listOrders customerId kw.tenant subject s with ⟨_ | v, s'⟩ <;> rfl
  · exact .inl ⟨_, rfl⟩
  · exact .inl ⟨_, rfl⟩

omit [UnicodeData] in
/-- `tickets.reply.draft` raises before it reaches the backend, or is the
backend's `draft_reply` on the two arguments. -/
theorem ticketsReplyDraft_cases (b : Backend σ) (kw : Kwargs) :
    (∃ e, (ticketsReplyDraft b).handler kw = raising e) ∨
    ∃ ticketId body, kw.args.get? "body" = some body ∧
      (ticketsReplyDraft b).handler kw = orElse (b.draftReply ticketId body kw.tenant) (notFound "ticket") := by
  simp only [ticketsReplyDraft]
  split
  · rename_i ticketId body hb
    obtain ⟨-, hargs⟩ := bindArgs_ok hb
    obtain _ | ⟨-, _ | ⟨hbody, -⟩⟩ := hargs
    exact .inr ⟨ticketId, body, hbody, rfl⟩
  · exact .inl ⟨_, rfl⟩
  · exact .inl ⟨_, rfl⟩

/-- `refunds.issue` raises before it reaches the backend, or is the backend's
`issue_refund` on the two arguments, the tenant and the key. -/
theorem refundsIssue_cases (b : Backend σ) (kw : Kwargs) :
    (∃ e, (refundsIssue b).handler kw = raising e) ∨
    ∃ orderId amount x, kw.args.get? "order_id" = some orderId ∧ kw.args.get? "amount" = some amount ∧
      Py.float amount = .ok x ∧ (∀ k v, kw.args.get? k = some v → k = "order_id" ∨ k = "amount") ∧
      (refundsIssue b).handler kw =
        orElse (b.issueRefund orderId x kw.tenant (kw.extra.getD none)) (notFound "order") := by
  simp only [refundsIssue]
  split
  · rename_i orderId amount hb
    obtain ⟨hkeys, hargs⟩ := bindArgs_ok hb
    cases hx : Py.float amount with
    | error e => exact .inl ⟨e, rfl⟩
    | ok x =>
      cases hargs with
      | cons h1 h2 =>
        cases h2 with
        | cons h2 _ => exact .inr ⟨orderId, amount, x, h1, h2, hx, by simpa using hkeys, rfl⟩
  · exact .inl ⟨_, rfl⟩
  · exact .inl ⟨_, rfl⟩

/-- The tools declare the same over every backend. -/
theorem buildTools_declares {τ : Type} (b' : Backend τ) {name : String} {tool : Tool σ}
    (h : (buildTools b).get? name = some tool) :
    ∃ tool', (buildTools b').get? name = some tool' ∧ tool'.properties = tool.properties := by
  rcases buildTools_cases h with ⟨rfl, rfl⟩ | ⟨rfl, rfl⟩ | ⟨rfl, rfl⟩ | ⟨rfl, rfl⟩ | ⟨rfl, rfl⟩ | ⟨rfl, rfl⟩ |
    ⟨rfl, rfl⟩ <;> exact ⟨_, rfl, rfl⟩

/-- What the backend's methods keep the tools keep. -/
theorem handler_keeps {P : σ → σ → Prop} (hrefl : ∀ s, P s s)
    (hcustomer : ∀ v t, (b.getCustomer v t).Keeps P) (hpii : ∀ v t, (b.getPii v t).Keeps P)
    (horders : ∀ v t, (b.listOrders v t).Keeps P) (hticket : ∀ v t, (b.getTicket v t).Keeps P)
    (hdraft : ∀ v w t, (b.draftReply v w t).Keeps P) (hquote : ∀ v t, (b.quoteRefund v t).Keeps P)
    {name : String} {tool : Tool σ} (h : (buildTools b).get? name = some tool)
    (hissue : name ≠ "refunds.issue" ∨ ∀ v x t k, (b.issueRefund v x t k).Keeps P)
    (kw : Kwargs) : (tool.handler kw).Keeps P := by
  rcases buildTools_cases h with ⟨-, rfl⟩ | ⟨-, rfl⟩ | ⟨-, rfl⟩ | ⟨-, rfl⟩ | ⟨-, rfl⟩ | ⟨rfl, rfl⟩ | ⟨-, rfl⟩
  · exact keeps_readHandler hrefl hcustomer kw
  · rcases crmOrdersList_cases b kw with ⟨e, he⟩ | ⟨customerId, he⟩
    · exact he ▸ keeps_raising hrefl e
    · exact he ▸ fun subject s => horders customerId kw.tenant subject s
  · exact keeps_readHandler hrefl hticket kw
  · rcases ticketsReplyDraft_cases b kw with ⟨e, he⟩ | ⟨ticketId, body, -, he⟩
    · exact he ▸ keeps_raising hrefl e
    · exact he ▸ (hdraft ticketId body kw.tenant).orElse _
  · exact keeps_readHandler hrefl hquote kw
  · rcases refundsIssue_cases b kw with ⟨e, he⟩ | ⟨orderId, amount, x, -, -, -, -, he⟩
    · exact he ▸ keeps_raising hrefl e
    · exact he ▸ (hissue.resolve_left (by simp) orderId x kw.tenant (kw.extra.getD none)).orElse _
  · exact keeps_readHandler hrefl hpii kw

end Catalogue

end AgentPlatform
