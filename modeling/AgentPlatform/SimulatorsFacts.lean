/-
Facts about the simulated systems.

`issueRefund_cases` and `draftReply_cases` say what a write can do; `Ledger` is
the invariant they keep: every refund is for an order of its own tenant.

`isolated_iff`: a run of backend operations keeps the tenants apart exactly
when no `issue_refund` presents a key that is already in the ledger for
another tenant's refund, or while it names another tenant's order. The key is
answered before the order is looked up.
-/
import AgentPlatform.Machine
import AgentPlatform.Tools

namespace AgentPlatform

namespace Simulators

/-! ## Scoped reads -/

section Scoped

variable {α : Type} (table : Dict String α) (tenantOf : α → String)

/-- The identifier names a record of the tenant's. -/
def Names (id : Json) (tenant : Option String) (x : α) : Prop :=
  ∃ k, id = .str k ∧ table.get? k = some x ∧ some (tenantOf x) = tenant

/-- The identifier names a record of another tenant. -/
def NamesForeign (id : Json) (tenant : Option String) : Prop :=
  ∃ k x, id = .str k ∧ table.get? k = some x ∧ some (tenantOf x) ≠ tenant

variable {table tenantOf} {id : Json} {tenant : Option String}

theorem scopedTo_eq_some {record : Option α} {x : α} (h : scopedTo tenantOf record tenant = some x) :
    record = some x ∧ some (tenantOf x) = tenant := by
  unfold scopedTo at h
  split at h
  · cases h
  · split at h
    · cases h
    · split at h
      · cases h
        exact ⟨rfl, ‹_›⟩
      · cases h

theorem scopedTo_foreign {x : α} (h : some (tenantOf x) ≠ tenant) :
    scopedTo tenantOf (some x) tenant = none := by simp [scopedTo, h]

theorem lookup_eq_some {x : α} (h : lookup table id = .ok (some x)) :
    ∃ k, id = .str k ∧ table.get? k = some x := by
  cases id <;> simp [lookup] at h
  exact ⟨_, rfl, h⟩

/-- A scoped read finds only records of the tenant. -/
theorem scoped_read {x : α} (h : (lookup table id).map (scopedTo tenantOf · tenant) = .ok (some x)) :
    Names table tenantOf id tenant x := by
  cases hl : lookup table id with
  | error e => simp [hl, Except.map] at h
  | ok record =>
    rw [hl] at h
    obtain ⟨rfl, ht⟩ := scopedTo_eq_some (Except.ok.inj h)
    obtain ⟨k, hk, hx⟩ := lookup_eq_some hl
    exact ⟨k, hk, hx, ht⟩

/-- A record of another tenant is not found. -/
theorem scoped_read_foreign (h : NamesForeign table tenantOf id tenant) :
    (lookup table id).map (scopedTo tenantOf · tenant) = .ok none := by
  obtain ⟨k, x, rfl, hx, ht⟩ := h
  simp [lookup, hx, Except.map, scopedTo_foreign ht]

theorem Names.unique {a b : Option String} {x y : α} (hx : Names table tenantOf id a x)
    (hy : Names table tenantOf id b y) : a = b := by
  obtain ⟨k, rfl, hx, rfl⟩ := hx
  obtain ⟨j, hj, hy, rfl⟩ := hy
  cases hj
  rw [hx, Option.some.injEq] at hy
  rw [hy]

end Scoped

/-! ## Writes -/

variable [UnicodeData]

theorem raiseNotFound_ne_ok {α : Type} {what : String} {id : Json} {a : α} :
    raiseNotFound what id ≠ .ok a := by
  unfold raiseNotFound
  split <;> simp

omit [UnicodeData] in
theorem truthy_ofOption (key : Option String) : (Json.ofOption key).truthy = given key := by
  cases key <;> simp [Json.ofOption, Json.truthy, given]

omit [UnicodeData] in
theorem ofOption_eq_str {key : Option String} {k : String} : Json.ofOption key = .str k ↔ key = some k := by
  cases key <;> simp [Json.ofOption]

omit [UnicodeData] in
/-- The key of a refund that was passed a text, or `None`. -/
theorem Refund.key_of_option {r : Refund} {key : Option String} (h : r.idempotencyKey = .ofOption key) :
    r.key = ((if given key then key.getD r.id else r.id : String) : LedgerKey) := by
  unfold Refund.key
  rw [h, truthy_ofOption]
  cases hg : given key with
  | false => rfl
  | true =>
    obtain ⟨k, rfl, -⟩ := given_iff.1 hg
    rfl

/-- What `issue_refund` does when it returns: it answers the refund that is in
the ledger under the key, or records a new one for an order of the tenant. -/
theorem issueRefundWith_cases {orderId key : Json} {amount : F64} {tenant : Option String} {s s' : State}
    {r : Refund} (h : issueRefundWith orderId amount tenant key s = .ok (r, s')) :
    (key.truthy = true ∧ s.held key = .ok (some r) ∧ s' = s) ∨
    ((key.truthy = true → s.held key = .ok none) ∧
      (∃ o, Names orders Order.tenant orderId tenant o) ∧ amount.le F64.zero = false ∧
      r = ⟨"r-" ++ pad4 s.refundSeq, orderId, tenant, amount.roundCents, "issued", key⟩ ∧
      s' = { s with refunds := s.refunds.insert r.key r, refundSeq := s.refundSeq + 1 }) := by
  unfold issueRefundWith at h
  split at h
  · cases h
  · rename_i refund hit
    simp only [Except.ok.injEq, Prod.mk.injEq] at h
    obtain ⟨rfl, rfl⟩ := h
    split at hit
    · exact .inl ⟨‹_›, hit, rfl⟩
    · cases hit
  · rename_i miss
    have hmiss : key.truthy = true → s.held key = .ok none := fun ht => by rwa [if_pos ht] at miss
    split at h
    · cases h
    · exact absurd h raiseNotFound_ne_ok
    · rename_i o ho
      split at h
      · cases h
      · rename_i hpos
        simp only [Except.ok.injEq, Prod.mk.injEq] at h
        obtain ⟨rfl, rfl⟩ := h
        exact .inr ⟨hmiss, ⟨o, scoped_read ho⟩, by simpa using hpos, rfl, rfl⟩

/-- A key that is a text, or `None`, is looked up as it is. -/
theorem issueRefund_eq (orderId : Json) (amount : F64) (tenant key : Option String) (s : State) :
    issueRefund orderId amount tenant key s =
      match if given key then key.bind fun k => s.refunds.get? k else none with
      | some refund => .ok (refund, s)
      | none =>
        match getOrder orderId tenant with
        | .error e => .error e
        | .ok none => raiseNotFound "order" orderId
        | .ok (some _) =>
          if amount.le F64.zero then .error ⟨.valueError, "refund amount must be positive"⟩
          else
            let refund : Refund :=
              ⟨"r-" ++ pad4 s.refundSeq, orderId, tenant, amount.roundCents, "issued", .ofOption key⟩
            .ok (refund, { s with refunds := s.refunds.insert refund.key refund, refundSeq := s.refundSeq + 1 }) := by
  unfold issueRefund issueRefundWith
  rw [truthy_ofOption]
  cases hg : given key with
  | false => rfl
  | true =>
    obtain ⟨k, rfl, -⟩ := given_iff.1 hg
    simp only [if_true, Json.ofOption, State.held, Option.bind_some]
    cases s.refunds.get? k <;> rfl

/-- The same, for a key that is a text, or `None`. -/
theorem issueRefund_cases {orderId : Json} {amount : F64} {tenant key : Option String} {s s' : State}
    {r : Refund} (h : issueRefund orderId amount tenant key s = .ok (r, s')) :
    (∃ k, key = some k ∧ k ≠ "" ∧ s.refunds.get? k = some r ∧ s' = s) ∨
    ((∀ k, key = some k → k ≠ "" → s.refunds.get? k = none) ∧
      (∃ o, Names orders Order.tenant orderId tenant o) ∧ amount.le F64.zero = false ∧
      r = ⟨"r-" ++ pad4 s.refundSeq, orderId, tenant, amount.roundCents, "issued", .ofOption key⟩ ∧
      s' = { s with refunds := s.refunds.insert r.key r, refundSeq := s.refundSeq + 1 }) := by
  rcases issueRefundWith_cases h with ⟨hg, hheld, hs'⟩ | ⟨hmiss, hrest⟩
  · rw [truthy_ofOption] at hg
    obtain ⟨k, rfl, hk⟩ := given_iff.1 hg
    exact .inl ⟨k, rfl, hk, Except.ok.inj hheld, hs'⟩
  · refine .inr ⟨fun k hk hne => ?_, hrest⟩
    subst hk
    exact Except.ok.inj (hmiss ((truthy_ofOption _).trans (given_iff.2 ⟨k, rfl, hne⟩)))

theorem draftReply_cases {ticketId body : Json} {tenant : Option String} {s s' : State} {d : Draft}
    (h : draftReply ticketId body tenant s = .ok (d, s')) :
    (∃ t, Names tickets Ticket.tenant ticketId tenant t) ∧
      d = ⟨"d-" ++ pad4 s.draftSeq, ticketId, tenant, body, "draft"⟩ ∧
      s' = { s with drafts := s.drafts.insert d.id d, draftSeq := s.draftSeq + 1 } := by
  unfold draftReply at h
  split at h
  · cases h
  · exact absurd h raiseNotFound_ne_ok
  · rename_i t ht
    simp only [Except.ok.injEq, Prod.mk.injEq] at h
    obtain ⟨rfl, rfl⟩ := h
    exact ⟨⟨t, scoped_read ht⟩, rfl, rfl⟩

/-- Every refund is for an order of its own tenant, and a list or a dictionary
it was passed for its key is an empty one. -/
structure Ledger (s : State) : Prop where
  named : ∀ k r, s.refunds.get? k = some r → ∃ o, Names orders Order.tenant r.orderId r.tenant o
  keyed : ∀ k r, s.refunds.get? k = some r → r.idempotencyKey.isScalar = true ∨ r.idempotencyKey.truthy = false

omit [UnicodeData] in
/-- What is found stands under some key, and only what can be looked up is found or missing. -/
theorem held_ok {s : State} {key : Json} {found : Option Refund} (h : s.held key = .ok found) :
    key.isScalar = true ∧ ∀ r, found = some r → ∃ k, s.refunds.get? k = some r := by
  unfold State.held at h
  split at h
  · exact ⟨rfl, fun r hr => ⟨_, (Except.ok.inj h).trans hr⟩⟩
  · cases h
  · cases h
  · exact ⟨rfl, fun r hr => by cases (Except.ok.inj h).trans hr⟩
  · rename_i _ hlist hdict _
    refine ⟨?_, fun r hr => ?_⟩
    · cases key with
      | arr xs => exact (hlist xs rfl).elim
      | obj fs => exact (hdict fs rfl).elim
      | _ => rfl
    · obtain ⟨n, -, hn⟩ := Option.bind_eq_some_iff.1 ((Except.ok.inj h).trans hr)
      exact ⟨_, hn⟩

omit [UnicodeData] in
theorem ledger_initial : Ledger State.initial := by
  constructor <;> (intro k r h; cases h)

theorem ledger_issueRefundWith {orderId key : Json} {amount : F64} {tenant : Option String} {s s' : State}
    {r : Refund} (hs : Ledger s) (h : issueRefundWith orderId amount tenant key s = .ok (r, s')) : Ledger s' := by
  rcases issueRefundWith_cases h with ⟨-, -, rfl⟩ | ⟨hmiss, ho, -, rfl, rfl⟩
  · exact hs
  · refine ⟨fun j w hw => ?_, fun j w hw => ?_⟩
    · rcases Dict.get?_insert_cases hw with ⟨-, rfl⟩ | ⟨-, hw⟩
      · exact ho
      · exact hs.named j w hw
    · rcases Dict.get?_insert_cases hw with ⟨-, rfl⟩ | ⟨-, hw⟩
      · cases hkey : key.truthy with
        | true => exact .inl (held_ok (hmiss hkey)).1
        | false => exact .inr rfl
      · exact hs.keyed j w hw

/-- The refund that is answered is on the ledger. -/
theorem issueRefundWith_held {orderId key : Json} {amount : F64} {tenant : Option String} {s s' : State}
    {r : Refund} (h : issueRefundWith orderId amount tenant key s = .ok (r, s')) :
    ∃ k, s'.refunds.get? k = some r := by
  rcases issueRefundWith_cases h with ⟨-, hheld, rfl⟩ | ⟨-, -, -, -, rfl⟩
  · exact (held_ok hheld).2 r rfl
  · exact ⟨_, Dict.get?_insert_self _ _ _⟩

end Simulators

/-! ## Runs of backend operations -/

/-- A backend operation. -/
inductive Op where
  | getCustomer (customerId : Json)
  | getPii (customerId : Json)
  | listOrders (customerId : Json)
  | getTicket (ticketId : Json)
  | draftReply (ticketId body : Json)
  | quoteRefund (orderId : Json)
  | issueRefund (orderId : Json) (amount : F64) (key : Option String)

/-- The operation for a tenant. -/
def Backend.perform {σ : Type} (b : Backend σ) (tenant : Option String) : Op → Method σ
  | .getCustomer customerId => b.getCustomer customerId tenant
  | .getPii customerId => b.getPii customerId tenant
  | .listOrders customerId => b.listOrders customerId tenant
  | .getTicket ticketId => b.getTicket ticketId tenant
  | .draftReply ticketId body => b.draftReply ticketId body tenant
  | .quoteRefund orderId => b.quoteRefund orderId tenant
  | .issueRefund orderId amount key => b.issueRefund orderId amount tenant key

/-- The simulated systems, serving operations of any tenants. -/
def simulation [UnicodeData] : Machine Simulators.State (Option String × Op) (Except Exn Json) where
  init := .initial
  step i s := simulatorBackend.perform i.1 i.2 none s

open Simulators

namespace Op

/-- The operation names a record of another tenant. -/
def NamesForeign (tenant : Option String) : Op → Prop
  | getCustomer id | getPii id | listOrders id => Simulators.NamesForeign customers Customer.tenant id tenant
  | getTicket id | draftReply id _ => Simulators.NamesForeign tickets Ticket.tenant id tenant
  | quoteRefund id | issueRefund id _ _ => Simulators.NamesForeign orders Order.tenant id tenant

/-- What the operation answers for a record that is not there. -/
def absent : Op → Json
  | listOrders _ => .arr []
  | _ => .null

/-- What the operation answered, in the state it ran in, is nothing or belongs
to the tenant. A quote also counts the order's refunds, which must be the
tenant's too. -/
def Owned (tenant : Option String) (s : State) : Op → Json → Prop
  | getCustomer _, v => v = .null ∨ ∃ c ∈ customers.values, some c.tenant = tenant ∧ v = c.profile
  | getPii _, v => v = .null ∨ ∃ c ∈ customers.values, some c.tenant = tenant ∧ v = c.pii
  | listOrders _, v => ∃ os : List Order, (∀ o ∈ os, some o.tenant = tenant) ∧ v = .arr (os.map Order.toJson)
  | getTicket _, v => v = .null ∨ ∃ t ∈ tickets.values, some t.tenant = tenant ∧ v = t.toJson
  | draftReply _ _, v => v = .null ∨ ∃ d : Draft, d.tenant = tenant ∧
      (∃ t, Names tickets Ticket.tenant d.ticketId tenant t) ∧ v = d.toJson
  | quoteRefund id, v => v = .null ∨ ∃ q : Quote, q.orderId = id ∧
      (∃ o, Names orders Order.tenant id tenant o) ∧
      (∀ r ∈ s.refunds.values, r.orderId.pyEq id = true → r.tenant = tenant) ∧ v = q.toJson
  | issueRefund _ _ _, v => v = .null ∨ ∃ r : Refund, r.tenant = tenant ∧
      (∃ o, Names orders Order.tenant r.orderId tenant o) ∧ v = r.toJson

end Op

/-- A transition keeps the tenants apart: what it answers is the caller's own,
and a record of another tenant is as if it were not there. -/
structure Isolated (t : Transition State (Option String × Op) (Except Exn Json)) : Prop where
  owned : ∀ v, t.output = .ok v → t.input.2.Owned t.input.1 t.pre v
  hidden : t.input.2.NamesForeign t.input.1 → t.output = .ok t.input.2.absent ∧ t.post = t.pre

/-- A key that is in the ledger is presented by the tenant of its refund, and
not for another tenant's order. -/
def KeyOwned (t : Transition State (Option String × Op) (Except Exn Json)) : Prop :=
  ∀ orderId amount key r, t.input.2 = .issueRefund orderId amount (some key) → key ≠ "" →
    t.pre.refunds.get? key = some r →
    r.tenant = t.input.1 ∧ ¬ Simulators.NamesForeign orders Order.tenant orderId t.input.1

/-! ## Isolation, step by step -/

section Reads

variable {α : Type} {table : Dict String α} {tenantOf : α → String} {toJson : α → Json} {id : Json}
  {tenant : Option String}

theorem answered_read {v : Json}
    (h : answered toJson ((lookup table id).map (scopedTo tenantOf · tenant)) = .ok v) :
    v = .null ∨ ∃ x, Names table tenantOf id tenant x ∧ v = toJson x := by
  cases hr : (lookup table id).map (scopedTo tenantOf · tenant) with
  | error e =>
    rw [hr] at h
    cases h
  | ok record =>
    rw [hr] at h
    cases record with
    | none => exact .inl (Except.ok.inj h).symm
    | some x => exact .inr ⟨x, scoped_read hr, (Except.ok.inj h).symm⟩

theorem answered_foreign (h : Simulators.NamesForeign table tenantOf id tenant) :
    answered toJson ((lookup table id).map (scopedTo tenantOf · tenant)) = .ok .null := by
  rw [scoped_read_foreign h]
  rfl

/-- Mapping the record before or after it is answered. -/
theorem answered_map {β : Type} (toJson : β → Json) (f : α → β) (r : Except Exn (Option α)) :
    answered toJson (r.map (Option.map f)) = answered (toJson ∘ f) r := by
  cases r with
  | error e => rfl
  | ok o => cases o <;> rfl

theorem Simulators.Names.mem {x : α} (h : Names table tenantOf id tenant x) :
    x ∈ table.values ∧ some (tenantOf x) = tenant := by
  obtain ⟨k, -, hx, ht⟩ := h
  exact ⟨Dict.mem_values.2 ⟨k, hx⟩, ht⟩

end Reads

section Isolation

theorem getCustomer_eq (id : Json) (tenant : Option String) :
    getCustomer id tenant = ((lookup customers id).map (scopedTo Customer.tenant · tenant)).map
      (Option.map Customer.profile) := by
  unfold getCustomer
  cases lookup customers id <;> rfl

theorem getPii_eq (id : Json) (tenant : Option String) :
    getPii id tenant = ((lookup customers id).map (scopedTo Customer.tenant · tenant)).map
      (Option.map Customer.pii) := by
  unfold getPii
  cases lookup customers id <;> rfl

/-- What a read of a customer finds is a customer of the tenant's. -/
theorem read_customer {view : Customer → Json} {id v : Json} {tenant : Option String}
    (h : ((lookup customers id).map (scopedTo Customer.tenant · tenant)).map (Option.map view) = .ok (some v)) :
    ∃ c, Names customers Customer.tenant id tenant c ∧ v = view c := by
  cases hr : (lookup customers id).map (scopedTo Customer.tenant · tenant) with
  | error e =>
    rw [hr] at h
    cases h
  | ok record =>
    rw [hr] at h
    obtain ⟨c, rfl, hv⟩ := Option.map_eq_some_iff.1 (Except.ok.inj h)
    exact ⟨c, scoped_read hr, hv.symm⟩

/-- An order is of its customer's tenant. -/
theorem orders_customer {o : Order} (h : o ∈ orders.values) :
    (customers.get? o.customerId).map Customer.tenant = some o.tenant := by
  have hall : ∀ o ∈ orders.values, (customers.get? o.customerId).map Customer.tenant = some o.tenant := by
    simp only [orders, Dict.values, List.map_cons, List.map_nil, List.forall_mem_cons]
    decide
  exact hall o h

theorem listOrders_foreign {id : Json} {tenant : Option String}
    (h : Simulators.NamesForeign customers Customer.tenant id tenant) : listOrders id tenant = [] := by
  obtain ⟨k, c, rfl, hc, ht⟩ := h
  simp only [listOrders, List.filter_eq_nil_iff, Bool.and_eq_true, decide_eq_true_eq, not_and]
  intro o ho heq
  have hcustomer := orders_customer ho
  have hk : k = o.customerId := by simpa [Json.pyEq_str] using heq
  rw [← hk, hc] at hcustomer
  rwa [← hcustomer]

variable [UnicodeData] {tenant : Option String} {s : State}

theorem written_notFound {α : Type} (toJson : α → Json) (what : String) (k : String) :
    written toJson s (raiseNotFound what (.str k)) = (.ok .null, s) := by
  simp [raiseNotFound, Py.repr, written]

omit [UnicodeData] in
theorem written_ok {α : Type} {toJson : α → Json} {r : Except Exn (α × State)} {v : Json}
    (h : (written toJson s r).1 = .ok v) : v = .null ∨ ∃ a s', r = .ok (a, s') ∧ v = toJson a := by
  rcases r with e | ⟨a, s'⟩
  · simp only [written] at h
    split at h
    · exact .inl (Except.ok.inj h).symm
    · cases h
  · exact .inr ⟨a, s', rfl, (Except.ok.inj h).symm⟩

theorem draftReply_foreign {id body : Json}
    (h : Simulators.NamesForeign tickets Ticket.tenant id tenant) :
    written Draft.toJson s (draftReply id body tenant s) = (.ok .null, s) := by
  have hnone : getTicket id tenant = .ok none := scoped_read_foreign h
  obtain ⟨k, -, rfl, -⟩ := h
  simp only [draftReply, hnone, written_notFound]

theorem issueRefund_foreign {id : Json} {amount : F64} {key : Option String}
    (hmiss : ∀ k, key = some k → k ≠ "" → s.refunds.get? k = none)
    (h : Simulators.NamesForeign orders Order.tenant id tenant) :
    written Refund.toJson s (issueRefund id amount tenant key s) = (.ok .null, s) := by
  have hnone : getOrder id tenant = .ok none := scoped_read_foreign h
  have hkey : (if given key then key.bind fun k => s.refunds.get? k else none) = none := by
    split
    · rename_i hg
      obtain ⟨k, rfl, hk⟩ := given_iff.1 hg
      exact hmiss k rfl hk
    · rfl
  obtain ⟨k, -, rfl, -⟩ := h
  simp only [issueRefund_eq, hkey, hnone, written_notFound]

theorem issueRefund_hit {id : Json} {amount : F64} {k : String} {r : Refund} (hk : k ≠ "")
    (hr : s.refunds.get? k = some r) : issueRefund id amount tenant (some k) s = .ok (r, s) := by
  simp [issueRefund_eq, given, hk, hr]

theorem isolated_of_step {op : Op} {a : Except Exn Json} {s' : State}
    (hstep : simulation.step (tenant, op) s = (a, s')) (howned : ∀ v, a = .ok v → op.Owned tenant s v)
    (hhidden : op.NamesForeign tenant → a = .ok op.absent ∧ s' = s) :
    Isolated (simulation.transition s (tenant, op)) := by
  refine ⟨fun v hv => howned v ?_, fun h => ?_⟩
  · rwa [Machine.transition_output, hstep] at hv
  · rw [Machine.transition_output, Machine.transition_post, hstep]
    exact hhidden h

/-- A read through a fixture table keeps the tenants apart. -/
theorem isolated_read {α : Type} {op : Op} {table : Dict String α} {tenantOf : α → String}
    {view : α → Json} {id : Json}
    (hstep : simulation.step (tenant, op) s = (answered view ((lookup table id).map (scopedTo tenantOf · tenant)), s))
    (hnull : op.Owned tenant s .null)
    (howned : ∀ x ∈ table.values, some (tenantOf x) = tenant → op.Owned tenant s (view x))
    (habsent : op.absent = .null)
    (hforeign : op.NamesForeign tenant → Simulators.NamesForeign table tenantOf id tenant) :
    Isolated (simulation.transition s (tenant, op)) := by
  refine isolated_of_step hstep (fun v hv => ?_) fun h => ⟨habsent ▸ answered_foreign (hforeign h), rfl⟩
  rcases answered_read hv with rfl | ⟨x, hx, rfl⟩
  · exact hnull
  · exact howned x hx.mem.1 hx.mem.2

/-- The reads and the draft keep the tenants apart in every state of the ledger. -/
theorem isolated_of_not_issueRefund (hs : Ledger s) {op : Op}
    (hop : ∀ orderId amount key, op ≠ .issueRefund orderId amount key) :
    Isolated (simulation.transition s (tenant, op)) := by
  cases op with
  | getCustomer id =>
    have hstep : simulation.step (tenant, .getCustomer id) s = (answered Customer.profile
        ((lookup customers id).map (scopedTo Customer.tenant · tenant)), s) := by
      simp only [simulation, Backend.perform, simulatorBackend, getCustomer_eq, answered_map]
      rfl
    exact isolated_read hstep (.inl rfl) (fun c hc ht => .inr ⟨c, hc, ht, rfl⟩) rfl fun h => h
  | getPii id =>
    have hstep : simulation.step (tenant, .getPii id) s = (answered Customer.pii
        ((lookup customers id).map (scopedTo Customer.tenant · tenant)), s) := by
      simp only [simulation, Backend.perform, simulatorBackend, getPii_eq, answered_map]
      rfl
    exact isolated_read hstep (.inl rfl) (fun c hc ht => .inr ⟨c, hc, ht, rfl⟩) rfl fun h => h
  | listOrders id =>
    refine isolated_of_step rfl (fun v hv => ?_) fun h => ?_
    · refine ⟨listOrders id tenant, fun o ho => ?_, (Except.ok.inj hv).symm⟩
      simp only [listOrders, List.mem_filter, Bool.and_eq_true, decide_eq_true_eq] at ho
      exact ho.2.2
    · rw [listOrders_foreign h]
      exact ⟨rfl, rfl⟩
  | getTicket id =>
    have hstep : simulation.step (tenant, .getTicket id) s = (answered Ticket.toJson
        ((lookup tickets id).map (scopedTo Ticket.tenant · tenant)), s) := rfl
    exact isolated_read hstep (.inl rfl) (fun t ht htenant => .inr ⟨t, ht, htenant, rfl⟩) rfl fun h => h
  | draftReply id body =>
    refine isolated_of_step rfl (fun v hv => ?_) fun h => ?_
    · refine (written_ok hv).imp_right ?_
      rintro ⟨d, s', hd, rfl⟩
      obtain ⟨ht, rfl, -⟩ := draftReply_cases hd
      exact ⟨_, rfl, ht, rfl⟩
    · have hstep := @draftReply_foreign _ tenant s id body h
      exact ⟨congrArg Prod.fst hstep, congrArg Prod.snd hstep⟩
  | quoteRefund id =>
    refine isolated_of_step rfl (fun v hv => ?_) fun h => ?_
    · cases ho : getOrder id tenant with
      | error e => simp [quoteRefund, ho, answered, Except.map] at hv
      | ok order =>
        cases order with
        | none =>
          simp only [quoteRefund, ho, answered, Except.map, Except.ok.injEq] at hv
          exact .inl hv.symm
        | some o =>
          have hnames : Names orders Order.tenant id tenant o := scoped_read ho
          simp only [quoteRefund, ho, answered, Except.map, Option.map_some, Option.getD_some,
            Except.ok.injEq] at hv
          refine .inr ⟨_, rfl, ⟨o, hnames⟩, fun r hr heq => ?_, hv.symm⟩
          obtain ⟨k, hk⟩ := Dict.mem_values.1 hr
          obtain ⟨o', ho'⟩ := hs.named k r hk
          obtain ⟨j, hj, howned⟩ := hnames
          have hsame : r.orderId = id := by
            rw [hj] at heq ⊢
            exact Json.pyEq_str_right.1 heq
          rw [hsame] at ho'
          exact ho'.unique ⟨j, hj, howned⟩
    · have hnone : getOrder id tenant = .ok none := scoped_read_foreign h
      simp only [quoteRefund, hnone]
      exact ⟨rfl, trivial⟩
  | issueRefund id amount key => exact absurd rfl (hop id amount key)

omit [UnicodeData] in
theorem Refund.toJson_tenant {r r' : Refund} (h : r.toJson = r'.toJson) : r.tenant = r'.tenant := by
  simp only [Refund.toJson, Json.obj.injEq, List.cons.injEq, Prod.mk.injEq, true_and] at h
  have ht := h.2.2.1
  cases hr : r.tenant <;> cases hr' : r'.tenant <;> simp_all [Json.ofOption]

/-- A refund under a key of the ledger is isolated only by its owner's leave. -/
theorem isolated_hit_iff {id : Json} {amount : F64} {k : String} {r : Refund} (hs : Ledger s) (hk : k ≠ "")
    (hr : s.refunds.get? k = some r) :
    Isolated (simulation.transition s (tenant, .issueRefund id amount (some k))) ↔
      r.tenant = tenant ∧ ¬ Simulators.NamesForeign orders Order.tenant id tenant := by
  have hstep : simulation.step (tenant, .issueRefund id amount (some k)) s = (.ok r.toJson, s) := by
    simp only [simulation, Backend.perform, simulatorBackend, issueRefund_hit hk hr, written]
  constructor
  · intro h
    refine ⟨?_, fun hf => ?_⟩
    · rcases h.owned r.toJson (congrArg Prod.fst hstep) with hnull | ⟨r', rfl, -, heq⟩
      · cases hnull
      · exact Refund.toJson_tenant heq
    · have hanswer := (h.hidden hf).1
      rw [Machine.transition_output, hstep] at hanswer
      cases hanswer
  · rintro ⟨rfl, hf⟩
    refine isolated_of_step hstep (fun v hv => ?_) fun h => absurd h hf
    exact .inr ⟨r, rfl, hs.named k r hr, (Except.ok.inj hv).symm⟩

theorem isolated_miss {id : Json} {amount : F64} {key : Option String}
    (hmiss : ∀ k, key = some k → k ≠ "" → s.refunds.get? k = none) :
    Isolated (simulation.transition s (tenant, .issueRefund id amount key)) := by
  refine isolated_of_step rfl (fun v hv => ?_) fun h => ?_
  · refine (written_ok hv).imp_right ?_
    rintro ⟨r, s', hr, rfl⟩
    rcases issueRefund_cases hr with ⟨k, hkey, hk, hget, -⟩ | ⟨-, ho, -, rfl, -⟩
    · rw [hmiss k hkey hk] at hget
      cases hget
    · exact ⟨_, rfl, ho, rfl⟩
  · have hstep := @issueRefund_foreign _ tenant s id amount key hmiss h
    exact ⟨congrArg Prod.fst hstep, congrArg Prod.snd hstep⟩

theorem isolated_step_iff (hs : Ledger s) (op : Op) :
    Isolated (simulation.transition s (tenant, op)) ↔ KeyOwned (simulation.transition s (tenant, op)) := by
  by_cases hop : ∃ orderId amount key, op = .issueRefund orderId amount key
  · obtain ⟨orderId, amount, key, rfl⟩ := hop
    by_cases hit : ∃ k r, key = some k ∧ k ≠ "" ∧ s.refunds.get? k = some r
    · obtain ⟨k, r, rfl, hk, hr⟩ := hit
      rw [isolated_hit_iff hs hk hr]
      constructor
      · rintro h _ _ _ r' ⟨⟩ - hr'
        cases hr.symm.trans hr'
        exact h
      · intro h
        exact h orderId amount k r rfl hk hr
    · have hmiss : ∀ k, key = some k → k ≠ "" → s.refunds.get? k = none := by
        intro k hkey hk
        cases hr : s.refunds.get? k with
        | none => rfl
        | some r => exact absurd ⟨k, r, hkey, hk, hr⟩ hit
      refine iff_of_true (isolated_miss hmiss) ?_
      rintro _ _ k r ⟨⟩ hk hr
      rw [Machine.transition_pre, hmiss k rfl hk] at hr
      cases hr
  · refine iff_of_true (isolated_of_not_issueRefund hs fun a b c h => hop ⟨a, b, c, h⟩) ?_
    intro a b c r h
    exact absurd ⟨a, b, some c, h⟩ hop

theorem ledger_step (hs : Ledger s) (i : Option String × Op) : Ledger (simulation.step i s).2 := by
  obtain ⟨tenant, op⟩ := i
  cases op with
  | draftReply id body =>
    simp only [simulation, Backend.perform, simulatorBackend]
    cases hd : draftReply id body tenant s with
    | error e => exact hs
    | ok r =>
      obtain ⟨-, -, hs'⟩ := draftReply_cases hd
      simp only [written, hs']
      exact ⟨hs.named, hs.keyed⟩
  | issueRefund id amount key =>
    simp only [simulation, Backend.perform, simulatorBackend]
    cases hr : issueRefund id amount tenant key s with
    | error e => exact hs
    | ok r => exact ledger_issueRefundWith hs hr
  | _ => exact hs

/-- **Tenant isolation, exactly.** A run of backend operations by any tenants
keeps them apart if and only if every key that is already in the ledger is
presented by its refund's tenant, and not for another tenant's order. -/
theorem isolated_iff (is : List (Option String × Op)) :
    (∀ t ∈ simulation.run is, Isolated t) ↔ ∀ t ∈ simulation.run is, KeyOwned t := by
  have hledger := Machine.invariant_run (m := simulation) (G := fun _ => True) ledger_initial
    (fun s i hs _ => ledger_step hs i) is fun _ _ => trivial
  refine forall₂_congr fun t ht => ?_
  obtain ⟨s, ⟨tenant, op⟩, rfl, hs⟩ := hledger t ht
  exact isolated_step_iff hs op

end Isolation

/-- A tenant that repeats another's key gets the other's refund. -/
theorem issueRefund_shared_key_leaks :
    ¬ ∀ t ∈ (@simulation asciiData).run
        [(some "globex", .issueRefund (.str "o-9001") (F64.ofInt 10) (some "k")),
          (some "acme", .issueRefund (.str "o-1001") (F64.ofInt 10) (some "k"))], Isolated t := by
  intro h
  let _ := asciiData
  let first : Option String × Op := (some "globex", .issueRefund (.str "o-9001") (F64.ofInt 10) (some "k"))
  have hheld : ((simulation.step first .initial).2.refunds.get? "k").map Refund.tenant =
      some (some "globex") := by decide +kernel
  obtain ⟨r, hr, hglobex⟩ := Option.map_eq_some_iff.1 hheld
  have hlast := h _ (List.mem_cons_of_mem _ (List.mem_cons_self ..))
  obtain ⟨hacme, -⟩ := (isolated_hit_iff (ledger_step ledger_initial first) (by decide) hr).1 hlast
  rw [hglobex] at hacme
  revert hacme
  decide

end AgentPlatform
