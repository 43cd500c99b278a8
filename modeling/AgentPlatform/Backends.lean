/-
The two tool backends side by side: `SimulatorBackend`, and `HttpBackend`
talking to the sandbox service.

A call answers alike in both when its path reaches the endpoint the method is
for, and what is written down on the way reads back: `Meets` says when, method
by method, on the call and the state before it. `backends_agree_iff`: from any
state, a sequence of calls gives the same answers, refunds and drafts over both
backends exactly when every call of it meets the condition.
-/
import AgentPlatform.SandboxFacts

namespace AgentPlatform

open Simulators Sandbox

/-! ## Calls -/

/-- A method of `Backend`, with arguments of the types it declares. -/
inductive BackendOp where
  | getCustomer (customerId : String)
  | getPii (customerId : String)
  | listOrders (customerId : String)
  | getTicket (ticketId : String)
  | draftReply (ticketId body : String)
  | quoteRefund (orderId : String)
  | issueRefund (orderId : String) (amount : F64) (idempotencyKey : Option String)

def BackendOp.toOp : BackendOp → Op
  | .getCustomer id => .getCustomer (.str id)
  | .getPii id => .getPii (.str id)
  | .listOrders id => .listOrders (.str id)
  | .getTicket id => .getTicket (.str id)
  | .draftReply id body => .draftReply (.str id) (.str body)
  | .quoteRefund id => .quoteRefund (.str id)
  | .issueRefund id amount key => .issueRefund (.str id) amount key

/-- A call: the subject token it is made under, and the tenant it is for. -/
structure BackendCall where
  subject : Option String
  tenant : String
  op : BackendOp

/-- A backend, serving calls. -/
def serving (b : Backend State) : Machine State BackendCall (Except Exn Json) where
  init := .initial
  step c s := b.perform (some c.tenant) c.op.toOp c.subject s

/-- The same value, or an exception from both. -/
def SameAnswer : Except Exn Json → Except Exn Json → Prop
  | .ok v, .ok w => v = w
  | .error _, .error _ => True
  | _, _ => False

/-! ## Paths of an identifier -/

/-- The identifier is one segment of a path. -/
def IsSegment (id : String) : Prop := id ≠ "" ∧ segments id = [id]

instance (id : String) : Decidable (IsSegment id) := inferInstanceAs (Decidable (_ ∧ _))

theorem routeOf_long {l : List String} (h : 4 < l.length) : routeOf l = none := by
  unfold routeOf
  split <;> first | rfl | (simp at h)

/-- The path of an endpoint under a record: only one segment reaches it. -/
structure IsLeaf (before after : String) (m : HttpMethod) (route : String → Route) : Prop where
  other : ∀ id, before ++ id ++ after ≠ "/healthz"
  routed : ∀ id, routeOf (segments (before ++ id ++ after)) = if IsSegment id then some (m, route id) else none
  slashes : ∀ id, withoutSlashes (before ++ id ++ after) = before ++ id ++ after

theorem withoutSlashes_append (path : String) {leaf : String} {c : Char} (h : leaf.toList.getLast? = some c)
    (hc : c ≠ '/') : withoutSlashes (path ++ leaf) = path ++ leaf := by
  obtain ⟨front, hfront⟩ := List.getLast?_eq_some_iff.1 h
  have hlist : (path ++ leaf).toList.reverse = c :: (front.reverse ++ path.toList.reverse) := by
    rw [String.toList_append, hfront]
    simp
  rw [withoutSlashes, hlist, List.dropWhile_cons_of_neg (by simpa using hc), ← hlist, List.reverse_reverse,
    String.ofList_toList]

theorem routeOf_leaf {top leaf : String} {m : HttpMethod} {route : String → Route}
    (htable : ∀ x, routeOf ["", top, x, leaf] = param x m route) (id : String) :
    routeOf ("" :: top :: (segments id ++ [leaf])) = if IsSegment id then some (m, route id) else none := by
  rcases hs : segments id with _ | ⟨x, _ | ⟨y, l⟩⟩
  · exact absurd hs (segments_ne_nil id)
  · obtain rfl := segments_singleton hs
    simp only [List.singleton_append, htable, param, IsSegment, hs, and_true]
    split <;> simp_all
  · have hno : ¬ IsSegment id := by
      intro h
      have hlength := congrArg List.length (hs.symm.trans h.2)
      simp at hlength
    rw [if_neg hno]
    exact routeOf_long (by simp)

theorem isLeaf_of {top leaf : String} {m : HttpMethod} {route : String → Route} {c : Char}
    (hother : (("/" ++ top ++ "/").toList.take 2).isPrefixOf "/healthz".toList = false)
    (htop : segments ("/" ++ top) = ["", top]) (hleaf : segments leaf = [leaf])
    (htable : ∀ x, routeOf ["", top, x, leaf] = param x m route)
    (hlast : ("/" ++ leaf).toList.getLast? = some c) (hc : c ≠ '/') :
    IsLeaf ("/" ++ top ++ "/") ("/" ++ leaf) m route where
  other id := path_ne_healthz hother id _
  routed id := by
    rw [segments_pathLeaf htop hleaf]
    exact routeOf_leaf htable id
  slashes id := withoutSlashes_append _ hlast hc

theorem isLeaf_pii : IsLeaf "/customers/" "/pii" .get .pii :=
  @isLeaf_of "customers" "pii" .get .pii 'i' (by decide) (by decide) (by decide) (fun _ => rfl) (by decide) (by decide)

theorem isLeaf_orders : IsLeaf "/customers/" "/orders" .get .orders :=
  @isLeaf_of "customers" "orders" .get .orders 's' (by decide) (by decide) (by decide) (fun _ => rfl) (by decide)
    (by decide)

theorem isLeaf_drafts : IsLeaf "/tickets/" "/drafts" .post .drafts :=
  @isLeaf_of "tickets" "drafts" .post .drafts 's' (by decide) (by decide) (by decide) (fun _ => rfl) (by decide)
    (by decide)

theorem isLeaf_quote : IsLeaf "/orders/" "/refund-quote" .get .quote :=
  @isLeaf_of "orders" "refund-quote" .get .quote 'e' (by decide) (by decide) (by decide) (fun _ => rfl) (by decide)
    (by decide)

theorem isLeaf_refunds : IsLeaf "/orders/" "/refunds" .post .refunds :=
  @isLeaf_of "orders" "refunds" .post .refunds 's' (by decide) (by decide) (by decide) (fun _ => rfl) (by decide)
    (by decide)

/-! ## What a request comes to -/

section Http

variable [UnicodeData] {cfg : HttpConfig} {m : HttpMethod} {t : String} {subject tenant : Option String} {s : State}

/-- A path without a route: nothing is found, or the answer is a redirect. -/
theorem httpRequest_unrouted {path : String} {body : Json} (hpath : path ≠ "/healthz")
    (hbody : body.encodable = true) (ht : cfg.tenantOf subject tenant = some t) (hr : routeOf (segments path) = none) :
    httpRequest cfg m path tenant body subject s =
      if (routeOf (segments (withoutSlashes path))).isSome then (.error ⟨.httpError, "HTTP status error"⟩, s)
      else (.ok .null, s) := by
  obtain ⟨ctx, t', -, heq⟩ := @httpRequest_served _ cfg m path tenant subject body s hpath hbody t ht
  rw [heq, dispatch]
  simp only [hr]
  split <;> rfl

/-- A request to an endpoint under a record. -/
theorem httpTo_leaf {before after : String} {route : String → Route} (hleaf : IsLeaf before after m route)
    {body : Json} (hbody : body.encodable = true) (ht : cfg.tenantOf subject tenant = some t) (id : String)
    (haccepts : IsSegment id → (route id).accepts body = true) :
    httpTo cfg m before (.str id) after tenant body subject s =
      if IsSegment id then
        (received (rendered (endpoint (route id) (some t) body s)).1,
          (rendered (endpoint (route id) (some t) body s)).2)
      else (.ok .null, s) := by
  show httpRequest cfg m (before ++ id ++ after) tenant body subject s = _
  have hr := hleaf.routed id
  split
  · rename_i hseg
    rw [if_pos hseg] at hr
    exact httpRequest_routed (hleaf.other id) hbody hr (haccepts hseg) ht
  · rename_i hseg
    rw [if_neg hseg] at hr
    rw [httpRequest_unrouted (hleaf.other id) hbody ht hr, hleaf.slashes id, hr]
    rfl

end Http

/-! ## Answers and responses -/

/-- What the backend makes of a refusal. -/
theorem received_missing {σ : Type} (detail : String) (s : σ) :
    received (rendered (refuse 404 detail, s)).1 = .ok .null := by
  rw [rendered_of_encodable rfl]
  rfl

theorem received_refused {σ : Type} {status : Nat} (h : status = 400 ∨ status = 500) (detail : String) (s : σ) :
    received (rendered (refuse status detail, s)).1 = .error ⟨.httpError, "HTTP status error"⟩ := by
  rw [rendered_of_encodable rfl]
  rcases h with rfl | rfl <;> rfl

section

variable {α : Type} {toJson : α → Json}

/-- What the backend makes of a record. -/
theorem received_record (v : Json) (s : State) :
    received (rendered ((⟨200, v⟩ : Reply), s)).1 =
      if v.encodable then .ok v else .error ⟨.httpError, "HTTP status error"⟩ := by
  cases hv : v.encodable with
  | true =>
    rw [rendered_of_encodable hv]
    rfl
  | false =>
    simp only [rendered, hv]
    rfl

theorem sameAnswer_record (v : Json) (s : State) :
    SameAnswer (.ok v) (received (rendered ((⟨200, v⟩ : Reply), s)).1) ↔ v.encodable = true := by
  rw [received_record]
  cases v.encodable <;> simp [SameAnswer]

/-- A read answers alike exactly when the record, where there is one, can be
written down. -/
theorem answer_alike (what : String) (r : Except Exn (Option α)) (s : State) :
    SameAnswer (answered toJson r) (received (rendered (answer what toJson r, s)).1) ↔
      ∀ a, r = .ok (some a) → (toJson a).encodable = true := by
  rcases r with e | _ | a
  · rw [answer, received_refused (.inr rfl)]
    simp [answered, Except.map, SameAnswer]
  · rw [answer, received_missing]
    simp [answered, Except.map, SameAnswer]
  · refine (sameAnswer_record (toJson a) s).trans ?_
    simp

/-- So does a write. -/
theorem simulate_alike (r : Except Exn (α × State)) (s : State) :
    (SameAnswer (written toJson s r).1 (received (rendered (simulate toJson s r)).1) ↔
      ∀ a s', r = .ok (a, s') → (toJson a).encodable = true) ∧
    (written toJson s r).2 = (rendered (simulate toJson s r)).2 := by
  rcases r with e | ⟨a, s'⟩
  · refine ⟨?_, by rw [rendered_state]; rfl⟩
    by_cases hn : e.kind = .notFound
    · simp only [written, simulate, hn, if_true, received_missing]
      simp [SameAnswer]
    · by_cases hv : e.kind = .valueError
      · have hreply : simulate toJson s (.error e) = (refuse 400 e.msg, s) := by
          simp only [simulate, if_neg hn, if_pos hv]
        rw [hreply, received_refused (.inl rfl)]
        simp [written, hn, SameAnswer]
      · simp only [written, simulate, hn, hv, if_false, received_refused (.inr rfl)]
        simp [SameAnswer]
  · refine ⟨(sameAnswer_record (toJson a) s').trans ?_, by rw [rendered_state]; rfl⟩
    simp

end

/-! ## Reads -/

/-- Both backends were called: they answer alike exactly when the condition
holds, and then leave the same state. -/
def AlikeWhen (simulated overHttp : Except Exn Json × State) (cond : Prop) : Prop :=
  (SameAnswer simulated.1 overHttp.1 ↔ cond) ∧ (cond → simulated.2 = overHttp.2)

/-- The path has no route, but has one without its trailing slashes: the
service answers a redirect. -/
def Redirected (path : String) : Prop :=
  routeOf (segments path) = none ∧ (routeOf (segments (withoutSlashes path))).isSome = true

/-- A record's key is one segment. -/
theorem isSegment_of_names {α : Type} {table : Dict String α} {tenantOf : α → String} {id : String}
    {tenant : Option String} {x : α} (hkeys : ∀ e ∈ table.entries, IsSegment e.1)
    (h : Names table tenantOf (.str id) tenant x) : IsSegment id := by
  obtain ⟨k, hk, hget, -⟩ := h
  cases hk
  exact hkeys _ (Dict.mem_entries.2 hget)

theorem customers_isSegment : ∀ e ∈ customers.entries, IsSegment e.1 := by decide

theorem tickets_isSegment : ∀ e ∈ tickets.entries, IsSegment e.1 := by
  simp only [tickets, List.forall_mem_cons]
  decide

theorem orders_isSegment : ∀ e ∈ orders.entries, IsSegment e.1 := by
  simp only [orders, List.forall_mem_cons]
  decide

theorem scoped_str {α : Type} (table : Dict String α) (tenantOf : α → String) (id : String) (tenant : Option String) :
    (lookup table (.str id)).map (scopedTo tenantOf · tenant) = .ok (scopedTo tenantOf (table.get? id) tenant) := rfl

/-- What no segment names is not found. -/
theorem scoped_of_not_isSegment {α : Type} {table : Dict String α} {tenantOf : α → String} {id : String}
    (hkeys : ∀ e ∈ table.entries, IsSegment e.1) (h : ¬ IsSegment id) (tenant : Option String) :
    (lookup table (.str id)).map (scopedTo tenantOf · tenant) = .ok none := by
  rw [scoped_str, Except.ok.injEq, Option.eq_none_iff_forall_not_mem]
  intro x hx
  have hnames : Names table tenantOf (.str id) tenant x := scoped_read (by rw [scoped_str, Option.mem_def.1 hx])
  exact h (isSegment_of_names hkeys hnames)

theorem encodable_profile (c : Customer) : c.profile.encodable = true := rfl

theorem encodable_pii (c : Customer) : c.pii.encodable = true := rfl

theorem encodable_ticket {t : Ticket} (ht : t ∈ tickets.values) : t.toJson.encodable = true := by
  have hall : ∀ t ∈ tickets.values, t.messages.encodable = true := by
    simp only [tickets, Dict.values, List.map_cons, List.map_nil, List.forall_mem_cons]
    decide
  simp [Ticket.toJson, Json.encodable, Json.encodableFields, hall t ht]

theorem routeOf_tickets {l : List String} {m : HttpMethod} {route : Route}
    (h : routeOf ("" :: "tickets" :: l) = some (m, route)) : ∃ x, x ≠ "" ∧
      ((l = [x] ∧ m = .get ∧ route = .ticket x) ∨ (l = [x, "drafts"] ∧ m = .post ∧ route = .drafts x)) := by
  unfold routeOf at h
  split at h
  case h_9 => cases h
  all_goals
    rename_i heq
    simp only [List.cons.injEq, true_and] at heq
  case h_5 =>
    obtain ⟨hx, hm, hr⟩ := param_eq_some h
    exact ⟨_, hx, .inl ⟨heq, hm, hr⟩⟩
  case h_6 =>
    obtain ⟨hx, hm, hr⟩ := param_eq_some h
    exact ⟨_, hx, .inr ⟨heq, hm, hr⟩⟩
  all_goals simp at heq

/-- The identifier's path goes on to a ticket's drafts. -/
def ReachesDrafts (id : String) : Prop := ∃ x, x ≠ "" ∧ segments id = [x, "drafts"]

section Reads

variable [UnicodeData] {cfg : HttpConfig} {t : String} {subject : Option String} {s : State}

/-- A read that reaches its endpoint. -/
theorem endpoint_alike {α : Type} {toJson : α → Json} {what : String} {route : Route} {r : Except Exn (Option α)}
    {cond : Prop} (hendpoint : endpoint route (some t) .null s = (answer what toJson r, s))
    (hcond : (∀ a, r = .ok (some a) → (toJson a).encodable = true) ↔ cond) :
    AlikeWhen (answered toJson r, s)
      (received (rendered (endpoint route (some t) .null s)).1,
        (rendered (endpoint route (some t) .null s)).2) cond := by
  rw [hendpoint]
  refine ⟨(answer_alike what r s).trans hcond, fun _ => ?_⟩
  show s = (rendered (answer what toJson r, s)).2
  rw [rendered_state]

/-- A read whose path has no route, of an identifier that names nothing. -/
theorem unrouted_alike {path : String} (hpath : path ≠ "/healthz") (ht : cfg.tenantOf subject (some t) = some t)
    (hr : routeOf (segments path) = none) :
    AlikeWhen (.ok .null, s) (httpRequest cfg .get path (some t) .null subject s) (¬ Redirected path) := by
  rw [httpRequest_unrouted hpath rfl ht hr]
  by_cases hslash : (routeOf (segments (withoutSlashes path))).isSome = true
  · simp [AlikeWhen, hslash, SameAnswer, Redirected, hr]
  · simp [AlikeWhen, hslash, SameAnswer, Redirected]

/-- A record's own path is the identifier behind its collection's. -/
theorem httpTo_record (before id : String) :
    httpTo cfg .get before (.str id) "" (some t) .null subject s =
      httpRequest cfg .get (before ++ id) (some t) .null subject s := by
  show httpRequest cfg .get (before ++ id ++ "") (some t) .null subject s = _
  rw [String.append_empty]

omit [UnicodeData] in
theorem record_ne_healthz {before : String}
    (h : (before.toList.take 2).isPrefixOf "/healthz".toList = false) (id : String) : before ++ id ≠ "/healthz" := by
  have h := path_ne_healthz h id ""
  rwa [String.append_empty] at h

omit [UnicodeData] in
theorem customers_segments (id : String) : segments ("/customers/" ++ id) = "" :: "customers" :: segments id :=
  segments_top (show segments ("/" ++ "customers") = ["", "customers"] by decide) id

omit [UnicodeData] in
theorem tickets_segments (id : String) : segments ("/tickets/" ++ id) = "" :: "tickets" :: segments id :=
  segments_top (show segments ("/" ++ "tickets") = ["", "tickets"] by decide) id

omit [UnicodeData] in
theorem getCustomer_missing {id : String} (hno : ¬ IsSegment id) (tenant : Option String) :
    answered (fun v => v) (getCustomer (.str id) tenant) = .ok .null := by
  rw [getCustomer_eq, scoped_of_not_isSegment customers_isSegment hno]
  rfl

omit [UnicodeData] in
theorem getTicket_missing {id : String} (hno : ¬ IsSegment id) (tenant : Option String) :
    answered Ticket.toJson (getTicket (.str id) tenant) = .ok .null := by
  rw [getTicket, scoped_of_not_isSegment tickets_isSegment hno]
  rfl

omit [UnicodeData] in
/-- A path that does not go on to the identifiers of a customer of the tenant's
names none. -/
theorem getPii_missing {id x : String} (hpast : ¬ ReachesPast t id) (hx : x ≠ "") (hl : segments id = [x, "pii"]) :
    getPii (.str x) (some t) = .ok none := by
  cases hp : getPii (.str x) (some t) with
  | error e => cases hp
  | ok o =>
    cases o with
    | none => rfl
    | some v =>
      obtain ⟨c, ⟨k, hk, hc, hct⟩, -⟩ := read_customer ((getPii_eq _ _).symm.trans hp)
      cases hk
      exact absurd ⟨x, hx, .inr ⟨hl, c, hc, Option.some.inj hct⟩⟩ hpast

theorem getCustomer_alike (ht : cfg.tenantOf subject (some t) = some t) (id : String) :
    AlikeWhen (simulatorBackend.getCustomer (.str id) (some t) subject s)
      ((httpBackend cfg).getCustomer (.str id) (some t) subject s)
      (¬ ReachesPast t id ∧ ¬ Redirected ("/customers/" ++ id)) := by
  have hhttp : (httpBackend cfg).getCustomer (.str id) (some t) subject s =
      httpRequest cfg .get ("/customers/" ++ id) (some t) .null subject s := httpTo_record "/customers/" id
  have hsim : simulatorBackend.getCustomer (.str id) (some t) subject s =
      (answered (fun v => v) (getCustomer (.str id) (some t)), s) := rfl
  have hother : "/customers/" ++ id ≠ "/healthz" := record_ne_healthz (by decide) id
  by_cases hpast : ReachesPast t id
  · have hno : ¬ IsSegment id := by
      intro hseg
      obtain ⟨x, -, hl | ⟨hl, -⟩⟩ := hpast <;> rw [hseg.2] at hl <;> cases hl
    obtain ⟨fs, hfs, -⟩ := httpGetCustomer_past (s := s) ht hpast
    rw [AlikeWhen, hfs, hsim, getCustomer_missing hno]
    simp [SameAnswer, hpast]
  simp only [hpast, not_false_eq_true, true_and]
  rw [hhttp, hsim]
  cases hr : routeOf (segments ("/customers/" ++ id)) with
  | none =>
    have hno : ¬ IsSegment id := by
      intro hseg
      rw [customers_segments, hseg.2] at hr
      simp [routeOf, param, hseg.1] at hr
    rw [getCustomer_missing hno]
    exact unrouted_alike hother ht hr
  | some mr =>
    obtain ⟨m, route⟩ := mr
    have hred : ¬ Redirected ("/customers/" ++ id) := fun h => absurd (hr.symm.trans h.1) (by simp)
    have hroute := hr
    rw [customers_segments] at hroute
    obtain ⟨x, hx, hcases⟩ := routeOf_customers hroute
    have hm : m = .get := by
      rcases hcases with ⟨hl, -⟩ | ⟨hl, -⟩ | ⟨hl, -⟩ <;> rw [hl] at hroute <;>
        simpa [routeOf, param, hx, eq_comm] using (congrArg (Option.map Prod.fst) hroute)
    subst hm
    rw [httpRequest_routed hother rfl hr (accepts_of_get hr _) ht]
    rcases hcases with ⟨hl, rfl⟩ | ⟨hl, rfl⟩ | ⟨hl, rfl⟩
    · -- the record's own endpoint
      obtain rfl := segments_singleton hl
      have hencodable : ∀ v, getCustomer (.str x) (some t) = .ok (some v) → v.encodable = true := by
        intro v hv
        obtain ⟨c, -, rfl⟩ := read_customer ((getCustomer_eq _ _).symm.trans hv)
        exact encodable_profile c
      exact endpoint_alike rfl ⟨fun _ => hred, fun _ => hencodable⟩
    · -- the identifiers of a customer who is not there
      have hno : ¬ IsSegment id := fun hseg => by rw [hseg.2] at hl; cases hl
      have hnone := getPii_missing hpast hx hl
      have hreply : endpoint (.pii x) (some t) .null s = (refuse 404 "unknown customer", s) := by
        simp only [endpoint, hnone, answer]
        rfl
      rw [getCustomer_missing hno, hreply, AlikeWhen, received_missing, rendered_state]
      simp [SameAnswer, hred]
    · exact absurd ⟨x, hx, .inl hl⟩ hpast

theorem getTicket_alike (ht : cfg.tenantOf subject (some t) = some t) (id : String) :
    AlikeWhen (simulatorBackend.getTicket (.str id) (some t) subject s)
      ((httpBackend cfg).getTicket (.str id) (some t) subject s)
      (¬ ReachesDrafts id ∧ ¬ Redirected ("/tickets/" ++ id)) := by
  have hhttp : (httpBackend cfg).getTicket (.str id) (some t) subject s =
      httpRequest cfg .get ("/tickets/" ++ id) (some t) .null subject s := httpTo_record "/tickets/" id
  have hsim : simulatorBackend.getTicket (.str id) (some t) subject s =
      (answered Ticket.toJson (getTicket (.str id) (some t)), s) := rfl
  have hother : "/tickets/" ++ id ≠ "/healthz" := record_ne_healthz (by decide) id
  rw [hhttp, hsim]
  cases hr : routeOf (segments ("/tickets/" ++ id)) with
  | none =>
    have hno : ¬ IsSegment id := by
      intro hseg
      rw [tickets_segments, hseg.2] at hr
      simp [routeOf, param, hseg.1] at hr
    have hdrafts : ¬ ReachesDrafts id := by
      intro hdrafts
      obtain ⟨x, hx, hl⟩ := hdrafts
      rw [tickets_segments, hl] at hr
      simp [routeOf, param, hx] at hr
    rw [getTicket_missing hno]
    simp only [hdrafts, not_false_eq_true, true_and]
    exact unrouted_alike hother ht hr
  | some mr =>
    obtain ⟨m, route⟩ := mr
    have hred : ¬ Redirected ("/tickets/" ++ id) := fun h => absurd (hr.symm.trans h.1) (by simp)
    have hroute := hr
    rw [tickets_segments] at hroute
    obtain ⟨x, hx, ⟨hl, rfl, rfl⟩ | ⟨hl, rfl, rfl⟩⟩ := routeOf_tickets hroute
    · -- the record's own endpoint
      obtain rfl := segments_singleton hl
      have hdrafts : ¬ ReachesDrafts x := by
        intro hdrafts
        obtain ⟨y, -, hy⟩ := hdrafts
        rw [hl] at hy
        cases hy
      have hencodable : ∀ a, getTicket (.str x) (some t) = .ok (some a) → a.toJson.encodable = true := by
        intro a ha
        obtain ⟨k, -, hk, -⟩ := scoped_read ha
        exact encodable_ticket (Dict.mem_values.2 ⟨k, hk⟩)
      rw [httpRequest_routed hother rfl hr rfl ht]
      exact endpoint_alike rfl ⟨fun _ => ⟨hdrafts, hred⟩, fun _ => hencodable⟩
    · -- another method's path
      have hno : ¬ IsSegment id := fun hseg => by rw [hseg.2] at hl; cases hl
      have hdrafts : ReachesDrafts id := ⟨x, hx, hl⟩
      obtain ⟨ctx, t', -, heq⟩ :=
        @httpRequest_served _ cfg .get ("/tickets/" ++ id) (some t) subject .null s hother rfl t ht
      rw [getTicket_missing hno, heq, dispatch]
      simp only [hr]
      simp [AlikeWhen, hdrafts, received, refuse, SameAnswer]

/-- An endpoint under a record, where a read is concerned. -/
theorem leaf_alike {α : Type} {toJson : α → Json} {before after what : String} {route : String → Route}
    (hleaf : IsLeaf before after .get route) (ht : cfg.tenantOf subject (some t) = some t) {id : String}
    {r : Except Exn (Option α)} (hendpoint : endpoint (route id) (some t) .null s = (answer what toJson r, s))
    (hmissing : ¬ IsSegment id → r = .ok none) {cond : Prop}
    (hcond : (∀ a, r = .ok (some a) → (toJson a).encodable = true) ↔ cond) :
    AlikeWhen (answered toJson r, s) (httpTo cfg .get before (.str id) after (some t) .null subject s) cond := by
  rw [httpTo_leaf hleaf rfl ht id fun hseg => accepts_of_get (by rw [hleaf.routed id, if_pos hseg]) _]
  split
  · exact endpoint_alike hendpoint hcond
  · rename_i hno
    rw [hmissing hno] at hcond ⊢
    simp only [AlikeWhen, answered, Except.map, Option.map, Option.getD, SameAnswer, true_iff, implies_true, and_true]
    exact hcond.1 (by simp)

theorem getPii_alike (ht : cfg.tenantOf subject (some t) = some t) (id : String) :
    AlikeWhen (simulatorBackend.getPii (.str id) (some t) subject s)
      ((httpBackend cfg).getPii (.str id) (some t) subject s) True := by
  refine leaf_alike isLeaf_pii ht (r := getPii (.str id) (some t)) rfl
    (fun hno => ?_) ⟨fun _ => trivial, fun _ v hv => ?_⟩
  · rw [getPii_eq, scoped_of_not_isSegment customers_isSegment hno]
    rfl
  · obtain ⟨c, -, rfl⟩ := read_customer ((getPii_eq _ _).symm.trans hv)
    exact encodable_pii c

theorem listOrders_alike (ht : cfg.tenantOf subject (some t) = some t) (id : String) :
    AlikeWhen (simulatorBackend.listOrders (.str id) (some t) subject s)
      ((httpBackend cfg).listOrders (.str id) (some t) subject s) True := by
  have hsim : simulatorBackend.listOrders (.str id) (some t) subject s =
      (.ok (.arr ((listOrders (.str id) (some t)).map Order.toJson)), s) := rfl
  have hleaf := httpTo_leaf (s := s) isLeaf_orders (show Json.null.encodable = true from rfl) ht id fun _ => rfl
  by_cases hseg : IsSegment id
  · rw [if_pos hseg, rendered_of_encodable encodable_orders] at hleaf
    have hhttp : (httpBackend cfg).listOrders (.str id) (some t) subject s =
        (.ok (.arr ((listOrders (.str id) (some t)).map Order.toJson)), s) := by
      simp only [httpBackend, hleaf]
      rfl
    rw [hsim, hhttp]
    exact ⟨⟨fun _ => trivial, fun _ => rfl⟩, fun _ => rfl⟩
  · rw [if_neg hseg] at hleaf
    have hhttp : (httpBackend cfg).listOrders (.str id) (some t) subject s = (.ok (.arr []), s) := by
      simp only [httpBackend, hleaf]
      rfl
    -- no order is of a customer whose identifier is no segment
    have hnone : listOrders (.str id) (some t) = [] := by
      have hall : ∀ o ∈ orders.values, IsSegment o.customerId := by
        simp only [orders, Dict.values, List.map_cons, List.map_nil, List.forall_mem_cons]
        decide
      refine List.filter_eq_nil_iff.2 fun o ho heq => hseg ?_
      rw [Bool.and_eq_true] at heq
      have hid : o.customerId = id := by simpa [Json.pyEq, Json.scalarEq] using heq.1
      exact hid ▸ hall o ho
    rw [hsim, hhttp, hnone]
    exact ⟨⟨fun _ => trivial, fun _ => rfl⟩, fun _ => rfl⟩

end Reads

/-! ## Quotes -/

/-- What has been refunded of an order. -/
def refunded (orderId : String) (s : State) : Option F64 :=
  sumFloats ((s.refunds.values.filter fun r =>
    Json.pyEq r.orderId (.str orderId) && decide (r.status = "issued")).map Refund.amount)

/-- The order's total, less a finite sum, is finite. -/
theorem left_isFinite {o : Order} (ho : o ∈ orders.values) {x : F64} (hx : x.isFinite = true) :
    (o.total.sub x).isFinite = true := by
  have hsmall : ∀ o ∈ orders.values, (o.total.scaled.any fun a => decide (a.natAbs < 2 ^ 2044)) = true := by
    simp only [orders, Dict.values, List.map_cons, List.map_nil, List.forall_mem_cons]
    decide +kernel
  obtain ⟨a, ha, hlt⟩ := (Option.any_eq_true _ _).1 (hsmall o ho)
  obtain ⟨b, hb⟩ : ∃ b, x.neg.scaled = some b := by
    cases x with
    | nan => cases hx
    | inf n => cases hx
    | fin n m p hv => exact ⟨_, rfl⟩
  exact F64.add_isFinite rfl ha (of_decide_eq_true hlt) hb

theorem total_isFinite {o : Order} (ho : o ∈ orders.values) : o.total.isFinite = true := by
  have hall : ∀ o ∈ orders.values, o.total.isFinite = true := by
    simp only [orders, Dict.values, List.map_cons, List.map_nil, List.forall_mem_cons]
    decide +kernel
  exact hall o ho

/-- What is left is never below zero, and finite. -/
theorem refundable_isFinite {o : Order} (ho : o ∈ orders.values) {x : F64} (hx : x.isFinite = true) :
    (if F64.lt F64.zero (o.total.sub x) then o.total.sub x else F64.zero).roundCents.isFinite = true := by
  refine F64.roundCents_isFinite ?_
  split
  · exact left_isFinite ho hx
  · decide +kernel

/-- A quote can be written down exactly when what has been refunded is finite. -/
theorem encodable_quote {id : String} {tenant : Option String} {s : State} {q : Quote}
    (h : quoteRefund (.str id) tenant s = .ok (some q)) :
    q.toJson.encodable = true ↔ ∀ x, refunded id s = some x → x.isFinite = true := by
  unfold quoteRefund at h
  obtain ⟨order, horder, h⟩ := map_ok h
  obtain ⟨o, rfl, rfl⟩ := Option.map_eq_some_iff.1 h
  obtain ⟨k, -, hk, -⟩ := scoped_read horder
  have ho : o ∈ orders.values := Dict.mem_values.2 ⟨k, hk⟩
  have hzero : F64.zero.isFinite = true := by decide +kernel
  simp only [Quote.toJson, Json.encodable, Json.encodableFields, total_isFinite ho, Bool.true_and, Bool.and_true]
  rw [← refunded]
  cases hr : refunded id s with
  | none =>
    have hint : (Json.int 0).encodable = true := by decide
    simp [hint, refundable_isFinite ho hzero]
  | some x =>
    cases hx : x.isFinite with
    | true => simp [Json.encodable, refundable_isFinite ho hx, F64.roundCents_isFinite hx, hx]
    | false =>
      have hsame : x.roundCents = x := by
        cases x with
        | fin n m p hv => cases hx
        | nan => rfl
        | inf n => rfl
      simp [Json.encodable, hsame, hx]

section Quotes

variable [UnicodeData] {cfg : HttpConfig} {t : String} {subject : Option String} {s : State}

/-- A quote of an order that is there is of a finite sum. -/
def QuoteMeets (tenant orderId : String) (s : State) : Prop :=
  ∀ o, getOrder (.str orderId) (some tenant) = .ok (some o) → ∀ x, refunded orderId s = some x → x.isFinite = true

theorem quoteRefund_alike (ht : cfg.tenantOf subject (some t) = some t) (id : String) :
    AlikeWhen (simulatorBackend.quoteRefund (.str id) (some t) subject s)
      ((httpBackend cfg).quoteRefund (.str id) (some t) subject s) (QuoteMeets t id s) := by
  refine leaf_alike isLeaf_quote ht (r := quoteRefund (.str id) (some t) s) rfl (fun hno => ?_) ?_
  · have hnone : getOrder (.str id) (some t) = .ok none := scoped_of_not_isSegment orders_isSegment hno (some t)
    rw [quoteRefund, hnone]
    rfl
  · constructor
    · intro h o ho
      have hq : ∃ q, quoteRefund (.str id) (some t) s = .ok (some q) := by
        rw [quoteRefund, ho]
        exact ⟨_, rfl⟩
      obtain ⟨q, hq⟩ := hq
      exact (encodable_quote hq).1 (h q hq)
    · intro h q hq
      refine (encodable_quote hq).2 ?_
      obtain ⟨order, horder, hmap⟩ := map_ok hq
      obtain ⟨o, rfl, -⟩ := Option.map_eq_some_iff.1 hmap
      exact h o horder

end Quotes

/-! ## Writes -/

section Writes

variable [UnicodeData] {cfg : HttpConfig} {t : String} {subject : Option String} {s : State}

theorem raiseNotFound_str {α : Type} (what id : String) :
    ∃ msg, (raiseNotFound what (.str id) : Except Exn α) = .error ⟨.notFound, msg⟩ := ⟨_, rfl⟩

theorem draftReply_alike (ht : cfg.tenantOf subject (some t) = some t) (id body : String) :
    AlikeWhen (simulatorBackend.draftReply (.str id) (.str body) (some t) subject s)
      ((httpBackend cfg).draftReply (.str id) (.str body) (some t) subject s) True := by
  have hsim : simulatorBackend.draftReply (.str id) (.str body) (some t) subject s =
      written Draft.toJson s (draftReply (.str id) (.str body) (some t) s) := rfl
  have hhttp : (httpBackend cfg).draftReply (.str id) (.str body) (some t) subject s =
      httpTo cfg .post "/tickets/" (.str id) "/drafts" (some t) (.obj [("body", .str body)]) subject s := rfl
  have hendpoint : endpoint (.drafts id) (some t) (.obj [("body", .str body)]) s =
      simulate Draft.toJson s (draftReply (.str id) (.str body) (some t) s) := rfl
  rw [hsim, hhttp, httpTo_leaf isLeaf_drafts rfl ht id fun _ => rfl]
  split
  · rw [hendpoint]
    obtain ⟨halike, hstate⟩ := @simulate_alike _ Draft.toJson (draftReply (.str id) (.str body) (some t) s) s
    refine ⟨halike.trans ⟨fun _ => trivial, fun _ d s' hd => ?_⟩, fun _ => hstate⟩
    obtain ⟨-, rfl, -⟩ := draftReply_cases hd
    rfl
  · rename_i hno
    have hnone : getTicket (.str id) (some t) = .ok none := scoped_of_not_isSegment tickets_isSegment hno (some t)
    obtain ⟨msg, hmsg⟩ := @raiseNotFound_str _ (Draft × State) "ticket" id
    have hraises : draftReply (.str id) (.str body) (some t) s = .error ⟨.notFound, msg⟩ := by
      rw [draftReply, hnone]
      exact hmsg
    rw [hraises]
    exact ⟨⟨fun _ => trivial, fun _ => rfl⟩, fun _ => rfl⟩

/-- The refund in the ledger under a key. -/
def replayed (key : Option String) (s : State) : Option Refund :=
  if given key then key.bind fun k => s.refunds.get? k else none

/-- When a refund is issued alike: one that is replayed is asked for by a path
that reaches the endpoint, and can be sent and read back; one that is not found
can be sent; one that is issued can be sent and has no empty key. -/
def RefundMeets (tenant orderId : String) (amount : F64) (key : Option String) (s : State) : Prop :=
  match replayed key s, getOrder (.str orderId) (some tenant) with
  | some r, _ => IsSegment orderId ∧ amount.isFinite = true ∧ r.toJson.encodable = true
  | none, .ok (some _) => amount.le F64.zero = true ∨ (amount.isFinite = true ∧ key ≠ some "")
  | none, _ => amount.isFinite = true

/-- The key as the service gets it: an empty one is left out. -/
def sentKey (key : Option String) : Option String := if given key then key else none

/-- The body of a refund request. -/
def refundBody (amount : F64) (key : Option String) : Json :=
  .obj (("amount", .float amount) :: if given key then [("idempotency_key", .ofOption key)] else [])

omit [UnicodeData] in
theorem encodable_refundBody (amount : F64) (key : Option String) :
    (refundBody amount key).encodable = amount.isFinite := by
  cases key with
  | none => simp [refundBody, given, Json.encodable, Json.encodableFields]
  | some k => by_cases hk : k = "" <;>
      simp [refundBody, given, hk, Json.ofOption, Json.encodable, Json.encodableFields]

theorem endpoint_refunds (id : String) (amount : F64) (key : Option String) (s : State) :
    endpoint (.refunds id) (some t) (refundBody amount key) s =
      simulate Refund.toJson s (issueRefund (.str id) amount (some t) (sentKey key) s) := by
  cases key with
  | none => rfl
  | some k =>
    by_cases hk : k = ""
    · subst hk
      rfl
    · simp [endpoint, issueRefund, refundBody, sentKey, given, hk, Json.field, Dict.find, Py.float, Json.ofOption]

theorem issueRefund_replayed {id : Json} {amount : F64} {tenant key : Option String} {r : Refund}
    (h : replayed key s = some r) : issueRefund id amount tenant key s = .ok (r, s) := by
  rw [replayed] at h
  simp only [issueRefund_eq, h]

section Fresh

variable {id : String} {amount : F64} {tenant key : Option String} (hfresh : replayed key s = none)
include hfresh

theorem issueRefund_missing (horder : getOrder (.str id) tenant = .ok none) :
    ∃ msg, issueRefund (.str id) amount tenant key s = .error ⟨.notFound, msg⟩ := by
  rw [replayed] at hfresh
  simp only [issueRefund_eq, hfresh, horder]
  exact raiseNotFound_str "order" id

theorem issueRefund_refused {o : Order} (horder : getOrder (.str id) tenant = .ok (some o))
    (hamount : amount.le F64.zero = true) :
    issueRefund (.str id) amount tenant key s = .error ⟨.valueError, "refund amount must be positive"⟩ := by
  rw [replayed] at hfresh
  simp only [issueRefund_eq, hfresh, horder, hamount, if_true]

theorem issueRefund_issued {o : Order} (horder : getOrder (.str id) tenant = .ok (some o))
    (hamount : amount.le F64.zero = false) :
    ∃ s', issueRefund (.str id) amount tenant key s =
      .ok (⟨"r-" ++ pad4 s.refundSeq, .str id, tenant, amount.roundCents, "issued", .ofOption key⟩, s') := by
  rw [replayed] at hfresh
  simp only [issueRefund_eq, hfresh, horder, hamount]
  exact ⟨_, rfl⟩

end Fresh

omit [UnicodeData] in
theorem encodable_refund {rid id : String} {tenant key : Option String} {amount : F64} (h : amount.isFinite = true) :
    (Refund.toJson ⟨rid, .str id, tenant, amount.roundCents, "issued", .ofOption key⟩).encodable = true := by
  cases tenant <;> cases key <;>
    simp [Refund.toJson, Json.ofOption, Json.encodable, Json.encodableFields, F64.roundCents_isFinite h]

/-- A refund whose amount cannot be sent. -/
theorem issueRefund_unsent {id : String} {amount : F64} {key : Option String} (hfinite : amount.isFinite = false) :
    AlikeWhen (written Refund.toJson s (issueRefund (.str id) amount (some t) key s))
      (httpTo cfg .post "/orders/" (.str id) "/refunds" (some t) (refundBody amount key) subject s)
      (RefundMeets t id amount key s) := by
  have hhttp : ∃ e, httpTo cfg .post "/orders/" (.str id) "/refunds" (some t) (refundBody amount key) subject s =
      (.error e, s) := by
    refine ⟨⟨.valueError, "Out of range float values are not JSON compliant"⟩, ?_⟩
    show httpRequest cfg .post ("/orders/" ++ id ++ "/refunds") (some t) (refundBody amount key) subject s = _
    simp only [httpRequest, encodable_refundBody, hfinite]
    rfl
  obtain ⟨e, hhttp⟩ := hhttp
  rw [hhttp]
  cases hrep : replayed key s with
  | some r =>
    rw [issueRefund_replayed hrep]
    simp [AlikeWhen, written, SameAnswer, RefundMeets, hrep, hfinite]
  | none =>
    cases horder : getOrder (.str id) (some t) with
    | error e => cases horder
    | ok o =>
      cases o with
      | none =>
        obtain ⟨msg, hmsg⟩ := @issueRefund_missing _ s id amount (some t) key hrep horder
        rw [hmsg]
        simp [AlikeWhen, written, SameAnswer, RefundMeets, hrep, horder, hfinite]
      | some o =>
        cases hle : amount.le F64.zero with
        | true =>
          rw [issueRefund_refused hrep horder hle]
          simp [AlikeWhen, written, SameAnswer, RefundMeets, hrep, horder, hle]
        | false =>
          obtain ⟨s', hs'⟩ := issueRefund_issued hrep horder hle
          rw [hs']
          simp [AlikeWhen, written, SameAnswer, RefundMeets, hrep, horder, hle, hfinite]

/-- A refund whose path does not reach the endpoint: nothing is found there,
and only a replay finds something in the simulator. -/
theorem issueRefund_strayed {id : String} {amount : F64} {key : Option String} (hfinite : amount.isFinite = true)
    (hno : ¬ IsSegment id) :
    AlikeWhen (written Refund.toJson s (issueRefund (.str id) amount (some t) key s)) (.ok .null, s)
      (RefundMeets t id amount key s) := by
  have horder : getOrder (.str id) (some t) = .ok none := scoped_of_not_isSegment orders_isSegment hno (some t)
  cases hrep : replayed key s with
  | some r =>
    rw [issueRefund_replayed hrep]
    simp [AlikeWhen, written, Refund.toJson, SameAnswer, RefundMeets, hrep, hno]
  | none =>
    obtain ⟨msg, hmsg⟩ := @issueRefund_missing _ s id amount (some t) key hrep horder
    rw [hmsg]
    simp [AlikeWhen, written, SameAnswer, RefundMeets, hrep, horder, hfinite]

/-- A refund that reaches the endpoint with the key it has. -/
theorem issueRefund_reached {id : String} {amount : F64} {key : Option String} (hfinite : amount.isFinite = true)
    (hseg : IsSegment id) (hkey : key ≠ some "") :
    AlikeWhen (written Refund.toJson s (issueRefund (.str id) amount (some t) key s))
      (received (rendered (simulate Refund.toJson s (issueRefund (.str id) amount (some t) key s))).1,
        (rendered (simulate Refund.toJson s (issueRefund (.str id) amount (some t) key s))).2)
      (RefundMeets t id amount key s) := by
  obtain ⟨halike, hstate⟩ := @simulate_alike _ Refund.toJson (issueRefund (.str id) amount (some t) key s) s
  refine ⟨halike.trans ?_, fun _ => hstate⟩
  cases hrep : replayed key s with
  | some r =>
    rw [issueRefund_replayed hrep]
    simp [RefundMeets, hrep, hseg, hfinite]
  | none =>
    have hmeets : RefundMeets t id amount key s := by
      cases horder : getOrder (.str id) (some t) with
      | error e => cases horder
      | ok o => cases o <;> simp [RefundMeets, hrep, horder, hfinite, hkey]
    refine ⟨fun _ => hmeets, fun _ r s' h => ?_⟩
    rcases issueRefund_cases h with ⟨k, rfl, hk, hget, -⟩ | ⟨-, -, -, rfl, -⟩
    · simp [replayed, given, hk, hget] at hrep
    · exact encodable_refund hfinite

/-- A refund with an empty key: the service records none. -/
theorem issueRefund_emptyKey {id : String} {amount : F64} (hfinite : amount.isFinite = true) :
    AlikeWhen (written Refund.toJson s (issueRefund (.str id) amount (some t) (some "") s))
      (received (rendered (simulate Refund.toJson s (issueRefund (.str id) amount (some t) none s))).1,
        (rendered (simulate Refund.toJson s (issueRefund (.str id) amount (some t) none s))).2)
      (RefundMeets t id amount (some "") s) := by
  have hempty : replayed (some "") s = none := rfl
  have hnone : replayed none s = none := rfl
  cases horder : getOrder (.str id) (some t) with
  | error e => cases horder
  | ok o =>
    cases o with
    | none =>
      obtain ⟨msg, hmsg⟩ := @issueRefund_missing _ s id amount (some t) (some "") hempty horder
      obtain ⟨msg', hmsg'⟩ := @issueRefund_missing _ s id amount (some t) none hnone horder
      have hreply : simulate Refund.toJson s (.error ⟨.notFound, msg'⟩) = (refuse 404 msg', s) := rfl
      rw [hmsg, hmsg', hreply, received_missing, rendered_state]
      simp [AlikeWhen, written, SameAnswer, RefundMeets, hempty, horder, hfinite]
    | some o =>
      cases hle : amount.le F64.zero with
      | true =>
        rw [issueRefund_refused hempty horder hle, issueRefund_refused hnone horder hle]
        have hreply : ∀ msg, simulate Refund.toJson s (.error ⟨.valueError, msg⟩) = (refuse 400 msg, s) := fun _ => rfl
        rw [hreply, received_refused (.inl rfl), rendered_state]
        simp [AlikeWhen, written, SameAnswer, RefundMeets, hempty, horder, hle]
      | false =>
        obtain ⟨s₁, h₁⟩ := issueRefund_issued hempty horder hle
        obtain ⟨s₂, h₂⟩ := issueRefund_issued hnone horder hle
        rw [h₁, h₂]
        have hreply : ∀ r : Refund, simulate Refund.toJson s (.ok (r, s₂)) = (⟨200, r.toJson⟩, s₂) := fun _ => rfl
        rw [hreply, received_record, encodable_refund hfinite]
        simp [AlikeWhen, written, Refund.toJson, Json.ofOption, SameAnswer, RefundMeets, hempty, horder, hle]

theorem issueRefund_alike (ht : cfg.tenantOf subject (some t) = some t) (id : String) (amount : F64)
    (key : Option String) :
    AlikeWhen (simulatorBackend.issueRefund (.str id) amount (some t) key subject s)
      ((httpBackend cfg).issueRefund (.str id) amount (some t) key subject s) (RefundMeets t id amount key s) := by
  have hsim : simulatorBackend.issueRefund (.str id) amount (some t) key subject s =
      written Refund.toJson s (issueRefund (.str id) amount (some t) key s) := rfl
  have hhttp : (httpBackend cfg).issueRefund (.str id) amount (some t) key subject s =
      httpTo cfg .post "/orders/" (.str id) "/refunds" (some t) (refundBody amount key) subject s := rfl
  rw [hsim, hhttp]
  cases hfinite : amount.isFinite with
  | false => exact issueRefund_unsent hfinite
  | true =>
    rw [httpTo_leaf isLeaf_refunds ((encodable_refundBody amount key).trans hfinite) ht id fun _ => rfl,
      endpoint_refunds]
    split
    · rename_i hseg
      by_cases hkey : key = some ""
      · subst hkey
        exact issueRefund_emptyKey hfinite
      · have hsent : sentKey key = key := by
          cases key with
          | none => rfl
          | some k => exact if_pos (given_iff.2 ⟨k, rfl, fun h => hkey (by rw [h])⟩)
        rw [hsent]
        exact issueRefund_reached hfinite hseg hkey
    · exact issueRefund_strayed hfinite ‹_›

end Writes

/-! ## Whole sequences -/

/-- When a call is answered alike: the identifier of a customer or a ticket does
not lead the path to another endpoint or a redirect, and a quote and a refund
are of amounts and keys that survive the way. -/
def Meets (c : BackendCall) (s : State) : Prop :=
  match c.op with
  | .getCustomer id => ¬ ReachesPast c.tenant id ∧ ¬ Redirected ("/customers/" ++ id)
  | .getTicket id => ¬ ReachesDrafts id ∧ ¬ Redirected ("/tickets/" ++ id)
  | .getPii _ | .listOrders _ | .draftReply _ _ => True
  | .quoteRefund id => QuoteMeets c.tenant id s
  | .issueRefund id amount key => RefundMeets c.tenant id amount key s

section Sequences

variable [UnicodeData]

/-- One call. -/
theorem step_alike {cfg : HttpConfig} {c : BackendCall} (ht : cfg.tenantOf c.subject (some c.tenant) = some c.tenant)
    (s : State) :
    AlikeWhen ((serving simulatorBackend).step c s) ((serving (httpBackend cfg)).step c s) (Meets c s) := by
  obtain ⟨subject, t, op⟩ := c
  cases op with
  | getCustomer id => exact getCustomer_alike ht id
  | getPii id => exact getPii_alike ht id
  | listOrders id => exact listOrders_alike ht id
  | getTicket id => exact getTicket_alike ht id
  | draftReply id body => exact draftReply_alike ht id body
  | quoteRefund id => exact quoteRefund_alike ht id
  | issueRefund id amount key => exact issueRefund_alike ht id amount key

/-- The backends cannot be told apart by a sequence of calls from a state. -/
structure Indistinguishable (cfg : HttpConfig) (s : State) (calls : List BackendCall) : Prop where
  answers : List.Forall₂ SameAnswer ((serving simulatorBackend).answersFrom s calls)
    ((serving (httpBackend cfg)).answersFrom s calls)
  refunds : ((serving simulatorBackend).finalFrom s calls).refunds =
    ((serving (httpBackend cfg)).finalFrom s calls).refunds
  drafts : ((serving simulatorBackend).finalFrom s calls).drafts =
    ((serving (httpBackend cfg)).finalFrom s calls).drafts

/-- **The backends are indistinguishable exactly on the calls that meet the
condition**, from any state, over calls the service takes for the tenant they
are for. -/
theorem backends_agree_iff (cfg : HttpConfig) (s : State) (calls : List BackendCall)
    (hserved : ∀ c ∈ calls, cfg.tenantOf c.subject (some c.tenant) = some c.tenant) :
    Indistinguishable cfg s calls ↔ ∀ t ∈ (serving simulatorBackend).runFrom s calls, Meets t.input t.pre := by
  have halike : ∀ s s' c, s = s' → cfg.tenantOf c.subject (some c.tenant) = some c.tenant →
      (SameAnswer ((serving simulatorBackend).step c s).1 ((serving (httpBackend cfg)).step c s').1 ↔ Meets c s) := by
    intro s s' c hs hc
    subst hs
    exact (step_alike hc s).1
  have hkept : ∀ s s' c, s = s' → cfg.tenantOf c.subject (some c.tenant) = some c.tenant → Meets c s →
      ((serving simulatorBackend).step c s).2 = ((serving (httpBackend cfg)).step c s').2 := by
    intro s s' c hs hc hmeets
    subst hs
    exact (step_alike hc s).2 hmeets
  obtain ⟨hanswers, hfinal⟩ := Machine.lockstep (R := Eq) (G := fun t => Meets t.input t.pre)
    (H := fun t => cfg.tenantOf t.input.subject (some t.input.tenant) = some t.input.tenant) halike hkept calls
    (rfl : s = s) (fun t ht => hserved _ (Machine.input_mem_runFrom ht))
  constructor
  · intro h
    exact hanswers.1 h.answers
  · intro h
    have hstate := hfinal h
    exact ⟨hanswers.2 h, by rw [hstate], by rw [hstate]⟩

/-- A call that does not meet the condition tells them apart. -/
theorem told_apart {cfg : HttpConfig} {s : State} {c : BackendCall}
    (ht : cfg.tenantOf c.subject (some c.tenant) = some c.tenant) (h : ¬ Meets c s) :
    ¬ Indistinguishable cfg s [c] := by
  intro hsame
  have hanswers := hsame.answers
  rw [Machine.answersFrom_cons, Machine.answersFrom_cons, List.forall₂_cons] at hanswers
  exact h ((step_alike ht s).1.1 hanswers.1)

end Sequences

/-- A service that takes the tenant from the header. -/
def plainHttp : HttpConfig := ⟨fun _ => none, "", none⟩

/-- A read, a draft and a refund. -/
def ordinaryCalls : List BackendCall :=
  [⟨none, "acme", .getCustomer "c-100"⟩, ⟨none, "acme", .draftReply "t-5001" "On its way."⟩,
    ⟨none, "acme", .issueRefund "o-1001" (F64.ofInt 10) none⟩]

theorem ordinaryCalls_agree :
    (∀ c ∈ ordinaryCalls, plainHttp.tenantOf c.subject (some c.tenant) = some c.tenant) ∧
      @Indistinguishable asciiData plainHttp State.initial ordinaryCalls := by
  let _ := asciiData
  have hserved : ∀ c ∈ ordinaryCalls, plainHttp.tenantOf c.subject (some c.tenant) = some c.tenant := by
    simp only [ordinaryCalls, List.forall_mem_cons]
    exact ⟨rfl, rfl, rfl, by simp⟩
  refine ⟨hserved, (backends_agree_iff plainHttp State.initial ordinaryCalls hserved).2 ?_⟩
  have hread : ∀ s, Meets ⟨none, "acme", .getCustomer "c-100"⟩ s := by
    intro s
    have hseg : segments "c-100" = ["c-100"] := by decide
    have hroute : (routeOf (segments ("/customers/" ++ "c-100"))).isSome = true := by decide
    refine ⟨fun h => ?_, fun h => ?_⟩
    · obtain ⟨x, -, hl | ⟨hl, -⟩⟩ := h <;> rw [hseg] at hl <;> cases hl
    · rw [h.1] at hroute
      cases hroute
  have hrefund : ∀ s, Meets ⟨none, "acme", .issueRefund "o-1001" (F64.ofInt 10) none⟩ s := by
    intro s
    have hfinite : (F64.ofInt 10).isFinite = true := by decide +kernel
    obtain ⟨o, ho⟩ : ∃ o, getOrder (.str "o-1001") (some "acme") = .ok (some o) := ⟨_, rfl⟩
    have hfresh : replayed none s = none := rfl
    show RefundMeets "acme" "o-1001" (F64.ofInt 10) none s
    rw [RefundMeets, hfresh, ho]
    exact .inr ⟨hfinite, by simp⟩
  simp only [ordinaryCalls, Machine.runFrom, List.forall_mem_cons]
  exact ⟨hread _, trivial, hrefund _, by simp⟩

/-- `get_customer("c-100/pii")`: the simulator finds no such customer, and the
service answers the identifiers of `c-100`. -/
theorem customerPath_told_apart :
    ¬ @Indistinguishable asciiData plainHttp State.initial [⟨none, "acme", .getCustomer "c-100/pii"⟩] := by
  refine @told_apart asciiData plainHttp State.initial ⟨none, "acme", .getCustomer "c-100/pii"⟩ rfl fun h => ?_
  have hsegments : segments "c-100/pii" = ["c-100", "pii"] := by decide
  exact h.1 ⟨"c-100", by decide, .inr ⟨hsegments, _, rfl, rfl⟩⟩

end AgentPlatform
