/-
What the tools disclose over the HTTP backend.

The policy decides on the tool's name; which endpoint answers is decided by the
path the backend builds from a caller's identifier. `httpTo_ok` says which
route a request reaches; the only tool whose path can reach another one is
`crm.customer.read`, whose identifier ends the path.

`confined_iff`: a call keeps the direct identifiers behind an approved
`privacy.pii.read`, and the profile view a profile view, exactly when it is not
such an escape.
-/
import AgentPlatform.PolicyFacts
import AgentPlatform.Sandbox
import AgentPlatform.SimulatorsFacts

namespace AgentPlatform

/-! ## Paths -/

theorem segments_append (a b : String) : segments (a ++ "/" ++ b) = segments a ++ segments b := by
  simp only [segments, List.splitOn_eq_splitOnP, String.toList_append]
  rw [show ("/" : String).toList = ['/'] from rfl, List.append_assoc, List.singleton_append,
    List.splitOnP_append_cons _ _ (by simp), List.map_append]

/-- A path of one segment is the segment. -/
theorem segments_singleton {t x : String} (h : segments t = [x]) : x = t := by
  obtain ⟨cs, hcs, rfl⟩ : ∃ cs, t.toList.splitOn '/' = [cs] ∧ String.ofList cs = x := by
    cases hs : t.toList.splitOn '/' with
    | nil => simp [segments, hs] at h
    | cons cs l =>
      simp only [segments, hs, List.map_cons, List.cons.injEq, List.map_eq_nil_iff] at h
      exact ⟨cs, by rw [h.2], h.1⟩
  have hjoin : ['/'].intercalate (t.toList.splitOn '/') = t.toList := List.intercalate_splitOn '/'
  rw [hcs] at hjoin
  simp only [List.intercalate_singleton] at hjoin
  rw [hjoin, String.ofList_toList]

theorem segments_ne_nil (t : String) : segments t ≠ [] := by
  simp [segments, List.splitOn_ne_nil]

/-- The segments of `/top/text`, and of `/top/text/leaf`. -/
theorem segments_top {top : String} (h : segments ("/" ++ top) = ["", top]) (text : String) :
    segments ("/" ++ top ++ "/" ++ text) = "" :: top :: segments text := by
  rw [segments_append, h]
  rfl

theorem segments_leaf {leaf : String} (h : segments leaf = [leaf]) (path : String) :
    segments (path ++ "/" ++ leaf) = segments path ++ [leaf] := by rw [segments_append, h]

/-- The path a request with an identifier in it has. -/
theorem segments_path {top : String} (h : segments ("/" ++ top) = ["", top]) (text : String) :
    segments ("/" ++ top ++ "/" ++ text ++ "") = "" :: top :: (segments text ++ []) := by
  rw [String.append_empty, segments_top h, List.append_nil]

theorem segments_pathLeaf {top leaf : String} (h : segments ("/" ++ top) = ["", top])
    (hleaf : segments leaf = [leaf]) (text : String) :
    segments ("/" ++ top ++ "/" ++ text ++ ("/" ++ leaf)) = "" :: top :: (segments text ++ [leaf]) := by
  rw [← String.append_assoc, segments_leaf hleaf, segments_top h]
  rfl

/-- A path that does not start as the health check's is not it. -/
theorem path_ne_healthz {before : String} (h : (before.toList.take 2).isPrefixOf "/healthz".toList = false)
    (text after : String) : before ++ text ++ after ≠ "/healthz" := by
  intro heq
  have hp : before.toList <+: "/healthz".toList := by
    rw [← heq]
    simp [String.toList_append]
  have htake := List.isPrefixOf_iff_prefix.2 ((List.take_prefix 2 before.toList).trans hp)
  rw [h] at htake
  cases htake

/-! ## Which route answers -/

namespace Sandbox

open Simulators

variable [UnicodeData]

/-- What a route shows for a tenant, when it answers well. -/
def Shows (tenant : String) (body : Json) (s : State) : Route → Json → Prop
  | .healthz, _ => True
  | .customer id, v => getCustomer (.str id) (some tenant) = .ok (some v)
  | .pii id, v => getPii (.str id) (some tenant) = .ok (some v)
  | .orders id, v =>
    v = .obj [("orders", .arr ((listOrders (.str id) (some tenant)).map Order.toJson))]
  | .ticket id, v => ∃ t, getTicket (.str id) (some tenant) = .ok (some t) ∧ v = t.toJson
  | .drafts id, v => ∃ d s', draftReply (.str id) ((body.field "body").getD (.str "")) (some tenant) s =
      .ok (d, s') ∧ v = d.toJson
  | .quote id, v => ∃ q, quoteRefund (.str id) (some tenant) s = .ok (some q) ∧ v = q.toJson
  | .refunds id, v => ∃ amount key r s', issueRefundWith (.str id) amount (some tenant) key s = .ok (r, s') ∧
      v = r.toJson

/-- A status `raise_for_status` accepts. -/
def isOk (status : Nat) : Prop := 200 ≤ status ∧ status < 300

omit [UnicodeData] in
theorem answer_ok {α : Type} {what : String} {toJson : α → Json} {r : Except Exn (Option α)}
    (h : isOk (answer what toJson r).status) : ∃ a, r = .ok (some a) ∧ (answer what toJson r).body = toJson a := by
  rcases r with e | _ | a
  · exact absurd h.2 (by simp [answer, refuse])
  · exact absurd h.2 (by simp [answer, refuse])
  · exact ⟨a, rfl, rfl⟩

omit [UnicodeData] in
theorem simulate_ok {α σ : Type} {toJson : α → Json} {s : σ} {r : Except Exn (α × σ)}
    (h : isOk (simulate toJson s r).1.status) :
    ∃ a s', r = .ok (a, s') ∧ (simulate toJson s r).1.body = toJson a := by
  rcases r with e | ⟨a, s'⟩
  · exfalso
    have hlt := h.2
    simp only [simulate] at hlt
    split at hlt
    · simp [refuse] at hlt
    · split at hlt <;> simp [refuse] at hlt
  · exact ⟨a, s', rfl, rfl⟩

/-- A well answered request names a tenant, and shows the route's record. -/
theorem endpoint_ok {route : Route} {tenant : Option String} {body : Json} {s : State}
    (hroute : route ≠ .healthz) (h : isOk (endpoint route tenant body s).1.status) :
    ∃ t, tenant = some t ∧ Shows t body s route (endpoint route tenant body s).1.body := by
  cases tenant with
  | none =>
    exfalso
    cases route with
    | healthz => exact hroute rfl
    | refunds id =>
      simp only [endpoint] at h
      cases hf : Py.float ((body.field "amount").getD (.int 0)) with
      | error e =>
        rw [hf] at h
        obtain ⟨a, s', he, -⟩ := simulate_ok h
        cases he
      | ok x =>
        rw [hf] at h
        exact absurd h.2 (by simp [refuse])
    | _ => exact absurd h.2 (by simp [endpoint, refuse])
  | some t =>
    refine ⟨t, rfl, ?_⟩
    cases route with
    | healthz => exact trivial
    | customer id =>
      obtain ⟨v, hv, hb⟩ := answer_ok h
      exact hb ▸ hv
    | pii id =>
      obtain ⟨v, hv, hb⟩ := answer_ok h
      exact hb ▸ hv
    | orders id => rfl
    | ticket id => exact answer_ok h
    | drafts id => exact simulate_ok h
    | quote id => exact answer_ok h
    | refunds id =>
      simp only [endpoint] at h ⊢
      cases hf : Py.float ((body.field "amount").getD (.int 0)) with
      | error e =>
        rw [hf] at h
        obtain ⟨a, s', he, -⟩ := simulate_ok h
        cases he
      | ok x =>
        rw [hf] at h
        obtain ⟨r, s', hr, hb⟩ := simulate_ok h
        exact ⟨x, _, r, s', hr, hb⟩

omit [UnicodeData] in
theorem rendered_state {σ : Type} (r : Reply × σ) : (rendered r).2 = r.2 := by
  unfold rendered
  split <;> rfl

omit [UnicodeData] in
theorem rendered_of_encodable {σ : Type} {r : Reply × σ} (h : r.1.body.encodable = true) : rendered r = r := if_pos h

omit [UnicodeData] in
/-- A response that is well answered is the endpoint's. -/
theorem rendered_ok {σ : Type} {r : Reply × σ} (h : isOk (rendered r).1.status) : rendered r = r := by
  unfold rendered at h ⊢
  split
  · rfl
  · rename_i hno
    rw [if_neg hno] at h
    exact absurd h.2 (by simp [refuse])

/-- An endpoint leaves the ledger in order. -/
theorem ledger_endpoint {route : Route} {tenant : Option String} {body : Json} {s : State} (hs : Ledger s) :
    Ledger (endpoint route tenant body s).2 := by
  have hsimulate : ∀ {α : Type} {toJson : α → Json} {r : Except Exn (α × State)},
      (∀ a s', r = .ok (a, s') → Ledger s') → Ledger (simulate toJson s r).2 := by
    intro α toJson r hr
    rcases r with e | ⟨a, s'⟩
    · exact hs
    · exact hr a s' rfl
  cases route with
  | refunds id =>
    simp only [endpoint]
    cases Py.float ((body.field "amount").getD (.int 0)) with
    | error e => exact hs
    | ok x =>
      cases tenant with
      | none => exact hs
      | some t => exact hsimulate fun r s' h => ledger_issueRefundWith hs h
  | drafts id =>
    cases tenant with
    | none => exact hs
    | some t =>
      refine hsimulate fun d s' h => ?_
      obtain ⟨-, -, hs'⟩ := draftReply_cases h
      rw [hs']
      exact ⟨hs.named, hs.keyed⟩
  | _ => cases tenant <;> exact hs

end Sandbox

section Http

open Simulators Sandbox

variable [UnicodeData]

theorem dispatch_cases (ctx : Option String) (req : Request) (s : State) :
    ((dispatch ctx req s).2 = s ∧ ¬ isOk (dispatch ctx req s).1.status) ∨
    ∃ route, routeOf (segments req.path) = some (req.method, route) ∧
      dispatch ctx req s = rendered (endpoint route (tenantFor ctx req.tenant) req.body s) := by
  have hno : ∀ status detail, 300 ≤ status → ¬ isOk (refuse status detail).status := fun status detail h h' =>
    absurd h'.2 (Nat.not_lt.2 h)
  unfold dispatch
  cases hr : routeOf (segments req.path) with
  | none =>
    refine .inl ?_
    dsimp only
    split
    · exact ⟨rfl, fun h => absurd h.2 (by simp)⟩
    · exact ⟨rfl, hno 404 _ (by decide)⟩
  | some mr =>
    obtain ⟨m, route⟩ := mr
    dsimp only
    split
    · rename_i hm
      split
      · exact .inr ⟨route, by rw [hm], rfl⟩
      · refine .inl ⟨rendered_state _, fun h => ?_⟩
        rw [rendered_ok h] at h
        exact absurd h.2 (by simp [unprocessable])
    · exact .inl ⟨rfl, hno 405 _ (by decide)⟩

/-- The tenant a request is served for: none when the backend cannot send it,
or the service refuses it. -/
def HttpConfig.tenantOf (cfg : HttpConfig) (subject tenant : Option String) : Option String :=
  match tenant, cfg.auth with
  | none, _ => none
  | some t, none => tenantFor none (some t)
  | some t, some verify =>
    match verify (cfg.authorization subject) with
    | .error _ => none
    | .ok ctx => tenantFor ctx (some t)

variable {cfg : HttpConfig} {m : HttpMethod} {path : String} {tenant subject : Option String} {body : Json}
  {s : State}

omit [UnicodeData] in
theorem received_ok {reply : Reply} {v : Json} (h : received reply = .ok v) :
    v = .null ∨ (isOk reply.status ∧ v = reply.body) := by
  unfold received at h
  split at h
  · exact .inl (Except.ok.inj h).symm
  · split at h
    · rename_i hok
      exact .inr ⟨hok, (Except.ok.inj h).symm⟩
    · cases h

/-- A request is not sent or is refused, or the router gets it under the
identity it is served for. -/
theorem httpRequest_cases (hpath : path ≠ "/healthz") :
    ((cfg.tenantOf subject tenant = none ∨ body.encodable = false) ∧
      ∃ e, httpRequest cfg m path tenant body subject s = (.error e, s)) ∨
    ∃ t ctx, cfg.tenantOf subject tenant = tenantFor ctx (some t) ∧
      httpRequest cfg m path tenant body subject s =
        (received (dispatch ctx ⟨m, path, some t, cfg.authorization subject, body⟩ s).1,
          (dispatch ctx ⟨m, path, some t, cfg.authorization subject, body⟩ s).2) := by
  cases tenant with
  | none => exact .inl ⟨.inl rfl, _, rfl⟩
  | some t =>
    cases hbody : body.encodable with
    | false => exact .inl ⟨.inr rfl, _, by simp only [httpRequest, hbody]; rfl⟩
    | true =>
      have hsent : httpRequest cfg m path (some t) body subject s =
          (received (serve cfg.auth ⟨m, path, some t, cfg.authorization subject, body⟩ s).1,
            (serve cfg.auth ⟨m, path, some t, cfg.authorization subject, body⟩ s).2) := by
        simp only [httpRequest, hbody]
        rfl
      rw [hsent]
      cases hauth : cfg.auth with
      | none => exact .inr ⟨t, none, by simp only [HttpConfig.tenantOf, hauth], rfl⟩
      | some verify =>
        cases hv : verify (cfg.authorization subject) with
        | error e =>
          refine .inl ⟨.inl (by simp only [HttpConfig.tenantOf, hauth, hv]),
            ⟨.httpError, "HTTP status error"⟩, ?_⟩
          simp only [serve, identify, hpath, if_false, hv]
          rfl
        | ok ctx =>
          refine .inr ⟨t, ctx, by simp only [HttpConfig.tenantOf, hauth, hv], ?_⟩
          simp only [serve, identify, hpath, if_false, hv]

/-- What a request of the backend's comes to: nothing, or what a route shows for
the tenant it is served for. -/
theorem httpRequest_ok (hpath : path ≠ "/healthz") {v : Json}
    (h : (httpRequest cfg m path tenant body subject s).1 = .ok v) :
    v = .null ∨ ∃ route, routeOf (segments path) = some (m, route) ∧ (route ≠ .healthz →
      ∃ t, cfg.tenantOf subject tenant = some t ∧ Shows t body s route v) := by
  rcases @httpRequest_cases _ cfg m path tenant subject body s hpath with ⟨-, e, he⟩ | ⟨t, ctx, ht, heq⟩
  · rw [he] at h
    cases h
  · rw [heq] at h
    rcases received_ok h with hv | ⟨hok, hv⟩
    · exact .inl hv
    · rcases dispatch_cases ctx ⟨m, path, some t, cfg.authorization subject, body⟩ s with ⟨-, hno⟩ | ⟨route, hr, hd⟩
      · exact absurd hok hno
      · refine .inr ⟨route, hr, fun hroute => ?_⟩
        rw [hd] at hok hv
        have hsame := rendered_ok hok
        rw [hsame] at hok hv
        obtain ⟨t', ht', hshows⟩ := endpoint_ok hroute hok
        exact ⟨t', ht.trans ht', hv ▸ hshows⟩

/-- A request that is served for a tenant gets to the router. -/
theorem httpRequest_served (hpath : path ≠ "/healthz") (hbody : body.encodable = true) {t : String}
    (ht : cfg.tenantOf subject tenant = some t) :
    ∃ ctx t', tenantFor ctx (some t') = some t ∧
      httpRequest cfg m path tenant body subject s =
        (received (dispatch ctx ⟨m, path, some t', cfg.authorization subject, body⟩ s).1,
          (dispatch ctx ⟨m, path, some t', cfg.authorization subject, body⟩ s).2) := by
  rcases @httpRequest_cases _ cfg m path tenant subject body s hpath with ⟨h, -⟩ | ⟨t', ctx, ht', heq⟩
  · rw [ht, hbody] at h
    rcases h with h | h <;> cases h
  · exact ⟨ctx, t', by rw [← ht', ht], heq⟩

/-- The request that reaches a route is answered by it. -/
theorem httpRequest_routed (hpath : path ≠ "/healthz") (hbody : body.encodable = true) {route : Route} {t : String}
    (hr : routeOf (segments path) = some (m, route)) (haccepts : route.accepts body = true)
    (ht : cfg.tenantOf subject tenant = some t) :
    httpRequest cfg m path tenant body subject s =
      (received (rendered (endpoint route (some t) body s)).1, (rendered (endpoint route (some t) body s)).2) := by
  obtain ⟨ctx, t', ht', heq⟩ := @httpRequest_served _ cfg m path tenant subject body s hpath hbody t ht
  rw [heq, dispatch]
  simp only [hr, if_true, haccepts, ht']

theorem ledger_httpRequest (hs : Ledger s) (hpath : path ≠ "/healthz") :
    Ledger (httpRequest cfg m path tenant body subject s).2 := by
  rcases @httpRequest_cases _ cfg m path tenant subject body s hpath with ⟨-, e, he⟩ | ⟨t, ctx, -, heq⟩
  · rwa [he]
  · rw [heq]
    rcases dispatch_cases ctx ⟨m, path, some t, cfg.authorization subject, body⟩ s with ⟨hd, -⟩ | ⟨route, -, hd⟩
    · rwa [hd]
    · rw [hd, rendered_state]
      exact ledger_endpoint hs

theorem httpTo_ok {before after : String} {id : Json} (hpath : ∀ text, before ++ text ++ after ≠ "/healthz")
    {v : Json} (h : (httpTo cfg m before id after tenant body subject s).1 = .ok v) :
    ∃ text, Py.str id = .ok text ∧ (v = .null ∨ ∃ route,
      routeOf (segments (before ++ text ++ after)) = some (m, route) ∧ (route ≠ .healthz →
        ∃ t, cfg.tenantOf subject tenant = some t ∧ Shows t body s route v)) := by
  unfold httpTo at h
  cases htext : Py.str id with
  | error e =>
    rw [htext] at h
    cases h
  | ok text =>
    rw [htext] at h
    exact ⟨text, rfl, httpRequest_ok (hpath text) h⟩

theorem ledger_httpTo {before after : String} {id : Json} (hs : Ledger s)
    (hpath : ∀ text, before ++ text ++ after ≠ "/healthz") :
    Ledger (httpTo cfg m before id after tenant body subject s).2 := by
  unfold httpTo
  cases Py.str id with
  | error e => exact hs
  | ok text => exact ledger_httpRequest hs (hpath text)

end Http

namespace Sandbox

/-! ## The route table, read backwards -/

theorem param_eq_some {id : String} {m m' : HttpMethod} {f : String → Route} {route : Route}
    (h : param id m f = some (m', route)) : id ≠ "" ∧ m' = m ∧ route = f id := by
  unfold param at h
  split at h
  · cases h
  · cases h
    exact ⟨‹_›, rfl, rfl⟩

theorem routeOf_customers {l : List String} {m : HttpMethod} {route : Route}
    (h : routeOf ("" :: "customers" :: l) = some (m, route)) : ∃ x, x ≠ "" ∧
      ((l = [x] ∧ route = .customer x) ∨ (l = [x, "pii"] ∧ route = .pii x) ∨
        (l = [x, "orders"] ∧ route = .orders x)) := by
  unfold routeOf at h
  split at h
  case h_9 => cases h
  all_goals
    rename_i heq
    simp only [List.cons.injEq, true_and] at heq
  case h_2 =>
    obtain ⟨hx, -, hr⟩ := param_eq_some h
    exact ⟨_, hx, .inl ⟨heq, hr⟩⟩
  case h_3 =>
    obtain ⟨hx, -, hr⟩ := param_eq_some h
    exact ⟨_, hx, .inr (.inl ⟨heq, hr⟩)⟩
  case h_4 =>
    obtain ⟨hx, -, hr⟩ := param_eq_some h
    exact ⟨_, hx, .inr (.inr ⟨heq, hr⟩)⟩
  all_goals simp at heq

theorem routeOf_pii {l : List String} {m : HttpMethod} {x : String}
    (h : routeOf l = some (m, .pii x)) : l = ["", "customers", x, "pii"] := by
  unfold routeOf at h
  split at h
  case h_1 | h_9 => cases h
  all_goals
    obtain ⟨-, -, hr⟩ := param_eq_some h
    cases hr
  rfl

/-- A route that is read takes no body. -/
theorem accepts_of_get {l : List String} {route : Route} (h : routeOf l = some (.get, route)) (body : Json) :
    route.accepts body = true := by
  unfold routeOf at h
  split at h
  case h_1 =>
    cases h
    rfl
  case h_9 => cases h
  all_goals
    obtain ⟨-, hm, hr⟩ := param_eq_some h
    cases hm
    try (cases hr; rfl)

theorem routeOf_healthz {l : List String} {m : HttpMethod}
    (h : routeOf l = some (m, .healthz)) : l = ["", "healthz"] := by
  unfold routeOf at h
  split at h
  case h_1 => rfl
  case h_9 => cases h
  all_goals
    obtain ⟨-, -, hr⟩ := param_eq_some h
    cases hr

end Sandbox

/-! ## Direct identifiers -/

namespace Simulators

/-- The fields of a customer that identify a person. -/
def Customer.identifiers (c : Customer) : List (String × String) :=
  [("name", c.name), ("email", c.email), ("phone", c.phone)]

/-- A field that holds a direct identifier of a customer record. -/
def identifies (k : String) (v : Json) : Bool :=
  customers.values.any fun c => c.identifiers.any fun e => decide (k = e.1) && Policy.isStr e.2 v

mutual

/-- The value contains a direct identifier of a customer record, at any depth. -/
def discloses : Json → Bool
  | .arr xs => disclosesItems xs
  | .obj fs => disclosesFields fs
  | _ => false

def disclosesItems : List Json → Bool
  | [] => false
  | x :: xs => discloses x || disclosesItems xs

def disclosesFields : List (String × Json) → Bool
  | [] => false
  | (k, v) :: fs => identifies k v || discloses v || disclosesFields fs

end

/-- A value that is no list and no dictionary. -/
def isScalar : Json → Bool
  | .arr _ | .obj _ => false
  | _ => true

theorem discloses_scalar {v : Json} (h : isScalar v = true) : discloses v = false := by
  cases v <;> simp_all [isScalar, discloses]

theorem isScalar_ofOption (o : Option String) : isScalar (.ofOption o) = true := by cases o <;> rfl

theorem identifies_other {k : String} (hk : k ∉ ["name", "email", "phone"]) (v : Json) :
    identifies k v = false := by
  simp only [List.mem_cons, List.not_mem_nil, or_false, not_or] at hk
  simp [identifies, Customer.identifiers, hk.1, hk.2.1, hk.2.2]

theorem disclosesItems_false {xs : List Json} (h : ∀ x ∈ xs, discloses x = false) :
    disclosesItems xs = false := by
  induction xs with
  | nil => rfl
  | cons x xs ih =>
    rw [disclosesItems, h x (List.mem_cons_self ..), ih fun y hy => h y (List.mem_cons_of_mem _ hy)]
    rfl

/-- No field is named as an identifier. -/
def anonymous (fs : List (String × Json)) : Bool :=
  (fs.map Prod.fst).all fun k => decide (k ∉ ["name", "email", "phone"])

theorem disclosesFields_false {fs : List (String × Json)} (hk : anonymous fs = true)
    (hv : ∀ e ∈ fs, discloses e.2 = false) : disclosesFields fs = false := by
  induction fs with
  | nil => rfl
  | cons e fs ih =>
    simp only [anonymous, List.map_cons, List.all_cons, Bool.and_eq_true, decide_eq_true_eq] at hk
    rw [disclosesFields, identifies_other hk.1, hv e (List.mem_cons_self ..),
      ih hk.2 fun y hy => hv y (List.mem_cons_of_mem _ hy)]
    rfl

/-- A record of scalars that are not named as identifiers. -/
theorem discloses_record {fs : List (String × Json)} (hk : anonymous fs = true)
    (hv : ∀ e ∈ fs, isScalar e.2 = true) : discloses (.obj fs) = false :=
  disclosesFields_false hk fun e he => discloses_scalar (hv e he)

/-- What a refund may have been passed for its key. -/
theorem discloses_key {v : Json} (h : v.isScalar = true ∨ v.truthy = false) : discloses v = false := by
  cases v with
  | arr xs =>
    rcases h with h | h
    · cases h
    · obtain rfl : xs = [] := by simpa [Json.truthy] using h
      rfl
  | obj fs =>
    rcases h with h | h
    · cases h
    · obtain rfl : fs = [] := by simpa [Json.truthy] using h
      rfl
  | _ => rfl

theorem discloses_of_mem {fs : List (String × Json)} {e : String × Json} (he : e ∈ fs)
    (h : disclosesFields fs = false) : discloses e.2 = false := by
  induction fs with
  | nil => cases he
  | cons x fs ih =>
    simp only [disclosesFields, Bool.or_eq_false_iff] at h
    rcases List.mem_cons.1 he with rfl | he
    · exact h.1.2
    · exact ih he h.2

/-- What is read out of an answer shows no more than the answer. -/
theorem discloses_field {k : String} {v : Json} (h : discloses v = false) :
    discloses (((orEmpty v).field k).getD (.arr [])) = false := by
  cases hf : (orEmpty v).field k with
  | none => rfl
  | some w =>
    unfold orEmpty at hf
    split at hf
    · cases v with
      | obj fs => exact discloses_of_mem (Dict.mem_of_find hf) h
      | _ => cases hf
    · cases hf

theorem discloses_profile {c : Customer} : discloses c.profile = false := by
  have hkeys : (c.items.filter fun e => decide (e.1 ∉ ["name", "email", "phone"])) =
      [("id", .str c.id), ("tenant", .str c.tenant), ("tier", .str c.tier), ("region", .str c.region),
        ("created_at", .str c.createdAt)] := rfl
  rw [Customer.profile, hkeys]
  exact discloses_record rfl (by simp [isScalar])

/-- The direct identifiers of a customer disclose it. -/
theorem discloses_pii {c : Customer} (hc : c ∈ customers.values) : discloses c.pii = true := by
  have hall : ∀ c ∈ customers.values, discloses c.pii = true := by decide
  exact hall c hc

theorem quoteRefund_ok {id : Json} {tenant : Option String} {s : State} {q : Quote}
    (h : quoteRefund id tenant s = .ok (some q)) : q.orderId = id ∧ isScalar q.alreadyRefunded = true := by
  unfold quoteRefund at h
  obtain ⟨order, -, h⟩ := map_ok h
  obtain ⟨o, -, rfl⟩ := Option.map_eq_some_iff.1 h
  refine ⟨rfl, ?_⟩
  dsimp only
  split <;> rfl

theorem discloses_order {o : Order} (ho : o ∈ orders.values) : discloses o.toJson = false := by
  have hall : ∀ o ∈ orders.values, discloses o.items = false := by
    simp only [orders, Dict.values, List.map_cons, List.map_nil, List.forall_mem_cons]
    decide
  refine disclosesFields_false rfl ?_
  simp only [List.forall_mem_cons]
  exact ⟨rfl, rfl, rfl, hall o ho, rfl, rfl, rfl, rfl, by simp⟩

theorem discloses_ticket {t : Ticket} (ht : t ∈ tickets.values) : discloses t.toJson = false := by
  have hall : ∀ t ∈ tickets.values, discloses t.messages = false := by
    simp only [tickets, Dict.values, List.map_cons, List.map_nil, List.forall_mem_cons]
    decide
  refine disclosesFields_false rfl ?_
  simp only [List.forall_mem_cons]
  exact ⟨rfl, rfl, rfl, rfl, rfl, hall t ht, by simp⟩

theorem discloses_orders {id : Json} {tenant : Option String} :
    discloses (.arr ((listOrders id tenant).map Order.toJson)) = false := by
  refine disclosesItems_false fun x hx => ?_
  obtain ⟨o, ho, rfl⟩ := List.mem_map.1 hx
  exact discloses_order (List.mem_of_mem_filter ho)

/-- The orders have a JSON text. -/
theorem encodable_orders {id : Json} {tenant : Option String} :
    (Json.obj [("orders", .arr ((listOrders id tenant).map Order.toJson))]).encodable = true := by
  have hall : ∀ o ∈ orders.values, o.toJson.encodable = true := by
    simp only [orders, Dict.values, List.map_cons, List.map_nil, List.forall_mem_cons]
    decide +kernel
  have hitems : Json.encodableItems ((listOrders id tenant).map Order.toJson) = true := by
    refine (Json.encodableItems_iff _).2 fun x hx => ?_
    obtain ⟨o, ho, rfl⟩ := List.mem_map.1 hx
    exact hall o (List.mem_of_mem_filter ho)
  simpa [Json.encodable, Json.encodableFields] using hitems

end Simulators

section Shows

open Simulators Sandbox

variable [UnicodeData]

/-- Only the identifiers' own route shows an identifier. -/
theorem Sandbox.Shows.discloses {tenant : String} {body : Json} {s : State} {route : Route} {v : Json}
    (hs : Ledger s) (hbody : isScalar ((body.field "body").getD (.str "")) = true)
    (hroute : ∀ x, route ≠ .pii x) (hhealth : route ≠ .healthz) (h : Shows tenant body s route v) :
    discloses v = false := by
  cases route with
  | healthz => exact absurd rfl hhealth
  | pii x => exact absurd rfl (hroute x)
  | customer x =>
    obtain ⟨c, -, rfl⟩ := read_customer ((getCustomer_eq _ _).symm.trans h)
    exact discloses_profile
  | orders x =>
    subst h
    exact disclosesFields_false rfl (by simpa using discloses_orders)
  | ticket x =>
    obtain ⟨t, ht, rfl⟩ := h
    exact discloses_ticket (scoped_read ht).mem.1
  | drafts x =>
    obtain ⟨d, s', hd, rfl⟩ := h
    obtain ⟨-, rfl, -⟩ := draftReply_cases hd
    refine discloses_record rfl ?_
    simp only [List.forall_mem_cons]
    exact ⟨rfl, rfl, rfl, hbody, rfl, by simp⟩
  | quote x =>
    obtain ⟨q, hq, rfl⟩ := h
    obtain ⟨hid, hrefunded⟩ := quoteRefund_ok hq
    refine discloses_record rfl ?_
    simp only [List.forall_mem_cons]
    exact ⟨by rw [hid]; rfl, rfl, hrefunded, rfl, by simp⟩
  | refunds x =>
    obtain ⟨amount, key, r, s', hr, rfl⟩ := h
    obtain ⟨hid, hkey⟩ : Simulators.discloses r.orderId = false ∧ Simulators.discloses r.idempotencyKey = false := by
      -- what is answered is on the ledger afterwards
      obtain ⟨k, hk⟩ := issueRefundWith_held hr
      have hs' := ledger_issueRefundWith hs hr
      obtain ⟨o, i, hi, -⟩ := hs'.named k r hk
      exact ⟨by rw [hi]; rfl, discloses_key (hs'.keyed k r hk)⟩
    refine disclosesFields_false rfl ?_
    simp only [List.forall_mem_cons]
    exact ⟨rfl, hid, discloses_scalar (isScalar_ofOption _), rfl, rfl, hkey, by simp⟩

end Shows

/-! ## What the tools show -/

section Tools

open Simulators Sandbox

variable [UnicodeData] {cfg : HttpConfig} {m : HttpMethod} {before after top : String} {leaf : List String}
  {id body v : Json} {tenant subject : Option String} {s : State}

/-- A request with an identifier in its path answers nothing, or what a route
of the service shows. -/
theorem httpTo_shows (hbefore : (before.toList.take 2).isPrefixOf "/healthz".toList = false)
    (hpath : ∀ text, segments (before ++ text ++ after) = "" :: top :: (segments text ++ leaf))
    (h : (httpTo cfg m before id after tenant body subject s).1 = .ok v) :
    v = .null ∨ ∃ text route t, Py.str id = .ok text ∧
      routeOf ("" :: top :: (segments text ++ leaf)) = some (m, route) ∧ route ≠ .healthz ∧
      cfg.tenantOf subject tenant = some t ∧ Shows t body s route v := by
  obtain ⟨text, htext, hv⟩ := httpTo_ok (fun text => path_ne_healthz hbefore text after) h
  rcases hv with hv | ⟨route, hr, hshows⟩
  · exact .inl hv
  · rw [hpath] at hr
    have hroute : route ≠ .healthz := by
      rintro rfl
      have hl := routeOf_healthz hr
      simp [segments_ne_nil] at hl
    obtain ⟨t, ht, hshows⟩ := hshows hroute
    exact .inr ⟨text, route, t, htext, hr, hroute, ht, hshows⟩

/-- A request whose path is not the identifiers' shows none. -/
theorem httpTo_hides (hs : Ledger s) (hbody : isScalar ((body.field "body").getD (.str "")) = true)
    (hbefore : (before.toList.take 2).isPrefixOf "/healthz".toList = false)
    (hpath : ∀ text, segments (before ++ text ++ after) = "" :: top :: (segments text ++ leaf))
    (hother : top ≠ "customers" ∨ leaf = ["orders"])
    (h : (httpTo cfg m before id after tenant body subject s).1 = .ok v) : discloses v = false := by
  rcases httpTo_shows hbefore hpath h with rfl | ⟨text, route, t, -, hr, hroute, -, hshows⟩
  · rfl
  · refine hshows.discloses hs hbody (fun x => ?_) hroute
    rintro rfl
    have hl := routeOf_pii hr
    simp only [List.cons.injEq, true_and] at hl
    rcases hother with htop | rfl
    · exact htop hl.1
    · have hlast := congrArg List.getLast? hl.2
      simp at hlast

/-- The identifier's path goes on past the customer. -/
def ReachesPast (tenant id : String) : Prop :=
  ∃ x, x ≠ "" ∧ (segments id = [x, "orders"] ∨
    (segments id = [x, "pii"] ∧ ∃ c, customers.get? x = some c ∧ c.tenant = tenant))

/-- What `get_customer` answers: nothing, the profile of the customer named, or
what lies past it. -/
theorem httpGetCustomer_ok (hid : id = .null ∨ ∃ text, id = .str text)
    (h : ((httpBackend cfg).getCustomer id tenant subject s).1 = .ok v) :
    v = .null ∨ ∃ t, cfg.tenantOf subject tenant = some t ∧
      (getCustomer id (some t) = .ok (some v) ∨ ∃ text, id = .str text ∧ ReachesPast t text) := by
  have hpath : ∀ text, segments ("/customers/" ++ text ++ "") = "" :: "customers" :: (segments text ++ []) :=
    fun text => segments_path (show segments ("/" ++ "customers") = ["", "customers"] by decide) text
  rcases httpTo_shows (m := .get) rfl hpath h with rfl | ⟨text, route, t, htext, hr, -, ht, hshows⟩
  · exact .inl rfl
  refine .inr ⟨t, ht, ?_⟩
  rw [List.append_nil] at hr
  obtain ⟨x, hx, ⟨hl, rfl⟩ | ⟨hl, rfl⟩ | ⟨hl, rfl⟩⟩ := routeOf_customers hr
  · obtain rfl := segments_singleton hl
    rcases hid with rfl | ⟨text', rfl⟩
    · -- no customer is called `None`
      cases htext
      obtain ⟨c, ⟨k, hk, hc, -⟩, -⟩ := read_customer ((getCustomer_eq _ _).symm.trans hshows)
      cases hk
      cases hc
    · cases htext
      exact .inl hshows
  all_goals
    have htext' : id = .str text := by
      rcases hid with rfl | ⟨text', rfl⟩
      · cases htext
        rw [show segments "None" = ["None"] by decide] at hl
        cases hl
      · cases htext
        rfl
    refine .inr ⟨text, htext', x, hx, ?_⟩
  · obtain ⟨c, ⟨k, hk, hc, hct⟩, -⟩ := read_customer ((getPii_eq _ _).symm.trans hshows)
    cases hk
    exact .inr ⟨hl, c, hc, Option.some.inj hct⟩
  · exact .inl hl

omit [UnicodeData] in
theorem discloses_asDict (v : Json) : discloses (Enforcer.asDict v) = discloses v := by
  have hid : ∀ v, identifies "result" v = false := identifies_other (by decide)
  cases v <;> simp [Enforcer.asDict, discloses, disclosesFields, hid]

omit [UnicodeData] in
theorem orElse_hides {method : Method State} {fallback v : Json} (hfallback : discloses fallback = false)
    (hm : ∀ w, (method subject s).1 = .ok w → discloses w = false)
    (h : (orElse method fallback subject s).1 = .ok v) : discloses v = false := by
  rw [orElse_eq] at h
  obtain ⟨w, hw, rfl⟩ := map_ok h
  split
  · exact hm w hw
  · exact hfallback

omit [UnicodeData] in
theorem readHandler_hides {param what : String} {method : Json → Option String → Method State} {kw : Kwargs}
    (hwhat : discloses (notFound what) = false)
    (hm : ∀ id w, (method id kw.tenant subject s).1 = .ok w → discloses w = false)
    (h : (readHandler param what method kw subject s).1 = .ok v) : discloses v = false := by
  rcases readHandler_cases param what method kw with ⟨e, he⟩ | ⟨id, -, he⟩
  · rw [he] at h
    cases h
  · rw [he] at h
    exact orElse_hides hwhat (hm id) h

theorem httpListOrders_hides (hs : Ledger s) (h : ((httpBackend cfg).listOrders id tenant subject s).1 = .ok v) :
    discloses v = false := by
  have hpath : ∀ text, segments ("/customers/" ++ text ++ "/orders") =
      "" :: "customers" :: (segments text ++ ["orders"]) := fun text =>
    segments_pathLeaf (show segments ("/" ++ "customers") = ["", "customers"] by decide)
      (show segments "orders" = ["orders"] by decide) text
  simp only [httpBackend] at h
  cases hr : httpTo cfg .get "/customers/" id "/orders" tenant .null subject s with
  | mk r s' =>
    rw [hr] at h
    cases r with
    | error e => cases h
    | ok w =>
      have hw : discloses w = false :=
        httpTo_hides (m := .get) hs rfl rfl hpath (.inr rfl) (congrArg Prod.fst hr)
      obtain rfl := Except.ok.inj h
      exact discloses_field hw

theorem httpDraftReply_hides {text : Json} (hs : Ledger s) (htext : isScalar text = true)
    (h : ((httpBackend cfg).draftReply id text tenant subject s).1 = .ok v) : discloses v = false := by
  have hpath : ∀ text, segments ("/tickets/" ++ text ++ "/drafts") =
      "" :: "tickets" :: (segments text ++ ["drafts"]) := fun text =>
    segments_pathLeaf (show segments ("/" ++ "tickets") = ["", "tickets"] by decide)
      (show segments "drafts" = ["drafts"] by decide) text
  have hbody : isScalar (((Json.obj [("body", text)]).field "body").getD (.str "")) = true := htext
  exact httpTo_hides (m := .post) hs hbody rfl hpath (.inl (by decide)) h

theorem httpGetTicket_hides (hs : Ledger s) (h : ((httpBackend cfg).getTicket id tenant subject s).1 = .ok v) :
    discloses v = false := by
  have hpath : ∀ text, segments ("/tickets/" ++ text ++ "") = "" :: "tickets" :: (segments text ++ []) :=
    fun text => segments_path (show segments ("/" ++ "tickets") = ["", "tickets"] by decide) text
  exact httpTo_hides (m := .get) hs rfl rfl hpath (.inl (by decide)) h

/-- Both order routes. -/
theorem httpOrder_hides {action : String} (hs : Ledger s) (hbody : body.field "body" = none)
    (haction : segments action = [action])
    (h : (httpTo cfg m "/orders/" id ("/" ++ action) tenant body subject s).1 = .ok v) : discloses v = false := by
  have hpath : ∀ text, segments ("/orders/" ++ text ++ ("/" ++ action)) =
      "" :: "orders" :: (segments text ++ [action]) := fun text =>
    segments_pathLeaf (show segments ("/" ++ "orders") = ["", "orders"] by decide) haction text
  exact httpTo_hides (m := m) hs (by rw [hbody]; rfl) rfl hpath (.inl (by decide)) h

/-- Every tool but the two that read a customer hides the direct identifiers. -/
theorem handler_hides {name : String} {tool : Tool State} {kw : Kwargs} (hs : Ledger s)
    (hfound : (buildTools (httpBackend cfg)).get? name = some tool) (hpii : name ≠ "privacy.pii.read")
    (hread : name ≠ "crm.customer.read")
    (htext : ∀ text, kw.args.get? "body" = some text → name = "tickets.reply.draft" → isScalar text = true)
    (h : (tool.handler kw subject s).1 = .ok v) : discloses v = false := by
  rcases buildTools_cases hfound with ⟨rfl, -⟩ | ⟨-, rfl⟩ | ⟨-, rfl⟩ | ⟨rfl, rfl⟩ | ⟨-, rfl⟩ | ⟨-, rfl⟩ | ⟨rfl, -⟩
  · exact absurd rfl hread
  · rcases crmOrdersList_cases (httpBackend cfg) kw with ⟨e, he⟩ | ⟨customerId, he⟩
    · rw [he] at h
      cases h
    · rw [he] at h
      obtain ⟨w, hw, rfl⟩ := map_ok h
      exact disclosesFields_false rfl (by simpa using httpListOrders_hides hs hw)
  · exact readHandler_hides rfl (fun _ _ => httpGetTicket_hides hs) h
  · rcases ticketsReplyDraft_cases (httpBackend cfg) kw with ⟨e, he⟩ | ⟨ticketId, text, hbody, he⟩
    · rw [he] at h
      cases h
    · rw [he] at h
      exact orElse_hides rfl (fun _ => httpDraftReply_hides hs (htext text hbody rfl)) h
  · exact readHandler_hides rfl (fun _ _ =>
      httpOrder_hides hs rfl (show segments "refund-quote" = ["refund-quote"] by decide)) h
  · rcases refundsIssue_cases (httpBackend cfg) kw with ⟨e, he⟩ | ⟨orderId, amount, x, -, -, -, -, he⟩
    · rw [he] at h
      cases h
    · rw [he] at h
      refine orElse_hides rfl (fun w hw => httpOrder_hides hs ?_ (show segments "refunds" = ["refunds"] by decide)
        hw) h
      cases hk : given (kw.extra.getD none) <;> simp [Json.field, Dict.find]
  · exact absurd rfl hpii

end Tools

/-! ## Confinement -/

section Confinement

open Simulators Sandbox

variable [UnicodeData]

/-- The sandbox service, serving operations of the HTTP backend: each under a
subject token and for a tenant. -/
def vendor (cfg : HttpConfig) : Machine State (Option String × Option String × Op) (Except Exn Json) where
  init := .initial
  step i s := (httpBackend cfg).perform i.2.1 i.2.2 i.1 s

theorem ledger_vendor {cfg : HttpConfig} {s : State} (i : Option String × Option String × Op) (hs : Ledger s) :
    Ledger ((vendor cfg).step i s).2 := by
  have hto : ∀ (m : HttpMethod) (id : Json) (after : String) (body : Json),
      (∀ before ∈ ["/customers/", "/tickets/", "/orders/"],
        Ledger (httpTo cfg m before id after i.2.1 body i.1 s).2) := by
    intro m id after body before hbefore
    have hall : ∀ before ∈ ["/customers/", "/tickets/", "/orders/"],
        (before.toList.take 2).isPrefixOf "/healthz".toList = false := by decide
    exact ledger_httpTo hs fun text => path_ne_healthz (hall before hbefore) text after
  obtain ⟨subject, tenant, op⟩ := i
  cases op with
  | listOrders id =>
    have hl := hto .get id "/orders" .null _ (List.mem_cons_self ..)
    simp only [vendor, Backend.perform, httpBackend]
    rcases hr : httpTo cfg .get "/customers/" id "/orders" tenant .null subject s with ⟨_ | v, s'⟩ <;>
      rw [hr] at hl <;> exact hl
  | _ => exact hto _ _ _ _ _ (by decide)

theorem ledger_reached (cfg : HttpConfig) (ops : List (Option String × Option String × Op)) :
    Ledger ((vendor cfg).final ops) :=
  Machine.invariant (G := fun _ => True) ledger_initial (fun _ i hs _ => ledger_vendor i hs) ops (by simp)

/-- A call of a tool: the credentials, the tool and its arguments. -/
structure ToolCall where
  token : Option String
  toolName : String
  args : Args
  workloadToken : Option String

variable (cfg : HttpConfig) (services : Services State) (c : ToolCall) (s : State)

/-- The call, over the HTTP backend. -/
def ToolCall.run : Run State ToolResult :=
  (services.enforcer (httpBackend cfg)).call c.token c.toolName c.args c.workloadToken s

/-- The call returns a result. -/
def ToolCall.Returns (v : Json) : Prop :=
  ∃ res, (c.run cfg services s).result = .ok res ∧ res.outcome = .ok ∧ res.result = some v

/-- A call keeps to what was decided: direct identifiers are returned only by
`privacy.pii.read`, approved for exactly its arguments, and `crm.customer.read`
returns the customer's profile or that there is none. -/
structure Confined : Prop where
  identifiers : ∀ v, c.Returns cfg services s v → discloses v = true →
    c.toolName = "privacy.pii.read" ∧ ∃ subject d callArgs approvalId id,
      c.token = some subject ∧ services.verifier subject = .ok d ∧
      coerceArgs customerIdSchema c.args = .ok callArgs ∧
      c.args.get? "approval_id" = some approvalId ∧ Py.str approvalId = .ok id ∧
      services.approvals ⟨id, c.toolName, callArgs, d.user, d.workload, d.tenantOrEmpty⟩ s = .ok true
  profile : ∀ v, c.Returns cfg services s v → c.toolName = "crm.customer.read" →
    ∃ subject d callArgs id, c.token = some subject ∧ services.verifier subject = .ok d ∧
      coerceArgs customerIdSchema c.args = .ok callArgs ∧ callArgs.get? "customer_id" = some id ∧
      (v = notFound "customer" ∨ ∃ t, cfg.tenantOf (some subject) d.tenant = some t ∧
        getCustomer id (some t) = .ok (some v))

/-- An allowed `crm.customer.read`, served for a tenant, whose identifier's path
goes on past the customer. -/
def Escapes : Prop :=
  c.toolName = "crm.customer.read" ∧
  (services.enforcer (httpBackend cfg)).workloadRefusal c.workloadToken = .ok none ∧
  ∃ subject d callArgs id answer t, c.token = some subject ∧ subject ≠ "" ∧ services.verifier subject = .ok d ∧
    coerceArgs customerIdSchema c.args = .ok callArgs ∧ callArgs.get? "customer_id" = some (.str id) ∧
    (PolicyClient.decide services.post (Enforcer.policyDoc d c.toolName callArgs)).2 = .ok answer ∧
    answer.decision = .allow ∧ cfg.tenantOf (some subject) d.tenant = some t ∧ ReachesPast t id

variable {cfg services c s} {b : Policy.Bundle} {fmt : Json → String}

/-- What a call returns is what a granted handler returned. -/
theorem returns_granted {v : Json} (h : c.Returns cfg services s v) :
    ∃ (g : (services.enforcer (httpBackend cfg)).Granted c.token c.toolName c.args c.workloadToken s) (w : Json),
      (g.tool.handler g.kwargs (some g.subject) s).1 = .ok w ∧ v = Enforcer.asDict w := by
  obtain ⟨res, hres, hok, hv⟩ := h
  rcases Enforcer.call_cases (services.enforcer (httpBackend cfg)) c.token c.toolName c.args c.workloadToken s
    with hinert | ⟨g, pre, -, -, he⟩
  · exfalso
    rcases hinert.refused res hres with h | h <;> rw [hok] at h <;> cases h
  · rw [ToolCall.run, he, Run.after_result] at hres
    obtain ⟨w, hw, hresult⟩ := Enforcer.execute_ok hres hok
    exact ⟨g, w, hw, Option.some.inj (hv.symm.trans hresult)⟩

/-- A granted `crm.customer.read` returns the profile, or that there is none, or
escapes. -/
theorem customerRead_granted (hpost : services.post = opa b fmt)
    (g : (services.enforcer (httpBackend cfg)).Granted c.token c.toolName c.args c.workloadToken s)
    (hname : c.toolName = "crm.customer.read") {w : Json}
    (hw : (g.tool.handler g.kwargs (some g.subject) s).1 = .ok w) :
    coerceArgs customerIdSchema c.args = .ok g.callArgs ∧ ∃ id, g.callArgs.get? "customer_id" = some id ∧
      (w = notFound "customer" ∨ (∃ t, cfg.tenantOf (some g.subject) g.d.tenant = some t ∧
        getCustomer id (some t) = .ok (some w)) ∨ Escapes cfg services c) := by
  have htool : g.tool = crmCustomerRead (httpBackend cfg) := Enforcer.granted_tool g hname rfl
  have hcoerced : coerceArgs customerIdSchema c.args = .ok g.callArgs := by
    have h := g.coerced
    rwa [htool] at h
  rw [htool] at hw
  change (readHandler "customer_id" "customer" (httpBackend cfg).getCustomer g.kwargs (some g.subject) s).1 = _ at hw
  rcases readHandler_cases "customer_id" "customer" (httpBackend cfg).getCustomer g.kwargs with
    ⟨e, he⟩ | ⟨id, hid, he⟩
  · rw [he] at hw
    cases hw
  refine ⟨hcoerced, id, hid, ?_⟩
  rw [he, orElse_eq] at hw
  obtain ⟨v, hv, rfl⟩ := map_ok hw
  have hstring := g.string_arg b fmt hpost (by decide) (by rw [htool]; rfl) hid
  rcases httpGetCustomer_ok hstring hv with rfl | ⟨t, ht, hread | ⟨text, rfl, hpast⟩⟩
  · exact .inl rfl
  · obtain ⟨customer, -, rfl⟩ := read_customer ((getCustomer_eq _ _).symm.trans hread)
    exact .inr (.inl ⟨t, ht, hread⟩)
  · obtain ⟨-, -, hdecision⟩ := g.not_denied b fmt hpost
    have hallow : g.answer.decision = .allow := by
      rcases g.permitted with h | ⟨h, -⟩
      · exact h
      · rw [hdecision] at h
        exact absurd h (Policy.not_requireApproval (Enforcer.granted_askedFor g).tool (by rw [hname]; decide)
          (by rw [hname]; decide))
    exact .inr (.inr ⟨hname, Enforcer.workloadRefusal_of_accepted g.workload_ok, g.subject, g.d, g.callArgs, text,
      g.answer, t, g.token_eq, g.subject_ne, g.verified, hcoerced, hid, g.asked, hallow, ht, hpast⟩)

theorem confined_of_not_escapes (hpost : services.post = opa b fmt) (hs : Ledger s)
    (h : ¬ Escapes cfg services c) : Confined cfg services c s := by
  constructor
  · intro v hv hdiscloses
    obtain ⟨g, w, hw, rfl⟩ := returns_granted hv
    rw [discloses_asDict] at hdiscloses
    by_cases hpii : c.toolName = "privacy.pii.read"
    · refine ⟨hpii, ?_⟩
      have hcoerced : coerceArgs customerIdSchema c.args = .ok g.callArgs := by
        have hg := g.coerced
        rwa [Enforcer.granted_tool g hpii (show _ = some (privacyPiiRead (httpBackend cfg)) from rfl)] at hg
      obtain ⟨-, -, hdecision⟩ := g.not_denied b fmt hpost
      rcases g.permitted with hallow | ⟨-, approvalId, id, h1, -, h2, h3⟩
      · rw [hdecision] at hallow
        exact absurd hallow (Policy.pii_not_allow (Enforcer.granted_askedFor g).tool (by rw [hpii]; decide))
      · exact ⟨g.subject, g.d, g.callArgs, approvalId, id, g.token_eq, g.verified, hcoerced, h1, h2, h3⟩
    · exfalso
      suffices hfalse : discloses w = false by
        rw [hfalse] at hdiscloses
        cases hdiscloses
      by_cases hread : c.toolName = "crm.customer.read"
      · obtain ⟨-, id, -, rfl | ⟨t, -, hprofile⟩ | hescapes⟩ := customerRead_granted hpost g hread hw
        · rfl
        · obtain ⟨customer, -, rfl⟩ := read_customer ((getCustomer_eq _ _).symm.trans hprofile)
          exact discloses_profile
        · exact absurd hescapes h
      · refine handler_hides hs g.found hpii hread (fun text htext hdraft => ?_) hw
        have hdeclared : g.tool.properties.get? "body" = some (some .string) := by
          rw [Enforcer.granted_tool g hdraft (show _ = some (ticketsReplyDraft (httpBackend cfg)) from rfl)]
          rfl
        rcases g.string_arg b fmt hpost (by decide) hdeclared htext with rfl | ⟨t, rfl⟩ <;> rfl
  · intro v hv hname
    obtain ⟨g, w, hw, rfl⟩ := returns_granted hv
    obtain ⟨hcoerced, id, hid, hcases⟩ := customerRead_granted hpost g hname hw
    refine ⟨g.subject, g.d, g.callArgs, id, g.token_eq, g.verified, hcoerced, hid, ?_⟩
    rcases hcases with rfl | ⟨t, ht, hprofile⟩ | hescapes
    · exact .inl rfl
    · obtain ⟨customer, -, rfl⟩ := read_customer ((getCustomer_eq _ _).symm.trans hprofile)
      exact .inr ⟨t, ht, hprofile⟩
    · exact absurd hescapes h

/-- What lies past a customer is answered: the orders, or the identifiers. -/
theorem httpGetCustomer_past {id t : String} {tenant subject : Option String}
    (ht : cfg.tenantOf subject tenant = some t) (h : ReachesPast t id) :
    ∃ fs, ((httpBackend cfg).getCustomer (.str id) tenant subject s).1 = .ok (.obj fs) ∧
      (Json.obj fs).truthy = true ∧ Dict.find "error" fs = none ∧
      (discloses (.obj fs) = true ∨
        (fs ≠ [("error", .str "unknown customer")] ∧ getCustomer (.str id) (some t) ≠ .ok (some (.obj fs)))) := by
  have hpath : segments ("/customers/" ++ id ++ "") = "" :: "customers" :: segments id := by
    have h := segments_path (show segments ("/" ++ "customers") = ["", "customers"] by decide) id
    rwa [List.append_nil] at h
  have hroute : ∀ {route : Route}, routeOf ("" :: "customers" :: segments id) = some (.get, route) →
      ((httpBackend cfg).getCustomer (.str id) tenant subject s).1 =
        received (rendered (endpoint route (some t) .null s)).1 := by
    intro route hr
    exact congrArg Prod.fst
      (httpRequest_routed (path_ne_healthz rfl id "") rfl (by rw [hpath]; exact hr) (accepts_of_get hr _) ht)
  obtain ⟨x, hx, hl | ⟨hl, c, hc, rfl⟩⟩ := h
  · have hr : routeOf ("" :: "customers" :: segments id) = some (.get, .orders x) := by
      rw [hl]
      exact if_neg hx
    have hrendered := rendered_of_encodable (r := endpoint (.orders x) (some t) .null s) encodable_orders
    refine ⟨[("orders", .arr ((listOrders (.str x) (some t)).map Order.toJson))],
      (hroute hr).trans (by rw [hrendered]; rfl), rfl, rfl, .inr ⟨by simp, fun hread => ?_⟩⟩
    -- no customer's key has two segments
    obtain ⟨c, ⟨k, hk, hc, -⟩, -⟩ := read_customer ((getCustomer_eq _ _).symm.trans hread)
    cases hk
    have hall : ∀ e ∈ customers.entries, (segments e.1).length = 1 := by decide
    have hlength := hall _ (Dict.mem_entries.2 hc)
    rw [hl] at hlength
    cases hlength
  · have hmem : c ∈ customers.values := Dict.mem_values.2 ⟨x, hc⟩
    have hgiven : c.tenant ≠ "" := by
      have hall : ∀ c ∈ customers.values, c.tenant ≠ "" := by decide
      exact hall c hmem
    have hpii : getPii (.str x) (some c.tenant) = .ok (some c.pii) := by
      simp [getPii, lookup, hc, Except.map, scopedTo, given, hgiven]
    have hr : routeOf ("" :: "customers" :: segments id) = some (.get, .pii x) := by
      rw [hl]
      exact if_neg hx
    refine ⟨_, (hroute hr).trans ?_, rfl, rfl, .inl (discloses_pii hmem)⟩
    rw [rendered_of_encodable]
    · simp only [endpoint, hpii]
      rfl
    · simp only [endpoint, hpii]
      rfl

theorem not_confined_of_escapes (h : Escapes cfg services c) : ¬ Confined cfg services c s := by
  obtain ⟨hname, hworkload, subject, d, callArgs, id, answer, t, htoken, hsubject, hverified, hcoerced, hid, hasked,
    hallow, ht, hpast⟩ := h
  obtain ⟨fs, hfs, htruthy, hnone, hcases⟩ := httpGetCustomer_past (s := s) ht hpast
  have hhandler : ((crmCustomerRead (httpBackend cfg)).handler ⟨callArgs, d.tenant, none⟩ (some subject) s).1 =
      .ok (.obj fs) := by
    have honly : ∀ k v, callArgs.get? k = some v → k = "customer_id" := by
      intro k v hk
      obtain ⟨ty, -, hty, -⟩ := coerceArgs_declared hcoerced hk
      by_contra hne
      simp [customerIdSchema, Dict.get?, Dict.find, Ne.symm hne] at hty
    show (readHandler "customer_id" "customer" (httpBackend cfg).getCustomer ⟨callArgs, d.tenant, none⟩
      (some subject) s).1 = _
    have hbound := @readHandler_bound _ "customer_id" "customer" (httpBackend cfg).getCustomer
      ⟨callArgs, d.tenant, none⟩ _ hid honly rfl
    rw [hbound, orElse_eq, hfs]
    simp only [Except.map, htruthy, if_true]
  obtain ⟨res, hres, hok, hv⟩ := @Enforcer.execute_returns _ _ _ _ c.toolName (crmCustomerRead (httpBackend cfg)) _
    none answer _ _ hhandler hnone
  have hreturns : c.Returns cfg services s (.obj fs) := by
    refine ⟨res, ?_, hok, hv⟩
    rw [ToolCall.run, htoken]
    have hfound : (services.enforcer (httpBackend cfg)).tools.get? c.toolName =
        some (crmCustomerRead (httpBackend cfg)) := by
      rw [hname]
      rfl
    have hkey : Enforcer.idempotencyKey (crmCustomerRead (httpBackend cfg)) c.args = .ok none := by
      unfold Enforcer.idempotencyKey
      split <;> rfl
    exact (Enforcer.call_of_allow hworkload hsubject hverified hfound hcoerced hkey hasked hallow).trans hres
  intro hconfined
  rcases hcases with hdiscloses | ⟨hne, hread⟩
  · have hpii := (hconfined.identifiers _ hreturns hdiscloses).1
    rw [hname] at hpii
    exact absurd hpii (by decide)
  · obtain ⟨subject', d', callArgs', id', htoken', hverified', hcoerced', hid', hv'⟩ :=
      hconfined.profile _ hreturns hname
    cases htoken.symm.trans htoken'
    cases hverified.symm.trans hverified'
    cases hcoerced.symm.trans hcoerced'
    cases hid.symm.trans hid'
    rcases hv' with hv' | ⟨t', ht', hv'⟩
    · cases hv'
      exact hne rfl
    · cases ht.symm.trans ht'
      exact hread hv'

/-- **A call over the HTTP backend is confined exactly when it is not an allowed
`crm.customer.read` whose identifier's path goes on past the customer**: in
every state the sandbox service can reach, for every credential, tool,
arguments, policy data and behaviour of the services. -/
theorem confined_iff (cfg : HttpConfig) (ops : List (Option String × Option String × Op))
    (workload : Option (Option String → Except Exn String)) (verifier : String → Except Exn Delegation)
    (b : Policy.Bundle) (fmt : Json → String) (approvals : VerifyRequest → State → Except Exn Bool) (c : ToolCall) :
    Confined cfg ⟨workload, verifier, opa b fmt, approvals⟩ c ((vendor cfg).final ops) ↔
      ¬ Escapes cfg ⟨workload, verifier, opa b fmt, approvals⟩ c :=
  ⟨fun h he => not_confined_of_escapes he h, confined_of_not_escapes rfl (ledger_reached cfg ops)⟩

omit [UnicodeData] in
/-- A support rep of `acme` reads the customer `c-100/pii`, and gets the name,
the email and the phone of `c-100`. -/
theorem customerRead_discloses :
    ¬ @Confined asciiData ⟨fun _ => none, "", none⟩
      ⟨none, fun _ => .ok ⟨"bob", Policy.trustedAgent, "tool-server", ["support_rep"], some "acme"⟩,
        opa (Policy.bundle toolNames none) fun _ => "", fun _ _ => .ok false⟩
      ⟨some "t", "crm.customer.read", Dict.ofList [("customer_id", .str "c-100/pii")], none⟩ State.initial := by
  let _ := asciiData
  intro h
  obtain ⟨res, hres, hp⟩ := exists_ok (p := fun res => decide (res.outcome = .ok) && res.result.any discloses)
    (e := (ToolCall.run ⟨fun _ => none, "", none⟩
      ⟨none, fun _ => .ok ⟨"bob", Policy.trustedAgent, "tool-server", ["support_rep"], some "acme"⟩,
        opa (Policy.bundle toolNames none) fun _ => "", fun _ _ => .ok false⟩
      ⟨some "t", "crm.customer.read", Dict.ofList [("customer_id", .str "c-100/pii")], none⟩
      State.initial).result) (by decide +kernel)
  simp only [Bool.and_eq_true, decide_eq_true_eq, Option.any_eq_true] at hp
  obtain ⟨hok, v, hv, hdiscloses⟩ := hp
  have hpii := (h.identifiers v ⟨res, hres, hok, hv⟩ hdiscloses).1
  exact absurd hpii (by decide)

end Confinement

end AgentPlatform
