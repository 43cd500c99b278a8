/-
The life of an approval.

`Realises` says, operation by operation, what a store owes: what `create` puts
on the books, when `decide` rules, what `verify` answers, and that everything
else only reads. Both stores realise it (`memoryStore_realises`,
`postgresStore_realises`: a check sequence under a lock, and the `WHERE` clause
of one `UPDATE`).

`Lifecycle` is what then holds of every run with fresh identifiers; its last
field characterises `verify` by the history alone. `approval_lifecycle` is the
result for the two stores.
-/
import AgentPlatform.Approvals
import Mathlib.Data.List.Nodup
import Mathlib.Logic.Function.Basic

namespace AgentPlatform

/-- What is on record under each identifier. -/
abbrev Book := String → Option Approval

/-- The request an approval stands for is the same. -/
structure Approval.SameRequest (a b : Approval) : Prop where
  tool : a.tool = b.tool
  args : a.args = b.args
  user : a.user = b.user
  agent : a.agent = b.agent
  reason : a.reason = b.reason
  tenant : a.tenant = b.tenant

theorem Ruling.apply_sameRequest (d : Ruling) (a : Approval) : (d.apply a).SameRequest a :=
  ⟨rfl, rfl, rfl, rfl, rfl, rfl⟩

theorem Approval.SameRequest.refl (a : Approval) : a.SameRequest a := ⟨rfl, rfl, rfl, rfl, rfl, rfl⟩

/-- The approval is for the request as it was made; its arguments compare like
the ones given. -/
structure NewApproval.Recorded (n : NewApproval) (a : Approval) : Prop where
  tool : a.tool = n.tool
  args : ∀ b : Args, a.args.pyEq b.sorted = n.args.pyEq b
  user : a.user = n.user
  agent : a.agent = n.agent
  reason : a.reason = n.reason
  tenant : a.tenant = n.tenant

theorem NewApproval.Recorded.apply {n : NewApproval} {a : Approval} (h : n.Recorded a) (d : Ruling) :
    n.Recorded (d.apply a) := ⟨h.tool, h.args, h.user, h.agent, h.reason, h.tenant⟩

/-- The ruling may decide the approval. -/
def Ruling.Admissible (d : Ruling) (a : Approval) : Prop :=
  a.status = .pending ∧ a.tenant = d.tenant ∧ d.approver ≠ a.user

/-- The approval answers the request. -/
def VerifyRequest.Holds (q : VerifyRequest) (a : Approval) : Prop :=
  a.status = .approved ∧ a.tenant = q.tenant ∧ q.matchesApproval a = true

/-! ## Histories -/

/-- What happened to one approval. -/
inductive LifeEvent where
  | created (n : NewApproval)
  | ruled (d : Ruling)

/-- What a transition did to the approval of an identifier: a `create` that
returned it, a `decide` that succeeded. -/
def lifeEvent {σ : Type} (id : String) (t : Transition σ StoreOp StoreAnswer) : Option LifeEvent :=
  match t.input, t.output with
  | .create n, .created a => if a.id = id then some (.created n) else none
  | .decide d, .found (some _) => if d.id = id then some (.ruled d) else none
  | _, _ => none

theorem lifeEvent_created {σ : Type} {id : String} {t : Transition σ StoreOp StoreAnswer} {n : NewApproval} :
    lifeEvent id t = some (.created n) ↔ t.input = .create n ∧ ∃ a, t.output = .created a ∧ a.id = id := by
  unfold lifeEvent
  split <;> (try split) <;> simp_all

theorem lifeEvent_ruled {σ : Type} {id : String} {t : Transition σ StoreOp StoreAnswer} {d : Ruling} :
    lifeEvent id t = some (.ruled d) ↔ t.input = .decide d ∧ d.id = id ∧ ∃ a, t.output = .found (some a) := by
  unfold lifeEvent
  split <;> (try split) <;> simp_all <;> rintro rfl <;> assumption

/-- What a history did to the approval of an identifier, oldest first. -/
def life {σ : Type} (id : String) (h : List (Transition σ StoreOp StoreAnswer)) : List LifeEvent :=
  h.filterMap (lifeEvent id)

/-- The request was created, by the same user and agent in the same tenant and
with arguments equal as mappings, and then exactly one ruling succeeded: an
approval, by someone else. -/
def ApprovedFor (l : List LifeEvent) (q : VerifyRequest) : Prop :=
  ∃ before between after n d, l = before ++ .created n :: (between ++ .ruled d :: after) ∧
    (∀ d', .ruled d' ∉ between ++ after) ∧
    n.tool = q.tool ∧ n.args.pyEq q.args = true ∧ n.user = q.user ∧ n.agent = q.agent ∧
    n.tenant = q.tenant ∧ d.approved = true ∧ d.approver ≠ q.user

/-- The identifiers the inputs create. -/
def createdIds (ops : List StoreOp) : List String :=
  ops.filterMap fun
    | .create n => some n.id
    | _ => none

/-! ## What a store owes -/

section Store

variable {σ : Type}

/-- The store's operations, as far as the books show. `kept` is what is asked
of a created request for its arguments to be stored faithfully. -/
structure Realises (m : Machine σ StoreOp StoreAnswer) (sound : σ → Prop) (book : σ → Book)
    (kept : NewApproval → Prop) : Prop where
  init : ∀ id, book m.init id = none
  sound_init : sound m.init
  sound_step : ∀ op s, sound s → sound (m.step op s).2
  frame : ∀ op s id a, book (m.step op s).2 id = some a →
    (∃ b, book s id = some b) ∨ ∃ n, op = .create n ∧ n.id = id
  create : ∀ n s, book s n.id = none → kept n →
    (∃ e, m.step (.create n) s = (.raised e, s)) ∨
    ∃ a s', m.step (.create n) s = (.created n.approval, s') ∧ n.Recorded a ∧ a.status = .pending ∧
      book s' = Function.update (book s) n.id (some a)
  decide : ∀ d s, (∃ answer, m.step (.decide d) s = (answer, s) ∧ ∀ a, answer ≠ .found (some a)) ∨
    ∃ a s', book s d.id = some a ∧ d.Admissible a ∧ m.step (.decide d) s = (.found (some (d.apply a)), s') ∧
      book s' = Function.update (book s) d.id (some (d.apply a))
  verify : ∀ q s, sound s → (m.step (.verify q) s).2 = s ∧
    ((m.step (.verify q) s).1 = .verified true ↔ ∃ a, book s q.approvalId = some a ∧ q.Holds a)
  reads : ∀ op s, (∀ n, op ≠ .create n) → (∀ d, op ≠ .decide d) → (m.step op s).2 = s

/-- The transition changes the status on record under the identifier. -/
def statusChanges (book : σ → Book) (id : String) (t : Transition σ StoreOp StoreAnswer) : Bool :=
  match book t.pre id, book t.post id with
  | some a, some a' => decide (a'.status ≠ a.status)
  | _, _ => false

/-- What holds of a run: the request never changes, its status changes once and
only by an admissible ruling, a ruling that returns nothing does nothing, and
`verify` answers by the history. -/
structure Lifecycle (m : Machine σ StoreOp StoreAnswer) (book : σ → Book) (ops : List StoreOp) : Prop where
  request : ∀ t ∈ m.run ops, ∀ id a, book t.pre id = some a →
    ∃ a', book t.post id = some a' ∧ a'.SameRequest a
  status : ∀ t ∈ m.run ops, ∀ id a a', book t.pre id = some a → book t.post id = some a' →
    a'.status ≠ a.status → a.status = .pending ∧ ∃ d, t.input = .decide d ∧ d.id = id ∧
      d.tenant = a.tenant ∧ d.approver ≠ a.user ∧ (a'.status = .approved ↔ d.approved = true)
  once : ∀ id, (m.run ops).countP (statusChanges book id) ≤ 1
  refused : ∀ t ∈ m.run ops, ∀ d, t.input = .decide d → t.output = .found none → t.post = t.pre
  verified : ∀ q, (m.step (.verify q) (m.final ops)).1 = .verified true ↔
    ApprovedFor (life q.approvalId (m.run ops)) q

/-! ## From one step to every run -/

namespace Realises

variable {m : Machine σ StoreOp StoreAnswer} {sound : σ → Prop} {book : σ → Book} {kept : NewApproval → Prop}

/-- What is asked of a transition: a created identifier is not on the books,
and its arguments are kept. -/
def Fresh (book : σ → Book) (kept : NewApproval → Prop) (t : Transition σ StoreOp StoreAnswer) : Prop :=
  ∀ n, t.input = .create n → book t.pre n.id = none ∧ kept n

/-- What one step can do: read, put a new approval on the books, or rule on one. -/
theorem step_cases (R : Realises m sound book kept) {op : StoreOp} {s : σ} (hf : Fresh book kept (m.transition s op)) :
    ((m.step op s).2 = s ∧ ∀ id, lifeEvent id (m.transition s op) = none) ∨
    (∃ n a, op = .create n ∧ (m.step op s).1 = .created n.approval ∧ book s n.id = none ∧ n.Recorded a ∧
      a.status = .pending ∧ book (m.step op s).2 = Function.update (book s) n.id (some a)) ∨
    (∃ d a, op = .decide d ∧ (m.step op s).1 = .found (some (d.apply a)) ∧ book s d.id = some a ∧
      d.Admissible a ∧ book (m.step op s).2 = Function.update (book s) d.id (some (d.apply a))) := by
  cases op with
  | create n =>
    obtain ⟨hnone, hkept⟩ := hf n rfl
    rcases R.create n s hnone hkept with ⟨e, he⟩ | ⟨a, s', hs, hr, hp, hb⟩
    · exact .inl ⟨by rw [he], fun id => by simp [lifeEvent, he]⟩
    · exact .inr (.inl ⟨n, a, rfl, by rw [hs], hnone, hr, hp, by rw [hs, hb]⟩)
  | decide d =>
    rcases R.decide d s with ⟨answer, he, hno⟩ | ⟨a, s', ha, hadm, hs, hb⟩
    · refine .inl ⟨by rw [he], fun id => ?_⟩
      have hnone : lifeEvent id (m.transition s (.decide d)) = none := by
        simp only [lifeEvent, Machine.transition_input, Machine.transition_output, he]
        split
        · contradiction
        · exact absurd rfl (hno _)
        · rfl
      exact hnone
    · exact .inr (.inr ⟨d, a, rfl, by rw [hs], ha, hadm, by rw [hs, hb]⟩)
  | _ => exact .inl ⟨R.reads _ _ (by simp) (by simp), fun _ => rfl⟩

theorem sound_final (R : Realises m sound book kept) (ops : List StoreOp) : sound (m.final ops) :=
  Machine.invariant (G := fun _ => True) R.sound_init (fun s op hs _ => R.sound_step op s hs) ops fun _ _ => trivial

/-- Identifiers on the books were created. -/
theorem mem_createdIds (R : Realises m sound book kept) (ops : List StoreOp) {id : String} {a : Approval}
    (h : book (m.final ops) id = some a) : id ∈ createdIds ops := by
  induction ops using List.reverseRecOn generalizing a with
  | nil =>
    rw [Machine.final_nil, R.init] at h
    cases h
  | append_singleton ops op ih =>
    rw [Machine.final_concat] at h
    rw [createdIds, List.filterMap_append, List.mem_append]
    rcases R.frame op _ id a h with ⟨b, hb⟩ | ⟨n, rfl, rfl⟩
    · exact .inl (ih hb)
    · exact .inr (by simp)

/-- Inputs that never repeat an identifier create fresh ones. -/
theorem fresh_of_nodup (R : Realises m sound book kept) {ops : List StoreOp} (hn : (createdIds ops).Nodup)
    (hk : ∀ n, .create n ∈ ops → kept n) : ∀ t ∈ m.run ops, Fresh book kept t := by
  induction ops using List.reverseRecOn with
  | nil => simp
  | append_singleton ops op ih =>
    rw [createdIds, List.filterMap_append, List.nodup_append] at hn
    intro t ht
    rw [Machine.run_concat, List.mem_append, List.mem_singleton] at ht
    rcases ht with ht | rfl
    · exact ih hn.1 (fun n h => hk n (List.mem_append_left _ h)) t ht
    · rintro n hop
      rw [Machine.transition_input] at hop
      subst hop
      refine ⟨?_, hk n (by simp)⟩
      cases hb : book (m.final ops) n.id with
      | none => exact hb
      | some a => exact absurd rfl (hn.2.2 n.id (R.mem_createdIds ops hb) n.id (by simp))

theorem life_concat (id : String) (h : List (Transition σ StoreOp StoreAnswer))
    (t : Transition σ StoreOp StoreAnswer) : life id (h ++ [t]) = life id h ++ (lifeEvent id t).toList := by
  rw [life, List.filterMap_append]
  cases ht : lifeEvent id t <;> simp [life, ht]

/-- The books show what happened: nothing, a request, or a request and the one
ruling on it. -/
def Shows (l : List LifeEvent) : Option Approval → Prop
  | none => l = []
  | some a =>
    (∃ n, l = [.created n] ∧ n.Recorded a ∧ a.status = .pending) ∨
    (∃ n d, l = [.created n, .ruled d] ∧ n.Recorded a ∧ d.approver ≠ n.user ∧
      a.status = if d.approved then .approved else .denied)

theorem shows_step (R : Realises m sound book kept) {h : List (Transition σ StoreOp StoreAnswer)} {s : σ}
    {op : StoreOp} (hs : ∀ id, Shows (life id h) (book s id)) (hf : Fresh book kept (m.transition s op))
    (id : String) : Shows (life id (h ++ [m.transition s op])) (book (m.step op s).2 id) := by
  rw [life_concat]
  rcases R.step_cases hf with ⟨hpost, hev⟩ | ⟨n, a, rfl, hout, hnone, hrec, hpend, hbook⟩ |
    ⟨d, a, rfl, hout, ha, hadm, hbook⟩
  · rw [hpost, hev id]
    simpa using hs id
  · have hev : lifeEvent id (m.transition s (.create n)) = if n.id = id then some (.created n) else none := by
      simp only [lifeEvent, Machine.transition_input, Machine.transition_output, hout]
      rfl
    rw [hbook, hev]
    by_cases hid : n.id = id
    · subst hid
      have hnil := hs n.id
      rw [hnone] at hnil
      rw [Function.update_self, show life n.id h = [] from hnil]
      exact .inl ⟨n, by simp, hrec, hpend⟩
    · rw [Function.update_of_ne (Ne.symm hid)]
      simpa [hid] using hs id
  · have hev : lifeEvent id (m.transition s (.decide d)) = if d.id = id then some (.ruled d) else none := by
      simp only [lifeEvent, Machine.transition_input, Machine.transition_output, hout]
    rw [hbook, hev]
    by_cases hid : d.id = id
    · subst hid
      have hshow := hs d.id
      rw [ha] at hshow
      rcases hshow with ⟨n, hl, hrec, -⟩ | ⟨n, d', -, -, -, hst⟩
      · rw [Function.update_self, hl]
        exact .inr ⟨n, d, by simp, hrec.apply d, hrec.user ▸ hadm.2.2, rfl⟩
      · rw [hadm.1] at hst
        split at hst <;> cases hst
    · rw [Function.update_of_ne (Ne.symm hid)]
      simpa [hid] using hs id

theorem shows_run (R : Realises m sound book kept) {ops : List StoreOp}
    (hf : ∀ t ∈ m.run ops, Fresh book kept t) (id : String) :
    Shows (life id (m.run ops)) (book (m.final ops) id) :=
  Machine.history_rule (P := fun h s => ∀ id, Shows (life id h) (book s id))
    (fun id => by rw [R.init]; rfl) (fun _ _ _ hs hg => R.shows_step hs hg) ops hf id

/-- Who rules, rules in the tenant of the request. -/
theorem tenant_run (R : Realises m sound book kept) {ops : List StoreOp} (hf : ∀ t ∈ m.run ops, Fresh book kept t)
    {id : String} {n : NewApproval} {d : Ruling} (hcreated : .created n ∈ life id (m.run ops))
    (hruled : .ruled d ∈ life id (m.run ops)) : d.tenant = n.tenant := by
  have hrun := Machine.history_rule (m := m) (G := Fresh book kept)
    (P := fun h s => (∀ id, Shows (life id h) (book s id)) ∧
      ∀ n d, .created n ∈ life id h → .ruled d ∈ life id h → d.tenant = n.tenant)
    ⟨fun id => by rw [R.init]; rfl, fun _ _ h => (nomatch h)⟩ ?_ ops hf
  · exact hrun.2 n d hcreated hruled
  intro h s op hs hg
  refine ⟨R.shows_step hs.1 hg, fun n d hn hd => ?_⟩
  rw [life_concat, List.mem_append] at hn hd
  rcases R.step_cases hg with ⟨-, hev⟩ | ⟨n', a, rfl, hout, hnone, -⟩ | ⟨d', a, rfl, hout, ha, hadm, -⟩
  · rw [hev id] at hn hd
    exact hs.2 n d (hn.resolve_right fun h => nomatch h) (hd.resolve_right fun h => nomatch h)
  · have hnil : n'.id = id → life id h = [] := by
      rintro rfl
      have hshow := hs.1 n'.id
      rwa [hnone] at hshow
    have hd : .ruled d ∈ life id h := hd.resolve_right fun hd => by
      simp only [lifeEvent, Machine.transition_input, Machine.transition_output, hout] at hd
      split at hd <;> simp at hd
    rcases hn with hn | hn
    · exact hs.2 n d hn hd
    simp only [lifeEvent, Machine.transition_input, Machine.transition_output, hout, NewApproval.approval] at hn
    split at hn
    · rw [hnil ‹_›] at hd
      cases hd
    · cases hn
  · have hn : .created n ∈ life id h := hn.resolve_right fun hn => by
      simp only [lifeEvent, Machine.transition_input, Machine.transition_output, hout] at hn
      split at hn <;> simp at hn
    rcases hd with hd | hd
    · exact hs.2 n d hn hd
    simp only [lifeEvent, Machine.transition_input, Machine.transition_output, hout] at hd
    split at hd
    · rename_i hid
      subst hid
      obtain rfl : d = d' := by simpa using hd
      have hshow := hs.1 d.id
      rw [ha] at hshow
      rcases hshow with ⟨n', hl, hrec, -⟩ | ⟨n', d', -, -, -, hst⟩
      · obtain rfl : n = n' := by simpa [hl] using hn
        exact hadm.2.1.symm.trans hrec.tenant
      · rw [hadm.1] at hst
        split at hst <;> cases hst
    · cases hd

theorem holds_iff {n : NewApproval} {a : Approval} (hrec : n.Recorded a) (q : VerifyRequest) :
    q.Holds a ↔ a.status = .approved ∧ n.tool = q.tool ∧ n.args.pyEq q.args = true ∧ n.user = q.user ∧
      n.agent = q.agent ∧ n.tenant = q.tenant := by
  simp only [VerifyRequest.Holds, VerifyRequest.matchesApproval, hrec.tool, hrec.args, hrec.user, hrec.agent,
    hrec.tenant, Bool.and_eq_true, decide_eq_true_eq]
  constructor
  · rintro ⟨hst, ht, ⟨⟨h1, h2⟩, h3⟩, h4⟩
    exact ⟨hst, h1, h2, h3, h4, ht⟩
  · rintro ⟨hst, h1, h2, h3, h4, ht⟩
    exact ⟨hst, ht, ⟨⟨h1, h2⟩, h3⟩, h4⟩

/-- A history the books show approves a request exactly when what is on record
answers it. -/
theorem approvedFor_iff {l : List LifeEvent} {o : Option Approval} (hl : Shows l o) (q : VerifyRequest) :
    ApprovedFor l q ↔ ∃ a, o = some a ∧ q.Holds a := by
  constructor
  · rintro ⟨before, between, after, n, d, rfl, -, h1, h2, h3, h4, h5, happ, -⟩
    cases o with
    | none => simp [Shows] at hl
    | some a =>
      rcases hl with ⟨n', hl, -⟩ | ⟨n', d', hl, hrec, -, hst⟩
      · have hlen := congrArg List.length hl
        simp only [List.length_append, List.length_cons, List.length_nil] at hlen
        omega
      · have hlen := congrArg List.length hl
        simp only [List.length_append, List.length_cons, List.length_nil] at hlen
        obtain rfl : before = [] := List.eq_nil_of_length_eq_zero (by omega)
        obtain rfl : between = [] := List.eq_nil_of_length_eq_zero (by omega)
        simp only [List.nil_append, List.cons.injEq, LifeEvent.created.injEq, LifeEvent.ruled.injEq] at hl
        obtain ⟨rfl, rfl, -⟩ := hl
        rw [happ] at hst
        exact ⟨a, rfl, (holds_iff hrec q).2 ⟨hst, h1, h2, h3, h4, h5⟩⟩
  · rintro ⟨a, rfl, hholds⟩
    rcases hl with ⟨n, -, -, hst⟩ | ⟨n, d, rfl, hrec, happrover, hst⟩
    · rw [hholds.1] at hst
      cases hst
    · obtain ⟨hap, h1, h2, h3, h4, h5⟩ := (holds_iff hrec q).1 hholds
      have happ : d.approved = true := by
        rw [hap] at hst
        split at hst
        · assumption
        · cases hst
      exact ⟨[], [], [], n, d, rfl, by simp, h1, h2, h3, h4, h5, happ, h3 ▸ happrover⟩

/-- What a step does to an approval on record: nothing, or the one ruling. -/
theorem record_step (R : Realises m sound book kept) {op : StoreOp} {s : σ} {id : String} {a : Approval}
    (hf : Fresh book kept (m.transition s op)) (ha : book s id = some a) :
    book (m.step op s).2 id = some a ∨
    ∃ d, op = .decide d ∧ d.id = id ∧ d.Admissible a ∧ book (m.step op s).2 id = some (d.apply a) := by
  rcases R.step_cases hf with ⟨hpost, -⟩ | ⟨n, a', rfl, -, hnone, -, -, hbook⟩ |
    ⟨d, a', rfl, -, ha', hadm, hbook⟩
  · exact .inl (by rw [hpost, ha])
  · have hid : id ≠ n.id := by
      rintro rfl
      rw [hnone] at ha
      cases ha
    exact .inl (by rw [hbook, Function.update_of_ne hid, ha])
  · by_cases hid : id = d.id
    · subst hid
      cases ha.symm.trans ha'
      exact .inr ⟨d, rfl, rfl, hadm, by rw [hbook, Function.update_self]⟩
    · exact .inl (by rw [hbook, Function.update_of_ne hid, ha])

/-- A status that is not pending never changes, and a change leaves it so. -/
theorem once_run (R : Realises m sound book kept) {ops : List StoreOp} (hf : ∀ t ∈ m.run ops, Fresh book kept t)
    (id : String) : (m.run ops).countP (statusChanges book id) ≤ 1 := by
  have hmain := Machine.history_rule (m := m) (G := Fresh book kept)
    (P := fun h s => h.countP (statusChanges book id) = 0 ∨
      (h.countP (statusChanges book id) = 1 ∧ ∃ a, book s id = some a ∧ a.status ≠ .pending))
    (.inl rfl) ?_ ops hf
  · rcases hmain with h | ⟨h, -⟩ <;> omega
  intro h s op hs hg
  rw [List.countP_append, List.countP_singleton]
  cases ha : book s id with
  | none =>
    have hno : statusChanges book id (m.transition s op) = false := by simp [statusChanges, ha]
    rcases hs with h0 | ⟨-, a, ha', -⟩
    · exact .inl (by simp [h0, hno])
    · rw [ha] at ha'
      cases ha'
  | some a =>
    rcases R.record_step hg ha with hsame | ⟨d, -, -, hadm, hruled⟩
    · have hno : statusChanges book id (m.transition s op) = false := by simp [statusChanges, ha, hsame]
      rcases hs with h0 | ⟨h1, a', ha', hne⟩
      · exact .inl (by simp [h0, hno])
      · cases ha.symm.trans ha'
        exact .inr ⟨by simp [h1, hno], a, hsame, hne⟩
    · have hne : (d.apply a).status ≠ .pending := by
        simp only [Ruling.apply]
        split <;> simp
      rcases hs with h0 | ⟨-, a', ha', hne'⟩
      · have hyes : statusChanges book id (m.transition s op) = true := by
          simp [statusChanges, ha, hruled, hadm.1, hne]
        exact .inr ⟨by simp [h0, hyes], _, hruled, hne⟩
      · cases ha.symm.trans ha'
        exact absurd hadm.1 hne'

/-- **A store that realises the operations keeps the lifecycle.** -/
theorem lifecycle (R : Realises m sound book kept) {ops : List StoreOp} (hn : (createdIds ops).Nodup)
    (hk : ∀ n, .create n ∈ ops → kept n) : Lifecycle m book ops := by
  have hf := R.fresh_of_nodup hn hk
  constructor
  case request =>
    intro t ht id a ha
    obtain ⟨s, op, rfl⟩ := Machine.mem_run ht
    rcases R.record_step (hf _ ht) ha with h | ⟨d, -, -, -, h⟩
    · exact ⟨a, h, .refl a⟩
    · exact ⟨d.apply a, h, d.apply_sameRequest a⟩
  case status =>
    intro t ht id a a' ha ha' hne
    obtain ⟨s, op, rfl⟩ := Machine.mem_run ht
    rcases R.record_step (hf _ ht) ha with h | ⟨d, rfl, hid, hadm, h⟩
    · rw [Machine.transition_post, h, Option.some.injEq] at ha'
      exact absurd (by rw [ha']) hne
    · rw [Machine.transition_post, h, Option.some.injEq] at ha'
      refine ⟨hadm.1, d, rfl, hid, hadm.2.1.symm, hadm.2.2, ?_⟩
      rw [← ha']
      cases hd : d.approved <;> simp [Ruling.apply, hd]
  case once => exact R.once_run hf
  case refused =>
    intro t ht d hin hout
    obtain ⟨s, op, rfl⟩ := Machine.mem_run ht
    rw [Machine.transition_input] at hin
    subst hin
    rcases R.decide d s with ⟨answer, he, -⟩ | ⟨a, s', -, -, hs, -⟩
    · simp [he]
    · rw [Machine.transition_output, hs] at hout
      cases hout
  case verified =>
    intro q
    rw [(R.verify q _ (R.sound_final ops)).2, approvedFor_iff (R.shows_run hf _)]

end Realises

end Store

/-! ## The two stores -/

namespace ApprovalStore

/-- A ruling is refused, or decides an approval it may decide. -/
theorem decide_cases (d : Ruling) (s : ApprovalStore) :
    s.decide d = (none, s) ∨
    ∃ a, s.get? d.id = some a ∧ d.Admissible a ∧ s.decide d = (some (d.apply a), s.insert d.id (d.apply a)) := by
  simp only [decide]
  cases ha : s.get? d.id with
  | none => exact .inl rfl
  | some a =>
    dsimp only
    split
    · exact .inl rfl
    · rename_i hadm
      split
      · exact .inl rfl
      · rename_i hself
        rw [not_or, not_not, not_not] at hadm
        exact .inr ⟨a, rfl, ⟨hadm.1, hadm.2, hself⟩, rfl⟩

theorem verify_iff {q : VerifyRequest} {s : ApprovalStore} :
    s.verify q = true ↔ ∃ a, s.get? q.approvalId = some a ∧ q.Holds a := by
  simp only [verify]
  cases ha : s.get? q.approvalId with
  | none => simp
  | some a =>
    simp only [Option.some.injEq, exists_eq_left', VerifyRequest.Holds]
    split
    · rename_i h
      rcases h with h | h <;> simp [h]
    · rename_i h
      rw [not_or, not_not, not_not] at h
      simp [h]

end ApprovalStore

theorem memoryStore_realises : Realises memoryStore (fun _ => True) Dict.get? fun _ => True where
  init _ := rfl
  sound_init := trivial
  sound_step _ _ _ := trivial
  frame op s id a h := by
    cases op with
    | create n =>
      rcases Dict.get?_insert_cases h with ⟨rfl, -⟩ | ⟨-, h⟩
      · exact .inr ⟨n, rfl, rfl⟩
      · exact .inl ⟨a, h⟩
    | decide d =>
      simp only [memoryStore] at h
      rcases s.decide_cases d with hd | ⟨a', ha', -, hd⟩
      · rw [hd] at h
        exact .inl ⟨a, h⟩
      · rw [hd] at h
        rcases Dict.get?_insert_cases h with ⟨rfl, -⟩ | ⟨-, h⟩
        · exact .inl ⟨a', ha'⟩
        · exact .inl ⟨a, h⟩
    | _ => exact .inl ⟨a, h⟩
  create n s _ _ := by
    refine .inr ⟨n.approval, s.insert n.id n.approval, rfl, ⟨rfl, ?_, rfl, rfl, rfl, rfl⟩, rfl, ?_⟩
    · exact fun b => Args.pyEq_sorted n.args b
    · exact Dict.get?_insert_update s n.id n.approval
  decide d s := by
    simp only [memoryStore]
    rcases s.decide_cases d with hd | ⟨a, ha, hadm, hd⟩
    · exact .inl ⟨_, by rw [hd], fun a h => by cases h⟩
    · exact .inr ⟨a, _, ha, hadm, by rw [hd], Dict.get?_insert_update s d.id (d.apply a)⟩
  verify q s _ := ⟨rfl, by simp only [memoryStore, StoreAnswer.verified.injEq, ApprovalStore.verify_iff]⟩
  reads op s hc hd := by
    cases op with
    | create n => exact absurd rfl (hc n)
    | decide d => exact absurd rfl (hd d)
    | _ => rfl

namespace Table

/-- The row under an identifier. -/
def book (t : Table) : Book := fun id => t.rows.find? fun r => decide (r.id = id)

theorem find_iff (t : Table) {id : String} {cond : Approval → Bool} {r : Approval}
    (hc : ∀ r, cond r = true → r.id = id) :
    t.rows.find? cond = some r ↔ t.book id = some r ∧ cond r = true := by
  have hunique : ∀ {x y : Approval}, x ∈ t.rows → y ∈ t.rows → x.id = y.id → x = y := fun hx hy h =>
    List.inj_on_of_nodup_map t.key hx hy h
  constructor
  · intro h
    have hr : cond r = true := List.find?_some h
    refine ⟨?_, hr⟩
    cases hb : t.book id with
    | none => exact absurd (hc r hr) (by simpa using List.find?_eq_none.1 hb r (List.mem_of_find?_eq_some h))
    | some x =>
      have hx : x.id = id := by simpa using List.find?_some hb
      rw [hunique (List.mem_of_find?_eq_some hb) (List.mem_of_find?_eq_some h) (hx.trans (hc r hr).symm)]
  · rintro ⟨hb, hr⟩
    cases hf : t.rows.find? cond with
    | none => exact absurd hr (List.find?_eq_none.1 hf r (List.mem_of_find?_eq_some hb))
    | some x =>
      have hrid : r.id = id := by simpa using List.find?_some hb
      rw [hunique (List.mem_of_find?_eq_some hf) (List.mem_of_find?_eq_some hb)
        ((hc x (List.find?_some hf)).trans hrid.symm)]

theorem book_eq_none {t : Table} {id : String} : t.book id = none ↔ id ∉ t.rows.map Approval.id := by
  simp [book, List.find?_eq_none]

theorem insert_rows {t t' : Table} {row : Approval} (h : t.insert row = some t') : t'.rows = t.rows ++ [row] := by
  simp only [insert] at h
  split at h
  · cases h
  · cases h
    rfl

theorem book_insert {t t' : Table} {row : Approval} (h : t.insert row = some t') :
    t'.book = Function.update t.book row.id (some row) := by
  simp only [insert] at h
  split at h
  · cases h
  · rename_i hnew
    cases h
    funext j
    by_cases hj : j = row.id
    · subst hj
      have hnone : t.book row.id = none := book_eq_none.2 hnew
      simp only [book] at hnone
      simp [book, hnone]
    · simp [book, Function.update_of_ne hj, Ne.symm hj]

theorem book_update (t : Table) {cond : Approval → Bool} {set : Approval → Approval}
    (hset : ∀ r, (set r).id = r.id) (j : String) :
    (t.update cond set hset).2.book j = (t.book j).map fun r => if cond r then set r else r := by
  have hids : ∀ r, (if cond r then set r else r).id = r.id := by
    intro r
    split
    · exact hset r
    · rfl
  simp only [book, update, List.find?_map, Function.comp_def, hids]

/-- No row meets the condition: nothing changes. -/
theorem update_none (t : Table) {cond : Approval → Bool} {set : Approval → Approval}
    {hset : ∀ r, (set r).id = r.id} (h : t.rows.find? cond = none) : (t.update cond set hset).2 = t := by
  have hno : ∀ r ∈ t.rows, cond r = false := by simpa using List.find?_eq_none.1 h
  obtain ⟨rows, key⟩ := t
  have hrows : rows.map (fun r => if cond r then set r else r) = rows := by
    conv_rhs => rw [← List.map_id rows]
    exact List.map_congr_left fun r hr => by simp [hno r hr]
  simp [update, hrows]

end Table

/-! ### Its statements -/

/-- The `WHERE` clause of `decide`. -/
def Ruling.selects (d : Ruling) (r : Approval) : Bool :=
  decide (r.id = d.id ∧ r.status = .pending ∧ r.tenant = d.tenant ∧ r.user ≠ d.approver)

theorem Ruling.selects_iff {d : Ruling} {r : Approval} : d.selects r = true ↔ r.id = d.id ∧ d.Admissible r := by
  simp [Ruling.selects, Ruling.Admissible, ne_comm]

namespace PostgresApprovalStore

theorem decide_eq (d : Ruling) (t : Table) :
    decide d t = ((t.rows.find? d.selects).map d.apply, (t.update d.selects d.apply d.apply_id).2) := by
  simp only [decide, Table.update, List.head?_map, List.head?_filter]
  rfl

/-- The row that a ruling finds. -/
theorem find_selects {d : Ruling} {t : Table} {a : Approval} :
    t.rows.find? d.selects = some a ↔ t.book d.id = some a ∧ d.Admissible a := by
  rw [t.find_iff fun r hr => (Ruling.selects_iff.1 hr).1, Ruling.selects_iff]
  refine and_congr_right fun hb => and_iff_right ?_
  simpa using List.find?_some hb

theorem get_iff {id tenant : String} {t : Table} {a : Approval} :
    get id tenant t = some a ↔ t.book id = some a ∧ a.tenant = tenant := by
  have hid : ∀ r : Approval, Decidable.decide (r.id = id ∧ r.tenant = tenant) = true → r.id = id := fun r hr =>
    (of_decide_eq_true hr).1
  rw [get, Table.select, List.head?_filter, t.find_iff hid, decide_eq_true_eq]
  refine and_congr_right fun hb => and_iff_right ?_
  simpa using List.find?_some hb

/-- What an admissible ruling leaves on record. -/
theorem book_decide {d : Ruling} {t : Table} {a : Approval} (hb : t.book d.id = some a) (hadm : d.Admissible a) :
    (t.update d.selects d.apply d.apply_id).2.book = Function.update t.book d.id (some (d.apply a)) := by
  funext j
  rw [Table.book_update]
  by_cases hj : j = d.id
  · subst hj
    simp [hb, Ruling.selects_iff.2 ⟨by simpa using List.find?_some hb, hadm⟩]
  · rw [Function.update_of_ne hj]
    cases hbj : t.book j with
    | none => rfl
    | some r =>
      have hrj : r.id = j := by simpa using List.find?_some hbj
      have hno : d.selects r = false := by
        cases hr : d.selects r with
        | false => rfl
        | true => exact absurd (hrj.symm.trans (Ruling.selects_iff.1 hr).1) hj
      simp [hno]

theorem verify_iff {q : VerifyRequest} {t : Table} :
    verify q t = true ↔ ∃ a, t.book q.approvalId = some a ∧ q.Holds a := by
  rw [verify]
  cases ha : get q.approvalId q.tenant t with
  | none =>
    simp only [Bool.false_eq_true, false_iff]
    rintro ⟨a, hb, hholds⟩
    rw [get_iff.2 ⟨hb, hholds.2.1⟩] at ha
    cases ha
  | some a =>
    obtain ⟨hb, ht⟩ := get_iff.1 ha
    simp only [hb, Option.some.injEq, exists_eq_left', VerifyRequest.Holds, ht, true_and]
    split
    · rename_i h
      simp [h]
    · rename_i h
      rw [not_not] at h
      simp [h]

end PostgresApprovalStore

/-- The column keeps the request's arguments: what is read back compares like
what was written. -/
def KeptBy (jsonb : Args → Option Args) (n : NewApproval) : Prop :=
  ∀ stored, jsonb n.approval.args = some stored → ∀ b, stored.pyEq b = n.approval.args.pyEq b

/-- A call raises before its statement, or runs it. -/
theorem postgresStore_step (db : ApprovalDatabase) (op : StoreOp) (t : Table) :
    (op.texts.all db.takes = false ∧ ∃ e, (postgresStore db).step op t = (.raised e, t)) ∨
      op.texts.all db.takes = true ∧ (postgresStore db).step op t = PostgresApprovalStore.run db.jsonb op t := by
  simp only [postgresStore]
  cases htaken : op.texts.all db.takes with
  | false => exact .inl ⟨rfl, _, rfl⟩
  | true => exact .inr ⟨rfl, rfl⟩

/-- `create` raises and inserts nothing, or inserts the row. -/
theorem postgresStore_create (db : ApprovalDatabase) (n : NewApproval) (t : Table) :
    (∃ e, (postgresStore db).step (.create n) t = (.raised e, t)) ∨
    ∃ stored t', (StoreOp.create n).texts.all db.takes = true ∧ db.jsonb n.approval.args = some stored ∧
      t.insert { n.approval with args := stored } = some t' ∧
      (postgresStore db).step (.create n) t = (.created n.approval, t') := by
  rcases postgresStore_step db (.create n) t with ⟨-, hraised⟩ | ⟨htaken, hrun⟩
  · exact .inl hraised
  rw [hrun]
  simp only [PostgresApprovalStore.run, PostgresApprovalStore.create]
  cases hj : db.jsonb n.approval.args with
  | none => exact .inl ⟨_, rfl⟩
  | some stored =>
    dsimp only
    cases hins : t.insert { n.approval with args := stored } with
    | none => exact .inl ⟨_, rfl⟩
    | some t' => exact .inr ⟨stored, t', htaken, rfl, hins, rfl⟩

/-- What a call can do to the table: nothing, one row more, or a ruling on the rows it selects. -/
theorem postgresStore_cases (db : ApprovalDatabase) (op : StoreOp) (t : Table) :
    ((postgresStore db).step op t).2 = t ∨
    (∃ n stored t', op = .create n ∧ op.texts.all db.takes = true ∧
      t.insert { n.approval with args := stored } = some t' ∧ ((postgresStore db).step op t).2 = t') ∨
    ∃ d, op = .decide d ∧ ((postgresStore db).step op t).2 = (t.update d.selects d.apply d.apply_id).2 := by
  rcases postgresStore_step db op t with ⟨-, e, he⟩ | ⟨-, hrun⟩
  · exact .inl (by rw [he])
  cases op with
  | create n =>
    rcases postgresStore_create db n t with ⟨e, he⟩ | ⟨stored, t', htaken, -, hins, hs⟩
    · exact .inl (by rw [he])
    · exact .inr (.inl ⟨n, stored, t', rfl, htaken, hins, by rw [hs]⟩)
  | decide d => exact .inr (.inr ⟨d, rfl, congrArg Prod.snd hrun⟩)
  | _ => exact .inl (congrArg Prod.snd hrun)

/-- The texts of the rows that a look-up goes by were taken. -/
def Table.Taken (db : ApprovalDatabase) (t : Table) : Prop :=
  ∀ r ∈ t.rows, db.takes r.id = true ∧ db.takes r.tenant = true

theorem Table.Taken.step {db : ApprovalDatabase} {t : Table} (h : t.Taken db) (op : StoreOp) :
    ((postgresStore db).step op t).2.Taken db := by
  rcases postgresStore_cases db op t with hsame | ⟨n, stored, t', rfl, htaken, hins, hs⟩ | ⟨d, rfl, hs⟩
  · rw [hsame]
    exact h
  · simp only [StoreOp.texts, List.all_cons, List.all_nil, Bool.and_true, Bool.and_eq_true] at htaken
    rw [hs]
    intro r hr
    rw [Table.insert_rows hins] at hr
    rcases List.mem_append.1 hr with hr | hr
    · exact h r hr
    · obtain rfl := List.mem_singleton.1 hr
      exact ⟨htaken.1, htaken.2.2.2.2.2⟩
  · rw [hs]
    intro r hr
    obtain ⟨r₀, hr₀, rfl⟩ := List.mem_map.1 hr
    split
    · exact h r₀ hr₀
    · exact h r₀ hr₀

theorem postgresStore_realises (db : ApprovalDatabase) :
    Realises (postgresStore db) (Table.Taken db) Table.book (KeptBy db.jsonb) where
  init _ := rfl
  sound_init := fun _ h => absurd h List.not_mem_nil
  sound_step op _ h := h.step op
  frame op t id a h := by
    rcases postgresStore_cases db op t with hsame | ⟨n, stored, t', rfl, -, hins, hs⟩ | ⟨d, rfl, hs⟩
    · rw [hsame] at h
      exact .inl ⟨a, h⟩
    · have hbook : t'.book = Function.update t.book n.id (some { n.approval with args := stored }) :=
        Table.book_insert hins
      rw [hs, hbook] at h
      by_cases hid : id = n.id
      · exact .inr ⟨n, rfl, hid.symm⟩
      · rw [Function.update_of_ne hid] at h
        exact .inl ⟨a, h⟩
    · rw [hs, Table.book_update] at h
      obtain ⟨b, hb, -⟩ := Option.map_eq_some_iff.1 h
      exact .inl ⟨b, hb⟩
  create n t hnone hkept := by
    rcases postgresStore_create db n t with he | ⟨stored, t', -, hj, hins, hs⟩
    · exact .inl he
    · refine .inr ⟨{ n.approval with args := stored }, t', hs, ⟨rfl, fun b => ?_, rfl, rfl, rfl, rfl⟩, rfl,
        Table.book_insert hins⟩
      rw [← Args.pyEq_sorted n.args b]
      exact hkept stored hj b.sorted
  decide d t := by
    rcases postgresStore_step db (.decide d) t with ⟨-, e, he⟩ | ⟨-, hrun⟩
    · exact .inl ⟨_, he, fun a h => by cases h⟩
    have hstep : (postgresStore db).step (.decide d) t =
        (.found ((t.rows.find? d.selects).map d.apply), (t.update d.selects d.apply d.apply_id).2) := by
      rw [hrun]
      simp only [PostgresApprovalStore.run, PostgresApprovalStore.decide_eq]
    cases hf : t.rows.find? d.selects with
    | none => exact .inl ⟨.found none, by rw [hstep, hf, Table.update_none t hf]; rfl, fun a h => by cases h⟩
    | some a =>
      obtain ⟨hb, hadm⟩ := PostgresApprovalStore.find_selects.1 hf
      exact .inr ⟨a, _, hb, hadm, by rw [hstep, hf]; rfl, PostgresApprovalStore.book_decide hb hadm⟩
  verify q t htaken := by
    rcases postgresStore_step db (.verify q) t with ⟨hrefused, e, he⟩ | ⟨-, hrun⟩
    · rw [he]
      refine ⟨rfl, iff_of_false (fun h => by cases h) ?_⟩
      -- no row has a text that is refused
      rintro ⟨a, ha, hholds⟩
      have hid : a.id = q.approvalId := by simpa using List.find?_some ha
      have hrow := htaken a (List.mem_of_find?_eq_some ha)
      rw [hid, hholds.2.1] at hrow
      simp [StoreOp.texts, hrow.1, hrow.2] at hrefused
    · rw [hrun]
      refine ⟨rfl, ?_⟩
      simp only [PostgresApprovalStore.run, StoreAnswer.verified.injEq]
      exact PostgresApprovalStore.verify_iff
  reads op t hc hd := by
    rcases postgresStore_cases db op t with hsame | ⟨n, _, _, hop, -⟩ | ⟨d, hop, -⟩
    · exact hsame
    · exact absurd hop (hc n)
    · exact absurd hop (hd d)

/-- **The life of an approval.** In every run of either store whose identifiers
are fresh, the request never changes, its status changes at most once and only
by a ruling in its tenant by someone else, a ruling that returns nothing does
nothing, and `verify` answers exactly by the history. Of the database column
it is asked that what it reads back compares like what was written. -/
theorem approval_lifecycle (db : ApprovalDatabase) (ops : List StoreOp) (hn : (createdIds ops).Nodup) :
    Lifecycle memoryStore Dict.get? ops ∧
    ((∀ n, .create n ∈ ops → KeptBy db.jsonb n) → Lifecycle (postgresStore db) Table.book ops) :=
  ⟨memoryStore_realises.lifecycle hn fun _ _ => trivial, (postgresStore_realises db).lifecycle hn⟩

/-- A database that refuses a NUL in a text and keeps mappings as they are. -/
def plainApprovals : ApprovalDatabase where
  takes s := decide (Char.ofNat 0 ∉ s.toList)
  jsonb := some

/-- A refund's approval, granted by a manager. -/
def approvalRun : List StoreOp :=
  [.create ⟨"1", "refunds.issue", Dict.ofList [("order_id", .str "o-1002"), ("amount", .int 200)], "alice",
      "agent", "above the limit", "acme", F64.ofInt 1⟩,
    .decide ⟨"ap-1", "mallory", true, none, "globex", F64.ofInt 2⟩,
    .decide ⟨"ap-1", "manager", true, none, "acme", F64.ofInt 3⟩]

theorem approvalRun_lifecycle :
    Lifecycle memoryStore Dict.get? approvalRun ∧ Lifecycle (postgresStore plainApprovals) Table.book approvalRun := by
  have h := approval_lifecycle plainApprovals approvalRun (by decide)
  refine ⟨h.1, h.2 fun n _ stored hs b => ?_⟩
  cases hs
  rfl

end AgentPlatform
