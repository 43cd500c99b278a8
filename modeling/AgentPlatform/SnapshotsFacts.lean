/-
What a restart keeps, and what the refund ledger keeps.

`Restorable` is what every operation leaves behind: each record is stored under
the key `restore` gives it, and each counter stands one past the largest number
of the stored identifiers. So a restart changes nothing (`restart_eq`), and it
cannot be seen from any later answer (`restart_invisible`).

`loses_nothing_iff`: a run loses no refund exactly when no refund is issued
without a key while its identifier is already a key of the ledger. A caller's
key can be such an identifier.
-/
import AgentPlatform.SimulatorsFacts
import AgentPlatform.Snapshots

namespace AgentPlatform

namespace Simulators

/-! ## Identifiers -/

theorem pad4_toList (n : Nat) :
    (pad4 n).toList = List.replicate (4 - (Py.decimalDigits n).length) '0' ++ Py.decimalDigits n := by
  simp [pad4]

theorem isDigit_pad4 {n : Nat} {c : Char} (h : c ∈ (pad4 n).toList) : c.isDigit = true := by
  rw [pad4_toList, List.mem_append] at h
  rcases h with h | h
  · rw [List.eq_of_mem_replicate h]
    decide
  · exact Nat.isDigit_of_mem_toDigits (by decide) (by decide) h

theorem pad4_ne_nil (n : Nat) : (pad4 n).toList ≠ [] := by
  rw [pad4_toList]
  exact List.append_ne_nil_of_right_ne_nil _ Nat.toDigits_ne_nil

/-- The number of an identifier the simulators made reads back. -/
theorem ofDigitChars_pad4 (n : Nat) : Nat.ofDigitChars 10 (pad4 n).toList 0 = n := by
  rw [pad4_toList, Nat.ofDigitChars_append, Nat.ofDigitChars_replicate_zero, Nat.mul_zero]
  exact Nat.ofDigitChars_toDigits (by decide) (by decide)

theorem idNumber_append {label : String} {l : List Char} (hl : label.toList = l ++ ['-']) (n : Nat) :
    idNumber (label ++ pad4 n) = some n := by
  have hdigits : ∀ c ∈ (pad4 n).toList.reverse, decide (c ≠ '-') = true := by
    intro c hc
    have hdigit := isDigit_pad4 (List.mem_reverse.1 hc)
    rw [decide_eq_true_eq]
    rintro rfl
    exact absurd hdigit (by decide)
  have hsuffix : ((label ++ pad4 n).toList.reverse.takeWhile (· ≠ '-')).reverse = (pad4 n).toList := by
    rw [String.toList_append, hl, List.append_assoc, List.reverse_append, List.reverse_append, List.append_assoc,
      List.takeWhile_append_of_pos hdigits]
    simp
  have hall : (pad4 n).toList.all Char.isDigit = true := List.all_eq_true.2 fun c hc => isDigit_pad4 hc
  simp only [idNumber, hsuffix]
  rw [if_pos ⟨pad4_ne_nil n, hall⟩, ofDigitChars_pad4]

theorem append_pad4_inj {label : String} {l : List Char} (hl : label.toList = l ++ ['-']) {m n : Nat}
    (h : label ++ pad4 m = label ++ pad4 n) : m = n := by
  have hnumber := congrArg idNumber h
  rwa [idNumber_append hl, idNumber_append hl, Option.some.injEq] at hnumber

/-- The identifiers that a counter has given out and that are still in use: all
are below the next one, and the last one is among them. -/
structure Numbered (label : String) (next : Nat) (ids : List String) : Prop where
  pos : 0 < next
  below : ∀ id ∈ ids, ∃ n < next, id = label ++ pad4 n
  last : next = 1 ∨ label ++ pad4 (next - 1) ∈ ids

section Numbered

variable {label : String} {next : Nat} {ids : List String}

/-- The counter resumes where it was. -/
theorem Numbered.nextIdNumber_eq {l : List Char} (hl : label.toList = l ++ ['-']) (h : Numbered label next ids) :
    nextIdNumber ids = next := by
  have hbelow : ∀ m ∈ ids.filterMap idNumber, m < next := by
    intro m hm
    obtain ⟨id, hid, hnumber⟩ := List.mem_filterMap.1 hm
    obtain ⟨n, hn, rfl⟩ := h.below id hid
    rw [idNumber_append hl, Option.some.injEq] at hnumber
    omega
  have hpos := h.pos
  unfold nextIdNumber
  cases hmax : (ids.filterMap idNumber).max? with
  | none =>
    rcases h.last with h1 | hlast
    · rw [h1]
      rfl
    · have hmem : next - 1 ∈ ids.filterMap idNumber := List.mem_filterMap.2 ⟨_, hlast, idNumber_append hl _⟩
      rw [List.max?_eq_none_iff.1 hmax] at hmem
      cases hmem
  | some m =>
    obtain ⟨hm, hle⟩ := List.max?_eq_some_iff.1 hmax
    have hlt := hbelow m hm
    rw [Option.getD_some]
    rcases h.last with h1 | hlast
    · omega
    · have := hle (next - 1) (List.mem_filterMap.2 ⟨_, hlast, idNumber_append hl _⟩)
      omega

/-- The next identifier is none of those in use. -/
theorem Numbered.fresh {l : List Char} (hl : label.toList = l ++ ['-']) (h : Numbered label next ids) :
    label ++ pad4 next ∉ ids := by
  intro hmem
  obtain ⟨n, hn, heq⟩ := h.below _ hmem
  have := append_pad4_inj hl heq
  omega

/-- Giving out the next identifier. -/
theorem Numbered.step {ids' : List String} (h : Numbered label next ids)
    (hnew : label ++ pad4 next ∈ ids') (hold : ∀ id ∈ ids', id = label ++ pad4 next ∨ id ∈ ids) :
    Numbered label (next + 1) ids' where
  pos := Nat.succ_pos _
  below id hid := by
    rcases hold id hid with rfl | hid
    · exact ⟨next, Nat.lt_succ_self _, rfl⟩
    · obtain ⟨n, hn, rfl⟩ := h.below id hid
      exact ⟨n, Nat.lt_succ_of_lt hn, rfl⟩
  last := .inr (by simpa using hnew)

theorem numbered_nil : Numbered label 1 [] := ⟨Nat.one_pos, fun _ h => absurd h List.not_mem_nil, .inl rfl⟩

end Numbered

theorem refund_label : ("r-" : String).toList = ['r'] ++ ['-'] := rfl

theorem draft_label : ("d-" : String).toList = ['d'] ++ ['-'] := rfl

/-! ## JSON -/

/-- A record read back is the record. -/
theorem Refund.ofJson_toJson (r : Refund) : Refund.ofJson r.toJson = some r := by
  rcases r with ⟨id, orderId, tenant, amount, status, key⟩
  cases tenant <;> cases key <;> rfl

theorem Draft.ofJson_toJson (d : Draft) : Draft.ofJson d.toJson = some d := by
  rcases d with ⟨id, ticketId, tenant, body, status⟩
  cases tenant <;> rfl

theorem Snapshot.load_toJson (snap : Snapshot) : Snapshot.load (some snap.toJson) = snap := by
  have hrefunds : (snap.refunds.map Refund.toJson).filterMap Refund.ofJson = snap.refunds := by
    simp [List.filterMap_map, Refund.ofJson_toJson]
  have hdrafts : (snap.drafts.map Draft.toJson).filterMap Draft.ofJson = snap.drafts := by
    simp [List.filterMap_map, Draft.ofJson_toJson]
  show Snapshot.mk ((snap.refunds.map Refund.toJson).filterMap Refund.ofJson)
    ((snap.drafts.map Draft.toJson).filterMap Draft.ofJson) = snap
  rw [hrefunds, hdrafts]

theorem restart_def (s : State) : restart s = restore (snapshot s) := by rw [restart, Snapshot.load_toJson]

/-! ## Restorable states -/

/-- Every record is stored under the key that `restore` gives it, and the
counters stand past the stored identifiers. -/
structure Restorable (s : State) : Prop where
  refundKeys : ∀ k r, s.refunds.get? k = some r → k = r.key
  refundIds : Numbered "r-" s.refundSeq (s.refunds.values.map Refund.id)
  draftKeys : ∀ k d, s.drafts.get? k = some d → k = d.id
  draftIds : Numbered "d-" s.draftSeq (s.drafts.values.map Draft.id)

/-- A dictionary whose keys are read off its values is rebuilt from them. -/
theorem ofList_values {κ α : Type} [DecidableEq κ] {d : Dict κ α} {key : α → κ} (h : ∀ k v, d.get? k = some v → k = key v) :
    Dict.ofList (d.values.map fun v => (key v, v)) = d := by
  have hentries : d.values.map (fun v => (key v, v)) = d.entries := by
    rw [Dict.values, List.map_map]
    refine (List.map_congr_left fun e he => ?_).trans (List.map_id _)
    exact Prod.ext (h e.1 e.2 (Dict.mem_entries.1 he)).symm rfl
  rw [hentries, Dict.ofList_entries]

/-- **A restart changes nothing.** -/
theorem Restorable.restart_eq {s : State} (h : Restorable s) : restart s = s := by
  rw [restart_def]
  simp only [restore, snapshot, ofList_values h.refundKeys, ofList_values h.draftKeys,
    h.refundIds.nextIdNumber_eq refund_label, h.draftIds.nextIdNumber_eq draft_label]

theorem restorable_initial : Restorable .initial where
  refundKeys _ _ h := by cases h
  refundIds := numbered_nil
  draftKeys _ _ h := by cases h
  draftIds := numbered_nil

/-- The new counter's identifiers, when a record is stored. -/
theorem Numbered.insert {κ α : Type} [DecidableEq κ] {label : String} {next : Nat} {d : Dict κ α} {id : α → String}
    {k : κ} {v : α} (h : Numbered label next (d.values.map id)) (hv : id v = label ++ pad4 next) :
    Numbered label (next + 1) ((d.insert k v).values.map id) := by
  refine h.step ?_ fun i hi => ?_
  · rw [← hv]
    exact List.mem_map_of_mem (Dict.mem_values.2 ⟨k, Dict.get?_insert_self d k v⟩)
  · obtain ⟨w, hw, rfl⟩ := List.mem_map.1 hi
    obtain ⟨j, hj⟩ := Dict.mem_values.1 hw
    rcases Dict.get?_insert_cases hj with ⟨-, rfl⟩ | ⟨-, hold⟩
    · exact .inl hv
    · exact .inr (List.mem_map_of_mem (Dict.mem_values.2 ⟨j, hold⟩))

variable [UnicodeData]

theorem restorable_issueRefund {orderId : Json} {amount : F64} {tenant key : Option String} {s s' : State}
    {r : Refund} (hs : Restorable s) (h : issueRefund orderId amount tenant key s = .ok (r, s')) : Restorable s' := by
  rcases issueRefund_cases h with ⟨k, -, -, -, rfl⟩ | ⟨-, -, -, rfl, rfl⟩
  · exact hs
  · refine { hs with refundKeys := fun j w hj => ?_, refundIds := hs.refundIds.insert rfl }
    rcases Dict.get?_insert_cases hj with ⟨rfl, rfl⟩ | ⟨-, hj⟩
    · rfl
    · exact hs.refundKeys j w hj

theorem restorable_draftReply {ticketId body : Json} {tenant : Option String} {s s' : State} {d : Draft}
    (hs : Restorable s) (h : draftReply ticketId body tenant s = .ok (d, s')) : Restorable s' := by
  obtain ⟨-, rfl, rfl⟩ := draftReply_cases h
  refine { hs with draftKeys := fun j w hj => ?_, draftIds := hs.draftIds.insert rfl }
  rcases Dict.get?_insert_cases hj with ⟨rfl, rfl⟩ | ⟨-, hj⟩
  · rfl
  · exact hs.draftKeys j w hj

theorem restorable_perform {s : State} (hs : Restorable s) (op : Operation) : Restorable (op.perform s).2 := by
  cases op with
  | issueRefund orderId amount tenant key =>
    simp only [Operation.perform]
    cases h : issueRefund orderId amount tenant key s with
    | error e => exact hs
    | ok r => exact restorable_issueRefund hs h
  | draftReply ticketId body tenant =>
    simp only [Operation.perform]
    cases h : draftReply ticketId body tenant s with
    | error e => exact hs
    | ok d => exact restorable_draftReply hs h
  | _ => exact hs

theorem restorable_step {s : State} (hs : Restorable s) (i : Step) : Restorable (restartable.step i s).2 := by
  cases i with
  | operation op => exact restorable_perform hs op
  | restart =>
    show Restorable (restart s)
    rwa [hs.restart_eq]

/-! ## A restart is invisible -/

/-- **A restart is invisible.** However many restarts stand anywhere among the
operations, the operations are answered as without them, and end in the same
state. -/
theorem restart_invisible (steps : List Step) :
    ((restartable.run steps).filter fun t => t.input.isOperation).map Transition.output =
        (restartable.run (steps.filter Step.isOperation)).map Transition.output ∧
      restartable.final steps = restartable.final (steps.filter Step.isOperation) := by
  have h := Machine.unseen (m := restartable) (R := fun s s' => s = s' ∧ Restorable s) Step.isOperation
    ?_ ?_ steps ⟨rfl, restorable_initial⟩
  · exact ⟨h.1, h.2.1⟩
  · rintro s _ i ⟨rfl, hs⟩ -
    exact ⟨rfl, rfl, restorable_step hs i⟩
  · rintro s _ i ⟨rfl, hs⟩ hi
    cases i with
    | operation op => cases hi
    | restart => exact ⟨hs.restart_eq, restorable_step hs .restart⟩

/-! ## The ledger -/

/-- The key is answered from the ledger. -/
def replays (key : Option String) (s : State) : Bool := given key && (key.bind fun k => s.refunds.get? k).isSome

/-- The refund a step issued: what `issue_refund` returned, unless it answered
from the ledger. -/
def newlyIssued (t : StepTaken) : Option Refund :=
  match t.input, t.output with
  | .operation (.issueRefund _ _ _ key), some (.ok (.refund r)) => if replays key t.pre then none else some r
  | _, _ => none

/-- The refunds a run issued, oldest first. -/
def issued (h : List StepTaken) : List Refund := h.filterMap newlyIssued

/-- The amounts of the order's refunds, summed and rounded as a quote does. -/
def refundedSum (orderId : Json) (rs : List Refund) : Json :=
  match sumFloats ((rs.filter fun r => Json.pyEq r.orderId orderId).map Refund.amount) with
  | some x => .float x.roundCents
  | none => .int 0

/-- The ledger has lost nothing of what a run issued. -/
structure LosesNothing (h : List StepTaken) (s : State) : Prop where
  kept : ∀ r ∈ issued h, r ∈ (snapshot s).refunds
  distinct : ((issued h).map Refund.id).Nodup
  counted : ∀ orderId tenant q, quoteRefund orderId tenant s = .ok (some q) →
    q.alreadyRefunded = refundedSum orderId (issued h)

/-- A refund of this amount can be issued for the order. -/
def Issuable (orderId : Json) (amount : F64) (tenant : Option String) : Prop :=
  (∃ o, Names orders Order.tenant orderId tenant o) ∧ amount.le F64.zero = false

/-- A refund that is issued without a key gets an identifier that is no key of
the ledger. -/
def FreshId (op : Operation) (s : State) : Prop :=
  ∀ orderId amount tenant key, op = .issueRefund orderId amount tenant key → given key = false →
    Issuable orderId amount tenant → s.refunds.get? ("r-" ++ pad4 s.refundSeq) = none

def IdFree (t : StepTaken) : Prop := ∀ op, t.input = .operation op → FreshId op t.pre

omit [UnicodeData] in
/-- The key of a new refund is free. -/
theorem key_free {orderId : Json} {amount : F64} {tenant key : Option String} {s : State} {r : Refund}
    (hfresh : FreshId (.issueRefund orderId amount tenant key) s)
    (hmiss : ∀ k, key = some k → k ≠ "" → s.refunds.get? k = none) (hissuable : Issuable orderId amount tenant)
    (hid : r.id = "r-" ++ pad4 s.refundSeq) (hkey : r.idempotencyKey = .ofOption key) : s.refunds.get? r.key = none := by
  rw [Refund.key_of_option hkey]
  cases hg : given key with
  | true =>
    obtain ⟨k, rfl, hk⟩ := given_iff.1 hg
    exact hmiss k rfl hk
  | false =>
    rw [hid]
    exact hfresh orderId amount tenant key rfl hg hissuable

omit [UnicodeData] in
/-- The identifier of a new draft is free. -/
theorem Restorable.draft_free {s : State} (h : Restorable s) : s.drafts.get? ("d-" ++ pad4 s.draftSeq) = none := by
  by_contra hheld
  obtain ⟨d, hd⟩ := Option.ne_none_iff_exists'.1 hheld
  have hid := h.draftKeys _ d hd
  have hmem : d.id ∈ s.drafts.values.map Draft.id := List.mem_map_of_mem (Dict.mem_values.2 ⟨_, hd⟩)
  rw [← hid] at hmem
  exact h.draftIds.fresh draft_label hmem

omit [UnicodeData] in
theorem replays_eq_false {key : Option String} {s : State}
    (h : ∀ k, key = some k → k ≠ "" → s.refunds.get? k = none) : replays key s = false := by
  cases hg : given key with
  | false => simp [replays, hg]
  | true =>
    obtain ⟨k, rfl, hk⟩ := given_iff.1 hg
    simp [replays, h k rfl hk]

/-- What a step does to the ledger: nothing, or one refund more. -/
theorem issued_cases {s : State} (hs : Restorable s) (i : Step) :
    (newlyIssued (restartable.transition s i) = none ∧ (restartable.step i s).2.refunds = s.refunds ∧
      (restartable.step i s).2.refundSeq = s.refundSeq) ∨
    ∃ orderId amount tenant key r, i = .operation (.issueRefund orderId amount tenant key) ∧
      (∀ k, key = some k → k ≠ "" → s.refunds.get? k = none) ∧ Issuable orderId amount tenant ∧
      newlyIssued (restartable.transition s i) = some r ∧
      r = ⟨"r-" ++ pad4 s.refundSeq, orderId, tenant, amount.roundCents, "issued", .ofOption key⟩ ∧
      (restartable.step i s).2.refunds = s.refunds.insert r.key r ∧
      (restartable.step i s).2.refundSeq = s.refundSeq + 1 := by
  cases i with
  | restart =>
    refine .inl ⟨rfl, ?_⟩
    show (restart s).refunds = _ ∧ (restart s).refundSeq = _
    rw [hs.restart_eq]
    exact ⟨rfl, rfl⟩
  | operation op =>
    cases op with
    | issueRefund orderId amount tenant key =>
      cases h : issueRefund orderId amount tenant key s with
      | error e =>
        refine .inl ?_
        simp [newlyIssued, Machine.transition, restartable, Operation.perform, h, wrote]
      | ok r =>
        obtain ⟨r, s'⟩ := r
        rcases issueRefund_cases h with ⟨k, rfl, hk, hget, rfl⟩ | ⟨hmiss, ho, hpos, hr, hs'⟩
        · refine .inl ?_
          simp [newlyIssued, Machine.transition, restartable, Operation.perform, h, wrote, replays, given, hk, hget]
        · refine .inr ⟨orderId, amount, tenant, key, r, rfl, hmiss, ⟨ho, hpos⟩, ?_, hr, ?_, ?_⟩
          · simp [newlyIssued, Machine.transition, restartable, Operation.perform, h, wrote, replays_eq_false hmiss]
          · rw [hr] at hs' ⊢
            simp only [restartable, Operation.perform, h, wrote, hs']
          · simp only [restartable, Operation.perform, h, wrote, hs']
    | draftReply ticketId body tenant =>
      refine .inl ⟨rfl, ?_⟩
      simp only [restartable, Operation.perform]
      cases h : draftReply ticketId body tenant s with
      | error e => exact ⟨rfl, rfl⟩
      | ok d =>
        obtain ⟨-, -, hs'⟩ := draftReply_cases h
        simp only [wrote, hs']
        exact ⟨trivial, trivial⟩
    | _ => exact .inl ⟨rfl, rfl, rfl⟩

/-- What holds of the ledger after any run: it holds issued refunds only, and
these have identifiers of their own. -/
structure Traced (h : List StepTaken) (s : State) : Prop where
  restorable : Restorable s
  held : ∀ r ∈ s.refunds.values, r ∈ issued h
  distinct : ((issued h).map Refund.id).Nodup
  numbered : ∀ r ∈ issued h, r.status = "issued" ∧ ∃ n < s.refundSeq, r.id = "r-" ++ pad4 n

omit [UnicodeData] in
theorem issued_concat (h : List StepTaken) (t : StepTaken) :
    issued (h ++ [t]) = issued h ++ (newlyIssued t).toList := by
  rw [issued, List.filterMap_append, issued]
  cases ht : newlyIssued t <;> simp [ht]

theorem traced_step {h : List StepTaken} {s : State} (ht : Traced h s) (i : Step) :
    Traced (h ++ [restartable.transition s i]) (restartable.step i s).2 := by
  have hs := restorable_step ht.restorable i
  rcases issued_cases ht.restorable i with
    ⟨hnone, hrefunds, hseq⟩ | ⟨_, _, _, _, r, -, -, -, hsome, hr, hrefunds, hseq⟩
  · have hissued : issued (h ++ [restartable.transition s i]) = issued h := by
      rw [issued_concat, hnone, Option.toList_none, List.append_nil]
    refine ⟨hs, ?_, ?_, ?_⟩
    · rw [hissued, hrefunds]
      exact ht.held
    · rw [hissued]
      exact ht.distinct
    · rw [hissued, hseq]
      exact ht.numbered
  · have hissued : issued (h ++ [restartable.transition s i]) = issued h ++ [r] := by
      rw [issued_concat, hsome, Option.toList_some]
    have hid : r.id = "r-" ++ pad4 s.refundSeq := by rw [hr]
    refine ⟨hs, ?_, ?_, ?_⟩
    · intro w hw
      rw [hrefunds] at hw
      obtain ⟨k, hk⟩ := Dict.mem_values.1 hw
      rw [hissued, List.mem_append, List.mem_singleton]
      rcases Dict.get?_insert_cases hk with ⟨-, rfl⟩ | ⟨-, hold⟩
      · exact .inr rfl
      · exact .inl (ht.held w (Dict.mem_values.2 ⟨k, hold⟩))
    · rw [hissued, List.map_append, List.map_singleton, List.nodup_append]
      refine ⟨ht.distinct, List.nodup_singleton _, ?_⟩
      intro id hold id' hnew heq
      obtain ⟨w, hw, rfl⟩ := List.mem_map.1 hold
      obtain ⟨-, n, hn, hwid⟩ := ht.numbered w hw
      rw [List.mem_singleton] at hnew
      rw [hwid, hnew, hid] at heq
      exact hn.ne (append_pad4_inj refund_label heq)
    · intro w hw
      rw [hseq]
      rw [hissued, List.mem_append, List.mem_singleton] at hw
      rcases hw with hw | rfl
      · obtain ⟨hstatus, n, hn, hwid⟩ := ht.numbered w hw
        exact ⟨hstatus, n, Nat.lt_succ_of_lt hn, hwid⟩
      · exact ⟨by rw [hr], s.refundSeq, Nat.lt_succ_self _, hid⟩

omit [UnicodeData] in
theorem traced_initial : Traced [] .initial where
  restorable := restorable_initial
  held _ h := by cases h
  distinct := List.nodup_nil
  numbered _ h := by cases h

theorem traced_run (steps : List Step) : Traced (restartable.run steps) (restartable.final steps) :=
  Machine.history_rule (m := restartable) (G := fun _ => True) traced_initial (fun _ _ i h _ => traced_step h i)
    steps fun _ _ => trivial

/-- The ledger holds what was issued, in the order it was issued, as long as no
identifier that is given out is already a key. -/
theorem values_step {h : List StepTaken} {s : State} (ht : Traced h s) (hvalues : s.refunds.values = issued h)
    {i : Step} (hfree : IdFree (restartable.transition s i)) :
    (restartable.step i s).2.refunds.values = issued (h ++ [restartable.transition s i]) := by
  rcases issued_cases ht.restorable i with
    ⟨hnone, hrefunds, -⟩ | ⟨orderId, amount, tenant, key, r, hi, hmiss, hissuable, hsome, hr, hrefunds, -⟩
  · rw [issued_concat, hnone, Option.toList_none, List.append_nil, hrefunds, hvalues]
  · have hkey : s.refunds.get? r.key = none := by
      refine key_free (hfree _ hi) hmiss hissuable ?_ ?_ <;> rw [hr]
    rw [issued_concat, hsome, Option.toList_some, hrefunds, Dict.values_insert_of_none hkey, hvalues]

omit [UnicodeData] in
/-- A quote counts the refunds of the ledger. -/
theorem quote_eq {orderId : Json} {tenant : Option String} {s : State} {q : Quote}
    (hstatus : ∀ r ∈ s.refunds.values, r.status = "issued") (h : quoteRefund orderId tenant s = .ok (some q)) :
    q.alreadyRefunded = refundedSum orderId s.refunds.values := by
  have hfilter : (s.refunds.values.filter fun r => Json.pyEq r.orderId orderId && decide (r.status = "issued")) =
      s.refunds.values.filter fun r => Json.pyEq r.orderId orderId := by
    refine List.filter_congr fun r hr => ?_
    rw [decide_eq_true (hstatus r hr), Bool.and_true]
  obtain ⟨o, ho, hq⟩ := map_ok h
  obtain ⟨order, rfl, rfl⟩ := Option.map_eq_some_iff.1 hq
  cases hsum : sumFloats ((s.refunds.values.filter fun r => Json.pyEq r.orderId orderId).map Refund.amount) <;>
    simp only [refundedSum, hfilter, hsum]

omit [UnicodeData] in
theorem losesNothing_of_values {h : List StepTaken} {s : State} (ht : Traced h s)
    (hvalues : s.refunds.values = issued h) : LosesNothing h s where
  kept r hr := by
    rw [← hvalues] at hr
    exact hr
  distinct := ht.distinct
  counted orderId tenant q hq := by
    rw [← hvalues]
    exact quote_eq (fun r hr => (ht.numbered r (ht.held r hr)).1) hq

omit [UnicodeData] in
theorem getOrder_of_names {orderId : Json} {tenant : Option String} {o : Order}
    (h : Names orders Order.tenant orderId tenant o) : getOrder orderId tenant = .ok (some o) := by
  have htenants : ∀ e ∈ orders.entries, e.2.tenant ≠ "" := by
    simp only [orders, List.forall_mem_cons]
    decide
  obtain ⟨k, rfl, hget, rfl⟩ := h
  have htenant : o.tenant ≠ "" := htenants _ (Dict.mem_entries.2 hget)
  simp [getOrder, lookup, hget, Except.map, scopedTo, given, htenant]

/-- A refund without a key is issued whenever it can be. -/
theorem issueRefund_unkeyed {orderId : Json} {amount : F64} {tenant key : Option String} {s : State}
    (hg : given key = false) (h : Issuable orderId amount tenant) :
    ∃ r s', issueRefund orderId amount tenant key s = .ok (r, s') := by
  obtain ⟨⟨o, ho⟩, hpos⟩ := h
  simp only [issueRefund_eq, hg, getOrder_of_names ho, hpos]
  exact ⟨_, _, rfl⟩

/-- A refund is lost when its key is given out as an identifier. -/
theorem not_losesNothing {h : List StepTaken} {s : State} (ht : Traced h s) {i : Step}
    (hfree : ¬ IdFree (restartable.transition s i)) :
    ¬ LosesNothing (h ++ [restartable.transition s i]) (restartable.step i s).2 := by
  intro hlost
  simp only [IdFree, FreshId, not_forall] at hfree
  obtain ⟨_, hi, orderId, amount, tenant, key, rfl, hg, hissuable, hheld⟩ := hfree
  obtain ⟨old, hold⟩ := Option.ne_none_iff_exists'.1 hheld
  rw [Machine.transition_pre] at hold
  rw [Machine.transition_input] at hi
  have hs := restorable_step ht.restorable i
  have hissued := ht.held old (Dict.mem_values.2 ⟨_, hold⟩)
  obtain ⟨-, n, hn, hnumber⟩ := ht.numbered old hissued
  have hkept : old ∈ (restartable.step i s).2.refunds.values := by
    refine hlost.kept old ?_
    rw [issued_concat]
    exact List.mem_append_left _ hissued
  obtain ⟨k, hk⟩ := Dict.mem_values.1 hkept
  rcases issued_cases ht.restorable i with ⟨hnone, -⟩ | ⟨_, _, _, key', r, hi', -, -, -, hr, hrefunds, -⟩
  · obtain ⟨r, s', hr⟩ := issueRefund_unkeyed (s := s) hg hissuable
    simp [hi, newlyIssued, Machine.transition, restartable, Operation.perform, hr, wrote, replays, hg] at hnone
  · subst hi'
    cases hi
    have hrkey : r.key = "r-" ++ pad4 s.refundSeq := by
      rw [hr, Refund.key_of_option rfl, hg]
      rfl
    -- the old refund is under its own key, where the new one is now
    rw [hs.refundKeys k old hk, ← ht.restorable.refundKeys _ old hold, hrefunds, hrkey, Dict.get?_insert_self,
      Option.some.injEq] at hk
    rw [← hk, hr] at hnumber
    exact hn.ne (append_pad4_inj refund_label hnumber).symm

/-- **The refund ledger loses nothing exactly when** no refund is issued without
a key while its identifier is a key of the ledger: after every beginning of the
run it holds all that was issued. -/
theorem loses_nothing_iff (steps : List Step) :
    (∀ before, before <+: steps → LosesNothing (restartable.run before) (restartable.final before)) ↔
      ∀ t ∈ restartable.run steps, IdFree t := by
  constructor
  · intro h
    induction steps using List.reverseRecOn with
    | nil => simp
    | append_singleton steps i ih =>
      have hlast := h _ (List.prefix_refl _)
      rw [Machine.run_concat, Machine.final_concat] at hlast
      rw [Machine.run_concat, List.forall_mem_append, List.forall_mem_singleton]
      refine ⟨ih fun before hb => h before (hb.trans (List.prefix_append ..)), ?_⟩
      by_contra hfree
      exact not_losesNothing (traced_run steps) hfree hlast
  · rintro h before ⟨after, rfl⟩
    have hfree : ∀ t ∈ restartable.run before, IdFree t := by
      intro t ht
      refine h t ?_
      rw [Machine.run, Machine.runFrom_append]
      exact List.mem_append_left _ ht
    have hvalues := Machine.history_rule (m := restartable) (G := IdFree)
      (P := fun h s => Traced h s ∧ s.refunds.values = issued h) ⟨traced_initial, rfl⟩
      (fun h s i hp hg => ⟨traced_step hp.1 i, values_step hp.1 hp.2 hg⟩) before hfree
    exact losesNothing_of_values hvalues.1 hvalues.2

end Simulators

/-- A refund under the key `r-0002`, and one without a key, which is issued with
that identifier. -/
def squattedIdentifier : List Simulators.Step :=
  [.operation (.issueRefund (.str "o-1001") (F64.ofInt 5) (some "acme") (some "r-0002")),
    .operation (.issueRefund (.str "o-1001") (F64.ofInt 7) (some "acme") none)]

/-- The first refund is no longer in the ledger. -/
theorem squattedIdentifier_loses :
    ¬ ∀ before, before <+: squattedIdentifier → Simulators.LosesNothing
      ((@Simulators.restartable asciiData).run before) ((@Simulators.restartable asciiData).final before) := by
  intro h
  let _ := asciiData
  let first : List Simulators.Step :=
    [.operation (.issueRefund (.str "o-1001") (F64.ofInt 5) (some "acme") (some "r-0002"))]
  refine Simulators.not_losesNothing (Simulators.traced_run first) (fun hfree => ?_) (h _ (List.prefix_refl _))
  have hnone := hfree _ rfl (.str "o-1001") (F64.ofInt 7) (some "acme") none rfl rfl
    ⟨⟨_, "o-1001", rfl, rfl, rfl⟩, by decide +kernel⟩
  have hheld : ((Simulators.restartable.final first).refunds.get? ("r-" ++ Simulators.pad4
      (Simulators.restartable.final first).refundSeq)).isSome = true := by decide +kernel
  rw [Machine.transition_pre] at hnone
  rw [hnone] at hheld
  cases hheld

end AgentPlatform
