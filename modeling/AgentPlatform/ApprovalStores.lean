/-
The two approval stores, call by call.

The in-memory store is the database's statements on its values: `asTable` reads
the dictionary as a table, and `get`, `decide` and `verify` are the statements
on it. Tables whose rows are equal one by one (`Approval.Equal`) then answer
alike, but for the order of a listing.

`stores_agree_iff`: on every sequence of calls with a strictly increasing clock
the stores answer alike exactly when the database takes the texts of every call,
every identifier drawn is new and every `all` finds at most one approval of its
tenant: the in-memory store lists oldest first, the database newest first.
-/
import AgentPlatform.ApprovalsFacts
import AgentPlatform.Rows
import Mathlib.Data.Prod.Lex

namespace AgentPlatform

/-! ## Equal answers -/

/-- The same approval, up to arguments that are equal (`==`). -/
structure Approval.Equal (a b : Approval) : Prop where
  row : b = { a with args := b.args }
  args : a.args.pyEq b.args = true

/-- Equal answers of the stores. -/
inductive StoreAnswer.Equal : StoreAnswer → StoreAnswer → Prop where
  | created {a b : Approval} (h : a.Equal b) : Equal (.created a) (.created b)
  | found {o o' : Option Approval} (h : Option.Rel Approval.Equal o o') : Equal (.found o) (.found o')
  | listed {l l' : List Approval} (h : List.Forall₂ Approval.Equal l l') : Equal (.listed l) (.listed l')
  | counted (n : Nat) : Equal (.counted n) (.counted n)
  | verified (b : Bool) : Equal (.verified b) (.verified b)

namespace Approval.Equal

variable {a b : Approval}

theorem refl (h : a.args.encodable = true) : a.Equal a := ⟨rfl, Args.pyEq_refl h⟩

/-- What does not look at the arguments is the same of both. -/
theorem congr {γ : Type} (h : a.Equal b) {f : Approval → γ} (hf : ∀ a args, f { a with args := args } = f a) :
    f b = f a := by
  rw [h.row]
  exact hf a b.args

theorem id_eq (h : a.Equal b) : b.id = a.id := h.congr (f := Approval.id) fun _ _ => rfl

theorem createdAt_eq (h : a.Equal b) : b.createdAt = a.createdAt := h.congr (f := Approval.createdAt) fun _ _ => rfl

theorem status_eq (h : a.Equal b) : b.status = a.status := h.congr (f := Approval.status) fun _ _ => rfl

theorem apply (h : a.Equal b) (d : Ruling) : (d.apply a).Equal (d.apply b) := by
  refine ⟨?_, h.args⟩
  rw [h.row]
  rfl

theorem matchesApproval (h : a.Equal b) (q : VerifyRequest) : q.matchesApproval b = q.matchesApproval a := by
  have hargs : b.args.pyEq q.args.sorted = a.args.pyEq q.args.sorted := (Args.pyEq_congr h.args _).symm
  rw [h.row] at hargs ⊢
  simp only [VerifyRequest.matchesApproval, hargs]

end Approval.Equal

/-! ## The dictionary as a table -/

namespace ApprovalStore

/-- Every approval stands under its own identifier. -/
def Keyed (s : ApprovalStore) : Prop := ∀ e ∈ s.entries, e.2.id = e.1

variable {s : ApprovalStore}

theorem Keyed.ids (h : Keyed s) : s.values.map Approval.id = s.keys := by
  rw [Dict.values, Dict.keys, List.map_map]
  exact List.map_congr_left h

/-- The approvals as rows. -/
def asTable (s : ApprovalStore) (h : Keyed s) : Table := ⟨s.values, h.ids ▸ s.nodup⟩

theorem asTable_book (h : Keyed s) (id : String) : (s.asTable h).book id = s.get? id := by
  have hfind : ∀ {l : List (String × Approval)}, (∀ e ∈ l, e.2.id = e.1) →
      (l.map Prod.snd).find? (fun r => Decidable.decide (r.id = id)) = Dict.find id l := by
    intro l hl
    induction l with
    | nil => rfl
    | cons e l ih =>
      rw [List.forall_mem_cons] at hl
      by_cases he : e.1 = id <;> simp [Dict.find, hl.1, he, ih hl.2]
  exact hfind h

/-- Replacing an approval that is there. -/
theorem values_insert {id : String} {a b : Approval} (h : Keyed s) (ha : s.get? id = some a) :
    (s.insert id b).values = s.values.map fun r => if r.id = id then b else r := by
  have hupsert : ∀ {l : List (String × Approval)}, (l.map Prod.fst).Nodup → (∀ e ∈ l, e.2.id = e.1) →
      id ∈ l.map Prod.fst →
      (Dict.upsert id b l).map Prod.snd = (l.map Prod.snd).map fun r => if r.id = id then b else r := by
    intro l hn hl hid
    induction l with
    | nil => cases hid
    | cons e l ih =>
      rw [List.forall_mem_cons] at hl
      rw [List.map_cons, List.nodup_cons] at hn
      by_cases he : e.1 = id
      · have hrest : (l.map Prod.snd).map (fun r => if r.id = id then b else r) = l.map Prod.snd := by
          rw [List.map_map]
          refine List.map_congr_left fun e' he' => if_neg fun h => hn.1 ?_
          rw [he, ← h, hl.2 e' he']
          exact List.mem_map_of_mem he'
        simp only [Dict.upsert, he, if_true, List.map_cons, hl.1, hrest]
      · have hmem : id ∈ l.map Prod.fst := (List.mem_cons.1 hid).resolve_left (Ne.symm he)
        simp only [Dict.upsert, he, if_false, List.map_cons, hl.1, ih hn.2 hl.2 hmem]
  refine hupsert s.nodup h ?_
  exact List.mem_map_of_mem (Dict.mem_entries.2 ha)

theorem decide_of_admissible {d : Ruling} {a : Approval} (ha : s.get? d.id = some a) (h : d.Admissible a) :
    s.decide d = (some (d.apply a), s.insert d.id (d.apply a)) := by
  simp [decide, ha, h.1, h.2.1, h.2.2]

theorem decide_refused {d : Ruling} (h : ∀ a, s.get? d.id = some a → ¬ d.Admissible a) :
    s.decide d = (none, s) := by
  rcases s.decide_cases d with hd | ⟨a, ha, hadm, -⟩
  · exact hd
  · exact absurd hadm (h a ha)

/-! ## The methods are the statements -/

variable (h : Keyed s)
include h

theorem get_eq (id tenant : String) : s.get id tenant = PostgresApprovalStore.get id tenant (s.asTable h) := by
  refine Option.ext fun a => ?_
  rw [PostgresApprovalStore.get_iff, asTable_book, ApprovalStore.get]
  cases ha : s.get? id with
  | none => simp
  | some b =>
    dsimp only
    split
    · rename_i ht
      simp only [Option.some.injEq]
      exact ⟨fun hba => ⟨hba, hba ▸ ht⟩, And.left⟩
    · rename_i ht
      simp only [reduceCtorEq, Option.some.injEq, false_iff, not_and]
      exact fun hba => hba ▸ ht

theorem decide_eq (d : Ruling) :
    (s.decide d).1 = (PostgresApprovalStore.decide d (s.asTable h)).1 ∧
      (s.decide d).2.values = (PostgresApprovalStore.decide d (s.asTable h)).2.rows := by
  have hfind : ∀ a, (s.asTable h).rows.find? d.selects = some a ↔ s.get? d.id = some a ∧ d.Admissible a := fun a => by
    rw [PostgresApprovalStore.find_selects, asTable_book]
  rw [PostgresApprovalStore.decide_eq]
  cases hf : (s.asTable h).rows.find? d.selects with
  | some a =>
    obtain ⟨ha, hadm⟩ := (hfind a).1 hf
    rw [decide_of_admissible ha hadm, values_insert h ha]
    refine ⟨rfl, List.map_congr_left fun r hr => ?_⟩
    by_cases hr' : r.id = d.id
    · have hra : s.get? d.id = some r := by
        obtain ⟨e, he, rfl⟩ := List.mem_map.1 hr
        rw [← hr', h e he]
        exact Dict.mem_entries.1 he
      obtain rfl : a = r := Option.some.inj (ha.symm.trans hra)
      rw [if_pos hr', if_pos (Ruling.selects_iff.2 ⟨hr', hadm⟩)]
    · rw [if_neg hr', if_neg fun hc => hr' (Ruling.selects_iff.1 hc).1]
  | none =>
    have hrefused : ∀ a, s.get? d.id = some a → ¬ d.Admissible a := fun a ha hadm => by
      rw [(hfind a).2 ⟨ha, hadm⟩] at hf
      cases hf
    rw [decide_refused hrefused, Table.update_none _ hf]
    exact ⟨rfl, rfl⟩

theorem verify_eq (q : VerifyRequest) : s.verify q = PostgresApprovalStore.verify q (s.asTable h) := by
  rw [PostgresApprovalStore.verify, ← get_eq h, ApprovalStore.verify, ApprovalStore.get]
  cases ha : s.get? q.approvalId with
  | none => rfl
  | some a => by_cases ht : a.tenant = q.tenant <;> simp [ht]

end ApprovalStore

/-! ## Equal rows -/

namespace Approval.Equal

variable {l l' : List Approval} (h : List.Forall₂ Approval.Equal l l')
include h

theorem rows_createdAt : l'.map Approval.createdAt = l.map Approval.createdAt := by
  induction h with
  | nil => rfl
  | cons hab _ ih => rw [List.map_cons, List.map_cons, hab.createdAt_eq, ih]

theorem rows_ids : l'.map Approval.id = l.map Approval.id := by
  induction h with
  | nil => rfl
  | cons hab _ ih => rw [List.map_cons, List.map_cons, hab.id_eq, ih]

theorem rows_filter {cond : Approval → Bool} (hcond : ∀ a args, cond { a with args := args } = cond a) :
    List.Forall₂ Approval.Equal (l.filter cond) (l'.filter cond) := by
  refine List.rel_filter (fun a b hab => ?_) h
  show cond a = true ↔ cond b = true
  rw [hab.congr hcond]

theorem rows_update {cond : Approval → Bool} (hcond : ∀ a args, cond { a with args := args } = cond a) (d : Ruling) :
    List.Forall₂ Approval.Equal (l.map fun r => if cond r then d.apply r else r)
      (l'.map fun r => if cond r then d.apply r else r) := by
  refine List.rel_map (fun a b hab => ?_) h
  rw [hab.congr hcond]
  split
  · exact hab.apply d
  · exact hab

end Approval.Equal

namespace PostgresApprovalStore

variable {t t' : Table} (h : List.Forall₂ Approval.Equal t.rows t'.rows)
include h

theorem get_alike (id tenant : String) : Option.Rel Approval.Equal (get id tenant t) (get id tenant t') :=
  Rows.head?_rel (Approval.Equal.rows_filter h fun _ _ => rfl)

theorem pendingCount_alike : pendingCount t = pendingCount t' :=
  (Approval.Equal.rows_filter h fun _ _ => rfl).length_eq

theorem decide_alike (d : Ruling) : Option.Rel Approval.Equal (decide d t).1 (decide d t').1 ∧
    List.Forall₂ Approval.Equal (decide d t).2.rows (decide d t').2.rows := by
  constructor
  · have happly : Relator.LiftFun Approval.Equal Approval.Equal d.apply d.apply := fun _ _ hab => hab.apply d
    simp only [decide, Table.update]
    exact Rows.head?_rel (List.rel_map happly (Approval.Equal.rows_filter h fun _ _ => rfl))
  · exact Approval.Equal.rows_update h (fun _ _ => rfl) d

theorem verify_alike (q : VerifyRequest) : verify q t = verify q t' := by
  have hget := get_alike h q.approvalId q.tenant
  unfold verify
  cases ha : get q.approvalId q.tenant t with
  | none =>
    rw [ha] at hget
    cases hb : get q.approvalId q.tenant t' with
    | none => rfl
    | some b =>
      rw [hb] at hget
      cases hget
  | some a =>
    rw [ha] at hget
    cases hb : get q.approvalId q.tenant t' with
    | none =>
      rw [hb] at hget
      cases hget
    | some b =>
      rw [hb] at hget
      cases hget with
      | some hab => simp only [hab.status_eq, hab.matchesApproval]

end PostgresApprovalStore

/-! ## The order of a listing -/

/-- Created one after the other. -/
def Ascending (l : List Approval) : Prop := l.Pairwise fun a b => a.createdAt.lt b.createdAt = true

namespace Ascending

variable {l l' : List Approval}

theorem filter (h : Ascending l) (cond : Approval → Bool) : Ascending (l.filter cond) :=
  List.Pairwise.filter cond h

theorem of_equal (h : Ascending l) (heq : List.Forall₂ Approval.Equal l l') : Ascending l' := by
  have hmap : (l.map Approval.createdAt).Pairwise fun a b => a.lt b = true := List.pairwise_map.2 h
  rw [← Approval.Equal.rows_createdAt heq] at hmap
  exact List.pairwise_map.1 hmap

/-- `ORDER BY created_at` -/
theorem oldestFirst (h : Ascending l) : l.mergeSort (fun a b => a.createdAt.le b.createdAt) = l := by
  apply List.mergeSort_of_pairwise
  refine h.imp fun hab => ?_
  rw [F64.lt, Bool.and_eq_true] at hab
  exact hab.1

/-- `ORDER BY created_at DESC` -/
theorem newestFirst (h : Ascending l) : l.mergeSort (fun a b => b.createdAt.le a.createdAt) = l.reverse := by
  match l, h with
  | [], _ => simp
  | [a], _ => simp
  | a :: b :: l, h =>
    have hrank : ∀ x ∈ a :: b :: l, ∃ r, x.createdAt.rank = some r := by
      have hfirst : ∀ x ∈ b :: l, a.createdAt.lt x.createdAt = true := fun x hx => List.rel_of_pairwise_cons h hx
      rw [List.forall_mem_cons]
      refine ⟨?_, fun x hx => ?_⟩
      · obtain ⟨r, -, hr, -⟩ := F64.lt_iff_rank.1 (hfirst b (List.mem_cons_self ..))
        exact ⟨r, hr⟩
      · obtain ⟨-, r, -, hr, -⟩ := F64.lt_iff_rank.1 (hfirst x hx)
        exact ⟨r, hr⟩
    have hle : ∀ x ∈ a :: b :: l, ∀ y ∈ a :: b :: l, y.createdAt.le x.createdAt =
        decide (toLex (y.createdAt.rank.getD (0, 0)) ≤ toLex (x.createdAt.rank.getD (0, 0))) := by
      intro x hx y hy
      obtain ⟨r, hr⟩ := hrank x hx
      obtain ⟨q, hq⟩ := hrank y hy
      rw [Bool.eq_iff_iff, F64.le_iff_rank, decide_eq_true_eq, hr, hq, ← not_lt, Prod.Lex.toLex_lt_toLex]
      simp [F64.Below]
    refine Rows.mergeSort_descending hle (h.imp fun hxy => ?_)
    obtain ⟨r, q, hr, hq, hlt⟩ := F64.lt_iff_rank.1 hxy
    rw [hr, hq]
    exact Prod.Lex.toLex_lt_toLex.2 hlt

/-- One by one equal to the other listed backwards: there is at most one. -/
theorem reverse_iff (h : Ascending l) (heq : List.Forall₂ Approval.Equal l l') :
    List.Forall₂ Approval.Equal l l'.reverse ↔ l.length ≤ 1 := by
  constructor
  · intro hrev
    have htimes : l.map Approval.createdAt = (l.map Approval.createdAt).reverse := by
      rw [← Approval.Equal.rows_createdAt heq, ← List.map_reverse, Approval.Equal.rows_createdAt hrev,
        Approval.Equal.rows_createdAt heq]
    have hone := Rows.length_le_one_of_eq_reverse (r := fun x y => F64.lt x y = true) ?_ (List.pairwise_map.2 h) htimes
    · simpa using hone
    · intro x y hxy hyx
      obtain ⟨a, b, ha, hb, hab⟩ := F64.lt_iff_rank.1 hxy
      obtain ⟨b', a', hb', ha', hba⟩ := F64.lt_iff_rank.1 hyx
      rw [ha, Option.some.injEq] at ha'
      rw [hb, Option.some.injEq] at hb'
      subst ha' hb'
      exact hab.asymm hba
  · intro hone
    rw [Rows.reverse_of_length_le_one (heq.length_eq ▸ hone)]
    exact heq

end Ascending

theorem Table.insert_new {t : Table} {row : Approval} (h : row.id ∉ t.rows.map Approval.id) :
    ∃ t', t.insert row = some t' ∧ t'.rows = t.rows ++ [row] := ⟨_, dif_neg h, rfl⟩

theorem Table.insert_taken {t : Table} {row : Approval} (h : row.id ∈ t.rows.map Approval.id) :
    t.insert row = none := dif_pos h

/-! ## Two stores, step by step -/

/-- `jsonb` preserves JSON values. -/
def PreservesJson (jsonb : Args → Option Args) : Prop :=
  ∀ a, a.encodable = true → ∃ stored, jsonb a = some stored ∧ a.pyEq stored = true

/-- The stores hold the same approvals, oldest first. -/
structure SameApprovals (s : ApprovalStore) (t : Table) : Prop where
  keyed : s.Keyed
  rows : List.Forall₂ Approval.Equal s.values t.rows
  ascending : Ascending s.values

/-- JSON arguments, and a clock that is past every approval there is. -/
def Timely (t : Transition ApprovalStore StoreOp StoreAnswer) : Prop :=
  ∀ n, t.input = .create n → n.args.encodable = true ∧ ∀ a ∈ t.pre.values, a.createdAt.lt n.now = true

/-- The database takes the texts of the call. -/
def TextsTaken (db : ApprovalDatabase) (t : Transition ApprovalStore StoreOp StoreAnswer) : Prop :=
  t.input.texts.all db.takes = true

/-- What a call must find for both stores to answer it alike: a new identifier,
or no two approvals to put in order. -/
def Unordered (t : Transition ApprovalStore StoreOp StoreAnswer) : Prop :=
  match t.input with
  | .create n => t.pre.get? n.id = none
  | .all tenant => t.pre.values.countP (fun a => decide (a.tenant = tenant)) ≤ 1
  | _ => True

section Steps

variable {db : ApprovalDatabase} {s : ApprovalStore} {t : Table}

theorem postgresStore_accepted {op : StoreOp} (h : TextsTaken db (memoryStore.transition s op)) (t : Table) :
    (postgresStore db).step op t = PostgresApprovalStore.run db.jsonb op t := if_pos h

theorem postgresStore_refused {op : StoreOp} (h : ¬ TextsTaken db (memoryStore.transition s op)) (t : Table) :
    ∃ e, (postgresStore db).step op t = (.raised e, t) := ⟨_, if_neg h⟩

/-- In memory nothing is refused. -/
theorem memoryStore_answers (op : StoreOp) (s : ApprovalStore) (e : Exn) :
    ¬ (memoryStore.step op s).1.Equal (.raised e) := by
  intro heq
  cases op <;> cases heq

namespace SameApprovals

variable (h : SameApprovals s t)
include h

theorem id_mem (id : String) : id ∈ t.rows.map Approval.id ↔ s.get? id ≠ none := by
  rw [Approval.Equal.rows_ids h.rows, h.keyed.ids, Dict.mem_keys, Option.ne_none_iff_exists']

/-- `create` under a new identifier. -/
theorem create_new (hjson : PreservesJson db.jsonb) {n : NewApproval} (hnew : s.get? n.id = none)
    (hargs : n.args.encodable = true) (hclock : ∀ a ∈ s.values, a.createdAt.lt n.now = true) :
    ∃ t', PostgresApprovalStore.run db.jsonb (.create n) t = (.created n.approval, t') ∧
      SameApprovals (s.create n).2 t' := by
  have hsorted : n.approval.args.encodable = true := Args.encodable_sorted hargs
  obtain ⟨stored, hstored, heq⟩ := hjson _ hsorted
  have hid : n.id ∉ t.rows.map Approval.id := fun hid => (h.id_mem n.id).1 hid hnew
  obtain ⟨t', hinsert, hrows⟩ : ∃ t', t.insert { n.approval with args := stored } = some t' ∧ _ := Table.insert_new hid
  refine ⟨t', by simp only [PostgresApprovalStore.run, PostgresApprovalStore.create, hstored, hinsert], ?_, ?_, ?_⟩
  · intro e he
    rw [ApprovalStore.create, Dict.entries_insert_of_none hnew, List.mem_append, List.mem_singleton] at he
    rcases he with he | rfl
    · exact h.keyed e he
    · rfl
  · rw [ApprovalStore.create, Dict.values, Dict.entries_insert_of_none hnew, List.map_append]
    rw [hrows]
    exact List.rel_append h.rows (.cons ⟨rfl, heq⟩ .nil)
  · rw [ApprovalStore.create, Dict.values, Dict.entries_insert_of_none hnew, List.map_append]
    refine List.pairwise_append.2 ⟨h.ascending, List.pairwise_singleton .., fun a ha b hb => ?_⟩
    obtain rfl : b = n.approval := List.mem_singleton.1 hb
    exact hclock a ha

/-- `create` under an identifier that is taken. -/
theorem create_taken (n : NewApproval) (htaken : s.get? n.id ≠ none) :
    ∃ e, (postgresStore db).step (.create n) t = (.raised e, t) := by
  rcases postgresStore_create db n t with he | ⟨stored, t', -, -, hinsert, -⟩
  · exact he
  · have hnone : t.insert { n.approval with args := stored } = none := Table.insert_taken ((h.id_mem n.id).2 htaken)
    rw [hnone] at hinsert
    cases hinsert

theorem table : List.Forall₂ Approval.Equal (s.asTable h.keyed).rows t.rows := h.rows

theorem decide_alike (d : Ruling) :
    Option.Rel Approval.Equal (s.decide d).1 (PostgresApprovalStore.decide d t).1 ∧
      SameApprovals (s.decide d).2 (PostgresApprovalStore.decide d t).2 := by
  obtain ⟨hanswer, hvalues⟩ := ApprovalStore.decide_eq h.keyed d
  obtain ⟨halike, hrows⟩ := PostgresApprovalStore.decide_alike h.table d
  rw [hanswer]
  refine ⟨halike, ?_, hvalues ▸ hrows, ?_⟩
  · rcases s.decide_cases d with hd | ⟨a, ha, -, hd⟩
    · rw [hd]
      exact h.keyed
    · rw [hd]
      intro e he
      rcases Dict.get?_insert_cases (Dict.mem_entries.1 he) with ⟨hk, hv⟩ | ⟨-, he'⟩
      · rw [hk, hv]
        exact h.keyed _ (Dict.mem_entries.2 ha)
      · exact h.keyed e (Dict.mem_entries.2 he')
  · have htimes : ∀ l : List Approval, ∀ cond : Approval → Bool,
        (l.map fun r => if cond r then d.apply r else r).map Approval.createdAt = l.map Approval.createdAt := by
      intro l cond
      rw [List.map_map]
      refine List.map_congr_left fun r _ => ?_
      simp only [Function.comp_apply]
      split <;> rfl
    have hold : (s.values.map Approval.createdAt).Pairwise fun a b => a.lt b = true := List.pairwise_map.2 h.ascending
    have hnew : ((s.decide d).2.values.map Approval.createdAt).Pairwise fun a b => a.lt b = true := by
      rw [hvalues]
      exact (htimes s.values _).symm ▸ hold
    exact List.pairwise_map.1 hnew

theorem pending_alike (tenant : String) :
    List.Forall₂ Approval.Equal (s.pending tenant) (PostgresApprovalStore.pending tenant t) := by
  have hrows : List.Forall₂ Approval.Equal (s.pending tenant) _ :=
    Approval.Equal.rows_filter h.rows fun _ _ => rfl
  have hascending : Ascending (s.pending tenant) := h.ascending.filter _
  rw [PostgresApprovalStore.pending, Table.select, (hascending.of_equal hrows).oldestFirst]
  exact hrows

/-- `all`: oldest first in memory, newest first in the database. -/
theorem all_alike (tenant : String) :
    List.Forall₂ Approval.Equal (s.all tenant) (PostgresApprovalStore.all tenant t) ↔
      s.values.countP (fun a => decide (a.tenant = tenant)) ≤ 1 := by
  have hrows : List.Forall₂ Approval.Equal (s.all tenant) _ := Approval.Equal.rows_filter h.rows fun _ _ => rfl
  have hascending : Ascending (s.all tenant) := h.ascending.filter _
  rw [List.countP_eq_length_filter, PostgresApprovalStore.all, Table.select,
    (hascending.of_equal hrows).newestFirst]
  exact hascending.reverse_iff hrows

end SameApprovals

/-- The stores answer a call whose texts are taken alike exactly when it finds nothing
to order. -/
theorem runAnswer_alike (hjson : PreservesJson db.jsonb) (op : StoreOp) (h : SameApprovals s t)
    (ht : Timely (memoryStore.transition s op)) (hdb : TextsTaken db (memoryStore.transition s op)) :
    (memoryStore.step op s).1.Equal ((postgresStore db).step op t).1 ↔ Unordered (memoryStore.transition s op) := by
  rw [postgresStore_accepted hdb]
  cases op with
  | create n =>
    obtain ⟨hargs, hclock⟩ := ht n rfl
    by_cases hnew : s.get? n.id = none
    · obtain ⟨t', ht', -⟩ := h.create_new hjson hnew hargs hclock
      rw [ht']
      exact iff_of_true (.created (.refl (Args.encodable_sorted hargs))) hnew
    · obtain ⟨e, he⟩ := (h.create_taken n hnew : ∃ e, (postgresStore db).step (.create n) t = (.raised e, t))
      rw [postgresStore_accepted hdb] at he
      rw [he]
      exact iff_of_false (memoryStore_answers _ s e) hnew
  | decide d => exact iff_of_true (.found (h.decide_alike d).1) trivial
  | get id tenant =>
    refine iff_of_true (.found ?_) trivial
    rw [ApprovalStore.get_eq h.keyed]
    exact PostgresApprovalStore.get_alike h.table id tenant
  | pending tenant => exact iff_of_true (.listed (h.pending_alike tenant)) trivial
  | pendingCount =>
    have hcount : s.pendingCount = PostgresApprovalStore.pendingCount t :=
      PostgresApprovalStore.pendingCount_alike h.table
    refine iff_of_true ?_ trivial
    simp only [memoryStore, PostgresApprovalStore.run, hcount]
    exact .counted _
  | all tenant =>
    refine Iff.trans ⟨fun heq => ?_, fun heq => .listed heq⟩ (h.all_alike tenant)
    cases heq with
    | listed heq => exact heq
  | verify q =>
    have hverify : s.verify q = PostgresApprovalStore.verify q t :=
      (ApprovalStore.verify_eq h.keyed q).trans (PostgresApprovalStore.verify_alike h.table q)
    refine iff_of_true ?_ trivial
    simp only [memoryStore, PostgresApprovalStore.run, hverify]
    exact .verified _

theorem storeAnswer_alike (hjson : PreservesJson db.jsonb) (op : StoreOp) (h : SameApprovals s t)
    (ht : Timely (memoryStore.transition s op)) :
    (memoryStore.step op s).1.Equal ((postgresStore db).step op t).1 ↔
      TextsTaken db (memoryStore.transition s op) ∧ Unordered (memoryStore.transition s op) := by
  by_cases hdb : TextsTaken db (memoryStore.transition s op)
  · rw [runAnswer_alike hjson op h ht hdb, and_iff_right hdb]
  · obtain ⟨e, he⟩ := postgresStore_refused hdb t
    rw [he]
    exact iff_of_false (memoryStore_answers op s e) fun hc => hdb hc.1

theorem sameApprovals_step (hjson : PreservesJson db.jsonb) (op : StoreOp) (h : SameApprovals s t)
    (ht : Timely (memoryStore.transition s op))
    (hu : TextsTaken db (memoryStore.transition s op) ∧ Unordered (memoryStore.transition s op)) :
    SameApprovals (memoryStore.step op s).2 ((postgresStore db).step op t).2 := by
  obtain ⟨hdb, hu⟩ := hu
  rw [postgresStore_accepted hdb]
  cases op with
  | create n =>
    obtain ⟨hargs, hclock⟩ := ht n rfl
    obtain ⟨t', ht', hsame⟩ := h.create_new hjson hu hargs hclock
    rw [ht']
    exact hsame
  | decide d => exact (h.decide_alike d).2
  | _ => exact h

end Steps

/-! ## Runs -/

/-- The times the calls read, in order. -/
def clockReadings (ops : List StoreOp) : List F64 :=
  ops.filterMap fun
    | .create n => some n.now
    | .decide d => some d.now
    | _ => none

/-- Both stores, from empty, answer every call alike. -/
def AnswerAlike (db : ApprovalDatabase) (ops : List StoreOp) : Prop :=
  List.Forall₂ StoreAnswer.Equal (memoryStore.answersFrom memoryStore.init ops)
    ((postgresStore db).answersFrom (postgresStore db).init ops)

/-- An approval was created by the call, or was there. -/
theorem createdAt_step {op : StoreOp} {s : ApprovalStore} {a : Approval} (h : a ∈ (memoryStore.step op s).2.values) :
    (∃ n, op = .create n ∧ a.createdAt = n.now) ∨ ∃ b ∈ s.values, a.createdAt = b.createdAt := by
  cases op with
  | create n =>
    obtain ⟨id, hid⟩ := Dict.mem_values.1 h
    rcases Dict.get?_insert_cases hid with ⟨-, rfl⟩ | ⟨-, hid⟩
    · exact .inl ⟨n, rfl, rfl⟩
    · exact .inr ⟨a, Dict.mem_values.2 ⟨id, hid⟩, rfl⟩
  | decide d =>
    simp only [memoryStore] at h
    rcases s.decide_cases d with hd | ⟨b, hb, -, hd⟩
    · rw [hd] at h
      exact .inr ⟨a, h, rfl⟩
    · rw [hd] at h
      obtain ⟨id, hid⟩ := Dict.mem_values.1 h
      rcases Dict.get?_insert_cases hid with ⟨-, rfl⟩ | ⟨-, hid⟩
      · exact .inr ⟨b, Dict.mem_values.2 ⟨_, hb⟩, rfl⟩
      · exact .inr ⟨a, Dict.mem_values.2 ⟨id, hid⟩, rfl⟩
  | _ => exact .inr ⟨a, h, rfl⟩

/-- A strictly increasing clock is always past what there is. -/
theorem timely_run {ops : List StoreOp} (hargs : ∀ n, .create n ∈ ops → n.args.encodable = true)
    (hclock : (clockReadings ops).Pairwise fun x y => x.lt y = true) {s : ApprovalStore}
    (hpast : ∀ a ∈ s.values, ∀ x ∈ clockReadings ops, a.createdAt.lt x = true) :
    ∀ t ∈ memoryStore.runFrom s ops, Timely t := by
  induction ops generalizing s with
  | nil => exact fun _ ht => absurd ht List.not_mem_nil
  | cons op ops ih =>
    have hrest : ∀ x ∈ clockReadings ops, x ∈ clockReadings (op :: ops) := fun x hx => by
      obtain ⟨o, ho, hox⟩ := List.mem_filterMap.1 hx
      exact List.mem_filterMap.2 ⟨o, List.mem_cons_of_mem _ ho, hox⟩
    have hlater : (clockReadings ops).Pairwise fun x y => x.lt y = true :=
      hclock.sublist (List.Sublist.filterMap _ (List.sublist_cons_self op ops))
    refine List.forall_mem_cons.2 ⟨?_, ih (fun n hn => hargs n (List.mem_cons_of_mem _ hn)) hlater ?_⟩
    · intro n hop
      obtain rfl : op = .create n := hop
      exact ⟨hargs n (List.mem_cons_self ..), fun a ha => hpast a ha _ (List.mem_cons_self ..)⟩
    · intro a ha x hx
      rcases createdAt_step ha with ⟨n, rfl, hnow⟩ | ⟨b, hb, hold⟩
      · rw [hnow]
        exact List.rel_of_pairwise_cons hclock hx
      · rw [hold]
        exact hpast b hb x (hrest x hx)

section Runs

variable {db : ApprovalDatabase} {ops : List StoreOp}

theorem answerAlike_iff (hjson : PreservesJson db.jsonb) (htimely : ∀ t ∈ memoryStore.run ops, Timely t) :
    AnswerAlike db ops ↔ ∀ t ∈ memoryStore.run ops, TextsTaken db t ∧ Unordered t := by
  have hinit : SameApprovals memoryStore.init (postgresStore db).init :=
    ⟨fun _ h => absurd h List.not_mem_nil, .nil, .nil⟩
  exact (Machine.lockstep (R := SameApprovals) (fun s t op h ht => storeAnswer_alike hjson op h ht)
    (fun s t op h ht hu => sameApprovals_step hjson op h ht hu) ops hinit htimely).1

/-- **The approval stores answer alike exactly when nothing is refused and there is
nothing to order**: the database takes the texts of the calls, every identifier drawn
is new, and every `all` finds at most one approval of its tenant. On all else they
agree, whatever the calls. -/
theorem stores_agree_iff (hjson : PreservesJson db.jsonb) (hargs : ∀ n, .create n ∈ ops → n.args.encodable = true)
    (hclock : (clockReadings ops).Pairwise fun x y => x.lt y = true) :
    AnswerAlike db ops ↔ ∀ t ∈ memoryStore.run ops, TextsTaken db t ∧ Unordered t :=
  answerAlike_iff hjson (timely_run hargs hclock fun _ h => absurd h List.not_mem_nil)

end Runs

theorem plainApprovals_preservesJson : PreservesJson plainApprovals.jsonb := fun a h => ⟨a, rfl, Args.pyEq_refl h⟩

/-- A refund's approval, granted and listed. -/
def listedRun : List StoreOp := approvalRun ++ [.all "acme", .pending "acme", .pendingCount]

theorem listedRun_agree : AnswerAlike plainApprovals listedRun := by
  refine (stores_agree_iff plainApprovals_preservesJson ?_ ?_).2 ?_
  · intro n hn
    simp [listedRun, approvalRun] at hn
    subst hn
    decide +kernel
  · decide +kernel
  · have htaken : ∀ op ∈ listedRun, op.texts.all plainApprovals.takes = true := by decide +kernel
    refine fun t ht => ⟨htaken _ (Machine.input_mem ht), ?_⟩
    revert t
    refine List.forall_mem_cons.2 ⟨rfl, List.forall_mem_cons.2 ⟨trivial, List.forall_mem_cons.2 ⟨trivial, ?_⟩⟩⟩
    refine List.forall_mem_cons.2 ⟨?_, List.forall_mem_cons.2 ⟨trivial, List.forall_mem_cons.2 ⟨trivial, ?_⟩⟩⟩
    · show _ ≤ 1
      decide +kernel
    · exact fun _ h => absurd h List.not_mem_nil

/-- Two approvals of one tenant, listed. -/
def twoListed : List StoreOp :=
  [.create ⟨"1", "refunds.issue", ∅, "alice", "agent", "above the limit", "acme", F64.ofInt 1⟩,
    .create ⟨"2", "refunds.issue", ∅, "alice", "agent", "above the limit", "acme", F64.ofInt 2⟩,
    .all "acme"]

theorem twoListed_differ : ¬ AnswerAlike plainApprovals twoListed := by
  intro h
  have htimely : ∀ t ∈ memoryStore.run twoListed, Timely t := by
    refine timely_run ?_ ?_ fun _ h => absurd h List.not_mem_nil
    · intro n hn
      simp [twoListed] at hn
      rcases hn with rfl | rfl <;> rfl
    · decide +kernel
  obtain ⟨-, hone⟩ := (answerAlike_iff plainApprovals_preservesJson htimely).1 h _
    (List.mem_cons_of_mem _ (List.mem_cons_of_mem _ (List.mem_cons_self ..)))
  revert hone
  show ¬ _ ≤ 1
  decide +kernel

end AgentPlatform
