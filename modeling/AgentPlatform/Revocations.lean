/-
The revocation authority (`app/api/revocations.py`): the in-memory
`RevocationStore` and the `PostgresRevocationStore`.

A record stands under the identity it revokes. Of the database the statements
are modelled, on rows with a primary key; which strings it takes, and how
`ORDER BY` compares them, are parameters.

`revocations_agree_iff`: on every sequence of calls the stores answer alike
exactly when the database takes every string it is given.
-/
import AgentPlatform.Rows
import AgentPlatform.Json
import AgentPlatform.PyText
import Mathlib.Data.String.Basic

namespace AgentPlatform

structure RevokedWorkload where
  spiffeId : String
  reason : String
  revokedBy : String
  revokedAt : F64

/-! ## In memory -/

/-- `_items` -/
abbrev RevocationStore := Dict String RevokedWorkload

namespace RevocationStore

def revoke (r : RevokedWorkload) (s : RevocationStore) : RevokedWorkload × RevocationStore :=
  (r, s.insert r.spiffeId r)

def restore (spiffeId : String) (s : RevocationStore) : Bool × RevocationStore :=
  ((s.get? spiffeId).isSome, s.erase spiffeId)

def ids (s : RevocationStore) : List String := s.keys

def all (s : RevocationStore) : List RevokedWorkload :=
  s.values.mergeSort fun a b => decide (a.spiffeId ≤ b.spiffeId)

end RevocationStore

/-! ## In Postgres -/

/-- The rows of `revoked_workloads`; `spiffe_id` is the primary key. -/
structure RevocationTable where
  rows : List RevokedWorkload
  key : (rows.map RevokedWorkload.spiffeId).Nodup

/-- What the database makes of strings. -/
structure TextDatabase where
  takes : String → Bool
  collate : String → String → Bool

namespace RevocationTable

def empty : RevocationTable := ⟨[], List.nodup_nil⟩

/-- `INSERT … ON CONFLICT (spiffe_id) DO UPDATE SET …` -/
def upsert (r : RevokedWorkload) (t : RevocationTable) : RevocationTable where
  rows := t.rows.filter (fun row => row.spiffeId ≠ r.spiffeId) ++ [r]
  key := by
    rw [List.map_append, List.nodup_append]
    refine ⟨t.key.sublist (List.filter_sublist.map _), by simp, fun a ha b hb => ?_⟩
    simp only [List.mem_map, List.mem_filter, decide_eq_true_eq] at ha
    obtain ⟨row, ⟨-, hne⟩, rfl⟩ := ha
    simp only [List.map_cons, List.map_nil, List.mem_singleton] at hb
    exact hb ▸ hne

/-- `DELETE … WHERE spiffe_id = …` -/
def delete (spiffeId : String) (t : RevocationTable) : RevocationTable where
  rows := t.rows.filter fun row => row.spiffeId ≠ spiffeId
  key := t.key.sublist (List.filter_sublist.map _)

end RevocationTable

namespace PostgresRevocationStore

variable (db : TextDatabase)

def refused : Exn := ⟨.other, "the database refuses a value"⟩

def revoke (r : RevokedWorkload) (t : RevocationTable) : Except Exn RevokedWorkload × RevocationTable :=
  if db.takes r.spiffeId && db.takes r.reason && db.takes r.revokedBy then (.ok r, t.upsert r) else (.error refused, t)

/-- `DELETE … RETURNING spiffe_id`, and whether it returned a row. -/
def restore (spiffeId : String) (t : RevocationTable) : Except Exn Bool × RevocationTable :=
  if db.takes spiffeId then (.ok (t.rows.any fun row => decide (row.spiffeId = spiffeId)), t.delete spiffeId)
  else (.error refused, t)

def ids (t : RevocationTable) : List String := t.rows.map RevokedWorkload.spiffeId

def all (t : RevocationTable) : List RevokedWorkload :=
  t.rows.mergeSort fun a b => db.collate a.spiffeId b.spiffeId

omit db in
theorem mem_ids_upsert {r : RevokedWorkload} {t : RevocationTable} {id : String} :
    id ∈ ids (t.upsert r) ↔ r.spiffeId = id ∨ id ∈ ids t := by
  simp only [ids, RevocationTable.upsert, List.map_append, List.mem_append, List.mem_map, List.mem_filter,
    decide_eq_true_eq, List.map_cons, List.map_nil, List.mem_singleton]
  constructor
  · rintro (⟨row, ⟨hrow, -⟩, rfl⟩ | rfl)
    · exact .inr ⟨row, hrow, rfl⟩
    · exact .inl rfl
  · rintro (rfl | ⟨row, hrow, rfl⟩)
    · exact .inr rfl
    · by_cases hid : row.spiffeId = r.spiffeId
      · exact .inr hid
      · exact .inl ⟨row, ⟨hrow, hid⟩, rfl⟩

omit db in
theorem mem_ids_delete {spiffeId : String} {t : RevocationTable} {id : String} :
    id ∈ ids (t.delete spiffeId) ↔ spiffeId ≠ id ∧ id ∈ ids t := by
  simp only [ids, RevocationTable.delete, List.mem_map, List.mem_filter, decide_eq_true_eq]
  constructor
  · rintro ⟨row, ⟨hrow, hne⟩, rfl⟩
    exact ⟨hne.symm, row, hrow, rfl⟩
  · rintro ⟨hne, row, hrow, rfl⟩
    exact ⟨row, ⟨hrow, hne.symm⟩, rfl⟩

end PostgresRevocationStore

/-! ## The stores as machines -/

inductive RevocationOp where
  | revoke (r : RevokedWorkload)
  | restore (spiffeId : String)
  | ids
  | all

inductive RevocationAnswer where
  | revoked (r : RevokedWorkload)
  | restored (removed : Bool)
  | ids (l : List String)
  | listed (l : List RevokedWorkload)
  | raised (e : Exn)

def memoryRevocations : Machine RevocationStore RevocationOp RevocationAnswer where
  init := ∅
  step
    | .revoke r, s => (.revoked (s.revoke r).1, (s.revoke r).2)
    | .restore id, s => (.restored (s.restore id).1, (s.restore id).2)
    | .ids, s => (.ids s.ids, s)
    | .all, s => (.listed s.all, s)

open PostgresRevocationStore in
def postgresRevocations (db : TextDatabase) : Machine RevocationTable RevocationOp RevocationAnswer where
  init := .empty
  step
    | .revoke r, t =>
      match revoke db r t with
      | (.ok r, t) => (.revoked r, t)
      | (.error e, t) => (.raised e, t)
    | .restore id, t =>
      match restore db id t with
      | (.ok removed, t) => (.restored removed, t)
      | (.error e, t) => (.raised e, t)
    | .ids, t => (.ids (ids t), t)
    | .all, t => (.listed (all db t), t)

/-! ## What the stores hold -/

/-- Every record stands under its own identity. -/
def RevocationStore.Keyed (s : RevocationStore) : Prop := ∀ id r, s.get? id = some r → r.spiffeId = id

namespace RevocationStore.Keyed

variable {s : RevocationStore} (h : s.Keyed)
include h

theorem revoke (r : RevokedWorkload) : (s.revoke r).2.Keyed := by
  intro id r' hget
  rw [RevocationStore.revoke, Dict.get?_insert] at hget
  split at hget
  · rename_i hid
    cases hget
    exact hid
  · exact h id r' hget

theorem restore (spiffeId : String) : (s.restore spiffeId).2.Keyed := by
  intro id r' hget
  rw [RevocationStore.restore, Dict.get?_erase] at hget
  split at hget
  · cases hget
  · exact h id r' hget

theorem get?_eq_some (id : String) (r : RevokedWorkload) : s.get? id = some r ↔ r ∈ s.values ∧ r.spiffeId = id := by
  rw [Dict.mem_values]
  constructor
  · exact fun hget => ⟨⟨id, hget⟩, h id r hget⟩
  · rintro ⟨⟨id', hget⟩, rfl⟩
    exact h id' r hget ▸ hget

theorem keys_eq : s.values.map RevokedWorkload.spiffeId = s.keys := by
  rw [Dict.values, Dict.keys, List.map_map]
  exact List.map_congr_left fun e he => h e.1 e.2 (Dict.mem_entries.1 he)

theorem mem_revoke {r v : RevokedWorkload} :
    v ∈ (s.revoke r).2.values ↔ v = r ∨ v ∈ s.values ∧ v.spiffeId ≠ r.spiffeId := by
  have hv := (h.revoke r).get?_eq_some v.spiffeId v
  simp only [and_true] at hv
  rw [← hv, RevocationStore.revoke, Dict.get?_insert]
  by_cases hid : r.spiffeId = v.spiffeId
  · simp only [hid, if_true, Option.some.injEq, ne_eq, not_true_eq_false, and_false, or_false]
    exact eq_comm
  · rw [if_neg hid, h.get?_eq_some]
    simp only [and_true, ne_eq, Ne.symm hid, not_false_iff]
    exact ⟨.inr, fun hor => hor.resolve_left fun heq => hid (heq ▸ rfl)⟩

theorem mem_restore {id : String} {v : RevokedWorkload} :
    v ∈ (s.restore id).2.values ↔ v ∈ s.values ∧ v.spiffeId ≠ id := by
  have hv := (h.restore id).get?_eq_some v.spiffeId v
  simp only [and_true] at hv
  rw [← hv, RevocationStore.restore, Dict.get?_erase]
  by_cases hid : id = v.spiffeId
  · simp [hid]
  · rw [if_neg hid, h.get?_eq_some]
    simp [Ne.symm hid]

end RevocationStore.Keyed

/-! ## The same answers -/

/-- The records of the dictionary are the rows of the table. -/
structure SameRevocations (s : RevocationStore) (t : RevocationTable) : Prop where
  keyed : s.Keyed
  rows : ∀ r, r ∈ s.values ↔ r ∈ t.rows

namespace SameRevocations

variable {s : RevocationStore} {t : RevocationTable} (h : SameRevocations s t)
include h

theorem revoke (r : RevokedWorkload) : SameRevocations (s.revoke r).2 (t.upsert r) where
  keyed := h.keyed.revoke r
  rows v := by
    rw [h.keyed.mem_revoke, h.rows, RevocationTable.upsert, List.mem_append, List.mem_filter, List.mem_singleton,
      decide_eq_true_eq, or_comm]

theorem restore (id : String) : SameRevocations (s.restore id).2 (t.delete id) where
  keyed := h.keyed.restore id
  rows v := by rw [h.keyed.mem_restore, h.rows, RevocationTable.delete, List.mem_filter, decide_eq_true_eq]

theorem removed (id : String) : (s.restore id).1 = t.rows.any fun row => decide (row.spiffeId = id) := by
  rw [RevocationStore.restore, Bool.eq_iff_iff, Option.isSome_iff_exists, List.any_eq_true]
  refine exists_congr fun r => ?_
  rw [h.keyed.get?_eq_some, h.rows, decide_eq_true_eq]

theorem mem_ids (id : String) : id ∈ s.ids ↔ id ∈ PostgresRevocationStore.ids t := by
  rw [RevocationStore.ids, ← h.keyed.keys_eq, PostgresRevocationStore.ids, List.mem_map, List.mem_map]
  exact exists_congr fun r => and_congr_left' (h.rows r)

theorem all {db : TextDatabase} (hcollate : ∀ a b, db.collate a b = decide (a ≤ b)) :
    s.all = PostgresRevocationStore.all db t := by
  simp only [RevocationStore.all, PostgresRevocationStore.all, hcollate]
  exact Rows.mergeSort_eq_of_mem (h.keyed.keys_eq ▸ s.nodup) t.key h.rows

end SameRevocations

/-- Equal answers, sets compared as sets. -/
def RevocationAnswer.Alike : RevocationAnswer → RevocationAnswer → Prop
  | .ids l, .ids l' => ∀ id, id ∈ l ↔ id ∈ l'
  | a, b => a = b

/-- The database takes every string of the call. -/
def RevocationOp.Taken (db : TextDatabase) : RevocationOp → Prop
  | .revoke r => db.takes r.spiffeId = true ∧ db.takes r.reason = true ∧ db.takes r.revokedBy = true
  | .restore id => db.takes id = true
  | _ => True

section Agree

variable {db : TextDatabase} (hcollate : ∀ a b, db.collate a b = decide (a ≤ b))
include hcollate

theorem revocations_alike {s : RevocationStore} {t : RevocationTable} (h : SameRevocations s t) (op : RevocationOp) :
    RevocationAnswer.Alike (memoryRevocations.step op s).1 ((postgresRevocations db).step op t).1 ↔ op.Taken db := by
  cases op with
  | revoke r =>
    by_cases htaken : db.takes r.spiffeId && db.takes r.reason && db.takes r.revokedBy
    · simp only [memoryRevocations, postgresRevocations, PostgresRevocationStore.revoke, htaken, if_true,
        RevocationAnswer.Alike, RevocationStore.revoke, true_iff]
      simpa [RevocationOp.Taken, and_assoc] using htaken
    · simp only [memoryRevocations, postgresRevocations, PostgresRevocationStore.revoke, htaken,
        RevocationAnswer.Alike, Bool.false_eq_true, if_false, reduceCtorEq, false_iff]
      simpa [RevocationOp.Taken, and_assoc] using htaken
  | restore id =>
    by_cases htaken : db.takes id = true
    · simp [memoryRevocations, postgresRevocations, PostgresRevocationStore.restore, htaken,
        RevocationAnswer.Alike, RevocationOp.Taken, h.removed]
    · simp [memoryRevocations, postgresRevocations, PostgresRevocationStore.restore, htaken,
        RevocationAnswer.Alike, RevocationOp.Taken]
  | ids => exact iff_of_true h.mem_ids trivial
  | all => exact iff_of_true (congrArg RevocationAnswer.listed (h.all hcollate)) trivial

omit hcollate in
theorem revocations_kept {s : RevocationStore} {t : RevocationTable} (h : SameRevocations s t)
    (op : RevocationOp) (htaken : op.Taken db) :
    SameRevocations (memoryRevocations.step op s).2 ((postgresRevocations db).step op t).2 := by
  cases op with
  | revoke r =>
    obtain ⟨hid, hreason, hby⟩ := htaken
    simpa [memoryRevocations, postgresRevocations, PostgresRevocationStore.revoke, hid, hreason, hby] using h.revoke r
  | restore id =>
    have htaken : db.takes id = true := htaken
    simpa [memoryRevocations, postgresRevocations, PostgresRevocationStore.restore, htaken] using h.restore id
  | ids => exact h
  | all => exact h

/-- The two stores answer every sequence of calls alike exactly when the database
takes every string of it. -/
theorem revocations_agree_iff (ops : List RevocationOp) :
    List.Forall₂ RevocationAnswer.Alike (memoryRevocations.answersFrom ∅ ops)
      ((postgresRevocations db).answersFrom .empty ops) ↔ ∀ op ∈ ops, op.Taken db := by
  have hinit : SameRevocations ∅ .empty := ⟨fun _ _ h => (nomatch h), fun _ => Iff.rfl⟩
  have hsame := (Machine.lockstep (m := memoryRevocations) (R := SameRevocations)
    (A := RevocationAnswer.Alike) (G := fun t => t.input.Taken db) (H := fun _ => True)
    (fun _ _ op h _ => revocations_alike hcollate h op) (fun _ _ op h _ hg => revocations_kept h op hg) ops hinit
    fun _ _ => trivial).1
  rw [hsame]
  constructor
  · intro hrun op hop
    rw [← Machine.map_input_runFrom (m := memoryRevocations) ∅ ops] at hop
    obtain ⟨t, ht, rfl⟩ := List.mem_map.1 hop
    exact hrun t ht
  · exact fun hops t ht => hops _ (Machine.input_mem_runFrom ht)

end Agree

/-- A database that compares strings by their characters, and takes no NUL. -/
def plainText : TextDatabase := ⟨fun s => s.toList.all (· ≠ Char.ofNat 0), fun a b => decide (a ≤ b)⟩

theorem leaked_agree : List.Forall₂ RevocationAnswer.Alike
    (memoryRevocations.answersFrom ∅ [.revoke ⟨"spiffe://acme.com/agent", "key leaked", "root", F64.ofInt 1⟩, .all])
    ((postgresRevocations plainText).answersFrom .empty
      [.revoke ⟨"spiffe://acme.com/agent", "key leaked", "root", F64.ofInt 1⟩, .all]) ↔
    ∀ op ∈ [.revoke ⟨"spiffe://acme.com/agent", "key leaked", "root", F64.ofInt 1⟩, .all],
      RevocationOp.Taken plainText op :=
  revocations_agree_iff (fun _ _ => rfl) _

end AgentPlatform
