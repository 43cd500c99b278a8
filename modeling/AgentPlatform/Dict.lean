/-
Insertion-ordered dictionaries: what a `dict` is in the modelled language.

A dictionary is its list of entries with pairwise distinct keys. Assigning to
a key that is present replaces its value in place; assigning to a new key
appends. So `entries` is the iteration order, and the lemmas below say what
`get?` answers after each operation, which entries an assignment leaves, and
what a dictionary built from a list of items holds.
-/
import Mathlib.Data.List.Nodup
import Mathlib.Data.List.Perm.Basic

namespace AgentPlatform

/-- A dictionary, in iteration order. -/
structure Dict (κ α : Type) where
  entries : List (κ × α)
  nodup : (entries.map Prod.fst).Nodup
  deriving DecidableEq

namespace Dict

variable {κ α β : Type} [DecidableEq κ]

/-- The value a list of entries gives a key: the first one listed. -/
def find (k : κ) : List (κ × α) → Option α
  | [] => none
  | (a, v) :: l => if a = k then some v else find k l

/-- Assignment on the list of entries. -/
def upsert (k : κ) (v : α) : List (κ × α) → List (κ × α)
  | [] => [(k, v)]
  | (a, w) :: l => if a = k then (k, v) :: l else (a, w) :: upsert k v l

theorem find_eq_none {k : κ} : ∀ {l : List (κ × α)}, find k l = none ↔ k ∉ l.map Prod.fst
  | [] => by simp [find]
  | (a, v) :: l => by
    by_cases h : a = k
    · simp [find, h]
    · simp only [find, h, if_false, List.map_cons, List.mem_cons, not_or, find_eq_none (l := l)]
      exact ⟨fun hl => ⟨fun e => h e.symm, hl⟩, fun hl => hl.2⟩

theorem mem_of_find {k : κ} {v : α} : ∀ {l : List (κ × α)}, find k l = some v → (k, v) ∈ l
  | [], h => by simp [find] at h
  | (a, w) :: l, h => by
    by_cases hk : a = k
    · simp only [find, hk, if_true, Option.some.injEq] at h
      simp [hk, h]
    · simp only [find, hk, if_false] at h
      exact List.mem_cons_of_mem _ (mem_of_find h)

theorem find_of_mem {k : κ} {v : α} : ∀ {l : List (κ × α)}, (l.map Prod.fst).Nodup → (k, v) ∈ l →
    find k l = some v
  | [], _, h => by simp at h
  | (a, w) :: l, hn, h => by
    simp only [List.map_cons, List.nodup_cons] at hn
    simp only [List.mem_cons, Prod.mk.injEq] at h
    rcases h with ⟨rfl, rfl⟩ | h
    · simp [find]
    · have hk : a ≠ k := by
        rintro rfl
        exact hn.1 (List.mem_map_of_mem (f := Prod.fst) h)
      simp only [find, hk, if_false]
      exact find_of_mem hn.2 h

theorem find_upsert (k j : κ) (v : α) : ∀ l : List (κ × α),
    find j (upsert k v l) = if k = j then some v else find j l
  | [] => rfl
  | (a, w) :: l => by
    by_cases hak : a = k
    · subst hak
      by_cases haj : a = j <;> simp [upsert, find, haj]
    · simp only [upsert, hak, if_false, find, find_upsert k j v l]
      by_cases haj : a = j
      · have hkj : k ≠ j := fun e => hak (haj.trans e.symm)
        simp [haj, hkj]
      · simp [haj]

theorem keys_upsert (k : κ) (v : α) : ∀ l : List (κ × α),
    (upsert k v l).map Prod.fst = if k ∈ l.map Prod.fst then l.map Prod.fst else l.map Prod.fst ++ [k]
  | [] => by simp [upsert]
  | (a, w) :: l => by
    by_cases hak : a = k
    · simp [upsert, hak]
    · have hka : k ≠ a := fun e => hak e.symm
      simp only [upsert, hak, if_false, List.map_cons, keys_upsert k v l, List.mem_cons, hka,
        false_or]
      split <;> simp

theorem upsert_of_not_mem {k : κ} {v : α} : ∀ {l : List (κ × α)}, k ∉ l.map Prod.fst →
    upsert k v l = l ++ [(k, v)]
  | [], _ => rfl
  | (a, w) :: l, h => by
    simp only [List.map_cons, List.mem_cons, not_or] at h
    have hak : a ≠ k := fun e => h.1 e.symm
    simp [upsert, hak, upsert_of_not_mem h.2]

theorem nodup_upsert (k : κ) (v : α) {l : List (κ × α)} (h : (l.map Prod.fst).Nodup) :
    ((upsert k v l).map Prod.fst).Nodup := by
  rw [keys_upsert]
  split
  · exact h
  · rename_i hk
    rw [List.nodup_append]
    refine ⟨h, by simp, fun a ha b hb => ?_⟩
    simp only [List.mem_singleton] at hb
    rintro rfl
    exact hk (hb ▸ ha)

/-! ## The operations -/

def empty : Dict κ α := ⟨[], by simp⟩

instance : EmptyCollection (Dict κ α) := ⟨empty⟩

instance : Inhabited (Dict κ α) := ⟨empty⟩

/-- `d.get(k)`. -/
def get? (d : Dict κ α) (k : κ) : Option α := find k d.entries

/-- `k in d`. -/
def contains (d : Dict κ α) (k : κ) : Bool := (d.get? k).isSome

/-- `d[k] = v`. -/
def insert (d : Dict κ α) (k : κ) (v : α) : Dict κ α :=
  ⟨upsert k v d.entries, nodup_upsert k v d.nodup⟩

/-- `d.update(l)`. -/
def insertAll (d : Dict κ α) (l : List (κ × α)) : Dict κ α :=
  l.foldl (fun d e => d.insert e.1 e.2) d

/-- The dictionary of a list of items; a later item wins. -/
def ofList (l : List (κ × α)) : Dict κ α := insertAll empty l

def keys (d : Dict κ α) : List κ := d.entries.map Prod.fst

def values (d : Dict κ α) : List α := d.entries.map Prod.snd

/-- `d.pop(k, None)`. -/
def erase (d : Dict κ α) (k : κ) : Dict κ α :=
  ⟨d.entries.filter fun e => e.1 ≠ k, by
    have hs : ((d.entries.filter fun e => e.1 ≠ k).map Prod.fst).Sublist (d.entries.map Prod.fst) :=
      List.filter_sublist.map _
    exact d.nodup.sublist hs⟩

/-- A comprehension `{k: f(k, v) for k, v in d.items() if ...}`. -/
def filterMap (f : κ → α → Option β) (d : Dict κ α) : Dict κ β :=
  ⟨d.entries.filterMap fun e => (f e.1 e.2).map fun v => (e.1, v), by
    have hs : ((d.entries.filterMap fun e => (f e.1 e.2).map fun v => (e.1, v)).map Prod.fst).Sublist
        (d.entries.map Prod.fst) := by
      induction d.entries with
      | nil => simp
      | cons e l ih =>
        rw [List.filterMap_cons]
        cases f e.1 e.2 with
        | none => exact ih.trans (List.sublist_cons_self _ _)
        | some v => exact ih.cons_cons _
    exact d.nodup.sublist hs⟩

/-! ## What the operations answer -/

@[simp] theorem get?_empty (k : κ) : (empty : Dict κ α).get? k = none := rfl

omit [DecidableEq κ] in
@[simp] theorem entries_empty : (empty : Dict κ α).entries = [] := rfl

theorem get?_insert (d : Dict κ α) (k j : κ) (v : α) :
    (d.insert k v).get? j = if k = j then some v else d.get? j := find_upsert k j v d.entries

@[simp] theorem get?_insert_self (d : Dict κ α) (k : κ) (v : α) : (d.insert k v).get? k = some v := by
  simp [get?_insert]

theorem get?_insert_ne (d : Dict κ α) {k j : κ} (v : α) (h : k ≠ j) :
    (d.insert k v).get? j = d.get? j := by simp [get?_insert, h]

theorem mem_entries {d : Dict κ α} {k : κ} {v : α} : (k, v) ∈ d.entries ↔ d.get? k = some v :=
  ⟨find_of_mem d.nodup, mem_of_find⟩

theorem mem_values {d : Dict κ α} {v : α} : v ∈ d.values ↔ ∃ k, d.get? k = some v := by
  simp only [values, List.mem_map]
  constructor
  · rintro ⟨⟨k, w⟩, hm, rfl⟩
    exact ⟨k, mem_entries.1 hm⟩
  · rintro ⟨k, h⟩
    exact ⟨(k, v), mem_entries.2 h, rfl⟩

theorem mem_keys {d : Dict κ α} {k : κ} : k ∈ d.keys ↔ ∃ v, d.get? k = some v := by
  rw [← Option.isSome_iff_exists, ← not_iff_not, keys, ← find_eq_none]
  simp [get?]

theorem get?_erase (d : Dict κ α) (k j : κ) : (d.erase k).get? j = if k = j then none else d.get? j := by
  cases h : (d.erase k).get? j with
  | none =>
    split
    · rfl
    · rename_i hkj
      cases hd : d.get? j with
      | none => rfl
      | some v =>
        have : (j, v) ∈ (d.erase k).entries := by
          simp only [erase, ne_eq, decide_not, List.mem_filter, mem_entries, hd, true_and,
            Bool.not_eq_eq_eq_not, Bool.not_true, decide_eq_false_iff_not]
          exact fun e => hkj e.symm
        rw [mem_entries, h] at this
        cases this
  | some v =>
    have hm : (j, v) ∈ (d.erase k).entries := mem_entries.2 h
    simp only [erase, ne_eq, decide_not, List.mem_filter, mem_entries, Bool.not_eq_eq_eq_not,
      Bool.not_true, decide_eq_false_iff_not] at hm
    have hkj : k ≠ j := fun e => hm.2 e.symm
    simp [hkj, hm.1]

theorem get?_filterMap (f : κ → α → Option β) (d : Dict κ α) (k : κ) :
    (d.filterMap f).get? k = (d.get? k).bind (f k) := by
  cases h : (d.filterMap f).get? k with
  | some w =>
    have hm : (k, w) ∈ (d.filterMap f).entries := mem_entries.2 h
    simp only [filterMap, List.mem_filterMap, Option.map_eq_some_iff, Prod.mk.injEq,
      Prod.exists] at hm
    obtain ⟨a, v, hv, u, hu, rfl, rfl⟩ := hm
    simp [mem_entries.1 hv, hu]
  | none =>
    cases hd : d.get? k with
    | none => rfl
    | some v =>
      cases hf : f k v with
      | none => simp [hf]
      | some w =>
        have : (k, w) ∈ (d.filterMap f).entries := by
          simp only [filterMap, List.mem_filterMap, Option.map_eq_some_iff, Prod.mk.injEq,
            Prod.exists]
          exact ⟨k, v, mem_entries.2 hd, w, hf, rfl, rfl⟩
        rw [mem_entries, h] at this
        cases this

/-- A value read after insertions is an inserted one, or was there before. -/
theorem get?_insertAll_of {P : Option α → Prop} {l : List (κ × α)} {d : Dict κ α} {k : κ} (h : P (d.get? k))
    (hl : ∀ e ∈ l, P (some e.2)) : P ((d.insertAll l).get? k) := by
  induction l generalizing d with
  | nil => exact h
  | cons e l ih =>
    refine ih (d := d.insert e.1 e.2) ?_ fun e' he' => hl e' (List.mem_cons_of_mem e he')
    rw [get?_insert]
    split
    · exact hl e (List.mem_cons_self ..)
    · exact h

/-- After an update with distinct keys, the update's values win. -/
theorem get?_insertAll : ∀ {l : List (κ × α)} (d : Dict κ α) (k : κ), (l.map Prod.fst).Nodup →
    (d.insertAll l).get? k = (find k l).or (d.get? k)
  | [], d, k, _ => by simp [insertAll, find]
  | (a, v) :: l, d, k, hn => by
    simp only [List.map_cons, List.nodup_cons] at hn
    have ih : ((d.insert a v).insertAll l).get? k = (find k l).or ((d.insert a v).get? k) :=
      get?_insertAll (d.insert a v) k hn.2
    have he : d.insertAll ((a, v) :: l) = (d.insert a v).insertAll l := rfl
    rw [he, ih, get?_insert]
    by_cases hak : a = k
    · subst hak
      simp [find, find_eq_none.2 hn.1]
    · simp [find, hak]

omit [DecidableEq κ] in
theorem entries_injective {d e : Dict κ α} (h : d.entries = e.entries) : d = e := by
  cases d
  cases e
  cases h
  rfl

/-- Rebuilding a dictionary from its items gives it back. -/
theorem ofList_entries (d : Dict κ α) : ofList d.entries = d := by
  have key : ∀ (l : List (κ × α)) (e : Dict κ α), ((e.entries ++ l).map Prod.fst).Nodup →
      (e.insertAll l).entries = e.entries ++ l := by
    intro l
    induction l with
    | nil => intro e _; simp [insertAll]
    | cons x l ih =>
      intro e hn
      have hx : x.1 ∉ e.entries.map Prod.fst := by
        simp only [List.map_append, List.map_cons, List.nodup_append, List.nodup_cons] at hn
        exact fun hm => hn.2.2 _ hm _ (by simp) rfl
      have hi : (e.insert x.1 x.2).entries = e.entries ++ [x] := upsert_of_not_mem hx
      have he : e.insertAll (x :: l) = (e.insert x.1 x.2).insertAll l := rfl
      rw [he, ih _ (by rw [hi]; simpa using hn), hi]
      simp
  have h : (ofList d.entries).entries = d.entries := by
    simpa [ofList] using key d.entries empty (by simpa using d.nodup)
  exact entries_injective h

/-- Assigning to a key that is absent appends. -/
theorem entries_insert_of_none {d : Dict κ α} {k : κ} {v : α} (h : d.get? k = none) :
    (d.insert k v).entries = d.entries ++ [(k, v)] := upsert_of_not_mem (find_eq_none.1 h)

theorem values_insert_of_none {d : Dict κ α} {k : κ} {v : α} (h : d.get? k = none) :
    (d.insert k v).values = d.values ++ [v] := by
  rw [values, entries_insert_of_none h, List.map_append, List.map_singleton, values]

/-- An assignment, as an update of the function a dictionary is. -/
theorem get?_insert_update (d : Dict κ α) (k : κ) (v : α) :
    (d.insert k v).get? = Function.update d.get? k (some v) := by
  funext j
  by_cases h : k = j
  · subst h
    simp
  · simp [get?_insert, h, Function.update_of_ne (Ne.symm h)]

/-- What a dictionary holds after an assignment: the new value, or an old one
under another key. -/
theorem get?_insert_cases {d : Dict κ α} {k j : κ} {v w : α} (h : (d.insert k v).get? j = some w) :
    (j = k ∧ w = v) ∨ (j ≠ k ∧ d.get? j = some w) := by
  rw [get?_insert] at h
  split at h
  · rename_i hkj
    simp only [Option.some.injEq] at h
    exact .inl ⟨hkj.symm, h.symm⟩
  · rename_i hkj
    exact .inr ⟨fun e => hkj e.symm, h⟩

theorem find_filterMap (f : κ → Option α) (k : κ) (l : List κ) :
    find k (l.filterMap fun a => (f a).map (a, ·)) = if k ∈ l then f k else none := by
  induction l with
  | nil => rfl
  | cons a l ih =>
    cases hf : f a with
    | none =>
      rw [List.filterMap_cons_none (by simp [hf]), ih]
      by_cases ha : k = a
      · subst ha
        simp [hf]
      · simp [ha]
    | some v =>
      rw [List.filterMap_cons_some (b := (a, v)) (by simp [hf])]
      by_cases ha : a = k
      · subst ha
        simp [find, hf]
      · simp [find, ha, ih, Ne.symm ha]

omit [DecidableEq κ] in
theorem keys_filterMap_sublist (f : κ → Option α) (l : List κ) :
    ((l.filterMap fun a => (f a).map (a, ·)).map Prod.fst).Sublist l := by
  induction l with
  | nil => exact .slnil
  | cons a l ih =>
    cases hf : f a with
    | none => simpa [hf] using ih.cons a
    | some v => simpa [hf] using ih.cons_cons a

/-- A dictionary made of the keys that have a value. -/
theorem get?_ofList_filterMap {l : List κ} (hl : l.Nodup) (f : κ → Option α) (k : κ) :
    (ofList (l.filterMap fun a => (f a).map (a, ·))).get? k = if k ∈ l then f k else none := by
  rw [ofList, get?_insertAll _ _ (hl.sublist (keys_filterMap_sublist f l)), find_filterMap]
  split <;> simp [get?, empty, find]

/-- The items of a list without repeated keys are its dictionary's. -/
theorem get?_ofList_eq_some {l : List (κ × α)} (hl : (l.map Prod.fst).Nodup) {k : κ} {v : α} :
    (ofList l).get? k = some v ↔ (k, v) ∈ l := by
  have hempty : get? (empty : Dict κ α) k = none := rfl
  rw [ofList, get?_insertAll _ _ hl, hempty, Option.or_none]
  exact ⟨mem_of_find, find_of_mem hl⟩

end Dict

end AgentPlatform
