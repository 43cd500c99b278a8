/-
JSON values as the modelled language holds them after `json.loads`: integers
of any size, doubles (NaN and the infinities included, which the parser
accepts), and dictionaries as field lists.

`pyEq` is the language's `==`. It is not equality of trees: `True == 1`,
`1 == 1.0`, NaN is not equal to itself, and two dictionaries are equal when
they map the same keys to equal values, whatever the order of their fields.
`pyEq_obj` says so. On all values it is symmetric and transitive (`pyEq_symm`,
`pyEq_trans`), and a value with a JSON text equals itself (`pyEq_refl`).
-/
import AgentPlatform.Binary64
import AgentPlatform.Dict
import Mathlib.Data.List.Sort
import Mathlib.Data.List.Dedup
import Mathlib.Data.List.Forall2

namespace AgentPlatform

namespace Py

/-- The most digits an integer may have to be written or read in decimal. -/
def maxStrDigits : Nat := 4300

/-- The decimal digits of a natural number, most significant first. -/
def decimalDigits (n : Nat) : List Char := Nat.toDigits 10 n

end Py

inductive Json where
  | null
  | bool (b : Bool)
  | int (i : Int)
  | float (x : F64)
  | str (s : String)
  | arr (xs : List Json)
  | obj (fields : List (String × Json))
  deriving Inhabited

/-- A `dict` with string keys, as a request body or an arguments record is. -/
abbrev Args := Dict String Json

namespace Json

/-- The number a value is in a comparison: a boolean is an integer. -/
def asNum : Json → Option (Int ⊕ F64)
  | .bool b => some (.inl (if b then 1 else 0))
  | .int i => some (.inl i)
  | .float x => some (.inr x)
  | _ => none

/-- `==` on numbers: an integer and a double are compared by exact value. -/
def numEq : Int ⊕ F64 → Int ⊕ F64 → Bool
  | .inl i, .inl j => decide (i = j)
  | .inl i, .inr x | .inr x, .inl i => decide (x.scaled = some (i * F64.unit))
  | .inr x, .inr y => F64.eq x y

/-- `==` on values that hold no other value. -/
def scalarEq : Json → Json → Bool
  | .null, .null => true
  | .str s, .str t => decide (s = t)
  | a, b =>
    match a.asNum, b.asNum with
    | some x, some y => numEq x y
    | _, _ => false

mutual

/-- `a == b`. -/
def pyEq : Json → Json → Bool
  | .arr xs, .arr ys => pyEqItems xs ys
  | .obj xs, .obj ys =>
    decide ((xs.map Prod.fst).dedup.length = (ys.map Prod.fst).dedup.length) && pyEqFields [] xs ys
  | a, b => scalarEq a b

def pyEqItems : List Json → List Json → Bool
  | [], [] => true
  | x :: xs, y :: ys => x.pyEq y && pyEqItems xs ys
  | _, _ => false

/-- Every field of the first list has an equal one in the second. A key that
was met before is shadowed. -/
def pyEqFields (seen : List String) : List (String × Json) → List (String × Json) → Bool
  | [], _ => true
  | (k, v) :: xs, ys =>
    (decide (k ∈ seen) || match Dict.find k ys with
      | some w => v.pyEq w
      | none => false) && pyEqFields (k :: seen) xs ys

end

/-- `bool(v)`. -/
def truthy : Json → Bool
  | .null => false
  | .bool b => b
  | .int i => decide (i ≠ 0)
  | .float x => !F64.eq x F64.zero
  | .str s => decide (s ≠ "")
  | .arr xs => !xs.isEmpty
  | .obj fs => !fs.isEmpty

def isNull : Json → Bool
  | .null => true
  | _ => false

theorem isNull_iff {v : Json} : v.isNull = true ↔ v = .null := by cases v <;> simp [isNull]

def isBool : Json → Bool
  | .bool _ => true
  | _ => false

/-- `v in (None, "")`. -/
def isBlank : Json → Bool
  | .null => true
  | .str s => decide (s = "")
  | _ => false

mutual

/-- The value has a JSON text: it holds no NaN, no infinity and no integer past
the digit limit. -/
def encodable : Json → Bool
  | .float x => x.isFinite
  | .int i => decide ((Py.decimalDigits i.natAbs).length ≤ Py.maxStrDigits)
  | .arr xs => encodableItems xs
  | .obj fs => encodableFields fs
  | _ => true

def encodableItems : List Json → Bool
  | [] => true
  | x :: xs => x.encodable && encodableItems xs

def encodableFields : List (String × Json) → Bool
  | [] => true
  | (_, v) :: fs => v.encodable && encodableFields fs

end

/-- A field of an object, `None` for any other value. -/
def field (k : String) : Json → Option Json
  | .obj fs => Dict.find k fs
  | _ => none

/-! ## Equality of scalars -/

theorem numEq_refl : ∀ {n : Int ⊕ F64}, (∀ x, n = .inr x → x.isFinite = true) → numEq n n = true
  | .inl i, _ => by simp [numEq]
  | .inr x, h => by
    have := h x rfl
    cases x <;> simp_all [F64.isFinite, numEq, F64.eq, F64.le, F64.scaled]

/-- The number's place in the order of the doubles, an integer's exact one. -/
def numRank : Int ⊕ F64 → Option (Int × Int)
  | .inl i => some (0, i * F64.unit)
  | .inr x => x.rank

theorem numEq_iff : ∀ {m n : Int ⊕ F64}, numEq m n = true ↔ ∃ a, numRank m = some a ∧ numRank n = some a
  | .inl i, .inl j => by
    have hunit : (F64.unit : Int) ≠ 0 := by exact_mod_cast F64.unit_pos.ne'
    simp only [numEq, decide_eq_true_eq, numRank, Option.some.injEq, exists_eq_left', Prod.mk.injEq, true_and]
    rw [mul_left_inj' hunit]
    exact eq_comm
  | .inl i, .inr x => by
    simp only [numEq, decide_eq_true_eq, F64.scaled_iff_rank, numRank, Option.some.injEq, exists_eq_left']
  | .inr x, .inl i => by
    simp only [numEq, decide_eq_true_eq, F64.scaled_iff_rank, numRank, Option.some.injEq, exists_eq_right']
  | .inr x, .inr y => by simp only [numEq, numRank, F64.eq_iff_rank]

theorem numEq_symm {m n : Int ⊕ F64} (h : numEq m n = true) : numEq n m = true := by
  obtain ⟨a, hm, hn⟩ := numEq_iff.1 h
  exact numEq_iff.2 ⟨a, hn, hm⟩

theorem numEq_trans {l m n : Int ⊕ F64} (h : numEq l m = true) (h' : numEq m n = true) : numEq l n = true := by
  obtain ⟨a, hl, hm⟩ := numEq_iff.1 h
  obtain ⟨b, hm', hn⟩ := numEq_iff.1 h'
  obtain rfl : a = b := Option.some.inj (hm.symm.trans hm')
  exact numEq_iff.2 ⟨a, hl, hn⟩

/-- Equal scalars are the same, or numbers of the same value. -/
theorem scalarEq_iff {v w : Json} : scalarEq v w = true ↔
    (v = .null ∧ w = .null) ∨ (∃ s, v = .str s ∧ w = .str s) ∨
      ∃ m n, v.asNum = some m ∧ w.asNum = some n ∧ numEq m n = true := by
  cases v <;> cases w <;> simp [scalarEq, asNum]
  exact eq_comm

theorem scalarEq_symm {v w : Json} (h : scalarEq v w = true) : scalarEq w v = true := by
  rw [scalarEq_iff] at h ⊢
  rcases h with ⟨hv, hw⟩ | ⟨s, hv, hw⟩ | ⟨m, n, hm, hn, he⟩
  · exact .inl ⟨hw, hv⟩
  · exact .inr (.inl ⟨s, hw, hv⟩)
  · exact .inr (.inr ⟨n, m, hn, hm, numEq_symm he⟩)

theorem scalarEq_trans {u v w : Json} (h : scalarEq u v = true) (h' : scalarEq v w = true) : scalarEq u w = true := by
  rw [scalarEq_iff] at h h' ⊢
  rcases h with ⟨hu, rfl⟩ | ⟨s, hu, rfl⟩ | ⟨l, m, hl, hm, he⟩
  · simpa [asNum, hu] using h'
  · simpa [asNum, hu] using h'
  · rcases h' with ⟨rfl, -⟩ | ⟨s, rfl, -⟩ | ⟨m', n, hm', hn, he'⟩
    · cases hm
    · cases hm
    · obtain rfl : m = m' := Option.some.inj (hm.symm.trans hm')
      exact .inr (.inr ⟨l, n, hl, hn, numEq_trans he he'⟩)

/-- A value that holds no other value. -/
def isScalar : Json → Bool
  | .arr _ => false
  | .obj _ => false
  | _ => true

theorem pyEq_scalar {v : Json} (hv : v.isScalar = true) (w : Json) : pyEq v w = scalarEq v w := by
  cases v <;> simp_all [isScalar, pyEq]

theorem isScalar_of_scalarEq {v w : Json} (h : scalarEq v w = true) : w.isScalar = true := by
  cases v <;> cases w <;> simp_all [scalarEq, asNum, isScalar]

theorem pyEq_str {v : Json} {s : String} : pyEq (.str s) v = true ↔ v = .str s := by
  cases v <;> simp [pyEq, scalarEq, asNum, eq_comm]

theorem pyEq_str_right {v : Json} {s : String} : pyEq v (.str s) = true ↔ v = .str s := by
  cases v <;> simp [pyEq, scalarEq, asNum]

/-- A value equal to a finite double is a number of the same magnitude. -/
theorem pyEq_float_right {v : Json} {x : F64} (h : pyEq v (.float x) = true) :
    ∃ n, v.asNum = some n ∧ numEq n (.inr x) = true := by
  cases v <;> simp_all [pyEq, scalarEq, asNum]

/-- Two doubles one value is equal to have the same value. -/
theorem scaled_of_pyEq {v : Json} {x y : F64} {s : Int} (hx : pyEq v (.float x) = true)
    (hy : pyEq v (.float y) = true) (hs : x.scaled = some s) : y.scaled = some s := by
  obtain ⟨n, hn, hnx⟩ := pyEq_float_right hx
  obtain ⟨n', hn', hny⟩ := pyEq_float_right hy
  cases hn.symm.trans hn'
  cases n with
  | inl i =>
    simp only [numEq, decide_eq_true_eq] at hnx hny
    rw [hny, ← hnx, hs]
  | inr z =>
    rw [numEq, F64.eq_comm] at hnx
    exact F64.scaled_of_eq hny (F64.scaled_of_eq hnx hs)

/-! ## Equality of dictionaries -/

/-- Both absent, or both present and equal. -/
def OptEq : Option Json → Option Json → Prop
  | none, none => True
  | some v, some w => pyEq v w = true
  | _, _ => False

theorem pyEqItems_iff : ∀ {xs ys : List Json}, pyEqItems xs ys = true ↔ List.Forall₂ (fun x y => pyEq x y = true) xs ys
  | [], [] => by simp [pyEqItems]
  | [], y :: ys => by simp [pyEqItems]
  | x :: xs, [] => by simp [pyEqItems]
  | x :: xs, y :: ys => by simp [pyEqItems, pyEqItems_iff]

theorem pyEqFields_iff (ys : List (String × Json)) : ∀ (xs : List (String × Json)) (seen : List String),
    pyEqFields seen xs ys = true ↔
      ∀ k v, k ∉ seen → Dict.find k xs = some v → ∃ w, Dict.find k ys = some w ∧ pyEq v w = true
  | [], seen => by simp [pyEqFields, Dict.find]
  | (k, v) :: xs, seen => by
    simp only [pyEqFields, Bool.and_eq_true, Bool.or_eq_true, decide_eq_true_eq, pyEqFields_iff ys xs (k :: seen)]
    constructor
    · rintro ⟨hfirst, hrest⟩ j u hj hu
      by_cases hkj : k = j
      · subst hkj
        simp only [Dict.find, if_true, Option.some.injEq] at hu
        subst hu
        cases hw : Dict.find k ys with
        | none => simp [hj, hw] at hfirst
        | some w => exact ⟨w, rfl, by simpa [hj, hw] using hfirst⟩
      · simp only [Dict.find, hkj, if_false] at hu
        exact hrest j u (by simp [hj, Ne.symm hkj]) hu
    · intro h
      constructor
      · by_cases hk : k ∈ seen
        · exact .inl hk
        · obtain ⟨w, hw, he⟩ := h k v hk (by simp [Dict.find])
          exact .inr (by simp [hw, he])
      · intro j u hj hu
        simp only [List.mem_cons, not_or] at hj
        exact h j u hj.2 (by simpa [Dict.find, Ne.symm hj.1] using hu)

/-- **Two dictionaries are equal as mappings**: each key is absent from both,
or has equal values. -/
theorem pyEq_obj {xs ys : List (String × Json)} :
    pyEq (.obj xs) (.obj ys) = true ↔ ∀ k, OptEq (Dict.find k xs) (Dict.find k ys) := by
  simp only [pyEq, Bool.and_eq_true, decide_eq_true_eq, pyEqFields_iff]
  constructor
  · rintro ⟨hlen, hall⟩ k
    cases hfx : Dict.find k xs with
    | some v =>
      obtain ⟨w, hw, he⟩ := hall k v List.not_mem_nil hfx
      simp [hw, OptEq, he]
    | none =>
      have hsub : (xs.map Prod.fst).dedup ⊆ (ys.map Prod.fst).dedup := by
        intro j hj
        rw [List.mem_dedup] at hj ⊢
        cases hfj : Dict.find j xs with
        | none => exact absurd hj (Dict.find_eq_none.1 hfj)
        | some v =>
          obtain ⟨w, hw, -⟩ := hall j v List.not_mem_nil hfj
          exact List.mem_map_of_mem (Dict.mem_of_find hw)
      -- equally many distinct keys, all of the first among the second's
      have hperm := (List.subperm_of_subset (List.nodup_dedup _) hsub).perm_of_length_le hlen.ge
      have hky : k ∉ ys.map Prod.fst := fun h =>
        Dict.find_eq_none.1 hfx (List.mem_dedup.1 (hperm.mem_iff.2 (List.mem_dedup.2 h)))
      simp [Dict.find_eq_none.2 hky, OptEq]
  · intro h
    have hmem : ∀ k, k ∈ (xs.map Prod.fst).dedup ↔ k ∈ (ys.map Prod.fst).dedup := by
      intro k
      have hk := h k
      rw [List.mem_dedup, List.mem_dedup, ← not_iff_not, ← Dict.find_eq_none, ← Dict.find_eq_none]
      cases hfx : Dict.find k xs <;> cases hfy : Dict.find k ys <;> simp_all [OptEq]
    refine ⟨((List.perm_ext_iff_of_nodup (List.nodup_dedup _) (List.nodup_dedup _)).2 hmem).length_eq,
      fun k v _ hv => ?_⟩
    have hk := h k
    rw [hv] at hk
    cases hfy : Dict.find k ys with
    | none => simp [hfy, OptEq] at hk
    | some w => exact ⟨w, rfl, by simpa [hfy, OptEq] using hk⟩

theorem encodableItems_iff : ∀ (xs : List Json), encodableItems xs = true ↔ ∀ x ∈ xs, x.encodable = true
  | [] => by simp [encodableItems]
  | x :: xs => by simp [encodableItems, encodableItems_iff xs]

theorem encodableFields_iff : ∀ (fs : List (String × Json)),
    encodableFields fs = true ↔ ∀ e ∈ fs, e.2.encodable = true
  | [] => by simp [encodableFields]
  | (k, v) :: fs => by simp [encodableFields, encodableFields_iff fs]

mutual

/-- A value with a JSON text equals itself. -/
theorem pyEq_refl : ∀ (v : Json), v.encodable = true → pyEq v v = true
  | .null, _ => rfl
  | .bool b, _ => by simp [pyEq, scalarEq, asNum, numEq]
  | .int i, _ => by simp [pyEq, scalarEq, asNum, numEq]
  | .float x, h => by
    simp only [pyEq, scalarEq, asNum]
    exact numEq_refl (by rintro y ⟨⟩; simpa [encodable] using h)
  | .str s, _ => by simp [pyEq, scalarEq]
  | .arr xs, h => by
    simp only [pyEq]
    exact pyEqItems_refl xs (by simpa [encodable] using h)
  | .obj fs, h => by
    simp only [pyEq, decide_true, Bool.true_and]
    exact pyEqFields_refl fs [] fs (by simpa [encodable] using h) fun _ _ _ h => h

theorem pyEqItems_refl : ∀ (xs : List Json), encodableItems xs = true → pyEqItems xs xs = true
  | [], _ => rfl
  | x :: xs, h => by
    simp only [encodableItems, Bool.and_eq_true] at h
    simp [pyEqItems, pyEq_refl x h.1, pyEqItems_refl xs h.2]

theorem pyEqFields_refl : ∀ (fs : List (String × Json)) (seen : List String) (ys : List (String × Json)),
    encodableFields fs = true → (∀ k v, k ∉ seen → Dict.find k fs = some v → Dict.find k ys = some v) →
    pyEqFields seen fs ys = true
  | [], _, _, _, _ => rfl
  | (k, v) :: fs, seen, ys, h, hf => by
    simp only [encodableFields, Bool.and_eq_true] at h
    simp only [pyEqFields, Bool.and_eq_true, Bool.or_eq_true, decide_eq_true_eq]
    refine ⟨?_, pyEqFields_refl fs (k :: seen) ys h.2 fun j w hj hw => ?_⟩
    · by_cases hk : k ∈ seen
      · exact .inl hk
      · right
        rw [hf k v hk (by simp [Dict.find])]
        exact pyEq_refl v h.1
    · simp only [List.mem_cons, not_or] at hj
      refine hf j w hj.2 ?_
      have : k ≠ j := fun e => hj.1 e.symm
      simpa [Dict.find, this] using hw

end

/-! ## Equality is an equivalence -/

theorem optEq_cases {v w : Option Json} (h : OptEq v w) : (v = none ∧ w = none) ∨
    ∃ x y, v = .some x ∧ w = .some y ∧ pyEq x y = true := by
  cases v <;> cases w <;> simp_all [OptEq]

/-- Induction over a value and the values it holds. -/
theorem induct {P : Json → Prop} (scalar : ∀ v, v.isScalar = true → P v)
    (arr : ∀ xs, (∀ x ∈ xs, P x) → P (.arr xs)) (obj : ∀ fs, (∀ e ∈ fs, P e.2) → P (.obj fs)) (v : Json) : P v := by
  refine @Json.rec P (fun xs => ∀ x ∈ xs, P x) (fun fs => ∀ e ∈ fs, P e.2) (fun e => P e.2)
    ?_ ?_ ?_ ?_ ?_ arr obj ?_ ?_ ?_ ?_ ?_ v
  · exact scalar _ rfl
  · exact fun _ => scalar _ rfl
  · exact fun _ => scalar _ rfl
  · exact fun _ => scalar _ rfl
  · exact fun _ => scalar _ rfl
  · simp
  · exact fun x xs hx hxs => List.forall_mem_cons.2 ⟨hx, hxs⟩
  · simp
  · exact fun e fs he hfs => List.forall_mem_cons.2 ⟨he, hfs⟩
  · exact fun _ _ h => h

theorem pyEq_symm (x : Json) : ∀ {y}, pyEq x y = true → pyEq y x = true := by
  induction x using induct with
  | scalar v hv =>
    intro y h
    rw [pyEq_scalar hv] at h
    rw [pyEq_scalar (isScalar_of_scalarEq h)]
    exact scalarEq_symm h
  | arr xs ih =>
    intro y h
    cases y with
    | arr ys =>
      rw [pyEq, pyEqItems_iff, List.forall₂_iff_get] at h ⊢
      exact ⟨h.1.symm, fun i hy hx => ih _ (List.get_mem ..) (h.2 i hx hy)⟩
    | _ => cases h
  | obj fs ih =>
    intro y h
    cases y with
    | obj gs =>
      rw [pyEq_obj] at h ⊢
      intro k
      rcases optEq_cases (h k) with ⟨hx, hy⟩ | ⟨x, y, hx, hy, he⟩
      · rw [hx, hy]
        trivial
      · rw [hx, hy]
        exact ih _ (Dict.mem_of_find hx) he
    | _ => cases h

theorem pyEq_trans (x : Json) : ∀ {y z}, pyEq x y = true → pyEq y z = true → pyEq x z = true := by
  induction x using induct with
  | scalar v hv =>
    intro y z h h'
    rw [pyEq_scalar hv] at h ⊢
    rw [pyEq_scalar (isScalar_of_scalarEq h)] at h'
    exact scalarEq_trans h h'
  | arr xs ih =>
    intro y z h h'
    cases y with
    | arr ys =>
      cases z with
      | arr zs =>
        rw [pyEq, pyEqItems_iff, List.forall₂_iff_get] at h h' ⊢
        exact ⟨h.1.trans h'.1, fun i hx hz => ih _ (List.get_mem ..) (h.2 i hx (h.1 ▸ hx)) (h'.2 i (h.1 ▸ hx) hz)⟩
      | _ => cases h'
    | _ => cases h
  | obj fs ih =>
    intro y z h h'
    cases y with
    | obj gs =>
      cases z with
      | obj hs =>
        rw [pyEq_obj] at h h' ⊢
        intro k
        rcases optEq_cases (h k) with ⟨hx, hy⟩ | ⟨x, y, hx, hy, he⟩
        · rw [hx, ← hy]
          exact h' k
        · rcases optEq_cases (h' k) with ⟨hy', -⟩ | ⟨y', z, hy', hz, he'⟩
          · rw [hy] at hy'
            cases hy'
          · obtain rfl : y = y' := Option.some.inj (hy.symm.trans hy')
            rw [hx, hz]
            exact ih _ (Dict.mem_of_find hx) he he'
      | _ => cases h'
    | _ => cases h

end Json

/-! ## Arguments as mappings -/

namespace Args

/-- `a == b` on two dictionaries. -/
def pyEq (a b : Args) : Bool := Json.pyEq (.obj a.entries) (.obj b.entries)

/-- `{k: args[k] for k in sorted(args)}`. -/
def sorted (a : Args) : Args :=
  ⟨a.entries.insertionSort fun x y => x.1 ≤ y.1,
    ((List.perm_insertionSort _ a.entries).map Prod.fst).nodup_iff.2 a.nodup⟩

/-- The dictionary has a JSON text. -/
def encodable (a : Args) : Bool := Json.encodableFields a.entries

theorem pyEq_iff {a b : Args} : a.pyEq b = true ↔ ∀ k, Json.OptEq (a.get? k) (b.get? k) :=
  Json.pyEq_obj

@[simp] theorem get?_sorted (a : Args) (k : String) : a.sorted.get? k = a.get? k := by
  have hperm : ∀ e, e ∈ a.sorted.entries ↔ e ∈ a.entries := fun e =>
    (List.perm_insertionSort _ a.entries).mem_iff
  cases h : a.get? k with
  | some v => exact Dict.mem_entries.1 ((hperm _).2 (Dict.mem_entries.2 h))
  | none =>
    cases hs : a.sorted.get? k with
    | none => rfl
    | some v =>
      have := Dict.mem_entries.1 ((hperm _).1 (Dict.mem_entries.2 hs))
      rw [h] at this
      cases this

theorem encodable_sorted {a : Args} (h : a.encodable = true) : a.sorted.encodable = true := by
  rw [encodable, Json.encodableFields_iff] at h ⊢
  exact fun e he => h e ((List.perm_insertionSort _ a.entries).mem_iff.1 he)

/-- The canonical form does not change what a dictionary equals. -/
theorem pyEq_sorted (a b : Args) : a.sorted.pyEq b.sorted = a.pyEq b := by
  rw [Bool.eq_iff_iff, pyEq_iff, pyEq_iff]
  simp

theorem pyEq_refl {a : Args} (h : a.encodable = true) : a.pyEq a = true :=
  Json.pyEq_refl (.obj a.entries) h

theorem pyEq_symm {a b : Args} (h : a.pyEq b = true) : b.pyEq a = true := Json.pyEq_symm _ h

theorem pyEq_trans {a b c : Args} (h : a.pyEq b = true) (h' : b.pyEq c = true) : a.pyEq c = true :=
  Json.pyEq_trans _ h h'

/-- Equal arguments compare alike. -/
theorem pyEq_congr {a b : Args} (h : a.pyEq b = true) (c : Args) : a.pyEq c = b.pyEq c := by
  rw [Bool.eq_iff_iff]
  exact ⟨pyEq_trans (pyEq_symm h), pyEq_trans h⟩

end Args

end AgentPlatform
