/-
IEEE binary64 values and the operations on them that the modelled language
uses: nearest rounding of a quotient, addition and subtraction, comparison,
rounding to two decimals, and the shortest decimal that reads back.

A finite value is `± m * 2^p` in units of `2^-1074`, with the pair `(m, p)`
carrying its own well-formedness, so a value has one representation up to the
sign of zero. Values are compared as integers (`scaled`), never as rationals.

* `le_iff_rank`, `eq_iff_rank`, `lt_iff_rank`: the comparisons are those of one
  linear order, in which NaN has no place.
* `roundMag_le`: rounding never passes a representable magnitude.
* `roundCents_le`: so neither does rounding to cents, at a magnitude whose
  cents are whole.
* `roundCents_isFinite`, `add_isFinite`: what stays finite.
-/
import Mathlib.Tactic.Ring
import Mathlib.Algebra.Order.Ring.Nat

namespace AgentPlatform

/-- A significand and unit exponent some finite double has. -/
structure F64.Valid (m p : Nat) : Prop where
  lt : m < 2 ^ 53
  norm : 2 ^ 52 ≤ m ∨ p = 0
  le : p ≤ 2045

instance (m p : Nat) : Decidable (F64.Valid m p) :=
  decidable_of_iff (m < 2 ^ 53 ∧ (2 ^ 52 ≤ m ∨ p = 0) ∧ p ≤ 2045)
    ⟨fun h => ⟨h.1, h.2.1, h.2.2⟩, fun h => ⟨h.lt, h.norm, h.le⟩⟩

/-- A double. -/
inductive F64 where
  | nan
  | inf (neg : Bool)
  | fin (neg : Bool) (m p : Nat) (valid : F64.Valid m p)
  deriving DecidableEq

namespace F64

/-- One, in units of `2^-1074`. Kept folded: no proof computes it. -/
@[irreducible] def unit : Nat := 2 ^ 1074

theorem unit_pos : 0 < unit := by
  unfold unit
  generalize 1074 = u
  exact Nat.two_pow_pos u

/-- `a / d` to the nearest integer, ties to even. -/
def rne (a d : Nat) : Nat :=
  let q := a / d
  let r := a % d
  if 2 * r < d then q else if d < 2 * r then q + 1 else if q % 2 = 0 then q else q + 1

/-- The significand and unit exponent nearest `a / d`. A significand that
rounds up to `2^53` moves to the next binade. -/
def roundMag (a d : Nat) : Nat × Nat :=
  let p := (a / d).log2 - 52
  let m := rne a (d * 2 ^ p)
  if m < 2 ^ 53 then (m, p) else (2 ^ 52, p + 1)

/-- The double `± m * 2^p`, infinite when the exponent is out of range. -/
def make (neg : Bool) (m p : Nat) : F64 := if h : Valid m p then .fin neg m p h else .inf neg

/-- The double nearest `± a / d`, in units of `2^-1074`. -/
def ofScaled (neg : Bool) (a d : Nat) : F64 := make neg (roundMag a d).1 (roundMag a d).2

/-- The double nearest `± a / d`. -/
def ofQuot (neg : Bool) (a d : Nat) : F64 := ofScaled neg (a * unit) d

/-- The double nearest an integer; infinite past the largest one. -/
def ofInt (i : Int) : F64 := ofQuot (decide (i < 0)) i.natAbs 1

def zero : F64 := ofInt 0

/-- A finite value as an integer, in units of `2^-1074`. -/
def scaled : F64 → Option Int
  | .fin neg m p _ => some (if neg then -((m * 2 ^ p : Nat) : Int) else ((m * 2 ^ p : Nat) : Int))
  | _ => none

def isFinite : F64 → Bool
  | .fin .. => true
  | _ => false

/-- `x <= y`: false when either is NaN. -/
def le : F64 → F64 → Bool
  | .nan, _ | _, .nan => false
  | .inf true, _ | _, .inf false => true
  | .inf false, _ | _, .inf true => false
  | .fin n m p h, .fin n' m' p' h' =>
    match scaled (.fin n m p h), scaled (.fin n' m' p' h') with
    | some a, some b => decide (a ≤ b)
    | _, _ => false

/-- `x == y`: the zeros are equal, NaN is not equal to itself. -/
def eq (x y : F64) : Bool := le x y && le y x

def lt (x y : F64) : Bool := le x y && !le y x

/-- The double nearest an exact sum. An exact zero keeps the sign both
operands have. -/
def ofExact (zeroNeg : Bool) (a : Int) : F64 :=
  if a = 0 then make zeroNeg 0 0 else ofScaled (decide (a < 0)) a.natAbs 1

def neg : F64 → F64
  | .nan => .nan
  | .inf n => .inf (!n)
  | .fin n m p h => .fin (!n) m p h

def abs : F64 → F64
  | .nan => .nan
  | .inf _ => .inf false
  | .fin _ m p h => .fin false m p h

def add : F64 → F64 → F64
  | .nan, _ | _, .nan => .nan
  | .inf n, .inf n' => if n = n' then .inf n else .nan
  | .inf n, _ | _, .inf n => .inf n
  | .fin n m p h, .fin n' m' p' h' =>
    match scaled (.fin n m p h), scaled (.fin n' m' p' h') with
    | some a, some b => ofExact (n && n') (a + b)
    | _, _ => .nan

def sub (x y : F64) : F64 := add x (neg y)

/-- `round(x, 2)`: the exact value to the nearest hundredth, ties to even,
then to the nearest double. -/
def roundCents : F64 → F64
  | .fin n m p _ => ofQuot n (rne (m * 2 ^ p * 100) unit) 100
  | x => x

/-! ## Comparison -/

theorem le_iff {x y : F64} {a b : Int} (hx : x.scaled = some a) (hy : y.scaled = some b) :
    x.le y = true ↔ a ≤ b := by
  cases x <;> cases y <;> simp only [scaled, reduceCtorEq] at hx hy
  simp only [le, scaled, Option.some.injEq] at hx hy ⊢
  rw [hx, hy, decide_eq_true_eq]

theorem lt_iff {x y : F64} {a b : Int} (hx : x.scaled = some a) (hy : y.scaled = some b) :
    x.lt y = true ↔ a < b := by
  rw [lt, Bool.and_eq_true, le_iff hx hy, Bool.not_eq_true', ← Bool.not_eq_true, le_iff hy hx]
  omega

/-- A double equal to a finite one is finite, with the same value. -/
theorem scaled_of_eq {x y : F64} {a : Int} (h : x.eq y = true) (hx : x.scaled = some a) : y.scaled = some a := by
  rw [eq, Bool.and_eq_true] at h
  cases hy : y.scaled with
  | some b =>
    have h1 := (le_iff hx hy).1 h.1
    have h2 := (le_iff hy hx).1 h.2
    rw [Option.some.injEq]
    omega
  | none =>
    cases x <;> cases y <;> simp only [scaled, reduceCtorEq] at hx hy
    · simp [le] at h
    · rename_i n
      cases n <;> simp [le] at h

theorem eq_comm (x y : F64) : x.eq y = y.eq x := by rw [eq, eq, Bool.and_comm]

/-- Where a double stands in the order: its tier (negative infinity, the finite
values, infinity) and its value there. NaN stands nowhere. -/
def rank : F64 → Option (Int × Int)
  | .nan => none
  | .inf true => some (-1, 0)
  | .inf false => some (1, 0)
  | .fin neg m p h => (scaled (.fin neg m p h)).map fun a => (0, a)

def Below (a b : Int × Int) : Prop := a.1 < b.1 ∨ a.1 = b.1 ∧ a.2 < b.2

theorem Below.asymm {a b : Int × Int} (h : Below a b) : ¬ Below b a := by
  unfold Below at *
  omega

theorem scaled_iff_rank {x : F64} {a : Int} : x.scaled = some a ↔ x.rank = some (0, a) := by
  cases x with
  | nan => simp [scaled, rank]
  | inf n => cases n <;> simp [scaled, rank]
  | fin n m p h => simp [scaled, rank]

/-- The comparison is the order of the ranks. -/
theorem le_iff_rank {x y : F64} : x.le y = true ↔ ∃ a b, x.rank = some a ∧ y.rank = some b ∧ ¬ Below b a := by
  cases x with
  | nan => simp [le, rank]
  | inf n =>
    cases n <;> cases y with
    | nan => simp [le, rank]
    | inf n => cases n <;> simp [le, rank, Below]
    | fin n m p h => simp [le, rank, scaled, Below]
  | fin n m p h =>
    cases y with
    | nan => simp [le, rank]
    | inf n => cases n <;> simp [le, rank, scaled, Below]
    | fin n' m' p' h' => simp [le, rank, scaled, Below]

theorem eq_iff_rank {x y : F64} : x.eq y = true ↔ ∃ a, x.rank = some a ∧ y.rank = some a := by
  rw [eq, Bool.and_eq_true, le_iff_rank, le_iff_rank]
  constructor
  · rintro ⟨⟨a, b, ha, hb, hab⟩, b', a', hb', ha', hba⟩
    rw [ha, Option.some.injEq] at ha'
    rw [hb, Option.some.injEq] at hb'
    subst ha' hb'
    have hsame : a = b := by
      unfold Below at hab hba
      exact Prod.ext (by omega) (by omega)
    exact ⟨a, ha, hsame ▸ hb⟩
  · rintro ⟨a, ha, hb⟩
    have hself : ¬ Below a a := fun h => h.asymm h
    exact ⟨⟨a, a, ha, hb, hself⟩, a, a, hb, ha, hself⟩

theorem lt_iff_rank {x y : F64} : x.lt y = true ↔ ∃ a b, x.rank = some a ∧ y.rank = some b ∧ Below a b := by
  rw [lt, Bool.and_eq_true, Bool.not_eq_true', ← Bool.not_eq_true, le_iff_rank, le_iff_rank]
  constructor
  · rintro ⟨⟨a, b, ha, hb, -⟩, hnot⟩
    exact ⟨a, b, ha, hb, by_contra fun h => hnot ⟨b, a, hb, ha, h⟩⟩
  · rintro ⟨a, b, ha, hb, hab⟩
    refine ⟨⟨a, b, ha, hb, hab.asymm⟩, ?_⟩
    rintro ⟨b', a', hb', ha', hba⟩
    rw [ha, Option.some.injEq] at ha'
    rw [hb, Option.some.injEq] at hb'
    subst ha' hb'
    exact hba hab

/-! ## The nearest integer -/

theorem rne_cases (a d : Nat) : rne a d = a / d ∨ (rne a d = a / d + 1 ∧ 0 < a % d) := by
  unfold rne
  dsimp only
  split
  · exact .inl rfl
  · rename_i h1
    split
    · exact .inr ⟨rfl, by omega⟩
    · rename_i h2
      split
      · exact .inl rfl
      · by_cases hr : a % d = 0
        · rename_i hq
          -- a remainder of zero is a tie only at `d = 0`, where the quotient is zero
          have hd : d = 0 := by omega
          subst hd
          simp at hq
        · exact .inr ⟨rfl, Nat.pos_of_ne_zero hr⟩

theorem div_le_rne (a d : Nat) : a / d ≤ rne a d := by
  rcases rne_cases a d with h | ⟨h, _⟩ <;> omega

/-- Rounding to an integer never passes an integer. -/
theorem rne_le {a d k : Nat} (h : a ≤ k * d) : rne a d ≤ k := by
  rcases Nat.eq_zero_or_pos d with rfl | hd
  · have : a = 0 := by simpa using h
    subst this
    simp [rne]
  have hq : a / d ≤ k := Nat.div_le_of_le_mul (by rwa [Nat.mul_comm])
  rcases rne_cases a d with he | ⟨he, hr⟩
  · omega
  · rw [he]
    have hdm := Nat.div_add_mod a d
    by_contra hk
    have hqk : a / d = k := by omega
    rw [hqk, Nat.mul_comm] at hdm
    omega

theorem le_rne {a d k : Nat} (hd : 0 < d) (h : k * d ≤ a) : k ≤ rne a d :=
  ((Nat.le_div_iff_mul_le hd).2 h).trans (div_le_rne a d)

/-! ## Rounding to a double -/

/-- The exponent `roundMag` picks leaves a quotient below `2^53`. -/
theorem lt_of_exponent {a d : Nat} (hd : 0 < d) : a < 2 ^ 53 * (d * 2 ^ ((a / d).log2 - 52)) := by
  have h1 : a / d < 2 ^ ((a / d).log2 + 1) := Nat.lt_log2_self
  have h2 : 2 ^ ((a / d).log2 + 1) ≤ 2 ^ (53 + ((a / d).log2 - 52)) :=
    Nat.pow_le_pow_right (by decide) (by omega)
  have h3 : a / d < 2 ^ (53 + ((a / d).log2 - 52)) := Nat.lt_of_lt_of_le h1 h2
  rw [Nat.div_lt_iff_lt_mul hd, Nat.pow_add] at h3
  calc a < 2 ^ 53 * 2 ^ ((a / d).log2 - 52) * d := h3
    _ = 2 ^ 53 * (d * 2 ^ ((a / d).log2 - 52)) := by ring

/-- Above the smallest binade that quotient is at least `2^52`. -/
theorem le_of_exponent {a d : Nat} (hd : 0 < d) (hp : (a / d).log2 - 52 ≠ 0) :
    2 ^ 52 * (d * 2 ^ ((a / d).log2 - 52)) ≤ a := by
  have hq : a / d ≠ 0 := by
    intro h
    simp [h] at hp
  have h1 : 2 ^ (a / d).log2 ≤ a / d := Nat.log2_self_le hq
  have h2 : (a / d).log2 = 52 + ((a / d).log2 - 52) := by omega
  rw [h2, Nat.pow_add, Nat.le_div_iff_mul_le hd] at h1
  calc 2 ^ 52 * (d * 2 ^ ((a / d).log2 - 52)) = 2 ^ 52 * 2 ^ ((a / d).log2 - 52) * d := by ring
    _ ≤ a := h1

theorem roundMag_value (a d : Nat) (hd : 0 < d) :
    (roundMag a d).1 * 2 ^ (roundMag a d).2 =
      rne a (d * 2 ^ ((a / d).log2 - 52)) * 2 ^ ((a / d).log2 - 52) := by
  have hle : rne a (d * 2 ^ ((a / d).log2 - 52)) ≤ 2 ^ 53 := rne_le (lt_of_exponent hd).le
  unfold roundMag
  dsimp only
  split
  · rfl
  · rename_i h
    have : rne a (d * 2 ^ ((a / d).log2 - 52)) = 2 ^ 53 := by omega
    rw [this]
    ring

/-- **Rounding never passes a representable magnitude.** -/
theorem roundMag_le {a d m p : Nat} (hd : 0 < d) (hv : Valid m p) (h : a ≤ m * 2 ^ p * d) :
    (roundMag a d).1 * 2 ^ (roundMag a d).2 ≤ m * 2 ^ p := by
  rw [roundMag_value a d hd]
  generalize he : (a / d).log2 - 52 = e
  rcases Nat.lt_or_ge p e with hpe | hpe
  · -- the bound lies in a lower binade than the value it bounds
    have h0 : (a / d).log2 - 52 ≠ 0 := by omega
    have h1 := le_of_exponent hd h0
    rw [he] at h1
    have h2 : m * 2 ^ p * d < 2 ^ 52 * (d * 2 ^ e) := by
      have h3 : m * 2 ^ p < 2 ^ 53 * 2 ^ p := Nat.mul_lt_mul_of_pos_right hv.lt (Nat.two_pow_pos _)
      have h4 : 2 ^ 53 * 2 ^ p ≤ 2 ^ 52 * 2 ^ e := by
        rw [← Nat.pow_add, ← Nat.pow_add]
        exact Nat.pow_le_pow_right (by decide) (by omega)
      calc m * 2 ^ p * d < 2 ^ 52 * 2 ^ e * d :=
            Nat.mul_lt_mul_of_pos_right (Nat.lt_of_lt_of_le h3 h4) hd
        _ = 2 ^ 52 * (d * 2 ^ e) := by ring
    omega
  · -- the bound is a multiple of the unit
    obtain ⟨k, rfl⟩ := Nat.exists_eq_add_of_le hpe
    have h1 : rne a (d * 2 ^ e) ≤ m * 2 ^ k := by
      refine rne_le ?_
      calc a ≤ m * 2 ^ (e + k) * d := h
        _ = m * 2 ^ k * (d * 2 ^ e) := by rw [Nat.pow_add]; ring
    calc rne a (d * 2 ^ e) * 2 ^ e ≤ m * 2 ^ k * 2 ^ e := Nat.mul_le_mul_right _ h1
      _ = m * 2 ^ (e + k) := by rw [Nat.pow_add]; ring

theorem roundMag_norm (a d : Nat) (hd : 0 < d) : (roundMag a d).1 < 2 ^ 53 ∧
    (2 ^ 52 ≤ (roundMag a d).1 ∨ (roundMag a d).2 = 0) := by
  unfold roundMag
  dsimp only
  split
  · rename_i h
    refine ⟨h, ?_⟩
    by_cases hp : (a / d).log2 - 52 = 0
    · exact .inr hp
    · exact .inl (le_rne (Nat.mul_pos hd (Nat.two_pow_pos _)) (le_of_exponent hd hp))
  · exact ⟨by simp, .inl le_rfl⟩

/-- What rounds within a finite magnitude rounds to a finite double. -/
theorem roundMag_valid {a d m p : Nat} (hd : 0 < d) (hv : Valid m p) (h : a ≤ m * 2 ^ p * d) :
    Valid (roundMag a d).1 (roundMag a d).2 := by
  obtain ⟨hlt, hnorm⟩ := roundMag_norm a d hd
  refine ⟨hlt, hnorm, ?_⟩
  rcases hnorm with hm | hp
  · by_contra hbig
    -- a larger exponent would make the rounded value pass the bound
    have hexp : p + 1 ≤ (roundMag a d).2 := (Nat.succ_le_succ hv.le).trans (Nat.lt_of_not_le hbig)
    have hlow : 2 ^ 52 * 2 ^ (p + 1) ≤ (roundMag a d).1 * 2 ^ (roundMag a d).2 :=
      Nat.mul_le_mul hm (Nat.pow_le_pow_right (by decide) hexp)
    have hhigh : m * 2 ^ p < 2 ^ 52 * 2 ^ (p + 1) :=
      calc m * 2 ^ p < 2 ^ 53 * 2 ^ p := Nat.mul_lt_mul_of_pos_right hv.lt (Nat.two_pow_pos _)
        _ = 2 ^ 52 * 2 ^ (p + 1) := by ring
    exact absurd (hlow.trans (roundMag_le hd hv h)) (Nat.not_le.2 hhigh)
  · rw [hp]
    exact Nat.zero_le _

/-- **Rounding to cents never passes a whole number of cents** that is itself a
double. -/
theorem roundCents_le {x : F64} {m p c : Nat} (hv : Valid m p) (hc : m * 2 ^ p * 100 = c * unit)
    {s : Int} (hx : x.scaled = some s) (hpos : 0 < s) (hs : s ≤ (m * 2 ^ p : Nat)) :
    ∃ t : Int, x.roundCents.scaled = some t ∧ t ≤ (m * 2 ^ p : Nat) := by
  cases x with
  | nan => simp [scaled] at hx
  | inf n => simp [scaled] at hx
  | fin n a e hval =>
    simp only [scaled, Option.some.injEq] at hx
    cases n with
    | true =>
      simp only [if_true] at hx
      generalize a * 2 ^ e = v at hx
      omega
    | false =>
      simp only [Bool.false_eq_true, if_false] at hx
      have ha : a * 2 ^ e ≤ m * 2 ^ p := by
        rw [← hx] at hs
        exact Int.ofNat_le.1 hs
      have h1 : rne (a * 2 ^ e * 100) unit ≤ c := by
        refine rne_le ?_
        rw [← hc]
        exact Nat.mul_le_mul_right _ ha
      have h2 : rne (a * 2 ^ e * 100) unit * unit ≤ m * 2 ^ p * 100 := by
        rw [hc]
        exact Nat.mul_le_mul_right _ h1
      have hvalid := roundMag_valid (by decide) hv h2
      have hround : roundCents (.fin false a e hval) = .fin false _ _ hvalid := by
        simp only [roundCents, ofQuot, ofScaled, make, hvalid, dif_pos]
      exact ⟨_, by rw [hround]; rfl, Int.ofNat_le.2 (roundMag_le (by decide) hv h2)⟩

/-- Rounding to cents looks at the value only. -/
theorem roundCents_congr {x y : F64} {s : Int} (hx : x.scaled = some s) (hy : y.scaled = some s) (hpos : 0 < s) :
    x.roundCents = y.roundCents := by
  cases x <;> cases y <;> simp only [scaled, Option.some.injEq, reduceCtorEq] at hx hy
  rename_i n m p hv n' m' p' hv'
  cases n <;> cases n' <;> simp only [if_true, Bool.false_eq_true, if_false] at hx hy
  · have hm : m * 2 ^ p = m' * 2 ^ p' := Int.ofNat_inj.1 (hx.trans hy.symm)
    simp only [roundCents, hm]
  all_goals omega

/-! ## What stays finite -/

theorem ofScaled_isFinite {neg : Bool} {a d : Nat} (h : Valid (roundMag a d).1 (roundMag a d).2) :
    (ofScaled neg a d).isFinite = true := by
  simp only [ofScaled, make, h, dif_pos, isFinite]

theorem ofQuot_isFinite {neg : Bool} {a d : Nat} (h : Valid (roundMag (a * unit) d).1 (roundMag (a * unit) d).2) :
    (ofQuot neg a d).isFinite = true := by
  rw [ofQuot]
  exact ofScaled_isFinite h

/-- A unit is a power of two; its exponent is kept folded. -/
theorem unit_eq_two_pow : ∃ u < 2045, unit = 2 ^ u := by
  unfold unit
  generalize hu : 1074 = u
  exact ⟨u, by omega, rfl⟩

/-- Rounding to cents keeps a value finite. -/
theorem roundCents_isFinite {x : F64} (h : x.isFinite = true) : x.roundCents.isFinite = true := by
  cases x with
  | nan => cases h
  | inf n => cases h
  | fin n m p hv =>
    obtain ⟨u, hu, hunit⟩ := unit_eq_two_pow
    rcases Nat.lt_or_ge p u with hp | hp
    · -- below the units of the cents, one binade more is enough
      have hbound : Valid (2 ^ 52) (u + 1) := ⟨by decide, .inl le_rfl, hu⟩
      have hmag : m * 2 ^ p ≤ 2 ^ 53 * unit := by
        rw [hunit]
        exact Nat.mul_le_mul hv.lt.le (Nat.pow_le_pow_right (by decide) hp.le)
      have hcents : rne (m * 2 ^ p * 100) unit ≤ 2 ^ 53 * 100 := by
        refine rne_le ?_
        calc m * 2 ^ p * 100 ≤ 2 ^ 53 * unit * 100 := Nat.mul_le_mul_right _ hmag
          _ = 2 ^ 53 * 100 * unit := by ring
      rw [roundCents]
      refine ofQuot_isFinite (roundMag_valid (by decide) hbound ?_)
      calc rne (m * 2 ^ p * 100) unit * unit ≤ 2 ^ 53 * 100 * unit := Nat.mul_le_mul_right _ hcents
        _ = 2 ^ 52 * 2 ^ (u + 1) * 100 := by rw [hunit]; ring
    · -- above them, the value is a whole number of cents
      obtain ⟨k, rfl⟩ := Nat.exists_eq_add_of_le hp
      have hwhole : m * 2 ^ (u + k) * 100 = m * 2 ^ k * 100 * unit := by
        rw [hunit, Nat.pow_add]
        ring
      have hcents : rne (m * 2 ^ (u + k) * 100) unit ≤ m * 2 ^ k * 100 := rne_le hwhole.le
      rw [roundCents]
      refine ofQuot_isFinite (roundMag_valid (by decide) hv ?_)
      calc rne (m * 2 ^ (u + k) * 100) unit * unit ≤ m * 2 ^ k * 100 * unit := Nat.mul_le_mul_right _ hcents
        _ = m * 2 ^ (u + k) * 100 := hwhole.symm

/-- What is less than half a unit above the largest double rounds to it. -/
theorem roundMag_valid_of_lt {a e : Nat} (he : e + 1 = 2045) (h : a < (2 ^ 53 - 1) * 2 ^ (e + 1) + 2 ^ e) :
    Valid (roundMag a 1).1 (roundMag a 1).2 := by
  obtain ⟨hlt, hnorm⟩ := roundMag_norm a 1 Nat.one_pos
  refine ⟨hlt, hnorm, ?_⟩
  have hpos := Nat.two_pow_pos e
  have hhalf : 2 ^ (e + 1) = 2 * 2 ^ e := Nat.pow_succ'
  have hlog : a.log2 - 52 ≤ e + 1 := by
    rcases Nat.eq_zero_or_pos a with rfl | ha
    · simp
    · have hlt : a.log2 < 53 + (e + 1) := by
        rw [Nat.log2_lt ha.ne', Nat.pow_add]
        omega
      omega
  rw [← he]
  unfold roundMag
  dsimp only
  rw [Nat.div_one, Nat.one_mul]
  split
  · exact hlog
  · rename_i hbig
    refine Nat.lt_of_le_of_ne hlog fun heq => hbig ?_
    rw [heq]
    -- at the last exponent the significand does not round up to the next
    have hdiv := Nat.div_add_mod a (2 ^ (e + 1))
    have hq : a / 2 ^ (e + 1) ≤ 2 ^ 53 - 1 := by
      rw [← Nat.lt_add_one_iff, Nat.div_lt_iff_lt_mul (by omega)]
      omega
    rcases Nat.lt_or_eq_of_le hq with hq | hq
    · rcases rne_cases a (2 ^ (e + 1)) with hr | ⟨hr, -⟩ <;> omega
    · rw [hq] at hdiv
      have hrem : 2 * (a % 2 ^ (e + 1)) < 2 ^ (e + 1) := by omega
      have hdown : rne a (2 ^ (e + 1)) = a / 2 ^ (e + 1) := if_pos hrem
      omega

/-- A sum with a small value is finite. -/
theorem add_isFinite {x y : F64} {a b : Int} {e : Nat} (he : e + 1 = 2045) (hx : x.scaled = some a)
    (hsmall : a.natAbs < 2 ^ e) (hy : y.scaled = some b) : (x.add y).isFinite = true := by
  cases x with
  | nan => cases hx
  | inf n => cases hx
  | fin n m p hv =>
    cases y with
    | nan => cases hy
    | inf n => cases hy
    | fin n' m' p' hv' =>
      have hadd : add (.fin n m p hv) (.fin n' m' p' hv') = ofExact (n && n') (a + b) := by
        rw [add, hx, hy]
      have hb : b.natAbs ≤ (2 ^ 53 - 1) * 2 ^ (e + 1) := by
        have hmag : b.natAbs = m' * 2 ^ p' := by
          rw [← Option.some.inj hy]
          cases n'
          · exact Int.natAbs_natCast _
          · exact (Int.natAbs_neg _).trans (Int.natAbs_natCast _)
        have hp : p' ≤ e + 1 := he.symm ▸ hv'.le
        rw [hmag]
        exact Nat.mul_le_mul (Nat.le_sub_one_of_lt hv'.lt) (Nat.pow_le_pow_right (by decide) hp)
      rw [hadd, ofExact]
      split
      · rfl
      · refine ofScaled_isFinite (roundMag_valid_of_lt he ?_)
        exact Nat.lt_of_le_of_lt (Int.natAbs_add_le a b) (by omega)

/-- An integer that some double is equal to is within the range. -/
theorem ofInt_isFinite_of_scaled {x : F64} {i : Int} (h : x.scaled = some (i * unit)) : (ofInt i).isFinite = true := by
  cases x with
  | nan => cases h
  | inf _ => cases h
  | fin neg m p hv =>
    rw [ofInt]
    refine ofQuot_isFinite (roundMag_valid one_pos hv (le_of_eq ?_))
    rw [scaled, Option.some.injEq] at h
    have hmag : ((m * 2 ^ p : Nat) : Int).natAbs = (i * unit).natAbs := by
      rw [← h]
      split
      · rw [Int.natAbs_neg]
      · rfl
    rw [Int.natAbs_natCast, Int.natAbs_mul, Int.natAbs_natCast] at hmag
    rw [hmag, mul_one]

end F64

end AgentPlatform
