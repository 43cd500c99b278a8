/-
Texts, what stands in them, and replacing what a pattern matches.

A pattern is a function from the rest of a text to the length of its match
there. `sub` replaces its matches from left to right and resumes after each.
A scan that begins in the first part of a text may run into the second with
its last match: `leftover` says how far, and `sub_append` splits the result
there. `sub_free` says when a result holds no word of a language, whatever the
replacement and the text around it put together.
-/
import Mathlib.Data.List.TakeWhile
import Mathlib.Data.List.Forall2

namespace AgentPlatform

namespace Rewriting

variable {α : Type}

/-- A piece of a text without the separator stands before it or after it. -/
theorem append_sep_cases {pre piece post a b : List α} {x : α} (hne : piece ≠ []) (hx : x ∉ piece)
    (h : pre ++ piece ++ post = a ++ x :: b) :
    (∃ post', a = pre ++ piece ++ post' ∧ post = post' ++ x :: b) ∨
    ∃ pre', b = pre' ++ piece ++ post ∧ pre = a ++ x :: pre' := by
  rcases List.append_eq_append_iff.1 h with ⟨a', ha, hpost⟩ | ⟨rest, hpre, hrest⟩
  · exact .inl ⟨a', ha, hpost⟩
  · rcases List.append_eq_append_iff.1 hpre with ⟨a', ha, hp⟩ | ⟨c', hc, hp⟩
    · -- the piece holds the end of `a`, so the separator too
      cases rest with
      | nil =>
        refine .inl ⟨[], ?_, by simpa using hrest.symm⟩
        rw [ha, hp]
        simp
      | cons y rest =>
        obtain ⟨rfl, -⟩ := List.cons_eq_cons.1 hrest
        exact (hx (hp ▸ by simp)).elim
    · cases c' with
      | nil =>
        rw [List.nil_append] at hp
        subst hp
        obtain ⟨y, ys, rfl⟩ := List.exists_cons_of_ne_nil hne
        obtain ⟨rfl, -⟩ := List.cons_eq_cons.1 hrest
        exact (hx (List.mem_cons_self ..)).elim
      | cons y c' =>
        rw [hp] at hrest
        obtain ⟨rfl, rfl⟩ := List.cons_eq_cons.1 hrest
        exact .inr ⟨c', rfl, hc⟩

/-- A piece without the separator, and one up to a separator. -/
theorem length_le_of_not_mem {x : α} {u v p q : List α} (hu : x ∉ u) (h : u ++ x :: v = p ++ x :: q) :
    u.length ≤ p.length := by
  rcases List.append_eq_append_iff.1 h with ⟨w, hw, -⟩ | ⟨w, hw, hrest⟩
  · rw [hw, List.length_append]
    exact Nat.le_add_right _ _
  · cases w with
    | nil => rw [hw, List.append_nil]
    | cons y w =>
      obtain ⟨rfl, -⟩ := List.cons_eq_cons.1 hrest
      exact absurd (hw ▸ by simp) hu

/-- The second separator of a text, and a later one. -/
theorem length_le_of_not_mem_twice {x : α} {u v w p q r : List α} (hu : x ∉ u) (hv : x ∉ v)
    (h : u ++ x :: (v ++ x :: w) = p ++ x :: (q ++ x :: r)) : u.length + v.length ≤ p.length + q.length := by
  have hfirst : u.length ≤ p.length := length_le_of_not_mem hu h
  rcases List.append_eq_append_iff.1 h with ⟨t, ht, hrest⟩ | ⟨t, ht, hrest⟩
  · cases t with
    | nil =>
      have htail := (List.cons_eq_cons.1 hrest).2
      have := length_le_of_not_mem hv htail
      omega
    | cons y t =>
      obtain ⟨rfl, htail⟩ := List.cons_eq_cons.1 hrest
      have hle := length_le_of_not_mem hv htail
      have hlen := congrArg List.length ht
      rw [List.length_append, List.length_cons] at hlen
      omega
  · have hlen := congrArg List.length ht
    rw [List.length_append] at hlen
    obtain rfl : t = [] := List.eq_nil_of_length_eq_zero (by omega)
    have htail := (List.cons_eq_cons.1 hrest).2
    have := length_le_of_not_mem hv htail.symm
    omega

/-- Parts of a text correspond to parts of one like it. -/
theorem forall₂_append_left {β : Type} {R : α → β → Prop} : ∀ {u v : List α} {w : List β},
    List.Forall₂ R (u ++ v) w → ∃ u' v', w = u' ++ v' ∧ List.Forall₂ R u u' ∧ List.Forall₂ R v v'
  | [], _, w, h => ⟨[], w, rfl, .nil, h⟩
  | _ :: _, _, _, h => by
    cases h with
    | cons ha h =>
      obtain ⟨u', v', rfl, hu, hv⟩ := forall₂_append_left h
      exact ⟨_ :: u', v', rfl, .cons ha hu, hv⟩

/-- A property of the characters that likeness keeps. -/
theorem forall_of_forall₂ {β : Type} {R : α → β → Prop} {P : α → Prop} {Q : β → Prop}
    (hR : ∀ x y, R x y → P x → Q y) : ∀ {u : List α} {w : List β},
    List.Forall₂ R u w → (∀ x ∈ u, P x) → ∀ y ∈ w, Q y
  | _, _, .nil, _, y, hy => by cases hy
  | _, _, .cons hxy h, hP, y, hy => by
    rcases List.mem_cons.1 hy with rfl | hy
    · exact hR _ _ hxy (hP _ (List.mem_cons_self ..))
    · exact forall_of_forall₂ hR h (fun x hx => hP x (List.mem_cons_of_mem _ hx)) y hy

/-! ## Replacing the matches of a pattern -/

/-- What a pattern matches at the head of a text: the length of the match. -/
abbrev Pattern (α : Type) := List α → Option Nat

/-- The text with every match replaced by `r`. The first `k` characters belong
to a match already replaced. -/
def sub (m : Pattern α) (r : List α) : Nat → List α → List α
  | _, [] => []
  | k + 1, _ :: t => sub m r k t
  | 0, c :: t =>
    match m (c :: t) with
    | some n => r ++ sub m r (n - 1) t
    | none => c :: sub m r 0 t

/-- How far into `rest` a match of the scan runs that began in `a`. -/
def leftover (m : Pattern α) : Nat → List α → List α → Nat
  | k, [], _ => k
  | k + 1, _ :: a, rest => leftover m k a rest
  | 0, c :: a, rest =>
    match m (c :: a ++ rest) with
    | some n => leftover m (n - 1) a rest
    | none => leftover m 0 a rest

/-- What the scan makes of `a` before `rest`. -/
def scanned (m : Pattern α) (r : List α) : Nat → List α → List α → List α
  | _, [], _ => []
  | k + 1, _ :: a, rest => scanned m r k a rest
  | 0, c :: a, rest =>
    match m (c :: a ++ rest) with
    | some n => r ++ scanned m r (n - 1) a rest
    | none => c :: scanned m r 0 a rest

variable {m : Pattern α} {r : List α}

@[simp] theorem sub_nil (k : Nat) : sub m r k [] = [] := by
  cases k <;> rfl

theorem sub_match {c : α} {t : List α} {n : Nat} (h : m (c :: t) = some n) :
    sub m r 0 (c :: t) = r ++ sub m r (n - 1) t := by
  rw [sub, h]

theorem sub_none {c : α} {t : List α} (h : m (c :: t) = none) : sub m r 0 (c :: t) = c :: sub m r 0 t := by
  rw [sub, h]

theorem sub_drop : ∀ (k : Nat) (t : List α), sub m r k t = sub m r 0 (t.drop k)
  | 0, _ => rfl
  | _ + 1, [] => rfl
  | k + 1, _ :: t => sub_drop k t

/-- Splitting the scan. -/
theorem sub_append : ∀ (a rest : List α) (k : Nat),
    sub m r k (a ++ rest) = scanned m r k a rest ++ sub m r (leftover m k a rest) rest
  | [], _, _ => rfl
  | _ :: a, rest, k + 1 => sub_append a rest k
  | c :: a, rest, 0 => by
    rw [leftover, scanned]
    cases h : m (c :: a ++ rest) with
    | some n => rw [List.cons_append] at h ⊢; rw [sub_match h, sub_append a rest (n - 1), List.append_assoc]
    | none => rw [List.cons_append] at h ⊢; rw [sub_none h, sub_append a rest 0, List.cons_append]

/-- What the scan leaves of a part is of that part, or of the replacement. -/
theorem mem_scanned {x : α} : ∀ {a rest : List α} {k : Nat}, x ∈ scanned m r k a rest → x ∈ a ∨ x ∈ r
  | [], _, _, h => by cases h
  | _ :: a, rest, k + 1, h => (mem_scanned (a := a) h).imp_left (List.mem_cons_of_mem _)
  | c :: a, rest, 0, h => by
    rw [scanned] at h
    split at h
    · rcases List.mem_append.1 h with h | h
      · exact .inr h
      · exact (mem_scanned h).imp_left (List.mem_cons_of_mem _)
    · rcases List.mem_cons.1 h with rfl | h
      · exact .inl (List.mem_cons_self ..)
      · exact (mem_scanned h).imp_left (List.mem_cons_of_mem _)

/-- A text no suffix of which matches is left as it is. -/
theorem sub_eq_self : ∀ {t : List α}, (∀ s, s <:+ t → s ≠ [] → m s = none) → sub m r 0 t = t
  | [], _ => rfl
  | c :: t, h => by
    rw [sub_none (h _ List.suffix_rfl (by simp)), sub_eq_self fun s hs => h s (hs.trans (List.suffix_cons c t))]

/-- Replacing commutes with a projection that the pattern reads through. -/
theorem map_sub {β : Type} (f : β → α) (r : List β) : ∀ (k : Nat) (t : List β),
    (sub (fun t => m (t.map f)) r k t).map f = sub m (r.map f) k (t.map f)
  | _, [] => by simp
  | k + 1, _ :: t => map_sub f r k t
  | 0, c :: t => by
    rw [List.map_cons]
    cases h : m (f c :: t.map f) with
    | some n => rw [sub_match h, sub_match (by exact h), List.map_append, map_sub f r (n - 1) t]
    | none => rw [sub_none h, sub_none (by exact h), List.map_cons, map_sub f r 0 t]

/-! ## Patterns that stop by themselves -/

/-- A match is not empty, lies within the text, is found when the text is cut
after it, and is found at the latest when the text goes on. -/
structure Steady (m : Pattern α) : Prop where
  pos : ∀ {t n}, m t = some n → 0 < n
  le_length : ∀ {t n}, m t = some n → n ≤ t.length
  cut : ∀ {t u n}, m (t ++ u) = some n → n ≤ t.length → m t = some n
  none_of_append : ∀ {t u}, m (t ++ u) = none → m t = none

theorem le_leftover : ∀ (k : Nat) (a rest : List α), k ≤ leftover m k a rest + a.length
  | _, [], _ => Nat.le_refl _
  | k + 1, _ :: a, rest => Nat.succ_le_succ (le_leftover k a rest)
  | 0, _ :: _, _ => Nat.zero_le _

/-- A scan does not look further than it runs. -/
theorem scan_cut (hm : Steady m) : ∀ {k : Nat} {a rest u : List α}, leftover m k a (rest ++ u) ≤ rest.length →
    leftover m k a rest = leftover m k a (rest ++ u) ∧ scanned m r k a rest = scanned m r k a (rest ++ u)
  | _, [], _, _, _ => ⟨rfl, rfl⟩
  | k + 1, _ :: a, _, _, h => scan_cut hm (a := a) h
  | 0, c :: a, rest, u, h => by
    rw [leftover] at h
    rw [leftover, leftover, scanned, scanned]
    rw [← List.append_assoc] at h ⊢
    cases hn : m (c :: a ++ rest ++ u) with
    | none =>
      rw [hn] at h
      rw [hm.none_of_append hn]
      obtain ⟨hl, hs⟩ := scan_cut hm h
      exact ⟨hl, congrArg (c :: ·) hs⟩
    | some n =>
      rw [hn] at h
      have hle : n ≤ (c :: a ++ rest).length := by
        have := le_leftover (m := m) (n - 1) a (rest ++ u)
        simp only [List.length_append, List.length_cons] at this ⊢
        dsimp only at h
        omega
      rw [hm.cut hn hle]
      obtain ⟨hl, hs⟩ := scan_cut hm h
      exact ⟨hl, congrArg (r ++ ·) hs⟩

theorem scanned_nil_right : ∀ (k : Nat) (a : List α), scanned m r k a [] = sub m r k a
  | _, [] => by simp [scanned]
  | k + 1, _ :: a => scanned_nil_right k a
  | 0, c :: a => by
    rw [scanned, List.append_nil]
    cases hn : m (c :: a) with
    | none => rw [sub_none hn]; exact congrArg (c :: ·) (scanned_nil_right 0 a)
    | some n => rw [sub_match hn]; exact congrArg (r ++ ·) (scanned_nil_right (n - 1) a)

/-- A scan that runs into nothing is the scan of the first part alone. -/
theorem scanned_eq (hm : Steady m) {k : Nat} {a rest : List α} (h : leftover m k a rest = 0) :
    scanned m r k a rest = sub m r k a := by
  have hcut : leftover m k a ([] ++ rest) ≤ ([] : List α).length := Nat.le_of_eq h
  rw [← scanned_nil_right, (scan_cut hm hcut).2, List.nil_append]

theorem leftover_append : ∀ (k : Nat) (a b rest : List α),
    leftover m k (a ++ b) rest = leftover m (leftover m k a (b ++ rest)) b rest
  | _, [], _, _ => rfl
  | k + 1, _ :: a, b, rest => leftover_append k a b rest
  | 0, c :: a, b, rest => by
    rw [List.cons_append, leftover, leftover, ← List.cons_append, List.append_assoc]
    cases m (c :: a ++ (b ++ rest)) with
    | none => exact leftover_append 0 a b rest
    | some n => exact leftover_append (n - 1) a b rest

theorem scanned_eq_nil : ∀ {k : Nat} {a rest : List α}, a.length < k → scanned m r k a rest = []
  | _, [], _, _ => by simp [scanned]
  | k + 1, _ :: a, rest, h => scanned_eq_nil (a := a) (Nat.lt_of_succ_lt_succ h)

/-- What a scan that runs into the rest leaves ends in the replacement. -/
theorem scanned_ends : ∀ {k : Nat} {a rest : List α}, leftover m k a rest ≠ 0 → k ≤ a.length →
    ∃ pre, scanned m r k a rest = pre ++ r
  | _, [], _, h, hk => absurd (Nat.le_zero.1 hk) h
  | k + 1, _ :: a, _, h, hk => scanned_ends (a := a) h (Nat.le_of_succ_le_succ hk)
  | 0, c :: a, rest, h, _ => by
    rw [leftover] at h
    rw [scanned]
    cases hn : m (c :: a ++ rest) with
    | none =>
      rw [hn] at h
      obtain ⟨pre, hpre⟩ := scanned_ends h (Nat.zero_le _)
      exact ⟨c :: pre, congrArg (c :: ·) hpre⟩
    | some n =>
      rw [hn] at h
      by_cases hlt : a.length < n - 1
      · exact ⟨[], by dsimp only; rw [scanned_eq_nil hlt, List.append_nil, List.nil_append]⟩
      · obtain ⟨pre, hpre⟩ := scanned_ends h (not_lt.1 hlt)
        exact ⟨r ++ pre, by dsimp only; rw [hpre, List.append_assoc]⟩

/-- Reading a text through a projection. -/
theorem Steady.comap {β : Type} (hm : Steady m) (f : β → α) : Steady fun t => m (t.map f) where
  pos := fun h => hm.pos h
  le_length := fun {t n} h => by simpa using hm.le_length h
  cut := fun {t u n} h hn => by
    rw [List.map_append] at h
    exact hm.cut h (by simpa using hn)
  none_of_append := fun {t u} h => by
    rw [List.map_append] at h
    exact hm.none_of_append h

theorem leftover_map {β : Type} (f : β → α) : ∀ (k : Nat) (a rest : List β),
    leftover (fun t => m (t.map f)) k a rest = leftover m k (a.map f) (rest.map f)
  | _, [], _ => by simp [leftover]
  | k + 1, _ :: a, rest => leftover_map f k a rest
  | 0, c :: a, rest => by
    rw [List.map_cons, leftover, leftover, ← List.map_cons, ← List.map_append]
    cases m ((c :: a ++ rest).map f) with
    | none => exact leftover_map f 0 a rest
    | some n => exact leftover_map f (n - 1) a rest

theorem leftover_eq_sub : ∀ {k : Nat} {a rest : List α}, a.length ≤ k → leftover m k a rest = k - a.length
  | _, [], _, _ => rfl
  | 0, _ :: _, _, h => absurd h (Nat.not_succ_le_zero _)
  | k + 1, _ :: a, rest, h => by
    rw [leftover, leftover_eq_sub (a := a) (Nat.le_of_succ_le_succ h), List.length_cons, Nat.add_sub_add_right]

/-- Where a match over the end of the first part always ends in one place, the
scan runs there or nowhere. -/
theorem leftover_cases {j : Nat} {rest : List α}
    (h : ∀ y n, y ≠ [] → m (y ++ rest) = some n → n ≤ y.length ∨ n = y.length + j) :
    ∀ {k : Nat} {a : List α}, k ≤ a.length → leftover m k a rest = 0 ∨ leftover m k a rest = j
  | _, [], hk => .inl (Nat.le_zero.1 hk)
  | k + 1, _ :: a, hk => leftover_cases h (a := a) (Nat.le_of_succ_le_succ hk)
  | 0, c :: a, _ => by
    rw [leftover]
    cases hn : m (c :: a ++ rest) with
    | none => exact leftover_cases h (Nat.zero_le _)
    | some n =>
      rcases h _ n (List.cons_ne_nil c a) hn with hle | rfl
      · exact leftover_cases h (Nat.sub_le_of_le_add hle)
      · dsimp only [List.length_cons]
        rw [leftover_eq_sub (by omega)]
        omega

/-- A pattern that stops only outside a class takes a rest of that class whole. -/
theorem runs_to_end {p : α → Bool} (hm : Steady m) (hstop : ∀ {t n}, m t = some n → ∀ c ∈ (t.drop n).head?, p c = false)
    {rest : List α} (hrest : ∀ c ∈ rest, p c = true) (y : List α) (n : Nat) (_ : y ≠ []) (hn : m (y ++ rest) = some n) :
    n ≤ y.length ∨ n = y.length + rest.length := by
  by_contra hnot
  rw [not_or, not_le] at hnot
  have hle := hm.le_length hn
  rw [List.length_append] at hle
  have hstopped := hstop hn
  rw [List.drop_append, List.drop_eq_nil_of_le hnot.1.le, List.nil_append] at hstopped
  cases hd : rest.drop (n - y.length) with
  | nil =>
    have := List.drop_eq_nil_iff.1 hd
    omega
  | cons c t =>
    rw [hd] at hstopped
    have hmem : c ∈ rest := (List.drop_suffix _ rest).subset (hd ▸ List.mem_cons_self ..)
    have hfalse := hstopped c rfl
    rw [hrest c hmem] at hfalse
    cases hfalse

/-! ## Separators -/

/-- No match goes over an `x`. -/
def Separates (m : Pattern α) (x : α) : Prop := ∀ t u n, m (t ++ x :: u) = some n → n ≤ t.length

theorem separates_of_alphabet {A : α → Prop} {x : α}
    (h : ∀ {t n}, m t = some n → ∃ w, w <+: t ∧ w.length = n ∧ ∀ c ∈ w, A c) (hx : ¬ A x) : Separates m x := by
  intro t u n hn
  obtain ⟨w, hpre, rfl, hw⟩ := h hn
  by_contra hlt
  rw [not_le] at hlt
  obtain ⟨v, hv⟩ := hpre
  have hget := congrArg (fun l => l[t.length]?) hv
  simp only [List.getElem?_append_left hlt, List.getElem?_append_right (Nat.le_refl _), Nat.sub_self,
    List.getElem?_cons_zero] at hget
  exact hx (hw x (List.mem_of_getElem? hget))

theorem Separates.comap {β : Type} {f : β → α} {y : β} (h : Separates m (f y)) : Separates (fun t => m (t.map f)) y :=
  fun t u n hn => by
    have hmap : m (t.map f ++ f y :: u.map f) = some n := by
      rw [← List.map_cons, ← List.map_append]
      exact hn
    simpa using h _ _ n hmap

theorem Separates.leftover {x : α} (h : Separates m x) : ∀ {k : Nat} {a u : List α}, k ≤ a.length →
    leftover m k a (x :: u) = 0
  | _, [], _, hk => Nat.le_zero.1 hk
  | k + 1, _ :: a, _, hk => h.leftover (a := a) (Nat.le_of_succ_le_succ hk)
  | 0, c :: a, u, _ => by
    rw [Rewriting.leftover]
    cases hn : m (c :: a ++ x :: u) with
    | none => exact h.leftover (Nat.zero_le _)
    | some n => exact h.leftover (Nat.sub_le_of_le_add (h _ _ n hn))

/-- The parts on the two sides of a separator are rewritten apart. -/
theorem Separates.sub_append (hm : Steady m) {x : α} (h : Separates m x) (a u : List α) :
    sub m r 0 (a ++ x :: u) = sub m r 0 a ++ x :: sub m r 0 u := by
  have hl : Rewriting.leftover m 0 a (x :: u) = 0 := h.leftover (Nat.zero_le _)
  have hnone : m (x :: u) = none := by
    cases hn : m (x :: u) with
    | none => rfl
    | some n => exact absurd (h [] u n hn) (Nat.not_le_of_lt (hm.pos hn))
  rw [Rewriting.sub_append, hl, scanned_eq hm hl, sub_none hnone]

/-! ## Results free of a language -/

/-- Why a replacement forms no word of `W` with the text around it. Up to its
first character outside the alphabet of `W` it is like the text it replaces, as
far as the rest of a word can tell, and no word begins inside it. -/
structure Insulates (m : Pattern α) (W : List α → Prop) (A : α → Prop) (R : α → α → Prop)
    (front : List α) (stop : α) (back : List α) : Prop where
  ne_nil : ∀ {w}, W w → w ≠ []
  alphabet : ∀ {w}, W w → ∀ y ∈ w, A y
  stops : ¬ A stop
  refl : ∀ y, R y y
  alike : ∀ {c w w'}, W (c :: w) → List.Forall₂ R w w' → W (c :: w')
  front_alike : ∀ {t n}, m t = some n → List.Forall₂ R front (t.take front.length)
  marker : ∀ {s u w}, s <:+ front ++ stop :: back → s ≠ [] → W w → ¬ w <+: s ++ u

variable {W : List α → Prop} {A : α → Prop} {R : α → α → Prop} {front back : List α} {stop : α}

/-- What begins a result and stays in the alphabet is like what begins the text. -/
theorem Insulates.sub_prefix (h : Insulates m W A R front stop back) : ∀ {s w : List α} {k : Nat},
    w <+: sub m (front ++ stop :: back) k s → (∀ y ∈ w, A y) → ∃ w', w' <+: s.drop k ∧ List.Forall₂ R w w'
  | [], w, k, hw, _ => by
    rw [sub_nil, List.prefix_nil] at hw
    subst hw
    exact ⟨[], List.nil_prefix, .nil⟩
  | _ :: s, w, k + 1, hw, hA => h.sub_prefix (s := s) hw hA
  | c :: s, w, 0, hw, hA => by
    cases hm : m (c :: s) with
    | some n =>
      rw [sub_match hm, List.append_assoc] at hw
      -- the word ends before the first character outside the alphabet
      have hlen : w.length ≤ front.length := by
        by_contra hlt
        rw [not_le] at hlt
        obtain ⟨rest, hrest⟩ := hw
        refine h.stops (hA stop ?_)
        have hget := congrArg (fun l => l[front.length]?) hrest
        simp only [List.getElem?_append_left hlt, List.getElem?_append_right (Nat.le_refl _), Nat.sub_self,
          List.cons_append, List.getElem?_cons_zero] at hget
        exact List.mem_of_getElem? hget
      have hfront : w <+: front := List.prefix_of_prefix_length_le hw (List.prefix_append ..) hlen
      have hlike := List.forall₂_take w.length (h.front_alike hm)
      rw [← List.prefix_iff_eq_take.1 hfront] at hlike
      exact ⟨_, (List.take_prefix ..).trans (List.take_prefix ..), hlike⟩
    | none =>
      rw [sub_none hm] at hw
      cases w with
      | nil => exact ⟨[], List.nil_prefix, .nil⟩
      | cons y w =>
        obtain ⟨rfl, hw'⟩ := List.cons_prefix_cons.1 hw
        obtain ⟨w', hw', hlike⟩ := h.sub_prefix hw' fun z hz => hA z (List.mem_cons_of_mem _ hz)
        exact ⟨y :: w', List.cons_prefix_cons.2 ⟨rfl, hw'⟩, .cons (h.refl y) hlike⟩

/-- Where no word stands in the text outside the matches, none begins anywhere
in the result. -/
theorem Insulates.sub_suffix (h : Insulates m W A R front stop back) : ∀ {s : List α} {k : Nat},
    (∀ t, t <:+ s → m t = none → ∀ w, W w → ¬ w <+: t) →
    ∀ t, t <:+ sub m (front ++ stop :: back) k s → ∀ w, W w → ¬ w <+: t
  | [], k, _, t, ht, w, hw, hpre => by
    rw [sub_nil, List.suffix_nil] at ht
    exact h.ne_nil hw (List.prefix_nil.1 (ht ▸ hpre))
  | c :: s, k + 1, hkept, t, ht, w, hw, hpre =>
    h.sub_suffix (s := s) (fun u hu => hkept u (hu.trans (List.suffix_cons c s))) t ht w hw hpre
  | c :: s, 0, hkept, t, ht, w, hw, hpre => by
    have hrest : ∀ u, u <:+ s → m u = none → ∀ w, W w → ¬ w <+: u := fun u hu =>
      hkept u (hu.trans (List.suffix_cons c s))
    cases hm : m (c :: s) with
    | some n =>
      rw [sub_match hm] at ht
      obtain ⟨pre, hpre'⟩ := ht
      rcases List.append_eq_append_iff.1 hpre' with ⟨u, hmarker, rfl⟩ | ⟨u, -, hu⟩
      · by_cases hne : u = []
        · subst hne
          exact h.sub_suffix hrest _ List.suffix_rfl w hw hpre
        · exact h.marker ⟨pre, hmarker.symm⟩ hne hw hpre
      · exact h.sub_suffix hrest t ⟨u, hu.symm⟩ w hw hpre
    | none =>
      rw [sub_none hm, List.suffix_cons_iff] at ht
      rcases ht with rfl | ht
      · obtain ⟨y, w, rfl⟩ := List.exists_cons_of_ne_nil (h.ne_nil hw)
        obtain ⟨rfl, hw'⟩ := List.cons_prefix_cons.1 hpre
        obtain ⟨w', hpre', hlike⟩ := h.sub_prefix hw' fun z hz => h.alphabet hw z (List.mem_cons_of_mem _ hz)
        exact hkept _ List.suffix_rfl hm _ (h.alike hw hlike) (List.cons_prefix_cons.2 ⟨rfl, hpre'⟩)
      · exact h.sub_suffix hrest t ht w hw hpre

theorem Insulates.sub_free (h : Insulates m W A R front stop back) {s : List α}
    (hkept : ∀ t, t <:+ s → m t = none → ∀ w, W w → ¬ w <+: t) {w : List α} (hw : W w) :
    ¬ w <:+: sub m (front ++ stop :: back) 0 s := by
  rw [List.infix_iff_prefix_suffix]
  rintro ⟨t, hpre, hsuf⟩
  exact h.sub_suffix hkept t hsuf w hw hpre

end Rewriting

end AgentPlatform
