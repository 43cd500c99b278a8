/-
Patterns made of pieces: literals, and runs of a class of characters, each as
long as it can be.

A piece is a function from a text to what is left after the piece. A run is
taken whole, so it never gives characters back: what follows a run in a pattern
must begin outside the run's class, as every pattern made here does.
-/
import AgentPlatform.Rewriting

namespace AgentPlatform

namespace Rewriting

variable {α : Type}

/-- What is left of a text after a piece at its head. -/
abbrev Piece (α : Type) := List α → Option (List α)

/-- One character after the other, each of its class. -/
def literal : List (α → Bool) → Piece α
  | [], t => some t
  | p :: ps, c :: t => if p c then literal ps t else none
  | _ :: _, [] => none

/-- One character after the other, as they are. -/
def word [BEq α] (w : List α) : Piece α := literal (w.map fun l c => c == l)

/-- `[p]{n,}`: `n` characters of a class or more. -/
def run (p : α → Bool) (n : Nat) : Piece α := fun t =>
  if n ≤ (t.takeWhile p).length then some (t.dropWhile p) else none

/-- One piece after the other. -/
def andThen (f g : Piece α) : Piece α := fun t => (f t).bind g

/-- The pattern of a piece: how much it takes. -/
def Piece.pattern (f : Piece α) : Pattern α := fun t => (f t).map fun rest => t.length - rest.length

/-! ## What a piece takes -/

theorem literal_eq_some : ∀ {ps : List (α → Bool)} {t rest : List α},
    literal ps t = some rest ↔ ∃ w, t = w ++ rest ∧ List.Forall₂ (fun p c => p c = true) ps w
  | [], t, rest => by simp [literal]
  | p :: ps, [], rest => by
    refine iff_of_false (by simp [literal]) ?_
    rintro ⟨w, ht, h⟩
    cases h with
    | cons => cases ht
  | p :: ps, c :: t, rest => by
    rw [literal]
    constructor
    · intro h
      split at h
      · rename_i hp
        obtain ⟨w, rfl, hw⟩ := literal_eq_some.1 h
        exact ⟨c :: w, rfl, .cons hp hw⟩
      · cases h
    · rintro ⟨w, ht, h⟩
      cases h with
      | cons hp hw =>
        obtain ⟨rfl, rfl⟩ := List.cons_eq_cons.1 ht
        rw [if_pos hp]
        exact literal_eq_some.2 ⟨_, rfl, hw⟩

theorem forall₂_beq [BEq α] [LawfulBEq α] : ∀ {ls w : List α},
    List.Forall₂ (fun p c => p c = true) (ls.map fun l c => c == l) w ↔ w = ls
  | [], w => by simp
  | l :: ls, [] => by simp
  | l :: ls, c :: w => by
    rw [List.map_cons, List.forall₂_cons, forall₂_beq, beq_iff_eq, List.cons.injEq]

theorem word_eq_some [BEq α] [LawfulBEq α] {w t rest : List α} : word w t = some rest ↔ t = w ++ rest := by
  rw [word, literal_eq_some]
  constructor
  · rintro ⟨u, rfl, hu⟩
    rw [forall₂_beq.1 hu]
  · rintro rfl
    exact ⟨_, rfl, forall₂_beq.2 rfl⟩

theorem takeWhile_exact {p : α → Bool} {w rest : List α} (hw : ∀ c ∈ w, p c = true)
    (hrest : ∀ c ∈ rest.head?, p c = false) : (w ++ rest).takeWhile p = w ∧ (w ++ rest).dropWhile p = rest := by
  rw [List.takeWhile_append_of_pos hw, List.dropWhile_append_of_pos hw]
  cases rest with
  | nil => simp
  | cons c rest => simp [hrest c rfl]

theorem head?_dropWhile (p : α → Bool) : ∀ (t : List α), ∀ c ∈ (t.dropWhile p).head?, p c = false
  | [], c, h => by cases h
  | a :: t, c, h => by
    by_cases ha : p a = true
    · rw [List.dropWhile_cons_of_pos ha] at h
      exact head?_dropWhile p t c h
    · rw [List.dropWhile_cons_of_neg ha] at h
      cases h
      simpa using ha

theorem run_eq_some {p : α → Bool} {n : Nat} {t rest : List α} :
    run p n t = some rest ↔
      ∃ w, t = w ++ rest ∧ (∀ c ∈ w, p c = true) ∧ n ≤ w.length ∧ ∀ c ∈ rest.head?, p c = false := by
  unfold run
  constructor
  · intro h
    split at h
    · cases h
      exact ⟨_, List.takeWhile_append_dropWhile.symm, fun c hc => List.mem_takeWhile_imp hc, ‹_›, head?_dropWhile p t⟩
    · cases h
  · rintro ⟨w, rfl, hw, hn, hrest⟩
    obtain ⟨htake, hdrop⟩ := takeWhile_exact hw hrest
    rw [htake, hdrop, if_pos hn]

theorem andThen_eq_some {f g : Piece α} {t rest : List α} :
    andThen f g t = some rest ↔ ∃ mid, f t = some mid ∧ g mid = some rest := Option.bind_eq_some_iff

/-! ## Pieces that stop by themselves -/

/-- A piece takes a part of the text that is not empty, takes the same when the
text is cut after it or goes on after it, and takes at least as much when the
text goes on where the piece stopped at its end. -/
structure Piece.Steady (f : Piece α) : Prop where
  suffix : ∀ {t rest}, f t = some rest → ∃ c w, t = c :: w ++ rest
  cut : ∀ {t u rest}, f (t ++ u) = some (rest ++ u) → f t = some rest
  longer : ∀ {t u rest}, f t = some rest → rest ≠ [] → f (t ++ u) = some (rest ++ u)
  ending : ∀ {t u}, f t = some [] → (f (t ++ u)).isSome = true

theorem Piece.Steady.nil {f : Piece α} (h : f.Steady) : f [] = none := by
  cases hf : f [] with
  | none => rfl
  | some rest =>
    obtain ⟨c, w, ht⟩ := h.suffix hf
    cases ht

theorem literal_steady {ps : List (α → Bool)} (hne : ps ≠ []) : (literal ps).Steady where
  suffix := fun h => by
    obtain ⟨w, rfl, hw⟩ := literal_eq_some.1 h
    cases hw with
    | nil => exact absurd rfl hne
    | cons => exact ⟨_, _, rfl⟩
  cut := fun {t u rest} h => by
    obtain ⟨w, ht, hw⟩ := literal_eq_some.1 h
    rw [← List.append_assoc] at ht
    exact literal_eq_some.2 ⟨w, List.append_cancel_right ht, hw⟩
  longer := fun h _ => by
    obtain ⟨w, rfl, hw⟩ := literal_eq_some.1 h
    exact literal_eq_some.2 ⟨w, List.append_assoc .., hw⟩
  ending := fun {t u} h => by
    obtain ⟨w, rfl, hw⟩ := literal_eq_some.1 h
    have hu : literal ps (w ++ [] ++ u) = some u := literal_eq_some.2 ⟨w, by rw [List.append_nil], hw⟩
    rw [hu]
    rfl

theorem run_steady {p : α → Bool} {n : Nat} (hn : 0 < n) : (run p n).Steady where
  suffix := fun h => by
    obtain ⟨w, rfl, -, hlen, -⟩ := run_eq_some.1 h
    obtain ⟨c, w, rfl⟩ := List.exists_cons_of_length_pos (Nat.lt_of_lt_of_le hn hlen)
    exact ⟨c, w, rfl⟩
  cut := fun {t u rest} h => by
    obtain ⟨w, ht, hw, hlen, hrest⟩ := run_eq_some.1 h
    rw [← List.append_assoc] at ht
    refine run_eq_some.2 ⟨w, List.append_cancel_right ht, hw, hlen, fun c hc => hrest c ?_⟩
    cases rest with
    | nil => cases hc
    | cons => exact hc
  longer := fun {t u rest} h hne => by
    obtain ⟨w, rfl, hw, hlen, hrest⟩ := run_eq_some.1 h
    refine run_eq_some.2 ⟨w, List.append_assoc .., hw, hlen, fun c hc => hrest c ?_⟩
    obtain ⟨d, rest, rfl⟩ := List.exists_cons_of_ne_nil hne
    exact hc
  ending := fun {t u} h => by
    obtain ⟨w, rfl, hw, hlen, -⟩ := run_eq_some.1 h
    rw [List.append_nil, run, List.takeWhile_append_of_pos hw, if_pos]
    · rfl
    · rw [List.length_append]
      exact Nat.le_add_right_of_le hlen

theorem andThen_steady {f g : Piece α} (hf : f.Steady) (hg : g.Steady) : (andThen f g).Steady where
  suffix := fun h => by
    obtain ⟨mid, hfm, hgm⟩ := andThen_eq_some.1 h
    obtain ⟨c, w, rfl⟩ := hf.suffix hfm
    obtain ⟨d, v, rfl⟩ := hg.suffix hgm
    exact ⟨c, w ++ d :: v, by simp⟩
  cut := fun {t u rest} h => by
    obtain ⟨mid, hfm, hgm⟩ := andThen_eq_some.1 h
    obtain ⟨d, v, rfl⟩ := hg.suffix hgm
    rw [← List.append_assoc] at hfm hgm
    exact andThen_eq_some.2 ⟨_, hf.cut hfm, hg.cut hgm⟩
  longer := fun {t u rest} h hne => by
    obtain ⟨mid, hfm, hgm⟩ := andThen_eq_some.1 h
    have hmid : mid ≠ [] := by rintro rfl; rw [hg.nil] at hgm; cases hgm
    exact andThen_eq_some.2 ⟨_, hf.longer hfm hmid, hg.longer hgm hne⟩
  ending := fun {t u} h => by
    obtain ⟨mid, hfm, hgm⟩ := andThen_eq_some.1 h
    have hmid : mid ≠ [] := by rintro rfl; rw [hg.nil] at hgm; cases hgm
    obtain ⟨rest, hrest⟩ := Option.isSome_iff_exists.1 (hg.ending (u := u) hgm)
    rw [andThen_eq_some.2 ⟨_, hf.longer hfm hmid, hrest⟩]
    rfl

theorem pattern_eq_some {f : Piece α} (hf : f.Steady) {t : List α} {n : Nat} :
    f.pattern t = some n ↔ ∃ w rest, t = w ++ rest ∧ f t = some rest ∧ n = w.length := by
  unfold Piece.pattern
  rw [Option.map_eq_some_iff]
  constructor
  · rintro ⟨rest, h, rfl⟩
    obtain ⟨c, w, rfl⟩ := hf.suffix h
    refine ⟨c :: w, rest, rfl, h, ?_⟩
    rw [List.length_append, Nat.add_sub_cancel]
  · rintro ⟨w, rest, rfl, h, rfl⟩
    exact ⟨rest, h, by simp⟩

theorem pattern_eq_none {f : Piece α} {t : List α} : f.pattern t = none ↔ f t = none := Option.map_eq_none_iff

theorem Piece.Steady.pattern {f : Piece α} (hf : f.Steady) : Rewriting.Steady f.pattern where
  pos := fun h => by
    obtain ⟨w, rest, ht, hrest, rfl⟩ := (pattern_eq_some hf).1 h
    obtain ⟨c, v, hv⟩ := hf.suffix hrest
    rw [List.append_cancel_right (ht.symm.trans hv)]
    exact Nat.succ_pos _
  le_length := fun h => by
    obtain ⟨w, rest, rfl, -, rfl⟩ := (pattern_eq_some hf).1 h
    simp
  cut := fun {t u n} h hn => by
    obtain ⟨w, rest, ht, hrest, rfl⟩ := (pattern_eq_some hf).1 h
    rcases List.append_eq_append_iff.1 ht with ⟨v, rfl, hu⟩ | ⟨v, rfl, rfl⟩
    · -- the match ends where the text is cut
      have hv : v = [] := by
        rw [List.length_append] at hn
        exact List.eq_nil_of_length_eq_zero (by omega)
      subst hv
      rw [List.nil_append] at hu
      subst hu
      have hcut : f t = some [] := hf.cut hrest
      exact (pattern_eq_some hf).2 ⟨t, [], by simp, hcut, by simp⟩
    · exact (pattern_eq_some hf).2 ⟨w, v, rfl, hf.cut hrest, rfl⟩
  none_of_append := fun {t u} h => by
    rw [pattern_eq_none] at h ⊢
    cases ht : f t with
    | none => rfl
    | some rest =>
      by_cases hne : rest = []
      · subst hne
        have := hf.ending (u := u) ht
        rw [h] at this
        cases this
      · rw [hf.longer ht hne] at h
        cases h

/-- What a piece takes is replaced, and the scan goes on behind it. -/
theorem sub_piece {f : Piece α} {r w rest : List α} (hw : w ≠ []) (h : f (w ++ rest) = some rest) :
    sub f.pattern r 0 (w ++ rest) = r ++ sub f.pattern r 0 rest := by
  obtain ⟨c, w, rfl⟩ := List.exists_cons_of_ne_nil hw
  have hn : f.pattern (c :: (w ++ rest)) = some (w.length + 1) := by
    rw [Piece.pattern, ← List.cons_append, h, Option.map_some, List.length_append, Nat.add_sub_cancel]
    rfl
  rw [List.cons_append, sub_match hn, sub_drop, Nat.add_sub_cancel, List.drop_left]

end Rewriting

end AgentPlatform
