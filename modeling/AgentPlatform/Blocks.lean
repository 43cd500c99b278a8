/-
Texts with blocks: an opening marker, a body, a closing marker.

`rewrite` removes the first block whose body holds no opening, or leaves its
body in its place; `resolve` repeats it until there is none. It scans its own
output, so markers may come together out of what the blocks leave.

The markers are a parameter, and are assumed not to run into each other
(`Lawful`): then no block begins before a marker but where one is written, and
a body ends at the first closing marker of its kind.
-/
import Mathlib.Data.List.Infix
import AgentPlatform.Rewriting

namespace AgentPlatform

namespace Blocks

variable {α κ : Type}

/-! ## The first match -/

/-- The first place of a text where a test succeeds: what is before it, and
what the test gives there. -/
def firstMatch {β : Type} (p : List α → Option β) : List α → Option (List α × β)
  | [] => (p []).map fun b => ([], b)
  | c :: t =>
    match p (c :: t) with
    | some b => some ([], b)
    | none => (firstMatch p t).map fun m => (c :: m.1, m.2)

/-- A test succeeds nowhere in `s` before `t`. -/
def Dead {β : Type} (p : List α → Option β) (s t : List α) : Prop := ∀ u, u <:+ s → u ≠ [] → p (u ++ t) = none

section FirstMatch

variable {β : Type} {p : List α → Option β}

theorem dead_nil (t : List α) : Dead p [] t := fun _ hu hne => absurd (List.suffix_nil.1 hu) hne

theorem dead_cons {c : α} {s t : List α} : Dead p (c :: s) t ↔ p (c :: s ++ t) = none ∧ Dead p s t := by
  refine ⟨fun h => ⟨h _ List.suffix_rfl (List.cons_ne_nil _ _), fun u hu => h u (hu.trans (List.suffix_cons ..))⟩, ?_⟩
  rintro ⟨hhead, htail⟩ u hu hne
  rcases List.suffix_cons_iff.1 hu with rfl | hu
  · exact hhead
  · exact htail u hu hne

theorem dead_append : ∀ {s s' t : List α}, Dead p (s ++ s') t ↔ Dead p s (s' ++ t) ∧ Dead p s' t
  | [], _, _ => by simp [dead_nil]
  | c :: s, s', t => by
    rw [List.cons_append, dead_cons, dead_cons, dead_append, and_assoc, ← List.cons_append, List.append_assoc]

theorem firstMatch_append : ∀ {s t : List α}, Dead p s t →
    firstMatch p (s ++ t) = (firstMatch p t).map fun m => (s ++ m.1, m.2)
  | [], t, _ => by simp
  | c :: s, t, h => by
    obtain ⟨hhead, htail⟩ := dead_cons.1 h
    rw [List.cons_append] at hhead ⊢
    rw [firstMatch, hhead, firstMatch_append htail, Option.map_map]
    rfl

theorem firstMatch_head {t : List α} {b : β} (h : p t = some b) : firstMatch p t = some ([], b) := by
  cases t with
  | nil => rw [firstMatch, h, Option.map_some]
  | cons c t => rw [firstMatch, h]

theorem firstMatch_eq_none : ∀ {t : List α}, firstMatch p t = none ↔ Dead p t [] ∧ p [] = none
  | [] => by simp [firstMatch, dead_nil]
  | c :: t => by
    rw [firstMatch, dead_cons, List.append_nil, and_assoc, ← firstMatch_eq_none]
    cases p (c :: t) with
    | none => simp
    | some b => simp

theorem firstMatch_eq_some : ∀ {t a : List α} {b : β}, firstMatch p t = some (a, b) →
    ∃ u, t = a ++ u ∧ p u = some b ∧ Dead p a u
  | [], a, b, h => by
    obtain ⟨b', hb, he⟩ := Option.map_eq_some_iff.1 h
    obtain ⟨rfl, rfl⟩ := Prod.mk.inj he
    exact ⟨[], rfl, hb, dead_nil _⟩
  | c :: t, a, b, h => by
    rw [firstMatch] at h
    cases hp : p (c :: t) with
    | some b' =>
      rw [hp] at h
      obtain ⟨rfl, rfl⟩ := Prod.mk.inj (Option.some.inj h)
      exact ⟨c :: t, rfl, hp, dead_nil _⟩
    | none =>
      rw [hp] at h
      obtain ⟨⟨a', b'⟩, hm, he⟩ := Option.map_eq_some_iff.1 h
      obtain ⟨rfl, rfl⟩ := Prod.mk.inj he
      obtain ⟨u, rfl, hu, hdead⟩ := firstMatch_eq_some hm
      exact ⟨u, rfl, hu, dead_cons.2 ⟨hp, hdead⟩⟩

end FirstMatch

/-! ## The markers and the rewriting -/

/-- The markers of a block: an opening one at the head of a text, with its kind
and what follows it; the closing one of a kind; and what no body holds. -/
structure Markers (α κ : Type) where
  opening : List α → Option (κ × List α)
  closing : κ → List α
  opens : List α → Bool

section Rewrite

variable [DecidableEq α] (M : Markers α κ)

/-- The body of a block of a kind and what follows its closing marker: the
shortest body, and none if something opens first. -/
def Markers.body (k : κ) : List α → Option (List α × List α)
  | [] => none
  | c :: t =>
    if (M.closing k).isPrefixOf (c :: t) then some ([], (c :: t).drop (M.closing k).length)
    else if M.opens (c :: t) then none
    else (body k t).map fun b => (c :: b.1, b.2)

/-- A block at the head of a text: its kind, its body and what follows it. -/
def Markers.blockAt (t : List α) : Option (κ × List α × List α) :=
  (M.opening t).bind fun o => (M.body o.1 o.2).map fun b => (o.1, b)

/-- The first block of a text, kept or dropped. -/
def Markers.rewrite (keep : κ → Bool) (t : List α) : Option (List α) :=
  (firstMatch M.blockAt t).map fun m => m.1 ++ ((if keep m.2.1 then m.2.2.1 else []) ++ m.2.2.2)

/-- The rewriting repeated until no block is left, at most `n` times. -/
def Markers.resolve (keep : κ → Bool) : Nat → List α → Option (List α)
  | 0, _ => none
  | n + 1, t =>
    match M.rewrite keep t with
    | none => some t
    | some t' => resolve keep n t'

end Rewrite

/-! ## Markers that do not run into each other -/

def Markers.IsMarker (M : Markers α κ) (w : List α) : Prop := (∃ k, M.opening w = some (k, [])) ∨ ∃ k, w = M.closing k

/-- An opening marker is a word. Where a marker stands no other begins, ends or
goes through, nor does what no body holds, which every opening marker begins
with. -/
structure Markers.Lawful (M : Markers α κ) : Prop where
  opening_word : ∀ {t k r}, M.opening t = some (k, r) → ∃ w, t = w ++ r ∧ M.opening w = some (k, [])
  opening_append : ∀ {w k} (r), M.opening w = some (k, []) → M.opening (w ++ r) = some (k, r)
  closing_ne : ∀ k, M.closing k ≠ []
  opens_nil : M.opens [] = false
  opens_append : ∀ {t} (u), M.opens t = true → M.opens (t ++ u) = true
  opens_opening : ∀ {w k}, M.opening w = some (k, []) → M.opens w = true
  opens_closing : ∀ k t, M.opens (M.closing k ++ t) = false
  apart : ∀ {w u m t}, M.IsMarker m → M.IsMarker w → u ≠ [] → w <+: u ++ (m ++ t) → w <+: u
  alone : ∀ {w m t}, M.IsMarker m → M.IsMarker w → w <+: m ++ t → w = m
  opens_apart : ∀ {u m t}, M.IsMarker m → u ≠ [] → M.opens (u ++ (m ++ t)) = true → M.opens u = true

section Laws

variable {M : Markers α κ} (hM : M.Lawful)

include hM

theorem Markers.Lawful.opening_ne {w : List α} {k : κ} (h : M.opening w = some (k, [])) : w ≠ [] := by
  rintro rfl
  have hopens := hM.opens_opening h
  rw [hM.opens_nil] at hopens
  cases hopens

theorem Markers.Lawful.marker_ne {w : List α} (h : M.IsMarker w) : w ≠ [] := by
  rcases h with ⟨k, hk⟩ | ⟨k, rfl⟩
  · exact hM.opening_ne hk
  · exact hM.closing_ne k

/-- A closing marker does not begin where an opening one does. -/
theorem Markers.Lawful.closing_not_prefix {w t : List α} {k j : κ} (h : M.opening w = some (k, [])) :
    ¬ M.closing j <+: w ++ t := fun hpre => by
  have heq := hM.alone (.inl ⟨k, h⟩) (.inr ⟨j, rfl⟩) hpre
  have hopens := hM.opens_closing j []
  rw [List.append_nil, heq, hM.opens_opening h] at hopens
  cases hopens

/-- A text ends with one marker. -/
theorem Markers.Lawful.suffix_unique {w w' s : List α} (hw : M.IsMarker w) (hw' : M.IsMarker w') (h : w <:+ s)
    (h' : w' <:+ s) : w = w' := by
  have hle : ∀ {v v' : List α}, M.IsMarker v → M.IsMarker v' → v' <:+ v → v = v' := by
    rintro v v' hv hv' ⟨u, rfl⟩
    cases u with
    | nil => rfl
    | cons x u =>
      have hpre : x :: u ++ v' <+: x :: u ++ (v' ++ []) := ⟨[], by simp⟩
      have hlen := (hM.apart hv' hv (List.cons_ne_nil _ _) hpre).length_le
      have hpos : 0 < v'.length := List.length_pos_iff.2 (hM.marker_ne hv')
      rw [List.length_append] at hlen
      omega
  rcases List.suffix_or_suffix_of_suffix h h' with h | h
  · exact (hle hw' hw h).symm
  · exact hle hw hw' h

/-- No marker stands at the end of a text that goes on with the rest of another. -/
theorem Markers.Lawful.not_suffix_partial {m p q w s : List α} (hm : M.IsMarker m) (hmp : m = p ++ q) (hp : p ≠ [])
    (hq : q ≠ []) (hw : M.IsMarker w) : ¬ w <:+ s ++ p := by
  rintro ⟨a, ha⟩
  have hlen : 0 < p.length := List.length_pos_iff.2 hp
  have hqlen : 0 < q.length := List.length_pos_iff.2 hq
  rcases List.append_eq_append_iff.1 ha with ⟨u, hs, hwp⟩ | ⟨u, ha, hup⟩
  · -- it begins before the other
    rcases List.eq_nil_or_concat' u with rfl | ⟨u', x, hu⟩
    · rw [List.nil_append] at hwp
      have hpre : w <+: m ++ [] := ⟨q, by rw [hwp, hmp, List.append_nil]⟩
      have heq := congrArg List.length (hM.alone hm hw hpre)
      rw [hwp, hmp, List.length_append] at heq
      omega
    · have hune : u ≠ [] := by rw [hu]; simp
      have hpre : w <+: u ++ (m ++ []) := ⟨q, by rw [hwp, hmp, List.append_nil, List.append_assoc]⟩
      have hle := (hM.apart hm hw hune hpre).length_le
      rw [hwp, List.length_append] at hle
      omega
  · -- it stands within the other
    have hpre : m <+: u ++ (w ++ q) := ⟨[], by rw [List.append_nil, hmp, hup, List.append_assoc]⟩
    cases u with
    | nil =>
      have heq := congrArg List.length (hM.alone hw hm hpre)
      rw [List.nil_append] at hup
      rw [hmp, hup, List.length_append] at heq
      omega
    | cons x u =>
      have hle := (hM.apart hw hm (List.cons_ne_nil _ _) hpre).length_le
      rw [hmp, hup, List.length_append, List.length_append] at hle
      omega

end Laws

/-! ## Texts no block begins in -/

/-- No opening marker stands in the text. -/
def Markers.NoOpening (M : Markers α κ) (s : List α) : Prop := ∀ w, w <:+: s → ∀ k, M.opening w ≠ some (k, [])

/-- Something opens within the text. -/
def Markers.Opens (M : Markers α κ) (s : List α) : Prop := ∃ u, u <:+ s ∧ M.opens u = true

/-- No closing marker of the kind stands in the text, but behind what opens. -/
def Markers.Unclosed (M : Markers α κ) (k : κ) (s : List α) : Prop := ∀ a b, s = a ++ (M.closing k ++ b) → M.Opens a

theorem Markers.NoOpening.within {M : Markers α κ} {s t : List α} (h : M.NoOpening t) (hst : s <:+: t) :
    M.NoOpening s := fun w hw => h w (hw.trans hst)

theorem Markers.Unclosed.cut {M : Markers α κ} {k : κ} {s t : List α} (h : M.Unclosed k t) (hst : s <+: t) :
    M.Unclosed k s := by
  rintro a b rfl
  obtain ⟨u, rfl⟩ := hst
  exact h a (b ++ u) (by simp)

theorem Markers.opens_cons {M : Markers α κ} {c : α} {s : List α} :
    M.Opens (c :: s) ↔ M.opens (c :: s) = true ∨ M.Opens s := by
  constructor
  · rintro ⟨u, hu, hopens⟩
    rcases List.suffix_cons_iff.1 hu with rfl | hu
    · exact .inl hopens
    · exact .inr ⟨u, hu, hopens⟩
  · rintro (h | ⟨u, hu, hopens⟩)
    · exact ⟨_, List.suffix_rfl, h⟩
    · exact ⟨u, hu.trans (List.suffix_cons ..), hopens⟩

section Bodies

variable [DecidableEq α] {M : Markers α κ} (hM : M.Lawful)

include hM

omit [DecidableEq α] in
theorem Markers.Lawful.not_opens_nil : ¬ M.Opens [] := by
  rintro ⟨u, hu, hopens⟩
  rw [List.suffix_nil.1 hu, hM.opens_nil] at hopens
  cases hopens

/-- Nothing closes the block in a text where no closing marker stands, if
nothing does behind it. -/
theorem Markers.Lawful.body_eq_none {k : κ} {t : List α} (ht : M.body k t = none)
    (hapart : ∀ u, u ≠ [] → M.closing k <+: u ++ t → M.closing k <+: u) :
    ∀ {s : List α}, M.Unclosed k s → M.body k (s ++ t) = none
  | [], _ => ht
  | c :: s, h => by
    have hclosing : (M.closing k).isPrefixOf (c :: s ++ t) = false := by
      refine Bool.eq_false_iff.2 fun hpre => ?_
      obtain ⟨b, hb⟩ := hapart _ (List.cons_ne_nil c s) (List.isPrefixOf_iff_prefix.1 hpre)
      exact hM.not_opens_nil (h [] b hb.symm)
    rw [List.cons_append] at hclosing ⊢
    rw [Markers.body, hclosing, if_neg Bool.false_ne_true]
    split
    · rfl
    · rename_i hopens
      -- what opens before a closing marker of the rest opens in the rest
      have hrest : M.Unclosed k s := by
        rintro a b rfl
        refine (Markers.opens_cons.1 (h (c :: a) b rfl)).resolve_left fun hopens' => hopens ?_
        have := hM.opens_append (M.closing k ++ b ++ t) hopens'
        simpa using this
      rw [body_eq_none ht hapart hrest, Option.map_none]

/-- A block is not closed before another opens in it. -/
theorem Markers.Lawful.body_opening {k j : κ} {s w t : List α} (hs : M.Unclosed k s) (hw : M.opening w = some (j, [])) :
    M.body k (s ++ (w ++ t)) = none := by
  refine hM.body_eq_none ?_ (fun u hu hpre => hM.apart (.inl ⟨j, hw⟩) (.inr ⟨k, rfl⟩) hu hpre) hs
  obtain ⟨c, w, rfl⟩ := List.exists_cons_of_ne_nil (hM.opening_ne hw)
  have hclosing : (M.closing k).isPrefixOf (c :: (w ++ t)) = false :=
    Bool.eq_false_iff.2 fun hpre => hM.closing_not_prefix hw (List.isPrefixOf_iff_prefix.1 hpre)
  have hopens : M.opens (c :: (w ++ t)) = true := hM.opens_append t (hM.opens_opening hw)
  rw [List.cons_append, Markers.body, hclosing, if_neg Bool.false_ne_true, if_pos hopens]

theorem Markers.Lawful.body_end {k : κ} {s : List α} (hs : M.Unclosed k s) : M.body k s = none := by
  have := hM.body_eq_none (t := []) rfl (fun u _ hpre => by rwa [List.append_nil] at hpre) hs
  rwa [List.append_nil] at this

/-- A block is closed by the first closing marker. -/
theorem Markers.Lawful.body_closing {k : κ} {t : List α} : ∀ {s : List α}, M.Unclosed k s → ¬ M.Opens s →
    M.body k (s ++ (M.closing k ++ t)) = some (s, t)
  | [], _, _ => by
    obtain ⟨c, w, hw⟩ := List.exists_cons_of_ne_nil (hM.closing_ne k)
    have hpre : (M.closing k).isPrefixOf (c :: (w ++ t)) = true :=
      List.isPrefixOf_iff_prefix.2 ⟨t, by rw [hw, List.cons_append]⟩
    rw [List.nil_append, hw, List.cons_append, Markers.body, if_pos hpre, hw, ← List.cons_append, List.drop_left]
  | c :: s, h, hopen => by
    have hclosing : (M.closing k).isPrefixOf (c :: s ++ (M.closing k ++ t)) = false := by
      refine Bool.eq_false_iff.2 fun hpre => ?_
      obtain ⟨b, hb⟩ :=
        hM.apart (.inr ⟨k, rfl⟩) (.inr ⟨k, rfl⟩) (List.cons_ne_nil c s) (List.isPrefixOf_iff_prefix.1 hpre)
      exact hM.not_opens_nil (h [] b hb.symm)
    have hnot : M.opens (c :: s ++ (M.closing k ++ t)) = false :=
      Bool.eq_false_iff.2 fun hopens =>
        hopen ⟨_, List.suffix_rfl, hM.opens_apart (.inr ⟨k, rfl⟩) (List.cons_ne_nil c s) hopens⟩
    have hrest : M.Unclosed k s := by
      rintro a b rfl
      refine (Markers.opens_cons.1 (h (c :: a) b rfl)).resolve_left fun hopens => hopen ⟨_, List.suffix_rfl, ?_⟩
      exact hM.opens_append (M.closing k ++ b) hopens
    rw [List.cons_append] at hclosing hnot ⊢
    rw [Markers.body, hclosing, hnot, if_neg Bool.false_ne_true, if_neg Bool.false_ne_true,
      body_closing hrest fun hopens => hopen (Markers.opens_cons.2 (.inr hopens)), Option.map_some]

/-! ## Where no block is -/

theorem Markers.Lawful.blockAt_eq_none {t : List α} (h : ∀ k w, M.opening w = some (k, []) → ¬ w <+: t) :
    M.blockAt t = none := by
  rw [Markers.blockAt]
  cases ho : M.opening t with
  | none => rfl
  | some o =>
    obtain ⟨w, rfl, hw⟩ := hM.opening_word ho
    exact absurd (List.prefix_append w o.2) (h _ _ hw)

theorem Markers.Lawful.dead_text {s : List α} (hs : M.NoOpening s) : Dead M.blockAt s [] := fun _ hu _ =>
  hM.blockAt_eq_none fun k w hw hpre => by
    rw [List.append_nil] at hpre
    exact hs w (hpre.isInfix.trans hu.isInfix) k hw

/-- No block begins before a marker in a text where no opening marker stands. -/
theorem Markers.Lawful.dead_before {s m t : List α} (hm : M.IsMarker m) (hs : M.NoOpening s) :
    Dead M.blockAt s (m ++ t) := fun _ hu hne =>
  hM.blockAt_eq_none fun k w hw hpre =>
    hs w ((hM.apart hm (.inl ⟨k, hw⟩) hne hpre).isInfix.trans hu.isInfix) k hw

/-- No block begins in the opening marker of one that is not closed. -/
theorem Markers.Lawful.dead_marker {k : κ} {w t : List α} (hw : M.opening w = some (k, [])) (ht : M.body k t = none) :
    Dead M.blockAt w t := by
  rintro u ⟨v, hv⟩ hne
  cases v with
  | nil =>
    rw [List.nil_append] at hv
    rw [hv, Markers.blockAt, hM.opening_append t hw, Option.bind_some, ht, Option.map_none]
  | cons x v =>
    refine hM.blockAt_eq_none fun j w' hw' hpre => ?_
    -- the marker would run into one that begins in it
    obtain ⟨r, hr⟩ := hpre
    have hle : w <+: x :: v ++ (w' ++ r) := ⟨t, by rw [hr, ← List.append_assoc, hv]⟩
    have hlen := (hM.apart (.inl ⟨j, hw'⟩) (.inl ⟨k, hw⟩) (List.cons_ne_nil _ _) hle).length_le
    have hpos : 0 < u.length := List.length_pos_iff.2 hne
    rw [← hv, List.length_append] at hlen
    omega

end Bodies

end Blocks

end AgentPlatform
