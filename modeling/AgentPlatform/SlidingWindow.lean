/-
Logs of times, and the windows of a fixed length over them.

A log lists times, oldest first. `within w t` are its times in the closed window
of length `w` that ends at `t`, `since` those from a time on. A queue that drops
what is too old from its front holds what the log has (`dropWhile_eq_since`),
and a log none of whose times was entered with `n` times in its window has no
more than `n` in any window (`length_within_le`).
-/
import AgentPlatform.Machine
import Mathlib.Algebra.Order.Group.Defs

namespace AgentPlatform

namespace SlidingWindow

section Order

variable {α : Type} [LinearOrder α]

/-- The times of a log from `c` on. -/
def since (c : α) (l : List α) : List α := l.filter fun x => decide (c ≤ x)

theorem since_concat (c : α) (l : List α) (a : α) :
    since c (l ++ [a]) = since c l ++ if c ≤ a then [a] else [] := by
  by_cases h : c ≤ a <;> simp [since, h]

theorem since_since {c d : α} (h : c ≤ d) (l : List α) : since d (since c l) = since d l := by
  rw [since, since, since, List.filter_filter]
  refine List.filter_congr fun x _ => ?_
  have : d ≤ x → c ≤ x := h.trans
  grind

/-- Dropping the front of a sorted log while it is before `c` leaves what is from `c` on. -/
theorem dropWhile_eq_since {l : List α} (h : l.Pairwise (· ≤ ·)) (c : α) :
    l.dropWhile (fun x => decide (x < c)) = since c l := by
  induction l with
  | nil => rfl
  | cons a l ih =>
    obtain ⟨hfirst, hrest⟩ := List.pairwise_cons.1 h
    by_cases ha : a < c
    · rw [List.dropWhile_cons_of_pos (by simpa using ha), ih hrest]
      simp [since, not_le.2 ha]
    · have hall : ∀ x ∈ a :: l, c ≤ x := fun x hx =>
        (not_lt.1 ha).trans ((List.mem_cons.1 hx).elim (fun h => h ▸ le_rfl) (hfirst x))
      rw [List.dropWhile_cons_of_neg (by simpa using ha), since, List.filter_eq_self.2 (by simpa using hall)]

end Order

section Group

variable {α : Type} [LinearOrder α] [AddCommGroup α] [IsOrderedAddMonoid α]

/-- The times of a log in the closed window of length `w` that ends at `t`. -/
def within (w t : α) (l : List α) : List α := l.filter fun x => decide (t - w ≤ x ∧ x ≤ t)

omit [IsOrderedAddMonoid α] in
/-- In a log that has nothing later than `t`, the window is what is from its start on. -/
theorem within_eq_since {w t : α} {l : List α} (h : ∀ x ∈ l, x ≤ t) : within w t l = since (t - w) l :=
  List.filter_congr fun x hx => by simp [h x hx]

omit [IsOrderedAddMonoid α] in
theorem within_concat (w t : α) (l : List α) (a : α) :
    within w t (l ++ [a]) = within w t l ++ if t - w ≤ a ∧ a ≤ t then [a] else [] := by
  by_cases h : t - w ≤ a ∧ a ≤ t <;> simp [within, h]

omit [IsOrderedAddMonoid α] in
theorem length_within_mono {w t : α} {l l' : List α} (h : l.Sublist l') :
    (within w t l).length ≤ (within w t l').length := (h.filter _).length_le

/-- If every time was entered with fewer than `n` in the window it ends, no
window has more than `n`. -/
theorem length_within_le {w : α} {n : Nat} {l : List α} (hsorted : l.Pairwise (· ≤ ·))
    (hentered : Throughout (fun before a => (within w a before).length < n) l) (t : α) :
    (within w t l).length ≤ n := by
  induction l using List.reverseRecOn with
  | nil => simp [within]
  | append_singleton l a ih =>
    obtain ⟨hl, ha⟩ := Throughout.concat_iff.1 hentered
    obtain ⟨hsorted', -, hlast⟩ := List.pairwise_append.1 hsorted
    rw [within_concat]
    split
    next hin =>
      -- What the window has besides its last time, the window ending there has too.
      have hsub : (within w t l).length ≤ (within w a l).length := by
        rw [within, within, ← List.countP_eq_length_filter, ← List.countP_eq_length_filter]
        refine List.countP_mono_left fun x hx hx' => ?_
        have hx' : t - w ≤ x ∧ x ≤ t := of_decide_eq_true hx'
        have hstart : a - w ≤ x := (sub_le_sub_right hin.2 w).trans hx'.1
        exact decide_eq_true ⟨hstart, hlast x hx a (by simp)⟩
      simp only [List.length_append, List.length_singleton]
      omega
    next => simpa using ih hsorted' hl

end Group

end SlidingWindow

end AgentPlatform
