/-
Reading a text with blocks in one pass, with a stack of the blocks that are
open. `next` reads a character: it may end an opening marker, or the innermost
block, whose body is then read once more behind what was before it.

`next_cases` says all that a character can do. `resolves_reads`: what is read
of a text is what `resolve` rewrites it to, on every text.
-/
import AgentPlatform.Blocks

namespace AgentPlatform

namespace Blocks

variable {α κ : Type}

/-! ## Reading with a stack -/

/-- A block that is open: its kind, its opening marker and what is before it in
the block around it. -/
structure Open (α κ : Type) where
  kind : κ
  marker : List α
  before : List α

/-- The blocks that are open, the innermost first, and the text read in it. -/
structure Reading (α κ : Type) where
  stack : List (Open α κ)
  text : List α

/-- What has been read of the blocks that are open, up to the innermost. -/
def surround : List (Open α κ) → List α
  | [] => []
  | b :: stack => surround stack ++ (b.before ++ b.marker)

def Reading.whole (r : Reading α κ) : List α := surround r.stack ++ r.text

section Read

variable [DecidableEq α] (M : Markers α κ)

/-- The opening marker that a text ends with. -/
def Markers.endsOpen (t : List α) : Option (List α × κ) :=
  firstMatch (fun u => (M.opening u).bind fun o => if o.2 = [] then some o.1 else none) t

/-- What is before the closing marker that a text ends with, if nothing opens
there. -/
def Markers.endsClosed (k : κ) (t : List α) : Option (List α) :=
  (firstMatch (fun u => if u = M.closing k then some () else none) t).bind fun m =>
    if m.1.tails.any M.opens then none else some m.1

/-- One more character, at the end of the text: what is open then, and what is
to be read before the rest. -/
def Markers.next (keep : κ → Bool) (r : Reading α κ) (c : α) : Reading α κ × List α :=
  match M.endsOpen (r.text ++ [c]) with
  | some (before, k) => (⟨⟨k, (r.text ++ [c]).drop before.length, before⟩ :: r.stack, []⟩, [])
  | none =>
    match r.stack with
    | [] => (⟨[], r.text ++ [c]⟩, [])
    | b :: stack =>
      match M.endsClosed b.kind (r.text ++ [c]) with
      | some body => (⟨stack, b.before⟩, if keep b.kind then body else [])
      | none => (⟨b :: stack, r.text ++ [c]⟩, [])

/-- The reading of a whole text. -/
inductive Markers.Reads (keep : κ → Bool) : Reading α κ → List α → Reading α κ → Prop
  | done (r : Reading α κ) : Reads keep r [] r
  | next {r r' : Reading α κ} {c : α} {rest : List α}
      (h : Reads keep (M.next keep r c).1 ((M.next keep r c).2 ++ rest) r') : Reads keep r (c :: rest) r'

end Read

/-! ## What has been read -/

/-- A text read in the innermost of the blocks that are open. -/
def Markers.Settled (M : Markers α κ) (stack : List (Open α κ)) (s : List α) : Prop :=
  M.NoOpening s ∧ ∀ b ∈ stack.head?, M.Unclosed b.kind s

/-- Blocks that are open, each in the one around it. -/
def Markers.SettledStack (M : Markers α κ) : List (Open α κ) → Prop
  | [] => True
  | b :: stack => M.opening b.marker = some (b.kind, []) ∧ M.Settled stack b.before ∧ SettledStack M stack

structure Markers.SettledReading (M : Markers α κ) (r : Reading α κ) : Prop where
  stack : M.SettledStack r.stack
  text : M.Settled r.stack r.text

section Settled

variable [DecidableEq α] {M : Markers α κ} (hM : M.Lawful)

include hM

/-- No block begins before the innermost text, if the innermost block is not
closed. -/
theorem Markers.Lawful.dead_surround : ∀ {stack : List (Open α κ)} {t : List α}, M.SettledStack stack →
    (∀ b ∈ stack.head?, M.body b.kind t = none) → Dead M.blockAt (surround stack) t
  | [], _, _, _ => dead_nil _
  | b :: stack, t, ⟨hmarker, ⟨hno, hclosed⟩, hstack⟩, ht => by
    rw [surround, dead_append, dead_append, List.append_assoc]
    refine ⟨dead_surround hstack fun b' hb' => hM.body_opening (hclosed b' hb') hmarker,
      hM.dead_before (.inl ⟨_, hmarker⟩) hno, hM.dead_marker hmarker (ht b rfl)⟩

/-- When all is read, no block is left. -/
theorem Markers.Lawful.rewrite_end {keep : κ → Bool} {r : Reading α κ} (hr : M.SettledReading r) :
    M.rewrite keep r.whole = none := by
  have hnil : M.blockAt [] = none := hM.blockAt_eq_none fun k w hw hpre =>
    hM.opening_ne hw (List.prefix_nil.1 hpre)
  have htext : firstMatch M.blockAt r.text = none := firstMatch_eq_none.2 ⟨hM.dead_text hr.text.1, hnil⟩
  have hdead : Dead M.blockAt (surround r.stack) r.text :=
    hM.dead_surround hr.stack fun b hb => hM.body_end (hr.text.2 b hb)
  rw [Markers.rewrite, Reading.whole, firstMatch_append hdead, htext]
  rfl

/-- When the innermost block is closed, it is the first block of the text. -/
theorem Markers.Lawful.rewrite_closing {keep : κ → Bool} {b : Open α κ} {stack : List (Open α κ)} {s t : List α}
    (hstack : M.SettledStack (b :: stack)) (hs : M.Unclosed b.kind s) (hopens : ¬ M.Opens s) :
    M.rewrite keep (surround (b :: stack) ++ (s ++ (M.closing b.kind ++ t))) =
      some (surround stack ++ (b.before ++ ((if keep b.kind then s else []) ++ t))) := by
  obtain ⟨hmarker, ⟨hno, hclosed⟩, hstack⟩ := hstack
  have hblock : M.blockAt (b.marker ++ (s ++ (M.closing b.kind ++ t))) = some (b.kind, s, t) := by
    rw [Markers.blockAt, hM.opening_append _ hmarker, Option.bind_some, hM.body_closing hs hopens]
    rfl
  have hdead : Dead M.blockAt (surround stack ++ b.before) (b.marker ++ (s ++ (M.closing b.kind ++ t))) :=
    dead_append.2 ⟨hM.dead_surround hstack fun b' hb' => hM.body_opening (hclosed b' hb') hmarker,
      hM.dead_before (.inl ⟨_, hmarker⟩) hno⟩
  have hsplit : surround (b :: stack) ++ (s ++ (M.closing b.kind ++ t)) =
      (surround stack ++ b.before) ++ (b.marker ++ (s ++ (M.closing b.kind ++ t))) := by
    rw [surround]
    simp only [List.append_assoc]
  rw [hsplit, Markers.rewrite, firstMatch_append hdead, firstMatch_head hblock]
  simp only [Option.map_some, List.append_nil, List.append_assoc]

end Settled

/-! ## One more character -/

section Next

variable [DecidableEq α] {M : Markers α κ}

omit [DecidableEq α] in
theorem endsOpen_eq_some {t before : List α} {k : κ} (h : M.endsOpen t = some (before, k)) :
    ∃ w, t = before ++ w ∧ M.opening w = some (k, []) := by
  obtain ⟨w, rfl, hw, -⟩ := firstMatch_eq_some h
  obtain ⟨o, ho, hend⟩ := Option.bind_eq_some_iff.1 hw
  split at hend
  · rename_i hnil
    obtain rfl := Option.some.inj hend
    exact ⟨w, rfl, by rw [ho, ← hnil]⟩
  · cases hend

omit [DecidableEq α] in
theorem endsOpen_eq_none {t : List α} (h : M.endsOpen t = none) {w : List α} (hw : w <:+ t) (k : κ) :
    M.opening w ≠ some (k, []) := fun hopen => by
  obtain ⟨hdead, hnil⟩ := firstMatch_eq_none.1 h
  have hnone : ((M.opening w).bind fun o => if o.2 = [] then some o.1 else none) = none := by
    by_cases hne : w = []
    · rw [hne]
      exact hnil
    · have := hdead w hw hne
      rwa [List.append_nil] at this
  rw [hopen] at hnone
  cases hnone

omit [DecidableEq α] in
theorem any_opens {s : List α} : s.tails.any M.opens = true ↔ M.Opens s := by
  simp [List.any_eq_true, Markers.Opens, List.mem_tails]

theorem endsClosed_eq_some {k : κ} {t s : List α} (h : M.endsClosed k t = some s) :
    t = s ++ M.closing k ∧ ¬ M.Opens s := by
  obtain ⟨⟨s', u⟩, hm, hs⟩ := Option.bind_eq_some_iff.1 h
  obtain ⟨w, rfl, hw, -⟩ := firstMatch_eq_some hm
  split at hs
  · cases hs
  · rename_i hnot
    obtain rfl := Option.some.inj hs
    split at hw
    · rename_i hclosing
      exact ⟨by rw [hclosing], fun hopens => hnot (any_opens.2 hopens)⟩
    · cases hw

theorem endsClosed_eq_none {k : κ} {t s : List α} (h : M.endsClosed k t = none) (hne : M.closing k ≠ [])
    (ht : t = s ++ M.closing k) : M.Opens s := by
  rw [Markers.endsClosed, Option.bind_eq_none_iff] at h
  cases hm : firstMatch (fun u => if u = M.closing k then some () else none) t with
  | none =>
    have hdead := (firstMatch_eq_none.1 hm).1 (M.closing k) ⟨s, ht.symm⟩ hne
    simp at hdead
  | some m =>
    obtain ⟨s', u⟩ := m
    obtain ⟨w, hw, hclosing, -⟩ := firstMatch_eq_some hm
    split at hclosing
    · rename_i hwc
      have hs : s = s' := by
        rw [ht, hwc] at hw
        exact List.append_cancel_right hw
      have hnone := h _ hm
      split at hnone
      · rename_i hopens
        exact hs ▸ any_opens.1 hopens
      · cases hnone
    · cases hclosing

/-- What one more character does: it ends an opening marker, or the innermost
block, or nothing. -/
theorem next_cases (hM : M.Lawful) (keep : κ → Bool) (r : Reading α κ) (c : α) :
    (∃ k w before, r.text ++ [c] = before ++ w ∧ M.opening w = some (k, []) ∧
      M.next keep r c = (⟨⟨k, w, before⟩ :: r.stack, []⟩, [])) ∨
    (∃ b stack s, r.stack = b :: stack ∧ r.text ++ [c] = s ++ M.closing b.kind ∧ ¬ M.Opens s ∧
      M.next keep r c = (⟨stack, b.before⟩, if keep b.kind then s else [])) ∨
    ((∀ w, w <:+ r.text ++ [c] → ∀ k, M.opening w ≠ some (k, [])) ∧
      (∀ b ∈ r.stack.head?, ∀ s, r.text ++ [c] = s ++ M.closing b.kind → M.Opens s) ∧
      M.next keep r c = (⟨r.stack, r.text ++ [c]⟩, [])) := by
  obtain ⟨stack, text⟩ := r
  unfold Markers.next
  cases ho : M.endsOpen (text ++ [c]) with
  | some m =>
    obtain ⟨before, k⟩ := m
    obtain ⟨w, htext, hw⟩ := endsOpen_eq_some ho
    exact .inl ⟨k, w, before, htext, hw, by simp only [htext, List.drop_left]⟩
  | none =>
    have hno : ∀ w, w <:+ text ++ [c] → ∀ k, M.opening w ≠ some (k, []) := fun w hw k => endsOpen_eq_none ho hw k
    cases stack with
    | nil => exact .inr (.inr ⟨hno, fun b hb => (by cases hb), rfl⟩)
    | cons b stack =>
      cases hc : M.endsClosed b.kind (text ++ [c]) with
      | some s =>
        obtain ⟨htext, hopens⟩ := endsClosed_eq_some hc
        exact .inr (.inl ⟨b, stack, s, rfl, htext, hopens, by simp only [hc]⟩)
      | none =>
        refine .inr (.inr ⟨hno, fun b' hb' s hs => ?_, by simp only [hc]⟩)
        obtain rfl := Option.some.inj hb'
        exact endsClosed_eq_none hc (hM.closing_ne _) hs

end Next

/-! ## A whole text -/

section Runs

variable [DecidableEq α] {M : Markers α κ} (hM : M.Lawful) {keep : κ → Bool}

/-- However often the rewriting may be repeated, if more than once for each
character, it ends with this text. -/
def Markers.Resolves (M : Markers α κ) (keep : κ → Bool) (t u : List α) : Prop :=
  ∀ n, t.length < n → M.resolve keep n t = some u

theorem body_eq_some {k : κ} : ∀ {t s r : List α}, M.body k t = some (s, r) → t = s ++ (M.closing k ++ r)
  | c :: t, s, r, h => by
    rw [Markers.body] at h
    split at h
    · rename_i hpre
      obtain ⟨rfl, rfl⟩ := Prod.mk.inj (Option.some.inj h)
      obtain ⟨b, hb⟩ := List.isPrefixOf_iff_prefix.1 hpre
      rw [← hb, List.drop_left, List.nil_append]
    split at h
    · cases h
    · obtain ⟨⟨s', r'⟩, hb, he⟩ := Option.map_eq_some_iff.1 h
      obtain ⟨rfl, rfl⟩ := Prod.mk.inj he
      rw [body_eq_some hb, List.cons_append]

include hM

theorem Markers.Lawful.blockAt_eq_some {t s r : List α} {k : κ} (h : M.blockAt t = some (k, s, r)) :
    ∃ w, t = w ++ (s ++ (M.closing k ++ r)) ∧ M.opening w = some (k, []) := by
  obtain ⟨o, ho, hb⟩ := Option.bind_eq_some_iff.1 h
  obtain ⟨b, hbody, he⟩ := Option.map_eq_some_iff.1 hb
  cases he
  obtain ⟨w, rfl, hw⟩ := hM.opening_word ho
  exact ⟨w, by rw [body_eq_some hbody], hw⟩

/-- A block that goes makes the text shorter. -/
theorem Markers.Lawful.rewrite_shorter {t t' : List α} (h : M.rewrite keep t = some t') : t'.length < t.length := by
  obtain ⟨⟨a, k, s, r⟩, hm, rfl⟩ := Option.map_eq_some_iff.1 h
  obtain ⟨u, rfl, hu, -⟩ := firstMatch_eq_some hm
  obtain ⟨w, rfl, hw⟩ := hM.blockAt_eq_some hu
  have hpos : 0 < w.length := List.length_pos_iff.2 (hM.opening_ne hw)
  have hkept : (if keep k then s else []).length ≤ s.length := by split <;> simp
  simp only [List.length_append]
  omega

theorem Markers.Lawful.resolves_step {t t' u : List α} (h : M.rewrite keep t = some t') (hu : M.Resolves keep t' u) :
    M.Resolves keep t u := fun n hn => by
  obtain ⟨n, rfl⟩ : ∃ m, n = m + 1 := ⟨n - 1, by omega⟩
  rw [Markers.resolve, h]
  exact hu n (Nat.lt_of_lt_of_le (hM.rewrite_shorter h) (Nat.le_of_lt_succ hn))

omit hM in
theorem resolves_end {t : List α} (h : M.rewrite keep t = none) : M.Resolves keep t t := fun n hn => by
  obtain ⟨n, rfl⟩ : ∃ m, n = m + 1 := ⟨n - 1, by omega⟩
  rw [Markers.resolve, h]

omit [DecidableEq α] in
theorem Markers.Lawful.settled_nil (stack : List (Open α κ)) : M.Settled stack [] := by
  refine ⟨fun w hw k h => hM.opening_ne h (List.infix_nil.1 hw), fun b _ a s h => ?_⟩
  have hclosing := (List.append_eq_nil_iff.1 (List.append_eq_nil_iff.1 h.symm).2).1
  exact absurd hclosing (hM.closing_ne b.kind)

/-- One more character keeps what is known of the texts read. -/
theorem Markers.Lawful.next_settled {r : Reading α κ} (hr : M.SettledReading r) (c : α) :
    M.SettledReading (M.next keep r c).1 := by
  rcases next_cases hM keep r c with ⟨k, w, before, htext, hw, h⟩ | ⟨b, stack, s, hstack, -, -, h⟩ | ⟨hno, hclosed, h⟩
  · rw [h]
    have hpre : before <+: r.text := by
      obtain ⟨w', x, rfl⟩ := (List.eq_nil_or_concat' w).resolve_left (hM.opening_ne hw)
      rw [← List.append_assoc] at htext
      exact ⟨w', (List.append_inj' htext rfl).1.symm⟩
    have hbefore : M.Settled r.stack before :=
      ⟨hr.text.1.within hpre.isInfix, fun b hb => (hr.text.2 b hb).cut hpre⟩
    exact ⟨⟨hw, hbefore, hr.stack⟩, hM.settled_nil _⟩
  · rw [h]
    have hall := hr.stack
    rw [hstack] at hall
    exact ⟨hall.2.2, hall.2.1⟩
  · rw [h]
    refine ⟨hr.stack, fun w hw k => ?_, fun b hb a s hs => ?_⟩
    · rcases List.infix_concat_iff.1 hw with hw | hw
      · exact hno w hw k
      · exact hr.text.1 w hw k
    · rcases List.eq_nil_or_concat' s with rfl | ⟨s', x, rfl⟩
      · exact hclosed b hb a (by simpa using hs)
      · refine hr.text.2 b hb a s' ?_
        rw [← List.append_assoc, ← List.append_assoc] at hs
        simpa using (List.append_inj' hs rfl).1

/-- One more character leaves the text as it is, or rewrites it once. -/
theorem Markers.Lawful.whole_next (keep : κ → Bool) {r : Reading α κ} (hr : M.SettledReading r) (c : α) :
    (M.next keep r c).2 = [] ∧ (M.next keep r c).1.whole = r.whole ++ [c] ∨
    ∀ t, M.rewrite keep (r.whole ++ c :: t) = some ((M.next keep r c).1.whole ++ ((M.next keep r c).2 ++ t)) := by
  rcases next_cases hM keep r c with ⟨k, w, before, htext, hw, h⟩ | ⟨b, stack, s, hstack, htext, hopens, h⟩ | ⟨-, -, h⟩
  · refine .inl ⟨by rw [h], ?_⟩
    rw [h, Reading.whole, Reading.whole, List.append_assoc, htext, surround, List.append_nil]
  · refine .inr fun t => ?_
    have hall := hr.stack
    rw [hstack] at hall
    have hunclosed : M.Unclosed b.kind s := by
      have hb := hr.text.2 b (by rw [hstack]; rfl)
      obtain ⟨w, x, hclosing⟩ := (List.eq_nil_or_concat' (M.closing b.kind)).resolve_left (hM.closing_ne _)
      rw [hclosing, ← List.append_assoc] at htext
      exact hb.cut ⟨w, (List.append_inj' htext rfl).1.symm⟩
    have hwhole : r.whole ++ c :: t = surround (b :: stack) ++ (s ++ (M.closing b.kind ++ t)) := by
      rw [Reading.whole, hstack, ← List.append_assoc s, ← htext]
      simp
    rw [h, hwhole, hM.rewrite_closing hall hunclosed hopens, Reading.whole, List.append_assoc]
  · exact .inl ⟨by rw [h], by rw [h, Reading.whole, Reading.whole, List.append_assoc]⟩

theorem Markers.Lawful.reads_settled {r r' : Reading α κ} {t : List α} (h : M.Reads keep r t r') :
    M.SettledReading r → M.SettledReading r' := by
  induction h with
  | done => exact id
  | next _ ih => exact fun hr => ih (hM.next_settled hr _)

/-- **The one pass and the rewriting agree**: what has been read, and the rest,
are rewritten to what is read in the end. -/
theorem Markers.Lawful.resolves_reads {r r' : Reading α κ} {t : List α} (h : M.Reads keep r t r') :
    M.SettledReading r → M.Resolves keep (r.whole ++ t) r'.whole := by
  induction h with
  | done r =>
    intro hr
    rw [List.append_nil]
    exact resolves_end (hM.rewrite_end hr)
  | @next r r' c rest _ ih =>
    intro hr
    have hih := ih (hM.next_settled hr c)
    rcases hM.whole_next keep hr c with ⟨hnone, hwhole⟩ | hstep
    · rwa [hnone, List.nil_append, hwhole, List.append_assoc] at hih
    · exact hM.resolves_step (hstep rest) hih

/-- Every text is read to its end. -/
theorem Markers.Lawful.exists_reads {r : Reading α κ} {t : List α} (hr : M.SettledReading r) :
    ∃ r', M.Reads keep r t r' := by
  cases t with
  | nil => exact ⟨r, .done r⟩
  | cons c t =>
    have hlen : (M.next keep r c).1.whole.length + ((M.next keep r c).2 ++ t).length <
          r.whole.length + (c :: t).length ∨
        (M.next keep r c).1.whole.length + ((M.next keep r c).2 ++ t).length = r.whole.length + (c :: t).length ∧
          ((M.next keep r c).2 ++ t).length < (c :: t).length := by
      rcases hM.whole_next keep hr c with ⟨hnone, hwhole⟩ | hstep
      · rw [hnone, hwhole]
        simp only [List.length_append, List.length_cons, List.length_nil, List.nil_append]
        omega
      · have := hM.rewrite_shorter (hstep t)
        simp only [List.length_append, List.length_cons] at this ⊢
        omega
    obtain ⟨r', hr'⟩ := exists_reads (t := (M.next keep r c).2 ++ t) (hM.next_settled hr c)
    exact ⟨r', .next hr'⟩
termination_by (r.whole.length + t.length, t.length)
decreasing_by
  subst_vars
  simp only [Prod.lex_def]
  exact hlen

end Runs

end Blocks

end AgentPlatform
