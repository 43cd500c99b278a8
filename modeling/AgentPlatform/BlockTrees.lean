/-
Trees of blocks, written with their markers. `reads_all`: a tree is read as its
value, the texts left when the blocks that are dropped are gone, if these do
not make a marker where they come together. `bind` replaces the characters of a
tree's texts, before or after it is read (`valueAll_bind`).
-/
import AgentPlatform.BlockReading

namespace AgentPlatform

namespace Blocks

variable {α κ : Type}

/-! ## Trees of blocks -/

/-- A text, or a block around a list of these. -/
inductive Node (α κ : Type) where
  | text (s : List α)
  | block (kind : κ) (body : List (Node α κ))

section Trees

variable [DecidableEq α] {M : Markers α κ} {keep : κ → Bool} {mark : κ → List α}

mutual

/-- A tree as it is written, a block between its markers. -/
def Node.print (M : Markers α κ) (mark : κ → List α) : Node α κ → List α
  | .text s => s
  | .block k body => mark k ++ (printAll M mark body ++ M.closing k)

def printAll (M : Markers α κ) (mark : κ → List α) : List (Node α κ) → List α
  | [] => []
  | n :: ns => n.print M mark ++ printAll M mark ns

end

mutual

/-- The texts of a tree. -/
def Node.leaves : Node α κ → List (List α)
  | .text s => [s]
  | .block _ body => leavesAll body

def leavesAll : List (Node α κ) → List (List α)
  | [] => []
  | n :: ns => n.leaves ++ leavesAll ns

end

mutual

/-- What a tree is without the blocks that are dropped. -/
def Node.value (keep : κ → Bool) : Node α κ → List α
  | .text s => s
  | .block k body => if keep k then valueAll keep body else []

def valueAll (keep : κ → Bool) : List (Node α κ) → List α
  | [] => []
  | n :: ns => n.value keep ++ valueAll keep ns

end

mutual

/-- In no block of a tree do the texts that come together hold its closing
marker, or what no body holds. -/
def Node.Joined (M : Markers α κ) (keep : κ → Bool) : Node α κ → Prop
  | .text _ => True
  | .block k body =>
    (¬ M.Opens (valueAll keep body) ∧ ¬ M.closing k <:+: valueAll keep body) ∧ JoinedAll M keep body

def JoinedAll (M : Markers α κ) (keep : κ → Bool) : List (Node α κ) → Prop
  | [] => True
  | n :: ns => n.Joined M keep ∧ JoinedAll M keep ns

end

/-- No opening marker stands in the text, nor the closing one of the innermost
block. -/
def Markers.Plain (M : Markers α κ) (stack : List (Open α κ)) (s : List α) : Prop :=
  M.NoOpening s ∧ ∀ b ∈ stack.head?, ¬ M.closing b.kind <:+: s

omit [DecidableEq α] in
theorem Markers.Plain.cut {stack : List (Open α κ)} {s t : List α} (h : M.Plain stack t) (hst : s <+: t) :
    M.Plain stack s :=
  ⟨h.1.within hst.isInfix, fun b hb hs => h.2 b hb (hs.trans hst.isInfix)⟩

section Reads

variable (hM : M.Lawful)

include hM

omit [DecidableEq α] in
theorem Markers.Lawful.noOpening_of_not_opens {s : List α} (h : ¬ M.Opens s) : M.NoOpening s := by
  rintro w ⟨a, b, rfl⟩ k hw
  exact h ⟨w ++ b, ⟨a, by simp⟩, hM.opens_append b (hM.opens_opening hw)⟩

/-- Characters at which no marker ends are read as they are. -/
theorem Markers.Lawful.reads_plain {stack : List (Open α κ)} {rest : List α} {r' : Reading α κ} :
    ∀ {s text : List α},
    (∀ p, p ≠ [] → p <+: s → (∀ w k, M.opening w = some (k, []) → ¬ w <:+ text ++ p) ∧
      ∀ b ∈ stack.head?, ¬ M.closing b.kind <:+ text ++ p) →
    M.Reads keep ⟨stack, text ++ s⟩ rest r' → M.Reads keep ⟨stack, text⟩ (s ++ rest) r'
  | [], text, _, h => by rwa [List.append_nil] at h
  | c :: s, text, hquiet, h => by
    obtain ⟨hno, hclosed⟩ := hquiet [c] (List.cons_ne_nil _ _) ⟨s, rfl⟩
    have hnext : M.next keep ⟨stack, text⟩ c = (⟨stack, text ++ [c]⟩, []) := by
      rcases next_cases hM keep ⟨stack, text⟩ c with
        ⟨k, w, before, htext, hw, -⟩ | ⟨b, st, s', hst, htext, -, -⟩ | ⟨-, -, h⟩
      · exact absurd ⟨before, htext.symm⟩ (hno w k hw)
      · dsimp only at hst htext
        exact absurd ⟨s', htext.symm⟩ (hclosed b (by rw [hst]; rfl))
      · exact h
    refine .next ?_
    rw [hnext]
    show M.Reads keep ⟨stack, text ++ [c]⟩ (s ++ rest) r'
    refine reads_plain (fun p hp hpre => ?_) (by rwa [List.append_assoc])
    have := hquiet (c :: p) (List.cons_ne_nil _ _) (List.cons_prefix_cons.2 ⟨rfl, hpre⟩)
    rwa [List.append_assoc]

theorem Markers.Lawful.reads_text {stack : List (Open α κ)} {text s rest : List α} {r' : Reading α κ}
    (hplain : M.Plain stack (text ++ s)) (h : M.Reads keep ⟨stack, text ++ s⟩ rest r') :
    M.Reads keep ⟨stack, text⟩ (s ++ rest) r' := by
  refine hM.reads_plain (fun p _ hpre => ?_) h
  obtain ⟨hno, hclosed⟩ := hplain.cut ((List.prefix_append_right_inj text).2 hpre)
  exact ⟨fun w k hw hsuf => hno w hsuf.isInfix k hw, fun b hb hsuf => hclosed b hb hsuf.isInfix⟩

/-- A marker is read as it is up to its last character. -/
theorem Markers.Lawful.reads_partial {stack : List (Open α κ)} {text p rest : List α} {c : α} {r' : Reading α κ}
    (hm : M.IsMarker (p ++ [c]))
    (h : M.Reads keep (M.next keep ⟨stack, text ++ p⟩ c).1 ((M.next keep ⟨stack, text ++ p⟩ c).2 ++ rest) r') :
    M.Reads keep ⟨stack, text⟩ (p ++ [c] ++ rest) r' := by
  rw [List.append_assoc]
  refine hM.reads_plain (fun q hq hpre => ?_) (.next h)
  obtain ⟨q', rfl⟩ := hpre
  have hne : q' ++ [c] ≠ [] := by simp
  have hquiet : ∀ w, M.IsMarker w → ¬ w <:+ text ++ q := fun w hw =>
    hM.not_suffix_partial hm (List.append_assoc ..) hq hne hw
  exact ⟨fun w k hw => hquiet w (.inl ⟨k, hw⟩), fun b _ => hquiet _ (.inr ⟨b.kind, rfl⟩)⟩

theorem Markers.Lawful.reads_opening {stack : List (Open α κ)} {text m rest : List α} {k : κ} {r' : Reading α κ}
    (hm : M.opening m = some (k, [])) (h : M.Reads keep ⟨⟨k, m, text⟩ :: stack, []⟩ rest r') :
    M.Reads keep ⟨stack, text⟩ (m ++ rest) r' := by
  obtain ⟨p, c, rfl⟩ := (List.eq_nil_or_concat' m).resolve_left (hM.opening_ne hm)
  have hends : p ++ [c] <:+ text ++ p ++ [c] := ⟨text, (List.append_assoc ..).symm⟩
  refine hM.reads_partial (.inl ⟨k, hm⟩) ?_
  rcases next_cases hM keep ⟨stack, text ++ p⟩ c with
    ⟨j, w, before, htext, hw, hnext⟩ | ⟨b, st, s, -, htext, -, -⟩ | ⟨hno, -, -⟩
  · -- the text ends with one marker
    obtain rfl := hM.suffix_unique (.inl ⟨j, hw⟩) (.inl ⟨k, hm⟩) ⟨before, htext.symm⟩ hends
    rw [hm] at hw
    obtain ⟨rfl, -⟩ := Prod.mk.inj (Option.some.inj hw)
    dsimp only at htext
    rw [List.append_assoc] at htext
    obtain rfl := List.append_cancel_right htext
    rw [hnext]
    exact h
  · have heq := hM.suffix_unique (.inr ⟨b.kind, rfl⟩) (.inl ⟨k, hm⟩) ⟨s, htext.symm⟩ hends
    have hopens := hM.opens_closing b.kind []
    rw [List.append_nil, heq, hM.opens_opening hm] at hopens
    cases hopens
  · exact absurd hm (hno _ hends k)

theorem Markers.Lawful.reads_closing {stack : List (Open α κ)} {b : Open α κ} {text rest : List α} {r' : Reading α κ}
    (hopens : ¬ M.Opens text) (h : M.Reads keep ⟨stack, b.before⟩ ((if keep b.kind then text else []) ++ rest) r') :
    M.Reads keep ⟨b :: stack, text⟩ (M.closing b.kind ++ rest) r' := by
  obtain ⟨p, c, hm⟩ := (List.eq_nil_or_concat' (M.closing b.kind)).resolve_left (hM.closing_ne _)
  have hends : M.closing b.kind <:+ text ++ p ++ [c] := ⟨text, by rw [hm, List.append_assoc]⟩
  rw [hm]
  refine hM.reads_partial (.inr ⟨b.kind, hm.symm⟩) ?_
  rcases next_cases hM keep ⟨b :: stack, text ++ p⟩ c with
    ⟨j, w, before, htext, hw, -⟩ | ⟨b', st, s, hst, htext, -, hnext⟩ | ⟨-, hclosed, -⟩
  · have heq := hM.suffix_unique (.inr ⟨b.kind, rfl⟩) (.inl ⟨j, hw⟩) hends ⟨before, htext.symm⟩
    have hopens' := hM.opens_closing b.kind []
    rw [List.append_nil, heq, hM.opens_opening hw] at hopens'
    cases hopens'
  · obtain ⟨rfl, rfl⟩ := List.cons_eq_cons.1 hst
    dsimp only at htext
    rw [List.append_assoc, ← hm] at htext
    obtain rfl := List.append_cancel_right htext
    rw [hnext]
    exact h
  · exact absurd (hclosed b rfl text (by rw [hm, List.append_assoc])) hopens

end Reads

mutual

/-- A tree that is read is what it is without the blocks that are dropped. -/
theorem Markers.Lawful.reads_node (hM : M.Lawful) (hmark : ∀ k, M.opening (mark k) = some (k, []))
    {stack : List (Open α κ)} {text rest : List α} {r' : Reading α κ} :
    ∀ (n : Node α κ), n.Joined M keep → M.Plain stack (text ++ n.value keep) →
      M.Reads keep ⟨stack, text ++ n.value keep⟩ rest r' → M.Reads keep ⟨stack, text⟩ (n.print M mark ++ rest) r'
  | .text s, _, hplain, h => hM.reads_text hplain h
  | .block k body, ⟨⟨hopens, hclosing⟩, hbody⟩, hplain, h => by
    rw [Node.print, List.append_assoc, List.append_assoc]
    refine hM.reads_opening (hmark k) (reads_all hM hmark body hbody ⟨hM.noOpening_of_not_opens hopens, ?_⟩ ?_)
    · rintro b hb
      obtain rfl := Option.some.inj hb
      exact hclosing
    · rw [List.nil_append]
      refine hM.reads_closing (b := ⟨k, mark k, text⟩) hopens ?_
      have hvalue : (if keep k then valueAll keep body else []) = (Node.block k body).value keep := rfl
      rw [hvalue]
      exact hM.reads_text hplain h

theorem Markers.Lawful.reads_all (hM : M.Lawful) (hmark : ∀ k, M.opening (mark k) = some (k, []))
    {stack : List (Open α κ)} {text rest : List α} {r' : Reading α κ} :
    ∀ (ns : List (Node α κ)), JoinedAll M keep ns → M.Plain stack (text ++ valueAll keep ns) →
      M.Reads keep ⟨stack, text ++ valueAll keep ns⟩ rest r' →
      M.Reads keep ⟨stack, text⟩ (printAll M mark ns ++ rest) r'
  | [], _, _, h => by rwa [valueAll, List.append_nil] at h
  | n :: ns, ⟨hn, hns⟩, hplain, h => by
    rw [valueAll, ← List.append_assoc] at hplain h
    rw [printAll, List.append_assoc]
    exact reads_node hM hmark n hn (hplain.cut (List.prefix_append ..)) (reads_all hM hmark ns hns hplain h)

end

end Trees

/-! ## Trees of other texts -/

section Bind

variable {β : Type} {keep : κ → Bool} (f : α → List β)

mutual

/-- The tree with each character of its texts replaced. -/
def Node.bind : Node α κ → Node β κ
  | .text s => .text (s.flatMap f)
  | .block k body => .block k (bindAll body)

def bindAll : List (Node α κ) → List (Node β κ)
  | [] => []
  | n :: ns => n.bind :: bindAll ns

end

mutual

theorem Node.value_bind : ∀ n : Node α κ, (n.bind f).value keep = (n.value keep).flatMap f
  | .text s => by simp only [Node.bind, Node.value]
  | .block k body => by
    simp only [Node.bind, Node.value]
    split
    · exact valueAll_bind body
    · rfl

/-- What is kept of it is what was kept, replaced. -/
theorem valueAll_bind : ∀ ns : List (Node α κ), valueAll keep (bindAll f ns) = (valueAll keep ns).flatMap f
  | [] => rfl
  | n :: ns => by
    simp only [bindAll, valueAll, List.flatMap_append]
    rw [Node.value_bind n, valueAll_bind ns]

end

mutual

theorem Node.leaves_bind : ∀ n : Node α κ, (n.bind f).leaves = n.leaves.map (List.flatMap f)
  | .text _ => rfl
  | .block _ body => leavesAll_bind body

theorem leavesAll_bind : ∀ ns : List (Node α κ), leavesAll (bindAll f ns) = (leavesAll ns).map (List.flatMap f)
  | [] => rfl
  | n :: ns => by
    simp only [bindAll, leavesAll, List.map_append]
    rw [Node.leaves_bind n, leavesAll_bind ns]

end

end Bind

section Leaves

variable {M : Markers α κ} {keep : κ → Bool} {P : List α → Prop}

mutual

theorem Node.value_of_leaves (hnil : P []) (happend : ∀ {s t}, P s → P t → P (s ++ t)) :
    ∀ n : Node α κ, (∀ s ∈ n.leaves, P s) → P (n.value keep)
  | .text s, h => h s (by simp [Node.leaves])
  | .block k body, h => by
    simp only [Node.value]
    split
    · exact valueAll_of_leaves hnil happend body h
    · exact hnil

/-- What holds of the texts, and of texts that come together, holds of the value. -/
theorem valueAll_of_leaves (hnil : P []) (happend : ∀ {s t}, P s → P t → P (s ++ t)) :
    ∀ ns : List (Node α κ), (∀ s ∈ leavesAll ns, P s) → P (valueAll keep ns)
  | [], _ => hnil
  | n :: ns, h => by
    simp only [leavesAll, List.mem_append] at h
    exact happend (Node.value_of_leaves hnil happend n fun s hs => h s (.inl hs))
      (valueAll_of_leaves hnil happend ns fun s hs => h s (.inr hs))

end

mutual

theorem Node.joined_of_leaves (hnil : P []) (happend : ∀ {s t}, P s → P t → P (s ++ t))
    (hM : ∀ s, P s → ¬ M.Opens s ∧ ∀ k, ¬ M.closing k <:+: s) :
    ∀ n : Node α κ, (∀ s ∈ n.leaves, P s) → n.Joined M keep
  | .text s, _ => trivial
  | .block k body, h => by
    have hbody := hM (valueAll keep body) (valueAll_of_leaves hnil happend body h)
    exact ⟨⟨hbody.1, hbody.2 k⟩, joinedAll_of_leaves hnil happend hM body h⟩

/-- Texts that make no marker, alone and where they come together. -/
theorem joinedAll_of_leaves (hnil : P []) (happend : ∀ {s t}, P s → P t → P (s ++ t))
    (hM : ∀ s, P s → ¬ M.Opens s ∧ ∀ k, ¬ M.closing k <:+: s) :
    ∀ ns : List (Node α κ), (∀ s ∈ leavesAll ns, P s) → JoinedAll M keep ns
  | [], _ => trivial
  | n :: ns, h => by
    simp only [leavesAll, List.mem_append] at h
    exact ⟨Node.joined_of_leaves hnil happend hM n fun s hs => h s (.inl hs),
      joinedAll_of_leaves hnil happend hM ns fun s hs => h s (.inr hs)⟩

end

end Leaves

end Blocks

end AgentPlatform
