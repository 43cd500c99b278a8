/-
Deterministic machines and their runs.

A machine answers an input and moves on. What it does not control (which
request comes next, what a service answers, which identifier is drawn) is part
of its inputs, so a statement about every list of inputs is a statement about
every order of events. A run is the list of its transitions, oldest first.

`history_rule` carries a property of the history and the state through a run,
`history_rule_at` to every transition of it; `invariant` and `invariant_run` are
their special cases for a property of the state. All take a guard: what every
transition of the run is assumed to meet. `throughout_iff` says of a guard that
it is exact: a property holds throughout the runs whose transitions meet it, and
throughout no other. `component` reads the run of a part off the run of the
whole.

`lockstep` compares two machines on the same inputs: if related states answer
alike exactly when a guard is met, and then stay related, the runs answer alike
exactly when every transition meets the guard. `unseen` drops from a run the
inputs that the others' answers do not depend on (`unseen_of`, under a guard),
and `blind` replaces inputs by others that are answered alike, as far as a view
shows.

`Throughout` is a property of the elements of a list, each given those before
it, as a log of events has them.
-/
import Mathlib.Data.List.Induction

namespace AgentPlatform

/-- One step of a run: the state before, the input, the answer, the state after. -/
structure Transition (σ ι ω : Type) where
  pre : σ
  input : ι
  output : ω
  post : σ

structure Machine (σ ι ω : Type) where
  init : σ
  step : ι → σ → ω × σ

/-! ## Elements, given those before them -/

/-- Each element has the property, given the ones before it. -/
def Throughout {α : Type} (P : List α → α → Prop) (l : List α) : Prop :=
  ∀ before a after, l = before ++ a :: after → P before a

namespace Throughout

variable {α : Type} {P : List α → α → Prop} {l : List α}

theorem nil : Throughout P [] := by simp [Throughout]

theorem concat {a : α} (h : Throughout P l) (ha : P l a) : Throughout P (l ++ [a]) := by
  intro before a' after heq
  rcases List.eq_nil_or_concat after with rfl | ⟨after', x, rfl⟩
  · obtain ⟨rfl, hlast⟩ := List.append_inj' heq rfl
    cases hlast
    exact ha
  · have hsplit : l ++ [a] = (before ++ a' :: after') ++ [x] := by simpa using heq
    exact h before a' after' (List.append_inj' hsplit rfl).1

theorem concat_iff {a : α} : Throughout P (l ++ [a]) ↔ Throughout P l ∧ P l a := by
  refine ⟨fun h => ⟨fun before b after heq => ?_, h l a [] rfl⟩, fun h => h.1.concat h.2⟩
  exact h before b (after ++ [a]) (by simp [heq])

/-- A property that more elements before do not spoil. -/
theorem append {new : List α} (mono : ∀ l more a, P l a → P (l ++ more) a) (h : Throughout P l)
    (hnew : ∀ a ∈ new, P l a) : Throughout P (l ++ new) := by
  induction new using List.reverseRecOn with
  | nil => simpa using h
  | append_singleton new a ih =>
    rw [← List.append_assoc]
    exact (ih fun b hb => hnew b (by simp [hb])).concat (mono l new a (hnew a (by simp)))

/-- It is enough to look at every place of the list. -/
theorem of_getElem (h : ∀ k (hk : k < l.length), P (l.take k) l[k]) : Throughout P l := by
  rintro before a after rfl
  have hplace := h before.length (by simp)
  simpa using hplace

theorem getElem? (h : Throughout P l) {k : Nat} {a : α} (ha : l[k]? = some a) : P (l.take k) a := by
  obtain ⟨hk, rfl⟩ := List.getElem?_eq_some_iff.1 ha
  exact h _ _ (l.drop (k + 1)) (by simp)

end Throughout

/-! ## Runs -/

namespace Machine

variable {σ ι ω : Type} (m : Machine σ ι ω)

def transition (s : σ) (i : ι) : Transition σ ι ω := ⟨s, i, (m.step i s).1, (m.step i s).2⟩

@[simp] theorem transition_pre (s : σ) (i : ι) : (m.transition s i).pre = s := rfl
@[simp] theorem transition_input (s : σ) (i : ι) : (m.transition s i).input = i := rfl
@[simp] theorem transition_output (s : σ) (i : ι) : (m.transition s i).output = (m.step i s).1 := rfl
@[simp] theorem transition_post (s : σ) (i : ι) : (m.transition s i).post = (m.step i s).2 := rfl

def runFrom (s : σ) : List ι → List (Transition σ ι ω)
  | [] => []
  | i :: is => m.transition s i :: runFrom (m.step i s).2 is

def finalFrom (s : σ) : List ι → σ
  | [] => s
  | i :: is => finalFrom (m.step i s).2 is

/-- The run on a list of inputs. -/
def run (is : List ι) : List (Transition σ ι ω) := m.runFrom m.init is

/-- The state after a list of inputs. -/
def final (is : List ι) : σ := m.finalFrom m.init is

@[simp] theorem run_nil : m.run [] = [] := rfl
@[simp] theorem final_nil : m.final [] = m.init := rfl

theorem runFrom_append (s : σ) (is js : List ι) :
    m.runFrom s (is ++ js) = m.runFrom s is ++ m.runFrom (m.finalFrom s is) js := by
  induction is generalizing s with
  | nil => rfl
  | cons i is ih => simp only [List.cons_append, runFrom, finalFrom, ih]

theorem finalFrom_append (s : σ) (is js : List ι) :
    m.finalFrom s (is ++ js) = m.finalFrom (m.finalFrom s is) js := by
  induction is generalizing s with
  | nil => rfl
  | cons i is ih => simp only [List.cons_append, finalFrom, ih]

theorem run_concat (is : List ι) (i : ι) :
    m.run (is ++ [i]) = m.run is ++ [m.transition (m.final is) i] := m.runFrom_append m.init is [i]

theorem final_concat (is : List ι) (i : ι) : m.final (is ++ [i]) = (m.step i (m.final is)).2 :=
  m.finalFrom_append m.init is [i]

variable {m} {G : Transition σ ι ω → Prop}

theorem mem_runFrom {s : σ} {is : List ι} {t : Transition σ ι ω} (h : t ∈ m.runFrom s is) :
    ∃ s i, t = m.transition s i := by
  induction is generalizing s with
  | nil => cases h
  | cons i is ih =>
    rcases List.mem_cons.1 h with rfl | h
    · exact ⟨s, i, rfl⟩
    · exact ih h

theorem forall_mem_runFrom_cons {P : Transition σ ι ω → Prop} {s : σ} {i : ι} {is : List ι} :
    (∀ t ∈ m.runFrom s (i :: is), P t) ↔ P (m.transition s i) ∧ ∀ t ∈ m.runFrom (m.step i s).2 is, P t :=
  List.forall_mem_cons

theorem input_mem_runFrom {s : σ} {is : List ι} {t : Transition σ ι ω} (h : t ∈ m.runFrom s is) :
    t.input ∈ is := by
  induction is generalizing s with
  | nil => cases h
  | cons i is ih =>
    rcases List.mem_cons.1 h with rfl | h
    · exact List.mem_cons_self ..
    · exact List.mem_cons_of_mem _ (ih h)

theorem input_mem {is : List ι} {t : Transition σ ι ω} (h : t ∈ m.run is) : t.input ∈ is :=
  input_mem_runFrom h

theorem mem_run {is : List ι} {t : Transition σ ι ω} (h : t ∈ m.run is) : ∃ s i, t = m.transition s i :=
  mem_runFrom h

theorem map_input_runFrom (s : σ) (is : List ι) : (m.runFrom s is).map Transition.input = is := by
  induction is generalizing s with
  | nil => rfl
  | cons i is ih => exact congrArg (i :: ·) (ih _)

/-- What relates the inputs in their order relates the transitions. -/
theorem pairwise_run {R : ι → ι → Prop} {is : List ι} (h : is.Pairwise R) :
    (m.run is).Pairwise fun t u => R t.input u.input := by
  rw [← List.pairwise_map, show (m.run is).map Transition.input = is from map_input_runFrom ..]
  exact h

/-- What holds of the empty history and is kept by every transition that meets
the guard holds of every run whose transitions meet it. -/
theorem history_rule {P : List (Transition σ ι ω) → σ → Prop} (init : P [] m.init)
    (step : ∀ h s i, P h s → G (m.transition s i) → P (h ++ [m.transition s i]) (m.step i s).2)
    (is : List ι) (hG : ∀ t ∈ m.run is, G t) : P (m.run is) (m.final is) := by
  induction is using List.reverseRecOn with
  | nil => exact init
  | append_singleton is i ih =>
    rw [run_concat] at hG ⊢
    rw [final_concat]
    exact step _ _ _ (ih fun t ht => hG t (List.mem_append_left _ ht)) (hG _ (by simp))

/-- The rule before every transition of a run: what is kept holds of the history
up to it and the state it starts from. -/
theorem history_rule_at {P : List (Transition σ ι ω) → σ → Prop} (init : P [] m.init)
    (step : ∀ h s i, P h s → G (m.transition s i) → P (h ++ [m.transition s i]) (m.step i s).2)
    (is : List ι) (hG : ∀ t ∈ m.run is, G t) :
    ∀ before t after, m.run is = before ++ t :: after → ∃ s i, t = m.transition s i ∧ P before s := by
  refine (history_rule (P := fun h s => P h s ∧
    Throughout (fun before t => ∃ s i, t = m.transition s i ∧ P before s) h)
    ⟨init, .nil⟩ ?_ is hG).2
  intro h s i hp hg
  exact ⟨step h s i hp.1 hg, hp.2.concat ⟨s, i, rfl, hp.1⟩⟩

theorem invariant {I : σ → Prop} (init : I m.init)
    (step : ∀ s i, I s → G (m.transition s i) → I (m.step i s).2)
    (is : List ι) (hG : ∀ t ∈ m.run is, G t) : I (m.final is) :=
  history_rule (P := fun _ s => I s) init (fun _ s i h hg => step s i h hg) is hG

/-- An invariant holds before every transition of a run. -/
theorem invariant_run {I : σ → Prop} (init : I m.init)
    (step : ∀ s i, I s → G (m.transition s i) → I (m.step i s).2)
    (is : List ι) (hG : ∀ t ∈ m.run is, G t) : ∀ t ∈ m.run is, ∃ s i, t = m.transition s i ∧ I s := by
  intro t ht
  obtain ⟨before, after, heq⟩ := List.append_of_mem ht
  exact history_rule_at (P := fun _ s => I s) init (fun _ s i h hg => step s i h hg) is hG before t after heq

/-- If a property of a transition, given those before it, holds exactly when the
guard is met, and the guard keeps what that rests on, then the property holds
throughout a run exactly when the guard is met throughout it. -/
theorem throughout_iff {P H : List (Transition σ ι ω) → Transition σ ι ω → Prop}
    {I : List (Transition σ ι ω) → σ → Prop} (init : I [] m.init)
    (step : ∀ h s i, I h s → G (m.transition s i) → (P h (m.transition s i) ↔ H h (m.transition s i)) ∧
      (H h (m.transition s i) → I (h ++ [m.transition s i]) (m.step i s).2))
    (is : List ι) (hG : ∀ t ∈ m.run is, G t) : Throughout P (m.run is) ↔ Throughout H (m.run is) := by
  suffices hrun : (Throughout P (m.run is) ↔ Throughout H (m.run is)) ∧
      (Throughout H (m.run is) → I (m.run is) (m.final is)) from hrun.1
  induction is using List.reverseRecOn with
  | nil => exact ⟨iff_of_true .nil .nil, fun _ => init⟩
  | append_singleton is i ih =>
    rw [run_concat] at hG ⊢
    rw [final_concat]
    obtain ⟨hiff, hkept⟩ := ih fun t ht => hG t (List.mem_append_left _ ht)
    have hstep (h : Throughout H (m.run is)) := step _ _ i (hkept h) (hG _ (by simp))
    rw [Throughout.concat_iff, Throughout.concat_iff, hiff]
    exact ⟨and_congr_right fun h => (hstep h).1, fun h => (hstep h.1).2 h.2⟩

/-! ## A component -/

section Component

variable {σ' ι' ω' : Type} {m' : Machine σ' ι' ω'} {view : σ → σ'} {call : Transition σ ι ω → Option ι'}

/-- If each transition moves a component by one step of its own or not at all,
then the component goes through a run of its own, on the calls it got. -/
theorem component (init : view m.init = m'.init)
    (step : ∀ s i, view (m.step i s).2 =
      ((call (m.transition s i)).map fun i' => (m'.step i' (view s)).2).getD (view s)) (is : List ι) :
    m'.final ((m.run is).filterMap call) = view (m.final is) ∧
      m'.run ((m.run is).filterMap call) =
        (m.run is).filterMap fun t => (call t).map (m'.transition (view t.pre)) := by
  induction is using List.reverseRecOn with
  | nil => exact ⟨init.symm, rfl⟩
  | append_singleton is i ih =>
    have hstep := step (m.final is) i
    rw [run_concat, final_concat, List.filterMap_append, List.filterMap_append, hstep]
    cases hcall : call (m.transition (m.final is) i) with
    | none => simpa [hcall] using ih
    | some i' =>
      rw [List.filterMap_cons_some hcall, List.filterMap_cons_some (by rw [hcall]; rfl), List.filterMap_nil,
        List.filterMap_nil, final_concat, run_concat, ih.1, ih.2]
      exact ⟨rfl, rfl⟩

end Component

/-! ## Two machines -/

/-- The answers of a run. -/
def answersFrom (m : Machine σ ι ω) (s : σ) (is : List ι) : List ω := (m.runFrom s is).map Transition.output

theorem answersFrom_cons (s : σ) (i : ι) (is : List ι) :
    m.answersFrom s (i :: is) = (m.step i s).1 :: m.answersFrom (m.step i s).2 is := rfl

section Lockstep

variable {σ' ω' : Type} {m' : Machine σ' ι ω'} {R : σ → σ' → Prop} {A : ω → ω' → Prop}
  {H : Transition σ ι ω → Prop}

/-- The runs of two machines from related states answer alike exactly when the
transitions of the first meet the guard; and then they end in related states. -/
theorem lockstep
    (alike : ∀ s s' i, R s s' → H (m.transition s i) →
      (A (m.step i s).1 (m'.step i s').1 ↔ G (m.transition s i)))
    (kept : ∀ s s' i, R s s' → H (m.transition s i) → G (m.transition s i) → R (m.step i s).2 (m'.step i s').2)
    (is : List ι) {s : σ} {s' : σ'} (h : R s s') (hH : ∀ t ∈ m.runFrom s is, H t) :
    (List.Forall₂ A (m.answersFrom s is) (m'.answersFrom s' is) ↔ ∀ t ∈ m.runFrom s is, G t) ∧
      ((∀ t ∈ m.runFrom s is, G t) → R (m.finalFrom s is) (m'.finalFrom s' is)) := by
  induction is generalizing s s' with
  | nil => exact ⟨⟨fun _ _ ht => (List.not_mem_nil ht).elim, fun _ => .nil⟩, fun _ => h⟩
  | cons i is ih =>
    have hfirst : H (m.transition s i) := hH _ (List.mem_cons_self ..)
    have hrest : R (m.step i s).2 (m'.step i s').2 → _ := fun hR => ih hR fun t ht => hH t (List.mem_cons_of_mem _ ht)
    rw [answersFrom_cons, answersFrom_cons, List.forall₂_cons, alike s s' i h hfirst]
    simp only [runFrom, finalFrom, List.forall_mem_cons]
    constructor
    · refine and_congr_right fun hg => ?_
      exact (hrest (kept s s' i h hfirst hg)).1
    · intro hg
      exact (hrest (kept s s' i h hfirst hg.1)).2 hg.2

end Lockstep

/-! ## Inputs that cannot be seen -/

section Unseen

variable {R : σ → σ → Prop} (seen : ι → Bool)

/-- If a seen input is answered alike by related states and keeps them related,
and any other input leaves a state related to what it was related to, then the
seen inputs of a run that meets the guard are answered as if there were no others. -/
theorem unseen_of
    (alike : ∀ s s' i, R s s' → G (m.transition s i) → seen i = true →
      (m.step i s).1 = (m.step i s').1 ∧ R (m.step i s).2 (m.step i s').2)
    (skipped : ∀ s s' i, R s s' → seen i = false → R (m.step i s).2 s')
    (is : List ι) {s s' : σ} (h : R s s') (hG : ∀ t ∈ m.runFrom s is, G t) :
    ((m.runFrom s is).filter fun t => seen t.input).map Transition.output = m.answersFrom s' (is.filter seen) ∧
      R (m.finalFrom s is) (m.finalFrom s' (is.filter seen)) := by
  induction is generalizing s s' with
  | nil => exact ⟨rfl, h⟩
  | cons i is ih =>
    obtain ⟨hguard, hguards⟩ := forall_mem_runFrom_cons.1 hG
    cases hi : seen i with
    | true =>
      obtain ⟨hanswer, hR⟩ := alike s s' i h hguard hi
      obtain ⟨hanswers, hfinal⟩ := ih hR hguards
      rw [runFrom, List.filter_cons_of_pos (by exact hi), List.filter_cons_of_pos hi, List.map_cons, answersFrom_cons,
        hanswers]
      exact ⟨congrArg (· :: _) hanswer, hfinal⟩
    | false =>
      rw [runFrom, List.filter_cons_of_neg (by simp [hi]), List.filter_cons_of_neg (by simp [hi])]
      exact ih (skipped s s' i h hi) hguards

/-- The rule where every transition will do. -/
theorem unseen
    (alike : ∀ s s' i, R s s' → seen i = true →
      (m.step i s).1 = (m.step i s').1 ∧ R (m.step i s).2 (m.step i s').2)
    (skipped : ∀ s s' i, R s s' → seen i = false → R (m.step i s).2 s')
    (is : List ι) {s s' : σ} (h : R s s') :
    ((m.runFrom s is).filter fun t => seen t.input).map Transition.output = m.answersFrom s' (is.filter seen) ∧
      R (m.finalFrom s is) (m.finalFrom s' (is.filter seen)) :=
  unseen_of (G := fun _ => True) seen (fun s s' i h _ hi => alike s s' i h hi) skipped is h fun _ _ => trivial

end Unseen

/-! ## Inputs that look alike -/

section Blind

variable {α : Type} {R : σ → σ → Prop} (blank : ι → ι) (view : ω → α)

/-- If related states answer an input and its blank alike, as far as a view
shows, and stay related, then so do runs of inputs and of their blanks. -/
theorem blind (step : ∀ s s' i, R s s' →
      view (m.step i s).1 = view (m.step (blank i) s').1 ∧ R (m.step i s).2 (m.step (blank i) s').2)
    (is : List ι) {s s' : σ} (h : R s s') :
    (m.answersFrom s is).map view = (m.answersFrom s' (is.map blank)).map view := by
  induction is generalizing s s' with
  | nil => rfl
  | cons i is ih =>
    obtain ⟨hview, hR⟩ := step s s' i h
    rw [List.map_cons, answersFrom_cons, answersFrom_cons, List.map_cons, List.map_cons, hview, ih hR]

end Blind

end Machine

end AgentPlatform
