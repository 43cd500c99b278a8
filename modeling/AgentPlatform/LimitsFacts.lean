/-
What the two limiters answer over a run of calls: the window of the limiter in
memory, the seconds a refused caller is told to wait, and that callers do not
see each other.

A check is the rate rule and then the budget rule, so what it answers about the
rate is what the rate rule gives (`refusedByRate_check`, `passedRate_check`).
-/
import AgentPlatform.Limits
import AgentPlatform.SlidingWindow
import Mathlib.Tactic.Linarith
import Mathlib.Tactic.NormNum

namespace AgentPlatform

namespace Limits

open SlidingWindow

/-! ## What an answer says about the rate -/

/-- A refusal by the rate rule, with the seconds to wait. -/
def Answer.refusedByRate (rpm : Int) : Answer → Option Int
  | .decided d => if d = rateRefusal rpm d.retryAfter then some d.retryAfter else none
  | _ => none

/-- A check that went on to the budget rule. -/
def Answer.passedRate (rpm : Int) : Answer → Bool
  | .decided d => decide (d ≠ rateRefusal rpm d.retryAfter)
  | _ => false

def Answer.allowed : Answer → Bool
  | .decided d => d.allowed
  | _ => false

theorem budgetRefusal_ne_rateRefusal (rpm n tpd : Int) : budgetRefusal tpd ≠ rateRefusal rpm n := by
  intro h
  have hreason : (budgetRefusal tpd).reason.toList.head? = (rateRefusal rpm n).reason.toList.head? := by rw [h]
  have hfirst : (toString "daily token budget reached (").toList.head? = some 'd' := by decide
  have hfirst' : (toString "rate limit reached (").toList.head? = some 'r' := by decide
  simp only [rateRefusal, budgetRefusal, String.toList_append, List.head?_append, hfirst, hfirst'] at hreason
  simp at hreason

theorem Answer.passedRate_of_allowed {rpm : Int} {a : Answer} (h : a.allowed = true) : a.passedRate rpm = true := by
  cases a with
  | decided d =>
    refine decide_eq_true fun heq => ?_
    have hallowed : d.allowed = true := h
    rw [heq] at hallowed
    cases hallowed
  | charged | used _ | raised _ => cases h

@[simp] theorem passedRate_raised (rpm : Int) (e : Exn) : (Answer.raised e).passedRate rpm = false := rfl

@[simp] theorem refusedByRate_rateRefusal (rpm n : Int) :
    (Answer.decided (rateRefusal rpm n)).refusedByRate rpm = some n := if_pos rfl

@[simp] theorem passedRate_rateRefusal (rpm n : Int) :
    (Answer.decided (rateRefusal rpm n)).passedRate rpm = false := decide_eq_false (not_not.2 rfl)

@[simp] theorem refusedByRate_budgetRefusal (rpm tpd : Int) :
    (Answer.decided (budgetRefusal tpd)).refusedByRate rpm = none := by
  simp [Answer.refusedByRate, budgetRefusal_ne_rateRefusal]

@[simp] theorem passedRate_budgetRefusal (rpm tpd : Int) :
    (Answer.decided (budgetRefusal tpd)).passedRate rpm = true := by
  simp [Answer.passedRate, budgetRefusal_ne_rateRefusal]

@[simp] theorem refusedByRate_allowed (rpm : Int) :
    (Answer.decided { allowed := true }).refusedByRate rpm = none := by
  simp [Answer.refusedByRate, rateRefusal]

@[simp] theorem passedRate_allowed (rpm : Int) : (Answer.decided { allowed := true }).passedRate rpm = true := by
  simp [Answer.passedRate, rateRefusal]

/-! ## The rate rule in memory -/

namespace Limiter

variable {rpm tpd : Int} {caller : String} {now : ℚ} {s : Limiter}

/-- The times kept for a caller. -/
def queue (caller : String) (s : Limiter) : List ℚ := (s.requests.get? caller).getD []

/-- What is left of them at a check. -/
def evicted (caller : String) (now : ℚ) (s : Limiter) : List ℚ :=
  (queue caller s).dropWhile fun x => decide (x < now - 60)

theorem rate_passed (hrpm : 1 ≤ rpm) (h : (evicted caller now s).length < rpm) :
    rate rpm caller now s =
      (.ok none, { s with requests := s.requests.insert caller (evicted caller now s ++ [now]) }) := by
  have hne : rpm ≠ 0 := by omega
  rw [rate, if_neg hne]
  exact if_neg (not_le.2 h)

theorem rate_refused (hrpm : 1 ≤ rpm) (h : rpm ≤ (evicted caller now s).length) :
    ∃ oldest rest, evicted caller now s = oldest :: rest ∧ rate rpm caller now s =
      (.ok (some (rateRefusal rpm (max 1 (truncate (60 - (now - oldest)) + 1)))),
        { s with requests := s.requests.insert caller (evicted caller now s) }) := by
  have hne : rpm ≠ 0 := by omega
  cases hkept : evicted caller now s with
  | nil =>
    rw [hkept] at h
    simp at h
    omega
  | cons oldest rest =>
    have hwindow : ((s.requests.get? caller).getD []).dropWhile (fun x => decide (x < now - 60)) = oldest :: rest :=
      hkept
    rw [hkept] at h
    refine ⟨oldest, rest, rfl, ?_⟩
    simp only [rate, if_neg hne, hwindow, if_pos h]

/-! A check is the rate rule, and the budget rule where that lets it pass. -/

theorem check_of_raised {e : Exn} (h : (rate rpm caller now s).1 = .error e) :
    check rpm tpd caller now s = (.error e, (rate rpm caller now s).2) := by
  have hrate : rate rpm caller now s = (.error e, (rate rpm caller now s).2) := Prod.ext h rfl
  rw [check, hrate]

variable (tpd) in
theorem check_of_refused {d : Decision} (h : (rate rpm caller now s).1 = .ok (some d)) :
    check rpm tpd caller now s = (.ok d, (rate rpm caller now s).2) := by
  have hrate : rate rpm caller now s = (.ok (some d), (rate rpm caller now s).2) := Prod.ext h rfl
  rw [check, hrate]

theorem rate_tokens (rpm : Int) (caller : String) (now : ℚ) (s : Limiter) :
    (rate rpm caller now s).2.tokens = s.tokens := by
  unfold rate
  split
  · rfl
  · dsimp only
    split
    · split <;> rfl
    · rfl

variable (tpd) in
theorem check_of_passed (h : (rate rpm caller now s).1 = .ok none) :
    check rpm tpd caller now s =
      (if tpd ≠ 0 ∧ tpd ≤ usedOn caller (dayOf now) s then .ok (budgetRefusal tpd) else .ok { allowed := true },
        (rate rpm caller now s).2) := by
  have hrate : rate rpm caller now s = (.ok none, (rate rpm caller now s).2) := Prod.ext h rfl
  have hused : usedOn caller (dayOf now) (rate rpm caller now s).2 = usedOn caller (dayOf now) s := by
    rw [usedOn, usedOn, rate_tokens]
  rw [check, hrate]
  dsimp only
  rw [hused]
  split <;> rfl

theorem check_post (rpm tpd : Int) (caller : String) (now : ℚ) (s : Limiter) :
    (check rpm tpd caller now s).2 = (rate rpm caller now s).2 := by
  cases h : (rate rpm caller now s).1 with
  | error e => rw [check_of_raised h]
  | ok d =>
    cases d with
    | none => rw [check_of_passed tpd h]
    | some d => rw [check_of_refused tpd h]

end Limiter

/-! ## Runs -/

def Call.isCheckBy (caller : String) : Call → Bool
  | .check c _ => decide (c = caller)
  | _ => false

section Runs

variable {σ : Type}

/-- When a caller's checks were made, of those answered as `p` says. -/
def checkTimes (p : Answer → Bool) (caller : String) (h : List (Transition σ Call Answer)) : List ℚ :=
  (h.filter fun t => t.input.isCheckBy caller && p t.output).map fun t => t.input.began

theorem checkTimes_concat (p : Answer → Bool) (caller : String) (h : List (Transition σ Call Answer))
    (t : Transition σ Call Answer) : checkTimes p caller (h ++ [t]) =
      checkTimes p caller h ++ if t.input.isCheckBy caller && p t.output then [t.input.began] else [] := by
  cases hp : t.input.isCheckBy caller && p t.output <;> simp [checkTimes, hp]

theorem checkTimes_sublist {p q : Answer → Bool} (hpq : ∀ a, p a = true → q a = true) (caller : String)
    (h : List (Transition σ Call Answer)) : (checkTimes p caller h).Sublist (checkTimes q caller h) := by
  refine (List.monotone_filter_right h fun t ht => ?_).map _
  simp only [Bool.and_eq_true] at ht ⊢
  exact ⟨ht.1, hpq _ ht.2⟩

theorem timely_concat {calls : List Call} {c : Call} :
    Timely (calls ++ [c]) ↔ Timely calls ∧ c.began ≤ c.ended ∧ ∀ d ∈ calls, d.ended ≤ c.began := by
  simp only [Timely, List.forall_mem_append, List.forall_mem_singleton, List.pairwise_append,
    List.pairwise_singleton, true_and]
  tauto

theorem timely_run {calls : List Call} (htime : Timely calls) (m : Machine σ Call Answer) :
    Timely ((m.run calls).map Transition.input) := by
  rwa [show (m.run calls).map Transition.input = calls from Machine.map_input_runFrom ..]

theorem timely_before {before after : List (Transition σ Call Answer)} {t : Transition σ Call Answer}
    (h : Timely ((before ++ t :: after).map Transition.input)) :
    Timely (before.map Transition.input) ∧ ∀ u ∈ before, u.input.ended ≤ t.input.began := by
  have hsplit : (before ++ t :: after).map Transition.input =
      (before.map Transition.input ++ [t.input]) ++ after.map Transition.input := by simp
  rw [hsplit] at h
  have hfirst : Timely (before.map Transition.input ++ [t.input]) :=
    ⟨fun c hc => h.1 c (List.mem_append_left _ hc), (List.pairwise_append.1 h.2).1⟩
  obtain ⟨hbefore, -, hlater⟩ := timely_concat.1 hfirst
  exact ⟨hbefore, fun u hu => hlater _ (List.mem_map_of_mem hu)⟩

end Runs

/-! ## The window -/

namespace Limiter

variable {rpm tpd : Int}

/-- The times of the checks of a caller that passed the rate rule. -/
def passes (rpm : Int) (caller : String) (h : List (Transition Limiter Call Answer)) : List ℚ :=
  checkTimes (Answer.passedRate rpm) caller h

theorem passes_concat (rpm : Int) (caller : String) (h : List (Transition Limiter Call Answer))
    (t : Transition Limiter Call Answer) : passes rpm caller (h ++ [t]) =
      passes rpm caller h ++
        if t.input.isCheckBy caller && t.output.passedRate rpm then [t.input.began] else [] :=
  checkTimes_concat ..

/-- The queue kept for a caller against the checks that passed: within any window
that is still to come they have the same times. -/
structure Windowed (rpm : Int) (caller : String) (h : List (Transition Limiter Call Answer)) (q : List ℚ) : Prop where
  length : q.length ≤ rpm
  sorted : q.Pairwise (· ≤ ·)
  past : ∀ x ∈ q, ∃ t ∈ h, x ≤ t.input.ended
  passesSorted : (passes rpm caller h).Pairwise (· ≤ ·)
  passesPast : ∀ x ∈ passes rpm caller h, ∃ t ∈ h, x ≤ t.input.ended
  same : ∀ τ, (∀ t ∈ h, t.input.ended ≤ τ) → since (τ - 60) q = since (τ - 60) (passes rpm caller h)
  entered : Throughout (fun before a => ((within 60 a before).length : Int) < rpm) (passes rpm caller h)

theorem windowed_initial (hrpm : 1 ≤ rpm) (caller : String) : Windowed rpm caller [] [] := by
  refine ⟨?_, .nil, by simp, .nil, by simp [passes, checkTimes], fun _ _ => rfl, .nil⟩
  show ((0 : Nat) : Int) ≤ rpm
  omega

namespace Windowed

variable {caller : String} {h : List (Transition Limiter Call Answer)} {q : List ℚ} {now : ℚ}
  {t : Transition Limiter Call Answer}

/-- A call that is no check that passes adds nothing to the passes, and what of
the queue can still matter may stay. -/
theorem keep (hs : Windowed rpm caller h q) (ht : (t.input.isCheckBy caller && t.output.passedRate rpm) = false) :
    Windowed rpm caller (h ++ [t]) q ∧ Windowed rpm caller (h ++ [t]) (since (t.input.ended - 60) q) := by
  have hpasses : passes rpm caller (h ++ [t]) = passes rpm caller h := by simp [passes_concat, ht]
  have hpast {l : List ℚ} (hl : ∀ x ∈ l, ∃ u ∈ h, x ≤ u.input.ended) (x : ℚ) (hx : x ∈ l) :
      ∃ u ∈ h ++ [t], x ≤ u.input.ended := by
    obtain ⟨u, hu, hle⟩ := hl x hx
    exact ⟨u, List.mem_append_left _ hu, hle⟩
  have hsub : (since (t.input.ended - 60) q).Sublist q := List.filter_sublist
  refine ⟨⟨hs.length, hs.sorted, hpast hs.past, hpasses ▸ hs.passesSorted, hpasses ▸ hpast hs.passesPast,
    fun τ hτ => ?_, hpasses ▸ hs.entered⟩,
    ⟨?_, hs.sorted.sublist hsub, fun x hx => hpast hs.past x (hsub.subset hx), hpasses ▸ hs.passesSorted,
      hpasses ▸ hpast hs.passesPast, fun τ hτ => ?_, hpasses ▸ hs.entered⟩⟩
  · rw [hpasses]
    exact hs.same τ fun u hu => hτ u (List.mem_append_left _ hu)
  · exact le_trans (by exact_mod_cast hsub.length_le) hs.length
  · have hnow : t.input.ended ≤ τ := hτ t (by simp)
    rw [hpasses, since_since (by linarith)]
    exact hs.same τ fun u hu => hτ u (List.mem_append_left _ hu)

/-- At a check, what is left of the queue is the window that ends there. -/
theorem evicted_eq (hs : Windowed rpm caller h q) (hlater : ∀ u ∈ h, u.input.ended ≤ now) :
    q.dropWhile (fun x => decide (x < now - 60)) = within 60 now (passes rpm caller h) := by
  rw [dropWhile_eq_since hs.sorted, hs.same now hlater, within_eq_since]
  intro x hx
  obtain ⟨u, hu, hle⟩ := hs.passesPast x hx
  exact hle.trans (hlater u hu)

/-- A check that passes enters the queue and the passes. -/
theorem enter (hs : Windowed rpm caller h q) (ht : t.input = .check caller now)
    (hpassed : t.output.passedRate rpm = true) (hlater : ∀ u ∈ h, u.input.ended ≤ now)
    (hfree : ((q.dropWhile fun x => decide (x < now - 60)).length : Int) < rpm) :
    Windowed rpm caller (h ++ [t]) (q.dropWhile (fun x => decide (x < now - 60)) ++ [now]) := by
  have hpasses : passes rpm caller (h ++ [t]) = passes rpm caller h ++ [now] := by
    simp [passes_concat, ht, hpassed, Call.isCheckBy, Call.began]
  have hended : t.input.ended = now := by rw [ht]; rfl
  have hle {l : List ℚ} (hl : ∀ x ∈ l, ∃ u ∈ h, x ≤ u.input.ended) (x : ℚ) (hx : x ∈ l) : x ≤ now := by
    obtain ⟨u, hu, hle⟩ := hl x hx
    exact hle.trans (hlater u hu)
  have hpast {l : List ℚ} (hl : ∀ x ∈ l, ∃ u ∈ h, x ≤ u.input.ended) (x : ℚ) (hx : x ∈ l ++ [now]) :
      ∃ u ∈ h ++ [t], x ≤ u.input.ended := by
    have hx : x ≤ now := (List.mem_append.1 hx).elim (hle hl x) fun hx => (List.mem_singleton.1 hx).le
    exact ⟨t, by simp, hended ▸ hx⟩
  have hentered : ((within 60 now (passes rpm caller h)).length : Int) < rpm := hs.evicted_eq hlater ▸ hfree
  rw [dropWhile_eq_since hs.sorted] at hfree ⊢
  have hsub : (since (now - 60) q).Sublist q := List.filter_sublist
  have hkept : ∀ x ∈ since (now - 60) q, ∃ u ∈ h, x ≤ u.input.ended := fun x hx => hs.past x (hsub.subset hx)
  refine ⟨?_, ?_, hpast hkept, ?_, hpasses ▸ hpast hs.passesPast, fun τ hτ => ?_, ?_⟩
  · rw [List.length_append, List.length_singleton]
    push_cast
    omega
  · refine List.pairwise_append.2 ⟨hs.sorted.sublist hsub, List.pairwise_singleton .., fun x hx y hy => ?_⟩
    exact List.mem_singleton.1 hy ▸ hle hkept x hx
  · rw [hpasses]
    refine List.pairwise_append.2 ⟨hs.passesSorted, List.pairwise_singleton .., fun x hx y hy => ?_⟩
    exact List.mem_singleton.1 hy ▸ hle hs.passesPast x hx
  · have hnow : now ≤ τ := hended ▸ hτ t (by simp)
    rw [hpasses, since_concat, since_concat, since_since (by linarith)]
    rw [hs.same τ fun u hu => hτ u (List.mem_append_left _ hu)]
  · rw [hpasses]
    exact hs.entered.concat hentered

end Windowed

theorem rate_requests (rpm : Int) (caller : String) (now : ℚ) (s : Limiter) :
    (rate rpm caller now s).2 = s ∨
      ∃ q, (rate rpm caller now s).2 = { s with requests := s.requests.insert caller q } := by
  unfold rate
  split
  · exact .inl rfl
  · dsimp only
    split
    · split <;> exact .inr ⟨_, rfl⟩
    · exact .inr ⟨_, rfl⟩

theorem queue_rate_of_ne {caller other : String} (hne : caller ≠ other) (rpm : Int) (now : ℚ) (s : Limiter) :
    queue other (rate rpm caller now s).2 = queue other s := by
  rcases rate_requests rpm caller now s with heq | ⟨q, heq⟩
  · rw [heq]
  · rw [heq, queue, queue, Dict.get?_insert_ne _ _ hne]

theorem queue_charge (tpd : Int) (caller other : String) (tokens : Int) (now : ℚ) (s : Limiter) :
    queue other (charge tpd caller tokens now s) = queue other s := by
  unfold charge
  split <;> rfl

@[simp] theorem queue_insert (caller : String) (q : List ℚ) (s : Limiter) :
    queue caller { s with requests := s.requests.insert caller q } = q := by
  simp [queue]

/-- The seconds a refused caller is told to wait. -/
def wait (now oldest : ℚ) : Int := max 1 (truncate (60 - (now - oldest)) + 1)

/-- What a check of a caller answers about the rate, and the queue it leaves. -/
theorem check_cases (hrpm : 1 ≤ rpm) (tpd : Int) (caller : String) (now : ℚ) (s : Limiter) :
    let t := (limiter rpm tpd).transition s (.check caller now)
    (((evicted caller now s).length < rpm ∧ t.output.passedRate rpm = true ∧ t.output.refusedByRate rpm = none ∧
      queue caller t.post = evicted caller now s ++ [now]) ∨
    (∃ oldest rest, evicted caller now s = oldest :: rest ∧ rpm ≤ (evicted caller now s).length ∧
      t.output = .decided (rateRefusal rpm (wait now oldest)) ∧ queue caller t.post = evicted caller now s)) := by
  intro t
  have hpost : t.post = (rate rpm caller now s).2 := check_post ..
  rcases lt_or_ge ((evicted caller now s).length : Int) rpm with hfree | hfull
  · have hrate := rate_passed hrpm hfree
    have hcheck := check_of_passed tpd (congrArg Prod.fst hrate)
    have hout : t.output = .of .decided (check rpm tpd caller now s).1 := rfl
    rw [hcheck] at hout
    refine .inl ⟨hfree, ?_, ?_, ?_⟩
    · rw [hout]
      split <;> simp [Answer.of]
    · rw [hout]
      split <;> simp [Answer.of]
    · rw [hpost, hrate, queue_insert]
  · obtain ⟨oldest, rest, hkept, hrate⟩ := rate_refused hrpm hfull
    have hcheck := check_of_refused tpd (congrArg Prod.fst hrate)
    have hout : t.output = .of .decided (check rpm tpd caller now s).1 := rfl
    rw [hcheck] at hout
    refine .inr ⟨oldest, rest, hkept, hfull, hout, ?_⟩
    rw [hpost, hrate, queue_insert]

theorem windowed_step (hrpm : 1 ≤ rpm) {caller : String} {h : List (Transition Limiter Call Answer)} {s : Limiter}
    {c : Call} (hs : Windowed rpm caller h (queue caller s)) (hlater : ∀ u ∈ h, u.input.ended ≤ c.began) :
    Windowed rpm caller (h ++ [(limiter rpm tpd).transition s c])
      (queue caller ((limiter rpm tpd).transition s c).post) := by
  cases c with
  | charge other tokens now later =>
    have hqueue : queue caller ((limiter rpm tpd).transition s (.charge other tokens now later)).post =
        queue caller s :=
      queue_charge ..
    rw [hqueue]
    exact (hs.keep (by simp [Call.isCheckBy])).1
  | usedToday other now => exact (hs.keep (by simp [Call.isCheckBy])).1
  | check other now =>
    by_cases hne : other = caller
    · subst hne
      have hevicted := dropWhile_eq_since hs.sorted (now - 60)
      rcases check_cases hrpm tpd other now s with ⟨hfree, hpassed, -, hqueue⟩ | ⟨oldest, rest, -, -, hout, hqueue⟩
      · rw [hqueue]
        exact hs.enter rfl hpassed hlater hfree
      · rw [hqueue, evicted, hevicted]
        refine (hs.keep (t := (limiter rpm tpd).transition s (.check other now)) ?_).2
        rw [hout, passedRate_rateRefusal, Bool.and_false]
    · have hqueue : queue caller ((limiter rpm tpd).transition s (.check other now)).post = queue caller s := by
        rw [← queue_rate_of_ne hne rpm now s, ← check_post rpm tpd]
        rfl
      rw [hqueue]
      exact (hs.keep (by simp [Call.isCheckBy, hne])).1

/-! ### Callers apart -/

/-- Two states that keep the same of a caller. -/
def Alike (caller : String) (s s' : Limiter) : Prop :=
  s.requests.get? caller = s'.requests.get? caller ∧ s.tokens.get? caller = s'.tokens.get? caller

variable {caller : String} {now : ℚ} {s s' : Limiter}

theorem Alike.rate (h : Alike caller s s') (rpm : Int) (now : ℚ) :
    (rate rpm caller now s).1 = (rate rpm caller now s').1 ∧
      Alike caller (rate rpm caller now s).2 (rate rpm caller now s').2 := by
  obtain ⟨hrequests, htokens⟩ := h
  simp only [Limiter.rate, hrequests]
  by_cases hrpm : rpm = 0
  · simp only [if_pos hrpm]
    exact ⟨trivial, hrequests, htokens⟩
  simp only [if_neg hrpm]
  generalize ((s'.requests.get? caller).getD []).dropWhile (fun x => decide (x < now - 60)) = window
  by_cases hfull : rpm ≤ window.length
  · simp only [if_pos hfull]
    cases window <;> exact ⟨rfl, by simp, htokens⟩
  · simp only [if_neg hfull]
    exact ⟨trivial, by simp, htokens⟩

theorem Alike.usedOn (h : Alike caller s s') (day : Int) : usedOn caller day s = usedOn caller day s' := by
  rw [Limiter.usedOn, Limiter.usedOn, h.2]

theorem Alike.check (h : Alike caller s s') (rpm tpd : Int) (now : ℚ) :
    (check rpm tpd caller now s).1 = (check rpm tpd caller now s').1 ∧
      Alike caller (check rpm tpd caller now s).2 (check rpm tpd caller now s').2 := by
  obtain ⟨hanswer, hpost⟩ := h.rate rpm now
  refine ⟨?_, by rwa [check_post, check_post]⟩
  cases hrate : (Limiter.rate rpm caller now s).1 with
  | error e => rw [check_of_raised hrate, check_of_raised (hanswer ▸ hrate)]
  | ok d =>
    cases d with
    | some d => rw [check_of_refused tpd hrate, check_of_refused tpd (hanswer ▸ hrate)]
    | none => rw [check_of_passed tpd hrate, check_of_passed tpd (hanswer ▸ hrate), h.usedOn]

theorem Alike.charge (h : Alike caller s s') (tpd tokens : Int) (now : ℚ) :
    Alike caller (charge tpd caller tokens now s) (charge tpd caller tokens now s') := by
  unfold Limiter.charge
  split
  · exact h
  · exact ⟨h.1, by simp [h.2]⟩

theorem alike_step (rpm tpd : Int) {c : Call} (hc : c.caller = caller) (h : Alike caller s s') :
    ((limiter rpm tpd).step c s).1 = ((limiter rpm tpd).step c s').1 ∧
      Alike caller ((limiter rpm tpd).step c s).2 ((limiter rpm tpd).step c s').2 := by
  subst hc
  cases c with
  | check caller now =>
    obtain ⟨hanswer, hpost⟩ := h.check rpm tpd now
    exact ⟨congrArg (Answer.of .decided) hanswer, hpost⟩
  | charge caller tokens now later => exact ⟨rfl, h.charge tpd tokens now⟩
  | usedToday caller now => exact ⟨congrArg Answer.used (h.usedOn _), h⟩

/-- A call of another caller leaves what is kept of this one. -/
theorem alike_skip (rpm tpd : Int) {c : Call} (hc : c.caller ≠ caller) (h : Alike caller s s') :
    Alike caller ((limiter rpm tpd).step c s).2 s' := by
  cases c with
  | check other now =>
    have hpost : ((limiter rpm tpd).step (.check other now) s).2 = (Limiter.rate rpm other now s).2 := check_post ..
    rw [hpost]
    refine ⟨?_, by rw [rate_tokens]; exact h.2⟩
    rcases rate_requests rpm other now s with heq | ⟨q, heq⟩
    · rw [heq]
      exact h.1
    · have hne : other ≠ caller := hc
      rw [heq]
      exact (Dict.get?_insert_ne s.requests q hne).trans h.1
  | charge other tokens now later =>
    show Alike caller (Limiter.charge tpd other tokens now s) s'
    unfold Limiter.charge
    split
    · exact h
    · have hne : other ≠ caller := hc
      exact ⟨h.1, (Dict.get?_insert_ne s.tokens _ hne).trans h.2⟩
  | usedToday other now => exact h

end Limiter

/-- What is promised of a run of the limiter in memory. -/
structure TrueWindow (rpm tpd : Int) (calls : List Call) : Prop where
  passed : ∀ caller τ, ((within 60 τ (checkTimes (Answer.passedRate rpm) caller ((limiter rpm tpd).run calls))).length :
    Int) ≤ rpm
  admitted : ∀ caller τ, ((within 60 τ (checkTimes Answer.allowed caller ((limiter rpm tpd).run calls))).length :
    Int) ≤ rpm
  refused : Throughout (fun before t => ∀ caller now n, t.input = .check caller now →
      t.output.refusedByRate rpm = some n →
      ((within 60 now (checkTimes (Answer.passedRate rpm) caller before)).length : Int) = rpm)
    ((limiter rpm tpd).run calls)
  apart : ∀ caller, (((limiter rpm tpd).run calls).filter fun t => decide (t.input.caller = caller)).map
      Transition.output =
    ((limiter rpm tpd).run (calls.filter fun c => decide (c.caller = caller))).map Transition.output

/-- In a run of timely calls the queues hold what the windows need, before every call and at the end. -/
theorem windowed_run {rpm : Int} (hrpm : 1 ≤ rpm) (tpd : Int) {calls : List Call} (htime : Timely calls) :
    (∀ caller, Limiter.Windowed rpm caller ((limiter rpm tpd).run calls)
      (Limiter.queue caller ((limiter rpm tpd).final calls))) ∧
    ∀ before t after, (limiter rpm tpd).run calls = before ++ t :: after →
      ∃ s c, t = (limiter rpm tpd).transition s c ∧ (∀ u ∈ before, u.input.ended ≤ c.began) ∧
        ∀ caller, Limiter.Windowed rpm caller before (Limiter.queue caller s) := by
  have hinit : Timely (([] : List (Transition Limiter Call Answer)).map Transition.input) →
      ∀ caller, Limiter.Windowed rpm caller [] (Limiter.queue caller (limiter rpm tpd).init) :=
    fun _ => Limiter.windowed_initial hrpm
  have hstep : ∀ h s c,
      (Timely (h.map Transition.input) → ∀ caller, Limiter.Windowed rpm caller h (Limiter.queue caller s)) → True →
      Timely ((h ++ [(limiter rpm tpd).transition s c]).map Transition.input) →
      ∀ caller, Limiter.Windowed rpm caller (h ++ [(limiter rpm tpd).transition s c])
        (Limiter.queue caller ((limiter rpm tpd).step c s).2) := by
    intro h s c hs _ htimely caller
    obtain ⟨hbefore, hlater⟩ := timely_before htimely
    exact Limiter.windowed_step hrpm (hs hbefore caller) hlater
  refine ⟨Machine.history_rule (G := fun _ => True) hinit hstep calls (fun _ _ => trivial) (timely_run htime _), ?_⟩
  intro before t after heq
  obtain ⟨s, c, rfl, hs⟩ := Machine.history_rule_at (G := fun _ => True) hinit hstep calls (fun _ _ => trivial)
    before t after heq
  obtain ⟨hbefore, hlater⟩ := timely_before (heq ▸ timely_run htime (limiter rpm tpd))
  exact ⟨s, c, rfl, hlater, hs hbefore⟩

theorem limiter_true_window (rpm tpd : Int) (hrpm : 1 ≤ rpm) (calls : List Call) (htime : Timely calls) :
    TrueWindow rpm tpd calls := by
  obtain ⟨hfinal, hrun⟩ := windowed_run hrpm tpd htime
  have hpassed (caller : String) (τ : ℚ) : ((within 60 τ
      (checkTimes (Answer.passedRate rpm) caller ((limiter rpm tpd).run calls))).length : Int) ≤ rpm := by
    have hentered := (hfinal caller).entered
    obtain ⟨n, rfl⟩ := Int.eq_ofNat_of_zero_le (by omega : 0 ≤ rpm)
    simp only [Nat.cast_lt, Nat.cast_le] at hentered ⊢
    exact length_within_le (hfinal caller).passesSorted hentered τ
  refine ⟨hpassed, fun caller τ => ?_, ?_, fun caller => ?_⟩
  · have hsub := checkTimes_sublist (p := Answer.allowed) (q := Answer.passedRate rpm)
      (fun _ h => Answer.passedRate_of_allowed h) caller ((limiter rpm tpd).run calls)
    exact le_trans (by exact_mod_cast length_within_mono hsub) (hpassed caller τ)
  · intro before t after heq caller now n hcheck hrefused
    obtain ⟨s, c, rfl, hlater, hs⟩ := hrun before t after heq
    obtain rfl : c = .check caller now := hcheck
    have hs := hs caller
    have hevicted : Limiter.evicted caller now s = within 60 now (Limiter.passes rpm caller before) :=
      hs.evicted_eq hlater
    rcases Limiter.check_cases hrpm tpd caller now s with ⟨-, -, hnone, -⟩ | ⟨-, -, -, hfull, -, -⟩
    · rw [hnone] at hrefused
      cases hrefused
    -- The queue is full, and it never holds more than fit.
    · have hle : ((Limiter.evicted caller now s).length : Int) ≤ (Limiter.queue caller s).length :=
        by exact_mod_cast (List.dropWhile_sublist _).length_le
      have hlength := hs.length
      show ((within 60 now (Limiter.passes rpm caller before)).length : Int) = rpm
      rw [← hevicted]
      omega
  · exact (Machine.unseen (m := limiter rpm tpd) (R := Limiter.Alike caller) (fun c => decide (c.caller = caller))
      (fun s s' c h hc => Limiter.alike_step rpm tpd (of_decide_eq_true hc) h)
      (fun s s' c h hc => Limiter.alike_skip rpm tpd (of_decide_eq_false hc) h)
      calls ⟨rfl, rfl⟩).1

/-- Two requests a minute: the third within the minute is refused, the fourth, after it, is not. -/
def burst : List Call := [.check "agent" 100, .check "agent" 101, .check "agent" 102, .charge "agent" 40 102 102,
  .check "agent" 161]

theorem burst_timely : Timely burst := by
  simp [Timely, burst, Call.began, Call.ended]
  norm_num

theorem burst_true_window : TrueWindow 2 1000 burst := limiter_true_window 2 1000 (by decide) burst burst_timely

/-! ## The seconds to wait -/

section Retry

variable {σ : Type} {m : Machine σ Call Answer} {rpm : Int}

/-- A refusal by the rate rule gives at least a second to wait; and once they
are over the caller, if it made no check in between, is not refused. -/
structure HonestRetry (rpm : Int) (run : List (Transition σ Call Answer)) : Prop where
  positive : ∀ t ∈ run, ∀ n, t.output.refusedByRate rpm = some n → 1 ≤ n
  honest : ∀ before t between u after, run = before ++ t :: between ++ u :: after →
    ∀ (caller : String) (now : ℚ) (n : Int) (later : ℚ),
      t.input = .check caller now → t.output.refusedByRate rpm = some n →
      (∀ w ∈ between, w.input.isCheckBy caller = false) → u.input = .check caller later → now + n ≤ later →
      u.output.refusedByRate rpm = none

/-- Every caller that was refused and made no check since is ready from the time it was told. -/
def LeftReady (rpm : Int) (Ready : String → ℚ → σ → Prop) (h : List (Transition σ Call Answer)) (s : σ) : Prop :=
  ∀ before t between, h = before ++ t :: between → ∀ (caller : String) (now : ℚ) (n : Int),
    t.input = .check caller now → t.output.refusedByRate rpm = some n →
    (∀ w ∈ between, w.input.isCheckBy caller = false) → Ready caller (now + n) s

/-- A refusal leaves the caller ready from the time it was told. -/
def LeavesReady (rpm : Int) (Ready : String → ℚ → σ → Prop) (t : Transition σ Call Answer) : Prop :=
  ∀ (caller : String) (now : ℚ) (n : Int), t.input = .check caller now → t.output.refusedByRate rpm = some n →
    1 ≤ n ∧ Ready caller (now + n) t.post

theorem LeftReady.step {Ready : String → ℚ → σ → Prop} {h : List (Transition σ Call Answer)}
    {t : Transition σ Call Answer} (hs : LeftReady rpm Ready h t.pre)
    (kept : ∀ caller τ, t.input.isCheckBy caller = false → Ready caller τ t.pre → Ready caller τ t.post)
    (ht : LeavesReady rpm Ready t) : LeftReady rpm Ready (h ++ [t]) t.post := by
  intro before u between heq caller now n hcheck hrefused hbetween
  rcases List.eq_nil_or_concat between with rfl | ⟨between, w, rfl⟩
  · obtain ⟨-, hlast⟩ := List.append_inj' heq rfl
    obtain rfl : t = u := by simpa using hlast
    exact (ht caller now n hcheck hrefused).2
  · have hsplit : h ++ [t] = (before ++ u :: between) ++ [w] := by simpa using heq
    obtain ⟨hbefore, hlast⟩ := List.append_inj' hsplit rfl
    obtain rfl : t = w := by simpa using hlast
    exact kept caller _ (hbetween _ (by simp))
      (hs before u between hbefore caller now n hcheck hrefused fun w hw => hbetween w (by simp [hw]))

/-- If refusals leave the caller ready, calls that are no check of the caller
keep it ready, and a ready caller is not refused, then the refusals are honest. -/
theorem honestRetry_of (Ready : String → ℚ → σ → Prop)
    (kept : ∀ s c caller τ, c.isCheckBy caller = false → Ready caller τ s → Ready caller τ (m.step c s).2)
    (ready : ∀ s caller τ now, Ready caller τ s → τ ≤ now →
      (m.step (.check caller now) s).1.refusedByRate rpm = none)
    (checks : ∀ s c n, (m.step c s).1.refusedByRate rpm = some n → ∃ caller now, c = .check caller now)
    (calls : List Call) (leaves : ∀ t ∈ m.run calls, LeavesReady rpm Ready t) : HonestRetry rpm (m.run calls) := by
  constructor
  · intro t ht n hn
    obtain ⟨s, c, rfl⟩ := Machine.mem_run ht
    obtain ⟨caller, now, hcheck⟩ := checks s c n hn
    exact (leaves _ ht caller now n hcheck hn).1
  · intro before t between u after heq caller now n later hcheck hrefused hbetween hu hle
    obtain ⟨s, c, rfl, hs⟩ := Machine.history_rule_at (G := LeavesReady rpm Ready) (P := LeftReady rpm Ready)
      (by simp [LeftReady])
      (fun h s c hs ht => hs.step (t := m.transition s c) (fun caller τ hc hready => kept s c caller τ hc hready) ht)
      calls leaves (before ++ t :: between) u after heq
    obtain rfl : c = .check caller later := hu
    exact ready s caller (now + n) later (hs before t between rfl caller now n hcheck hrefused hbetween) hle

end Retry

theorem lt_truncate_add_one {x : ℚ} (h : 0 ≤ x) : x < truncate x + 1 := by
  rw [truncate, if_pos h]
  exact Int.lt_floor_add_one x

theorem minuteOf_mono {t u : ℚ} (h : t ≤ u) : minuteOf t ≤ minuteOf u :=
  Int.floor_mono (div_le_div_of_nonneg_right h (by norm_num))

namespace Limiter

variable {rpm : Int}

/-- From `τ` on, the caller's queue has room. -/
def Ready (rpm : Int) (caller : String) (τ : ℚ) (s : Limiter) : Prop :=
  ∀ now, τ ≤ now → ((evicted caller now s).length : Int) < rpm

theorem ready_kept (tpd : Int) {c : Call} {caller : String} {τ : ℚ} {s : Limiter}
    (hc : c.isCheckBy caller = false) (h : Ready rpm caller τ s) :
    Ready rpm caller τ ((limiter rpm tpd).step c s).2 := by
  have hqueue : queue caller ((limiter rpm tpd).step c s).2 = queue caller s := by
    cases c with
    | check other now =>
      have hne : other ≠ caller := of_decide_eq_false hc
      have hpost : ((limiter rpm tpd).step (.check other now) s).2 = (rate rpm other now s).2 := check_post ..
      rw [hpost, queue_rate_of_ne hne]
    | charge other tokens now later => exact queue_charge ..
    | usedToday other now => rfl
  intro now hnow
  rw [evicted, hqueue]
  exact h now hnow

/-- Once the seconds to wait are over, the oldest time of the queue is too old. -/
theorem oldest_lt {now oldest later : ℚ} (hold : now - 60 ≤ oldest) (hlater : now + (wait now oldest : Int) ≤ later) :
    oldest < later - 60 := by
  have hlt : 60 - (now - oldest) < truncate (60 - (now - oldest)) + 1 := lt_truncate_add_one (by linarith)
  have hwait : ((truncate (60 - (now - oldest)) + 1 : Int) : ℚ) ≤ (wait now oldest : Int) := by
    exact_mod_cast le_max_right ..
  push_cast at hwait
  linarith

theorem leavesReady {tpd : Int} (hrpm : 1 ≤ rpm) {s : Limiter} {c : Call}
    {h : List (Transition Limiter Call Answer)}
    (hs : ∀ caller, Windowed rpm caller h (queue caller s)) (hlater : ∀ u ∈ h, u.input.ended ≤ c.began) :
    LeavesReady rpm (Ready rpm) ((limiter rpm tpd).transition s c) := by
  intro caller now n hcheck hrefused
  obtain rfl : c = .check caller now := hcheck
  rcases check_cases hrpm tpd caller now s with ⟨-, -, hnone, -⟩ | ⟨oldest, rest, hkept, -, hout, hqueue⟩
  · rw [hnone] at hrefused
    cases hrefused
  rw [hout, refusedByRate_rateRefusal, Option.some.injEq] at hrefused
  subst hrefused
  refine ⟨le_max_left .., fun later hle => ?_⟩
  have hold : now - 60 ≤ oldest := by
    have hmem : oldest ∈ within 60 now (passes rpm caller h) := by
      have hevicted : evicted caller now s = within 60 now (passes rpm caller h) := (hs caller).evicted_eq hlater
      rw [← hevicted, hkept]
      exact List.mem_cons_self ..
    have hin := (List.mem_filter.1 hmem).2
    exact (of_decide_eq_true hin).1
  have hfit : ((oldest :: rest).length : Int) ≤ rpm := by
    rw [← hkept]
    exact le_trans (by exact_mod_cast (List.dropWhile_sublist _).length_le) (hs caller).length
  rw [evicted, hqueue, hkept, List.dropWhile_cons_of_pos (by simpa using oldest_lt hold hle)]
  have hrest : ((rest.dropWhile fun x => decide (x < later - 60)).length : Int) ≤ rest.length := by
    exact_mod_cast (List.dropWhile_sublist _).length_le
  rw [List.length_cons] at hfit
  push_cast at hfit
  omega

theorem ready_check (hrpm : 1 ≤ rpm) (tpd : Int) {caller : String} {τ now : ℚ} {s : Limiter}
    (h : Ready rpm caller τ s) (hnow : τ ≤ now) :
    ((limiter rpm tpd).step (.check caller now) s).1.refusedByRate rpm = none := by
  rcases check_cases hrpm tpd caller now s with ⟨-, -, hnone, -⟩ | ⟨-, -, -, hfull, -, -⟩
  · exact hnone
  · exact absurd (h now hnow) (not_lt.2 hfull)

end Limiter

theorem limiter_honestRetry {rpm : Int} (hrpm : 1 ≤ rpm) (tpd : Int) {calls : List Call} (htime : Timely calls) :
    HonestRetry rpm ((limiter rpm tpd).run calls) := by
  refine honestRetry_of (Limiter.Ready rpm) (fun s c caller τ => Limiter.ready_kept tpd)
    (fun s caller τ now => Limiter.ready_check hrpm tpd) (fun s c n hn => ?_) calls fun t ht => ?_
  · cases c with
    | check caller now => exact ⟨caller, now, rfl⟩
    | charge caller tokens now later => cases hn
    | usedToday caller now => cases hn
  · obtain ⟨before, after, heq⟩ := List.append_of_mem ht
    obtain ⟨s, c, rfl, hlater, hs⟩ := (windowed_run hrpm tpd htime).2 before t after heq
    exact Limiter.leavesReady hrpm hs hlater

end Limits

end AgentPlatform
