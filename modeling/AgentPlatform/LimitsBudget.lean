/-
The daily budget: what each limiter keeps of a caller's day is the sum of the
day's charges, and the budget rule refuses by that sum.

The limiter in memory keeps one day for a caller and forgets it at the next
charge of another day; the one in Postgres keeps a row a day and deletes old
ones. Both agree with the sum for every day that is not yet over (`Tallied`).
-/
import AgentPlatform.LimitsTables
import Mathlib.Algebra.Order.BigOperators.Group.List

namespace AgentPlatform

namespace Limits

/-- What a call charges to a caller's day. -/
def Call.spends (caller : String) (day : Int) : Call → Int
  | .charge c tokens now _ => if c = caller ∧ dayOf now = day ∧ 0 < tokens then tokens else 0
  | _ => 0

/-- The sum of the positive amounts charged to a caller on a day. -/
def spent (caller : String) (day : Int) (calls : List Call) : Int := (calls.map (Call.spends caller day)).sum

section Spent

variable {caller : String} {day : Int} {calls : List Call}

theorem spent_concat (calls : List Call) (c : Call) :
    spent caller day (calls ++ [c]) = spent caller day calls + c.spends caller day := by
  simp [spent]

theorem Call.spends_nonneg (caller : String) (day : Int) (c : Call) : 0 ≤ c.spends caller day := by
  cases c with
  | charge c tokens now later =>
    rw [spends]
    split
    next h => exact h.2.2.le
    next => rfl
  | check | usedToday => rfl

theorem spent_nonneg (caller : String) (day : Int) (calls : List Call) : 0 ≤ spent caller day calls :=
  List.sum_nonneg fun _ hx => by
    obtain ⟨c, -, rfl⟩ := List.mem_map.1 hx
    exact c.spends_nonneg caller day

/-- Nothing is spent on a day without calls. -/
theorem spent_eq_zero (h : ∀ c ∈ calls, dayOf c.began ≠ day) : spent caller day calls = 0 := by
  refine List.sum_eq_zero fun x hx => ?_
  obtain ⟨c, hc, rfl⟩ := List.mem_map.1 hx
  cases c with
  | charge other tokens now later =>
    have hday : dayOf now ≠ day := h _ hc
    simp [Call.spends, hday]
  | check | usedToday => rfl

end Spent

theorem dayOf_mono {t u : ℚ} (h : t ≤ u) : dayOf t ≤ dayOf u :=
  Int.floor_mono (div_le_div_of_nonneg_right h (by norm_num))

/-- What is promised of a call in a run. -/
structure Accounts {σ : Type} (rpm tpd : Int) (before : List (Transition σ Call Answer))
    (t : Transition σ Call Answer) : Prop where
  used : ∀ caller now, t.input = .usedToday caller now →
    t.output = .used (spent caller (dayOf now) (before.map Transition.input))
  budget : ∀ caller now, t.input = .check caller now →
    (t.output = .decided (budgetRefusal tpd) ↔ t.output.passedRate rpm = true ∧
      tpd ≤ spent caller (dayOf now) (before.map Transition.input))

theorem budgetRefusal_ne_allowed (tpd : Int) : budgetRefusal tpd ≠ { allowed := true } := by simp [budgetRefusal]

/-- A check that answers what the rate rule gives, and else by the budget,
refuses by the budget exactly when it passed the rate rule and the day is spent. -/
theorem refusedByBudget_iff {rpm tpd : Int} {out : Except Exn Decision} {rate : Except Exn (Option Decision)}
    {spentAll : Prop} (hraised : ∀ e, rate = .error e → out = .error e)
    (hrefused : ∀ d, rate = .ok (some d) → (∃ n, d = rateRefusal rpm n) ∧ out = .ok d)
    (hpassed : rate = .ok none → out = .ok (budgetRefusal tpd) ∧ spentAll ∨ out = .ok { allowed := true } ∧ ¬spentAll) :
    Answer.of .decided out = .decided (budgetRefusal tpd) ↔
      (Answer.of .decided out).passedRate rpm = true ∧ spentAll := by
  cases hrate : rate with
  | error e =>
    rw [hraised e hrate]
    simp [Answer.of]
  | ok d =>
    cases d with
    | some d =>
      obtain ⟨⟨n, rfl⟩, hout⟩ := hrefused d hrate
      rw [hout]
      simp [Answer.of, (budgetRefusal_ne_rateRefusal rpm n tpd).symm]
    | none =>
      rcases hpassed hrate with ⟨hout, hspent⟩ | ⟨hout, hspent⟩ <;> rw [hout]
      · simp [Answer.of, hspent]
      · simp [Answer.of, hspent, (budgetRefusal_ne_allowed tpd).symm]

/-! ## In memory -/

namespace Limiter

variable {rpm tpd : Int} {caller : String} {now : ℚ} {s : Limiter}

/-- For a day that is not over, what is kept of a caller is what was spent. -/
def Tallied (h : List (Transition Limiter Call Answer)) (s : Limiter) : Prop :=
  ∀ caller day, (∀ t ∈ h, dayOf t.input.ended ≤ day) →
    usedOn caller day s = spent caller day (h.map Transition.input)

theorem tallied_initial : Tallied [] initial := by
  intro caller day _
  show (if day = day then 0 else 0) = 0
  simp

theorem usedOn_charge (htpd : tpd ≠ 0) {tokens : Int} (htokens : 0 < tokens) (other : String) (day : Int) :
    usedOn caller day (charge tpd other tokens now s) =
      if other = caller then
        if dayOf now = day then usedOn caller day s + tokens else 0
      else usedOn caller day s := by
  have hskip : ¬(tpd = 0 ∨ tokens ≤ 0) := by omega
  rw [charge, if_neg hskip]
  dsimp only
  by_cases hcaller : other = caller
  · subst hcaller
    rw [if_pos rfl]
    by_cases hday : dayOf now = day
    · subst hday
      cases hpair : s.tokens.get? other with
      | none => simp [usedOn, hpair]
      | some pair => by_cases hsame : pair.1 = dayOf now <;> simp [usedOn, hpair, hsame]
    · simp [usedOn, hday]
  · simp [usedOn, hcaller, Dict.get?_insert_ne]

theorem Tallied.step (htpd : tpd ≠ 0) {h : List (Transition Limiter Call Answer)} (hs : Tallied h s) {c : Call}
    (htime : Timely (h.map Transition.input)) (hc : c.began ≤ c.ended) (hlater : ∀ u ∈ h, u.input.ended ≤ c.began) :
    Tallied (h ++ [(limiter rpm tpd).transition s c]) ((limiter rpm tpd).step c s).2 := by
  intro caller day hday
  have hbefore : ∀ t ∈ h, dayOf t.input.ended ≤ day := fun t ht => hday t (List.mem_append_left _ ht)
  have hlast : dayOf c.ended ≤ day := hday ((limiter rpm tpd).transition s c) (by simp)
  rw [List.map_append, List.map_singleton, spent_concat, Machine.transition_input, ← hs caller day hbefore]
  cases c with
  | check other now =>
    have hpost : ((limiter rpm tpd).step (.check other now) s).2 = (rate rpm other now s).2 := check_post ..
    rw [hpost]
    simp [usedOn, rate_tokens, Call.spends]
  | usedToday other now => exact (add_zero _).symm
  | charge other tokens now later =>
    show usedOn caller day (charge tpd other tokens now s) = _
    rw [Call.spends]
    by_cases htokens : 0 < tokens
    · rw [usedOn_charge htpd htokens]
      by_cases hcaller : other = caller
      · by_cases hnow : dayOf now = day
        · simp [hcaller, hnow, htokens]
        · -- The charge begins another day: nothing was spent on this one yet.
          have hnone : spent caller day (h.map Transition.input) = 0 := by
            refine spent_eq_zero fun d hd => ?_
            obtain ⟨u, hu, rfl⟩ := List.mem_map.1 hd
            have hle : u.input.began ≤ now := (htime.1 _ hd).trans (hlater u hu)
            have hnow' : dayOf now ≤ dayOf later := dayOf_mono hc
            have hlast : dayOf later ≤ day := hlast
            have := dayOf_mono hle
            omega
          simp [hcaller, hnow, hs caller day hbefore, hnone]
      · simp [hcaller]
    · have hskip : tpd = 0 ∨ tokens ≤ 0 := .inr (not_lt.1 htokens)
      simp [charge, hskip, htokens]

theorem refusal_of_rate {d : Decision} (h : (rate rpm caller now s).1 = .ok (some d)) :
    ∃ n, d = rateRefusal rpm n := by
  unfold rate at h
  split at h
  · cases h
  · dsimp only at h
    split at h
    · split at h
      · cases h
      · cases h
        exact ⟨_, rfl⟩
    · cases h

/-- The budget rule refuses by what is kept of the caller's day. -/
theorem budget_iff (htpd : tpd ≠ 0) (caller : String) (now : ℚ) (s : Limiter) :
    ((limiter rpm tpd).step (.check caller now) s).1 = .decided (budgetRefusal tpd) ↔
      ((limiter rpm tpd).step (.check caller now) s).1.passedRate rpm = true ∧ tpd ≤ usedOn caller (dayOf now) s := by
  have hstep : ((limiter rpm tpd).step (.check caller now) s).1 = .of .decided (check rpm tpd caller now s).1 := rfl
  rw [hstep]
  refine refusedByBudget_iff (fun e h => congrArg Prod.fst (check_of_raised h))
    (fun d h => ⟨refusal_of_rate h, congrArg Prod.fst (check_of_refused tpd h)⟩) fun h => ?_
  rw [check_of_passed tpd h]
  by_cases hused : tpd ≤ usedOn caller (dayOf now) s
  · exact .inl ⟨if_pos ⟨htpd, hused⟩, hused⟩
  · exact .inr ⟨if_neg fun h => hused h.2, hused⟩

end Limiter

theorem limiter_accounts {rpm tpd : Int} (htpd : 1 ≤ tpd) {calls : List Call} (htime : Timely calls) :
    Throughout (Accounts rpm tpd) ((limiter rpm tpd).run calls) := by
  intro before t after heq
  obtain ⟨s, c, rfl, hs⟩ := Machine.history_rule_at (G := fun t => t.input.began ≤ t.input.ended)
    (P := fun h s => Timely (h.map Transition.input) → Limiter.Tallied h s) (fun _ => Limiter.tallied_initial)
    (fun h s c hs hc htimely => by
      obtain ⟨hbefore, hlater⟩ := timely_before htimely
      exact (hs hbefore).step (by omega) hbefore hc hlater)
    calls (fun t ht => htime.1 _ (Machine.input_mem ht)) before t after heq
  obtain ⟨hbefore, hlater⟩ := timely_before (heq ▸ timely_run htime (limiter rpm tpd))
  have hs := hs hbefore
  have hday (u) (hu : u ∈ before) : dayOf u.input.ended ≤ dayOf c.began := dayOf_mono (hlater u hu)
  refine ⟨fun caller now hcall => ?_, fun caller now hcall => ?_⟩
  · obtain rfl : c = .usedToday caller now := hcall
    exact congrArg Answer.used (hs caller (dayOf now) hday)
  · obtain rfl : c = .check caller now := hcall
    rw [← hs caller (dayOf now) hday]
    exact Limiter.budget_iff (by omega) caller now s

/-! ## In Postgres -/

/-- What the columns can hold: callers that are stored as text, and sums of a day within `bigint`. -/
structure Holdable (calls : List Call) : Prop where
  callers : ∀ c ∈ calls, storable c.caller = true
  sums : ∀ caller day, spent caller day calls ≤ maxBigint

theorem holdable_append {calls more : List Call} (h : Holdable (calls ++ more)) : Holdable calls := by
  refine ⟨fun c hc => h.callers c (List.mem_append_left _ hc), fun caller day => ?_⟩
  have hsum := h.sums caller day
  rw [spent, List.map_append, List.sum_append] at hsum
  have hmore : 0 ≤ (more.map (Call.spends caller day)).sum := spent_nonneg caller day more
  show (calls.map (Call.spends caller day)).sum ≤ maxBigint
  omega

theorem holdable_concat {calls : List Call} {c : Call} (h : Holdable (calls ++ [c])) :
    Holdable calls ∧ storable c.caller = true ∧
      ∀ caller day, spent caller day calls + c.spends caller day ≤ maxBigint := by
  exact ⟨holdable_append h, h.callers c (by simp), fun caller day => spent_concat calls c ▸ h.sums caller day⟩

namespace PostgresLimiter

variable {rpm tpd : Int} {caller : String} {now : ℚ} {db : Tables}

/-- For a day that is not over, or that was the last to end, the row of a caller is what was spent. -/
def Tallied (h : List (Transition Tables Call Answer)) (db : Tables) : Prop :=
  ∀ caller day, (∀ t ∈ h, dayOf t.input.ended - 1 ≤ day) →
    db.spentOn caller day = spent caller day (h.map Transition.input)

theorem spentOn_charge (htpd : tpd ≠ 0) {other : String} {tokens : Int} {later : ℚ} (htokens : 0 < tokens)
    (hstorable : storable other = true) (hfits : tokens ≤ maxBigint)
    (htotal : db.spentOn other (dayOf now) + tokens ≤ maxBigint) {day : Int} (hday : dayOf now - 1 ≤ day) :
    (charge tpd other tokens now later db).2.spentOn caller day =
      db.spentOn caller day + if other = caller ∧ dayOf now = day then tokens else 0 := by
  have hskip : ¬(tpd = 0 ∨ tokens ≤ 0) := by omega
  simp only [charge, if_neg hskip, Tables.addTokens_ok hstorable hfits htotal]
  rw [Tables.spentOn, Tables.get?_deleteDaily, if_neg (not_lt.2 hday), Tables.deleteRate_daily, Dict.get?_insert]
  by_cases hkey : (other, dayOf now) = (caller, day)
  · obtain ⟨rfl, rfl⟩ := Prod.mk.inj hkey
    simp
  · have hne : ¬(other = caller ∧ dayOf now = day) := fun h => hkey (by rw [h.1, h.2])
    simp [hkey, hne, Tables.spentOn]

theorem Tallied.step (htpd : tpd ≠ 0) {h : List (Transition Tables Call Answer)} (hdb : Tallied h db) {c : Call}
    (hc : c.began ≤ c.ended) (hlater : ∀ u ∈ h, u.input.ended ≤ c.began)
    (hholds : Holdable (h.map Transition.input ++ [c])) :
    Tallied (h ++ [(postgresLimiter rpm tpd).transition db c]) ((postgresLimiter rpm tpd).step c db).2 := by
  intro caller day hday
  have hbefore : ∀ t ∈ h, dayOf t.input.ended - 1 ≤ day := fun t ht => hday t (List.mem_append_left _ ht)
  have hlast : dayOf c.ended - 1 ≤ day := hday ((postgresLimiter rpm tpd).transition db c) (by simp)
  rw [List.map_append, List.map_singleton, spent_concat, Machine.transition_input, ← hdb caller day hbefore]
  cases c with
  | check other now =>
    have hpost : ((postgresLimiter rpm tpd).step (.check other now) db).2 = (rate rpm other now db).2 := check_post ..
    rw [hpost]
    simp [Tables.spentOn, rate_daily, Call.spends]
  | usedToday other now => exact (add_zero _).symm
  | charge other tokens now later =>
    show (charge tpd other tokens now later db).2.spentOn caller day = _
    obtain ⟨-, hstorable, hsums⟩ := holdable_concat hholds
    have hstorable : storable other = true := hstorable
    by_cases htokens : 0 < tokens
    · have htoday : db.spentOn other (dayOf now) = spent other (dayOf now) (h.map Transition.input) := by
        refine hdb other (dayOf now) fun u hu => ?_
        have := dayOf_mono (hlater u hu)
        show dayOf u.input.ended - 1 ≤ dayOf now
        have : dayOf u.input.ended ≤ dayOf now := this
        omega
      have hsum : spent other (dayOf now) (h.map Transition.input) + tokens ≤ maxBigint := by
        have := hsums other (dayOf now)
        simpa [Call.spends, htokens] using this
      have hpos := spent_nonneg other (dayOf now) (h.map Transition.input)
      have hnow : dayOf now ≤ dayOf later := dayOf_mono hc
      have hlast : dayOf later - 1 ≤ day := hlast
      rw [spentOn_charge htpd htokens hstorable (by omega) (by omega) (by omega), Call.spends]
      simp [htokens]
    · have hskip : tpd = 0 ∨ tokens ≤ 0 := .inr (not_lt.1 htokens)
      simp [charge, hskip, Call.spends, htokens]

theorem refusal_of_rate {d : Decision} (h : (rate rpm caller now db).1 = .ok (some d)) :
    ∃ n, d = rateRefusal rpm n := by
  by_cases hrpm : rpm = 0
  · rw [rate, if_pos hrpm] at h
    cases h
  · rcases rate_cases hrpm caller now db with ⟨e, he⟩ | ⟨-, he⟩ | ⟨-, he⟩ <;> rw [he] at h <;> cases h
    exact ⟨_, rfl⟩

/-- The budget rule refuses by the row of the caller's day. -/
theorem budget_iff (htpd : 1 ≤ tpd) (hstorable : storable caller = true) (now : ℚ) (db : Tables) :
    ((postgresLimiter rpm tpd).step (.check caller now) db).1 = .decided (budgetRefusal tpd) ↔
      ((postgresLimiter rpm tpd).step (.check caller now) db).1.passedRate rpm = true ∧
        tpd ≤ db.spentOn caller (dayOf now) := by
  have hstep : ((postgresLimiter rpm tpd).step (.check caller now) db).1 =
      .of .decided (check rpm tpd caller now db).1 := rfl
  rw [hstep]
  refine refusedByBudget_iff (fun e h => congrArg Prod.fst (check_of_raised h))
    (fun d h => ⟨refusal_of_rate h, congrArg Prod.fst (check_of_refused h)⟩) fun h => ?_
  have hne : tpd ≠ 0 := by omega
  rw [check_of_passed h, budget, if_neg hne, Tables.selectTokens_ok hstorable, rate_daily, Tables.spentOn]
  cases hrow : db.daily.get? (caller, dayOf now) with
  | none => exact .inr ⟨rfl, not_le.2 htpd⟩
  | some tokens =>
    by_cases hused : tpd ≤ tokens
    · exact .inl ⟨if_pos hused, hused⟩
    · exact .inr ⟨if_neg hused, hused⟩

end PostgresLimiter

theorem postgresLimiter_accounts {rpm tpd : Int} (htpd : 1 ≤ tpd) {calls : List Call} (htime : Timely calls)
    (hholds : Holdable calls) : Throughout (Accounts rpm tpd) ((postgresLimiter rpm tpd).run calls) := by
  intro before t after heq
  obtain ⟨s, c, rfl, hs⟩ := Machine.history_rule_at (G := fun t => t.input.began ≤ t.input.ended)
    (P := fun h db => Timely (h.map Transition.input) → Holdable (h.map Transition.input) →
      PostgresLimiter.Tallied h db) (fun _ _ _ _ _ => rfl)
    (fun h db c hdb hc htimely hholds => by
      rw [List.map_append] at hholds
      obtain ⟨hbefore, hlater⟩ := timely_before htimely
      exact (hdb hbefore (holdable_concat hholds).1).step (by omega) hc hlater hholds)
    calls (fun t ht => htime.1 _ (Machine.input_mem ht)) before t after heq
  obtain ⟨hbefore, hlater⟩ := timely_before (heq ▸ timely_run htime (postgresLimiter rpm tpd))
  have hmap : ((postgresLimiter rpm tpd).run calls).map Transition.input = calls := Machine.map_input_runFrom ..
  rw [heq, List.map_append] at hmap
  have hdb := hs hbefore (holdable_append (hmap ▸ hholds))
  have hstorable : storable c.caller = true := hholds.callers c (hmap ▸ by simp)
  have hday (u) (hu : u ∈ before) : dayOf u.input.ended - 1 ≤ dayOf c.began := by
    have : dayOf u.input.ended ≤ dayOf c.began := dayOf_mono (hlater u hu)
    omega
  refine ⟨fun caller now hcall => ?_, fun caller now hcall => ?_⟩
  · obtain rfl : c = .usedToday caller now := hcall
    have hstorable : storable caller = true := hstorable
    show Answer.of .used (PostgresLimiter.usedToday caller now s) = _
    rw [PostgresLimiter.usedToday, Tables.selectTokens_ok hstorable, ← hdb caller (dayOf now) hday]
    rfl
  · obtain rfl : c = .check caller now := hcall
    rw [← hdb caller (dayOf now) hday]
    exact PostgresLimiter.budget_iff htpd hstorable now s

/-- On both limiters, for every budget and every timely list of calls. -/
theorem budget_accounts (rpm tpd : Int) (htpd : 1 ≤ tpd) (calls : List Call) (htime : Timely calls) :
    Throughout (Accounts rpm tpd) ((limiter rpm tpd).run calls) ∧
      (Holdable calls → Throughout (Accounts rpm tpd) ((postgresLimiter rpm tpd).run calls)) :=
  ⟨limiter_accounts htpd htime, postgresLimiter_accounts htpd htime⟩

/-- The day's budget of a hundred tokens is spent at the second charge; the next day
has a new one. -/
def spentDay : List Call :=
  [.check "agent" 100, .charge "agent" 60 100 101, .usedToday "agent" 102, .check "agent" 103,
    .charge "agent" 60 103 104, .usedToday "desk" 105, .check "agent" 170, .check "agent" 86400,
    .usedToday "agent" 86401]

theorem spentDay_timely : Timely spentDay := by
  simp [Timely, spentDay, Call.began, Call.ended]
  norm_num

theorem spentDay_holdable : Holdable spentDay := by
  refine ⟨by decide, fun caller day => ?_⟩
  have hle : spent caller day spentDay ≤ 120 := by
    simp only [spent, spentDay, List.map_cons, List.map_nil, Call.spends, List.sum_cons, List.sum_nil]
    split <;> split <;> omega
  exact hle.trans (by decide)

theorem spentDay_accounts :
    Throughout (Accounts 2 100) ((limiter 2 100).run spentDay) ∧
      Throughout (Accounts 2 100) ((postgresLimiter 2 100).run spentDay) :=
  (budget_accounts 2 100 (by decide) spentDay spentDay_timely).imp id fun h => h spentDay_holdable

example : ((limiter 2 100).run spentDay).map Transition.output =
    [.decided { allowed := true }, .charged, .used 60, .decided { allowed := true }, .charged, .used 0,
      .decided (budgetRefusal 100), .decided { allowed := true }, .used 0] := by decide +kernel

/-- A charge past `bigint`, which the database refuses, and a caller it cannot store. -/
theorem unholdable_differ :
    ¬ Throughout (Accounts 2 1000) ((postgresLimiter 2 1000).run [.charge "agent" (2 ^ 63) 0 0, .usedToday "agent" 0]) ∧
      ¬ Throughout (Accounts 2 1000)
        ((postgresLimiter 2 1000).run [.usedToday (String.singleton (Char.ofNat 0)) 0]) := by
  constructor
  · intro h
    have hused := (h [_] _ [] rfl).used "agent" 0 rfl
    exact absurd hused (by decide +kernel)
  · intro h
    have hused := (h [] _ [] rfl).used _ 0 rfl
    exact absurd hused (by decide)

end Limits

end AgentPlatform
