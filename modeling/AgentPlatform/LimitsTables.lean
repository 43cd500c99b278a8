/-
The statements of the limiter in Postgres, row by row, and the checks made of
them. With the limiter in memory, both tell a refused caller the truth about
when to come back (`retry_after_honest`).
-/
import AgentPlatform.LimitsFacts

namespace AgentPlatform

namespace Limits

/-! ## Statements -/

namespace Tables

variable {caller : String} {minute day tokens : Int} {db : Tables}

@[simp] theorem deleteRate_daily (minute : Int) (db : Tables) : (db.deleteRate minute).daily = db.daily := rfl

@[simp] theorem deleteDaily_rate (day : Int) (db : Tables) : (db.deleteDaily day).rate = db.rate := rfl

theorem get?_deleteRate (minute : Int) (db : Tables) (key : String × Int) :
    (db.deleteRate minute).rate.get? key = if key.2 < minute then none else db.rate.get? key := by
  rw [deleteRate, Dict.get?_filterMap]
  cases db.rate.get? key <;> by_cases h : key.2 < minute <;> simp [h]

theorem get?_deleteDaily (day : Int) (db : Tables) (key : String × Int) :
    (db.deleteDaily day).daily.get? key = if key.2 < day then none else db.daily.get? key := by
  rw [deleteDaily, Dict.get?_filterMap]
  cases db.daily.get? key <;> by_cases h : key.2 < day <;> simp [h]

/-- The count a request finds, with itself. -/
def nextCount (caller : String) (minute : Int) (db : Tables) : Int := (db.rate.get? (caller, minute)).getD 0 + 1

/-- A request is counted, or refused by the database, which then keeps its row. -/
theorem countRequest_cases (caller : String) (minute : Int) (db : Tables) :
    (∃ e, db.countRequest caller minute = (.error e, db)) ∨
      db.countRequest caller minute = (.ok (nextCount caller minute db),
        { db with rate := db.rate.insert (caller, minute) (nextCount caller minute db) }) := by
  cases hstorable : storable caller with
  | false => exact .inl ⟨noNul, by simp [countRequest, hstorable]⟩
  | true =>
    cases hrow : db.rate.get? (caller, minute) with
    | none => exact .inr (by simp [countRequest, nextCount, hstorable, hrow, maxInteger])
    | some n =>
      by_cases hbig : maxInteger < n + 1
      · exact .inl ⟨_, by simp [countRequest, hstorable, hrow, hbig]; rfl⟩
      · exact .inr (by simp [countRequest, nextCount, hstorable, hrow, hbig])

theorem selectTokens_ok (h : storable caller = true) (day : Int) (db : Tables) :
    db.selectTokens caller day = .ok (db.daily.get? (caller, day)) := by simp [selectTokens, h]

/-- The tokens of a caller's day. -/
def spentOn (caller : String) (day : Int) (db : Tables) : Int := (db.daily.get? (caller, day)).getD 0

/-- A charge that the columns can hold is added to the caller's day. -/
theorem addTokens_ok (hstorable : storable caller = true) (htokens : tokens ≤ maxBigint)
    (htotal : spentOn caller day db + tokens ≤ maxBigint) : db.addTokens caller day tokens =
      (.ok (), { db with daily := db.daily.insert (caller, day) (spentOn caller day db + tokens) }) := by
  cases hrow : db.daily.get? (caller, day) with
  | none => simp [addTokens, spentOn, hstorable, hrow, not_lt.2 htokens]
  | some n =>
    rw [spentOn, hrow, Option.getD_some] at htotal
    simp [addTokens, spentOn, hstorable, hrow, not_lt.2 htokens, not_lt.2 htotal]

theorem addTokens_cases (caller : String) (day tokens : Int) (db : Tables) :
    (∃ e, db.addTokens caller day tokens = (.error e, db)) ∨ ∃ total, db.addTokens caller day tokens =
      (.ok (), { db with daily := db.daily.insert (caller, day) total }) := by
  cases hstorable : storable caller with
  | false => exact .inl ⟨noNul, by simp [addTokens, hstorable]⟩
  | true =>
    cases hrow : db.daily.get? (caller, day) with
    | none =>
      by_cases hbig : maxBigint < tokens
      · exact .inl ⟨_, by simp [addTokens, hstorable, hrow, hbig]; rfl⟩
      · exact .inr ⟨tokens, by simp [addTokens, hstorable, hrow, hbig]⟩
    | some n =>
      by_cases hbig : maxBigint < tokens ∨ maxBigint < n + tokens
      · exact .inl ⟨_, by simp [addTokens, hstorable, hrow, if_pos hbig]; rfl⟩
      · exact .inr ⟨n + tokens, by simp [addTokens, hstorable, hrow, if_neg hbig]⟩

end Tables

/-! ## The methods -/

namespace PostgresLimiter

variable {rpm tpd : Int} {caller : String} {now : ℚ} {db : Tables}

/-- The seconds a refused caller is told to wait. -/
def wait (now : ℚ) : Int := max 1 (truncate (60 - secondOf now) + 1)

/-- The rate rule raises, counts a request it refuses, or counts one it lets pass. -/
theorem rate_cases (hrpm : rpm ≠ 0) (caller : String) (now : ℚ) (db : Tables) :
    (∃ e, rate rpm caller now db = (.error e, db)) ∨
    (rpm < db.nextCount caller (minuteOf now) ∧ rate rpm caller now db = (.ok (some (rateRefusal rpm (wait now))),
      { db with rate := db.rate.insert (caller, minuteOf now) (db.nextCount caller (minuteOf now)) })) ∨
    (db.nextCount caller (minuteOf now) ≤ rpm ∧ rate rpm caller now db = (.ok none,
      { db with rate := db.rate.insert (caller, minuteOf now) (db.nextCount caller (minuteOf now)) })) := by
  rcases db.countRequest_cases caller (minuteOf now) with ⟨e, he⟩ | hok
  · exact .inl ⟨e, by simp only [rate, if_neg hrpm, he]⟩
  · rcases lt_or_ge rpm (db.nextCount caller (minuteOf now)) with hlt | hle
    · exact .inr (.inl ⟨hlt, by simp only [rate, if_neg hrpm, hok, if_pos hlt]; rfl⟩)
    · exact .inr (.inr ⟨hle, by simp only [rate, if_neg hrpm, hok, if_neg (not_lt.2 hle)]⟩)

theorem rate_daily (rpm : Int) (caller : String) (now : ℚ) (db : Tables) :
    (rate rpm caller now db).2.daily = db.daily := by
  by_cases hrpm : rpm = 0
  · rw [rate, if_pos hrpm]
  · rcases rate_cases hrpm caller now db with ⟨e, he⟩ | ⟨-, he⟩ | ⟨-, he⟩ <;> rw [he]

theorem check_of_raised {e : Exn} (h : (rate rpm caller now db).1 = .error e) :
    check rpm tpd caller now db = (.error e, (rate rpm caller now db).2) := by
  have hrate : rate rpm caller now db = (.error e, (rate rpm caller now db).2) := Prod.ext h rfl
  rw [check, hrate]

theorem check_of_refused {d : Decision} (h : (rate rpm caller now db).1 = .ok (some d)) :
    check rpm tpd caller now db = (.ok d, (rate rpm caller now db).2) := by
  have hrate : rate rpm caller now db = (.ok (some d), (rate rpm caller now db).2) := Prod.ext h rfl
  rw [check, hrate]

theorem check_of_passed (h : (rate rpm caller now db).1 = .ok none) :
    check rpm tpd caller now db =
      (budget tpd caller now (rate rpm caller now db).2, (rate rpm caller now db).2) := by
  have hrate : rate rpm caller now db = (.ok none, (rate rpm caller now db).2) := Prod.ext h rfl
  rw [check, hrate]

theorem check_post (rpm tpd : Int) (caller : String) (now : ℚ) (db : Tables) :
    (check rpm tpd caller now db).2 = (rate rpm caller now db).2 := by
  cases h : (rate rpm caller now db).1 with
  | error e => rw [check_of_raised h]
  | ok d =>
    cases d with
    | none => rw [check_of_passed h]
    | some d => rw [check_of_refused h]

/-- What the budget rule answers is no refusal by the rate. -/
theorem budget_refusedByRate (rpm tpd : Int) (caller : String) (now : ℚ) (db : Tables) :
    (Answer.of .decided (budget tpd caller now db)).refusedByRate rpm = none := by
  unfold budget
  split
  · exact refusedByRate_allowed rpm
  · split
    · rfl
    · exact refusedByRate_allowed rpm
    · split
      · exact refusedByRate_budgetRefusal rpm tpd
      · exact refusedByRate_allowed rpm

/-- A check refused by the rate counted more than fit, and says how long the minute lasts. -/
theorem refused_cases (hrpm : rpm ≠ 0) {n : Int}
    (h : ((postgresLimiter rpm tpd).step (.check caller now) db).1.refusedByRate rpm = some n) :
    n = wait now ∧ rpm < db.nextCount caller (minuteOf now) := by
  have hstep : ((postgresLimiter rpm tpd).step (.check caller now) db).1 =
      .of .decided (check rpm tpd caller now db).1 := rfl
  rw [hstep] at h
  rcases rate_cases hrpm caller now db with ⟨e, he⟩ | ⟨hlt, he⟩ | ⟨-, he⟩
  · rw [check_of_raised (congrArg Prod.fst he)] at h
    cases h
  · rw [check_of_refused (congrArg Prod.fst he)] at h
    have hn : some (wait now) = some n := (refusedByRate_rateRefusal rpm (wait now)).symm.trans h
    exact ⟨(Option.some.inj hn).symm, hlt⟩
  · rw [check_of_passed (congrArg Prod.fst he), budget_refusedByRate] at h
    cases h

/-! ## The seconds to wait -/

/-- From `τ` on, no request of the caller is counted yet. -/
def Ready (caller : String) (τ : ℚ) (db : Tables) : Prop :=
  ∀ now, τ ≤ now → db.rate.get? (caller, minuteOf now) = none

theorem charge_cases (tpd : Int) (caller : String) (tokens : Int) (now later : ℚ) (db : Tables) :
    (charge tpd caller tokens now later db).2 = db ∨ ∃ total, charge tpd caller tokens now later db =
      (.ok (), (({ db with daily := db.daily.insert (caller, dayOf now) total } : Tables).deleteRate
        (minuteOf later)).deleteDaily (dayOf now - 1)) := by
  by_cases hskip : tpd = 0 ∨ tokens ≤ 0
  · exact .inl (by rw [charge, if_pos hskip])
  · rcases db.addTokens_cases caller (dayOf now) tokens with ⟨e, he⟩ | ⟨total, he⟩
    · exact .inl (by simp only [charge, if_neg hskip, he])
    · exact .inr ⟨total, by simp only [charge, if_neg hskip, he]⟩

/-- A charge takes rows of the rate away at most. -/
theorem get?_charge_rate (tpd : Int) (caller : String) (tokens : Int) (now later : ℚ) (db : Tables)
    {key : String × Int} {n : Int} (h : (charge tpd caller tokens now later db).2.rate.get? key = some n) :
    db.rate.get? key = some n := by
  rcases charge_cases tpd caller tokens now later db with heq | ⟨total, heq⟩
  · rwa [heq] at h
  · rw [heq, Tables.deleteDaily_rate, Tables.get?_deleteRate] at h
    split at h
    · cases h
    · exact h

theorem get?_check_rate (rpm tpd : Int) (caller : String) (now : ℚ) (db : Tables) {key : String × Int} {n : Int}
    (h : (check rpm tpd caller now db).2.rate.get? key = some n) :
    key = (caller, minuteOf now) ∨ db.rate.get? key = some n := by
  rw [check_post] at h
  by_cases hrpm : rpm = 0
  · rw [rate, if_pos hrpm] at h
    exact .inr h
  · by_cases hkey : (caller, minuteOf now) = key
    · exact .inl hkey.symm
    · right
      rcases rate_cases hrpm caller now db with ⟨e, he⟩ | ⟨-, he⟩ | ⟨-, he⟩ <;> rw [he] at h
      · exact h
      · rwa [Dict.get?_insert_ne _ _ hkey] at h
      · rwa [Dict.get?_insert_ne _ _ hkey] at h

theorem ready_kept {c : Call} {τ : ℚ} (hc : c.isCheckBy caller = false) (h : Ready caller τ db) :
    Ready caller τ ((postgresLimiter rpm tpd).step c db).2 := by
  intro now hnow
  by_contra hsome
  obtain ⟨n, hn⟩ := Option.ne_none_iff_exists'.1 hsome
  have hbefore : db.rate.get? (caller, minuteOf now) = some n := by
    cases c with
    | check other at_ =>
      have hne : other ≠ caller := of_decide_eq_false hc
      rcases get?_check_rate rpm tpd other at_ db hn with heq | hbefore
      · exact absurd (congrArg Prod.fst heq).symm hne
      · exact hbefore
    | charge other tokens at_ later => exact get?_charge_rate _ _ _ _ _ _ hn
    | usedToday other at_ => exact hn
  rw [h now hnow] at hbefore
  cases hbefore

theorem ready_check (hrpm : 1 ≤ rpm) {τ : ℚ} (h : Ready caller τ db) (hnow : τ ≤ now) :
    ((postgresLimiter rpm tpd).step (.check caller now) db).1.refusedByRate rpm = none := by
  by_contra hsome
  obtain ⟨n, hn⟩ := Option.ne_none_iff_exists'.1 hsome
  have hlt := (refused_cases (by omega) hn).2
  rw [Tables.nextCount, h now hnow, Option.getD_none] at hlt
  omega

/-- Every counted request was made no later than some call of the history. -/
def Dated (h : List (Transition Tables Call Answer)) (db : Tables) : Prop :=
  ∀ key n, db.rate.get? key = some n → ∃ t ∈ h, key.2 ≤ minuteOf t.input.ended

theorem Dated.step {h : List (Transition Tables Call Answer)} (hdb : Dated h db) (c : Call) :
    Dated (h ++ [(postgresLimiter rpm tpd).transition db c]) ((postgresLimiter rpm tpd).step c db).2 := by
  intro key n hn
  have hold (hbefore : db.rate.get? key = some n) :
      ∃ t ∈ h ++ [(postgresLimiter rpm tpd).transition db c], key.2 ≤ minuteOf t.input.ended := by
    obtain ⟨t, ht, hle⟩ := hdb key n hbefore
    exact ⟨t, List.mem_append_left _ ht, hle⟩
  cases c with
  | check caller now =>
    rcases get?_check_rate rpm tpd caller now db hn with rfl | hbefore
    · exact ⟨_, List.mem_append_right _ (List.mem_singleton_self _), le_refl (minuteOf now)⟩
    · exact hold hbefore
  | charge caller tokens now later => exact hold (get?_charge_rate _ _ _ _ _ _ hn)
  | usedToday caller now => exact hold hn

/-- Once the seconds to wait are over, the next minute has begun. -/
theorem minute_lt {now later : ℚ} (h : now + (wait now : Int) ≤ later) : minuteOf now < minuteOf later := by
  have hminute : (minuteOf now : ℚ) ≤ now / 60 := Int.floor_le _
  have hminute' : now / 60 < minuteOf now + 1 := Int.lt_floor_add_one _
  have hsecond : 0 ≤ 60 - secondOf now := by
    rw [secondOf]
    linarith
  have hlt := lt_truncate_add_one hsecond
  have hwait : ((truncate (60 - secondOf now) + 1 : Int) : ℚ) ≤ (wait now : Int) := by exact_mod_cast le_max_right ..
  push_cast at hwait
  have hnext : ((minuteOf now + 1 : Int) : ℚ) ≤ later / 60 := by
    rw [secondOf] at hlt hwait
    push_cast
    linarith
  exact Int.lt_of_add_one_le (Int.le_floor.2 hnext)

theorem leavesReady (hrpm : 1 ≤ rpm) {h : List (Transition Tables Call Answer)} {c : Call} (hdb : Dated h db)
    (hlater : ∀ u ∈ h, u.input.ended ≤ c.began) :
    LeavesReady rpm Ready ((postgresLimiter rpm tpd).transition db c) := by
  intro caller now n hcheck hrefused
  obtain rfl : c = .check caller now := hcheck
  obtain ⟨rfl, -⟩ := refused_cases (by omega) hrefused
  refine ⟨le_max_left .., fun later hle => ?_⟩
  by_contra hsome
  obtain ⟨k, hk⟩ := Option.ne_none_iff_exists'.1 hsome
  have hlt := minute_lt hle
  -- A row of a later minute would be of a call later than this one.
  rcases get?_check_rate rpm tpd caller now db hk with heq | hbefore
  · have hsame : minuteOf later = minuteOf now := congrArg Prod.snd heq
    omega
  · obtain ⟨u, hu, hminute⟩ := hdb _ _ hbefore
    have := hminute.trans (minuteOf_mono (hlater u hu))
    exact absurd this (not_le.2 hlt)

end PostgresLimiter

theorem refusedByRate_of {α : Type} (rpm : Int) (f : α → Answer) (hf : ∀ a, (f a).refusedByRate rpm = none)
    (r : Except Exn α) : (Answer.of f r).refusedByRate rpm = none := by
  cases r with
  | ok a => exact hf a
  | error e => rfl

theorem postgresLimiter_honestRetry {rpm : Int} (hrpm : 1 ≤ rpm) (tpd : Int) {calls : List Call}
    (htime : Timely calls) : HonestRetry rpm ((postgresLimiter rpm tpd).run calls) := by
  refine honestRetry_of PostgresLimiter.Ready (fun s c caller τ => PostgresLimiter.ready_kept)
    (fun s caller τ now => PostgresLimiter.ready_check hrpm) (fun s c n hn => ?_) calls fun t ht => ?_
  · cases c with
    | check caller now => exact ⟨caller, now, rfl⟩
    | charge caller tokens now later =>
      have hnone := refusedByRate_of rpm (fun _ => Answer.charged) (fun _ => rfl)
        (PostgresLimiter.charge tpd caller tokens now later s).1
      exact absurd (hnone.symm.trans hn) (by simp)
    | usedToday caller now =>
      have hnone := refusedByRate_of rpm Answer.used (fun _ => rfl)
        (PostgresLimiter.usedToday caller now s)
      exact absurd (hnone.symm.trans hn) (by simp)
  · obtain ⟨before, after, heq⟩ := List.append_of_mem ht
    obtain ⟨s, c, rfl, hs⟩ := Machine.history_rule_at (G := fun _ => True) (P := PostgresLimiter.Dated)
      (fun key n hn => by cases hn) (fun h s c hs _ => hs.step c) calls (fun _ _ => trivial) before t after heq
    have hlater := (timely_before (heq ▸ timely_run htime (postgresLimiter rpm tpd))).2
    exact PostgresLimiter.leavesReady hrpm hs hlater

/-- Both limiters, for every limit on the rate and every timely list of calls. -/
theorem retry_after_honest (rpm tpd : Int) (hrpm : 1 ≤ rpm) (calls : List Call) (htime : Timely calls) :
    HonestRetry rpm ((limiter rpm tpd).run calls) ∧ HonestRetry rpm ((postgresLimiter rpm tpd).run calls) :=
  ⟨limiter_honestRetry hrpm tpd htime, postgresLimiter_honestRetry hrpm tpd htime⟩

theorem burst_retry_after_honest :
    HonestRetry 2 ((limiter 2 1000).run burst) ∧ HonestRetry 2 ((postgresLimiter 2 1000).run burst) :=
  retry_after_honest 2 1000 (by decide) burst burst_timely

end Limits

end AgentPlatform
