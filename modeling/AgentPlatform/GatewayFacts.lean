/-
What the gateway owes to the budget and to the prompts.

The budget is checked before the provider answers and charged after, so it is
overrun by the calls under way: `budget_overrun` is how far, whatever their
order. The audit trail records what was asked for, never what was said:
`audits_blank`, it is the same with every content blanked out.
-/
import AgentPlatform.Ascii
import AgentPlatform.Gateway
import AgentPlatform.LimitsBudget

namespace AgentPlatform

namespace Gateway

/-! ## What a limiter counts -/

/-- What a limiter with a budget owes, as far as its counts go: `used` is what
is counted against a caller on a day. -/
structure Meters {σ : Type} (m : Machine σ Limits.Call Limits.Answer) (tpd : Int) (used : σ → String → Int → Int) :
    Prop where
  init : ∀ caller day, used m.init caller day ≤ 0
  admits : ∀ caller now s d, (m.step (.check caller now) s).1 = .decided d → d.allowed = true →
    used s caller (Limits.dayOf now) < tpd
  checks : ∀ caller now s c day, used (m.step (.check caller now) s).2 c day ≤ used s c day
  charges : ∀ caller tokens now later s c day, used (m.step (.charge caller tokens now later) s).2 c day ≤
    used s c day + if caller = c ∧ Limits.dayOf now = day then max tokens 0 else 0

open Limits in
theorem limiter_meters {rpm tpd : Int} (htpd : 1 ≤ tpd) :
    Meters (limiter rpm tpd) tpd fun s caller day => max 0 (s.usedOn caller day) where
  init caller day := (Limiter.tallied_initial caller day fun _ h => nomatch h) ▸ le_refl _
  admits caller now s d hd hallowed := by
    replace hd : Answer.of .decided (Limiter.check rpm tpd caller now s).1 = .decided d := hd
    cases hrate : (Limiter.rate rpm caller now s).1 with
    | error e =>
      rw [Limiter.check_of_raised hrate] at hd
      cases hd
    | ok refusal =>
      cases refusal with
      | some refusal =>
        rw [Limiter.check_of_refused tpd hrate] at hd
        obtain ⟨n, rfl⟩ := Limiter.refusal_of_rate hrate
        cases hd
        cases hallowed
      | none =>
        rw [Limiter.check_of_passed tpd hrate] at hd
        dsimp only at hd
        split at hd
        · cases hd
          cases hallowed
        · rename_i hspent
          rw [not_and, not_le] at hspent
          exact max_lt (by omega) (hspent (by omega))
  checks caller now s c day := by
    have hpost : ((limiter rpm tpd).step (.check caller now) s).2 = (Limiter.rate rpm caller now s).2 :=
      Limiter.check_post ..
    rw [hpost, Limiter.usedOn, Limiter.usedOn, Limiter.rate_tokens]
  charges caller tokens now later s c day := by
    show max 0 (Limiter.usedOn c day (Limiter.charge tpd caller tokens now s)) ≤ _
    by_cases htokens : 0 < tokens
    · rw [Limiter.usedOn_charge (by omega) htokens]
      by_cases hcaller : caller = c <;> by_cases hday : dayOf now = day <;> simp [hcaller, hday]
      omega
    · rw [Limiter.charge, if_pos (.inr (not_lt.1 htokens))]
      split_ifs <;> omega

open Limits in
/-- What the columns take is added to the caller's day. -/
theorem addTokens_sum (caller : String) (day tokens : Int) (db : Tables) :
    (∃ e, db.addTokens caller day tokens = (.error e, db)) ∨ db.addTokens caller day tokens =
      (.ok (), { db with daily := db.daily.insert (caller, day) (db.spentOn caller day + tokens) }) := by
  by_cases hstorable : storable caller = true
  · cases hrow : db.daily.get? (caller, day) with
    | none =>
      by_cases hbig : maxBigint < tokens
      · exact .inl ⟨⟨.other, "bigint out of range"⟩, by simp [Tables.addTokens, hstorable, hrow, hbig]⟩
      · exact .inr (by simp [Tables.addTokens, Tables.spentOn, hstorable, hrow, hbig])
    | some n =>
      by_cases hbig : maxBigint < tokens ∨ maxBigint < n + tokens
      · exact .inl ⟨⟨.other, "bigint out of range"⟩, by simp only [Tables.addTokens, hstorable, hrow, if_pos hbig]; rfl⟩
      · exact .inr (by simp [Tables.addTokens, Tables.spentOn, hstorable, hrow, if_neg hbig])
  · exact .inl ⟨noNul, by simp [Tables.addTokens, hstorable]⟩

open Limits in
theorem postgresLimiter_meters {rpm tpd : Int} (htpd : 1 ≤ tpd) :
    Meters (postgresLimiter rpm tpd) tpd fun db caller day => max 0 (db.spentOn caller day) where
  init caller day := le_refl _
  admits caller now db d hd hallowed := by
    have hused : (PostgresLimiter.rate rpm caller now db).2.spentOn caller (dayOf now) =
        db.spentOn caller (dayOf now) := by
      rw [Tables.spentOn, Tables.spentOn, PostgresLimiter.rate_daily]
    replace hd : Answer.of .decided (PostgresLimiter.check rpm tpd caller now db).1 = .decided d := hd
    cases hrate : (PostgresLimiter.rate rpm caller now db).1 with
    | error e =>
      rw [PostgresLimiter.check_of_raised hrate] at hd
      cases hd
    | ok refusal =>
      cases refusal with
      | some refusal =>
        rw [PostgresLimiter.check_of_refused hrate] at hd
        obtain ⟨n, rfl⟩ := PostgresLimiter.refusal_of_rate hrate
        cases hd
        cases hallowed
      | none =>
        rw [PostgresLimiter.check_of_passed hrate, PostgresLimiter.budget, if_neg (by omega)] at hd
        rw [← hused, Tables.spentOn]
        cases hstorable : storable caller with
        | false =>
          rw [Tables.selectTokens, hstorable] at hd
          cases hd
        | true =>
          rw [Tables.selectTokens_ok hstorable] at hd
          cases hrow : (PostgresLimiter.rate rpm caller now db).2.daily.get? (caller, dayOf now) with
          | none => simpa using (by omega : (0 : Int) < tpd)
          | some tokens =>
            rw [hrow] at hd
            dsimp only at hd
            split at hd
            · cases hd
              cases hallowed
            · rename_i hspent
              exact max_lt (by omega) (not_le.1 hspent)
  checks caller now db c day := by
    have hpost : ((postgresLimiter rpm tpd).step (.check caller now) db).2 =
        (PostgresLimiter.rate rpm caller now db).2 := PostgresLimiter.check_post ..
    rw [hpost, Tables.spentOn, Tables.spentOn, PostgresLimiter.rate_daily]
  charges caller tokens now later db c day := by
    show max 0 (Tables.spentOn c day (PostgresLimiter.charge tpd caller tokens now later db).2) ≤ _
    have hkept : max 0 (db.spentOn c day) ≤
        max 0 (db.spentOn c day) + if caller = c ∧ dayOf now = day then max tokens 0 else 0 := by
      split_ifs <;> omega
    unfold PostgresLimiter.charge
    split
    · exact hkept
    · rcases addTokens_sum caller (dayOf now) tokens db with ⟨e, he⟩ | he
      · rw [he]
        exact hkept
      · rw [he]
        simp only [Tables.spentOn, Tables.get?_deleteDaily, Tables.deleteRate_daily, Dict.get?_insert, Prod.mk.injEq]
          at hkept ⊢
        by_cases hswept : day < dayOf now - 1
        · rw [if_pos hswept, Option.getD_none, max_self]
          exact (le_max_left ..).trans hkept
        · rw [if_neg hswept]
          by_cases hkey : caller = c ∧ dayOf now = day
          · obtain ⟨rfl, rfl⟩ := hkey
            simp only [and_self, if_true, Option.getD_some]
            omega
          · simpa only [if_neg hkey, add_zero] using le_refl _

/-! ## What a moment can do -/

section Step

variable {σ δ : Type} [UnicodeData] {cfg : Config} {isRevoked : ℚ → String → δ → Bool × δ}
  {limiter : Machine σ Limits.Call Limits.Answer}

theorem provide_caller {caller : String} {req : ChatRequest} {audits : List AuditRecord} {payload : Payload}
    {flight : Flight} (h : provide cfg caller req = (audits, .ok (payload, flight))) : flight.caller = caller := by
  unfold provide at h
  dsimp only at h
  split at h
  · cases h
  · split at h
    · split at h <;> cases h
      rfl
    · cases h
      rfl

theorem gateway_chat (denylist : δ) (now : ℚ) (req : ChatRequest) (authorization : Option String) (s : State σ δ) :
    (gateway cfg isRevoked limiter denylist).step (.chat now req authorization) s =
      chat cfg isRevoked limiter now req authorization s := by rw [gateway]

theorem gateway_answer (denylist : δ) (place : Nat) (now later : ℚ) (result : Except Exn ProviderBody)
    (s : State σ δ) : (gateway cfg isRevoked limiter denylist).step (.answer place now later result) s =
      answer limiter place now later result s := by rw [gateway]

variable (cfg isRevoked limiter) in
/-- A chat leaves the calls under way as they are, or adds one of a caller within its limits. -/
theorem chat_cases (now : ℚ) (req : ChatRequest) (authorization : Option String) (s : State σ δ) :
    ((chat cfg isRevoked limiter now req authorization s).2.flights = s.flights ∧
      ((chat cfg isRevoked limiter now req authorization s).2.limiter = s.limiter ∨ ∃ caller,
        (chat cfg isRevoked limiter now req authorization s).2.limiter =
          (limiter.step (.check caller now) s.limiter).2)) ∨
    ∃ flight d, (chat cfg isRevoked limiter now req authorization s).2.flights = s.flights ++ [flight] ∧
      (chat cfg isRevoked limiter now req authorization s).2.limiter =
        (limiter.step (.check flight.caller now) s.limiter).2 ∧
      (limiter.step (.check flight.caller now) s.limiter).1 = .decided d ∧ d.allowed = true := by
  unfold chat
  rcases callerId cfg isRevoked now authorization s.denylist with ⟨audits, reply | caller, d⟩
  · exact .inl ⟨rfl, .inl rfl⟩
  · dsimp only
    rcases hcheck : limiter.step (.check caller now) s.limiter with ⟨decision | _ | _ | e, l⟩
    · dsimp only
      by_cases hallowed : decision.allowed = true
      · rw [if_pos hallowed]
        rcases hprovide : provide cfg caller req with ⟨audits', reply | ⟨payload, flight⟩⟩
        · exact .inl ⟨rfl, .inr ⟨caller, by rw [hcheck]⟩⟩
        · obtain rfl := provide_caller hprovide
          exact .inr ⟨flight, decision, rfl, by rw [hcheck], by rw [hcheck], hallowed⟩
      · rw [if_neg hallowed]
        exact .inl ⟨rfl, .inr ⟨caller, by rw [hcheck]⟩⟩
    · exact .inl ⟨rfl, .inr ⟨caller, by rw [hcheck]⟩⟩
    · exact .inl ⟨rfl, .inr ⟨caller, by rw [hcheck]⟩⟩
    · exact .inl ⟨rfl, .inr ⟨caller, by rw [hcheck]⟩⟩

variable (limiter) in
/-- An answer ends the call in its place, and charges its caller what it cost, if that can be told. -/
theorem answer_cases (place : Nat) (now later : ℚ) (result : Except Exn ProviderBody) (s : State σ δ) :
    (answer limiter place now later result s).2 = s ∨
    ∃ flight, s.flights[place]? = some flight ∧
      (answer limiter place now later result s).2.flights = s.flights.eraseIdx place ∧
      ((answer limiter place now later result s).2.limiter = s.limiter ∨
        ∃ body tokens, result = .ok body ∧ flight.cost body = .ok tokens ∧
          (answer limiter place now later result s).2.limiter =
            (limiter.step (.charge flight.caller tokens now later) s.limiter).2) := by
  unfold answer
  cases hflight : s.flights[place]? with
  | none => exact .inl rfl
  | some flight =>
    refine .inr ⟨flight, rfl, ?_⟩
    cases result with
    | error e => exact ⟨rfl, .inl rfl⟩
    | ok body =>
      dsimp only
      cases hcost : flight.cost body with
      | error e => exact ⟨rfl, .inl rfl⟩
      | ok tokens =>
        dsimp only
        rcases hcharge : limiter.step (.charge flight.caller tokens now later) s.limiter with ⟨_ | _ | _ | e, l⟩ <;>
          exact ⟨rfl, .inr ⟨body, tokens, rfl, hcost, by rw [hcharge]⟩⟩

end Step

/-! ## The overrun -/

section Overrun

variable {σ δ : Type}

/-- The calls a caller has under way. -/
def inFlight (caller : String) (s : State σ δ) : Nat := s.flights.countP fun f => decide (f.caller = caller)

/-- What the call cost that a moment ends with an answer. -/
def costOf [UnicodeData] (t : Transition (State σ δ) Event Outcome) : Option Int :=
  match t.input with
  | .answer place _ _ (.ok body) => (t.pre.flights[place]?).bind fun flight => (flight.cost body).toOption
  | _ => none

/-- Nobody has more than `few` calls under way, and no call costs more than `most`. -/
structure Bounded [UnicodeData] (few most : Nat) (run : List (Transition (State σ δ) Event Outcome)) : Prop where
  few : ∀ t ∈ run, ∀ caller, inFlight caller t.post ≤ few
  most : ∀ t ∈ run, ∀ tokens ∈ costOf t, tokens ≤ most

/-- What is kept of the events so far: what is counted, with what the calls under
way may add on a day that is not over, is within the budget and its overrun. -/
structure Within (tpd : Int) (few most : Nat) (used : σ → String → Int → Int) (events : List Event) (s : State σ δ) :
    Prop where
  total : ∀ caller day, used s.limiter caller day ≤ tpd - 1 + few * most
  running : ∀ caller day, (∀ e ∈ events, Limits.dayOf e.now ≤ day) →
    used s.limiter caller day + most * inFlight caller s ≤ tpd - 1 + few * most
  unused : ∀ caller day, (∀ e ∈ events, Limits.dayOf e.now < day) → used s.limiter caller day ≤ 0

theorem inFlight_append (caller : String) {s s' : State σ δ} {flight : Flight}
    (h : s'.flights = s.flights ++ [flight]) :
    inFlight caller s' = inFlight caller s + if flight.caller = caller then 1 else 0 := by
  rw [inFlight, inFlight, h, List.countP_append, List.countP_singleton]
  by_cases hcaller : flight.caller = caller <;> simp [hcaller]

theorem inFlight_eraseIdx (caller : String) {s s' : State σ δ} {flight : Flight} {place : Nat}
    (hflight : s.flights[place]? = some flight) (h : s'.flights = s.flights.eraseIdx place) :
    inFlight caller s = inFlight caller s' + if flight.caller = caller then 1 else 0 := by
  obtain ⟨hplace, rfl⟩ := List.getElem?_eq_some_iff.1 hflight
  rw [inFlight, inFlight, h, ← (List.getElem_cons_eraseIdx_perm hplace).countP_eq, List.countP_cons]
  by_cases hcaller : s.flights[place].caller = caller <;> simp [hcaller]

variable [UnicodeData] {cfg : Config} {isRevoked : ℚ → String → δ → Bool × δ}
  {limiter : Machine σ Limits.Call Limits.Answer} {tpd : Int} {few most : Nat} {used : σ → String → Int → Int}
  (M : Meters limiter tpd used) (htpd : 1 ≤ tpd) {events : List Event} {s : State σ δ}
  (hs : Within tpd few most used events s)
include M htpd hs

omit [UnicodeData] M htpd in
/-- What only lowers the counts, and leaves the calls under way, keeps within. -/
theorem Within.lower {s' : State σ δ} (e : Event) (hflights : s'.flights = s.flights)
    (hless : ∀ caller day, used s'.limiter caller day ≤ used s.limiter caller day) :
    Within tpd few most used (events ++ [e]) s' where
  total caller day := (hless caller day).trans (hs.total caller day)
  running caller day hday := by
    have hrunning := hs.running caller day fun e he => hday e (List.mem_append_left _ he)
    have hused := hless caller day
    rw [inFlight, hflights, ← inFlight]
    omega
  unused caller day hday :=
    (hless caller day).trans (hs.unused caller day fun e he => hday e (List.mem_append_left _ he))

theorem within_chat (now : ℚ) (req : ChatRequest) (authorization : Option String)
    (hbefore : ∀ e ∈ events, e.now ≤ now)
    (hfew : ∀ caller, inFlight caller (chat cfg isRevoked limiter now req authorization s).2 ≤ few) :
    Within tpd few most used (events ++ [.chat now req authorization])
      (chat cfg isRevoked limiter now req authorization s).2 := by
  rcases chat_cases cfg isRevoked limiter now req authorization s with
    ⟨hflights, hlimiter⟩ | ⟨flight, d, hflights, hlimiter, hdecided, hallowed⟩
  · refine hs.lower _ hflights fun caller day => ?_
    rcases hlimiter with heq | ⟨c, heq⟩
    · rw [heq]
    · rw [heq]
      exact M.checks c now s.limiter caller day
  · have hless (caller : String) (day : Int) :
        used (chat cfg isRevoked limiter now req authorization s).2.limiter caller day ≤ used s.limiter caller day := by
      rw [hlimiter]
      exact M.checks flight.caller now s.limiter caller day
    refine ⟨fun caller day => (hless caller day).trans (hs.total caller day), fun caller day hday => ?_,
      fun caller day hday =>
        (hless caller day).trans (hs.unused caller day fun e he => hday e (List.mem_append_left _ he))⟩
    have hused := hless caller day
    by_cases hcaller : flight.caller = caller
    · -- The caller was within its budget: on the day of the check by the check, on a later day as it used nothing yet.
      subst hcaller
      have hwithin : used s.limiter flight.caller day ≤ tpd - 1 := by
        have hnow : Limits.dayOf now ≤ day := hday (.chat now req authorization) (by simp)
        rcases hnow.eq_or_lt with rfl | hlater
        · have := M.admits flight.caller now s.limiter d hdecided hallowed
          omega
        · have := hs.unused flight.caller day fun e he => (Limits.dayOf_mono (hbefore e he)).trans_lt hlater
          omega
      have hroom : (most : Int) * inFlight flight.caller (chat cfg isRevoked limiter now req authorization s).2 ≤
          few * most := by
        rw [mul_comm]
        exact_mod_cast Nat.mul_le_mul_right most (hfew flight.caller)
      omega
    · have hrunning := hs.running caller day fun e he => hday e (List.mem_append_left _ he)
      rw [inFlight_append caller hflights, if_neg hcaller, Nat.add_zero]
      omega

omit htpd in
theorem within_answer (place : Nat) (now later : ℚ) (result : Except Exn ProviderBody)
    (hbefore : ∀ e ∈ events, e.now ≤ now)
    (hmost : ∀ body flight tokens, result = .ok body → s.flights[place]? = some flight →
      flight.cost body = .ok tokens → tokens ≤ most) :
    Within tpd few most used (events ++ [.answer place now later result])
      (answer limiter place now later result s).2 := by
  rcases answer_cases limiter place now later result s with heq | ⟨flight, hflight, hflights, hlimiter⟩
  · rw [heq]
    exact hs.lower _ rfl fun _ _ => le_rfl
  have hcharged (caller : String) (day : Int) :
      used (answer limiter place now later result s).2.limiter caller day ≤
        used s.limiter caller day + if flight.caller = caller ∧ Limits.dayOf now = day then (most : Int) else 0 := by
    rcases hlimiter with heq | ⟨body, tokens, rfl, hcost, heq⟩
    · rw [heq]
      split_ifs <;> omega
    · have htokens := hmost body flight tokens rfl hflight hcost
      have hcharge := M.charges flight.caller tokens now later s.limiter caller day
      rw [heq]
      split_ifs at hcharge ⊢ <;> omega
  have hrunning (caller : String) (day : Int) (hday : ∀ e ∈ events, Limits.dayOf e.now ≤ day) :
      used (answer limiter place now later result s).2.limiter caller day +
        most * inFlight caller (answer limiter place now later result s).2 ≤ tpd - 1 + few * most := by
    have hkept := hs.running caller day hday
    have hused := hcharged caller day
    rw [inFlight_eraseIdx caller hflight hflights] at hkept
    by_cases hcaller : flight.caller = caller
    · simp only [hcaller, if_true, true_and, Nat.cast_add, Nat.cast_one, mul_add, mul_one] at hkept hused
      split_ifs at hused <;> omega
    · simp only [hcaller, if_false, false_and, Nat.add_zero] at hkept hused
      omega
  refine ⟨fun caller day => ?_,
    fun caller day hday => hrunning caller day fun e he => hday e (List.mem_append_left _ he),
    fun caller day hday => ?_⟩
  · by_cases hday : Limits.dayOf now = day
    · have hnow := hrunning caller day fun e he => hday ▸ Limits.dayOf_mono (hbefore e he)
      have hnonneg : (0 : Int) ≤ most * inFlight caller (answer limiter place now later result s).2 := by positivity
      omega
    · have hused := hcharged caller day
      rw [if_neg fun h => hday h.2, add_zero] at hused
      exact hused.trans (hs.total caller day)
  · have hnow : Limits.dayOf now < day := hday (.answer place now later result) (by simp)
    have hused := hcharged caller day
    rw [if_neg fun h => hnow.ne h.2, add_zero] at hused
    exact hused.trans (hs.unused caller day fun e he => hday e (List.mem_append_left _ he))

omit hs in
theorem within_run {denylist : δ} {events : List Event} (htime : events.Pairwise fun e f => e.now ≤ f.now)
    (hbounded : Bounded few most ((gateway cfg isRevoked limiter denylist).run events)) :
    Within tpd few most used events ((gateway cfg isRevoked limiter denylist).final events) := by
  induction events using List.reverseRecOn with
  | nil =>
    have hroom : (0 : Int) ≤ few * most := by positivity
    refine ⟨fun caller day => ?_, fun caller day _ => ?_, fun caller day _ => M.init caller day⟩
    · have := M.init caller day
      show used limiter.init caller day ≤ _
      omega
    · have := M.init caller day
      show used limiter.init caller day + most * (0 : Nat) ≤ _
      simp only [Nat.cast_zero, mul_zero, add_zero]
      omega
  | append_singleton events e ih =>
    rw [Machine.run_concat] at hbounded
    rw [List.pairwise_append] at htime
    have hs := ih htime.1 ⟨fun t ht => hbounded.few t (List.mem_append_left _ ht),
      fun t ht => hbounded.most t (List.mem_append_left _ ht)⟩
    have hbefore : ∀ f ∈ events, f.now ≤ e.now := fun f hf => htime.2.2 f hf e (by simp)
    have hlast := List.mem_append_right ((gateway cfg isRevoked limiter denylist).run events) (List.mem_singleton_self
      ((gateway cfg isRevoked limiter denylist).transition ((gateway cfg isRevoked limiter denylist).final events) e))
    have hfew := hbounded.few _ hlast
    have hmost := hbounded.most _ hlast
    rw [Machine.final_concat]
    clear hlast
    generalize (gateway cfg isRevoked limiter denylist).final events = s at hs hfew hmost
    cases e with
    | chat now req authorization =>
      simp only [Machine.transition_post, gateway_chat] at hfew
      rw [gateway_chat]
      exact within_chat M htpd hs now req authorization hbefore hfew
    | answer place now later result =>
      rw [gateway_answer]
      refine within_answer M hs place now later result hbefore fun body flight tokens hresult hflight hcost => ?_
      subst hresult
      exact hmost tokens (by simp [costOf, hflight, hcost, Except.toOption])

end Overrun

/-- **How far the budget is overrun.** With either limiter, in every
interleaving of chats and answers with the clocks in order, where nobody has more
than `few` calls under way and no call costs more than `most`: what is counted
against a caller on a day stays below the budget and what `few` such calls cost. -/
theorem budget_overrun {δ : Type} [UnicodeData] (cfg : Config) (isRevoked : ℚ → String → δ → Bool × δ) (denylist : δ)
    (rpm tpd : Int) (htpd : 1 ≤ tpd) (few most : Nat) (events : List Event)
    (htime : events.Pairwise fun e f => e.now ≤ f.now) :
    (Bounded few most ((gateway cfg isRevoked (Limits.limiter rpm tpd) denylist).run events) → ∀ caller day,
      ((gateway cfg isRevoked (Limits.limiter rpm tpd) denylist).final events).limiter.usedOn caller day <
        tpd + few * most) ∧
    (Bounded few most ((gateway cfg isRevoked (Limits.postgresLimiter rpm tpd) denylist).run events) → ∀ caller day,
      ((gateway cfg isRevoked (Limits.postgresLimiter rpm tpd) denylist).final events).limiter.spentOn caller day <
        tpd + few * most) := by
  constructor
  · intro hbounded caller day
    have htotal := (within_run (limiter_meters htpd) htpd htime hbounded).total caller day
    exact Int.lt_of_le_sub_one ((le_max_right ..).trans (htotal.trans_eq (by ring)))
  · intro hbounded caller day
    have htotal := (within_run (postgresLimiter_meters htpd) htpd htime hbounded).total caller day
    exact Int.lt_of_le_sub_one ((le_max_right ..).trans (htotal.trans_eq (by ring)))

/-- Two calls of one caller are under way at once, and overrun its budget of one token. -/
def burst : List Event :=
  [.chat 0 { messages := [⟨[("content", .str "pay")], by decide⟩] } (some "Bearer desk"),
    .chat 1 { messages := [⟨[("content", .str "pay again")], by decide⟩] } (some "Bearer desk"),
    .answer 0 2 2 (.ok { response := .str "no" }),
    .answer 0 3 3 (.ok { thinking := .str "yes" })]

def burstConfig : Config := { svids := fun _ _ token => .ok (.str token), audience := "gateway" }

theorem burst_overrun : let _ := asciiData
    let m := gateway burstConfig (fun _ _ d => (false, d)) (Limits.limiter 0 1) ()
    (m.final burst).limiter.usedOn "desk" 0 = 5 ∧
      ∀ caller day, (m.final burst).limiter.usedOn caller day < 1 + (2 : Nat) * (3 : Nat) := by
  let _ := asciiData
  have hlength : ∀ t ∈ (gateway burstConfig (fun _ _ d => (false, d)) (Limits.limiter 0 1) ()).run burst,
      t.post.flights.length ≤ 2 := by decide +kernel
  refine ⟨by decide +kernel, (budget_overrun burstConfig _ () 0 1 (by decide) 2 3 burst (by decide)).1 ⟨?_, ?_⟩⟩
  · exact fun t ht caller => List.countP_le_length.trans (hlength t ht)
  · decide +kernel

/-! ## What was said -/

/-- A text of the same length that says nothing. -/
def blank (text : String) : String := String.ofList (List.replicate text.length 'x')

@[simp] theorem length_blank (text : String) : (blank text).length = text.length := by simp [blank]

def blankClaim : Claim → Claim
  | .str s => .str (blank s)
  | c => c

def ProviderBody.blank (body : ProviderBody) : ProviderBody :=
  { body with response := blankClaim body.response, thinking := blankClaim body.thinking }

theorem forall₂_getElem? {α β : Type} {R : α → β → Prop} {as : List α} {bs : List β} (h : List.Forall₂ R as bs)
    (i : Nat) : as[i]? = none ∧ bs[i]? = none ∨ ∃ a b, as[i]? = some a ∧ bs[i]? = some b ∧ R a b := by
  induction h generalizing i with
  | nil => exact .inl ⟨rfl, rfl⟩
  | cons hab h ih =>
    cases i with
    | zero => exact .inr ⟨_, _, rfl, rfl, hab⟩
    | succ i => simpa using ih i

theorem forall₂_eraseIdx {α β : Type} {R : α → β → Prop} {as : List α} {bs : List β} (h : List.Forall₂ R as bs)
    (i : Nat) : List.Forall₂ R (as.eraseIdx i) (bs.eraseIdx i) := by
  induction h generalizing i with
  | nil => exact .nil
  | cons hab h ih =>
    cases i with
    | zero => exact h
    | succ i => exact .cons hab (ih i)

section Blank

variable [UnicodeData]

/-- The message with its content blanked out. -/
def blankMessage (m : Args) : Args :=
  match content m with
  | .ok text => m.insert "content" (.str (blank text))
  | .error _ => m

def ChatRequest.blank (req : ChatRequest) : ChatRequest := { req with messages := req.messages.map blankMessage }

def Event.blank : Event → Event
  | .chat now req authorization => .chat now req.blank authorization
  | .answer place now later result => .answer place now later (result.map ProviderBody.blank)

theorem content_blank (m : Args) : content (blankMessage m) = (content m).map blank := by
  unfold blankMessage
  cases hcontent : content m with
  | ok text =>
    rw [content, Dict.get?_insert_self]
    rfl
  | error e => rw [hcontent, Except.map]

theorem contents_blank (messages : List Args) :
    contents (messages.map blankMessage) = (contents messages).map (List.map blank) := by
  induction messages with
  | nil => rfl
  | cons m messages ih =>
    simp only [contents, List.map_cons, List.mapM_cons, content_blank] at ih ⊢
    rw [ih]
    cases content m with
    | error e => rfl
    | ok text => cases List.mapM content messages <;> rfl

omit [UnicodeData] in
theorem length_joinLines_blank (texts : List String) :
    (joinLines (texts.map blank)).length = (joinLines texts).length := by
  have hjoin : ∀ texts : List String, (['\n'].intercalate ((texts.map blank).map String.toList)).length =
      (['\n'].intercalate (texts.map String.toList)).length := by
    intro texts
    induction texts with
    | nil => rfl
    | cons text texts ih =>
      have htext : (blank text).toList.length = text.toList.length := length_blank text
      cases texts with
      | nil => simpa [List.intercalate] using htext
      | cons next texts =>
        simp only [List.intercalate, List.map_cons, List.intersperse, List.flatten_cons, List.length_append] at ih ⊢
        rw [htext, ih]
  simpa [joinLines] using hjoin texts

omit [UnicodeData] in
theorem estimateTokens_congr {text text' : String} (h : text'.length = text.length) :
    estimateTokens text' = estimateTokens text := by rw [estimateTokens, estimateTokens, h]

omit [UnicodeData] in
theorem blankClaim_orElse (c : Claim) : (blankClaim c).orElse "" = blank (c.orElse "") := by
  cases c with
  | str s =>
    by_cases hs : s = ""
    · subst hs
      rfl
    · have hblank : blank s ≠ "" := fun h => hs (String.length_eq_zero_iff.1 (by rw [← length_blank, h]; rfl))
      simp [blankClaim, Claim.orElse, Claim.get, hs, hblank]
  | absent => rfl
  | null => rfl

/-- The calls under way are the same but for what is said in them. -/
def Flight.Alike : Flight → Flight → Prop
  | .ollama caller prompt, .ollama caller' prompt' => caller' = caller ∧ prompt'.length = prompt.length
  | .hosted caller messages, .hosted caller' messages' =>
    caller' = caller ∧ contents messages' = (contents messages).map (List.map blank)
  | _, _ => False

theorem Flight.Alike.caller {f f' : Flight} (h : f.Alike f') : f'.caller = f.caller := by
  cases f <;> cases f' <;> simp_all [Flight.Alike, Flight.caller]

/-- What a call costs is told by lengths. -/
theorem Flight.Alike.cost {f f' : Flight} (h : f.Alike f') (body : ProviderBody) :
    f'.cost body.blank = f.cost body := by
  cases f with
  | ollama caller prompt =>
    cases f' with
    | hosted => cases h
    | ollama caller' prompt' =>
      have hprompt := estimateTokens_congr h.2
      simp only [Flight.cost, ProviderBody.blank, blankClaim_orElse, hprompt]
      generalize body.response.orElse "" = s
      by_cases hs : s = ""
      · subst hs
        cases body.thinking with
        | absent => rfl
        | null => rfl
        | str thought => simp only [blankClaim, estimateTokens_congr (length_blank thought)]; rfl
      · have hblank : blank s ≠ "" := fun heq => hs (String.length_eq_zero_iff.1 (by rw [← length_blank, heq]; rfl))
        split
        · exact absurd ‹_› hblank
        · rw [estimateTokens_congr (length_blank s)]
  | hosted caller messages =>
    cases f' with
    | ollama => cases h
    | hosted caller' messages' =>
      simp only [Flight.cost, ProviderBody.blank, h.2]
      cases body.totalTokens with
      | some n => rfl
      | none =>
        cases contents messages with
        | error e => rfl
        | ok texts =>
          have hestimates : (texts.map blank).map estimateTokens = texts.map estimateTokens := by
            rw [List.map_map]
            exact List.map_congr_left fun text _ => estimateTokens_congr (length_blank text)
          simp only [Except.map, hestimates]

/-- The audit of a call is the same, and the call alike. -/
theorem provide_blank (cfg : Config) (caller : String) (req : ChatRequest) :
    ∃ audits, (∃ reply reply', provide cfg caller req = (audits, .error reply) ∧
        provide cfg caller req.blank = (audits, .error reply')) ∨
      ∃ payload payload' flight flight', provide cfg caller req = (audits, .ok (payload, flight)) ∧
        provide cfg caller req.blank = (audits, .ok (payload', flight')) ∧ flight.Alike flight' := by
  have hmodel : modelOf cfg req.blank = modelOf cfg req := rfl
  have hlength : req.blank.messages.length = req.messages.length := List.length_map _
  have hcontents : contents req.blank.messages = (contents req.messages).map (List.map Gateway.blank) :=
    contents_blank req.messages
  unfold provide
  dsimp only
  rw [hmodel, hlength, hcontents]
  by_cases hnone : cfg.provider ≠ "ollama" ∧ modelOf cfg req = ""
  · simp only [if_pos hnone]
    exact ⟨_, .inl ⟨_, _, rfl, rfl⟩⟩
  · simp only [if_neg hnone]
    by_cases hollama : cfg.provider = "ollama"
    · simp only [if_pos hollama]
      cases contents req.messages with
      | error e => exact ⟨_, .inl ⟨_, _, rfl, rfl⟩⟩
      | ok texts => exact ⟨_, .inr ⟨_, _, _, _, rfl, rfl, rfl, length_joinLines_blank texts⟩⟩
    · simp only [if_neg hollama]
      exact ⟨_, .inr ⟨_, _, _, _, rfl, rfl, rfl, hcontents⟩⟩

variable {σ δ : Type} {cfg : Config} {isRevoked : ℚ → String → δ → Bool × δ}
  {limiter : Machine σ Limits.Call Limits.Answer}

/-- The states are the same but for what is said in the calls under way. -/
structure State.Alike (s s' : State σ δ) : Prop where
  limiter : s'.limiter = s.limiter
  denylist : s'.denylist = s.denylist
  flights : List.Forall₂ Flight.Alike s.flights s'.flights

theorem chat_blank (now : ℚ) (req : ChatRequest) (authorization : Option String) {s s' : State σ δ}
    (h : s.Alike s') :
    (chat cfg isRevoked limiter now req authorization s).1.audits =
        (chat cfg isRevoked limiter now req.blank authorization s').1.audits ∧
      (chat cfg isRevoked limiter now req authorization s).2.Alike
        (chat cfg isRevoked limiter now req.blank authorization s').2 := by
  unfold chat
  rw [h.limiter, h.denylist]
  rcases callerId cfg isRevoked now authorization s.denylist with ⟨audits, reply | caller, d⟩
  · exact ⟨rfl, rfl, rfl, h.flights⟩
  · dsimp only
    rcases limiter.step (.check caller now) s.limiter with ⟨decision | _ | _ | e, l⟩
    · dsimp only
      by_cases hallowed : decision.allowed = true
      · simp only [if_pos hallowed]
        obtain ⟨audits, ⟨reply, reply', hreq, hblank⟩ | ⟨payload, payload', flight, flight', hreq, hblank, halike⟩⟩ :=
          provide_blank cfg caller req
        · rw [hreq, hblank]
          exact ⟨rfl, rfl, rfl, h.flights⟩
        · rw [hreq, hblank]
          exact ⟨rfl, rfl, rfl, List.rel_append h.flights (.cons halike .nil)⟩
      · rw [if_neg hallowed, if_neg hallowed]
        exact ⟨rfl, rfl, rfl, h.flights⟩
    all_goals exact ⟨rfl, rfl, rfl, h.flights⟩

theorem answer_blank (place : Nat) (now later : ℚ) (result : Except Exn ProviderBody) {s s' : State σ δ}
    (h : s.Alike s') :
    (answer limiter place now later result s).1.audits =
        (answer limiter place now later (result.map ProviderBody.blank) s').1.audits ∧
      (answer limiter place now later result s).2.Alike
        (answer limiter place now later (result.map ProviderBody.blank) s').2 := by
  unfold answer
  have hrest := forall₂_eraseIdx h.flights place
  rcases forall₂_getElem? h.flights place with ⟨hnone, hnone'⟩ | ⟨flight, flight', hsome, hsome', halike⟩
  · rw [hnone, hnone']
    exact ⟨rfl, h⟩
  · rw [hsome, hsome']
    cases result with
    | error e => exact ⟨rfl, h.limiter, h.denylist, hrest⟩
    | ok body =>
      simp only [Except.map, halike.cost, halike.caller, h.limiter]
      cases flight.cost body with
      | error e => exact ⟨rfl, rfl, h.denylist, hrest⟩
      | ok tokens =>
        dsimp only
        rcases limiter.step (.charge flight.caller tokens now later) s.limiter with ⟨_ | _ | _ | e, l⟩ <;>
          exact ⟨rfl, rfl, h.denylist, hrest⟩

end Blank

/-- **The trail never holds what was said.** With any limiter and any denylist,
over every interleaving of chats and answers, the audits are those of the same run
with the content of every message and of every answer blanked out. -/
theorem audits_blank {σ δ : Type} [UnicodeData] (cfg : Config) (isRevoked : ℚ → String → δ → Bool × δ)
    (limiter : Machine σ Limits.Call Limits.Answer) (denylist : δ) (events : List Event) :
    ((gateway cfg isRevoked limiter denylist).run events).map (fun t => t.output.audits) =
      ((gateway cfg isRevoked limiter denylist).run (events.map Event.blank)).map (fun t => t.output.audits) := by
  have hstep (s s' : State σ δ) (e : Event) (h : s.Alike s') :
      ((gateway cfg isRevoked limiter denylist).step e s).1.audits =
          ((gateway cfg isRevoked limiter denylist).step e.blank s').1.audits ∧
        ((gateway cfg isRevoked limiter denylist).step e s).2.Alike
          ((gateway cfg isRevoked limiter denylist).step e.blank s').2 := by
    cases e with
    | chat now req authorization =>
      rw [Event.blank, gateway_chat, gateway_chat]
      exact chat_blank now req authorization h
    | answer place now later result =>
      rw [Event.blank, gateway_answer, gateway_answer]
      exact answer_blank place now later result h
  have hblind := Machine.blind Event.blank Outcome.audits hstep events
    (s := (gateway cfg isRevoked limiter denylist).init) ⟨rfl, rfl, .nil⟩
  rw [Machine.answersFrom, Machine.answersFrom, List.map_map, List.map_map] at hblind
  exact hblind

end Gateway

end AgentPlatform
