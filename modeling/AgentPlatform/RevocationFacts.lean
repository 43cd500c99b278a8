/-
What a check against the admission denylist answers, over every run of calls at
non-decreasing times, with the authority's set and the outages as they may be.

A call moves the state by the fetch it made and by nothing else
(`polling_attempt`, `polling_post`), so the state is what the history's fetches
make it (`Remembers`).
-/
import AgentPlatform.Revocation
import Mathlib.Tactic.Linarith
import Mathlib.Tactic.NormNum

namespace AgentPlatform

namespace Revocation

abbrev Poll := Transition Denylist Call Polled

/-- The set a call fetched. -/
def fetchedSet (t : Poll) : Option (List String) :=
  match t.output.attempt with
  | some (.ok ids) => some ids
  | _ => none

/-- When a call fetched, or tried to. -/
def attemptedAt (t : Poll) : Option ℚ := t.output.attempt.map fun _ => t.input.now

/-- The set that the latest successful fetch returned, empty if there was none. -/
def lastFetched (h : List Poll) : List String := (h.filterMap fetchedSet).getLast?.getD []

def lastAttempt (h : List Poll) : Option ℚ := (h.filterMap attemptedAt).getLast?

def Timely (h : List Poll) : Prop := h.Pairwise fun t u => t.input.now ≤ u.input.now

/-! ## One call -/

variable {env : Env} {authority : ℚ → List String}

theorem revokedIds_attempt (now : ℚ) (fetched : Except Exn (List String)) (s : Denylist) :
    (revokedIds env now fetched s).1.attempt =
      if env.source = none ∧ env.address ≠ "" ∧ ttl ≤ now - s.cachedAt then some fetched else none := by
  unfold revokedIds
  cases hsource : env.source with
  | some ids => simp
  | none =>
    by_cases haddr : env.address = ""
    · simp [haddr]
    by_cases hfresh : now - s.cachedAt < ttl
    · simp [haddr, hfresh]
    · cases fetched <;> simp [haddr, hfresh, not_lt.1 hfresh]

/-- The state a fetch leaves. -/
def Denylist.after (s : Denylist) (now : ℚ) : Option (Except Exn (List String)) → Denylist
  | none => s
  | some (.ok ids) => ⟨ids, now, true⟩
  | some (.error _) => { s with cachedAt := now }

theorem revokedIds_post (now : ℚ) (fetched : Except Exn (List String)) (s : Denylist) :
    (revokedIds env now fetched s).2 = s.after now (revokedIds env now fetched s).1.attempt := by
  unfold revokedIds
  cases env.source with
  | some ids => rfl
  | none =>
    by_cases haddr : env.address = ""
    · simp [haddr, Denylist.after]
    by_cases hfresh : now - s.cachedAt < ttl
    · simp [haddr, hfresh, Denylist.after]
    · cases fetched <;> simp [haddr, hfresh, Denylist.after]

/-- Where the set is the network's, what is looked up is the set kept from then on. -/
theorem revokedIds_ids (hsource : env.source = none) (haddr : env.address ≠ "") (now : ℚ)
    (fetched : Except Exn (List String)) (s : Denylist) :
    (revokedIds env now fetched s).1.ids = (revokedIds env now fetched s).2.cache := by
  unfold revokedIds
  by_cases hfresh : now - s.cachedAt < ttl
  · simp [hsource, haddr, hfresh]
  · cases fetched <;> simp [hsource, haddr, hfresh]

variable [UnicodeData]

/-- The call comes to look at the network's set, and the set kept is too old. -/
def Env.fetches (env : Env) (s : Denylist) (c : Call) : Prop :=
  (c.check = none ∨ (env.failsClosed && env.unavailable s) = false) ∧
    env.source = none ∧ env.address ≠ "" ∧ ttl ≤ c.now - s.cachedAt

instance (s : Denylist) (c : Call) : Decidable (env.fetches s c) := by unfold Env.fetches; infer_instance

variable (env authority) in
theorem polling_attempt (s : Denylist) (c : Call) :
    ((polling env authority).step c s).1.attempt =
      if env.fetches s c then some (c.fetched authority) else none := by
  cases hcheck : c.check with
  | none => simp [polling, hcheck, revokedIds_attempt, Env.fetches]
  | some spiffeId =>
    simp only [polling, hcheck, isRevoked, Env.fetches, reduceCtorEq, false_or]
    cases hclosed : env.failsClosed && env.unavailable s with
    | true => simp
    | false => simp [revokedIds_attempt]

variable (env authority) in
theorem polling_post (s : Denylist) (c : Call) :
    ((polling env authority).step c s).2 = s.after c.now ((polling env authority).step c s).1.attempt := by
  cases hcheck : c.check with
  | none => simpa [polling, hcheck] using revokedIds_post ..
  | some spiffeId =>
    simp only [polling, hcheck, isRevoked]
    cases hclosed : env.failsClosed && env.unavailable s with
    | true => rfl
    | false => simpa using revokedIds_post ..

variable (authority) in
/-- A check that is not refused for want of a set answers from the set kept. -/
theorem polling_revoked (hsource : env.source = none) (haddr : env.address ≠ "") {s : Denylist} {c : Call}
    {spiffeId : String} (hcheck : c.check = some spiffeId) (hopen : (env.failsClosed && env.unavailable s) = false) :
    ((polling env authority).step c s).1.revoked =
      some (decide (spiffeId ∈ ((polling env authority).step c s).2.cache)) := by
  simp only [polling, hcheck, isRevoked, hopen]
  simp [revokedIds_ids hsource haddr]

theorem polling_refused {s : Denylist} {c : Call} {spiffeId : String} (hcheck : c.check = some spiffeId)
    (hclosed : (env.failsClosed && env.unavailable s) = true) :
    (polling env authority).step c s = (⟨some true, none⟩, s) := by
  simp only [polling, hcheck, isRevoked, hclosed, if_true]

/-- What a call did about the set it keeps. -/
inductive Fetch (env : Env) (authority : ℚ → List String) (t : Poll) : Prop
  | no (attempt : t.output.attempt = none) (fetches : ¬env.fetches t.pre t.input) (post : t.post = t.pre)
  | ok (attempt : t.output.attempt = some (.ok (authority t.input.now))) (fetches : env.fetches t.pre t.input)
      (up : t.input.outage = none) (post : t.post = ⟨authority t.input.now, t.input.now, true⟩)
  | failed (e : Exn) (attempt : t.output.attempt = some (.error e)) (fetches : env.fetches t.pre t.input)
      (down : t.input.outage = some e) (post : t.post = { t.pre with cachedAt := t.input.now })

variable (authority) in
theorem transition_fetch (s : Denylist) (c : Call) :
    Fetch env authority ((polling env authority).transition s c) := by
  have hattempt := polling_attempt env authority s c
  have hpost := polling_post env authority s c
  by_cases hfetches : env.fetches s c
  · rw [if_pos hfetches] at hattempt
    rw [hattempt] at hpost
    cases hout : c.outage with
    | none =>
      simp only [Call.fetched, hout] at hattempt hpost
      exact .ok hattempt hfetches hout hpost
    | some e =>
      simp only [Call.fetched, hout] at hattempt hpost
      exact .failed e hattempt hfetches hout hpost
  · rw [if_neg hfetches] at hattempt
    rw [hattempt] at hpost
    exact .no hattempt hfetches hpost

/-! ## The fetches of a history -/

omit [UnicodeData] in
theorem lastFetched_concat (h : List Poll) (t : Poll) :
    lastFetched (h ++ [t]) = (fetchedSet t).getD (lastFetched h) := by
  cases ht : fetchedSet t <;> simp [lastFetched, ht]

omit [UnicodeData] in
theorem lastAttempt_concat (h : List Poll) (t : Poll) :
    lastAttempt (h ++ [t]) = (attemptedAt t).or (lastAttempt h) := by
  cases ht : attemptedAt t <;> simp [lastAttempt, ht]

omit [UnicodeData] in
theorem exists_of_lastAttempt {h : List Poll} {a : ℚ} (ha : lastAttempt h = some a) :
    ∃ t ∈ h, t.output.attempt ≠ none ∧ t.input.now = a := by
  obtain ⟨t, ht, hat⟩ := List.mem_filterMap.1 (List.mem_of_getLast? ha)
  obtain ⟨r, hr, rfl⟩ := Option.map_eq_some_iff.1 hat
  exact ⟨t, ht, by simp [hr], rfl⟩

omit [UnicodeData] in
theorem lastAttempt_ne_none {h : List Poll} {t : Poll} (ht : t ∈ h) (hattempt : t.output.attempt ≠ none) :
    lastAttempt h ≠ none := by
  intro hnone
  obtain ⟨r, hr⟩ := Option.ne_none_iff_exists'.1 hattempt
  have hmem := List.mem_filterMap.2 ⟨t, ht, show attemptedAt t = some t.input.now by simp [attemptedAt, hr]⟩
  rw [List.getLast?_eq_none_iff.1 hnone] at hmem
  cases hmem

theorem Fetch.succeeds {t : Poll} (ht : Fetch env authority t) (hup : t.input.outage = none)
    (hattempt : t.output.attempt ≠ none) : (fetchedSet t).isSome = true := by
  cases ht with
  | no attempt => exact absurd attempt hattempt
  | ok attempt => simp [fetchedSet, attempt]
  | failed e attempt fetches down => simp [hup] at down

/-- The state is what the fetches of the history make it. -/
structure Remembers (authority : ℚ → List String) (h : List Poll) (s : Denylist) : Prop where
  cache : s.cache = lastFetched h
  cachedAt : s.cachedAt = (lastAttempt h).getD 0
  available : s.available = true ↔ ∃ t ∈ h, (fetchedSet t).isSome = true
  /-- What the authority's set has been since a fetch, the set kept is. -/
  since : ∀ (P : List String → Prop) (r : ℚ), (∃ t ∈ h, (fetchedSet t).isSome = true ∧ r ≤ t.input.now) →
    (∀ t ∈ h, r ≤ t.input.now → P (authority t.input.now)) → P s.cache

omit [UnicodeData] in
theorem remembers_initial : Remembers authority [] .initial :=
  ⟨rfl, rfl, by simp [Denylist.initial], by simp⟩

theorem Fetch.remembers {h : List Poll} {t : Poll} (ht : Fetch env authority t)
    (hnow : ∀ u ∈ h, u.input.now ≤ t.input.now) (hs : Remembers authority h t.pre) :
    Remembers authority (h ++ [t]) t.post := by
  -- A call that fetched no set keeps the one it had.
  have hkept (hset : fetchedSet t = none) (P : List String → Prop) (r : ℚ)
      (hex : ∃ u ∈ h ++ [t], (fetchedSet u).isSome = true ∧ r ≤ u.input.now)
      (hall : ∀ u ∈ h ++ [t], r ≤ u.input.now → P (authority u.input.now)) : P t.pre.cache := by
    obtain ⟨u, hu, hsome, hr⟩ := hex
    rcases List.mem_append.1 hu with hu | hu
    · exact hs.since P r ⟨u, hu, hsome, hr⟩ fun w hw => hall w (List.mem_append_left _ hw)
    · simp [List.mem_singleton.1 hu, hset] at hsome
  cases ht with
  | no attempt fetches post =>
    rw [post]
    have hset : fetchedSet t = none := by simp [fetchedSet, attempt]
    have hat : attemptedAt t = none := by simp [attemptedAt, attempt]
    exact ⟨by simp [lastFetched_concat, hset, hs.cache], by simp [lastAttempt_concat, hat, hs.cachedAt],
      by simp [hset, hs.available], hkept hset⟩
  | ok attempt fetches up post =>
    rw [post]
    have hset : fetchedSet t = some (authority t.input.now) := by simp [fetchedSet, attempt]
    have hat : attemptedAt t = some t.input.now := by simp [attemptedAt, attempt]
    refine ⟨by simp [lastFetched_concat, hset], by simp [lastAttempt_concat, hat], by simp [hset], ?_⟩
    intro P r ⟨u, hu, hsome, hr⟩ hall
    have hle : u.input.now ≤ t.input.now := by
      rcases List.mem_append.1 hu with hu | hu
      · exact hnow u hu
      · rw [List.mem_singleton.1 hu]
    exact hall t (by simp) (hr.trans hle)
  | failed e attempt fetches down post =>
    rw [post]
    have hset : fetchedSet t = none := by simp [fetchedSet, attempt]
    have hat : attemptedAt t = some t.input.now := by simp [attemptedAt, attempt]
    exact ⟨by simp [lastFetched_concat, hset, hs.cache], by simp [lastAttempt_concat, hat],
      by simp [hset, hs.available], hkept hset⟩

omit [UnicodeData] in
theorem timely_concat {h : List Poll} {t : Poll} :
    Timely (h ++ [t]) ↔ Timely h ∧ ∀ u ∈ h, u.input.now ≤ t.input.now := by
  simp [Timely, List.pairwise_append]

/-- Every call of a run, with what the state before it and after it remembers. -/
theorem polling_remembers {calls : List Call} (htime : calls.Pairwise fun c d => c.now ≤ d.now) :
    ∀ before t after, (polling env authority).run calls = before ++ t :: after →
      ∃ s c, t = (polling env authority).transition s c ∧ Fetch env authority t ∧
        Remembers authority before s ∧ Remembers authority (before ++ [t]) t.post := by
  intro before t after heq
  have htimely : Timely (before ++ t :: after) := heq ▸ Machine.pairwise_run htime
  obtain ⟨s, c, rfl, hs⟩ := Machine.history_rule_at (G := fun _ => True)
    (P := fun h s => Timely h → Remembers authority h s) (fun _ => remembers_initial)
    (fun h s c hs _ ht =>
      (transition_fetch authority s c).remembers (timely_concat.1 ht).2 (hs (timely_concat.1 ht).1))
    calls (fun _ _ => trivial) before t after heq
  have hbefore : Timely (before ++ [(polling env authority).transition s c]) :=
    htimely.sublist (by simp)
  have hfetch : Fetch env authority ((polling env authority).transition s c) := transition_fetch authority s c
  obtain ⟨hsorted, hlast⟩ := timely_concat.1 hbefore
  exact ⟨s, c, rfl, hfetch, hs hsorted, hfetch.remembers hlast (hs hsorted)⟩

/-! ## Without failing closed -/

section FailOpen

variable (hsource : env.source = none) (haddr : env.address ≠ "") (hclosed : env.failsClosed = false)
include hsource haddr hclosed

theorem fetches_iff (s : Denylist) (c : Call) : env.fetches s c ↔ ttl ≤ c.now - s.cachedAt := by
  simp [Env.fetches, hsource, haddr, hclosed]

variable (authority) in
/-- After a call, the last attempt is less than `ttl` old. -/
theorem fresh_post (s : Denylist) (c : Call) :
    c.now - ((polling env authority).transition s c).post.cachedAt < ttl := by
  have hpos : (0 : ℚ) < ttl := by norm_num [ttl]
  have hfetches := fetches_iff hsource haddr hclosed s c
  cases transition_fetch authority s c with
  | no attempt fetches post =>
    rw [post]
    exact not_le.1 fun hle => fetches (hfetches.2 hle)
  | ok attempt fetches up post =>
    rw [post]
    simpa using hpos
  | failed e attempt fetches down post =>
    rw [post]
    simpa using hpos

variable (authority) in
theorem cachedAt_le (s : Denylist) (c : Call) :
    s.cachedAt ≤ ((polling env authority).transition s c).post.cachedAt := by
  have hpos : (0 : ℚ) < ttl := by norm_num [ttl]
  have hfetches := fetches_iff hsource haddr hclosed s c
  cases transition_fetch authority s c with
  | no attempt fetches post => rw [post]; rfl
  | ok attempt fetches up post =>
    rw [post]
    have : ttl ≤ c.now - s.cachedAt := hfetches.1 fetches
    show s.cachedAt ≤ c.now
    linarith
  | failed e attempt fetches down post =>
    rw [post]
    have : ttl ≤ c.now - s.cachedAt := hfetches.1 fetches
    show s.cachedAt ≤ c.now
    linarith

variable (authority) in
/-- A call that fetches is later than every call before it. -/
theorem attempts_later (calls : List Call) :
    ((polling env authority).run calls).Pairwise fun t u => u.output.attempt ≠ none → t.input.now < u.input.now := by
  refine (Machine.history_rule (m := polling env authority) (G := fun _ => True)
    (P := fun h s => (∀ t ∈ h, t.input.now - s.cachedAt < ttl) ∧
      h.Pairwise fun t u => u.output.attempt ≠ none → t.input.now < u.input.now)
    ⟨by simp, .nil⟩ ?_ calls fun _ _ => trivial).2
  intro h s c ⟨hfresh, hlater⟩ _
  have hle := cachedAt_le authority hsource haddr hclosed s c
  refine ⟨fun t ht => ?_, ?_⟩
  · rcases List.mem_append.1 ht with ht | ht
    · exact lt_of_le_of_lt (sub_le_sub_left hle _) (hfresh t ht)
    · rw [List.mem_singleton.1 ht]
      exact fresh_post authority hsource haddr hclosed s c
  · refine List.pairwise_append.2 ⟨hlater, List.pairwise_singleton .., fun t ht u hu hattempt => ?_⟩
    rw [List.mem_singleton.1 hu] at hattempt ⊢
    have hfetches : env.fetches s c := by
      by_contra hno
      simp [polling_attempt, hno] at hattempt
    have hstale := (fetches_iff hsource haddr hclosed s c).1 hfetches
    have := hfresh t ht
    show t.input.now < c.now
    linarith

end FailOpen

omit [UnicodeData] in
theorem first_le {calls : List Call} (hfirst : ∀ c ∈ calls.head?, ttl ≤ c.now)
    (htime : calls.Pairwise fun c d => c.now ≤ d.now) {c : Call} (hc : c ∈ calls) : ttl ≤ c.now := by
  cases calls with
  | nil => cases hc
  | cons d calls =>
    have hd : ttl ≤ d.now := hfirst d rfl
    rcases List.mem_cons.1 hc with rfl | hc
    · exact hd
    · exact hd.trans ((List.pairwise_cons.1 htime).1 c hc)

omit [UnicodeData] in
theorem attempt_of_fetched {t : Poll} (h : (fetchedSet t).isSome = true) : t.output.attempt ≠ none := by
  intro hnone
  simp [fetchedSet, hnone] at h

omit [UnicodeData] in
/-- The set kept is stale if the last attempt is `ttl` or more old. -/
theorem Remembers.stale {h : List Poll} {s : Denylist} (hs : Remembers authority h s) {now : ℚ} (hlate : ttl ≤ now)
    (hold : ∀ a, lastAttempt h = some a → a + ttl ≤ now) : ttl ≤ now - s.cachedAt := by
  rw [hs.cachedAt]
  cases ha : lastAttempt h with
  | none => simpa using hlate
  | some a =>
    have hle : a + ttl ≤ now := hold a ha
    show ttl ≤ now - a
    linarith

omit [UnicodeData] in
/-- Where the set kept is not stale, some call attempted a fetch. -/
theorem Remembers.attempted {h : List Poll} {s : Denylist} (hs : Remembers authority h s) {now : ℚ}
    (hlate : ttl ≤ now) (hfresh : now - s.cachedAt < ttl) : lastAttempt h ≠ none := by
  intro hnone
  rw [hs.cachedAt, hnone, Option.getD_none, sub_zero] at hfresh
  exact absurd hlate (not_le.2 hfresh)

omit [UnicodeData] in
/-- The last attempt is no more than `ttl` before a time at which the set kept is not stale. -/
theorem Remembers.attempted_since {h : List Poll} {s : Denylist} (hs : Remembers authority h s) {now r : ℚ}
    (hsome : lastAttempt h ≠ none) (hfresh : now - s.cachedAt < ttl) (hr : r + ttl ≤ now) :
    ∃ u ∈ h, u.output.attempt ≠ none ∧ r ≤ u.input.now := by
  obtain ⟨a, ha⟩ := Option.ne_none_iff_exists'.1 hsome
  rw [hs.cachedAt, ha, Option.getD_some] at hfresh
  obtain ⟨u, hu, hattempt, hnow⟩ := exists_of_lastAttempt ha
  exact ⟨u, hu, hattempt, by linarith⟩

omit [UnicodeData] in
/-- No call after this one fetches at a time that is not later. -/
theorem mem_of_attempt {before after : List Poll} {t u : Poll}
    (hlater : (before ++ t :: after).Pairwise fun t u => u.output.attempt ≠ none → t.input.now < u.input.now)
    (hu : u ∈ before ++ t :: after) (hattempt : u.output.attempt ≠ none) (hut : u.input.now ≤ t.input.now) :
    u ∈ before ++ [t] := by
  rcases List.mem_append.1 hu with hu | hu
  · exact List.mem_append_left _ hu
  rcases List.mem_cons.1 hu with rfl | hu
  · simp
  have hlt := (List.pairwise_cons.1 (List.pairwise_append.1 hlater).2.1).1 u hu hattempt
  exact absurd hut (not_le.2 hlt)

/-- What is promised of a call in a run. -/
structure BoundedStaleness (authority : ℚ → List String) (run before : List Poll) (t : Poll) : Prop where
  answers : ∀ spiffeId, t.input.check = some spiffeId →
    t.output.revoked = some (decide (spiffeId ∈ lastFetched (before ++ [t])))
  attempts : (∀ a, lastAttempt before = some a → a + ttl ≤ t.input.now) → t.output.attempt ≠ none
  polled : ∀ r, r + ttl ≤ t.input.now →
    ∃ u ∈ before ++ [t], u.output.attempt ≠ none ∧ r ≤ u.input.now ∧ u.input.now ≤ t.input.now
  refuses : ∀ spiffeId r, t.input.check = some spiffeId → r + ttl ≤ t.input.now →
    (∀ τ, r ≤ τ → τ ≤ t.input.now → spiffeId ∈ authority τ) →
    (∃ u ∈ run, (fetchedSet u).isSome = true ∧ r ≤ u.input.now ∧ u.input.now ≤ t.input.now) →
    t.output.revoked = some true
  keeps : ∀ e, t.output.attempt = some (.error e) → t.post.cache = t.pre.cache

theorem bounded_staleness (hsource : env.source = none) (haddr : env.address ≠ "")
    (hclosed : env.failsClosed = false) (calls : List Call) (htime : calls.Pairwise fun c d => c.now ≤ d.now)
    (hfirst : ∀ c ∈ calls.head?, ttl ≤ c.now) :
    Throughout (BoundedStaleness authority ((polling env authority).run calls))
      ((polling env authority).run calls) := by
  intro before t after heq
  obtain ⟨s, c, rfl, hfetch, hpre, hpost⟩ := polling_remembers htime before t after heq
  set t := (polling env authority).transition s c with ht
  have hlater := attempts_later authority hsource haddr hclosed calls
  have hrevoked {spiffeId : String} (hcheck : c.check = some spiffeId) :
      t.output.revoked = some (decide (spiffeId ∈ t.post.cache)) :=
    polling_revoked authority hsource haddr hcheck (by simp [hclosed])
  have hfetches := fetches_iff hsource haddr hclosed s c
  have hle (u : Poll) (hu : u ∈ before ++ [t]) : u.input.now ≤ t.input.now := by
    have htimely : Timely (before ++ t :: after) := heq ▸ Machine.pairwise_run htime
    rcases List.mem_append.1 hu with hu | hu
    · exact (List.pairwise_append.1 htimely).2.2 u hu t (by simp)
    · rw [List.mem_singleton.1 hu]
  have hmem : t ∈ (polling env authority).run calls := by simp [heq]
  have hlate : ttl ≤ c.now := first_le hfirst htime (Machine.input_mem hmem)
  refine ⟨fun spiffeId hcheck => ?_, fun hold => ?_, fun r hr => ?_, fun spiffeId r hcheck hr hin hsome => ?_,
    fun e he => ?_⟩
  · rw [hrevoked hcheck, hpost.cache]
  · have hstale : ttl ≤ c.now - s.cachedAt := hpre.stale hlate hold
    cases hfetch with
    | no attempt fetches => exact absurd (hfetches.2 hstale) fetches
    | ok attempt => simp [attempt]
    | failed e attempt => simp [attempt]
  · have hfresh := fresh_post authority hsource haddr hclosed s c
    obtain ⟨u, hu, hattempt, hru⟩ := hpost.attempted_since (hpost.attempted hlate hfresh) hfresh hr
    exact ⟨u, hu, hattempt, hru, hle u hu⟩
  · rw [hrevoked hcheck]
    obtain ⟨u, hu, hsome, hru, hut⟩ := hsome
    have hmem : u ∈ before ++ [t] := mem_of_attempt (heq ▸ hlater) (heq ▸ hu) (attempt_of_fetched hsome) hut
    have hin : spiffeId ∈ t.post.cache :=
      hpost.since (spiffeId ∈ ·) r ⟨u, hmem, hsome, hru⟩ fun w hw hrw => hin _ hrw (hle w hw)
    simpa using hin
  · cases hfetch with
    | no attempt => simp [attempt] at he
    | ok attempt => simp [attempt] at he
    | failed e' attempt fetches down post => rw [post]

/-- A service that reads the denylist of the api. -/
def gateway : Env := ⟨"https://api:8443/", "", none⟩

def revokedAtSeven (τ : ℚ) : List String := if 7 ≤ τ then ["spiffe://agent"] else []

def twoChecks : List Call := [⟨6, some "spiffe://agent", none⟩, ⟨12, some "spiffe://agent", none⟩]

omit [UnicodeData] in
theorem twoChecks_bounded :
    Throughout (BoundedStaleness revokedAtSeven ((@polling asciiData gateway revokedAtSeven).run twoChecks))
      ((@polling asciiData gateway revokedAtSeven).run twoChecks) :=
  @bounded_staleness gateway revokedAtSeven asciiData rfl (by decide) (by decide) twoChecks
    (by simp [twoChecks]; norm_num) (by simp [twoChecks, ttl]; norm_num)

/-! ## Failing closed -/

/-- A check that should answer that the workload is not revoked: the api has
been reachable for `ttl` and the identity not in its set since then; or it was
not in the set since a fetch that succeeded; or it never was in the set, and
some call so far could have fetched it. -/
inductive Owed (authority : ℚ → List String) (before : List Poll) (t : Poll) (spiffeId : String) : Prop
  | reachable (τ : ℚ) (since : τ + ttl ≤ t.input.now)
      (up : ∀ u ∈ before ++ [t], τ ≤ u.input.now → u.input.outage = none)
      (unrevoked : ∀ u ∈ before ++ [t], τ ≤ u.input.now → spiffeId ∉ authority u.input.now)
  | fetched (u : Poll) (mem : u ∈ before) (fetched : (fetchedSet u).isSome = true)
      (unrevoked : ∀ w ∈ before ++ [t], u.input.now ≤ w.input.now → spiffeId ∉ authority w.input.now)
  | never (up : ∃ u ∈ before ++ [t], u.input.outage = none)
      (unrevoked : ∀ u ∈ before ++ [t], spiffeId ∉ authority u.input.now)

section FailClosed

variable (hsource : env.source = none) (haddr : env.address ≠ "") (hclosed : env.failsClosed = true)
include hsource haddr hclosed

theorem failsClosed_unavailable (s : Denylist) : (env.failsClosed && env.unavailable s) = !s.available := by
  simp [hclosed, Env.unavailable, hsource, haddr]

/-- A check before any set was obtained refuses, and fetches nothing. -/
theorem unavailable_refuses {s : Denylist} {c : Call} {spiffeId : String} (hcheck : c.check = some spiffeId)
    (hs : s.available = false) : (polling env authority).step c s = (⟨some true, none⟩, s) := by
  refine polling_refused hcheck ?_
  rw [failsClosed_unavailable hsource haddr hclosed, hs]
  rfl

/-- With a set at hand, the call asks the api once the set is `ttl` old. -/
theorem available_fetches {s : Denylist} (hs : s.available = true) (c : Call) :
    env.fetches s c ↔ ttl ≤ c.now - s.cachedAt := by
  have hopen := failsClosed_unavailable hsource haddr hclosed s
  rw [hs] at hopen
  simp only [Env.fetches, hopen, hsource, ne_eq, haddr, not_false_iff, true_and, Bool.not_true, or_true]

/-- For an owed check with a set at hand there is a fetch that succeeded, and
the identity is not in the authority's set since. -/
theorem owed_fetch {before : List Poll} {s : Denylist} {c : Call} {spiffeId : String}
    (hbefore : ∀ u ∈ before, Fetch env authority u)
    (hpre : Remembers authority before s) (hs : s.available = true)
    (howed : Owed authority before ((polling env authority).transition s c) spiffeId) :
    ∃ u ∈ before ++ [(polling env authority).transition s c], (fetchedSet u).isSome = true ∧
      ∀ w ∈ before ++ [(polling env authority).transition s c], u.input.now ≤ w.input.now →
        spiffeId ∉ authority w.input.now := by
  obtain ⟨v, hv, hvset⟩ := hpre.available.1 hs
  set t := (polling env authority).transition s c with ht
  have hfetch : Fetch env authority t := transition_fetch authority s c
  cases howed with
  | reachable τ since up unrevoked =>
    have since : τ + ttl ≤ c.now := since
    -- The last attempt, this call's or an earlier one, was made while the api was reachable.
    have hlast : ∃ u ∈ before ++ [t], Fetch env authority u ∧ u.output.attempt ≠ none ∧ τ ≤ u.input.now := by
      by_cases hstale : ttl ≤ c.now - s.cachedAt
      · have hattempt : t.output.attempt ≠ none := by
          have hfetches : env.fetches s c := (available_fetches hsource haddr hclosed hs c).2 hstale
          simp [ht, polling_attempt, hfetches]
        have hpos : (0 : ℚ) < ttl := by norm_num [ttl]
        have hτ : τ ≤ c.now := by linarith
        exact ⟨t, by simp, hfetch, hattempt, hτ⟩
      · have hsome : lastAttempt before ≠ none := lastAttempt_ne_none hv (attempt_of_fetched hvset)
        obtain ⟨u, hu, hattempt, hτ⟩ := hpre.attempted_since hsome (not_le.1 hstale) since
        exact ⟨u, List.mem_append_left _ hu, hbefore u hu, hattempt, hτ⟩
    obtain ⟨u, hu, hufetch, hattempt, hτ⟩ := hlast
    exact ⟨u, hu, hufetch.succeeds (up u hu hτ) hattempt, fun w hw hle => unrevoked w hw (hτ.trans hle)⟩
  | fetched u mem fetched unrevoked => exact ⟨u, List.mem_append_left _ mem, fetched, unrevoked⟩
  | never up unrevoked => exact ⟨v, List.mem_append_left _ hv, hvset, fun w hw _ => unrevoked w hw⟩

/-- Exactly the owed checks made with a set at hand are answered as they should
be. No check fetches the first set: only a call of `revoked_ids()` does. -/
theorem recovers_iff (calls : List Call) (htime : calls.Pairwise fun c d => c.now ≤ d.now) :
    Throughout (fun before t => ∀ spiffeId, t.input.check = some spiffeId → Owed authority before t spiffeId →
        (t.output.revoked = some false ↔ t.pre.available = true)) ((polling env authority).run calls) ∧
      ((∀ c ∈ calls, c.check ≠ none) → ∀ t ∈ (polling env authority).run calls,
        t.pre.available = false ∧ t.output = ⟨some true, none⟩) := by
  constructor
  · intro before t after heq spiffeId hcheck howed
    obtain ⟨s, c, rfl, hfetch, hpre, hpost⟩ := polling_remembers htime before t after heq
    have hcheck : c.check = some spiffeId := hcheck
    cases hs : s.available with
    | true =>
      have hbefore : ∀ u ∈ before, Fetch env authority u := by
        intro u hu
        obtain ⟨s', c', rfl⟩ := Machine.mem_run (heq ▸ List.mem_append_left _ hu)
        exact transition_fetch authority s' c'
      obtain ⟨u, hu, hset, hunrevoked⟩ := owed_fetch hsource haddr hclosed hbefore hpre hs howed
      have hout := hpost.since (spiffeId ∉ ·) u.input.now ⟨u, hu, hset, le_rfl⟩ hunrevoked
      have hopen := failsClosed_unavailable hsource haddr hclosed s
      rw [hs] at hopen
      have hrevoked := polling_revoked authority hsource haddr hcheck hopen
      simpa [hs, hrevoked] using hout
    | false =>
      simp [unavailable_refuses hsource haddr hclosed hcheck hs, hs]
  · intro hchecks t ht
    obtain ⟨s, c, rfl, hs⟩ := Machine.invariant_run (m := polling env authority)
      (G := fun t => t.input.check ≠ none) (I := fun s => s.available = false) rfl
      (fun s c hs hcheck => by
        obtain ⟨spiffeId, hcheck⟩ : ∃ spiffeId, c.check = some spiffeId := Option.ne_none_iff_exists'.1 hcheck
        rw [unavailable_refuses hsource haddr hclosed hcheck hs]
        exact hs)
      calls (fun t ht => hchecks _ (Machine.input_mem ht)) t ht
    obtain ⟨spiffeId, hcheck⟩ := Option.ne_none_iff_exists'.1 (hchecks c (Machine.input_mem ht))
    exact ⟨hs, congrArg Prod.fst (unavailable_refuses hsource haddr hclosed hcheck hs)⟩

end FailClosed

/-- The same service, told to fail closed. -/
def strictGateway : Env := { gateway with failClosed := "1" }

omit [UnicodeData] in
/-- A first set fetched by a call of `revoked_ids()`, then a check. -/
theorem afterLookup_recovers :
    let calls : List Call := [⟨6, none, none⟩, ⟨12, some "spiffe://agent", none⟩]
    Throughout (fun before t => ∀ spiffeId, t.input.check = some spiffeId → Owed (fun _ => []) before t spiffeId →
        (t.output.revoked = some false ↔ t.pre.available = true))
        ((@polling asciiData strictGateway fun _ => []).run calls) ∧
      ((∀ c ∈ calls, c.check ≠ none) → ∀ t ∈ (@polling asciiData strictGateway fun _ => []).run calls,
        t.pre.available = false ∧ t.output = ⟨some true, none⟩) :=
  @recovers_iff strictGateway (fun _ => []) asciiData rfl (by decide) (by decide) _ (by simp; norm_num)

omit [UnicodeData] in
/-- The api is reachable throughout and its set empty, and still the check made
`ttl` after the first one refuses. -/
theorem reachable_refused :
    ¬ ∀ calls : List Call, (∀ c ∈ calls, c.check ≠ none) → (calls.Pairwise fun c d => c.now ≤ d.now) →
      Throughout (fun before t => ∀ spiffeId, t.input.check = some spiffeId →
        Owed (fun _ => []) before t spiffeId → t.output.revoked = some false)
        ((@polling asciiData strictGateway fun _ => []).run calls) := by
  intro h
  let strict := @polling asciiData strictGateway fun _ => []
  let first := strict.transition .initial ⟨6, some "spiffe://agent", none⟩
  let second := strict.transition first.post ⟨12, some "spiffe://agent", none⟩
  have howed : Owed (fun _ => []) [first] second "spiffe://agent" := by
    refine .reachable 6 (by norm_num [second, ttl]) (fun u hu _ => ?_) (by simp)
    have hu : u = first ∨ u = second := by simpa using hu
    rcases hu with rfl | rfl <;> rfl
  have hanswer : second.output.revoked = some false :=
    h twoChecks (by simp [twoChecks]) (by simp [twoChecks]; norm_num) [first] second [] rfl "spiffe://agent" rfl howed
  exact absurd hanswer (by decide)

end Revocation

end AgentPlatform
