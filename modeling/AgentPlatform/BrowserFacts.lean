/-
The browser session is the last sign-in's.

`Last` is what a run has come to: who signed in last, whether a renewal of
that session has failed since, and what is still under way from before.
`LastSignIn` says that storage, the app and the renewals agree with it.

Answers that come late are the trouble: the answer to a renewal that was begun
before the last sign-in or sign-out is stored all the same. `InTime` is when
none of them does harm, and `lastSignIn_iff` that the session is the last
sign-in's throughout a run then and only then.
-/
import AgentPlatform.Browser

namespace AgentPlatform

namespace Browser

abbrev Step := Transition State Input (List (Option Session))

/-! ## What a run has come to -/

structure Last where
  /-- The user of the last completed sign-in, if no sign-out was completed after it. -/
  user : Option String
  /-- A renewal of that session has failed. -/
  failed : Bool
  /-- The renewal in flight was begun before. -/
  lateRenewal : Bool
  /-- How many of the requests sent again were sent before: they are the first ones. -/
  lateRetries : Nat

/-- What is answered was asked before the last sign-in or sign-out was completed. -/
def Last.isLate (h : Last) (t : Step) : Bool :=
  match t.input with
  | .renewed _ => h.lateRenewal
  | .answeredAgain i _ _ => decide (i < h.lateRetries)
  | _ => false

/-- A renewal fails: there is nothing to renew with, or the API does not renew the
session, or it rejects the token of the renewed one. -/
def fails (t : Step) : Bool :=
  match t.input with
  | .timer _ => decide (none ∈ t.output)
  | .answered _ _ _ => decide (none ∈ t.output)
  | .renewed answer => t.pre.renewalInFlight.isSome && (answer.bind normaliseSession).isNone
  | .answeredAgain i status detail => decide (i < t.pre.retried.length) && tokenTrouble status detail
  | _ => false

/-- The session a renewal brings. -/
def brings (t : Step) : Option Session :=
  match t.input with
  | .renewed answer => if t.pre.renewalInFlight.isSome then answer.bind normaliseSession else none
  | _ => none

/-- A sign-in or a sign-out is completed: whatever is under way is from before. -/
def Last.complete (user : Option String) (t : State) : Last :=
  { user, failed := false, lateRenewal := t.renewalInFlight.isSome, lateRetries := t.retried.length }

def Last.next (h : Last) (t : Step) : Last :=
  let failed := h.failed || fails t && !h.isLate t
  match t.input with
  | .signIn answer =>
    match normaliseSession answer with
    | some s => .complete (some s.user) t.pre
    | none => h
  | .signOut => .complete none t.pre
  | .answeredAgain i _ _ =>
    { h with failed, lateRetries := if i < h.lateRetries then h.lateRetries - 1 else h.lateRetries }
  | _ => { h with failed, lateRenewal := h.lateRenewal && t.pre.renewalInFlight.isSome }

/-- What the steps of a run have come to, from a page load on. -/
def last (now : Rat) (stored : Option Session) (history : List Step) : Last :=
  history.foldl Last.next ⟨(load now stored).session.map Session.user, false, false, 0⟩

/-! ## The session of the last sign-in -/

/-- A session of this user, or none after a failed renewal. -/
def Of (h : Last) (u : String) (s : Option Session) : Prop := s.elim (h.failed = true) fun s => s.user = u

/-- The stored session, that of the app and what renewals resolve to are the last sign-in's. -/
structure LastSignIn (h : Last) (t : State) (resolved : List (Option Session)) : Prop where
  signed_out : h.user = none → t.stored = none ∧ t.session = none
  signed_in : ∀ u, h.user = some u → Of h u t.stored ∧ (∀ s ∈ t.session, s.user = u) ∧ ∀ r ∈ resolved, Of h u r

/-- A late answer does no harm: a failure comes when no one is signed in, or when
the session has ended already, and a session is one of the user who is. -/
def InTime (h : Last) (t : Step) : Prop :=
  h.isLate t = true → (fails t = true → h.user = none ∨ h.failed = true) ∧ ∀ s ∈ brings t, h.user = some s.user

/-- The API renews a session for its own user. -/
def Renews (t : Step) : Prop :=
  ∀ answer renewal, t.input = .renewed (some answer) → t.pre.renewalInFlight = some renewal →
    answer.user = renewal.session.user

/-- The session is the last sign-in's when the page is loaded and after every step. -/
def AlwaysLastSignIn (now : Rat) (stored : Option Session) (is : List Input) : Prop :=
  LastSignIn (last now stored []) (load now stored) [] ∧
    Throughout (fun before t => LastSignIn (last now stored (before ++ [t])) t.post t.output)
      ((browser now stored).run is)

/-! ## One step -/

theorem normaliseSession_user {r : SessionAnswer} {s : Session} (h : normaliseSession r = some s) :
    s.user = r.user := by
  unfold normaliseSession at h
  split at h
  · cases h
  · split at h
    · cases h
    · cases h
      rfl

theorem loadSession_cases (now : Rat) (stored : Option Session) :
    loadSession now stored = stored ∨ loadSession now stored = none := by
  cases stored with
  | none => exact .inl rfl
  | some s => cases hlive : s.isLive now <;> simp [loadSession, Option.filter, hlive]

/-- Those who wait for a renewal leave its result in storage, and take over nothing else. -/
theorem foldl_settle : ∀ (waiting : List Caller) {next : Option Session} {t : State}, t.stored = next →
    let t' := waiting.foldl (State.settle next) t
    t'.stored = next ∧ (t'.session = t.session ∨ t'.session = next) ∧ t'.renewalInFlight = t.renewalInFlight
  | [], next, t, h => ⟨h, .inl rfl, rfl⟩
  | caller :: waiting, next, t, h => by
    have hone : (State.settle next t caller).stored = next ∧
        ((State.settle next t caller).session = t.session ∨ (State.settle next t caller).session = next) ∧
        (State.settle next t caller).renewalInFlight = t.renewalInFlight := by
      cases caller <;> cases next <;> simp [State.settle, State.setSession, State.expire, State.endSession, h]
    obtain ⟨hstored, hsession, hrenewal⟩ := hone
    obtain ⟨hstored', hsession', hrenewal'⟩ := foldl_settle waiting hstored
    refine ⟨hstored', ?_, hrenewal'.trans hrenewal⟩
    rcases hsession' with hsession' | hsession'
    · rcases hsession with hsession | hsession
      · exact .inl (hsession'.trans hsession)
      · exact .inr (hsession'.trans hsession)
    · exact .inr hsession'

/-- What a call of `renewSession` does: it settles its caller at once and has failed, or
the caller waits for a renewal, of the stored session unless one is in flight. -/
theorem renewSession_cases (now : Rat) (caller : Caller) (t : State) :
    ((t.renewSession now caller).1 = [none] ∧
      ((t.renewSession now caller).2.stored = t.stored ∨ (t.renewSession now caller).2.stored = none) ∧
      (t.renewSession now caller).2.session = none ∧
      (t.renewSession now caller).2.renewalInFlight = t.renewalInFlight) ∨
    ∃ s renewal, t.stored = some s ∧ (t.renewSession now caller).1 = [] ∧
      (t.renewSession now caller).2.stored = t.stored ∧ (t.renewSession now caller).2.session = t.session ∧
      (t.renewSession now caller).2.renewalInFlight = some renewal ∧
      renewal.session = t.renewalInFlight.elim s Renewal.session := by
  have hfailed {stored : Option Session} (hstored : stored = t.stored ∨ stored = none) :
      let t' := State.settle none { t with stored := stored } caller
      (t'.stored = t.stored ∨ t'.stored = none) ∧ t'.session = none ∧ t'.renewalInFlight = t.renewalInFlight := by
    cases caller
    · exact ⟨hstored, rfl, rfl⟩
    · exact ⟨.inr rfl, rfl, rfl⟩
  have hloaded := loadSession_cases now t.stored
  unfold State.renewSession
  dsimp only
  split
  · exact .inl ⟨rfl, hfailed hloaded⟩
  · rename_i s hs
    split
    · exact .inl ⟨rfl, hfailed hloaded⟩
    · have hstored : loadSession now t.stored = t.stored := by
        rcases hloaded with h | h
        · exact h
        · rw [hs] at h
          cases h
      refine .inr ⟨s, _, hstored ▸ hs, rfl, hstored, rfl, rfl, ?_⟩
      cases t.renewalInFlight <;> rfl

/-- The session stays the last sign-in's where nothing is taken over, and what is
cleared is cleared by a failed renewal. -/
theorem LastSignIn.mono {h h' : Last} {t t' : State} {resolved : List (Option Session)} (hlast : LastSignIn h t [])
    (huser : h'.user = h.user) (hfailed : h.failed = true → h'.failed = true)
    (hstored : t'.stored = t.stored ∨ t'.stored = none ∧ h'.failed = true)
    (hsession : t'.session = t.session ∨ t'.session = none)
    (hresolved : ∀ r ∈ resolved, r = none ∧ h'.failed = true) : LastSignIn h' t' resolved where
  signed_out hu := by
    obtain ⟨hs, ha⟩ := hlast.signed_out (huser ▸ hu)
    constructor
    · rcases hstored with h | h
      · rw [h, hs]
      · exact h.1
    · rcases hsession with h | h
      · rw [h, ha]
      · exact h
  signed_in u hu := by
    obtain ⟨hs, ha, -⟩ := hlast.signed_in u (huser ▸ hu)
    refine ⟨?_, ?_, ?_⟩
    · rcases hstored with h | ⟨h, hf⟩
      · rw [h]
        cases hstored' : t.stored with
        | none =>
          rw [hstored'] at hs
          exact hfailed hs
        | some s =>
          rw [hstored'] at hs
          exact hs
      · rw [h]
        exact hf
    · rcases hsession with h | h
      · exact h ▸ ha
      · rw [h]
        nofun
    · intro r hr
      obtain ⟨rfl, hf⟩ := hresolved r hr
      exact hf

/-- Between two steps: the session is the last sign-in's, and a renewal that is not
late is one of its user. -/
structure Inv (h : Last) (t : State) : Prop where
  lastSignIn : LastSignIn h t []
  renewal : ∀ r, t.renewalInFlight = some r → h.lateRenewal = false → h.user = some r.session.user

theorem LastSignIn.nil {h : Last} {t : State} {resolved : List (Option Session)} (hlast : LastSignIn h t resolved) :
    LastSignIn h t [] :=
  ⟨hlast.signed_out, fun u hu => ⟨(hlast.signed_in u hu).1, (hlast.signed_in u hu).2.1, nofun⟩⟩

/-- A completed sign-in or sign-out begins anew. -/
theorem Inv.complete (next : Option Session) (t : State) :
    Inv (.complete (next.map Session.user) t) (t.setSession next) where
  lastSignIn := {
    signed_out := fun hu => by
      obtain rfl := Option.map_eq_none_iff.1 hu
      exact ⟨rfl, rfl⟩
    signed_in := fun u hu => by
      obtain ⟨s, rfl, rfl⟩ := Option.map_eq_some_iff.1 hu
      refine ⟨rfl, ?_, nofun⟩
      rintro s' hs'
      cases hs'
      rfl }
  renewal r hr hlate := by
    have hsome : t.renewalInFlight.isSome = false := hlate
    have hr' : t.renewalInFlight = some r := hr
    rw [hr'] at hsome
    cases hsome

/-- Asking for a renewal keeps the invariant. -/
theorem Inv.renewSession {h h' : Last} {t : State} (hinv : Inv h t) (now : Rat) (caller : Caller)
    (huser : h'.user = h.user) (hfailed : h'.failed = (h.failed || decide (none ∈ (t.renewSession now caller).1)))
    (hlate : h'.lateRenewal = (h.lateRenewal && t.renewalInFlight.isSome)) :
    LastSignIn h' (t.renewSession now caller).2 (t.renewSession now caller).1 ∧
      Inv h' (t.renewSession now caller).2 := by
  rcases renewSession_cases now caller t with ⟨hout, hstored, hsession, hrenewal⟩ |
    ⟨s, renewal, hs, hout, hstored, hsession, hrenewal, hof⟩
  · have hf : h'.failed = true := by rw [hfailed, hout]; simp
    have hlast : LastSignIn h' (t.renewSession now caller).2 (t.renewSession now caller).1 :=
      hinv.lastSignIn.mono huser (fun _ => hf) (hstored.imp_right fun h => ⟨h, hf⟩) (.inr hsession)
        fun r hr => ⟨List.mem_singleton.1 (hout ▸ hr), hf⟩
    refine ⟨hlast, hlast.nil, fun r hr hl => ?_⟩
    rw [hrenewal] at hr
    rw [hlate, hr, Option.isSome_some, Bool.and_true] at hl
    rw [huser]
    exact hinv.renewal r hr hl
  · have hf : h'.failed = h.failed := by rw [hfailed, hout]; simp
    have hlast : LastSignIn h' (t.renewSession now caller).2 (t.renewSession now caller).1 :=
      hinv.lastSignIn.mono huser (fun h => hf.trans h) (.inl hstored) (.inl hsession) fun r hr => by
        rw [hout] at hr
        cases hr
    refine ⟨hlast, hlast.nil, fun r hr hl => ?_⟩
    obtain rfl := Option.some.inj (hrenewal.symm.trans hr)
    rw [huser]
    cases hflight : t.renewalInFlight with
    | some r =>
      rw [hlate, hflight, Option.isSome_some, Bool.and_true] at hl
      rw [hof, hflight]
      exact hinv.renewal r hflight hl
    | none =>
      -- the renewal begins with the stored session
      rw [hof, hflight]
      cases hu : h.user with
      | none => exact absurd (hinv.lastSignIn.signed_out hu).1 (by simp [hs])
      | some u =>
        have := (hinv.lastSignIn.signed_in u hu).1
        rw [hs] at this
        exact congrArg some this.symm

/-- Where a session is taken over, it is the last sign-in's exactly when it is one of its user. -/
theorem lastSignIn_taken {h h' : Last} {t t' : State} {resolved : List (Option Session)} {s : Session}
    (hlast : LastSignIn h t []) (huser : h'.user = h.user) (hstored : t'.stored = some s)
    (hsession : t'.session = t.session ∨ t'.session = some s) (hresolved : ∀ r ∈ resolved, r = some s) :
    LastSignIn h' t' resolved ↔ h.user = some s.user := by
  constructor
  · intro hnow
    cases hu : h.user with
    | none =>
      have := (hnow.signed_out (huser.trans hu)).1
      rw [hstored] at this
      cases this
    | some u =>
      have := (hnow.signed_in u (huser.trans hu)).1
      rw [hstored] at this
      exact congrArg some this.symm
  · intro hu
    refine ⟨fun hnone => ?_, fun u hu' => ?_⟩
    · rw [huser, hu] at hnone
      cases hnone
    · obtain rfl := Option.some.inj (hu.symm.trans (huser.symm.trans hu'))
      refine ⟨?_, ?_, fun r hr => ?_⟩
      · rw [hstored]
        rfl
      · rcases hsession with hsession | hsession
        · exact hsession ▸ (hlast.signed_in _ hu).2.1
        · rw [hsession]
          rintro _ ⟨⟩
          rfl
      · rw [hresolved r hr]
        rfl

/-- Where the session is cleared, that is right exactly when no one is signed in, or when a
renewal of it has failed. -/
theorem lastSignIn_cleared {h h' : Last} {t t' : State} {resolved : List (Option Session)}
    (hlast : LastSignIn h t []) (huser : h'.user = h.user) (hfailed : h.failed = true → h'.failed = true)
    (hstored : t'.stored = none) (hsession : t'.session = t.session ∨ t'.session = none)
    (hresolved : ∀ r ∈ resolved, r = none) :
    LastSignIn h' t' resolved ↔ h.user = none ∨ h'.failed = true := by
  constructor
  · intro hnow
    cases hu : h.user with
    | none => exact .inl rfl
    | some u =>
      have := (hnow.signed_in u (huser.trans hu)).1
      rw [hstored] at this
      exact .inr this
  · rintro (hu | hf)
    · refine ⟨fun _ => ⟨hstored, ?_⟩, fun u hu' => ?_⟩
      · rcases hsession with hsession | hsession
        · exact hsession.trans (hlast.signed_out hu).2
        · exact hsession
      · rw [huser, hu] at hu'
        cases hu'
    · exact hlast.mono huser hfailed (.inr ⟨hstored, hf⟩) hsession fun r hr => ⟨hresolved r hr, hf⟩

/-- What the answer to the renewal in flight leaves: its session, or none, for all who waited. -/
theorem renewed_of_flight {t : State} {renewal : Renewal} (hflight : t.renewalInFlight = some renewal)
    (answer : Option SessionAnswer) :
    (t.renewed answer).2.stored = answer.bind normaliseSession ∧
      ((t.renewed answer).2.session = t.session ∨ (t.renewed answer).2.session = answer.bind normaliseSession) ∧
      (t.renewed answer).2.renewalInFlight = none ∧
      ∀ r ∈ (t.renewed answer).1, r = answer.bind normaliseSession := by
  unfold State.renewed
  rw [hflight]
  obtain ⟨hstored, hsession, hdone⟩ := @foldl_settle renewal.waiting (answer.bind normaliseSession)
    { t with stored := answer.bind normaliseSession, renewalInFlight := none } rfl
  exact ⟨hstored, hsession, hdone, fun r hr => by
    obtain ⟨_, -, rfl⟩ := List.mem_map.1 hr
    rfl⟩

/-- The answer to a renewal: the session stays the last sign-in's exactly when the answer is in time. -/
theorem Inv.renewed {h : Last} {t : State} (hinv : Inv h t) (answer : Option SessionAnswer) :
    let step : Step := ⟨t, .renewed answer, (t.renewed answer).1, (t.renewed answer).2⟩
    Renews step → (LastSignIn (h.next step) step.post step.output ↔ InTime h step) ∧
      (InTime h step → Inv (h.next step) step.post) := by
  intro step hrenews
  have huser : (h.next step).user = h.user := rfl
  have hfailed : (h.next step).failed = (h.failed || fails step && !h.lateRenewal) := rfl
  have hkept : h.failed = true → (h.next step).failed = true := fun hf => by rw [hfailed, hf, Bool.true_or]
  cases hflight : t.renewalInFlight with
  | none =>
    have hstep : t.renewed answer = ([], t) := by simp [State.renewed, hflight]
    have hlast : LastSignIn (h.next step) step.post step.output := by
      refine hinv.lastSignIn.mono rfl hkept (.inl ?_) (.inl ?_) ?_ <;> simp [step, hstep]
    have hintime : InTime h step := fun _ => by simp [step, fails, brings, hflight]
    refine ⟨iff_of_true hlast hintime, fun _ => ⟨hlast.nil, fun r hr => ?_⟩⟩
    simp only [step, hstep, hflight] at hr
    cases hr
  | some renewal =>
    have hafter : step.post.stored = answer.bind normaliseSession ∧
        (step.post.session = t.session ∨ step.post.session = answer.bind normaliseSession) ∧
        step.post.renewalInFlight = none ∧ ∀ r ∈ step.output, r = answer.bind normaliseSession :=
      renewed_of_flight hflight answer
    obtain ⟨hstored, hsession, hdone, hresolved⟩ := hafter
    have hiff : LastSignIn (h.next step) step.post step.output ↔ InTime h step := by
      cases hnext : answer.bind normaliseSession with
      | some s =>
        rw [hnext] at hstored hsession hresolved
        rw [lastSignIn_taken hinv.lastSignIn huser hstored hsession hresolved]
        have hintime : InTime h step ↔ (h.lateRenewal = true → h.user = some s.user) := by
          simp [InTime, Last.isLate, step, fails, brings, hflight, hnext]
        rw [hintime]
        refine ⟨fun hu _ => hu, fun hu => ?_⟩
        cases hlate : h.lateRenewal with
        | true => exact hu hlate
        | false =>
          obtain ⟨r, rfl, hr⟩ := Option.bind_eq_some_iff.1 hnext
          rw [normaliseSession_user hr, hrenews r renewal rfl hflight]
          exact hinv.renewal renewal hflight hlate
      | none =>
        rw [hnext] at hstored hsession hresolved
        rw [lastSignIn_cleared hinv.lastSignIn huser hkept hstored hsession hresolved, hfailed]
        cases hlate : h.lateRenewal <;> simp [InTime, Last.isLate, step, fails, brings, hflight, hnext, hlate]
    refine ⟨hiff, fun hintime => ⟨(hiff.2 hintime).nil, fun r hr => ?_⟩⟩
    rw [hdone] at hr
    cases hr

/-- The answer to a request that was sent again. -/
theorem Inv.answeredAgain {h : Last} {t : State} (hinv : Inv h t) (i status : Nat) (detail : List Char) :
    let step : Step := ⟨t, .answeredAgain i status detail, (Browser.step t (.answeredAgain i status detail)).1,
      (Browser.step t (.answeredAgain i status detail)).2⟩
    (LastSignIn (h.next step) step.post step.output ↔ InTime h step) ∧
      (InTime h step → Inv (h.next step) step.post) := by
  intro step
  have huser : (h.next step).user = h.user := rfl
  have hfailed : (h.next step).failed = (h.failed || fails step && !decide (i < h.lateRetries)) := rfl
  have hkept : h.failed = true → (h.next step).failed = true := fun hf => by rw [hfailed, hf, Bool.true_or]
  have hrenewal : step.post.renewalInFlight = t.renewalInFlight := by
    simp only [step, Browser.step]
    split
    · cases tokenTrouble status detail <;> rfl
    · rfl
  have hiff : LastSignIn (h.next step) step.post step.output ↔ InTime h step := by
    cases hfails : fails step with
    | true =>
      have hends : i < t.retried.length ∧ tokenTrouble status detail = true := by simpa [fails, step] using hfails
      have hpost : Browser.step t (.answeredAgain i status detail) =
          ([], { t with retried := t.retried.eraseIdx i, stored := none, session := none }) := by
        simp [Browser.step, hends, State.endSession]
      have hstored : step.post.stored = none := by simp [step, hpost]
      have hsession : step.post.session = none := by simp [step, hpost]
      have hout : ∀ r ∈ step.output, r = none := by simp [step, hpost]
      rw [lastSignIn_cleared hinv.lastSignIn huser hkept hstored (.inr hsession) hout, hfailed, hfails]
      by_cases hlate : i < h.lateRetries <;> simp [InTime, Last.isLate, step, brings, hlate, hfails]
    | false =>
      have hsame : step.post.stored = t.stored ∧ step.post.session = t.session ∧ step.output = [] := by
        by_cases hi : i < t.retried.length
        · have htrouble : tokenTrouble status detail = false := by simpa [fails, step, hi] using hfails
          simp [step, Browser.step, hi, htrouble]
        · simp [step, Browser.step, hi]
      obtain ⟨hstored, hsession, hout⟩ := hsame
      refine iff_of_true (hinv.lastSignIn.mono huser hkept (.inl hstored) (.inl hsession) ?_) fun _ => ⟨?_, nofun⟩
      · rw [hout]
        nofun
      · rw [hfails]
        nofun
  refine ⟨hiff, fun hintime => ⟨(hiff.2 hintime).nil, fun r hr hl => ?_⟩⟩
  exact hinv.renewal r (hrenewal ▸ hr) hl

/-- **One step**: from a session that is the last sign-in's, it stays so exactly when
what is answered is answered in time. -/
theorem Inv.step {h : Last} {t : State} (hinv : Inv h t) (i : Input) :
    let step : Step := ⟨t, i, (Browser.step t i).1, (Browser.step t i).2⟩
    Renews step → (LastSignIn (h.next step) step.post step.output ↔ InTime h step) ∧
      (InTime h step → Inv (h.next step) step.post) := by
  intro step hrenews
  have hontime (hlate : h.isLate step = false) : InTime h step := fun h' => by
    rw [hlate] at h'
    cases h'
  have hkept (hlate : h.isLate step = false) (hpost : Inv (h.next step) step.post)
      (hlast : LastSignIn (h.next step) step.post step.output) :
      (LastSignIn (h.next step) step.post step.output ↔ InTime h step) ∧
        (InTime h step → Inv (h.next step) step.post) :=
    ⟨iff_of_true hlast (hontime hlate), fun _ => hpost⟩
  cases i with
  | signIn answer =>
    cases hs : normaliseSession answer with
    | some s =>
      have hpost : Inv (h.next step) step.post := by
        simpa [step, Last.next, Browser.step, hs] using Inv.complete (some s) t
      exact hkept rfl hpost (by simpa [step, Browser.step, hs] using hpost.lastSignIn)
    | none =>
      have hpost : Inv (h.next step) step.post := by
        simpa [step, Last.next, Browser.step, hs] using hinv
      exact hkept rfl hpost (by simpa [step, Browser.step, hs] using hpost.lastSignIn)
  | signOut => exact hkept rfl (Inv.complete none t) (Inv.complete none t).lastSignIn
  | timer now =>
    have hask : LastSignIn (h.next step) step.post step.output ∧ Inv (h.next step) step.post :=
      hinv.renewSession now .timer rfl (congrArg (h.failed || ·) (Bool.and_true _)) rfl
    exact hkept rfl hask.2 hask.1
  | answered now status detail =>
    cases htrouble : tokenTrouble status detail with
    | true =>
      have hstep : Browser.step t (.answered now status detail) = t.renewSession now .request := if_pos htrouble
      have hask : LastSignIn (h.next step) step.post step.output ∧ Inv (h.next step) step.post := by
        simp only [step, hstep]
        exact hinv.renewSession now .request rfl (congrArg (h.failed || ·) (Bool.and_true _)) rfl
      exact hkept rfl hask.2 hask.1
    | false =>
      have hstep : Browser.step t (.answered now status detail) = ([], t) := if_neg (by simp [htrouble])
      have hpost : Inv (h.next step) step.post := by
        simp only [step, hstep]
        refine ⟨hinv.lastSignIn.mono rfl (fun hf => by simp [Last.next, hf]) (.inl rfl) (.inl rfl) nofun, ?_⟩
        intro r hr hl
        simp only [Last.next, hr, Option.isSome_some, Bool.and_true] at hl
        exact hinv.renewal r hr hl
      refine hkept rfl hpost ?_
      have hlast := hpost.lastSignIn
      simp only [step, hstep] at hlast ⊢
      exact hlast
  | renewed answer => exact hinv.renewed answer hrenews
  | answeredAgain i status detail => exact hinv.answeredAgain i status detail

/-! ## Runs -/

theorem last_concat (now : Rat) (stored : Option Session) (history : List Step) (t : Step) :
    last now stored (history ++ [t]) = (last now stored history).next t := by
  simp [last]

/-- A page load begins with the session it finds. -/
theorem Inv.load (now : Rat) (stored : Option Session) : Inv (last now stored []) (load now stored) where
  lastSignIn := {
    signed_out := fun hu => by
      have hnone : loadSession now stored = none := Option.map_eq_none_iff.1 hu
      exact ⟨hnone, hnone⟩
    signed_in := fun u hu => by
      obtain ⟨s, hs, rfl⟩ := Option.map_eq_some_iff.1 hu
      have hloaded : loadSession now stored = some s := hs
      refine ⟨?_, ?_, nofun⟩
      · simp [Browser.load, hloaded, Of]
      · rw [hs]
        rintro _ ⟨⟩
        rfl }
  renewal := nofun

/-- **When the session is the last sign-in's**, throughout a run: when every late answer is in time. -/
theorem lastSignIn_iff (now : Rat) (stored : Option Session) (is : List Input)
    (hrenews : ∀ t ∈ (browser now stored).run is, Renews t) :
    AlwaysLastSignIn now stored is ↔
      Throughout (fun before t => InTime (last now stored before) t) ((browser now stored).run is) := by
  have hinit := Inv.load now stored
  rw [AlwaysLastSignIn, and_iff_right hinit.lastSignIn]
  refine Machine.throughout_iff (I := fun history t => Inv (last now stored history) t) hinit ?_ is hrenews
  intro history t i hinv hown
  simp only [last_concat]
  exact hinv.step i hown

/-- A session of Alice with these tokens. -/
def aliceAnswer (token refreshToken : String) : SessionAnswer :=
  ⟨"alice", some ["support_rep"], some "acme", some [], some 300, some token, some refreshToken, some 1800⟩

section Examples

variable {now : Rat} {stored : Option Session} {t : State} {i : Input}

theorem renews_of_ne (h : ∀ answer, i ≠ .renewed (some answer)) : Renews ((browser now stored).transition t i) :=
  fun answer _ hi _ => (h answer hi).elim

theorem renews_of_user {answer : SessionAnswer}
    (huser : (t.renewalInFlight.map fun renewal => renewal.session.user) = some answer.user) :
    Renews ((browser now stored).transition t (.renewed (some answer))) := by
  rintro _ renewal ⟨⟩ hflight
  have hsome : t.renewalInFlight = some renewal := hflight
  rw [hsome] at huser
  exact (Option.some.inj huser).symm

theorem inTime_of_not_late {h : Last} (hlate : h.isLate ((browser now stored).transition t i) = false) :
    InTime h ((browser now stored).transition t i) := fun h' => by
  rw [hlate] at h'
  cases h'

end Examples

/-- Alice signs in, her session is renewed, and she signs out. -/
theorem lastSignIn_iff_renewed : AlwaysLastSignIn 0 none
    [.signIn (aliceAnswer "t1" "r1"), .timer 270, .renewed (some (aliceAnswer "t2" "r2")), .signOut] := by
  refine (lastSignIn_iff 0 none _ ?_).2 ?_
  · simp only [Machine.run, Machine.forall_mem_runFrom_cons]
    exact ⟨renews_of_ne (fun _ h => nomatch h), renews_of_ne (fun _ h => nomatch h), renews_of_user rfl,
      renews_of_ne (fun _ h => nomatch h), List.forall_mem_nil _⟩
  · exact (((Throughout.nil.concat (inTime_of_not_late rfl)).concat (inTime_of_not_late rfl)).concat
      (inTime_of_not_late rfl)).concat (inTime_of_not_late rfl)

/-- Alice signs in, the timer asks for a renewal, she signs out, and then the API answers:
the session is stored again, and the app signs her in. -/
theorem not_lastSignIn :
    let inputs :=
      [Input.signIn (aliceAnswer "t1" "r1"), .timer 270, .signOut, .renewed (some (aliceAnswer "t2" "r2"))]
    (∀ t ∈ (browser 0 none).run inputs, Renews t) ∧ ¬ AlwaysLastSignIn 0 none inputs := by
  intro inputs
  refine ⟨?_, fun h => ?_⟩
  · simp only [inputs, Machine.run, Machine.forall_mem_runFrom_cons]
    exact ⟨renews_of_ne (fun _ h => nomatch h), renews_of_ne (fun _ h => nomatch h),
      renews_of_ne (fun _ h => nomatch h), renews_of_user rfl, List.forall_mem_nil _⟩
  · have hlast := h.2.getElem? (k := 3) rfl
    exact absurd (hlast.signed_out rfl).1 (by decide)

end Browser

end AgentPlatform
