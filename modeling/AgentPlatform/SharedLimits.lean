/-
Gateway replicas that share the tables of the limits.

A check or a charge reads the clock and executes its statements one at a time;
between any two of them the operations of other replicas may execute theirs.
An event begins an operation, or resumes one with its next statement or clock
reading, at a moment of the clock.

The count of a caller's minute is the row of that minute, until a cleanup of a
later minute deletes it: a check that read the clock before, and counts itself
after, begins the count again (`stalled_check_exceeds`).
-/
import AgentPlatform.LimitsTables

namespace AgentPlatform

namespace Limits

/-- What an operation does next. -/
inductive Op where
  /-- A check that read the clock counts itself. -/
  | rate (caller : String) (now : ℚ)
  /-- A check that passed the rate rule reads the caller's day. -/
  | budget (caller : String) (now : ℚ)
  /-- A charge that read the clock adds to the caller's day. -/
  | spend (caller : String) (tokens : Int) (now : ℚ)
  /-- A charge reads the clock for its cleanup. -/
  | clock (day : Int)
  | deleteRate (minute day : Int)
  | deleteDaily (day : Int)
  | done

/-- What an event brought about. -/
inductive Outcome where
  /-- A check was counted in the minute of its clock reading, and refused or let pass. -/
  | rated (caller : String) (minute : Int) (refusal : Option Decision)
  | decided (caller : String) (decision : Except Exn Decision)
  /-- A cleanup deleted these counts. -/
  | swept (rows : List (String × Int))
  | raised (e : Exn)
  | silent

inductive Event where
  | check (caller : String) (now : ℚ)
  | charge (caller : String) (tokens : Int) (now : ℚ)
  | resume (op : Nat) (now : ℚ)

/-- The tables, and the operations begun so far. -/
structure Shared where
  db : Tables
  ops : List Op

namespace Shared

/-- An operation goes on by one statement, or one reading of the clock. -/
def advance (rpm tpd : Int) (now : ℚ) (db : Tables) : Op → Outcome × Op × Tables
  | .rate caller read =>
    match PostgresLimiter.rate rpm caller read db with
    | (.error e, db) => (.raised e, .done, db)
    | (.ok refusal, db) =>
      (.rated caller (minuteOf read) refusal, if refusal.isSome then .done else .budget caller read, db)
  | .budget caller read => (.decided caller (PostgresLimiter.budget tpd caller read db), .done, db)
  | .spend caller tokens read =>
    match db.addTokens caller (dayOf read) tokens with
    | (.error e, db) => (.raised e, .done, db)
    | (.ok (), db) => (.silent, .clock (dayOf read), db)
  | .clock day => (.silent, .deleteRate (minuteOf now) day, db)
  | .deleteRate minute day =>
    (.swept (db.rate.keys.filter fun key => decide (key.2 < minute)), .deleteDaily day, db.deleteRate minute)
  | .deleteDaily day => (.silent, .done, db.deleteDaily (day - 1))
  | .done => (.silent, .done, db)

end Shared

/-- Any number of replicas, in any order of their statements. -/
def replicas (rpm tpd : Int) : Machine Shared Event Outcome where
  init := ⟨.initial, []⟩
  step e s :=
    match e with
    | .check caller now => (.silent, { s with ops := s.ops ++ [.rate caller now] })
    | .charge caller tokens now =>
      (.silent, { s with ops := s.ops ++ [if tpd = 0 ∨ tokens ≤ 0 then .done else .spend caller tokens now] })
    | .resume op now =>
      let (outcome, next, db) := Shared.advance rpm tpd now s.db (s.ops.getD op .done)
      (outcome, ⟨db, s.ops.set op next⟩)

/-! ## Counts -/

namespace Outcome

/-- The caller and minute a check was counted in. -/
def counted : Outcome → Option (String × Int)
  | rated caller minute _ => some (caller, minute)
  | _ => none

/-- The caller and minute of a check that passed the rate rule. -/
def passed : Outcome → Option (String × Int)
  | rated caller minute none => some (caller, minute)
  | _ => none

/-- The counts a cleanup deleted. -/
def rows : Outcome → List (String × Int)
  | swept rows => rows
  | _ => []

end Outcome

abbrev Traced := Transition Shared Event Outcome

/-- The checks that passed the rate rule, of those of a caller whose clock reading was in a minute. -/
def passedIn (key : String × Int) (h : List Traced) : List Traced :=
  h.filter fun t => decide (t.output.passed = some key)

/-- The event counts no check in a row that a cleanup has deleted. -/
def Unswept (before : List Traced) (t : Traced) : Prop :=
  ∀ key, t.output.counted = some key → ∀ u ∈ before, key ∉ u.output.rows

theorem passedIn_concat (key : String × Int) (h : List Traced) (t : Traced) :
    passedIn key (h ++ [t]) = passedIn key h ++ if t.output.passed = some key then [t] else [] := by
  by_cases hp : t.output.passed = some key <;> simp [passedIn, hp]

theorem Outcome.counted_of_passed {o : Outcome} {key : String × Int} (h : o.passed = some key) :
    o.counted = some key := by
  cases o with
  | rated caller minute refusal =>
    cases refusal with
    | none => exact h
    | some d => cases h
  | decided | swept | raised | silent => cases h

/-- The requests counted in a row. -/
def Tables.count (key : String × Int) (db : Tables) : Int := (db.rate.get? key).getD 0

namespace Shared

variable {rpm tpd : Int}

/-- What a statement does to a count: a check that passes adds itself and fits,
and only a cleanup that deletes the row takes anything away. -/
structure Keeps (rpm : Int) (key : String × Int) (db : Tables) (o : Outcome) (db' : Tables) : Prop where
  passed : o.passed = some key → db'.count key = db.count key + 1 ∧ db'.count key ≤ rpm
  kept : key ∉ o.rows → db.count key ≤ db'.count key

theorem keeps_of_rate {key : String × Int} {db db' : Tables} {o : Outcome} (hpassed : o.passed = none)
    (hrate : db'.rate = db.rate) : Keeps rpm key db o db' := by
  refine ⟨fun h => ?_, fun _ => ?_⟩
  · rw [hpassed] at h
    cases h
  · rw [Tables.count, Tables.count, hrate]

theorem keeps_insert {key : String × Int} {db : Tables} {o : Outcome} {caller : String} {minute : Int}
    (hpassed : o.passed = some key → (caller, minute) = key ∧ db.nextCount caller minute ≤ rpm) :
    Keeps rpm key db o { db with rate := db.rate.insert (caller, minute) (db.nextCount caller minute) } := by
  constructor
  · intro h
    obtain ⟨rfl, hle⟩ := hpassed h
    have hcount : (db.rate.insert (caller, minute) (db.nextCount caller minute)).get? (caller, minute) =
        some (db.nextCount caller minute) := Dict.get?_insert_self ..
    rw [Tables.count, hcount]
    exact ⟨rfl, hle⟩
  · intro _
    rw [Tables.count, Tables.count, Dict.get?_insert]
    by_cases hkey : (caller, minute) = key
    · subst hkey
      simp [Tables.nextCount]
    · simp [hkey]

theorem keeps_deleteRate (rpm : Int) (key : String × Int) (minute : Int) (db : Tables) :
    Keeps rpm key db (.swept (db.rate.keys.filter fun key => decide (key.2 < minute))) (db.deleteRate minute) := by
  refine ⟨fun h => (by cases h), fun hrows => ?_⟩
  rw [Tables.count, Tables.count, Tables.get?_deleteRate]
  by_cases hold : key.2 < minute
  · cases hrow : db.rate.get? key with
    | none => simp
    | some n =>
      -- The row was there, so the cleanup lists it.
      refine absurd ?_ hrows
      exact List.mem_filter.2 ⟨Dict.mem_keys.2 ⟨n, hrow⟩, decide_eq_true hold⟩
  · rw [if_neg hold]

theorem advance_keeps (hrpm : 1 ≤ rpm) (key : String × Int) (now : ℚ) (db : Tables) (op : Op) :
    Keeps rpm key db (advance rpm tpd now db op).1 (advance rpm tpd now db op).2.2 := by
  have hne : rpm ≠ 0 := by omega
  cases op with
  | rate caller read =>
    rcases PostgresLimiter.rate_cases hne caller read db with ⟨e, he⟩ | ⟨-, he⟩ | ⟨hle, he⟩ <;>
      simp only [advance, he]
    · exact keeps_of_rate rfl rfl
    · exact keeps_insert fun h => by cases h
    · exact keeps_insert fun h => ⟨Option.some.inj h, hle⟩
  | budget caller read => exact keeps_of_rate rfl rfl
  | spend caller tokens read =>
    rcases db.addTokens_cases caller (dayOf read) tokens with ⟨e, he⟩ | ⟨total, he⟩ <;> simp only [advance, he]
    · exact keeps_of_rate rfl rfl
    · exact keeps_of_rate rfl rfl
  | clock day => exact keeps_of_rate rfl rfl
  | deleteRate minute day => exact keeps_deleteRate rpm key minute db
  | deleteDaily day => exact keeps_of_rate rfl rfl
  | done => exact keeps_of_rate rfl rfl

theorem step_keeps (hrpm : 1 ≤ rpm) (key : String × Int) (e : Event) (s : Shared) :
    Keeps rpm key s.db ((replicas rpm tpd).step e s).1 ((replicas rpm tpd).step e s).2.db := by
  cases e with
  | check caller now => exact keeps_of_rate rfl rfl
  | charge caller tokens now => exact keeps_of_rate rfl rfl
  | resume op now => exact advance_keeps hrpm key now s.db _

end Shared

/-- No more checks of a row's caller and minute passed than fit, and while no
cleanup deleted the row, it counts them. -/
structure Counted (rpm : Int) (key : String × Int) (h : List Traced) (s : Shared) : Prop where
  fits : (passedIn key h).length ≤ rpm
  row : (∀ u ∈ h, key ∉ u.output.rows) → (passedIn key h).length ≤ s.db.count key

theorem Counted.step {rpm : Int} {key : String × Int} {h : List Traced} {t : Traced} (hs : Counted rpm key h t.pre)
    (ht : Shared.Keeps rpm key t.pre.db t.output t.post.db) (hunswept : Unswept h t) :
    Counted rpm key (h ++ [t]) t.post := by
  have hrows (hall : ∀ u ∈ h ++ [t], key ∉ u.output.rows) : (∀ u ∈ h, key ∉ u.output.rows) ∧ key ∉ t.output.rows :=
    ⟨fun u hu => hall u (List.mem_append_left _ hu), hall t (by simp)⟩
  by_cases hpassed : t.output.passed = some key
  · -- A check that passes is counted in a row no cleanup deleted.
    have hrow := hs.row (hunswept key (Outcome.counted_of_passed hpassed))
    obtain ⟨hcount, hfits⟩ := ht.passed hpassed
    have hlength : ((passedIn key (h ++ [t])).length : Int) = (passedIn key h).length + 1 := by
      simp [passedIn_concat, hpassed]
    exact ⟨by omega, fun _ => by omega⟩
  · have hsame : passedIn key (h ++ [t]) = passedIn key h := by simp [passedIn_concat, hpassed]
    refine ⟨hsame ▸ hs.fits, fun hall => ?_⟩
    obtain ⟨hbefore, hlast⟩ := hrows hall
    rw [hsame]
    exact (hs.row hbefore).trans (ht.kept hlast)

/-- If no check is counted in a row that a cleanup has deleted, the limit holds
across replicas. -/
theorem shared_rate_limit (rpm tpd : Int) (hrpm : 1 ≤ rpm) (events : List Event)
    (hunswept : Throughout Unswept ((replicas rpm tpd).run events)) (caller : String) (minute : Int) :
    ((passedIn (caller, minute) ((replicas rpm tpd).run events)).length : Int) ≤ rpm := by
  refine (Machine.history_rule (m := replicas rpm tpd) (G := fun _ => True)
    (P := fun h s => Throughout Unswept h → Counted rpm (caller, minute) h s) (fun _ => ⟨?_, ?_⟩)
    (fun h s e hs _ hunswept => ?_) events (fun _ _ => trivial) hunswept).fits
  · show ((0 : Nat) : Int) ≤ rpm
    omega
  · exact fun _ => le_refl 0
  · obtain ⟨hbefore, hlast⟩ := Throughout.concat_iff.1 hunswept
    exact (hs hbefore).step (Shared.step_keeps hrpm _ e s) hlast

instance (before : List Traced) (t : Traced) : Decidable (Unswept before t) :=
  inferInstanceAs (Decidable (∀ key ∈ t.output.counted, ∀ u ∈ before, key ∉ u.output.rows))

/-- A check counts itself at the end of a minute, a charge cleans up after it, and another check follows. -/
def minuteEnd : List Event := [.check "agent" 59, .resume 0 59, .charge "agent" 10 60, .resume 1 60, .resume 1 60,
  .resume 1 60, .check "agent" 61, .resume 2 61]

theorem minuteEnd_limit : ((passedIn ("agent", 0) ((replicas 1 1000).run minuteEnd)).length : Int) ≤ 1 :=
  shared_rate_limit 1 1000 (by decide) minuteEnd (.of_getElem (by decide +kernel)) "agent" 0

/-- Two replicas check at the end of a minute: one counts itself, the other only
after a cleanup, in a row that is new again. -/
theorem stalled_check_exceeds :
    ¬ ∀ events : List Event, ∀ caller minute,
      ((passedIn (caller, minute) ((replicas 1 1000).run events)).length : Int) ≤ 1 := by
  intro h
  let events : List Event := [.check "agent" 59, .check "agent" 59, .resume 1 59, .charge "agent" 10 60, .resume 2 60,
    .resume 2 60, .resume 2 60, .resume 0 60]
  exact absurd (h events "agent" 0) (by decide +kernel)

/-! ## An operation on its own -/

/-- The answer of a check, when an event gives it. -/
def Outcome.answer : Outcome → Option (Except Exn Decision)
  | rated _ _ (some refusal) => some (.ok refusal)
  | decided _ decision => some decision
  | raised e => some (.error e)
  | _ => none

/-- A check that no other operation comes between is the method. -/
theorem check_alone (rpm tpd : Int) (caller : String) (now later latest : ℚ) (db : Tables) :
    let events : List Event := [.check caller now, .resume 0 later, .resume 0 latest]
    (((replicas rpm tpd).answersFrom ⟨db, []⟩ events).filterMap Outcome.answer,
      ((replicas rpm tpd).finalFrom ⟨db, []⟩ events).db) =
    ([(PostgresLimiter.check rpm tpd caller now db).1], (PostgresLimiter.check rpm tpd caller now db).2) := by
  intro events
  rcases hrate : PostgresLimiter.rate rpm caller now db with ⟨r, db'⟩
  have hfst : (PostgresLimiter.rate rpm caller now db).1 = r := by rw [hrate]
  rcases r with e | refusal
  · rw [PostgresLimiter.check_of_raised hfst, hrate]
    simp [events, Machine.answersFrom, Machine.runFrom, Machine.finalFrom, Machine.transition, replicas,
      Shared.advance, hrate]
    rfl
  · cases refusal with
    | some refusal =>
      rw [PostgresLimiter.check_of_refused hfst, hrate]
      simp [events, Machine.answersFrom, Machine.runFrom, Machine.finalFrom, Machine.transition, replicas,
        Shared.advance, hrate]
      rfl
    | none =>
      rw [PostgresLimiter.check_of_passed hfst, hrate]
      simp [events, Machine.answersFrom, Machine.runFrom, Machine.finalFrom, Machine.transition, replicas,
        Shared.advance, hrate]
      rfl

/-- A charge that no other operation comes between is the method. -/
theorem charge_alone (rpm tpd : Int) (caller : String) (tokens : Int) (now later : ℚ) (t u v : ℚ) (db : Tables) :
    ((replicas rpm tpd).finalFrom ⟨db, []⟩ [.charge caller tokens now, .resume 0 t, .resume 0 later, .resume 0 u,
      .resume 0 v]).db = (PostgresLimiter.charge tpd caller tokens now later db).2 := by
  by_cases hskip : tpd = 0 ∨ tokens ≤ 0
  · simp [Machine.finalFrom, replicas, Shared.advance, PostgresLimiter.charge, hskip]
  · rcases hadd : db.addTokens caller (dayOf now) tokens with ⟨r, db'⟩
    cases r <;> simp [Machine.finalFrom, replicas, Shared.advance, PostgresLimiter.charge, hskip, hadd]

end Limits

end AgentPlatform
