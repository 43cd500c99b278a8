/-
The gateway's limits on what a caller may ask of the model
(`app/gateway/limits.py`): the limiter in memory, and the one in Postgres, whose
methods are the statements they execute.

A clock reading is a rational number of seconds since the epoch; a call carries
the readings it makes.
-/
import AgentPlatform.Dict
import AgentPlatform.Machine
import AgentPlatform.PyText
import Mathlib.Data.Rat.Floor

namespace AgentPlatform

namespace Limits

/-- `int(now // 60)` -/
def minuteOf (now : ℚ) : Int := ⌊now / 60⌋

/-- `int(now // _DAY)` -/
def dayOf (now : ℚ) : Int := ⌊now / 86400⌋

/-- `now % 60` -/
def secondOf (now : ℚ) : ℚ := now - 60 * minuteOf now

/-- `int(x)`: the integer part, towards zero. -/
def truncate (x : ℚ) : Int := if 0 ≤ x then ⌊x⌋ else ⌈x⌉

structure Decision where
  allowed : Bool
  reason : String := ""
  retryAfter : Int := 0
  deriving DecidableEq

def rateRefusal (rpm : Int) (retryAfter : Int) : Decision :=
  ⟨false, s!"rate limit reached ({rpm} requests/minute)", retryAfter⟩

def budgetRefusal (tpd : Int) : Decision := ⟨false, s!"daily token budget reached ({tpd} tokens)", 3600⟩

/-! ## In memory -/

/-- `_requests` and `_tokens`: the times of a caller's requests, and what it used on a day. -/
structure Limiter where
  requests : Dict String (List ℚ)
  tokens : Dict String (Int × Int)

namespace Limiter

def initial : Limiter := ⟨∅, ∅⟩

/-- The rate rule of `check`: a refusal, or that the request passed and is counted. -/
def rate (rpm : Int) (caller : String) (now : ℚ) (s : Limiter) : Except Exn (Option Decision) × Limiter :=
  if rpm = 0 then (.ok none, s)
  else
    let window := ((s.requests.get? caller).getD []).dropWhile fun x => decide (x < now - 60)
    if rpm ≤ window.length then
      match window with
      | [] => (.error ⟨.other, "deque index out of range"⟩, { s with requests := s.requests.insert caller window })
      | oldest :: _ =>
        (.ok (some (rateRefusal rpm (max 1 (truncate (60 - (now - oldest)) + 1)))),
          { s with requests := s.requests.insert caller window })
    else (.ok none, { s with requests := s.requests.insert caller (window ++ [now]) })

/-- What the caller used on the day, by the pair kept for it. -/
def usedOn (caller : String) (day : Int) (s : Limiter) : Int :=
  let used := (s.tokens.get? caller).getD (day, 0)
  if used.1 = day then used.2 else 0

/-- `check(caller)` -/
def check (rpm tpd : Int) (caller : String) (now : ℚ) (s : Limiter) : Except Exn Decision × Limiter :=
  match rate rpm caller now s with
  | (.error e, s) => (.error e, s)
  | (.ok (some refusal), s) => (.ok refusal, s)
  | (.ok none, s) =>
    if tpd ≠ 0 ∧ tpd ≤ usedOn caller (dayOf now) s then (.ok (budgetRefusal tpd), s) else (.ok { allowed := true }, s)

/-- `charge(caller, tokens)` -/
def charge (tpd : Int) (caller : String) (tokens : Int) (now : ℚ) (s : Limiter) : Limiter :=
  if tpd = 0 ∨ tokens ≤ 0 then s
  else
    let day := dayOf now
    let used := (s.tokens.get? caller).getD (day, 0)
    { s with tokens := s.tokens.insert caller (day, if used.1 = day then used.2 + tokens else tokens) }

/-- `used_today(caller)` -/
def usedToday (caller : String) (now : ℚ) (s : Limiter) : Int := usedOn caller (dayOf now) s

end Limiter

/-! ## In Postgres -/

/-- `llm_rate` and `llm_daily`, by their primary keys. -/
structure Tables where
  rate : Dict (String × Int) Int
  daily : Dict (String × Int) Int

/-- What a text parameter may hold. -/
def storable (s : String) : Bool := decide (Char.ofNat 0 ∉ s.toList)

def noNul : Exn := ⟨.other, "PostgreSQL text fields cannot contain NUL (0x00) bytes"⟩

/-- The largest `integer`. -/
def maxInteger : Int := 2 ^ 31 - 1

/-- The largest `bigint`. -/
def maxBigint : Int := 2 ^ 63 - 1

namespace Tables

def initial : Tables := ⟨∅, ∅⟩

/-- `INSERT INTO llm_rate … ON CONFLICT … DO UPDATE SET requests = llm_rate.requests + 1 RETURNING requests` -/
def countRequest (caller : String) (minute : Int) (db : Tables) : Except Exn Int × Tables :=
  let requests := match db.rate.get? (caller, minute) with
    | none => 1
    | some n => n + 1
  if !storable caller then (.error noNul, db)
  else if maxInteger < requests then (.error ⟨.other, "integer out of range"⟩, db)
  else (.ok requests, { db with rate := db.rate.insert (caller, minute) requests })

/-- `SELECT tokens FROM llm_daily WHERE caller = … AND day = …` -/
def selectTokens (caller : String) (day : Int) (db : Tables) : Except Exn (Option Int) :=
  if !storable caller then .error noNul else .ok (db.daily.get? (caller, day))

/-- `INSERT INTO llm_daily … ON CONFLICT … DO UPDATE SET tokens = llm_daily.tokens + …` -/
def addTokens (caller : String) (day tokens : Int) (db : Tables) : Except Exn Unit × Tables :=
  let total := match db.daily.get? (caller, day) with
    | none => tokens
    | some n => n + tokens
  if !storable caller then (.error noNul, db)
  else if maxBigint < tokens ∨ maxBigint < total then (.error ⟨.other, "bigint out of range"⟩, db)
  else (.ok (), { db with daily := db.daily.insert (caller, day) total })

/-- `DELETE FROM llm_rate WHERE minute < …` -/
def deleteRate (minute : Int) (db : Tables) : Tables :=
  { db with rate := db.rate.filterMap fun key n => if key.2 < minute then none else some n }

/-- `DELETE FROM llm_daily WHERE day < …` -/
def deleteDaily (day : Int) (db : Tables) : Tables :=
  { db with daily := db.daily.filterMap fun key n => if key.2 < day then none else some n }

end Tables

namespace PostgresLimiter

/-- The rate rule of `check`. -/
def rate (rpm : Int) (caller : String) (now : ℚ) (db : Tables) : Except Exn (Option Decision) × Tables :=
  if rpm = 0 then (.ok none, db)
  else
    match db.countRequest caller (minuteOf now) with
    | (.error e, db) => (.error e, db)
    | (.ok requests, db) =>
      if rpm < requests then (.ok (some (rateRefusal rpm (max 1 (truncate (60 - secondOf now) + 1)))), db)
      else (.ok none, db)

/-- The budget rule of `check`. -/
def budget (tpd : Int) (caller : String) (now : ℚ) (db : Tables) : Except Exn Decision :=
  if tpd = 0 then .ok { allowed := true }
  else
    match db.selectTokens caller (dayOf now) with
    | .error e => .error e
    | .ok none => .ok { allowed := true }
    | .ok (some tokens) => if tpd ≤ tokens then .ok (budgetRefusal tpd) else .ok { allowed := true }

/-- `check(caller)` -/
def check (rpm tpd : Int) (caller : String) (now : ℚ) (db : Tables) : Except Exn Decision × Tables :=
  match rate rpm caller now db with
  | (.error e, db) => (.error e, db)
  | (.ok (some refusal), db) => (.ok refusal, db)
  | (.ok none, db) => (budget tpd caller now db, db)

/-- `charge(caller, tokens)`: the clock is read again for the cleanup, at `later`. -/
def charge (tpd : Int) (caller : String) (tokens : Int) (now later : ℚ) (db : Tables) : Except Exn Unit × Tables :=
  if tpd = 0 ∨ tokens ≤ 0 then (.ok (), db)
  else
    match db.addTokens caller (dayOf now) tokens with
    | (.error e, db) => (.error e, db)
    | (.ok (), db) => (.ok (), (db.deleteRate (minuteOf later)).deleteDaily (dayOf now - 1))

/-- `used_today(caller)` -/
def usedToday (caller : String) (now : ℚ) (db : Tables) : Except Exn Int :=
  (db.selectTokens caller (dayOf now)).map fun tokens => tokens.getD 0

end PostgresLimiter

/-! ## Calls -/

/-- A call, with the clock readings it makes. -/
inductive Call where
  | check (caller : String) (now : ℚ)
  | charge (caller : String) (tokens : Int) (now later : ℚ)
  | usedToday (caller : String) (now : ℚ)

namespace Call

def caller : Call → String
  | check caller _ => caller
  | charge caller _ _ _ => caller
  | usedToday caller _ => caller

/-- The first reading of the call. -/
def began : Call → ℚ
  | check _ now => now
  | charge _ _ now _ => now
  | usedToday _ now => now

/-- The last reading of the call. -/
def ended : Call → ℚ
  | check _ now => now
  | charge _ _ _ later => later
  | usedToday _ now => now

end Call

/-- Calls one after the other, at times that do not decrease. -/
def Timely (calls : List Call) : Prop :=
  (∀ c ∈ calls, c.began ≤ c.ended) ∧ calls.Pairwise fun c d => c.ended ≤ d.began

inductive Answer where
  | decided (d : Decision)
  | charged
  | used (tokens : Int)
  | raised (e : Exn)
  deriving DecidableEq

def Answer.of {α : Type} (f : α → Answer) : Except Exn α → Answer
  | .ok a => f a
  | .error e => .raised e

def limiter (rpm tpd : Int) : Machine Limiter Call Answer where
  init := .initial
  step c s :=
    match c with
    | .check caller now =>
      let (decision, s) := Limiter.check rpm tpd caller now s
      (.of .decided decision, s)
    | .charge caller tokens now _ => (.charged, Limiter.charge tpd caller tokens now s)
    | .usedToday caller now => (.used (Limiter.usedToday caller now s), s)

def postgresLimiter (rpm tpd : Int) : Machine Tables Call Answer where
  init := .initial
  step c db :=
    match c with
    | .check caller now =>
      let (decision, db) := PostgresLimiter.check rpm tpd caller now db
      (.of .decided decision, db)
    | .charge caller tokens now later =>
      let (result, db) := PostgresLimiter.charge tpd caller tokens now later db
      (.of (fun _ => .charged) result, db)
    | .usedToday caller now => (.of .used (PostgresLimiter.usedToday caller now db), db)

end Limits

end AgentPlatform
