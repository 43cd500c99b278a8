/-
The session of one browser tab (`app/web/src/api.ts`, `app/web/src/App.tsx`).

A step is one task of the event loop: the API answers, a timer fires or the
person signs out, and everything that waits for it runs to its end before the
next task. The answer of a step is what the calls of `renewSession` that it
settles resolve to. There is one renewal at a time; whoever asks meanwhile
waits for the same one.

The pages are left out but for the requests whose token is rejected, and so is
a storage that cannot be written. A timer may fire at any time: React clears
it some time after the session it was set for is gone.
-/
import AgentPlatform.Machine

namespace AgentPlatform

namespace Browser

structure Session where
  user : String
  roles : List String
  tenant : String
  tools : List String
  expiresAt : Rat
  token : String
  refreshToken : String
  refreshExpiresAt : Rat
  deriving DecidableEq

/-- The body of an answer to `/auth/login` or `/auth/refresh`. -/
structure SessionAnswer where
  user : String
  roles : Option (List String)
  tenant : Option String
  tools : Option (List String)
  expiresAt : Option Rat
  accessToken : Option String
  refreshToken : Option String
  refreshExpiresAt : Option Rat

/-- `normaliseSession(r)`: it throws without an access token. -/
def normaliseSession (r : SessionAnswer) : Option Session :=
  match r.accessToken with
  | none => none
  | some token =>
    if token = "" then none
    else some {
      user := r.user
      roles := r.roles.getD []
      tenant := r.tenant.getD ""
      tools := r.tools.getD []
      expiresAt := r.expiresAt.getD 0
      token := token
      refreshToken := r.refreshToken.getD ""
      refreshExpiresAt := r.refreshExpiresAt.getD 0 }

/-- `s?.refreshExpiresAt || s?.expiresAt || 0` -/
def Session.liveUntil (s : Session) : Rat := if s.refreshExpiresAt ≠ 0 then s.refreshExpiresAt else s.expiresAt

/-- The session is shaped like one, and its window has not passed. -/
def Session.isLive (now : Rat) (s : Session) : Bool :=
  decide (s.token ≠ "") && !(decide (s.liveUntil ≠ 0) && decide (s.liveUntil < now))

/-- `loadSession()`: a session that is not loaded is cleared, so what it returns is also what is stored afterwards. -/
def loadSession (now : Rat) (stored : Option Session) : Option Session := stored.filter (Session.isLive now)

/-- Who waits for a renewal: the timer of the app, or a request whose token was rejected. -/
inductive Caller where
  | timer
  | request
  deriving DecidableEq

/-- The promise `renewalInFlight`: the session whose refresh token was sent, and who waits for it. -/
structure Renewal where
  session : Session
  waiting : List Caller

structure State where
  /-- `sessionStorage` -/
  stored : Option Session
  /-- The state of `App`. -/
  session : Option Session
  renewalInFlight : Option Renewal
  /-- The requests sent again, each with the session whose token it carries. -/
  retried : List Session

/-- `App` as it is first rendered. -/
def load (now : Rat) (stored : Option Session) : State :=
  { stored := loadSession now stored, session := loadSession now stored, renewalInFlight := none, retried := [] }

namespace State

/-- `setSession(next)`, with `saveSession` or `clearSession`. -/
def setSession (next : Option Session) (t : State) : State := { t with session := next, stored := next }

/-- `expire()` -/
def expire (t : State) : State := { t with session := none }

/-- `clearSession()` and the event that the app answers with `expire()`. -/
def endSession (t : State) : State := { t with stored := none, session := none }

/-- What a caller of `renewSession` does with its result. -/
def settle (result : Option Session) (t : State) : Caller → State
  | .timer =>
    match result with
    | some next => t.setSession (some next)
    | none => t.expire
  | .request =>
    match result with
    | some renewed => { t with retried := t.retried ++ [renewed] }
    | none => t.endSession

/-- `renewSession()`: what is settled at once, and the state. -/
def renewSession (now : Rat) (caller : Caller) (t : State) : List (Option Session) × State :=
  let t := { t with stored := loadSession now t.stored }
  match t.stored with
  | none => ([none], t.settle none caller)
  | some s =>
    if s.refreshToken = "" then ([none], t.settle none caller)
    else
      let renewal := t.renewalInFlight.getD ⟨s, []⟩
      ([], { t with renewalInFlight := some { renewal with waiting := renewal.waiting ++ [caller] } })

/-- The answer to `/auth/refresh`, or its failure: the session is saved or cleared, and then all who wait go on. -/
def renewed (answer : Option SessionAnswer) (t : State) : List (Option Session) × State :=
  match t.renewalInFlight with
  | none => ([], t)
  | some renewal =>
    let next := answer.bind normaliseSession
    (renewal.waiting.map fun _ => next,
      renewal.waiting.foldl (settle next) { t with stored := next, renewalInFlight := none })

end State

/-- `/invalid token|missing bearer token|expired|not enough segments/i` -/
def troubles : List (List Char) :=
  ["invalid token".toList, "missing bearer token".toList, "expired".toList, "not enough segments".toList]

/-- `tokenTrouble` in `request`. -/
def tokenTrouble (status : Nat) (detail : List Char) : Bool :=
  decide (status = 401) ||
    decide (status = 403) && detail.tails.any fun rest =>
      troubles.any fun text => text.isPrefixOf (rest.map Char.toLower)

inductive Input where
  /-- `/auth/login` answers, and `onLogin` is called. -/
  | signIn (answer : SessionAnswer)
  | signOut
  | timer (now : Rat)
  /-- A request that carried a token is answered. -/
  | answered (now : Rat) (status : Nat) (detail : List Char)
  | renewed (answer : Option SessionAnswer)
  /-- A request that was sent again is answered. -/
  | answeredAgain (i : Nat) (status : Nat) (detail : List Char)

def step (t : State) : Input → List (Option Session) × State
  | .signIn answer =>
    match normaliseSession answer with
    | some s => ([], t.setSession (some s))
    | none => ([], t)
  | .signOut => ([], t.setSession none)
  | .timer now => t.renewSession now .timer
  | .answered now status detail => if tokenTrouble status detail then t.renewSession now .request else ([], t)
  | .renewed answer => t.renewed answer
  | .answeredAgain i status detail =>
    if i < t.retried.length then
      let t := { t with retried := t.retried.eraseIdx i }
      ([], if tokenTrouble status detail then t.endSession else t)
    else ([], t)

/-- The tab, from a page load on. -/
def browser (now : Rat) (stored : Option Session) : Machine State Input (List (Option Session)) :=
  ⟨load now stored, fun i t => step t i⟩

end Browser

end AgentPlatform
