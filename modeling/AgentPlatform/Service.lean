/-
The agent service (`app/agent/service.py`): `/run` and `/resume` over the
checkpointer, in any number of processes.

A process keeps the agents it built in a dictionary under the thread's
identifier. The graph's state is in the database when one is configured, and
otherwise in a store that each agent has to itself. A request that was let in
is a flight: it enters the graph, runs node after node on its own copy of the
thread, writing each to the checkpointer, and answers its caller. The inputs of
the machine are these steps, so requests interleave between any two of them,
in one process or several; a flight may fail at any point, and a process may
restart.

How a token decodes is part of each request, since a token expires. The rest of
the platform may change the world between two steps (`elsewhere`).
-/
import AgentPlatform.Live
import AgentPlatform.Tokens
import Mathlib.Logic.Function.Basic

namespace AgentPlatform

/-! ## What may be asked (`guardrails.py`) -/

namespace Guardrails

def maxTaskChars : Nat := 2000

def injectionPhrases : List String :=
  ["ignore previous instructions", "ignore all previous", "ignore the above", "disregard previous",
    "disregard the above", "you are now", "reveal your instructions", "print your instructions",
    "show me your system prompt"]

/-- `check_task(task)`: the text of the `GuardrailError`, if there is one.
Lowering the ASCII letters decides the same as `lower()`: outside ASCII the
Kelvin sign is lowered to `k`, which no phrase has, and the capital dotted I to
`i` and a combining dot, and no phrase ends in `i` or has a dot. -/
def checkTask [UnicodeData] (task : String) : Option String :=
  let text := Py.strip task.toList
  if text = [] then some "the task is empty"
  else if maxTaskChars < text.length then
    some ("the task is too long (" ++ toString text.length ++ " characters, limit " ++ toString maxTaskChars ++ ")")
  else
    (injectionPhrases.find? fun phrase => (text.map Char.toLower).tails.any phrase.toList.isPrefixOf).map fun phrase =>
      "the task looks like an attempt to override the agent's instructions ('" ++ phrase ++ "') — refusing it"

end Guardrails

namespace Service

/-- `DATABASE_URL` is set, and `AGENT_SPIFFE_ID`. -/
structure Config where
  durable : Bool
  agentId : String

/-- How the JWT library decodes tokens at a moment. -/
abbrev Decode := String → Except JwtError Claims

/-- `_delegation(token)` -/
def Config.delegation (cfg : Config) (decode : Decode) (token : String) : Except Exn Delegation :=
  TokenVerifier.verify ⟨cfg.agentId, none, decode⟩ token

/-- The thread a request names, if it names one. -/
abbrev ThreadId := Option String

/-! ## The state -/

variable (cfg : Config)

/-- A graph built for a token, and what the token said when it was verified. -/
structure Agent where
  serial : Nat
  token : String
  delegation : Delegation
  verified : ∃ decode, cfg.delegation decode token = .ok delegation

/-- Where the checkpointer keeps a thread. -/
inductive SaverKey where
  | database (threadId : ThreadId)
  | memory (serial : Nat) (threadId : ThreadId)
  deriving DecidableEq

def SaverKey.threadId : SaverKey → ThreadId
  | .database threadId | .memory _ threadId => threadId

/-- What an invocation of the graph is given. -/
inductive GraphCall where
  | task (task : String)
  | decision (answer : Json)

/-- A request that was let in. `caller` is what its token verifies as, whether
or not the service looked. -/
structure Flight where
  process : Nat
  threadId : ThreadId
  agent : Agent cfg
  caller : Except Exn Delegation
  call : GraphCall
  thread : Option Thread := none

structure State where
  kept : SaverKey → Option Thread
  /-- `_runs` of each process -/
  runs : Nat → ThreadId → Option (Agent cfg)
  next : Nat
  flights : List (Flight cfg)
  world : World

/-- What the service does that is seen from outside. -/
inductive Event where
  | started (threadId : ThreadId) (d : Delegation)
  | resumed (threadId : ThreadId) (caller : Except Exn Delegation)
  | acted (threadId : ThreadId) (agent : Agent cfg) (e : GraphEvent)
  | disclosed (threadId : ThreadId) (caller : Except Exn Delegation) (response : Thread.Shaped)
  | refused (status : Nat) (detail : String)

variable {cfg}

def Agent.saverKey (a : Agent cfg) (threadId : ThreadId) : SaverKey :=
  if cfg.durable then .database threadId else .memory a.serial threadId

def Flight.saverKey (f : Flight cfg) : SaverKey := f.agent.saverKey f.threadId

namespace State

variable (s : State cfg)

/-- `_runs[thread_id] = agent` -/
def cache (p : Nat) (threadId : ThreadId) (a : Agent cfg) : State cfg :=
  { s with
    runs := Function.update s.runs p (Function.update (s.runs p) threadId (some a))
    next := s.next + 1 }

def launch (f : Flight cfg) : State cfg := { s with flights := s.flights ++ [f] }

/-- The flight goes on with the thread, which is checkpointed. -/
def checkpoint (n : Nat) (f : Flight cfg) (th : Thread) : State cfg :=
  { s with
    kept := Function.update s.kept f.saverKey (some th)
    flights := s.flights.set n { f with thread := some th } }

/-- The flight is over. -/
def land (n : Nat) : State cfg := { s with flights := s.flights.eraseIdx n }

end State

/-! ## The requests -/

/-- The body of `/run`. An absent key reads as null. -/
structure RunBody where
  task : Json
  threadId : Option String

/-- The body of `/resume`. `values` is `none` where the key is absent. -/
structure ResumeBody where
  threadId : ThreadId
  values : Option Json
  approved : Json

/-- `body.get("thread_id") or f"t-{…}"` -/
def RunBody.runThread (body : RunBody) (drawn : String) : ThreadId :=
  if given body.threadId then body.threadId else some ("t-" ++ drawn)

/-- What the graph is resumed with. -/
def ResumeBody.answer (body : ResumeBody) : Json :=
  match body.values with
  | some v => .obj [("values", orEmpty v)]
  | none => .obj [("approved", .bool body.approved.truthy)]

def internalError : Nat × String := (500, "Internal Server Error")

section

variable [UnicodeData]

/-- `(authorization or "").removeprefix("Bearer ").strip()` -/
def bearerText (authorization : Option String) : String :=
  let text := (authorization.getD "").toList
  let scheme := "Bearer ".toList
  String.ofList (Py.strip (if scheme.isPrefixOf text then text.drop scheme.length else text))

/-- The checks of `/run`: the status and detail of a refusal, or the task and
who asks for it. -/
def admitted (cfg : Config) (decode : Decode) (authorization : Option String) (body : RunBody) :
    Except (Nat × String) (String × Delegation) :=
  let token := bearerText authorization
  if token = "" then .error (401, "missing bearer token")
  else if !body.task.truthy then .error (400, "task is required")
  else
    match body.task with
    | .str task =>
      match Guardrails.checkTask task with
      | some msg => .error (400, msg)
      | none =>
        match cfg.delegation decode token with
        | .error exc => .error (403, "identity rejected: " ++ exc.msg)
        | .ok d => .ok (task, d)
    -- what is no string has no `strip`
    | _ => .error internalError

theorem delegation_of_admitted {decode : Decode} {authorization : Option String} {body : RunBody} {task : String}
    {d : Delegation} (h : admitted cfg decode authorization body = .ok (task, d)) :
    cfg.delegation decode (bearerText authorization) = .ok d := by
  simp only [admitted] at h
  split at h
  · cases h
  · split at h
    · cases h
    · split at h
      · split at h
        · cases h
        · split at h
          · cases h
          · cases h
            assumption
      · cases h

/-- `/run` -/
def run (p : Nat) (decode : Decode) (authorization : Option String) (body : RunBody) (drawn : String)
    (s : State cfg) : List (Event cfg) × State cfg :=
  match h : admitted cfg decode authorization body with
  | .error (status, detail) => ([.refused status detail], s)
  | .ok (task, d) =>
    let threadId := body.runThread drawn
    let agent := ⟨s.next, bearerText authorization, d, decode, delegation_of_admitted h⟩
    ([.started threadId d], (s.cache p threadId agent).launch ⟨p, threadId, agent, .ok d, .task task, none⟩)

/-- `/resume` -/
def resume (p : Nat) (decode : Decode) (authorization : Option String) (body : ResumeBody) (s : State cfg) :
    List (Event cfg) × State cfg :=
  let token := bearerText authorization
  match s.runs p body.threadId with
  -- the token is not looked at
  | some agent =>
    ([], s.launch ⟨p, body.threadId, agent, cfg.delegation decode token, .decision body.answer, none⟩)
  | none =>
    if token = "" ∨ cfg.durable = false then ([.refused 404 "unknown thread_id"], s)
    else
      match h : cfg.delegation decode token with
      | .error exc => ([.refused 403 ("identity rejected: " ++ exc.msg)], s)
      | .ok d =>
        let agent := ⟨s.next, token, d, decode, h⟩
        ([], (s.cache p body.threadId agent).launch ⟨p, body.threadId, agent, .ok d, .decision body.answer, none⟩)

end

/-! ## The flights -/

/-- The flight reads the checkpoint and is invoked on it. A resume of a thread
that was never started finds no task in its state. -/
def enter (n : Nat) (s : State cfg) : List (Event cfg) × State cfg :=
  match s.flights[n]? with
  | some f =>
    match f.thread, f.call with
    | some _, _ => ([], s)
    | none, .task task => ([], s.checkpoint n f (.start task (s.kept f.saverKey)))
    | none, .decision answer =>
      match s.kept f.saverKey with
      | none => ([.refused internalError.1 internalError.2], s.land n)
      | some th =>
        if th.raisesOn answer then ([.refused internalError.1 internalError.2], s.land n)
        else ([.resumed f.threadId f.caller], s.checkpoint n f (th.resume answer))
  | none => ([], s)

/-- What is outside, at one node: the tools the policy gives to roles in a
tenant, the exchange of a user's token, and what does not depend on the user. -/
structure Outside where
  toolsForRoles : List String → Option String → Except Exn (List Json)
  exchange : String → Except Exn String
  env : LiveEnv

section

variable [UnicodeData]

/-- The `LiveDeps` an agent was built with. -/
def Agent.deps (o : Outside) (a : Agent cfg) : AgentDeps World :=
  { o.env with
    offered := o.toolsForRoles a.delegation.roles a.delegation.tenant
    exchange := o.exchange a.token : LiveEnv }.deps

/-- The flight runs the next node. -/
def advance (n : Nat) (o : Outside) (s : State cfg) : List (Event cfg) × State cfg :=
  match s.flights[n]? with
  | some f =>
    match f.thread with
    | some th =>
      if th.pos.isNode = false then ([], s)
      else
        let deps := f.agent.deps o
        let r := th.advance deps s.world
        if th.raises deps s.world then
          ([.refused internalError.1 internalError.2], { s.land n with world := r.2.2 })
        else (r.1.map (.acted f.threadId f.agent), { s.checkpoint n f r.2.1 with world := r.2.2 })
    | none => ([], s)
  | none => ([], s)

end

/-- The flight has no node left to run, and answers. -/
def respond (n : Nat) (s : State cfg) : List (Event cfg) × State cfg :=
  match s.flights[n]? with
  | some f =>
    match f.thread with
    | some th => if th.pos.isNode then ([], s) else ([.disclosed f.threadId f.caller th.shape], s.land n)
    | none => ([], s)
  | none => ([], s)

/-- The process loses its dictionary and its flights. -/
def restart (p : Nat) (s : State cfg) : State cfg :=
  { s with
    runs := Function.update s.runs p fun _ => none
    flights := s.flights.filter fun f => f.process ≠ p }

/-! ## The machine -/

inductive Input where
  | run (p : Nat) (decode : Decode) (authorization : Option String) (body : RunBody) (drawn : String)
  | resume (p : Nat) (decode : Decode) (authorization : Option String) (body : ResumeBody)
  | enter (n : Nat)
  | advance (n : Nat) (o : Outside)
  | respond (n : Nat)
  | fail (n : Nat)
  | restart (p : Nat)
  | elsewhere (w : World)

/-- The service, started over a world that has a past. -/
def service [UnicodeData] (cfg : Config) (past : World) : Machine (State cfg) Input (List (Event cfg)) where
  init := ⟨fun _ => none, fun _ _ => none, 0, [], past⟩
  step
    | .run p decode authorization body drawn, s => run p decode authorization body drawn s
    | .resume p decode authorization body, s => resume p decode authorization body s
    | .enter n, s => enter n s
    | .advance n o, s => advance n o s
    | .respond n, s => respond n s
    | .fail n, s => ([.refused internalError.1 internalError.2], s.land n)
    | .restart p, s => ([], restart p s)
    | .elsewhere world, s => ([], { s with world })

/-- What a run did that is seen from outside, in order. -/
def events {σ ι : Type} (run : List (Transition σ ι (List (Event cfg)))) : List (Event cfg) :=
  run.flatMap Transition.output

end Service

end AgentPlatform
