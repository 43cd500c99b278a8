/-
The agent graph (`app/agent/graph.py`): its nodes, its routers and its two
pauses.

What the graph depends on is an `AgentDeps`: three methods that run in a state
of their own and may raise. A node reads the thread's state and updates part of
it; the updates and the routers are functions of the state alone, so
`Thread.advance` (one node) and `Thread.resume` (a pause answered) are all a
run is made of. An exception that escapes a node leaves the thread where it
was.

The checkpointer keeps a thread between invocations; `Thread.start` merges a
new task into what it kept, and `Thread.fresh` is a thread it never saw.
-/
import AgentPlatform.Machine
import AgentPlatform.PolicyClient
import AgentPlatform.Simulators

namespace AgentPlatform

/-! ## What the graph depends on (`deps.py`) -/

/-- The dictionary `decide` returns. A missing tool is `None`. -/
structure ModelDecision where
  tool : Option String
  args : Args := ∅
  reason : Option Json := none
  clarify : Bool := false
  missing : List String := []
  more : Bool := false
  refused : Bool := false
  refusedTool : String := ""

inductive CallStatus where
  | ok
  | denied
  | approvalRequired
  | error
  deriving DecidableEq

structure ToolCallResult where
  status : CallStatus
  result : Option Json := none
  reason : Json := .str ""

/-- What a call that happened returned. -/
structure Observation where
  tool : String
  args : Args
  result : Json

/-- `AgentDeps`. `createApproval` answers the identifier of the approval. -/
structure AgentDeps (σ : Type) where
  decide : String → List Observation → σ → Except Exn ModelDecision × σ
  callTool : String → Args → Option String → σ → Except Exn ToolCallResult × σ
  createApproval : String → Args → Json → σ → Except Exn String × σ

/-! ## The state -/

inductive Status where
  | ok
  | denied
  | refused
  | error
  | approvalRequired
  | approved
  | clarificationRequired
  deriving DecidableEq

def CallStatus.toStatus : CallStatus → Status
  | .ok => .ok
  | .denied => .denied
  | .approvalRequired => .approvalRequired
  | .error => .error

/-- `AgentState`. A key that was never set reads as its default here, which is
what `get` makes of it. -/
structure AgentState where
  task : String
  tool : String := ""
  args : Args := ∅
  reason : Json := .str ""
  status : Option Status := none
  refusedTool : String := ""
  result : Json := .obj []
  approvalId : Option String := none
  missing : List String := []
  asks : Nat := 0
  steps : Nat := 0
  observations : List Observation := []
  more : Bool := false
  final : Bool := false

def maxAsks : Nat := 2

def maxSteps : Nat := 3

namespace AgentState

/-! ## The nodes -/

/-- What `plan` writes for a decision. -/
def plan (d : ModelDecision) (s : AgentState) : AgentState :=
  if d.clarify then
    -- neither the approval nor `more` and `final` are among the keys written
    { s with
      tool := d.tool.getD ""
      args := d.args
      missing := d.missing
      asks := s.asks
      status := some .clarificationRequired
      reason := d.reason.getD (.str "") }
  else if !given d.tool then
    { s with
      status := some (if d.refused then .refused else .error)
      reason := d.reason.getD (.str "no tool was selected")
      refusedTool := d.refusedTool }
  else
    { s with
      tool := d.tool.getD ""
      args := d.args
      reason := d.reason.getD (.str "")
      more := d.more
      final := false
      approvalId := none }

/-- The call is the last one made: what it returned. -/
def repeats (s : AgentState) : Option Observation :=
  match s.observations.getLast? with
  | some previous => if previous.tool = s.tool && previous.args.pyEq s.args then some previous else none
  | none => none

/-- What `call_tool` writes for a call it does not make again. -/
def repeated (previous : Observation) (s : AgentState) : AgentState :=
  { s with
    status := some .ok
    result := previous.result
    reason := .str "the same call was already made — stopping rather than repeating it"
    final := true }

/-- What `call_tool` writes for the outcome of a call. -/
def called (outcome : Except Exn ToolCallResult) (s : AgentState) : AgentState :=
  match outcome with
  | .error exc =>
    { s with
      status := some .error
      reason := .str ("tool call failed: " ++ exc.msg)
      final := true }
  | .ok outcome =>
    let result := orEmpty (outcome.result.getD .null)
    let update := { s with
      status := some outcome.status.toStatus
      result
      reason := outcome.reason
      final := true }
    if outcome.status = .ok then
      { update with
        steps := s.steps + 1
        observations := s.observations ++ [⟨s.tool, s.args, result⟩]
        final := !s.more }
    else update

/-- What `create_approval` writes. -/
def created (answer : Except Exn String) (s : AgentState) : AgentState :=
  match answer with
  | .ok id => { s with approvalId := some id }
  | .error exc =>
    { s with
      status := some .error
      reason := .str ("could not request approval: " ++ exc.msg) }

/-- What `await_decision` writes for the answer: `(decision or {}).get("approved")`. -/
def awaited (decision : Json) (s : AgentState) : Except Exn AgentState :=
  (getField (orEmpty decision) "approved").map fun v =>
    { s with status := some (if v.truthy then .approved else .denied) }

/-- `{**args, **supplied}` without the blank answers. -/
def answered (args : Args) (supplied : List (String × Json)) : Args :=
  args.insertAll (supplied.filter fun e => !e.2.isBlank)

/-- The names that are still without a value. -/
def remaining (missing : List String) (args : Args) : List String :=
  missing.filter fun name => ((args.get? name).getD .null).isBlank

/-- What `ask_clarification` writes for the values supplied. -/
def clarified (supplied : List (String × Json)) (s : AgentState) : AgentState :=
  let args := answered s.args supplied
  let left := remaining s.missing args
  let asks := s.asks + 1
  if left = [] then { s with args, missing := [], asks }
  else if asks < maxAsks then { s with args, missing := left, asks }
  else
    { s with
      args
      missing := left
      asks
      status := some .refused
      reason := .str (s.tool ++ " still needs " ++ String.intercalate ", " left ++
        " after asking — nothing was executed") }

/-- The values of an answer: `(answer or {}).get("values") or {}`, as `items()`
lists them. -/
def values (answer : Json) : Except Exn (List (String × Json)) :=
  match getField (orEmpty answer) "values" with
  | .error exc => .error exc
  | .ok v =>
    match orEmpty v with
    | .obj supplied => .ok (Dict.ofList supplied).entries
    | _ => .error ⟨.attributeError, "object has no attribute 'items'"⟩

end AgentState

/-! ## The edges -/

inductive Node where
  | plan
  | callTool
  | createApproval
  | awaitDecision
  | askClarification
  deriving DecidableEq

/-- Where a thread stands: before a node, at the interrupt of one, or at the end. -/
inductive Position where
  | node (n : Node)
  | paused (n : Node)
  | ended
  deriving DecidableEq

/-- There is a node left to run. -/
def Position.isNode : Position → Bool
  | .node _ => true
  | _ => false

namespace AgentState

def afterPlan (s : AgentState) : Position :=
  if s.status = some .error ∨ s.status = some .refused then .ended
  else if s.status = some .clarificationRequired then .node .askClarification
  else .node .callTool

def afterCall (s : AgentState) : Position :=
  if s.status = some .approvalRequired then
    .node (if given s.approvalId then .awaitDecision else .createApproval)
  else if !s.final && decide (s.steps < maxSteps) then .node .plan
  else .ended

def afterCreate (s : AgentState) : Position :=
  if s.status = some .error then .ended else .node .awaitDecision

def afterDecision (s : AgentState) : Position :=
  if s.status = some .approved then .node .callTool else .ended

def afterClarification (s : AgentState) : Position :=
  if s.status = some .refused then .ended
  else .node (if s.missing = [] then .callTool else .askClarification)

end AgentState

/-! ## Threads -/

/-- What an interrupt shows. -/
inductive Interrupt where
  | approvalRequired (approvalId : Option String) (tool : String) (args : Args) (reason : Json)
  | clarificationRequired (tool : String) (args : Args) (missing : List String)

/-- What a node does outside the state. -/
inductive GraphEvent where
  | planned (d : ModelDecision)
  | toolCalled (tool : String) (args : Args) (approvalId : Option String) (outcome : Except Exn ToolCallResult)
  | approvalCreated (tool : String) (args : Args) (answer : Except Exn String)
  | interrupted (i : Interrupt)

structure Thread where
  state : AgentState
  pos : Position

namespace Thread

def fresh (task : String) : Thread := ⟨{ task := task }, .node .plan⟩

/-- A new invocation with a task, on what the checkpointer kept. -/
def start (task : String) (kept : Option Thread) : Thread :=
  match kept with
  | none => fresh task
  | some th => ⟨{ th.state with task := task }, .node .plan⟩

variable {σ : Type}

/-- The next node, if the thread stands before one. -/
def advance (deps : AgentDeps σ) (th : Thread) (s : σ) : List GraphEvent × Thread × σ :=
  let st := th.state
  match th.pos with
  | .node .plan =>
    match deps.decide st.task st.observations s with
    | (.error _, s') => ([], th, s')
    | (.ok d, s') => ([.planned d], ⟨st.plan d, (st.plan d).afterPlan⟩, s')
  | .node .callTool =>
    match st.repeats with
    | some previous => ([], ⟨st.repeated previous, (st.repeated previous).afterCall⟩, s)
    | none =>
      let (outcome, s') := deps.callTool st.tool st.args st.approvalId s
      ([.toolCalled st.tool st.args st.approvalId outcome], ⟨st.called outcome, (st.called outcome).afterCall⟩, s')
  | .node .createApproval =>
    let (answer, s') := deps.createApproval st.tool st.args st.reason s
    ([.approvalCreated st.tool st.args answer], ⟨st.created answer, (st.created answer).afterCreate⟩, s')
  | .node .awaitDecision =>
    ([.interrupted (.approvalRequired st.approvalId st.tool st.args st.reason)],
      { th with pos := .paused .awaitDecision }, s)
  | .node .askClarification =>
    ([.interrupted (.clarificationRequired st.tool st.args st.missing)],
      { th with pos := .paused .askClarification }, s)
  | .paused _ | .ended => ([], th, s)

/-- `Command(resume=answer)`: the interrupted node again, with its answer. An
answer the node cannot read leaves the interrupt open. -/
def resume (answer : Json) (th : Thread) : Thread :=
  match th.pos with
  | .paused .awaitDecision =>
    match th.state.awaited answer with
    | .ok st => ⟨st, st.afterDecision⟩
    | .error _ => th
  | .paused .askClarification =>
    match AgentState.values answer with
    | .ok supplied => ⟨th.state.clarified supplied, (th.state.clarified supplied).afterClarification⟩
    | .error _ => th
  | _ => th

/-- The node the thread stands before raises: `plan` catches nothing. -/
def raises (deps : AgentDeps σ) (th : Thread) (s : σ) : Bool :=
  match th.pos with
  | .node .plan => (deps.decide th.state.task th.state.observations s).1.toOption.isNone
  | _ => false

/-- The interrupted node raises on its answer. -/
def raisesOn (answer : Json) (th : Thread) : Bool :=
  match th.pos with
  | .paused .awaitDecision => (th.state.awaited answer).toOption.isNone
  | .paused .askClarification => (AgentState.values answer).toOption.isNone
  | _ => false

/-- What an invocation returns, shaped for the caller: the interrupt, or the
state's outcome. A tool that was never set reads as `""`. -/
inductive Shaped where
  | interrupt (i : Interrupt)
  | outcome (status : Option Status) (tool : String) (result reason : Json) (refusedTool : String) (steps : Nat)
      (observations : List Observation)

/-- `_shape(state)` -/
def shape (th : Thread) : Shaped :=
  let st := th.state
  match th.pos with
  | .paused .awaitDecision => .interrupt (.approvalRequired st.approvalId st.tool st.args st.reason)
  | .paused .askClarification => .interrupt (.clarificationRequired st.tool st.args st.missing)
  | _ => .outcome st.status st.tool st.result st.reason st.refusedTool st.steps st.observations

end Thread

/-! ## Runs -/

/-- A step of a run: a node, with whatever the dependencies do now, or an answer
to the interrupt. -/
inductive GraphInput where
  | advance (deps : AgentDeps Unit)
  | resume (answer : Json)

/-- A thread from its first task on. -/
def agentGraph (task : String) : Machine Thread GraphInput (List GraphEvent) where
  init := .fresh task
  step
    | .advance deps, th => ((th.advance deps ()).1, (th.advance deps ()).2.1)
    | .resume answer, th => ([], th.resume answer)

/-- What a run did outside the state, in order. -/
def graphEvents {σ ι : Type} (run : List (Transition σ ι (List GraphEvent))) : List GraphEvent :=
  run.flatMap Transition.output

end AgentPlatform
