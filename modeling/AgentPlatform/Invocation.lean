/-
Whole invocations of the graph, and runs as their caller sees them.

`Thread.invoke` runs nodes until an interrupt, the end, or an exception that
escapes a node. A `Script` is what a run meets: what the model decides, what the
calls return and which approvals are created, in the order the graph asks for
them and whatever it asks with; it also records the calls. `runAgent` is a
`/run` on what the checkpointer kept of a thread, with the answers its pauses
are given.
-/
import AgentPlatform.Graph

namespace AgentPlatform

namespace Thread

variable {σ : Type}

/-- Nodes an invocation may run. -/
def recursionLimit : Nat := 25

/-- What an invocation leaves. It failed where a node raised or the limit was
reached. -/
structure Invocation (σ : Type) where
  thread : Thread
  failed : Bool
  state : σ

/-- `agent.invoke`, from where the thread stands. -/
def invoke (deps : AgentDeps σ) : Nat → Thread → σ → Invocation σ
  | 0, th, s => ⟨th, th.pos.isNode, s⟩
  | n + 1, th, s =>
    if th.pos.isNode then
      let r := th.advance deps s
      if th.raises deps s then ⟨th, true, r.2.2⟩ else invoke deps n r.2.1 r.2.2
    else ⟨th, false, s⟩

/-- What the caller is answered: the shape, or an internal error. -/
def Invocation.response (i : Invocation σ) : Option Shaped := if i.failed then none else some i.thread.shape

/-- An invocation that answers a pause. -/
def answer (deps : AgentDeps σ) (a : Json) (th : Thread) (s : σ) : Invocation σ :=
  if th.raisesOn a then ⟨th, true, s⟩ else invoke deps recursionLimit (th.resume a) s

end Thread

/-! ## Scripts -/

/-- A call the graph makes of its dependencies. -/
inductive AgentCall where
  | callTool (tool : String) (args : Args) (approvalId : Option String)
  | createApproval (tool : String) (args : Args) (reason : Json)

structure Script where
  decisions : List (Except Exn ModelDecision)
  outcomes : List (Except Exn ToolCallResult)
  approvals : List (Except Exn String)
  calls : List AgentCall := []

/-- The next of a list of answers, or an exception when there is none. -/
def nextAnswer {α : Type} : List (Except Exn α) → Except Exn α × List (Except Exn α)
  | [] => (.error ⟨.other, "no answer"⟩, [])
  | a :: rest => (a, rest)

/-- Dependencies that follow the script. -/
def Script.deps : AgentDeps Script where
  decide _ _ s := ((nextAnswer s.decisions).1, { s with decisions := (nextAnswer s.decisions).2 })
  callTool tool args approvalId s :=
    ((nextAnswer s.outcomes).1,
      { s with outcomes := (nextAnswer s.outcomes).2, calls := s.calls ++ [.callTool tool args approvalId] })
  createApproval tool args reason s :=
    ((nextAnswer s.approvals).1,
      { s with approvals := (nextAnswer s.approvals).2, calls := s.calls ++ [.createApproval tool args reason] })

/-! ## Runs of a thread -/

/-- The responses to a list of answers, and the calls made. -/
def resumeAgent : List Json → Thread → Script → List (Option Thread.Shaped) × List AgentCall
  | [], _, s => ([], s.calls)
  | a :: answers, th, s =>
    let i := th.answer Script.deps a s
    let r := resumeAgent answers i.thread i.state
    (i.response :: r.1, r.2)

/-- `/run` with a task, on what was kept, and the answers that follow: the
responses, and the calls made. -/
def runAgent (kept : Option Thread) (task : String) (s : Script) (answers : List Json) :
    List (Option Thread.Shaped) × List AgentCall :=
  let i := (Thread.start task kept).invoke Script.deps Thread.recursionLimit s
  let r := resumeAgent answers i.thread i.state
  (i.response :: r.1, r.2)

end AgentPlatform
