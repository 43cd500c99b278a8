/-
What a run inherits from the runs before it on its thread.

`inherits_nothing_iff`: a new run on either of two kept threads is answered
alike and makes the same calls, for every task, every script and every list of
answers, exactly when the kept states are `Alike`: they agree in the fields
that a run reads, or returns, before it writes them. The graph resets none of
them when a run starts.

One direction is a simulation: `Similar` threads take the same step and stay
similar. The other is a run for each field that tells two states apart.
-/
import AgentPlatform.Invocation
import AgentPlatform.GraphSteps

namespace AgentPlatform

/-! ## Alike states -/

/-- The states agree in what any later node may read or return. -/
structure Core (a b : AgentState) : Prop where
  tool : a.tool = b.tool
  result : a.result = b.result
  refusedTool : a.refusedTool = b.refusedTool
  steps : a.steps = b.steps
  observations : a.observations = b.observations
  approvalId : a.approvalId = b.approvalId
  /-- another step is only taken while the budget lasts -/
  more : a.more = b.more ∨ maxSteps ≤ a.steps + 1
  /-- a second question is only put after the first -/
  asks : a.asks = 0 ↔ b.asks = 0

/-- A status that `after_plan` does not take for a reason to call the tool. -/
def Stops (status : Option Status) : Prop :=
  status = some .error ∨ status = some .refused ∨ status = some .clarificationRequired

/-- The states lead on alike from a decision to call a tool, which does not
write the status. -/
def StatusAlike (a b : AgentState) : Prop :=
  (a.status = b.status ∧ (a.status = some .clarificationRequired → a.missing = b.missing)) ∨
    (¬ Stops a.status ∧ ¬ Stops b.status)

structure Alike (a b : AgentState) : Prop extends Core a b where
  status : StatusAlike a b

/-- What else the states agree in, by where their threads stand. -/
def SameAt : Position → AgentState → AgentState → Prop
  | .node .plan, a, b => StatusAlike a b
  | .node .callTool, a, b => a.args = b.args
  | .node .askClarification, a, b | .paused .askClarification, a, b =>
    (a.status = b.status ∧ a.reason = b.reason) ∧ a.args = b.args ∧ a.missing = b.missing
  | .node .createApproval, a, b | .node .awaitDecision, a, b | .paused .awaitDecision, a, b =>
    (a.status = b.status ∧ a.reason = b.reason) ∧ a.args = b.args
  | _, a, b => a.status = b.status ∧ a.reason = b.reason

structure Similar (x y : Thread) : Prop where
  pos : x.pos = y.pos
  core : Core x.state y.state
  same : SameAt x.pos x.state y.state

/-! ## Similar threads do the same -/

section

variable {a b : AgentState}

theorem StatusAlike.refl (a : AgentState) : StatusAlike a a := .inl ⟨rfl, fun _ => rfl⟩

theorem afterPlan_of_not_stops (h : ¬ Stops a.status) : a.afterPlan = .node .callTool := by
  simp only [Stops, not_or] at h
  simp [AgentState.afterPlan, h]

/-- A decision leads to the same place. -/
theorem plan_similar (h : Core a b) (hs : StatusAlike a b) (d : ModelDecision) :
    Similar ⟨a.plan d, (a.plan d).afterPlan⟩ ⟨b.plan d, (b.plan d).afterPlan⟩ := by
  unfold AgentState.plan
  split
  · exact ⟨rfl, { h with tool := rfl }, ⟨rfl, rfl⟩, rfl, rfl⟩
  · split
    · cases d.refused <;> exact ⟨rfl, { h with refusedTool := rfl }, rfl, rfl⟩
    · rcases hs with ⟨hstatus, hmissing⟩ | ⟨ha, hb⟩
      · -- the status of an earlier run decides, and is the same
        refine ⟨by simp [AgentState.afterPlan, hstatus], { h with tool := rfl, approvalId := rfl, more := .inl rfl },
          ?_⟩
        unfold AgentState.afterPlan
        split
        · exact ⟨hstatus, rfl⟩
        · split
          · rename_i hclarify
            exact ⟨⟨hstatus, rfl⟩, rfl, hmissing hclarify⟩
          · exact rfl
      · refine ⟨(afterPlan_of_not_stops ha).trans (afterPlan_of_not_stops hb).symm,
          { h with tool := rfl, approvalId := rfl, more := .inl rfl }, ?_⟩
        dsimp only
        rw [afterPlan_of_not_stops]
        · exact rfl
        · exact ha

theorem repeats_eq (h : Core a b) (hargs : a.args = b.args) : a.repeats = b.repeats := by
  simp [AgentState.repeats, h.tool, h.observations, hargs]

theorem repeated_similar (h : Core a b) (previous : Observation) :
    Similar ⟨a.repeated previous, (a.repeated previous).afterCall⟩
      ⟨b.repeated previous, (b.repeated previous).afterCall⟩ := by
  rw [AgentState.repeated_ends, AgentState.repeated_ends]
  exact ⟨rfl, { h with result := rfl }, rfl, rfl⟩

/-- The same outcome of the same call leads to the same place. -/
theorem called_similar (h : Core a b) (hargs : a.args = b.args) (outcome : Except Exn ToolCallResult) :
    Similar ⟨a.called outcome, (a.called outcome).afterCall⟩ ⟨b.called outcome, (b.called outcome).afterCall⟩ := by
  cases outcome with
  | error exc => exact ⟨rfl, { h with }, rfl, rfl⟩
  | ok o =>
    by_cases hok : o.status = .ok
    · obtain ⟨hsa, hoa, hpa⟩ := @AgentState.called_ok a o hok
      obtain ⟨hsb, hob, hpb⟩ := @AgentState.called_ok b o hok
      have hcore : Core (a.called (.ok o)) (b.called (.ok o)) := by
        refine ⟨?_, by simp [AgentState.called, hok], ?_, by rw [hsa, hsb, h.steps], ?_, ?_, ?_, ?_⟩
        · simpa [AgentState.called, hok] using h.tool
        · simpa [AgentState.called, hok] using h.refusedTool
        · rw [hoa, hob, h.observations, h.tool, hargs]
        · simpa [AgentState.called, hok] using h.approvalId
        · rw [a.called_more, b.called_more, hsa]
          exact h.more.imp_right fun hlast => hlast.trans (Nat.le_succ _)
        · simpa [AgentState.called, hok] using h.asks
      have hpos : (a.called (.ok o)).afterCall = (b.called (.ok o)).afterCall := by
        rw [hpa, hpb, ← h.steps]
        rcases h.more with hmore | hlast
        · rw [hmore]
        · rw [if_neg (by omega), if_neg (by omega)]
      refine ⟨hpos, hcore, ?_⟩
      rw [hpa]
      split
      · exact .inl ⟨by simp [AgentState.called, hok], by simp [AgentState.called, hok, CallStatus.toStatus]⟩
      · exact ⟨by simp [AgentState.called, hok], by simp [AgentState.called, hok]⟩
    · have hcalled : ∀ c : AgentState, c.called (.ok o) =
          { c with
            status := some o.status.toStatus
            result := orEmpty (o.result.getD .null)
            reason := o.reason
            final := true } := by
        intro c
        simp [AgentState.called, hok]
      rw [hcalled a, hcalled b]
      refine ⟨by simp [AgentState.afterCall, h.approvalId], { h with result := rfl }, ?_⟩
      unfold AgentState.afterCall
      split
      · dsimp only
        cases given a.approvalId <;> exact ⟨⟨rfl, rfl⟩, hargs⟩
      · exact ⟨rfl, rfl⟩

theorem afterCreate_congr (h : a.status = b.status) : a.afterCreate = b.afterCreate := by
  unfold AgentState.afterCreate
  rw [h]

theorem created_similar (h : Core a b) (hs : SameAt (.node .createApproval) a b) (answer : Except Exn String) :
    Similar ⟨a.created answer, (a.created answer).afterCreate⟩ ⟨b.created answer, (b.created answer).afterCreate⟩ := by
  obtain ⟨⟨hstatus, hreason⟩, hargs⟩ := hs
  cases answer with
  | error exc => exact ⟨rfl, { h with }, rfl, rfl⟩
  | ok id =>
    refine ⟨afterCreate_congr hstatus, { h with approvalId := rfl }, ?_⟩
    rcases (a.created (.ok id)).afterCreate_cases with hpos | hpos
    · rw [hpos]
      exact ⟨hstatus, hreason⟩
    · rw [hpos]
      exact ⟨⟨hstatus, hreason⟩, hargs⟩

theorem clarified_similar (h : Core a b) (hs : SameAt (.paused .askClarification) a b)
    (supplied : List (String × Json)) :
    Similar ⟨a.clarified supplied, (a.clarified supplied).afterClarification⟩
      ⟨b.clarified supplied, (b.clarified supplied).afterClarification⟩ := by
  obtain ⟨⟨hstatus, hreason⟩, hargs, hmissing⟩ := hs
  have hasks : a.asks + 1 < maxAsks ↔ b.asks + 1 < maxAsks := by
    have hzero := h.asks
    simp only [maxAsks]
    omega
  unfold AgentState.clarified
  dsimp only
  rw [hargs, hmissing]
  split
  · refine ⟨by simp [AgentState.afterClarification, hstatus], { h with asks := by simp }, ?_⟩
    unfold AgentState.afterClarification
    split
    · exact ⟨hstatus, hreason⟩
    · exact rfl
  · rename_i hleft
    by_cases ha : a.asks + 1 < maxAsks
    · rw [if_pos ha, if_pos (hasks.1 ha)]
      refine ⟨by simp [AgentState.afterClarification, hstatus], { h with asks := by simp }, ?_⟩
      unfold AgentState.afterClarification
      split
      · exact ⟨hstatus, hreason⟩
      · exact ⟨⟨hstatus, hreason⟩, rfl, rfl⟩
    · rw [if_neg ha, if_neg fun hb => ha (hasks.2 hb)]
      exact ⟨rfl, { h with asks := by simp }, rfl, by rw [h.tool]⟩

end

section

variable {x y : Thread}

theorem Similar.shape_eq (h : Similar x y) (hn : x.pos.isNode = false) : x.shape = y.shape := by
  obtain ⟨a, pos⟩ := x
  obtain ⟨b, pos'⟩ := y
  obtain ⟨hpos, hcore, hsame⟩ := h
  cases hpos
  dsimp only at hcore hsame
  match pos with
  | .node n => cases hn
  | .paused .awaitDecision =>
    obtain ⟨⟨-, hreason⟩, hargs⟩ := hsame
    simp [Thread.shape, hcore.approvalId, hcore.tool, hargs, hreason]
  | .paused .askClarification =>
    obtain ⟨-, hargs, hmissing⟩ := hsame
    simp [Thread.shape, hcore.tool, hargs, hmissing]
  | .ended | .paused .plan | .paused .callTool | .paused .createApproval =>
    obtain ⟨hstatus, hreason⟩ := hsame
    simp [Thread.shape, hcore.tool, hcore.result, hcore.refusedTool, hcore.steps, hcore.observations, hstatus, hreason]

theorem Similar.raises_eq (h : Similar x y) (s : Script) : x.raises Script.deps s = y.raises Script.deps s := by
  unfold Thread.raises
  rw [h.pos]
  split <;> rfl

theorem Similar.raisesOn_eq (h : Similar x y) (a : Json) : x.raisesOn a = y.raisesOn a := by
  unfold Thread.raisesOn
  rw [h.pos]
  split
  · unfold AgentState.awaited
    cases getField (orEmpty a) "approved" <;> rfl
  · rfl
  · rfl

/-- One node: the same answers are used up, the same calls are made, and the
threads stay similar. -/
theorem Similar.advance (h : Similar x y) (s : Script) :
    (x.advance Script.deps s).2.2 = (y.advance Script.deps s).2.2 ∧
      Similar (x.advance Script.deps s).2.1 (y.advance Script.deps s).2.1 := by
  obtain ⟨a, pos⟩ := x
  obtain ⟨b, pos'⟩ := y
  obtain ⟨hpos, hcore, hsame⟩ := h
  cases hpos
  dsimp only at hcore hsame
  match pos with
  | .node .plan =>
    simp only [Thread.advance, Script.deps]
    cases (nextAnswer s.decisions).1 with
    | error exc => exact ⟨rfl, rfl, hcore, hsame⟩
    | ok d => exact ⟨rfl, plan_similar hcore hsame d⟩
  | .node .callTool =>
    have hargs : a.args = b.args := hsame
    simp only [Thread.advance, Script.deps, repeats_eq hcore hargs]
    cases b.repeats with
    | some previous => exact ⟨rfl, repeated_similar hcore previous⟩
    | none =>
      refine ⟨?_, called_similar hcore hargs _⟩
      simp only [hcore.tool, hcore.approvalId, hargs]
  | .node .createApproval =>
    simp only [Thread.advance, Script.deps]
    refine ⟨?_, created_similar hcore hsame _⟩
    obtain ⟨⟨-, hreason⟩, hargs⟩ := hsame
    simp only [hcore.tool, hargs, hreason]
  | .node .awaitDecision | .node .askClarification => exact ⟨rfl, rfl, hcore, hsame⟩
  | .paused _ | .ended => exact ⟨rfl, rfl, hcore, hsame⟩

theorem Similar.resume (h : Similar x y) (answer : Json) : Similar (x.resume answer) (y.resume answer) := by
  obtain ⟨a, pos⟩ := x
  obtain ⟨b, pos'⟩ := y
  obtain ⟨hpos, hcore, hsame⟩ := h
  cases hpos
  dsimp only at hcore hsame
  match pos with
  | .paused .awaitDecision =>
    simp only [Thread.resume, AgentState.awaited]
    cases getField (orEmpty answer) "approved" with
    | error exc => exact ⟨rfl, hcore, hsame⟩
    | ok v =>
      obtain ⟨⟨-, hreason⟩, hargs⟩ := hsame
      refine ⟨rfl, { hcore with }, ?_⟩
      simp only [Except.map]
      cases v.truthy
      · exact ⟨rfl, hreason⟩
      · exact hargs
  | .paused .askClarification =>
    simp only [Thread.resume]
    cases AgentState.values answer with
    | error exc => exact ⟨rfl, hcore, hsame⟩
    | ok supplied => exact clarified_similar hcore hsame supplied
  | .node _ | .ended | .paused .plan | .paused .callTool | .paused .createApproval => exact ⟨rfl, hcore, hsame⟩

/-- Invocations of similar threads. -/
structure SameInvocation (i j : Thread.Invocation Script) : Prop where
  similar : Similar i.thread j.thread
  state : i.state = j.state
  response : i.response = j.response

theorem response_congr {i j : Thread.Invocation Script} (hf : i.failed = j.failed)
    (hs : i.failed = false → i.thread.shape = j.thread.shape) : i.response = j.response := by
  unfold Thread.Invocation.response
  rw [← hf]
  split
  · rfl
  · rename_i hok
    rw [hs (by simpa using hok)]

theorem Similar.invoke (h : Similar x y) (n : Nat) (s : Script) :
    SameInvocation (x.invoke Script.deps n s) (y.invoke Script.deps n s) := by
  induction n generalizing x y s with
  | zero =>
    exact ⟨h, rfl, response_congr (congrArg Position.isNode h.pos) h.shape_eq⟩
  | succ n ih =>
    unfold Thread.invoke
    rw [← h.pos, ← h.raises_eq s]
    split
    · obtain ⟨hstate, hsim⟩ := h.advance s
      dsimp only
      split
      · exact ⟨h, hstate, rfl⟩
      · rw [hstate]
        exact ih hsim _
    · rename_i hn
      exact ⟨h, rfl, response_congr rfl fun _ => h.shape_eq (by simpa using hn)⟩

theorem Similar.answer (h : Similar x y) (a : Json) (s : Script) :
    SameInvocation (x.answer Script.deps a s) (y.answer Script.deps a s) := by
  unfold Thread.answer
  rw [h.raisesOn_eq]
  split
  · exact ⟨h, rfl, rfl⟩
  · exact (h.resume a).invoke _ s

theorem Similar.resumeAgent_eq (h : Similar x y) (answers : List Json) (s : Script) :
    resumeAgent answers x s = resumeAgent answers y s := by
  induction answers generalizing x y s with
  | nil => rfl
  | cons a answers ih =>
    obtain ⟨hsim, hstate, hresponse⟩ := h.answer a s
    simp only [resumeAgent, hstate, hresponse, ih hsim]

end

/-! ## Runs that tell states apart -/

/-- The state a new run finds. -/
def keptState (kept : Option Thread) : AgentState := (kept.map Thread.state).getD { task := "" }

theorem start_eq (task : String) (kept : Option Thread) :
    Thread.start task kept = ⟨{ keptState kept with task := task }, .node .plan⟩ := by
  cases kept <;> rfl

section

variable {st : AgentState} {ds : List (Except Exn ModelDecision)} {os : List (Except Exn ToolCallResult)}
  {as : List (Except Exn String)} {cs : List AgentCall} (n : Nat)

theorem invoke_done {th : Thread} (h : th.pos.isNode = false) (s : Script) :
    th.invoke Script.deps n s = ⟨th, false, s⟩ := by
  cases n <;> simp [Thread.invoke, h]

theorem invoke_plan (d : ModelDecision) :
    Thread.invoke Script.deps (n + 1) ⟨st, .node .plan⟩ ⟨.ok d :: ds, os, as, cs⟩ =
      Thread.invoke Script.deps n ⟨st.plan d, (st.plan d).afterPlan⟩ ⟨ds, os, as, cs⟩ := rfl

/-- There is no decision left. -/
theorem invoke_plan_fails :
    (Thread.invoke Script.deps (n + 1) ⟨st, .node .plan⟩ ⟨[], os, as, cs⟩).response = none := rfl

theorem invoke_call (hrep : st.repeats = none) (o : Except Exn ToolCallResult) :
    Thread.invoke Script.deps (n + 1) ⟨st, .node .callTool⟩ ⟨ds, o :: os, as, cs⟩ =
      Thread.invoke Script.deps n ⟨st.called o, (st.called o).afterCall⟩
        ⟨ds, os, as, cs ++ [.callTool st.tool st.args st.approvalId]⟩ := by
  simp [Thread.invoke, Thread.raises, Thread.advance, Position.isNode, hrep, Script.deps, nextAnswer]

theorem invoke_ask (s : Script) :
    Thread.invoke Script.deps (n + 1) ⟨st, .node .askClarification⟩ s =
      ⟨⟨st, .paused .askClarification⟩, false, s⟩ := by
  show Thread.invoke Script.deps n ⟨st, .paused .askClarification⟩ s = _
  exact invoke_done n rfl s

end

/-- An answer without values. -/
def noValues : Json := .obj [("values", .obj [])]

theorem answer_noValues (st : AgentState) (s : Script) :
    Thread.answer Script.deps noValues ⟨st, .paused .askClarification⟩ s =
      Thread.invoke Script.deps Thread.recursionLimit ⟨st.clarified [], (st.clarified []).afterClarification⟩ s := by
  have hv : AgentState.values noValues = .ok [] := rfl
  simp [Thread.answer, Thread.raisesOn, Thread.resume, hv, Except.toOption]

variable (kept : Option Thread) (task : String)

/-- The model declines. -/
def declines : Script := ⟨[.ok { tool := none, refused := true }], [], [], []⟩

theorem runAgent_declines :
    (runAgent kept task declines []).1 =
      [some (.outcome (some .refused) (keptState kept).tool (keptState kept).result (.str "no tool was selected") ""
        (keptState kept).steps (keptState kept).observations)] := by
  simp only [runAgent, start_eq, declines, Thread.recursionLimit]
  rw [invoke_plan 24, invoke_done 24 rfl]
  rfl

/-- The model asks for values, and a call it then makes has an outcome. -/
def asksFor (tool : String) (missing : List String) (o : ToolCallResult) : Script :=
  ⟨[.ok { tool := some tool, clarify := true, missing := missing }], [.ok o], [], []⟩

/-- The state after the question. -/
def askedState (tool : String) (missing : List String) : AgentState :=
  { keptState kept with task := task }.plan { tool := some tool, clarify := true, missing := missing }

theorem runAgent_asksFor (tool : String) (missing : List String) (o : ToolCallResult) :
    let i := Thread.invoke Script.deps Thread.recursionLimit
      ⟨(askedState kept task tool missing).clarified [],
        ((askedState kept task tool missing).clarified []).afterClarification⟩
      ⟨[], [.ok o], [], []⟩
    runAgent kept task (asksFor tool missing o) [noValues] =
      ([some (.interrupt (.clarificationRequired tool ∅ missing)), i.response], i.state.calls) := by
  have hfirst : (Thread.start task kept).invoke Script.deps Thread.recursionLimit (asksFor tool missing o) =
      ⟨⟨askedState kept task tool missing, .paused .askClarification⟩, false, ⟨[], [.ok o], [], []⟩⟩ := by
    rw [start_eq, asksFor, Thread.recursionLimit, invoke_plan 24]
    exact invoke_ask 23 _
  simp only [runAgent, hfirst, resumeAgent, answer_noValues]
  rfl

/-- The last call was of another tool. -/
def Other (tool : String) (st : AgentState) : Prop := ∀ obs, st.observations.getLast? = some obs → obs.tool ≠ tool

theorem exists_other (st : AgentState) : ∃ tool, tool ≠ "" ∧ Other tool st := by
  cases hlast : st.observations.getLast? with
  | none => exact ⟨"x", by decide, by simp [Other, hlast]⟩
  | some obs =>
    have hlonger : obs.tool ++ "x" ≠ obs.tool := by
      intro heq
      have hlen := congrArg String.length heq
      simp at hlen
    refine ⟨obs.tool ++ "x", fun heq => ?_, fun obs' hobs' heq => ?_⟩
    · have hlen := congrArg String.length heq
      simp at hlen
    · rw [hlast] at hobs'
      cases hobs'
      exact hlonger heq.symm

theorem repeats_none {st st' : AgentState} (h : Other st'.tool st) (hobs : st'.observations = st.observations) :
    st'.repeats = none := by
  unfold AgentState.repeats
  rw [hobs]
  cases hlast : st.observations.getLast? with
  | none => rfl
  | some obs => simp [h obs hlast]

/-- After a question about nothing the tool is called. -/
theorem invoke_asked {tool : String} (ht : Other tool (keptState kept)) (o : ToolCallResult) :
    let st := (askedState kept task tool []).clarified []
    Thread.invoke Script.deps Thread.recursionLimit ⟨st, st.afterClarification⟩ ⟨[], [.ok o], [], []⟩ =
      Thread.invoke Script.deps 24 ⟨st.called (.ok o), (st.called (.ok o)).afterCall⟩
        ⟨[], [], [], [.callTool tool ∅ (keptState kept).approvalId]⟩ := by
  intro st
  have hrep : st.repeats = none := repeats_none (show Other st.tool (keptState kept) from ht) rfl
  exact invoke_call 24 hrep (.ok o)

/-- The call is denied: the approval of the call and the refused tool. -/
theorem runAgent_denied {tool : String} (ht : Other tool (keptState kept)) :
    runAgent kept task (asksFor tool [] { status := .denied }) [noValues] =
      ([some (.interrupt (.clarificationRequired tool ∅ [])),
        some (.outcome (some .denied) tool (.obj []) (.str "") (keptState kept).refusedTool (keptState kept).steps
          (keptState kept).observations)], [.callTool tool ∅ (keptState kept).approvalId]) := by
  rw [runAgent_asksFor, invoke_asked kept task ht, invoke_done 24 rfl]
  rfl

/-- The call happens: whether the run goes on. -/
theorem runAgent_happens {tool : String} (ht : Other tool (keptState kept)) :
    (runAgent kept task (asksFor tool [] { status := .ok }) [noValues]).1.getLast? = some none ↔
      (keptState kept).more = true ∧ (keptState kept).steps + 1 < maxSteps := by
  have hafter : (((askedState kept task tool []).clarified []).called (.ok { status := .ok })).afterCall =
      if (keptState kept).more = true ∧ (keptState kept).steps + 1 < maxSteps then .node .plan else .ended :=
    (AgentState.called_ok rfl).2.2
  rw [runAgent_asksFor, invoke_asked kept task ht, hafter]
  by_cases hmore : (keptState kept).more = true ∧ (keptState kept).steps + 1 < maxSteps
  · rw [if_pos hmore]
    refine iff_of_true ?_ hmore
    rw [invoke_plan_fails 23]
    rfl
  · rw [if_neg hmore, invoke_done 24 rfl]
    exact iff_of_false (fun h => by cases h) hmore

/-- The answer is blank: whether the question is put again. -/
theorem runAgent_blank (tool : String) :
    (∃ i, (runAgent kept task (asksFor tool ["x"] { status := .ok }) [noValues]).1.getLast? =
      some (some (.interrupt i))) ↔ (keptState kept).asks = 0 := by
  have hleft : AgentState.remaining ["x"] (AgentState.answered ∅ []) = ["x"] := rfl
  rw [runAgent_asksFor]
  by_cases hasks : (keptState kept).asks = 0
  · have hpos : ((askedState kept task tool ["x"]).clarified []).afterClarification = .node .askClarification := by
      simp [AgentState.clarified, AgentState.afterClarification, askedState, AgentState.plan, hleft, maxAsks, hasks]
    rw [hpos, Thread.recursionLimit, invoke_ask 24]
    exact iff_of_true ⟨_, rfl⟩ hasks
  · have hover : ¬ (keptState kept).asks + 1 < 2 := by omega
    have hpos : ((askedState kept task tool ["x"]).clarified []).afterClarification = .ended := by
      simp [AgentState.clarified, AgentState.afterClarification, askedState, AgentState.plan, hleft, maxAsks, hover]
    rw [hpos, invoke_done _ rfl]
    refine iff_of_false (fun h => ?_) hasks
    obtain ⟨i, hi⟩ := h
    cases hi

/-- A decision to call a tool. -/
def plain (tool : String) : Script := ⟨[.ok { tool := some tool }], [.ok { status := .denied }], [], []⟩

/-- Where it leads, by the status that was kept. -/
theorem runAgent_plain {tool : String} (hne : tool ≠ "") (ht : Other tool (keptState kept)) :
    runAgent kept task (plain tool) [] =
      if (keptState kept).status = some .error ∨ (keptState kept).status = some .refused then
        ([some (.outcome (keptState kept).status tool (keptState kept).result (.str "") (keptState kept).refusedTool
          (keptState kept).steps (keptState kept).observations)], [])
      else if (keptState kept).status = some .clarificationRequired then
        ([some (.interrupt (.clarificationRequired tool ∅ (keptState kept).missing))], [])
      else
        ([some (.outcome (some .denied) tool (.obj []) (.str "") (keptState kept).refusedTool (keptState kept).steps
          (keptState kept).observations)], [.callTool tool ∅ none]) := by
  have hplan : { keptState kept with task := task }.plan { tool := some tool } =
      { keptState kept with
        task := task
        tool := tool
        args := ∅
        reason := .str ""
        more := false
        final := false
        approvalId := none } := by
    simp [AgentState.plan, given, hne]
  simp only [runAgent, start_eq, plain, Thread.recursionLimit]
  rw [invoke_plan 24, hplan]
  unfold AgentState.afterPlan
  dsimp only
  split
  · rw [invoke_done 24 rfl]
    rfl
  · split
    · rw [invoke_ask 23]
      rfl
    · rw [invoke_call 23 (repeats_none ht rfl), invoke_done 23 rfl]
      rfl

/-! ## The limit -/

theorem invoke_of_nodesLeft {σ : Type} {deps : AgentDeps σ} (hd : Decides deps) {n : Nat} {th : Thread}
    (hn : nodesLeft th ≤ n) (s : σ) : (th.invoke deps n s).failed = false := by
  induction n generalizing th s with
  | zero => exact isNode_of_nodesLeft (Nat.le_zero.1 hn)
  | succ n ih =>
    have hraises : th.raises deps s = false := by
      unfold Thread.raises
      split
      · obtain ⟨d, s', hdecide⟩ := hd th.state.task th.state.observations s
        rw [hdecide]
        rfl
      · rfl
    unfold Thread.invoke
    split
    · rw [hraises]
      exact ih ((nodesLeft_advance hd th s).trans (by omega)) _
    · rfl

/-- The limit on nodes is never reached: an invocation in which the model
decides is answered. -/
theorem invoke_answers {σ : Type} {deps : AgentDeps σ} (hd : Decides deps) (th : Thread) (s : σ) :
    (th.invoke deps Thread.recursionLimit s).failed = false :=
  invoke_of_nodesLeft hd ((nodesLeft_le th).trans (by decide)) s

/-! ## Exactly when nothing is inherited -/

/-- A new run on either of two threads is answered alike and makes the same
calls. -/
def InheritsNothing (kept kept' : Option Thread) : Prop :=
  ∀ task s answers, runAgent kept task s answers = runAgent kept' task s answers

theorem statusAlike_of_runs {kept kept' : Option Thread} {tool : String} (hne : tool ≠ "")
    (ht : Other tool (keptState kept)) (ht' : Other tool (keptState kept'))
    (h : runAgent kept "" (plain tool) [] = runAgent kept' "" (plain tool) []) :
    StatusAlike (keptState kept) (keptState kept') := by
  rw [runAgent_plain kept "" hne ht, runAgent_plain kept' "" hne ht'] at h
  split at h
  · rename_i hstop
    split at h
    · simp only [Prod.mk.injEq, List.cons.injEq, Option.some.injEq, Thread.Shaped.outcome.injEq] at h
      refine .inl ⟨h.1.1.1, fun hc => ?_⟩
      rw [hc] at hstop
      simp at hstop
    · split at h <;> simp at h
  · rename_i hgo
    split at h
    · rename_i hclarify
      split at h
      · simp at h
      · split at h
        · rename_i hclarify'
          simp only [Prod.mk.injEq, List.cons.injEq, Option.some.injEq, Thread.Shaped.interrupt.injEq,
            Interrupt.clarificationRequired.injEq] at h
          exact .inl ⟨hclarify.trans hclarify'.symm, fun _ => h.1.1.2.2⟩
        · simp at h
    · rename_i hno
      split at h
      · simp at h
      · rename_i hgo'
        split at h
        · simp at h
        · rename_i hno'
          exact .inr ⟨by simp only [Stops]; tauto, by simp only [Stops]; tauto⟩

theorem alike_of_inherits_nothing {kept kept' : Option Thread} (h : InheritsNothing kept kept') :
    Alike (keptState kept) (keptState kept') := by
  have hdeclines := congrArg Prod.fst (h "" declines [])
  rw [runAgent_declines, runAgent_declines] at hdeclines
  simp only [List.cons.injEq, Option.some.injEq, Thread.Shaped.outcome.injEq] at hdeclines
  obtain ⟨⟨-, htool, hresult, -, -, hsteps, hobservations⟩, -⟩ := hdeclines
  obtain ⟨tool, hne, ht⟩ := exists_other (keptState kept)
  have ht' : Other tool (keptState kept') := by
    unfold Other
    rw [← hobservations]
    exact ht
  have hdenied := h "" (asksFor tool [] { status := .denied }) [noValues]
  rw [runAgent_denied kept "" ht, runAgent_denied kept' "" ht'] at hdenied
  simp only [Prod.mk.injEq, List.cons.injEq, Option.some.injEq, Thread.Shaped.outcome.injEq,
    AgentCall.callTool.injEq] at hdenied
  have hhappens := runAgent_happens kept "" ht
  rw [h, runAgent_happens kept' "" ht'] at hhappens
  have hblank := runAgent_blank kept "" "x"
  rw [h, runAgent_blank kept' "" "x"] at hblank
  exact {
    tool := htool
    result := hresult
    refusedTool := hdenied.1.2.1.2.2.2.2.1
    steps := hsteps
    observations := hobservations
    approvalId := hdenied.2.1.2.2
    more := by
      by_cases hlast : maxSteps ≤ (keptState kept).steps + 1
      · exact .inr hlast
      · rw [← hsteps] at hhappens
        have hlt : (keptState kept).steps + 1 < maxSteps := by omega
        simp only [hlt, and_true] at hhappens
        exact .inl (Bool.eq_iff_iff.2 hhappens.symm)
    asks := hblank.symm
    status := statusAlike_of_runs hne ht ht' (h "" (plain tool) []) }

/-- **A run inherits nothing exactly from alike states.** -/
theorem inherits_nothing_iff (kept kept' : Option Thread) :
    InheritsNothing kept kept' ↔ Alike (keptState kept) (keptState kept') := by
  refine ⟨alike_of_inherits_nothing, fun h task s answers => ?_⟩
  have hsim : Similar (Thread.start task kept) (Thread.start task kept') := by
    rw [start_eq, start_eq]
    exact ⟨rfl, { h.toCore with }, h.status⟩
  obtain ⟨hthread, hstate, hresponse⟩ := hsim.invoke Thread.recursionLimit s
  simp only [runAgent, hstate, hresponse, hthread.resumeAgent_eq]

/-- A run that is over leaves its observations to the next run of the thread. -/
theorem askedCall_inherited :
    ((agentGraph "list orders").final askedCall).pos = .ended ∧
      ¬ InheritsNothing none (some ((agentGraph "list orders").final askedCall)) := by
  refine ⟨by decide, fun h => ?_⟩
  have hobservations := ((inherits_nothing_iff _ _).1 h).observations
  exact absurd (congrArg List.length hobservations) (by decide)

end AgentPlatform
