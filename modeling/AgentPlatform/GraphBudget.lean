/-
The budgets of a run of the graph.

`within_budgets`: on a fresh thread at most `maxSteps` calls succeed and `plan`
runs at most `maxSteps` times, a step asks for at most one approval and puts at
most `maxAsks` questions, a tool is called after a question only with every
value it asked for, and an invocation is over after eight nodes.

The counters are in the state and the events in the log, so each budget is an
invariant of both, by where the thread stands, kept by every kind of step
(`Thread.Moves`).
-/
import AgentPlatform.GraphFacts
import Mathlib.Algebra.Order.Group.Nat

namespace AgentPlatform

namespace GraphEvent

def isPlanned : GraphEvent → Bool
  | .planned _ => true
  | _ => false

/-- A tool call that happened. -/
def isOkCall : GraphEvent → Bool
  | .toolCalled _ _ _ (.ok outcome) => decide (outcome.status = .ok)
  | _ => false

def isCreation : GraphEvent → Bool
  | .approvalCreated .. => true
  | _ => false

def isQuestion : GraphEvent → Bool
  | .interrupted (.clarificationRequired ..) => true
  | _ => false

/-- The last decision of `plan`. -/
def lastPlan (l : List GraphEvent) : Option ModelDecision :=
  l.reverse.findSome? fun
    | .planned d => some d
    | _ => none

@[simp] theorem lastPlan_planned (l : List GraphEvent) (d : ModelDecision) :
    lastPlan (l ++ [.planned d]) = some d := by
  simp [lastPlan]

theorem lastPlan_append {l : List GraphEvent} {e : GraphEvent} (he : ∀ d, e ≠ .planned d) :
    lastPlan (l ++ [e]) = lastPlan l := by
  cases e with
  | planned d => exact absurd rfl (he d)
  | _ => simp [lastPlan]

@[simp] theorem sincePlan_planned (l : List GraphEvent) (d : ModelDecision) : sincePlan (l ++ [.planned d]) = [] := by
  simp [sincePlan]

end GraphEvent

open GraphEvent

/-! ## Where the routers lead -/

namespace AgentState

variable {st : AgentState}

/-- A decision asks, gives up, or leads on as the state's status says. -/
theorem plan_cases (st : AgentState) (d : ModelDecision) :
    (d.clarify = true ∧ (st.plan d).afterPlan = .node .askClarification) ∨ (st.plan d).afterPlan = .ended ∨
      (d.clarify = false ∧ ((st.plan d).afterPlan = .node .askClarification ∨
        (st.plan d).afterPlan = .node .callTool)) := by
  by_cases hc : d.clarify = true
  · exact .inl ⟨hc, by simp [plan, hc, afterPlan]⟩
  · by_cases hend : (st.plan d).afterPlan = .ended
    · exact .inr (.inl hend)
    · refine .inr (.inr ⟨by simpa using hc, ?_⟩)
      unfold afterPlan at hend ⊢
      split
      · rename_i hstop
        rw [if_pos hstop] at hend
        exact absurd rfl hend
      · split
        · exact .inl rfl
        · exact .inr rfl

theorem plan_counters (st : AgentState) (d : ModelDecision) :
    (st.plan d).steps = st.steps ∧ (st.plan d).observations = st.observations ∧ (st.plan d).asks = st.asks := by
  unfold plan
  split
  · exact ⟨rfl, rfl, rfl⟩
  · split <;> exact ⟨rfl, rfl, rfl⟩

theorem plan_clarify {d : ModelDecision} (h : d.clarify = true) :
    (st.plan d).missing = d.missing ∧ (st.plan d).more = st.more := by
  simp [plan, h]

theorem afterCall_cases (st : AgentState) :
    st.afterCall = .node .awaitDecision ∨ st.afterCall = .node .createApproval ∨ st.afterCall = .node .plan ∨
      st.afterCall = .ended := by
  unfold afterCall
  split
  · cases given st.approvalId <;> simp
  · split <;> simp

theorem repeated_ends (previous : Observation) : (st.repeated previous).afterCall = .ended := by
  simp [repeated, afterCall]

/-- A call that happened is a step: it is counted and observed. -/
theorem called_ok {o : ToolCallResult} (h : o.status = .ok) :
    (st.called (.ok o)).steps = st.steps + 1 ∧
      (st.called (.ok o)).observations =
        st.observations ++ [⟨st.tool, st.args, orEmpty (o.result.getD .null)⟩] ∧
      (st.called (.ok o)).afterCall = if st.more = true ∧ st.steps + 1 < maxSteps then .node .plan else .ended := by
  refine ⟨by simp [called, h], by simp [called, h], ?_⟩
  simp [called, h, afterCall, CallStatus.toStatus]

theorem called_more (st : AgentState) {outcome : Except Exn ToolCallResult} : (st.called outcome).more = st.more := by
  unfold called
  split
  · rfl
  · dsimp only
    split <;> rfl

/-- Any other call waits for an approval or ends the run. -/
theorem called_other {outcome : Except Exn ToolCallResult}
    (h : isOkCall (.toolCalled st.tool st.args st.approvalId outcome) = false) :
    (st.called outcome).steps = st.steps ∧ (st.called outcome).observations = st.observations ∧
      ((given st.approvalId = true ∧ (st.called outcome).afterCall = .node .awaitDecision) ∨
        (given st.approvalId = false ∧ (st.called outcome).afterCall = .node .createApproval) ∨
        (st.called outcome).afterCall = .ended) := by
  cases outcome with
  | error e => exact ⟨rfl, rfl, .inr (.inr (by simp [called, afterCall]))⟩
  | ok o =>
    simp only [isOkCall, decide_eq_false_iff_not] at h
    refine ⟨by simp [called, h], by simp [called, h], ?_⟩
    have happroval := (@called_request st (.ok o)).1
    unfold afterCall
    split
    · rw [happroval]
      cases given st.approvalId <;> simp
    · simp [called, h]

theorem created_ok {id : String} (h : id ≠ "") : given (st.created (.ok id)).approvalId = true := by
  simp [created, given, h]

theorem created_counters (st : AgentState) (answer : Except Exn String) :
    (st.created answer).steps = st.steps ∧ (st.created answer).args = st.args ∧
      (st.created answer).observations = st.observations ∧ (st.created answer).more = st.more := by
  cases answer <;> exact ⟨rfl, rfl, rfl, rfl⟩

theorem afterCreate_cases (st : AgentState) : st.afterCreate = .ended ∨ st.afterCreate = .node .awaitDecision := by
  unfold afterCreate
  split
  · exact .inl rfl
  · exact .inr rfl

theorem afterDecision_cases (st : AgentState) : st.afterDecision = .node .callTool ∨ st.afterDecision = .ended := by
  unfold afterDecision
  split
  · exact .inl rfl
  · exact .inr rfl

/-- An answer completes the arguments, leads to one more question, or ends the
run. -/
theorem clarified_cases (st : AgentState) (supplied : List (String × Json)) :
    ((st.clarified supplied).afterClarification = .node .callTool ∧
        remaining st.missing (answered st.args supplied) = []) ∨
      ((st.clarified supplied).afterClarification = .node .askClarification ∧ st.asks + 1 < maxAsks) ∨
      (st.clarified supplied).afterClarification = .ended := by
  unfold clarified afterClarification
  dsimp only
  split
  · rename_i hnone
    split
    · exact .inr (.inr rfl)
    · exact .inl ⟨rfl, hnone⟩
  · rename_i hleft
    split
    · rename_i hasks
      split
      · exact .inr (.inr rfl)
      · refine .inr (.inl ⟨?_, hasks⟩)
        simp
    · exact .inr (.inr (by simp))

theorem clarified_counters (st : AgentState) (supplied : List (String × Json)) :
    (st.clarified supplied).steps = st.steps ∧ (st.clarified supplied).asks = st.asks + 1 ∧
      (st.clarified supplied).args = answered st.args supplied ∧
      (st.clarified supplied).missing = remaining st.missing (answered st.args supplied) ∧
      (st.clarified supplied).observations = st.observations ∧ (st.clarified supplied).more = st.more := by
  unfold clarified
  dsimp only
  split
  · rename_i hnone
    exact ⟨rfl, rfl, rfl, hnone.symm, rfl, rfl⟩
  · split <;> exact ⟨rfl, rfl, rfl, rfl, rfl, rfl⟩

end AgentState

/-! ## Steps and decisions -/

/-- How many decisions and calls a thread may have behind it where it stands. -/
def PaceAt (plans steps : Nat) : Position → Prop
  | .node .plan => plans ≤ steps ∧ steps < maxSteps
  | .ended => plans ≤ maxSteps ∧ steps ≤ maxSteps
  | _ => plans ≤ steps + 1 ∧ steps < maxSteps

/-- Every call that happened is counted, and a decision is paid for by one. -/
def Paced (l : List GraphEvent) (th : Thread) : Prop :=
  l.countP isOkCall = th.state.steps ∧ PaceAt (l.countP isPlanned) th.state.steps th.pos

/-- Between two decisions the thread may go anywhere but to `plan`. -/
theorem paceAt_of_ne {plans steps : Nat} {pos : Position} (h : plans ≤ steps + 1 ∧ steps < maxSteps)
    (hpos : pos ≠ .node .plan) : PaceAt plans steps pos := by
  unfold PaceAt
  split
  · exact absurd rfl hpos
  · omega
  · exact h

variable {l : List GraphEvent} {th th' : Thread} {es : List GraphEvent}

theorem paced_called {st : AgentState} {outcome : Except Exn ToolCallResult}
    (hcount : l.countP isOkCall = st.steps) (hp : l.countP isPlanned ≤ st.steps + 1 ∧ st.steps < maxSteps) :
    Paced (l ++ [.toolCalled st.tool st.args st.approvalId outcome])
      ⟨st.called outcome, (st.called outcome).afterCall⟩ := by
  have hplans : (l ++ [GraphEvent.toolCalled st.tool st.args st.approvalId outcome]).countP isPlanned =
      l.countP isPlanned := by
    simp [isPlanned]
  unfold Paced
  rw [hplans]
  by_cases hok : isOkCall (.toolCalled st.tool st.args st.approvalId outcome) = true
  · cases outcome with
    | error e => simp [isOkCall] at hok
    | ok o =>
      obtain ⟨hstep, -, hafter⟩ := @AgentState.called_ok st o (by simpa [isOkCall] using hok)
      refine ⟨by simp [hok, hcount, hstep], ?_⟩
      dsimp only
      rw [hstep, hafter]
      by_cases hmore : st.more = true ∧ st.steps + 1 < maxSteps
      · rw [if_pos hmore]
        exact ⟨hp.1, hmore.2⟩
      · rw [if_neg hmore]
        exact ⟨by omega, hp.2⟩
  · have hno : isOkCall (.toolCalled st.tool st.args st.approvalId outcome) = false := by simpa using hok
    obtain ⟨hstep, -, hpos⟩ := AgentState.called_other hno
    refine ⟨by simp [hno, hcount, hstep], ?_⟩
    dsimp only
    rw [hstep]
    refine paceAt_of_ne hp fun hplan => ?_
    rcases hpos with ⟨-, hpos⟩ | ⟨-, hpos⟩ | hpos <;> · rw [hpos] at hplan; cases hplan

theorem paced_moves (h : th.Moves es th') (hp : Paced l th) : Paced (l ++ es) th' := by
  obtain ⟨hcount, hpace⟩ := hp
  cases h with
  | stays => exact ⟨by rwa [List.append_nil], by rwa [List.append_nil]⟩
  | plan st d =>
    refine ⟨by simpa [isOkCall, (st.plan_counters d).1] using hcount, ?_⟩
    simp only [List.countP_append, List.countP_singleton, isPlanned, if_true, (st.plan_counters d).1]
    have hpaid : l.countP isPlanned + 1 ≤ st.steps + 1 ∧ st.steps < maxSteps := ⟨Nat.succ_le_succ hpace.1, hpace.2⟩
    refine paceAt_of_ne hpaid fun hplan => ?_
    rcases st.plan_cases d with ⟨-, hpos⟩ | hpos | ⟨-, hpos | hpos⟩ <;> · rw [hpos] at hplan; cases hplan
  | repeats hrep =>
    rw [List.append_nil]
    refine ⟨hcount, paceAt_of_ne hpace fun hplan => ?_⟩
    rw [AgentState.repeated_ends] at hplan
    cases hplan
  | call outcome hrep => exact paced_called hcount hpace
  | create st answer =>
    have hstep := (st.created_counters answer).1
    refine ⟨by simpa [isOkCall, hstep] using hcount, ?_⟩
    simp only [List.countP_append, List.countP_singleton, isPlanned, Bool.false_eq_true, if_false, Nat.add_zero, hstep]
    refine paceAt_of_ne hpace fun hplan => ?_
    rcases (st.created answer).afterCreate_cases with hpos | hpos <;> · rw [hpos] at hplan; cases hplan
  | await st | ask st =>
    exact ⟨by simpa [isOkCall] using hcount, by simpa [isPlanned] using paceAt_of_ne hpace (by simp)⟩
  | @decide st st' answer hawaited =>
    obtain ⟨status, rfl⟩ := AgentState.awaited_ok hawaited
    rw [List.append_nil]
    refine ⟨hcount, paceAt_of_ne hpace fun hplan => ?_⟩
    rcases AgentState.afterDecision_cases { st with status := some status } with hpos | hpos <;>
      · rw [hpos] at hplan; cases hplan
  | answer st supplied =>
    rw [List.append_nil]
    unfold Paced
    dsimp only
    rw [(st.clarified_counters supplied).1]
    refine ⟨hcount, paceAt_of_ne hpace fun hplan => ?_⟩
    rcases st.clarified_cases supplied with ⟨hpos, -⟩ | ⟨hpos, -⟩ | hpos <;> · rw [hpos] at hplan; cases hplan

theorem Paced.bounds (h : Paced l th) : l.countP isOkCall ≤ maxSteps ∧ l.countP isPlanned ≤ maxSteps := by
  obtain ⟨hcount, hpace⟩ := h
  unfold PaceAt at hpace
  split at hpace <;> omega

/-! ## Approvals asked for in one step -/

/-- Approvals asked for since the last decision. -/
def creations (l : List GraphEvent) : Nat := (sincePlan l).countP isCreation

/-- Once an approval is asked for, the state holds it. -/
def OneHold (l : List GraphEvent) (th : Thread) : Prop :=
  match th.pos with
  | .node .callTool | .node .awaitDecision | .paused .awaitDecision =>
    creations l = 0 ∨ given th.state.approvalId = true
  | .node .createApproval | .node .askClarification | .paused .askClarification => creations l = 0
  | _ => True

theorem creations_append {e : GraphEvent} (hp : ∀ d, e ≠ .planned d) (hc : isCreation e = false) :
    creations (l ++ [e]) = creations l := by
  simp [creations, sincePlan_append hp, hc]

theorem oneHold_moves (h : th.Moves es th')
    (hid : ∀ tool args id, .approvalCreated tool args (.ok id) ∈ es → id ≠ "") (hh : OneHold l th) :
    OneHold (l ++ es) th' := by
  cases h with
  | stays => rwa [List.append_nil]
  | plan st d =>
    have hnone : creations (l ++ [.planned d]) = 0 := by simp [creations]
    unfold OneHold
    rcases st.plan_cases d with ⟨-, hpos⟩ | hpos | ⟨-, hpos | hpos⟩ <;> simp [hpos, hnone]
  | repeats hrep =>
    unfold OneHold
    simp [AgentState.repeated_ends]
  | @call st outcome hrep =>
    have hsame : creations (l ++ [GraphEvent.toolCalled st.tool st.args st.approvalId outcome]) = creations l :=
      creations_append (by simp) rfl
    have happroval := (@AgentState.called_request st outcome).1
    unfold OneHold
    dsimp only
    by_cases hok : isOkCall (.toolCalled st.tool st.args st.approvalId outcome) = true
    · cases outcome with
      | error e => simp [isOkCall] at hok
      | ok o =>
        rw [(@AgentState.called_ok st o (by simpa [isOkCall] using hok)).2.2]
        split <;> rename_i heq <;> split at heq <;> simp_all
    · obtain ⟨-, -, ⟨hgiven, hpos⟩ | ⟨hgiven, hpos⟩ | hpos⟩ :=
        @AgentState.called_other st outcome (by simpa using hok)
      · simp [hpos, happroval, hgiven]
      · -- no approval is in the state, so none was asked for
        rw [hpos, hsame]
        rcases hh with hh | hh
        · exact hh
        · exact absurd (hgiven.symm.trans hh) (by simp)
      · simp [hpos]
  | create st answer =>
    unfold OneHold
    cases answer with
    | error e => simp [AgentState.created, AgentState.afterCreate]
    | ok id =>
      have hgiven := @AgentState.created_ok st id (hid _ _ id (List.mem_singleton_self _))
      rcases (st.created (.ok id)).afterCreate_cases with hpos | hpos <;> simp [hpos, hgiven]
  | await st =>
    unfold OneHold
    rw [creations_append (by simp) rfl]
    exact hh
  | ask st =>
    unfold OneHold
    rw [creations_append (by simp) rfl]
    exact hh
  | @decide st st' answer hawaited =>
    obtain ⟨status, rfl⟩ := AgentState.awaited_ok hawaited
    unfold OneHold
    rw [List.append_nil]
    rcases AgentState.afterDecision_cases { st with status := some status } with hpos | hpos
    · simp only [hpos]
      exact hh
    · simp [hpos]
  | answer st supplied =>
    have hnone : creations l = 0 := hh
    unfold OneHold
    rw [List.append_nil]
    rcases st.clarified_cases supplied with ⟨hpos, -⟩ | ⟨hpos, -⟩ | hpos <;> simp [hpos, hnone]

/-- Where an approval is asked for, none was asked for since the last decision. -/
theorem creations_of_moves (h : th.Moves es th') (hh : OneHold l th) {e : GraphEvent} (he : e ∈ es)
    (hc : isCreation e = true) : creations l = 0 := by
  cases h with
  | create st answer => exact hh
  | _ => simp_all [isCreation]

/-! ## Questions put in one step -/

/-- Questions put since the last decision. -/
def questions (l : List GraphEvent) : Nat := (sincePlan l).countP isQuestion

/-- The questions put, against those counted in the state. -/
def Asking (l : List GraphEvent) (th : Thread) : Prop :=
  match th.pos with
  | .node .askClarification => questions l = 0 ∨ questions l ≤ th.state.asks ∧ th.state.asks < maxAsks
  | .paused .askClarification => questions l ≤ th.state.asks + 1
  | _ => True

theorem asking_moves (h : th.Moves es th') (ha : Asking l th) : Asking (l ++ es) th' := by
  cases h with
  | stays => rwa [List.append_nil]
  | plan st d =>
    have hnone : questions (l ++ [.planned d]) = 0 := by simp [questions]
    unfold Asking
    rcases st.plan_cases d with ⟨-, hpos⟩ | hpos | ⟨-, hpos | hpos⟩ <;> simp [hpos, hnone]
  | repeats hrep =>
    unfold Asking
    simp [AgentState.repeated_ends]
  | @call st outcome hrep =>
    unfold Asking
    rcases (st.called outcome).afterCall_cases with hpos | hpos | hpos | hpos <;> simp [hpos]
  | create st answer =>
    unfold Asking
    rcases (st.created answer).afterCreate_cases with hpos | hpos <;> simp [hpos]
  | await st => exact trivial
  | ask st =>
    have hone : questions (l ++ [.interrupted (.clarificationRequired st.tool st.args st.missing)]) =
        questions l + 1 := by
      simp [questions, sincePlan_append, isQuestion]
    show questions (l ++ _) ≤ st.asks + 1
    rw [hone]
    rcases ha with ha | ha
    · omega
    · exact Nat.succ_le_succ ha.1
  | @decide st st' answer hawaited =>
    obtain ⟨status, rfl⟩ := AgentState.awaited_ok hawaited
    unfold Asking
    rcases AgentState.afterDecision_cases { st with status := some status } with hpos | hpos <;> simp [hpos]
  | answer st supplied =>
    have hasked : questions l ≤ st.asks + 1 := ha
    have hasks := (st.clarified_counters supplied).2.1
    unfold Asking
    rw [List.append_nil]
    rcases st.clarified_cases supplied with ⟨hpos, -⟩ | ⟨hpos, hlt⟩ | hpos
    · simp [hpos]
    · simp only [hpos, hasks]
      exact .inr ⟨hasked, hlt⟩
    · simp [hpos]

/-- Where a question is put, fewer than `maxAsks` were put since the last decision. -/
theorem questions_of_moves (h : th.Moves es th') (ha : Asking l th) {e : GraphEvent} (he : e ∈ es)
    (hq : isQuestion e = true) : questions l < maxAsks := by
  cases h with
  | ask st =>
    rcases ha with ha | ha
    · rw [ha]
      decide
    · exact ha.1.trans_lt ha.2
  | _ => simp_all [isQuestion]

/-! ## Values a question asked for -/

/-- `args.get(name) not in (None, "")` -/
def HasValue (args : Args) (name : String) : Prop := ((args.get? name).getD .null).isBlank = false

/-- Every value the last decision asked for is there, or is still asked for. -/
def Supplied (l : List GraphEvent) (th : Thread) : Prop :=
  match th.pos with
  | .node .plan | .ended => True
  | .node .askClarification | .paused .askClarification =>
    ∀ d, lastPlan l = some d → d.clarify = true →
      ∀ name ∈ d.missing, name ∈ th.state.missing ∨ HasValue th.state.args name
  | _ => ∀ d, lastPlan l = some d → d.clarify = true → ∀ name ∈ d.missing, HasValue th.state.args name

theorem hasValue_answered {args : Args} {supplied : List (String × Json)} {name : String} (h : HasValue args name) :
    HasValue (AgentState.answered args supplied) name := by
  refine Dict.get?_insertAll_of (P := fun v : Option Json => (v.getD Json.null).isBlank = false) h fun e he => ?_
  simpa using (List.mem_filter.1 he).2

theorem mem_remaining {missing : List String} {args : Args} {name : String} (h : name ∈ missing) :
    name ∈ AgentState.remaining missing args ∨ HasValue args name := by
  by_cases hv : HasValue args name
  · exact .inr hv
  · exact .inl (List.mem_filter.2 ⟨h, by simpa [HasValue] using hv⟩)

theorem supplied_moves (h : th.Moves es th') (hs : Supplied l th) : Supplied (l ++ es) th' := by
  cases h with
  | stays => rwa [List.append_nil]
  | plan st d =>
    unfold Supplied
    rcases st.plan_cases d with ⟨hclarify, hpos⟩ | hpos | ⟨hplain, hpos | hpos⟩
    · simp only [hpos, lastPlan_planned]
      intro d' hd' _ name hname
      cases hd'
      rw [(AgentState.plan_clarify hclarify).1]
      exact .inl hname
    · simp [hpos]
    · simp [hpos, hplain]
    · simp [hpos, hplain]
  | repeats hrep =>
    unfold Supplied
    simp [AgentState.repeated_ends]
  | @call st outcome hrep =>
    unfold Supplied
    rw [lastPlan_append (by simp)]
    rcases (st.called outcome).afterCall_cases with hpos | hpos | hpos | hpos
    · simp only [hpos, (@AgentState.called_request st outcome).2.2]
      exact hs
    · simp only [hpos, (@AgentState.called_request st outcome).2.2]
      exact hs
    · simp [hpos]
    · simp [hpos]
  | create st answer =>
    unfold Supplied
    rw [lastPlan_append (by simp)]
    rcases (st.created answer).afterCreate_cases with hpos | hpos
    · simp [hpos]
    · simp only [hpos, (st.created_counters answer).2.1]
      exact hs
  | await st =>
    unfold Supplied
    rw [lastPlan_append (by simp)]
    exact hs
  | ask st =>
    unfold Supplied
    rw [lastPlan_append (by simp)]
    exact hs
  | @decide st st' answer hawaited =>
    obtain ⟨status, rfl⟩ := AgentState.awaited_ok hawaited
    unfold Supplied
    rw [List.append_nil]
    rcases AgentState.afterDecision_cases { st with status := some status } with hpos | hpos
    · simp only [hpos]
      exact hs
    · simp [hpos]
  | answer st supplied =>
    obtain ⟨-, -, hargs, hmissing, -⟩ := st.clarified_counters supplied
    -- what was asked for has its value now, or remains
    have hleft : ∀ d, lastPlan l = some d → d.clarify = true → ∀ name ∈ d.missing,
        name ∈ AgentState.remaining st.missing (AgentState.answered st.args supplied) ∨
          HasValue (AgentState.answered st.args supplied) name := by
      intro d hd hclarify name hname
      rcases hs d hd hclarify name hname with hm | hv
      · exact mem_remaining hm
      · exact .inr (hasValue_answered hv)
    unfold Supplied
    rw [List.append_nil]
    rcases st.clarified_cases supplied with ⟨hpos, hnone⟩ | ⟨hpos, -⟩ | hpos
    · simp only [hpos, hargs]
      intro d hd hclarify name hname
      rcases hleft d hd hclarify name hname with hm | hv
      · rw [hnone] at hm
        cases hm
      · exact hv
    · simp only [hpos, hargs, hmissing]
      exact hleft
    · simp [hpos]

/-- A call made after a question has every value it asked for. -/
theorem supplied_of_moves (h : th.Moves es th') (hs : Supplied l th) {tool : String} {args : Args}
    {id : Option String} {outcome : Except Exn ToolCallResult} (he : .toolCalled tool args id outcome ∈ es) :
    ∀ d, lastPlan l = some d → d.clarify = true → ∀ name ∈ d.missing, HasValue args name := by
  cases h with
  | call outcome' hrep =>
    cases List.mem_singleton.1 he
    exact hs
  | _ => simp at he

/-! ## Nodes of one invocation -/

/-- How many nodes are at most left until an interrupt or the end. -/
def nodesLeft (th : Thread) : Nat :=
  match th.pos with
  | .node .plan => 4 + 2 * (2 - th.state.steps)
  | .node .callTool => 3 + 2 * (2 - th.state.steps)
  | .node .createApproval => 2
  | .node .awaitDecision | .node .askClarification => 1
  | .paused _ | .ended => 0

/-- The dependencies decide, whatever they are asked. -/
def Decides {σ : Type} (deps : AgentDeps σ) : Prop :=
  ∀ task observations s, ∃ d s', deps.decide task observations s = (.ok d, s')

theorem nodesLeft_advance {σ : Type} {deps : AgentDeps σ} (hd : Decides deps) (th : Thread) (s : σ) :
    nodesLeft (th.advance deps s).2.1 ≤ nodesLeft th - 1 := by
  obtain ⟨st, pos⟩ := th
  match pos with
  | .node .plan =>
    obtain ⟨d, s', hdecide⟩ := hd st.task st.observations s
    simp only [Thread.advance, hdecide, nodesLeft]
    rcases st.plan_cases d with ⟨-, hpos⟩ | hpos | ⟨-, hpos | hpos⟩ <;>
      simp only [hpos, (st.plan_counters d).1] <;> omega
  | .node .callTool =>
    cases hrep : st.repeats with
    | some previous => simp [Thread.advance, hrep, nodesLeft, AgentState.repeated_ends]
    | none =>
      simp only [Thread.advance, hrep, nodesLeft]
      generalize (deps.callTool st.tool st.args st.approvalId s).1 = outcome
      by_cases hok : isOkCall (.toolCalled st.tool st.args st.approvalId outcome) = true
      · cases outcome with
        | error e => simp [isOkCall] at hok
        | ok o =>
          obtain ⟨hstep, -, hafter⟩ := @AgentState.called_ok st o (by simpa [isOkCall] using hok)
          simp only [hafter, hstep]
          by_cases hmore : st.more = true ∧ st.steps + 1 < maxSteps
          · have hlt : st.steps + 1 < 3 := hmore.2
            simp only [if_pos hmore]
            omega
          · simp [if_neg hmore]
      · obtain ⟨-, -, ⟨-, hpos⟩ | ⟨-, hpos⟩ | hpos⟩ := @AgentState.called_other st outcome (by simpa using hok) <;>
          simp only [hpos] <;> omega
  | .node .createApproval =>
    simp only [Thread.advance, nodesLeft]
    rcases (st.created (deps.createApproval st.tool st.args st.reason s).1).afterCreate_cases with hpos | hpos <;>
      simp [hpos]
  | .node .awaitDecision => simp [Thread.advance, nodesLeft]
  | .node .askClarification => simp [Thread.advance, nodesLeft]
  | .paused _ => simp [Thread.advance, nodesLeft]
  | .ended => simp [Thread.advance, nodesLeft]

theorem nodesLeft_le (th : Thread) : nodesLeft th ≤ 8 := by
  unfold nodesLeft
  split <;> omega

theorem isNode_of_nodesLeft {th : Thread} (h : nodesLeft th = 0) : th.pos.isNode = false := by
  unfold nodesLeft at h
  split at h <;> simp_all [Position.isNode]

/-- Eight nodes, and the invocation is over. -/
theorem advance_ends (task : String) (th : Thread) (nodes : List (AgentDeps Unit)) (hd : ∀ deps ∈ nodes, Decides deps)
    (hn : 8 ≤ nodes.length) : ((agentGraph task).finalFrom th (nodes.map .advance)).pos.isNode = false := by
  have hleft : ∀ (nodes : List (AgentDeps Unit)) (th : Thread), (∀ deps ∈ nodes, Decides deps) →
      nodesLeft th ≤ nodes.length → nodesLeft ((agentGraph task).finalFrom th (nodes.map .advance)) = 0 := by
    intro nodes
    induction nodes with
    | nil => exact fun th _ h => Nat.le_zero.1 h
    | cons deps nodes ih =>
      intro th hd hle
      have hstep := nodesLeft_advance (hd deps (by simp)) th ()
      rw [List.length_cons] at hle
      exact ih _ (fun deps' h => hd deps' (by simp [h])) (hstep.trans (by omega))
  exact isNode_of_nodesLeft (hleft nodes th hd ((nodesLeft_le th).trans hn))

/-! ## Whole runs -/

/-- The budgets, as the events of a run show them. -/
structure WithinBudgets (l : List GraphEvent) : Prop where
  calls : l.countP isOkCall ≤ maxSteps
  plans : l.countP isPlanned ≤ maxSteps
  creations : Throughout (fun before e => isCreation e = true → creations before = 0) l
  questions : Throughout (fun before e => isQuestion e = true → questions before < maxAsks) l
  supplied : Throughout (fun before e => ∀ tool args id outcome, e = .toolCalled tool args id outcome →
    ∀ d, lastPlan before = some d → d.clarify = true → ∀ name ∈ d.missing, HasValue args name) l

/-- What the interface promises: a decision, and an identifier that is not empty. -/
def Behaves : GraphInput → Prop
  | .advance deps =>
    Decides deps ∧ ∀ tool args reason s id, (deps.createApproval tool args reason s).1 = .ok id → id ≠ ""
  | .resume _ => True

theorem Behaves.created {task : String} {i : GraphInput} (h : Behaves i) {th : Thread} {tool : String} {args : Args}
    {id : String} (he : .approvalCreated tool args (.ok id) ∈ ((agentGraph task).step i th).1) : id ≠ "" := by
  cases i with
  | resume answer => cases he
  | advance deps =>
    obtain ⟨st, pos⟩ := th
    match pos with
    | .node .createApproval =>
      have heq := List.mem_singleton.1 he
      injection heq with _ _ hanswer
      exact h.2 _ _ _ _ _ hanswer.symm
    | .node .plan =>
      simp only [agentGraph, Thread.advance] at he
      split at he <;> simp at he
    | .node .callTool =>
      simp only [agentGraph, Thread.advance] at he
      split at he <;> simp at he
    | .node .awaitDecision | .node .askClarification | .paused _ | .ended => simp [agentGraph, Thread.advance] at he

/-- A property of every event that its step gives. -/
theorem throughout_moves {P : List GraphEvent → GraphEvent → Prop} (h : th.Moves es th') (hl : Throughout P l)
    (hes : ∀ e ∈ es, P l e) : Throughout P (l ++ es) := by
  rcases h.single with rfl | ⟨e, rfl⟩
  · rwa [List.append_nil]
  · exact hl.concat (hes e (by simp))

/-- **A run stays within its budgets**, on a fresh thread and whatever the
model, the tools and the answers do, and every invocation ends. -/
theorem within_budgets (task : String) (inputs : List GraphInput) (h : ∀ i ∈ inputs, Behaves i) :
    WithinBudgets (graphEvents ((agentGraph task).run inputs)) ∧
      ∀ nodes : List (AgentDeps Unit), (∀ deps ∈ nodes, Decides deps) → 8 ≤ nodes.length →
        ((agentGraph task).final (inputs ++ nodes.map .advance)).pos.isNode = false := by
  constructor
  · have hrun := Machine.history_rule (m := agentGraph task) (G := fun t => Behaves t.input)
      (P := fun run th => (Paced (graphEvents run) th ∧ OneHold (graphEvents run) th ∧ Asking (graphEvents run) th ∧
        Supplied (graphEvents run) th) ∧ WithinBudgets (graphEvents run))
      ⟨⟨⟨rfl, Nat.zero_le _, Nat.zero_lt_succ _⟩, trivial, trivial, trivial⟩,
        ⟨Nat.zero_le _, Nat.zero_le _, .nil, .nil, .nil⟩⟩ ?_ inputs fun t ht => h _ (Machine.input_mem ht)
    · exact hrun.2
    · intro run th i hp hb
      obtain ⟨⟨hpaced, hhold, hasking, hsupplied⟩, hwithin⟩ := hp
      have hmoves := agentGraph_moves task i th
      have hpaced' := paced_moves hmoves hpaced
      rw [graphEvents_concat]
      refine ⟨⟨hpaced', oneHold_moves hmoves (fun _ _ _ he => hb.created he) hhold, asking_moves hmoves hasking,
        supplied_moves hmoves hsupplied⟩, ⟨hpaced'.bounds.1, hpaced'.bounds.2, ?_, ?_, ?_⟩⟩
      · exact throughout_moves hmoves hwithin.creations fun e he => creations_of_moves hmoves hhold he
      · exact throughout_moves hmoves hwithin.questions fun e he => questions_of_moves hmoves hasking he
      · refine throughout_moves hmoves hwithin.supplied fun e he tool args id outcome heq => ?_
        subst heq
        exact supplied_of_moves hmoves hsupplied he
  · intro nodes hd hn
    rw [Machine.final, Machine.finalFrom_append]
    exact advance_ends task _ nodes hd hn

theorem scriptedDeps_behaves (d : ModelDecision) (outcome : ToolCallResult) {id : String} (h : id ≠ "") :
    Behaves (.advance (scriptedDeps d outcome id)) := by
  refine ⟨fun _ _ s => ⟨d, s, rfl⟩, fun _ _ _ _ id' hid => ?_⟩
  cases hid
  exact h

/-- A refund that is held, approved and issued. -/
theorem approvedThenMore_within_budgets :
    WithinBudgets (graphEvents ((agentGraph "refund o-1001").run approvedThenMore)) := by
  refine (within_budgets "refund o-1001" approvedThenMore fun i hi => ?_).1
  simp only [approvedThenMore, List.mem_cons, List.not_mem_nil, or_false] at hi
  rcases hi with rfl | rfl | rfl | rfl | rfl | rfl
  · exact scriptedDeps_behaves _ _ (by decide)
  · exact scriptedDeps_behaves _ _ (by decide)
  · exact scriptedDeps_behaves _ _ (by decide)
  · exact scriptedDeps_behaves _ _ (by decide)
  · exact trivial
  · exact scriptedDeps_behaves _ _ (by decide)

end AgentPlatform
