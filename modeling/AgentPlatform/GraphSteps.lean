/-
What one step of a run leaves for the next.

`refund_issued_once`: a refund is issued at most once in a run in which no
refund is proposed again after another call that happened: the guard of
`call_tool` looks at the last observation only.

`further_step_opt_in`: nothing follows a call that happened unless its decision
asked for more, in a run in which no question that does not ask for more is
planned while an earlier decision's request for more is in the state: `plan`
writes `more` for a call and not for a question.
-/
import AgentPlatform.GraphBudget

namespace AgentPlatform

open GraphEvent

variable {l : List GraphEvent} {th th' : Thread} {es : List GraphEvent}

/-! ## Refunds -/

/-- Every call that happened is among the observations. -/
def Remembered (l : List GraphEvent) (st : AgentState) : Prop :=
  ∀ tool args id o, .toolCalled tool args id (.ok o) ∈ l → o.status = .ok →
    ∃ obs ∈ st.observations, obs.tool = tool ∧ obs.args = args

theorem Remembered.of_silent {st st' : AgentState} (h : Remembered l st) (hes : ∀ e ∈ es, isOkCall e = false)
    (hobs : st'.observations = st.observations) : Remembered (l ++ es) st' := by
  intro tool args id o hcall hok
  rw [hobs]
  rcases List.mem_append.1 hcall with hcall | hcall
  · exact h tool args id o hcall hok
  · have hno := hes _ hcall
    simp [isOkCall, hok] at hno

theorem remembered_moves (h : th.Moves es th') (hr : Remembered l th.state) : Remembered (l ++ es) th'.state := by
  cases h with
  | stays => exact hr.of_silent (by simp) rfl
  | plan st d => exact hr.of_silent (by simp [isOkCall]) (st.plan_counters d).2.1
  | repeats hrep => exact hr.of_silent (by simp) rfl
  | @call st outcome hrep =>
    by_cases hok : isOkCall (.toolCalled st.tool st.args st.approvalId outcome) = true
    · cases outcome with
      | error e => simp [isOkCall] at hok
      | ok o =>
        have hobs := (@AgentState.called_ok st o (by simpa [isOkCall] using hok)).2.1
        intro tool args id o' hcall hok'
        dsimp only
        rw [hobs]
        rcases List.mem_append.1 hcall with hcall | hcall
        · obtain ⟨obs, hmem, htool⟩ := hr tool args id o' hcall hok'
          exact ⟨obs, List.mem_append_left _ hmem, htool⟩
        · cases List.mem_singleton.1 hcall
          exact ⟨_, List.mem_append_right _ (List.mem_singleton_self _), rfl, rfl⟩
    · have hno : isOkCall (.toolCalled st.tool st.args st.approvalId outcome) = false := by simpa using hok
      exact hr.of_silent (by simpa using hno) (AgentState.called_other hno).2.1
  | create st answer => exact hr.of_silent (by simp [isOkCall]) (st.created_counters answer).2.2.1
  | await st => exact hr.of_silent (by simp [isOkCall]) rfl
  | ask st => exact hr.of_silent (by simp [isOkCall]) rfl
  | decide hawaited =>
    obtain ⟨status, rfl⟩ := AgentState.awaited_ok hawaited
    exact hr.of_silent (by simp) rfl
  | answer st supplied => exact hr.of_silent (by simp) (st.clarified_counters supplied).2.2.2.2.1

/-- The call of a refund that was issued before is a repeat of the last call. -/
def RepeatsLast (st : AgentState) : Prop :=
  (∃ obs ∈ st.observations, obs.tool = st.tool ∧ obs.args.pyEq st.args = true) → st.repeats ≠ none

/-- A refund that is issued was not issued before. -/
def RefundedOnce (before : List GraphEvent) (e : GraphEvent) : Prop :=
  ∀ args id o, e = .toolCalled "refunds.issue" args id (.ok o) → o.status = .ok →
    ∀ args' id' o', .toolCalled "refunds.issue" args' id' (.ok o') ∈ before → o'.status = .ok →
      args'.pyEq args = false

theorem refundedOnce_of_moves (h : th.Moves es th') (hr : Remembered l th.state)
    (hlast : th.pos = .node .callTool → th.state.tool = "refunds.issue" → RepeatsLast th.state) :
    ∀ e ∈ es, RefundedOnce l e := by
  intro e he args id o heq hok args' id' o' hcall' hok'
  subst heq
  cases h with
  | @call st outcome hrep =>
    injection List.mem_singleton.1 he with htool hargs _ _
    obtain ⟨obs, hmem, htool', hargs'⟩ := hr _ _ _ _ hcall' hok'
    by_contra heq
    refine hlast rfl htool.symm ⟨obs, hmem, htool'.trans htool, ?_⟩ hrep
    rw [hargs', ← hargs]
    simpa using heq
  | _ => simp at he

/-- **A refund is issued at most once in a run**, on a fresh thread, where a
refund that was issued before is called for only as a repeat of the last call. -/
theorem refund_issued_once (task : String) (inputs : List GraphInput)
    (h : ∀ t ∈ (agentGraph task).run inputs, t.pre.pos = .node .callTool → t.pre.state.tool = "refunds.issue" →
      RepeatsLast t.pre.state) :
    Throughout RefundedOnce (graphEvents ((agentGraph task).run inputs)) := by
  refine (Machine.history_rule (m := agentGraph task)
    (G := fun t => t.pre.pos = .node .callTool → t.pre.state.tool = "refunds.issue" → RepeatsLast t.pre.state)
    (P := fun run th => Remembered (graphEvents run) th.state ∧ Throughout RefundedOnce (graphEvents run))
    ⟨by simp [Remembered, graphEvents], .nil⟩ ?_ inputs h).2
  intro run th i hp hlast
  have hmoves := agentGraph_moves task i th
  rw [graphEvents_concat]
  exact ⟨remembered_moves hmoves hp.1, throughout_moves hmoves hp.2 (refundedOnce_of_moves hmoves hp.1 hlast)⟩

/-- A plan step and the call it leads to, which happens. -/
def twoNodes (d : ModelDecision) : List GraphInput :=
  [.advance (scriptedDeps d ⟨.ok, none, .null⟩ "ap-1"), .advance (scriptedDeps d ⟨.ok, none, .null⟩ "ap-1")]

/-- A refund, and more after it. -/
def refundMore : ModelDecision :=
  ⟨some "refunds.issue", Dict.ofList [("order_id", .str "o-1001")], none, false, [], true, false, ""⟩

def ordersListed : ModelDecision :=
  ⟨some "crm.orders.list", Dict.ofList [("customer_id", .str "c-100")], none, false, [], true, false, ""⟩

/-- Proposed twice in a row, a refund is issued once. -/
theorem refundTwice_issued_once :
    Throughout RefundedOnce
      (graphEvents ((agentGraph "refund o-1001").run (twoNodes refundMore ++ twoNodes refundMore))) := by
  have hlast : ((agentGraph "refund o-1001").run (twoNodes refundMore ++ twoNodes refundMore)).all (fun t =>
      decide (t.pre.pos ≠ .node .callTool) || t.pre.state.observations.isEmpty ||
        t.pre.state.repeats.isSome) = true := by
    decide
  refine refund_issued_once "refund o-1001" _ fun t ht hpos _ hobs => ?_
  obtain ⟨obs, hmem, -⟩ := hobs
  have ht' := List.all_eq_true.1 hlast t ht
  have hne : t.pre.state.observations ≠ [] := List.ne_nil_of_mem hmem
  simp only [hpos, ne_eq, not_true_eq_false, decide_false, Bool.false_or, Bool.or_eq_true, List.isEmpty_iff, hne,
    false_or] at ht'
  exact Option.isSome_iff_ne_none.1 ht'

/-- Proposed again after another call, it is issued twice. -/
theorem refundOrdersRefund_not_issued_once :
    ¬ Throughout RefundedOnce (graphEvents ((agentGraph "refund o-1001").run
      (twoNodes refundMore ++ twoNodes ordersListed ++ twoNodes refundMore))) := by
  intro h
  have honce := h ((graphEvents ((agentGraph "refund o-1001").run
      (twoNodes refundMore ++ twoNodes ordersListed ++ twoNodes refundMore))).take 5)
    (.toolCalled "refunds.issue" _ none (.ok ⟨.ok, none, .null⟩)) [] rfl _ _ _ rfl rfl
    refundMore.args none ⟨.ok, none, .null⟩ (List.mem_of_getElem? (i := 1) rfl) rfl
  exact absurd honce (by decide)

/-! ## Another step -/

/-- The state asks for more only where the last decision did. -/
def MoreAsked (l : List GraphEvent) (th : Thread) : Prop :=
  match th.pos with
  | .node .plan | .ended => True
  | _ => ∃ d, lastPlan l = some d ∧ (th.state.more = true → d.more = true)

theorem MoreAsked.of_silent {st st' : AgentState} {pos pos' : Position} (h : MoreAsked l ⟨st, pos⟩)
    (hne : pos ≠ .node .plan) (hend : pos ≠ .ended) (hes : ∀ e ∈ es, isPlanned e = false)
    (hmore : st'.more = st.more) : MoreAsked (l ++ es) ⟨st', pos'⟩ := by
  have hlast : lastPlan (l ++ es) = lastPlan l := by
    induction es using List.reverseRecOn with
    | nil => rw [List.append_nil]
    | append_singleton es e ih =>
      rw [← List.append_assoc, lastPlan_append ?_, ih fun e' he' => hes e' (by simp [he'])]
      intro d hd
      subst hd
      exact absurd (hes (.planned d) (by simp)) (by simp [isPlanned])
  have hd : ∃ d, lastPlan l = some d ∧ (st.more = true → d.more = true) := by
    unfold MoreAsked at h
    split at h
    · exact absurd ‹_› hne
    · exact absurd ‹_› hend
    · exact h
  unfold MoreAsked
  dsimp only
  rw [hlast, hmore]
  split
  · trivial
  · trivial
  · exact hd

theorem plan_more {st : AgentState} {d : ModelDecision} (h : d.clarify = true → st.more = true → d.more = true) :
    (st.plan d).afterPlan = .ended ∨ ((st.plan d).more = true → d.more = true) := by
  unfold AgentState.plan
  split
  · rename_i hc
    exact .inr (h hc)
  · split
    · left
      cases d.refused <;> simp [AgentState.afterPlan]
    · exact .inr id

theorem moreAsked_moves (h : th.Moves es th')
    (hclarify : ∀ d, .planned d ∈ es → d.clarify = true → th.state.more = true → d.more = true)
    (hm : MoreAsked l th) : MoreAsked (l ++ es) th' := by
  cases h with
  | stays => rwa [List.append_nil]
  | plan st d =>
    rcases plan_more (hclarify d (List.mem_singleton_self _)) with hend | hmore
    · unfold MoreAsked
      simp [hend]
    · unfold MoreAsked
      split
      · trivial
      · trivial
      · exact ⟨d, lastPlan_planned l d, hmore⟩
  | repeats hrep =>
    unfold MoreAsked
    simp [AgentState.repeated_ends]
  | @call st outcome hrep =>
    exact hm.of_silent (by simp) (by simp) (by simp [isPlanned]) st.called_more
  | create st answer =>
    exact hm.of_silent (by simp) (by simp) (by simp [isPlanned]) (st.created_counters answer).2.2.2
  | await st => exact hm.of_silent (by simp) (by simp) (by simp [isPlanned]) rfl
  | ask st => exact hm.of_silent (by simp) (by simp) (by simp [isPlanned]) rfl
  | decide hawaited =>
    obtain ⟨status, rfl⟩ := AgentState.awaited_ok hawaited
    exact hm.of_silent (by simp) (by simp) (by simp) rfl
  | answer st supplied =>
    exact hm.of_silent (by simp) (by simp) (by simp) (st.clarified_counters supplied).2.2.2.2.2

/-- Nothing happens after a call that happened, and the run is over, unless the
decision that led to the call asked for more. -/
def OptsIn (ended : Prop) (l : List GraphEvent) : Prop :=
  ∀ before e after, l = before ++ e :: after → isOkCall e = true →
    ∃ d, lastPlan before = some d ∧ (d.more = true ∨ after = [] ∧ ended)

theorem Thread.Moves.ended (h : th.Moves es th') (hend : th.pos = .ended) : es = [] ∧ th' = th := by
  cases h with
  | stays => exact ⟨rfl, rfl⟩
  | _ => cases hend

theorem optsIn_call {e : GraphEvent} (h : th.Moves [e] th') (hok : isOkCall e = true) (hm : MoreAsked l th) :
    ∃ d, lastPlan l = some d ∧ (d.more = true ∨ th'.pos = .ended) := by
  cases h with
  | @call st outcome hrep =>
    cases outcome with
    | error exc => simp [isOkCall] at hok
    | ok o =>
      obtain ⟨d, hlast, hmore⟩ := hm
      refine ⟨d, hlast, ?_⟩
      dsimp only
      rw [(@AgentState.called_ok st o (by simpa [isOkCall] using hok)).2.2]
      by_cases hst : st.more = true ∧ st.steps + 1 < maxSteps
      · exact .inl (hmore hst.1)
      · exact .inr (if_neg hst)
  | _ => simp [isOkCall] at hok

theorem optsIn_moves (h : th.Moves es th') (hm : MoreAsked l th) (ho : OptsIn (th.pos = .ended) l) :
    OptsIn (th'.pos = .ended) (l ++ es) := by
  by_cases hend : th.pos = .ended
  · obtain ⟨rfl, rfl⟩ := h.ended hend
    rwa [List.append_nil]
  · -- the run is not over, so every earlier decision asked for more
    have hold : ∀ before e after, l = before ++ e :: after → isOkCall e = true →
        ∃ d, lastPlan before = some d ∧ d.more = true := by
      intro before e after heq hok
      obtain ⟨d, hlast, hmore | ⟨-, hended⟩⟩ := ho before e after heq hok
      · exact ⟨d, hlast, hmore⟩
      · exact absurd hended hend
    rcases h.single with rfl | ⟨e, rfl⟩
    · rw [List.append_nil]
      intro before e after heq hok
      obtain ⟨d, hlast, hmore⟩ := hold before e after heq hok
      exact ⟨d, hlast, .inl hmore⟩
    · intro before e' after heq hok
      rcases List.eq_nil_or_concat after with rfl | ⟨after', x, rfl⟩
      · obtain ⟨rfl, hlast⟩ := List.append_inj' heq rfl
        cases hlast
        obtain ⟨d, hd, hmore | hended⟩ := optsIn_call h hok hm
        · exact ⟨d, hd, .inl hmore⟩
        · exact ⟨d, hd, .inr ⟨rfl, hended⟩⟩
      · have hsplit : l ++ [e] = (before ++ e' :: after') ++ [x] := by simpa using heq
        obtain ⟨d, hlast, hmore⟩ := hold before e' after' (List.append_inj' hsplit rfl).1 hok
        exact ⟨d, hlast, .inl hmore⟩

/-- **Another step is opt-in.** On a fresh thread, where a question planned
while the state asks for more asks for more itself, a call that happened is the
last event of the run, and the run is over, or its decision asked for more. -/
theorem further_step_opt_in (task : String) (inputs : List GraphInput)
    (h : ∀ t ∈ (agentGraph task).run inputs, ∀ d, .planned d ∈ t.output → d.clarify = true →
      t.pre.state.more = true → d.more = true) :
    OptsIn (((agentGraph task).final inputs).pos = .ended) (graphEvents ((agentGraph task).run inputs)) := by
  refine (Machine.history_rule (m := agentGraph task)
    (G := fun t => ∀ d, .planned d ∈ t.output → d.clarify = true → t.pre.state.more = true → d.more = true)
    (P := fun run th => MoreAsked (graphEvents run) th ∧ OptsIn (th.pos = .ended) (graphEvents run))
    ⟨trivial, by simp [OptsIn, graphEvents]⟩ ?_ inputs h).2
  intro run th i hp hg
  have hmoves := agentGraph_moves task i th
  rw [graphEvents_concat]
  exact ⟨moreAsked_moves hmoves hg hp.1, optsIn_moves hmoves hp.1 hp.2⟩

/-- The orders of a customer it asks for, and nothing more. -/
def ordersAsked : ModelDecision :=
  ⟨some "crm.orders.list", ∅, none, true, ["customer_id"], false, false, ""⟩

/-- The question, its answer, and the call, which happens. -/
def askedCall : List GraphInput :=
  [.advance (scriptedDeps ordersAsked ⟨.ok, none, .null⟩ "ap-1"),
    .advance (scriptedDeps ordersAsked ⟨.ok, none, .null⟩ "ap-1"),
    .resume (.obj [("values", .obj [("customer_id", .str "c-100")])]),
    .advance (scriptedDeps ordersAsked ⟨.ok, none, .null⟩ "ap-1")]

/-- After the answer to a question that asked for nothing more, the run is over. -/
theorem askedCall_opts_in :
    OptsIn (((agentGraph "list orders").final askedCall).pos = .ended)
      (graphEvents ((agentGraph "list orders").run askedCall)) := by
  have hmore : ((agentGraph "list orders").run askedCall).all (fun t => !t.pre.state.more) = true := by decide
  refine further_step_opt_in "list orders" askedCall fun t ht d _ _ hstate => ?_
  simpa [hstate] using List.all_eq_true.1 hmore t ht

/-- After a refund that asked for more, the same question leads to a third
decision. -/
theorem refundThenAsked_not_opts_in :
    ¬ OptsIn
      (((agentGraph "refund o-1001").final (twoNodes refundMore ++ askedCall ++ twoNodes ordersListed)).pos = .ended)
      (graphEvents ((agentGraph "refund o-1001").run (twoNodes refundMore ++ askedCall ++ twoNodes ordersListed))) := by
  intro h
  obtain ⟨d, hd, hmore⟩ := h ((graphEvents ((agentGraph "refund o-1001").run
      (twoNodes refundMore ++ askedCall ++ twoNodes ordersListed))).take 4)
    (.toolCalled "crm.orders.list" _ none (.ok ⟨.ok, none, .null⟩)) _ rfl rfl
  cases (show lastPlan _ = some ordersAsked from rfl).symm.trans hd
  rcases hmore with hmore | ⟨hafter, -⟩
  · cases hmore
  · exact absurd (congrArg List.length hafter) (by decide)

end AgentPlatform
