/-
What a run of the graph does.

`approvals_bound`: an approval a tool call carries was created for that tool
and those arguments since the last plan step, and an approval an interrupt
names was created for what it shows, in every run in which no clarification is
planned while an approval is still in the state. The planned call clears the
approval of an earlier step; the planned question does not.
-/
import AgentPlatform.Graph

namespace AgentPlatform

namespace GraphEvent

/-- The events since the last plan step. -/
def sincePlan (l : List GraphEvent) : List GraphEvent :=
  (l.reverse.takeWhile fun
    | .planned _ => false
    | _ => true).reverse

/-- An approval with this identifier was created for the tool and the arguments. -/
def Created (l : List GraphEvent) (tool : String) (args : Args) (id : String) : Prop :=
  .approvalCreated tool args (.ok id) ∈ l

/-- The event is justified by what came before it. -/
def Justified (before : List GraphEvent) : GraphEvent → Prop
  | .toolCalled tool args (some id) _ => Created (sincePlan before) tool args id
  | .interrupted (.approvalRequired approvalId tool args _) =>
    ∃ id, approvalId = some id ∧ Created before tool args id
  | _ => True

theorem sincePlan_append {l : List GraphEvent} {e : GraphEvent} (he : ∀ d, e ≠ .planned d) :
    sincePlan (l ++ [e]) = sincePlan l ++ [e] := by
  cases e with
  | planned d => exact absurd rfl (he d)
  | _ => simp [sincePlan]

theorem mem_of_sincePlan {l : List GraphEvent} {e : GraphEvent} (h : e ∈ sincePlan l) : e ∈ l := by
  rw [sincePlan, List.mem_reverse] at h
  exact List.mem_reverse.1 (List.takeWhile_subset _ h)

end GraphEvent

/-! ## What a step can do -/

open GraphEvent

/-- The steps of a thread: what they do outside the state, and where they lead. -/
inductive Thread.Moves : Thread → List GraphEvent → Thread → Prop
  | stays (th : Thread) : Moves th [] th
  | plan (st : AgentState) (d : ModelDecision) :
    Moves ⟨st, .node .plan⟩ [.planned d] ⟨st.plan d, (st.plan d).afterPlan⟩
  | repeats {st : AgentState} {previous : Observation} (h : st.repeats = some previous) :
    Moves ⟨st, .node .callTool⟩ [] ⟨st.repeated previous, (st.repeated previous).afterCall⟩
  | call {st : AgentState} (outcome : Except Exn ToolCallResult) (h : st.repeats = none) :
    Moves ⟨st, .node .callTool⟩ [.toolCalled st.tool st.args st.approvalId outcome]
      ⟨st.called outcome, (st.called outcome).afterCall⟩
  | create (st : AgentState) (answer : Except Exn String) :
    Moves ⟨st, .node .createApproval⟩ [.approvalCreated st.tool st.args answer]
      ⟨st.created answer, (st.created answer).afterCreate⟩
  | await (st : AgentState) :
    Moves ⟨st, .node .awaitDecision⟩
      [.interrupted (.approvalRequired st.approvalId st.tool st.args st.reason)] ⟨st, .paused .awaitDecision⟩
  | ask (st : AgentState) :
    Moves ⟨st, .node .askClarification⟩
      [.interrupted (.clarificationRequired st.tool st.args st.missing)] ⟨st, .paused .askClarification⟩
  | decide {st st' : AgentState} {answer : Json} (h : st.awaited answer = .ok st') :
    Moves ⟨st, .paused .awaitDecision⟩ [] ⟨st', st'.afterDecision⟩
  | answer (st : AgentState) (supplied : List (String × Json)) :
    Moves ⟨st, .paused .askClarification⟩ [] ⟨st.clarified supplied, (st.clarified supplied).afterClarification⟩

namespace Thread

variable {σ : Type}

theorem advance_moves (deps : AgentDeps σ) (th : Thread) (s : σ) :
    th.Moves (th.advance deps s).1 (th.advance deps s).2.1 := by
  obtain ⟨st, pos⟩ := th
  match pos with
  | .node .plan =>
    simp only [advance]
    rcases deps.decide st.task st.observations s with ⟨_ | d, s'⟩
    · exact .stays _
    · exact .plan st d
  | .node .callTool =>
    simp only [advance]
    cases h : st.repeats with
    | some previous => exact .repeats h
    | none => exact .call _ h
  | .node .createApproval => exact .create st _
  | .node .awaitDecision => exact .await st
  | .node .askClarification => exact .ask st
  | .paused _ => exact .stays _
  | .ended => exact .stays _

theorem resume_moves (answer : Json) (th : Thread) : th.Moves [] (th.resume answer) := by
  obtain ⟨st, pos⟩ := th
  match pos with
  | .paused .awaitDecision =>
    simp only [resume]
    cases h : st.awaited answer with
    | error e => exact .stays _
    | ok st' => exact .decide h
  | .paused .askClarification =>
    simp only [resume]
    cases AgentState.values answer with
    | error e => exact .stays _
    | ok supplied => exact .answer st supplied
  | .node _ | .ended | .paused .plan | .paused .callTool | .paused .createApproval => exact .stays _

end Thread

theorem agentGraph_moves (task : String) (i : GraphInput) (th : Thread) :
    th.Moves ((agentGraph task).step i th).1 ((agentGraph task).step i th).2 := by
  cases i with
  | advance deps => exact th.advance_moves deps ()
  | resume answer => exact th.resume_moves answer

/-- A step does at most one thing. -/
theorem Thread.Moves.single {th th' : Thread} {es : List GraphEvent} (h : th.Moves es th') :
    es = [] ∨ ∃ e, es = [e] := by
  cases h <;> simp

theorem graphEvents_concat {σ ι : Type} (h : List (Transition σ ι (List GraphEvent)))
    (t : Transition σ ι (List GraphEvent)) : graphEvents (h ++ [t]) = graphEvents h ++ t.output := by
  simp [graphEvents]

/-! ## Approvals and the steps they were created for -/

def AllJustified (l : List GraphEvent) : Prop :=
  ∀ before e after, l = before ++ e :: after → Justified before e

theorem allJustified_append {l : List GraphEvent} {e : GraphEvent} (hl : AllJustified l) (he : Justified l e) :
    AllJustified (l ++ [e]) := Throughout.concat hl he

/-- What the approval in the state stands for, wherever the thread is. -/
def Bound (l : List GraphEvent) (st : AgentState) : Position → Prop
  | .node .callTool | .node .createApproval =>
    ∀ id, st.approvalId = some id → Created (sincePlan l) st.tool st.args id
  | .node .awaitDecision | .paused .awaitDecision =>
    ∃ id, st.approvalId = some id ∧ Created (sincePlan l) st.tool st.args id
  | .node .askClarification | .paused .askClarification => st.approvalId = none
  | _ => True

variable {l : List GraphEvent} {st : AgentState}

theorem bound_afterCall (h : ∀ id, st.approvalId = some id → Created (sincePlan l) st.tool st.args id) :
    Bound l st st.afterCall := by
  unfold AgentState.afterCall
  split
  · by_cases hg : given st.approvalId = true
    · obtain ⟨id, hid, -⟩ := given_iff.1 hg
      rw [if_pos hg]
      exact ⟨id, hid, h id hid⟩
    · rw [if_neg hg]
      exact h
  · split <;> exact trivial

theorem bound_afterPlan (h : st.approvalId = none) : Bound l st st.afterPlan := by
  unfold AgentState.afterPlan
  split
  · exact trivial
  · split
    · exact h
    · intro id hid
      rw [h] at hid
      cases hid

theorem bound_afterClarification (h : st.approvalId = none) : Bound l st st.afterClarification := by
  unfold AgentState.afterClarification
  split
  · exact trivial
  · split
    · intro id hid
      rw [h] at hid
      cases hid
    · exact h

namespace AgentState

theorem plan_approvalId (d : ModelDecision) (h : d.clarify = true → st.approvalId = none) :
    (st.plan d).approvalId = none ∨ (st.plan d).afterPlan = .ended := by
  unfold plan
  split
  · rename_i hc
    exact .inl (h hc)
  · split
    · right
      cases d.refused <;> simp [afterPlan]
    · exact .inl rfl

theorem called_request (outcome : Except Exn ToolCallResult) : (st.called outcome).approvalId = st.approvalId ∧
    (st.called outcome).tool = st.tool ∧ (st.called outcome).args = st.args := by
  unfold called
  split
  · exact ⟨rfl, rfl, rfl⟩
  · dsimp only
    split <;> exact ⟨rfl, rfl, rfl⟩

theorem clarified_approvalId (supplied : List (String × Json)) :
    (st.clarified supplied).approvalId = st.approvalId := by
  unfold clarified
  dsimp only
  split
  · rfl
  · split <;> rfl

theorem awaited_ok {st' : AgentState} {answer : Json} (h : st.awaited answer = .ok st') :
    ∃ status, st' = { st with status := some status } := by
  unfold awaited at h
  cases hf : getField (orEmpty answer) "approved" with
  | error e =>
    rw [hf] at h
    cases h
  | ok v =>
    rw [hf] at h
    exact ⟨_, (Except.ok.inj h).symm⟩

end AgentState

theorem created_concat {e : GraphEvent} {tool : String} {args : Args} {id : String} (he : ∀ d, e ≠ .planned d)
    (h : Created (sincePlan l) tool args id) : Created (sincePlan (l ++ [e])) tool args id := by
  rw [Created, sincePlan_append he]
  exact List.mem_append_left _ h

/-- One step keeps approvals bound to their step, unless it plans a question
while an approval is in the state. -/
theorem bound_moves {th th' : Thread} {es : List GraphEvent} (h : th.Moves es th')
    (hclear : ∀ d, .planned d ∈ es → d.clarify = true → th.state.approvalId = none)
    (hl : AllJustified l) (hb : Bound l th.state th.pos) :
    AllJustified (l ++ es) ∧ Bound (l ++ es) th'.state th'.pos := by
  cases h with
  | stays => exact ⟨by rwa [List.append_nil], by rwa [List.append_nil]⟩
  | plan st d =>
    refine ⟨allJustified_append hl trivial, ?_⟩
    rcases AgentState.plan_approvalId d (hclear d (List.mem_singleton_self _)) with hnone | hend
    · exact bound_afterPlan hnone
    · rw [hend]
      exact trivial
  | repeats hrep =>
    rw [List.append_nil]
    exact ⟨hl, bound_afterCall hb⟩
  | @call st outcome hrep =>
    refine ⟨allJustified_append hl ?_, bound_afterCall fun id hid => ?_⟩
    · cases hid : st.approvalId with
      | none => exact trivial
      | some id => exact hb id hid
    · obtain ⟨happroval, htool, hargs⟩ := @AgentState.called_request st outcome
      rw [happroval] at hid
      rw [htool, hargs]
      exact created_concat (by simp) (hb id hid)
  | create st answer =>
    refine ⟨allJustified_append hl trivial, ?_⟩
    cases answer with
    | error e =>
      rw [show (st.created (.error e)).afterCreate = .ended from rfl]
      exact trivial
    | ok id =>
      have hmem : Created (sincePlan (l ++ [.approvalCreated st.tool st.args (.ok id)])) st.tool st.args id := by
        rw [Created, sincePlan_append (by simp)]
        exact List.mem_append_right _ (List.mem_singleton_self _)
      unfold AgentState.afterCreate
      split
      · exact trivial
      · exact ⟨id, rfl, hmem⟩
  | await st =>
    obtain ⟨id, hid, hcreated⟩ := hb
    exact ⟨allJustified_append hl ⟨id, hid, mem_of_sincePlan hcreated⟩, id, hid, created_concat (by simp) hcreated⟩
  | ask st => exact ⟨allJustified_append hl trivial, hb⟩
  | @decide st st' answer hawaited =>
    rw [List.append_nil]
    obtain ⟨id, hid, hcreated⟩ := hb
    obtain ⟨status, rfl⟩ := AgentState.awaited_ok hawaited
    refine ⟨hl, ?_⟩
    unfold AgentState.afterDecision
    split
    · intro id' hid'
      cases hid.symm.trans hid'
      exact hcreated
    · exact trivial
  | answer st supplied =>
    rw [List.append_nil]
    exact ⟨hl, bound_afterClarification ((AgentState.clarified_approvalId supplied).trans hb)⟩

/-- **An approval is bound to the step it was created for**, in every run on a
fresh thread in which no question is planned while the state holds an
approval. -/
theorem approvals_bound (task : String) (inputs : List GraphInput)
    (hclear : ∀ t ∈ (agentGraph task).run inputs, ∀ d, .planned d ∈ t.output → d.clarify = true →
      t.pre.state.approvalId = none) :
    ∀ before e after, graphEvents ((agentGraph task).run inputs) = before ++ e :: after → Justified before e := by
  refine (Machine.history_rule (m := agentGraph task)
    (G := fun t => ∀ d, .planned d ∈ t.output → d.clarify = true → t.pre.state.approvalId = none)
    (P := fun h th => AllJustified (graphEvents h) ∧ Bound (graphEvents h) th.state th.pos)
    ⟨fun before e after h => by simp [graphEvents] at h, trivial⟩ ?_ inputs hclear).1
  intro h th i hp hg
  rw [graphEvents_concat]
  exact bound_moves (agentGraph_moves task i th) hg hp.1 hp.2

/-! ## A question in a later step -/

/-- Dependencies that decide, answer a call, and name an approval. -/
def scriptedDeps (d : ModelDecision) (outcome : ToolCallResult) (id : String) : AgentDeps Unit where
  decide _ _ s := (.ok d, s)
  callTool _ _ _ s := (.ok outcome, s)
  createApproval _ _ _ s := (.ok id, s)

/-- A refund is held, approved and issued, and the model asks for more. -/
def approvedThenMore : List GraphInput :=
  let refund : ModelDecision := ⟨some "refunds.issue", Dict.ofList [("order_id", .str "o-1001")], none, false, [],
    true, false, ""⟩
  [.advance (scriptedDeps refund ⟨.approvalRequired, none, .null⟩ "ap-1"),
    .advance (scriptedDeps refund ⟨.approvalRequired, none, .null⟩ "ap-1"),
    .advance (scriptedDeps refund ⟨.approvalRequired, none, .null⟩ "ap-1"),
    .advance (scriptedDeps refund ⟨.approvalRequired, none, .null⟩ "ap-1"),
    .resume (.obj [("approved", .bool true)]),
    .advance (scriptedDeps refund ⟨.ok, none, .null⟩ "ap-1")]

/-- Then it names another tool, and asks for its argument. -/
def approvedThenAsked : List GraphInput :=
  let pii : ModelDecision := ⟨some "privacy.pii.read", ∅, none, true, ["customer_id"], false, false, ""⟩
  approvedThenMore ++
    [.advance (scriptedDeps pii ⟨.ok, none, .null⟩ "ap-2"), .advance (scriptedDeps pii ⟨.ok, none, .null⟩ "ap-2"),
      .resume (.obj [("values", .obj [("customer_id", .str "c-100")])]),
      .advance (scriptedDeps pii ⟨.ok, none, .null⟩ "ap-2")]

/-- The step that issues the refund carries the approval created for it. -/
theorem approvedThenMore_bound :
    ∃ args, Created (sincePlan ((graphEvents ((agentGraph "refund o-1001").run approvedThenMore)).take 4))
      "refunds.issue" args "ap-1" := by
  have hplain : ((agentGraph "refund o-1001").run approvedThenMore).all (fun t => t.output.all fun
      | .planned d => !d.clarify
      | _ => true) = true := by decide
  refine ⟨_, approvals_bound "refund o-1001" approvedThenMore (fun t ht d hd hclarify => ?_)
    ((graphEvents ((agentGraph "refund o-1001").run approvedThenMore)).take 4)
    (.toolCalled "refunds.issue" _ (some "ap-1") _) [] rfl⟩
  have hd' := List.all_eq_true.1 (List.all_eq_true.1 hplain t ht) _ hd
  simp [hclarify] at hd'

/-- The read of direct identifiers carries the refund's approval. -/
theorem approvedThenAsked_not_bound :
    ¬ ∀ before e after, graphEvents ((agentGraph "refund o-1001").run approvedThenAsked) = before ++ e :: after →
      Justified before e := by
  intro h
  have hcreated := h ((graphEvents ((agentGraph "refund o-1001").run approvedThenAsked)).take 7)
    (.toolCalled "privacy.pii.read" _ (some "ap-1") _) [] rfl
  have hnone : (sincePlan ((graphEvents ((agentGraph "refund o-1001").run approvedThenAsked)).take 7)).all (fun
      | .approvalCreated _ _ _ => false
      | _ => true) = true := by decide
  exact absurd (List.all_eq_true.1 hnone _ hcreated) (by simp)

end AgentPlatform
