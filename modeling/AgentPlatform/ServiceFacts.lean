/-
A run acts as the user who started it.

`acts_as_creator`: in every interleaving of requests, nodes, failures and
restarts, whatever happens in a thread is done with a token of the user whose
`/run` created it, and seen by that user alone, provided each thread has one
user such that every `/run` on it that is let in, and every `/resume` on it
that the service does not refuse, carries a token of that user. `/resume` does
not look at the token where the process has the run in its dictionary, and
neither endpoint compares it with the thread's user.
-/
import AgentPlatform.Service
import AgentPlatform.LiveFacts

namespace AgentPlatform

namespace Service

variable {cfg : Config}

/-! ## The creator of a thread -/

/-- The user of the first `/run` on the thread. -/
def creatorOf (l : List (Event cfg)) (threadId : ThreadId) : Option String :=
  l.findSome? fun
    | .started threadId' d => if threadId' = threadId then some d.user else none
    | _ => none

def Created (l : List (Event cfg)) (threadId : ThreadId) : Prop := ∃ d, .started threadId d ∈ l

/-- What happens in a thread is done for its creator, and with a token of the
creator's. -/
def Owned (l : List (Event cfg)) : Event cfg → Prop
  | .acted threadId agent _ => creatorOf l threadId = some agent.delegation.user
  | .resumed threadId caller | .disclosed threadId caller _ =>
    ∃ d, caller = .ok d ∧ creatorOf l threadId = some d.user
  | .started .. | .refused .. => True

instance (l : List (Event cfg)) (e : Event cfg) : Decidable (Owned l e) :=
  match e with
  | .acted threadId agent _ => inferInstanceAs (Decidable (creatorOf l threadId = some agent.delegation.user))
  | .resumed _ (.error _) | .disclosed _ (.error _) _ => isFalse fun h => by
    obtain ⟨d, hd, -⟩ := h
    cases hd
  | .resumed threadId (.ok d) | .disclosed threadId (.ok d) _ =>
    decidable_of_iff (creatorOf l threadId = some d.user) (by simp [Owned])
  | .started .. | .refused .. => isTrue trivial

theorem creatorOf_append {l more : List (Event cfg)} {threadId : ThreadId} {user : String}
    (h : creatorOf l threadId = some user) : creatorOf (l ++ more) threadId = some user := by
  unfold creatorOf at h ⊢
  rw [List.findSome?_append, h]
  rfl

theorem Owned.mono (l more : List (Event cfg)) (e : Event cfg) (h : Owned l e) : Owned (l ++ more) e := by
  cases e with
  | acted threadId agent ge => exact creatorOf_append h
  | resumed threadId caller | disclosed threadId caller response =>
    obtain ⟨d, hd, hcreator⟩ := h
    exact ⟨d, hd, creatorOf_append hcreator⟩
  | started _ _ | refused _ _ => trivial

theorem Created.mono {l : List (Event cfg)} {threadId : ThreadId} (h : Created l threadId) (more : List (Event cfg)) :
    Created (l ++ more) threadId := by
  obtain ⟨d, hd⟩ := h
  exact ⟨d, List.mem_append_left _ hd⟩

/-! ## What the service keeps -/

variable {owner : ThreadId → Option String}

/-- A delegation on a thread is its owner's. -/
def ActsFor (owner : ThreadId → Option String) (threadId : ThreadId) (d : Delegation) : Prop :=
  ∀ user, owner threadId = some user → d.user = user

/-- The flight works on a thread that was started. -/
def Flight.works (f : Flight cfg) : Bool :=
  match f.call with
  | .task _ => true
  | .decision _ => f.thread.isSome

structure FlightHonours (owner : ThreadId → Option String) (l : List (Event cfg)) (f : Flight cfg) : Prop where
  agent : ActsFor owner f.threadId f.agent.delegation
  caller : ∀ user, owner f.threadId = some user → ∃ d, f.caller = .ok d ∧ d.user = user
  created : f.works = true → Created l f.threadId

/-- Every agent and every flight on a thread is its owner's. -/
structure Honours (owner : ThreadId → Option String) (l : List (Event cfg)) (s : State cfg) : Prop where
  started : ∀ threadId d, .started threadId d ∈ l → owner threadId = some d.user
  kept : ∀ key, (s.kept key).isSome → Created l key.threadId
  runs : ∀ p threadId a, s.runs p threadId = some a → ActsFor owner threadId a.delegation
  flights : ∀ f ∈ s.flights, FlightHonours owner l f

theorem FlightHonours.mono {l : List (Event cfg)} {f : Flight cfg} (h : FlightHonours owner l f)
    (more : List (Event cfg)) : FlightHonours owner (l ++ more) f :=
  ⟨h.agent, h.caller, fun hw => (h.created hw).mono more⟩

/-- A thread that was created has its owner as creator. -/
theorem creatorOf_eq {l : List (Event cfg)} (hl : ∀ threadId d, .started threadId d ∈ l → owner threadId = some d.user)
    {threadId : ThreadId} (hc : Created l threadId) : creatorOf l threadId = owner threadId := by
  obtain ⟨d, hd⟩ := hc
  obtain ⟨user, huser⟩ : ∃ user, creatorOf l threadId = some user :=
    Option.isSome_iff_exists.1 (List.findSome?_isSome_iff.2 ⟨_, hd, by simp⟩)
  obtain ⟨e, he, hfound⟩ := List.exists_of_findSome?_eq_some huser
  cases e with
  | started threadId' d' =>
    by_cases heq : threadId' = threadId
    · subst heq
      rw [huser, hl threadId' d' he]
      simpa using hfound.symm
    · simp [heq] at hfound
  | _ => simp at hfound

section

variable {l : List (Event cfg)} {s : State cfg}

theorem Honours.creator (h : Honours owner l s) {threadId : ThreadId} {d : Delegation} (hc : Created l threadId)
    (hd : ActsFor owner threadId d) : creatorOf l threadId = some d.user := by
  have heq := creatorOf_eq h.started hc
  obtain ⟨d', hd'⟩ := hc
  have howner := h.started threadId d' hd'
  rw [heq, howner, hd _ howner]

/-- A flight that works does so for the creator. -/
theorem Honours.flight_caller (h : Honours owner l s) {f : Flight cfg} (hf : f ∈ s.flights)
    (hc : Created l f.threadId) : ∃ d, f.caller = .ok d ∧ creatorOf l f.threadId = some d.user := by
  obtain ⟨d', hd'⟩ := hc
  obtain ⟨d, hd, huser⟩ := (h.flights f hf).caller _ (h.started _ _ hd')
  refine ⟨d, hd, h.creator ⟨d', hd'⟩ fun user howner => ?_⟩
  rw [huser]
  exact Option.some.inj ((h.started _ _ hd').symm.trans howner)

/-- Events that start nothing. -/
theorem Honours.mono (h : Honours owner l s) {more : List (Event cfg)}
    (hmore : ∀ threadId d, .started threadId d ∉ more) : Honours owner (l ++ more) s where
  started threadId d hd := by
    rcases List.mem_append.1 hd with hd | hd
    · exact h.started threadId d hd
    · exact absurd hd (hmore threadId d)
  kept key hk := (h.kept key hk).mono more
  runs := h.runs
  flights f hf := (h.flights f hf).mono more

theorem Honours.cache (h : Honours owner l s) {p : Nat} {threadId : ThreadId} {a : Agent cfg}
    (ha : ActsFor owner threadId a.delegation) : Honours owner l (s.cache p threadId a) where
  started := h.started
  kept := h.kept
  flights := h.flights
  runs p' threadId' a' hrun := by
    simp only [State.cache, Function.update_apply] at hrun
    split at hrun
    · rw [Function.update_apply] at hrun
      split at hrun
      · cases hrun
        subst_vars
        exact ha
      · exact h.runs _ _ _ hrun
    · exact h.runs _ _ _ hrun

theorem Honours.launch (h : Honours owner l s) {f : Flight cfg} (hf : FlightHonours owner l f) :
    Honours owner l (s.launch f) where
  started := h.started
  kept := h.kept
  runs := h.runs
  flights f' hf' := by
    rcases List.mem_append.1 hf' with hf' | hf'
    · exact h.flights f' hf'
    · cases List.mem_singleton.1 hf'
      exact hf

theorem Honours.land (h : Honours owner l s) (n : Nat) : Honours owner l (s.land n) where
  started := h.started
  kept := h.kept
  runs := h.runs
  flights f hf := h.flights f (List.mem_of_mem_eraseIdx hf)

theorem Flight.saverKey_threadId (f : Flight cfg) : f.saverKey.threadId = f.threadId := by
  simp only [Flight.saverKey, Agent.saverKey]
  split <;> rfl

theorem Honours.checkpoint (h : Honours owner l s) {n : Nat} {f : Flight cfg} (hf : f ∈ s.flights)
    (hc : Created l f.threadId) (th : Thread) : Honours owner l (s.checkpoint n f th) where
  started := h.started
  runs := h.runs
  kept key hk := by
    simp only [State.checkpoint, Function.update_apply] at hk
    split at hk
    · subst_vars
      rw [f.saverKey_threadId]
      exact hc
    · exact h.kept key hk
  flights f' hf' := by
    rcases List.mem_or_eq_of_mem_set hf' with hf' | rfl
    · exact h.flights f' hf'
    · exact ⟨(h.flights f hf).agent, (h.flights f hf).caller, fun _ => hc⟩

theorem Honours.world (h : Honours owner l s) (world : World) : Honours owner l { s with world } :=
  ⟨h.started, h.kept, h.runs, h.flights⟩

theorem Honours.restart (h : Honours owner l s) (p : Nat) : Honours owner l (Service.restart p s) where
  started := h.started
  kept := h.kept
  runs p' threadId a hrun := by
    simp only [Service.restart, Function.update_apply] at hrun
    split at hrun
    · cases hrun
    · exact h.runs _ _ _ hrun
  flights f hf := h.flights f (List.mem_filter.1 hf).1

end

/-! ## The requests -/

/-- The requests on a thread are its owner's. A `/run` counts when it is let in,
a `/resume` when the service does not refuse it: where the process has no such
run, it refuses a request without a token or with one that is rejected, and any
request when there is no database. -/
def Admissible [UnicodeData] (owner : ThreadId → Option String)
    (t : Transition (State cfg) Input (List (Event cfg))) : Prop :=
  match t.input with
  | .run _ decode authorization body drawn =>
    ∀ task d, admitted cfg decode authorization body = .ok (task, d) → owner (body.runThread drawn) = some d.user
  | .resume p decode authorization body =>
    ∀ user, owner body.threadId = some user →
      (∃ d, cfg.delegation decode (bearerText authorization) = .ok d ∧ d.user = user) ∨
      (t.pre.runs p body.threadId = none ∧ (bearerText authorization = "" ∨ cfg.durable = false ∨
        ∃ exc, cfg.delegation decode (bearerText authorization) = .error exc))
  | _ => True

variable {l : List (Event cfg)} {s : State cfg}

/-- What a step leaves: the owners are honoured, and what it did is owned. -/
def Leaves (owner : ThreadId → Option String) (l : List (Event cfg)) (r : List (Event cfg) × State cfg) : Prop :=
  Honours owner (l ++ r.1) r.2 ∧ ∀ e ∈ r.1, Owned l e

theorem Leaves.silent (h : Honours owner l s) : Leaves owner l ([], s) :=
  ⟨by simpa using h, by simp⟩

theorem Leaves.refused (h : Honours owner l s) (status : Nat) (detail : String) :
    Leaves owner l ([.refused status detail], s) :=
  ⟨h.mono (by simp), by simp [Owned]⟩

theorem FlightHonours.created_of_thread {f : Flight cfg} {th : Thread} (h : FlightHonours owner l f)
    (hth : f.thread = some th) : Created l f.threadId := by
  apply h.created
  unfold Flight.works
  split
  · rfl
  · simp [hth]

section

variable [UnicodeData]

theorem run_leaves (h : Honours owner l s) {p : Nat} {decode : Decode} {authorization : Option String}
    {body : RunBody} {drawn : String}
    (hown : ∀ task d, admitted cfg decode authorization body = .ok (task, d) →
      owner (body.runThread drawn) = some d.user) :
    Leaves owner l (run p decode authorization body drawn s) := by
  unfold run
  split
  · exact .refused h _ _
  · rename_i task d hadmitted
    have howner := hown task d hadmitted
    have hacts : ActsFor owner (body.runThread drawn) d := by
      intro user hu
      exact Option.some.inj (howner.symm.trans hu)
    have hcreated : Created (l ++ [.started (body.runThread drawn) d]) (body.runThread drawn) := ⟨d, by simp⟩
    have hstart : Honours owner (l ++ [.started (body.runThread drawn) d]) s := by
      refine ⟨fun threadId d' hd' => ?_, fun key hk => (h.kept key hk).mono _, h.runs,
        fun f hf => (h.flights f hf).mono _⟩
      rcases List.mem_append.1 hd' with hd' | hd'
      · exact h.started _ _ hd'
      · cases List.mem_singleton.1 hd'
        exact howner
    exact ⟨(hstart.cache hacts).launch ⟨hacts, fun user hu => ⟨d, rfl, hacts user hu⟩, fun _ => hcreated⟩,
      by simp [Owned]⟩

theorem resume_leaves (h : Honours owner l s) {p : Nat} {decode : Decode} {authorization : Option String}
    {body : ResumeBody}
    (hown : ∀ user, owner body.threadId = some user →
      (∃ d, cfg.delegation decode (bearerText authorization) = .ok d ∧ d.user = user) ∨
      (s.runs p body.threadId = none ∧ (bearerText authorization = "" ∨ cfg.durable = false ∨
        ∃ exc, cfg.delegation decode (bearerText authorization) = .error exc))) :
    Leaves owner l (resume p decode authorization body s) := by
  unfold resume
  dsimp only
  split
  · rename_i agent hrun
    refine .silent (h.launch ⟨h.runs _ _ _ hrun, fun user hu => ?_, by simp [Flight.works]⟩)
    rcases hown user hu with hd | ⟨hnone, -⟩
    · exact hd
    · rw [hrun] at hnone
      cases hnone
  · rename_i hrun
    split
    · exact .refused h _ _
    · rename_i htoken
      split
      · exact .refused h _ _
      · rename_i d hd
        -- the service did not refuse, so the token is the owner's
        have hacts : ActsFor owner body.threadId d := by
          intro user hu
          rcases hown user hu with ⟨d', hd', huser⟩ | ⟨-, hempty | hmemory | ⟨exc, hexc⟩⟩
          · rw [hd] at hd'
            cases hd'
            exact huser
          · exact absurd (.inl hempty) htoken
          · exact absurd (.inr hmemory) htoken
          · rw [hd] at hexc
            cases hexc
        exact .silent ((h.cache hacts).launch
          ⟨hacts, fun user hu => ⟨d, rfl, hacts user hu⟩, by simp [Flight.works]⟩)

end

/-! ## The flights -/

theorem enter_leaves (h : Honours owner l s) (n : Nat) : Leaves owner l (enter n s) := by
  unfold enter
  split
  · rename_i f hn
    have hf : f ∈ s.flights := List.mem_of_getElem? hn
    split
    · exact .silent h
    · rename_i task _ hcall
      exact .silent (h.checkpoint hf ((h.flights f hf).created (by simp [Flight.works, hcall])) _)
    · split
      · exact .refused (h.land n) _ _
      · rename_i th hkept
        have hc : Created l f.threadId := by
          rw [← f.saverKey_threadId]
          exact h.kept _ (by simp [hkept])
        split
        · exact .refused (h.land n) _ _
        · refine ⟨(h.checkpoint hf hc _).mono (by simp), fun e he => ?_⟩
          cases List.mem_singleton.1 he
          exact h.flight_caller hf hc
  · exact .silent h

theorem advance_leaves [UnicodeData] (h : Honours owner l s) (n : Nat) (o : Outside) :
    Leaves owner l (advance n o s) := by
  unfold advance
  split
  · rename_i f hn
    have hf : f ∈ s.flights := List.mem_of_getElem? hn
    split
    · rename_i th hth
      have hc : Created l f.threadId := (h.flights f hf).created_of_thread hth
      split
      · exact .silent h
      · dsimp only
        split
        · exact .refused ((h.land n).world _) _ _
        · refine ⟨(((h.checkpoint hf hc _).world _).mono (by simp)), fun e he => ?_⟩
          obtain ⟨ge, -, rfl⟩ := List.mem_map.1 he
          exact h.creator hc (h.flights f hf).agent
    · exact .silent h
  · exact .silent h

theorem respond_leaves (h : Honours owner l s) (n : Nat) : Leaves owner l (respond n s) := by
  unfold respond
  split
  · rename_i f hn
    have hf : f ∈ s.flights := List.mem_of_getElem? hn
    split
    · rename_i th hth
      have hc : Created l f.threadId := (h.flights f hf).created_of_thread hth
      split
      · exact .silent h
      · refine ⟨(h.land n).mono (by simp), fun e he => ?_⟩
        cases List.mem_singleton.1 he
        exact h.flight_caller hf hc
    · exact .silent h
  · exact .silent h

theorem step_leaves [UnicodeData] {past : World} (h : Honours owner l s) (i : Input)
    (hi : Admissible owner ((service cfg past).transition s i)) : Leaves owner l ((service cfg past).step i s) := by
  cases i with
  | run p decode authorization body drawn =>
    simp only [service]
    exact run_leaves h hi
  | resume p decode authorization body =>
    simp only [service]
    exact resume_leaves h hi
  | enter n => exact enter_leaves h n
  | advance n o => exact advance_leaves h n o
  | respond n => exact respond_leaves h n
  | fail n =>
    simp only [service]
    exact .refused (h.land n) _ _
  | restart p =>
    simp only [service]
    exact .silent (h.restart p)
  | elsewhere world =>
    simp only [service]
    exact .silent (h.world world)

/-- **Every interleaving acts as the creator.** Where the requests on each
thread are its owner's, what happens in a thread is owned. -/
theorem acts_as_creator [UnicodeData] (past : World) (owner : ThreadId → Option String) (inputs : List Input)
    (h : ∀ t ∈ (service cfg past).run inputs, Admissible owner t) :
    Throughout Owned (events ((service cfg past).run inputs)) := by
  refine (Machine.history_rule (m := service cfg past) (G := Admissible owner)
    (P := fun run s => Honours owner (events run) s ∧ Throughout Owned (events run)) ⟨?_, .nil⟩ ?_ inputs h).2
  · exact ⟨by simp [events], by simp [service], by simp [service], by simp [service]⟩
  · intro run s i hp hi
    obtain ⟨hhonours, howned⟩ := step_leaves hp.1 i hi
    have hevents : events (run ++ [(service cfg past).transition s i]) =
        events run ++ ((service cfg past).step i s).1 := by simp [events]
    rw [hevents]
    exact ⟨hhonours, hp.2.append Owned.mono howned⟩

/-! ## A thread that is resumed after a restart, and one that is hijacked -/

/-- The claims of a token that is the name of its user. -/
def nameClaims (token : String) : Claims :=
  ⟨.str token, .absent, none, .str "console", some ["support_rep"], none, .str "acme"⟩

def decodeName : Decode := fun token =>
  if token = "" then .error (.invalid "Not enough segments") else .ok (nameClaims token)

def durableConfig : Config := ⟨true, agentWorkload⟩

/-- What is outside while alice's task is done. -/
def aliceOutside : Outside := ⟨fun _ _ => .ok (toolNames.map .str), .ok, aliceEnv⟩

/-- alice starts a run, which asks her for an amount; what follows is a resume
with an amount, by the bearer of a token, in a process. -/
def answeredBy (p : Nat) (authorization : Option String) : List Input :=
  [.run 0 decodeName (some "Bearer alice") ⟨.str "refund o-1002", some "t1"⟩ "0", .enter 0, .advance 0 aliceOutside,
    .advance 0 aliceOutside, .respond 0,
    .resume p decodeName authorization ⟨some "t1", some (.obj [("amount", .int 20)]), .null⟩, .enter 0,
    .advance 0 aliceOutside, .respond 0]

/-- A tool call that returned. -/
def isExecuted : Event cfg → Bool
  | .acted _ _ (.toolCalled _ _ _ (.ok outcome)) => decide (outcome.status = .ok)
  | _ => false

def serviceRun (inputs : List Input) : List (Event durableConfig) :=
  events ((@service asciiData durableConfig ⟨.initial, ∅⟩).run inputs)

theorem delegation_name {token : String} (h : token ≠ "") :
    ∃ d, durableConfig.delegation decodeName token = .ok d ∧ d.user = token := by
  refine ⟨.fromClaims (nameClaims token) agentWorkload, ?_, ?_⟩
  · simp [Config.delegation, TokenVerifier.verify, decodeName, durableConfig, agentWorkload, h]
  · simp [Delegation.fromClaims, nameClaims, Claim.orElse, Claim.get, h]

/-- alice resumes her run in a process that never saw it. -/
theorem answeredByAlice_owned :
    (serviceRun (answeredBy 1 (some "Bearer alice"))).any isExecuted = true ∧
      Throughout Owned (serviceRun (answeredBy 1 (some "Bearer alice"))) := by
  have htoken : @bearerText asciiData (some "Bearer alice") = "alice" := by decide +kernel
  obtain ⟨alice, halice, huser⟩ := @delegation_name "alice" (by decide)
  refine ⟨by decide +kernel, @acts_as_creator durableConfig asciiData ⟨.initial, ∅⟩
    (fun threadId => if threadId = some "t1" then some "alice" else none) _ fun t ht => ?_⟩
  have hmem := Machine.input_mem ht
  unfold Admissible
  split
  · rename_i hin
    rw [hin] at hmem
    simp only [answeredBy, List.mem_cons, Input.run.injEq, reduceCtorEq, List.not_mem_nil, or_false] at hmem
    obtain ⟨rfl, rfl, rfl, rfl, rfl⟩ := hmem
    intro task d hd
    have hverified := @delegation_of_admitted durableConfig asciiData _ _ _ _ _ hd
    rw [htoken, halice] at hverified
    cases hverified
    simp [RunBody.runThread, given, huser]
  · rename_i hin
    rw [hin] at hmem
    simp only [answeredBy, List.mem_cons, Input.resume.injEq, reduceCtorEq, List.not_mem_nil,
      or_false, false_or] at hmem
    obtain ⟨rfl, rfl, rfl, rfl⟩ := hmem
    intro user hu
    refine .inl ⟨alice, by rw [htoken, halice], ?_⟩
    rw [huser]
    simpa using hu
  · trivial

/-- Without a token, in the process that started the run, anyone resumes it as
alice and is shown the result. -/
theorem answeredByNobody_not_owned : ¬ Throughout Owned (serviceRun (answeredBy 0 none)) := by
  intro h
  have hresumed : ((serviceRun (answeredBy 0 none))[4]?).any (fun e =>
      !decide (Owned ((serviceRun (answeredBy 0 none)).take 4) e)) = true := by decide +kernel
  obtain ⟨e, he, hnot⟩ := (Option.any_eq_true _ _).1 hresumed
  simp only [Bool.not_eq_true', decide_eq_false_iff_not] at hnot
  exact hnot (h.getElem? he)

end Service

end AgentPlatform
