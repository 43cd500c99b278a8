/-
What `decide_tool` can answer (`app/agent/llm.py`), whatever the model replies.

The call to the model and `json.loads` are parameters: the model answers any
text, or raises, and the reader answers any value, or a `ValueError`. The
arguments of a proposal are filled from the task, coerced, and cleared of
identifiers nobody has seen, in that order; each step keeps what the next one
relies on (`resolveIdentifiers_seen`, `resolveIdentifiers_declared`).
-/
import AgentPlatform.Seen
import AgentPlatform.LiveFacts

namespace AgentPlatform

namespace Llm

variable [UnicodeData] {σ : Type}

/-! ## The prompt -/

/-- `_tool_manifest(tools)` -/
def toolManifest (tools : Dict String (Tool σ)) : String :=
  String.intercalate "\n" (tools.entries.map fun e =>
    "- " ++ e.2.name ++ "(" ++ String.intercalate ", " e.2.required ++ "): " ++ e.2.description)

/-- `_MAX_OBSERVATION_CHARS` -/
def maxObservationChars : Nat := 600

/-- `v.get(k, {})` -/
def getObject (v : Json) (k : String) : Except Exn Json :=
  match v with
  | .obj fs => .ok ((Dict.find k fs).getD (.obj []))
  | _ => getField v k

/-- One line of `_observations_text`. -/
def observationLine (item : Json × Nat) : Except Exn String := do
  let result ← dumps (← getObject item.1 "result")
  let shown := if maxObservationChars < result.length then clip maxObservationChars result ++ "…" else result
  let args ← dumps (← getObject item.1 "args")
  let tool ← Py.str (← getField item.1 "tool")
  return toString item.2 ++ ". " ++ tool ++ "(" ++ args ++ ") -> " ++ shown

/-- `_observations_text(observations)` -/
def observationsText (observations : List Json) : Except Exn String :=
  ((observations.zipIdx 1).mapM observationLine).map (String.intercalate "\n")

/-- `_prompt(task, tools, unavailable, observations)` -/
def prompt (task : String) (tools unavailable : Dict String (Tool σ)) (observations : List Json) :
    Except Exn String := do
  let forbidden := if unavailable.entries.isEmpty then "" else
    "NOT permitted for this user's role (never choose these):\n" ++ toolManifest unavailable ++ "\n\n"
  let done ← if observations.isEmpty then Except.ok "" else
    (observationsText observations).map fun text =>
      "You have already done this for the task, in order:\n" ++ text ++ "\n\n"
  return "You are a customer-support agent. Choose exactly one tool from the available list to handle the task.\n" ++
    "Available tools:\n" ++ toolManifest tools ++ "\n\n" ++ forbidden ++ done ++
    "Task: \"" ++ task ++ "\"\n\n" ++
    "If the task needs a tool that is not permitted, or none of the available tools fits, reply with " ++
    "\x7b\"tool\": null, \"reason\": \"<why>\"\x7d.\n" ++
    "If a required argument is not in the task, still name the tool and leave that argument out — never invent one; " ++
    "the user will be asked for it.\n" ++
    "Otherwise reply with ONLY JSON of the form " ++
    "\x7b\"tool\": \"<name>\", \"args\": \x7b<arguments>\x7d, \"reason\": \"<short reason>\", " ++
    "\"more\": true if you will need another call after this one\x7d."

/-! ## The decision -/

/-- What the call to the model raises: the agent's revocation, or any other
exception. -/
inductive ChatFault where
  | revoked
  | other

/-- `_no_tool(fallback, reason, cause)` -/
def noToolOr (fallback : Option ModelDecision) (reason : String) : ModelDecision := fallback.getD (noTool reason)

/-- `propose`, with the identifiers seen as they come. -/
def proposeSeen (tool : Tool σ) (decision : Json) (task : String) (seen : Except Exn (List String)) :
    Except Exn ModelDecision := do
  let given ← dictOf (orEmpty ((decision.field "args").getD .null))
  let filled ← fillGaps tool.properties given task
  let seen ← seen
  let fromTask ← extractArgs task
  let args ← resolveIdentifiers tool.required filled seen fromTask
  let missing := checkDecision tool.required args
  if missing ≠ [] then
    return { tool := some tool.name, args, missing, clarify := true,
             reason := some (.str (tool.name ++ " needs " ++ String.intercalate ", " missing)) }
  else
    return { tool := some tool.name, args, reason := some ((decision.field "reason").getD (.str "")),
             more := ((decision.field "more").getD .null).truthy }

/-- `chosen`, with the identifiers seen as they come. -/
def chosenSeen (tools unavailable : Dict String (Tool σ)) (decision : Json) (task : String)
    (seen : Except Exn (List String)) : Except Exn (Option ModelDecision) := do
  let chosen ← getField decision "tool"
  if !chosen.truthy then
    return some { tool := none, refused := true,
                  reason := some (.str "no tool your role may call fits this task — nothing was executed") }
  let name ← toolKey chosen
  match name with
  | none => return none
  | some name =>
    if (unavailable.get? name).isSome then
      return some { tool := none, refused := true, refusedTool := name,
                    reason := some (.str ("your role may not call " ++ name)) }
    match tools.get? name with
    | none => return none
    | some tool => (proposeSeen tool decision task seen).map some

/-- `decide_tool(task, tools, unavailable, fallback, observations)` -/
def decideToolWith (chat : String → Except ChatFault String) (loads : String → Except Exn Json) (task : String)
    (tools unavailable : Dict String (Tool σ)) (fallback : Option ModelDecision) (observations : List Json) :
    Except Exn ModelDecision :=
  let reply : Except ChatFault String :=
    match prompt task tools unavailable observations with
    | .ok text => chat text
    | .error _ => .error .other
  match reply with
  | .error .revoked => .ok (noToolOr fallback "this agent has been revoked — nothing was executed")
  | .error .other => .ok (noToolOr fallback "the model could not be reached — nothing was executed")
  | .ok content =>
    match loads content with
    | .error e =>
      if e.kind = .valueError ∨ e.kind = .typeError then
        .ok (noToolOr fallback "the model's reply could not be understood — nothing was executed")
      else .error e
    | .ok decision =>
      -- a fault in reading the decision is caught, like an unknown tool
      match chosenSeen tools unavailable decision task (seenIn task observations) with
      | .ok (some d) => .ok d
      | _ => .ok (noToolOr fallback "the model did not choose a usable tool — nothing was executed")

/-- What comes back from the model, as the graph's `decide` takes it. -/
def replyOf (chat : String → Except ChatFault String) (loads : String → Except Exn Json)
    (text : Except Exn String) : ModelReply :=
  match text with
  | .error _ => .unreachable
  | .ok text =>
    match chat text with
    | .error .revoked => .revoked
    | .error .other => .unreachable
    | .ok content =>
      match loads content with
      | .error _ => .unparseable
      | .ok decision => .read decision

/-- The reader raises a `ValueError` or nothing. -/
def LoadsRaises (loads : String → Except Exn Json) : Prop := ∀ text e, loads text = .error e → e.kind = .valueError

/-- On the observations of a run, the decision is that of the graph's model. -/
theorem decideToolWith_eq {chat : String → Except ChatFault String} {loads : String → Except Exn Json}
    (hloads : LoadsRaises loads) (task : String) (tools unavailable : Dict String (Tool σ))
    (observations : List Observation) :
    decideToolWith chat loads task tools unavailable none (observations.map observationJson) =
      .ok (decideTool tools unavailable
        (replyOf chat loads (prompt task tools unavailable (observations.map observationJson))) task observations) := by
  unfold decideToolWith replyOf
  cases prompt task tools unavailable (observations.map observationJson) with
  | error e => rfl
  | ok text =>
    cases hchat : chat text with
    | error fault => cases fault <;> simp only [hchat, noToolOr, Option.getD_none, decideTool]
    | ok content =>
      cases hread : loads content with
      | error e => simp only [hchat, hread, hloads content e hread, true_or, if_true, noToolOr, Option.getD_none,
          decideTool]
      | ok decision =>
        have hchosen : chosenSeen tools unavailable decision task (seenIn task (observations.map observationJson)) =
            chosen tools unavailable decision task observations := by
          rw [← seenIdentifiers_eq]
          rfl
        simp only [hchat, hread, hchosen, decideTool]
        split <;> simp_all [noToolOr]

/-! ## What an identifier seen looks like -/

theorem idAt_shape {before : Option Char} {s token : List Char} (h : idAt before s = some token) :
    ∃ p rest, token = p :: '-' :: rest ∧ IsPrefix p := by
  unfold idAt at h
  split at h
  · rename_i c s
    split at h
    · rename_i hguard
      obtain ⟨n, -, hn⟩ := List.exists_of_findSome?_eq_some h
      dsimp only at hn
      split at hn
      · cases hn
        simp only [Bool.and_eq_true, decide_eq_true_eq, List.mem_cons, List.not_mem_nil, or_false] at hguard
        exact ⟨c, _, rfl, hguard.1⟩
      · cases hn
    · cases h
  · cases h

theorem findIds_shape : ∀ (s : List Char) (skip : Nat) (before : Option Char) {token : String},
    token ∈ findIds skip before s → ∃ p rest, token.toList = p :: '-' :: rest ∧ IsPrefix p
  | [], _, _, _, h => by simp [findIds] at h
  | c :: s, skip + 1, before, token, h => findIds_shape s skip (some c) h
  | c :: s, 0, before, token, h => by
    rw [findIds] at h
    cases hid : idAt before (c :: s) with
    | none =>
      rw [hid] at h
      exact findIds_shape s 0 (some c) h
    | some found =>
      rw [hid] at h
      rcases List.mem_cons.1 h with rfl | h
      · simpa using idAt_shape hid
      · exact findIds_shape s _ (some c) h

theorem seenIn_shape {task : String} {observations : List Json} {seen : List String}
    (h : seenIn task observations = .ok seen) {token : String} (ht : token ∈ seen) :
    ∃ p rest, token.toList = p :: '-' :: rest ∧ IsPrefix p := by
  obtain ⟨texts, -, h⟩ := bind_ok h
  cases h
  rcases List.mem_append.1 ht with ht | ht
  · exact findIds_shape _ _ _ ht
  · obtain ⟨text, -, ht⟩ := List.mem_flatMap.1 ht
    exact findIds_shape _ _ _ ht

/-- Only a string is written as an identifier. -/
theorem str_eq_of_shape {v : Json} {text : String} (h : Py.str v = .ok text) {p : Char} {rest : List Char}
    (ht : text.toList = p :: '-' :: rest) (hp : IsPrefix p) : v = .str text := by
  have hhead : ∀ (c : Char) {s : List Char}, text.toList = c :: s → IsPrefix c := fun c s hc =>
    (List.cons_eq_cons.1 (hc.symm.trans ht)).1 ▸ hp
  have hnumeric : (∀ c ∈ text.toList, IsNumeric c) → False := fun hall =>
    not_prefix_of_isNumeric hall hp ⟨[], rest, by simp [ht]⟩
  cases v with
  | str s =>
    cases h
    rfl
  | null =>
    cases h
    exact absurd (hhead 'N' rfl) (by simp [IsPrefix])
  | bool b =>
    cases h
    cases b with
    | false => exact absurd (hhead 'F' rfl) (by simp [IsPrefix])
    | true => exact absurd (hhead 'T' rfl) (by simp [IsPrefix])
  | int i => exact (hnumeric (isNumeric_strInt h)).elim
  | float x =>
    cases h
    cases x with
    | nan => exact absurd (hhead 'n' rfl) (by simp [IsPrefix])
    | inf neg =>
      cases neg with
      | false => exact absurd (hhead 'i' rfl) (by simp [IsPrefix])
      | true => exact absurd (hhead '-' rfl) (by simp [IsPrefix])
    | fin neg m e hme => exact (hnumeric (isNumeric_reprFloat hme)).elim
  | arr xs =>
    rw [Py.str, Py.repr] at h
    · obtain ⟨ss, -, rfl⟩ := map_ok h
      exact absurd (hhead '[' (by simp; rfl)) (by simp [IsPrefix])
    · simp
  | obj fs =>
    rw [Py.str, Py.repr] at h
    · obtain ⟨ss, -, rfl⟩ := map_ok h
      exact absurd (hhead '\x7b' (by simp; rfl)) (by simp [IsPrefix])
    · simp

/-- The identifier a task names has been seen. -/
theorem extractArgs_seen {task : String} {observations : List Json} {seen : List String} {fromTask : Args}
    (hseen : seenIn task observations = .ok seen) (h : extractArgs task = .ok fromTask) {name : String}
    (hname : name ≠ "amount") {v : Json} (hv : fromTask.get? name = some v) : ∃ s ∈ seen, v = .str s := by
  obtain ⟨texts, -, hseen⟩ := bind_ok hseen
  cases hseen
  obtain ⟨ids, hget, rfl | ⟨value, hvalue, rfl⟩⟩ : ∃ ids : Args, ids.get? name = some v ∧
      (ids = ∅ ∨ ∃ value ∈ findIds 0 none task.toList, ids = Dict.ofList [(argumentOf value.toList, .str value)]) := by
    unfold extractArgs at h
    rcases hhead : (findIds 0 none task.toList).head? with _ | value
    on_goal 1 => refine ⟨∅, ?_, .inl rfl⟩
    on_goal 2 => refine ⟨_, ?_, .inr ⟨value, List.mem_of_mem_head? hhead, rfl⟩⟩
    all_goals
      rw [hhead] at h
      dsimp only at h
      split at h
      · obtain ⟨x, -, rfl⟩ := map_ok h
        rwa [Dict.get?_insert_ne _ _ (Ne.symm hname)] at hv
      · cases h
        exact hv
  · cases hget
  · rcases Dict.get?_insert_cases hget with ⟨-, rfl⟩ | ⟨-, hnone⟩
    · exact ⟨value, List.mem_append_left _ hvalue, rfl⟩
    · cases hnone

/-! ## What resolving the identifiers keeps -/

/-- A value is missing, or an identifier that has been seen. -/
def SeenOrBlank (seen : List String) (v : Option Json) : Prop :=
  (v.getD .null).isBlank = true ∨ ∃ s ∈ seen, v = some (.str s)

section Resolve

variable {seen : List String} {fromTask kept out : Args} {name : String}

/-- One identifier resolved: it is missing or seen, and nothing else changes. -/
theorem resolveIdentifier_spec
    (hshape : ∀ token ∈ seen, ∃ p rest, token.toList = p :: '-' :: rest ∧ IsPrefix p)
    (hnamed : ∀ v, fromTask.get? name = some v → ∃ s ∈ seen, v = .str s)
    (h : resolveIdentifier seen fromTask kept name = .ok out) :
    SeenOrBlank seen (out.get? name) ∧ (∀ k, k ≠ name → out.get? k = kept.get? k) ∧
      ((out.get? name).isSome = true → (kept.get? name).isSome = true) := by
  unfold resolveIdentifier at h
  dsimp only at h
  split at h
  · rename_i hblank
    cases h
    exact ⟨.inl hblank, fun _ _ => rfl, id⟩
  rename_i hblank
  obtain ⟨text, htext, rfl⟩ := map_ok h
  have hsome : (kept.get? name).isSome = true := by
    cases hk : kept.get? name with
    | none => simp [hk, Json.isBlank] at hblank
    | some v => rfl
  split
  · rename_i hmem
    obtain ⟨p, rest, hp, hprefix⟩ := hshape text hmem
    obtain ⟨v, hv⟩ := Option.isSome_iff_exists.1 hsome
    rw [hv, Option.getD_some] at htext
    exact ⟨.inr ⟨text, hmem, by rw [hv, str_eq_of_shape htext hp hprefix]⟩, fun _ _ => rfl, id⟩
  split
  · refine ⟨.inl ?_, fun k hk => ?_, fun _ => hsome⟩
    · rw [Dict.get?_erase, if_pos rfl]
      rfl
    · rw [Dict.get?_erase, if_neg (Ne.symm hk)]
  · rename_i hnamedBlank
    refine ⟨.inr ?_, fun k hk => Dict.get?_insert_ne _ _ (Ne.symm hk), fun _ => hsome⟩
    cases hf : fromTask.get? name with
    | none => simp [hf, Json.isBlank] at hnamedBlank
    | some v =>
      obtain ⟨s, hs, rfl⟩ := hnamed v hf
      exact ⟨s, hs, by rw [Dict.get?_insert_self, Option.getD_some]⟩

/-- The loop: every identifier is missing or seen. An identifier the loop has
passed stays so, whatever comes after it. -/
theorem resolveIdentifiers_seen
    (hshape : ∀ token ∈ seen, ∃ p rest, token.toList = p :: '-' :: rest ∧ IsPrefix p) :
    ∀ {names : List String} {kept out : Args},
    (∀ name ∈ names, ∀ v, fromTask.get? name = some v → ∃ s ∈ seen, v = .str s) →
    names.foldlM (resolveIdentifier seen fromTask) kept = .ok out →
    ∀ k, (SeenOrBlank seen (kept.get? k) ∨ k ∈ names) → SeenOrBlank seen (out.get? k)
  | [], kept, out, _, h, k, hk => by
    cases h
    exact hk.resolve_right (List.not_mem_nil)
  | name :: names, kept, out, hnamed, h, k, hk => by
    rw [List.foldlM_cons] at h
    obtain ⟨mid, hmid, h⟩ := bind_ok h
    rw [List.forall_mem_cons] at hnamed
    obtain ⟨hone, hothers, -⟩ := resolveIdentifier_spec hshape hnamed.1 hmid
    refine resolveIdentifiers_seen hshape hnamed.2 h k ?_
    by_cases hkn : k = name
    · exact .inl (hkn ▸ hone)
    · rw [hothers k hkn]
      exact hk.imp id fun hmem => (List.mem_cons.1 hmem).resolve_left hkn

/-- The loop adds no argument. -/
theorem resolveIdentifiers_declared
    (hshape : ∀ token ∈ seen, ∃ p rest, token.toList = p :: '-' :: rest ∧ IsPrefix p) :
    ∀ {names : List String} {kept out : Args},
    (∀ name ∈ names, ∀ v, fromTask.get? name = some v → ∃ s ∈ seen, v = .str s) →
    names.foldlM (resolveIdentifier seen fromTask) kept = .ok out →
    ∀ k, (out.get? k).isSome = true → (kept.get? k).isSome = true
  | [], kept, out, _, h, k, hk => by
    cases h
    exact hk
  | name :: names, kept, out, hnamed, h, k, hk => by
    rw [List.foldlM_cons] at h
    obtain ⟨mid, hmid, h⟩ := bind_ok h
    rw [List.forall_mem_cons] at hnamed
    obtain ⟨-, hothers, hsome⟩ := resolveIdentifier_spec hshape hnamed.1 hmid
    have hk := resolveIdentifiers_declared hshape hnamed.2 h k hk
    by_cases hkn : k = name
    · subst hkn
      exact hsome hk
    · rwa [hothers k hkn] at hk

end Resolve

/-! ## What is proposed -/

/-- A decision about an offered tool, as the graph may rely on it. -/
structure Proposes (tool : Tool σ) (task : String) (observations : List Json) (d : ModelDecision) : Prop where
  named : d.tool = some tool.name
  declared : ∀ k, (d.args.get? k).isSome = true → (tool.properties.get? k).isSome = true
  complete : d.clarify = false → ∀ name ∈ tool.required,
    ∃ v, d.args.get? name = some v ∧ v ≠ .null ∧ v ≠ .str ""
  seen : d.clarify = false → ∀ name ∈ identifierArgs tool.required, ∃ s seen, d.args.get? name = some (.str s) ∧
    seenIn task observations = .ok seen ∧ s ∈ seen
  missing : d.clarify = true → d.missing ≠ [] ∧
    d.missing = tool.required.filter fun name => ((d.args.get? name).getD .null).isBlank

theorem proposeSeen_proposes {tool : Tool σ} {decision : Json} {task : String} {observations : List Json}
    {d : ModelDecision} (h : proposeSeen tool decision task (seenIn task observations) = .ok d) :
    Proposes tool task observations d := by
  obtain ⟨given, -, h⟩ := bind_ok h
  obtain ⟨filled, hfilled, h⟩ := bind_ok h
  obtain ⟨seen, hseen, h⟩ := bind_ok h
  obtain ⟨fromTask, hfrom, h⟩ := bind_ok h
  obtain ⟨args, hargs, h⟩ := bind_ok h
  have hshape : ∀ token ∈ seen, ∃ p rest, token.toList = p :: '-' :: rest ∧ IsPrefix p := fun _ =>
    seenIn_shape hseen
  have hnamed : ∀ name ∈ identifierArgs tool.required, ∀ v, fromTask.get? name = some v → ∃ s ∈ seen, v = .str s :=
    fun name hname v => extractArgs_seen hseen hfrom (identifierArgs_ne_amount hname)
  have hdeclared : ∀ k, (args.get? k).isSome = true → (tool.properties.get? k).isSome = true := by
    intro k hk
    obtain ⟨extracted, -, hfilled⟩ := bind_ok hfilled
    obtain ⟨v, hv⟩ := Option.isSome_iff_exists.1 (resolveIdentifiers_declared hshape hnamed hargs k hk)
    obtain ⟨t, -, ht, -⟩ := coerceArgs_declared hfilled hv
    rw [ht]
    rfl
  dsimp only at h
  split at h
  · rename_i hmissing
    cases h
    exact ⟨rfl, hdeclared, fun h => (by cases h), fun h => (by cases h), fun _ => ⟨hmissing, rfl⟩⟩
  · rename_i hmissing
    cases h
    have hpresent : ∀ name ∈ tool.required, ((args.get? name).getD .null).isBlank = false := by
      intro name hname
      have hnil : checkDecision tool.required args = [] := by simpa using hmissing
      simpa using List.filter_eq_nil_iff.1 hnil name hname
    refine ⟨rfl, hdeclared, fun _ name hname => ?_, fun _ name hname => ?_, fun h => (by cases h)⟩
    · have hblank := hpresent name hname
      cases hv : args.get? name with
      | none => simp [hv, Json.isBlank] at hblank
      | some v =>
        rw [hv, Option.getD_some] at hblank
        refine ⟨v, rfl, ?_, ?_⟩ <;>
        · rintro rfl
          simp [Json.isBlank] at hblank
    · rcases resolveIdentifiers_seen hshape hnamed hargs name (.inr hname) with hblank | ⟨s, hs, hv⟩
      · rw [hpresent name (List.mem_filter.1 hname).1] at hblank
        cases hblank
      · exact ⟨s, seen, hv, hseen, hs⟩

/-- The tools of a request are each under their own name. -/
def KeyedByName (tools : Dict String (Tool σ)) : Prop := ∀ name tool, tools.get? name = some tool → tool.name = name

/-- The tools a caller offers are of the catalogue, so under their names. -/
theorem keyedByName_split (offered : List Json) (keep : Bool) : KeyedByName (LiveEnv.split offered keep) :=
  fun _ _ h => (declared_stringIds (split_declared h)).1

/-- What the reply names: a non-empty string under `tool`. -/
def Names (decision : Json) (name : String) : Prop := decision.field "tool" = some (.str name) ∧ name ≠ ""

omit [UnicodeData] in
theorem getField_tool {decision v : Json} (h : getField decision "tool" = .ok v) :
    v = (decision.field "tool").getD .null := by
  cases decision with
  | obj fs =>
    cases h
    rfl
  | _ => cases h

/-- The ways a decision about a reply that was read comes out. -/
theorem chosenSeen_cases {tools unavailable : Dict String (Tool σ)} {decision : Json} {task : String}
    {seen : Except Exn (List String)} {d : ModelDecision}
    (h : chosenSeen tools unavailable decision task seen = .ok (some d)) :
    (d.tool = none ∧ d.clarify = false ∧ d.args = ∅ ∧ ((∀ name, ¬ Names decision name) ∨
      ∃ name, Names decision name ∧ (unavailable.get? name).isSome = true ∧ d.refused = true ∧
        d.refusedTool = name)) ∨
    ∃ name tool, Names decision name ∧ (unavailable.get? name).isSome = false ∧ tools.get? name = some tool ∧
      proposeSeen tool decision task seen = .ok d := by
  obtain ⟨chosen, hchosen, h⟩ := bind_ok h
  have htool := getField_tool hchosen
  split at h
  · rename_i htruthy
    cases h
    refine .inl ⟨rfl, rfl, rfl, .inl fun name hname => ?_⟩
    rw [htool, hname.1] at htruthy
    simp [Json.truthy, hname.2] at htruthy
  rename_i htruthy
  obtain ⟨key, hkey, h⟩ := bind_ok h
  cases key with
  | none => cases h
  | some name =>
    have hnames : Names decision name := by
      cases chosen with
      | str s =>
        cases hkey
        refine ⟨?_, by simpa [Json.truthy] using htruthy⟩
        cases hf : decision.field "tool" with
        | none => simp [hf] at htool
        | some v => rw [htool, hf, Option.getD_some]
      | _ => simp [toolKey, unhashable] at hkey
    dsimp only at h
    split at h
    · rename_i hun
      cases h
      exact .inl ⟨rfl, rfl, rfl, .inr ⟨name, hnames, hun, rfl, rfl⟩⟩
    rename_i hun
    cases ht : tools.get? name with
    | none =>
      simp only [ht] at h
      cases h
    | some tool =>
      simp only [ht] at h
      obtain ⟨d', hd', heq⟩ := map_ok h
      cases heq
      exact .inr ⟨name, tool, hnames, by simpa using hun, ht, hd'⟩

theorem chosenSeen_unavailable (tools : Dict String (Tool σ)) {unavailable : Dict String (Tool σ)} {decision : Json}
    (task : String) (seen : Except Exn (List String)) {name : String} (hname : Names decision name)
    (hun : (unavailable.get? name).isSome = true) :
    ∃ d, chosenSeen tools unavailable decision task seen = .ok (some d) := by
  have hget : getField decision "tool" = .ok (.str name) := by
    cases decision with
    | obj fs =>
      have hfind : Dict.find "tool" fs = some (.str name) := hname.1
      rw [getField, hfind]
      rfl
    | _ => exact absurd hname.1 (by simp [Json.field])
  have htruthy : (Json.str name).truthy = true := by simp [Json.truthy, hname.2]
  refine ⟨{ tool := none, refused := true, refusedTool := name,
            reason := some (.str ("your role may not call " ++ name)) }, ?_⟩
  simp only [chosenSeen, hget, bind, Except.bind, htruthy, Bool.not_true, Bool.false_eq_true, if_false, toolKey, hun,
    if_true]
  rfl

/-- The reply as it was read, if the model was reached and answered JSON. -/
def readReply (chat : String → Except ChatFault String) (loads : String → Except Exn Json)
    (text : Except Exn String) : Option Json :=
  match text with
  | .error _ => none
  | .ok asked =>
    match chat asked with
    | .error _ => none
    | .ok content => (loads content).toOption

/-- What a decision may be, given the reply that was read. -/
structure OnlyProposes (tools unavailable : Dict String (Tool σ)) (task : String) (observations : List Json)
    (reply : Option Json) (d : ModelDecision) : Prop where
  none : d.tool = none → d.clarify = false ∧ d.args = ∅
  proposed : ∀ name, d.tool = some name → ∃ decision tool, reply = some decision ∧ Names decision name ∧
    tools.get? name = some tool ∧ Proposes tool task observations d
  refused : ∀ decision name, reply = some decision → Names decision name → (unavailable.get? name).isSome = true →
    d.tool = .none ∧ d.refused = true ∧ d.refusedTool = name

omit [UnicodeData] in
theorem Names.inj {decision : Json} {name name' : String} (h : Names decision name) (h' : Names decision name') :
    name = name' := by
  have heq := h.1.symm.trans h'.1
  cases heq
  rfl

theorem onlyProposes_none {tools unavailable : Dict String (Tool σ)} {task : String} {observations : List Json}
    {reply : Option Json} (reason : String)
    (hno : ∀ decision name, reply = some decision → Names decision name → (unavailable.get? name).isSome = false) :
    OnlyProposes tools unavailable task observations reply (noTool reason) where
  none _ := ⟨rfl, rfl⟩
  proposed _ h := by cases h
  refused decision name hreply hname hun := by simp [hno decision name hreply hname] at hun

theorem onlyProposes_chosen {tools unavailable : Dict String (Tool σ)} {task : String} {observations : List Json}
    {decision : Json} {d : ModelDecision} (htools : KeyedByName tools)
    (h : chosenSeen tools unavailable decision task (seenIn task observations) = .ok (some d)) :
    OnlyProposes tools unavailable task observations (some decision) d := by
  rcases chosenSeen_cases h with ⟨htool, hclarify, hargs, hrefused⟩ | ⟨name, tool, hname, hun, ht, hd⟩
  · refine ⟨fun _ => ⟨hclarify, hargs⟩, fun name hname => ?_, fun decision' name heq hname _ => ?_⟩
    · rw [htool] at hname
      cases hname
    · cases heq
      rcases hrefused with hno | ⟨name', hname', -, hrefused, hnamed⟩
      · exact (hno name hname).elim
      · exact ⟨htool, hrefused, hnamed.trans (hname'.inj hname)⟩
  · have hproposes := proposeSeen_proposes hd
    have hkey : d.tool = some name := by rw [hproposes.named, htools name tool ht]
    refine ⟨fun hnone => ?_, fun name' hname' => ?_, fun decision' name' heq hname' hun' => ?_⟩
    · rw [hkey] at hnone
      cases hnone
    · cases hkey.symm.trans hname'
      exact ⟨decision, tool, rfl, hname, ht, hproposes⟩
    · cases heq
      rw [hname'.inj hname, hun] at hun'
      cases hun'

/-- **The model can only propose.** Whatever it replies, the decision is there:
no tool, or the one its reply names, which is offered; a tool that is not
offered is refused by its name; and the arguments are declared, complete or
asked for, with no identifier nobody has seen. -/
theorem decideToolWith_proposes (chat : String → Except ChatFault String) (loads : String → Except Exn Json)
    (task : String) (tools unavailable : Dict String (Tool σ)) (observations : List Json)
    (hloads : LoadsRaises loads) (htools : KeyedByName tools) :
    ∃ d, decideToolWith chat loads task tools unavailable none observations = .ok d ∧
      OnlyProposes tools unavailable task observations
        (readReply chat loads (prompt task tools unavailable observations)) d := by
  unfold decideToolWith readReply
  cases hprompt : prompt task tools unavailable observations with
  | error e => exact ⟨_, rfl, onlyProposes_none _ fun _ _ h => (by cases h)⟩
  | ok asked =>
    dsimp only
    cases hchat : chat asked with
    | error fault => cases fault <;> exact ⟨_, rfl, onlyProposes_none _ fun _ _ h => (by cases h)⟩
    | ok content =>
      dsimp only
      cases hread : loads content with
      | error e =>
        refine ⟨_, by simp only [hloads content e hread, true_or, if_true]; rfl, ?_⟩
        exact onlyProposes_none _ fun _ _ h => (by cases h)
      | ok decision =>
        dsimp only [Except.toOption]
        cases hchosen : chosenSeen tools unavailable decision task (seenIn task observations) with
        | ok o =>
          cases o with
          | some d => exact ⟨d, rfl, onlyProposes_chosen htools hchosen⟩
          | none =>
            refine ⟨_, rfl, onlyProposes_none _ fun decision' name heq hname => Bool.eq_false_iff.2 fun hun => ?_⟩
            cases heq
            obtain ⟨d, hd⟩ := chosenSeen_unavailable tools task (seenIn task observations) hname hun
            rw [hd] at hchosen
            cases hchosen
        | error e =>
          refine ⟨_, rfl, onlyProposes_none _ fun decision' name heq hname => Bool.eq_false_iff.2 fun hun => ?_⟩
          cases heq
          obtain ⟨d, hd⟩ := chosenSeen_unavailable tools task (seenIn task observations) hname hun
          rw [hd] at hchosen
          cases hchosen

omit [UnicodeData] in
/-- A reply that proposes a customer it saw in the task, read by a reader that
knows that one text. -/
theorem decideToolWith_proposes_customer :
    let _ := asciiData
    let reply := Json.obj [("tool", .str "crm.customer.read"), ("args", .obj [("customer_id", .str "c-100")])]
    let loads : String → Except Exn Json := fun text =>
      if text = "\x7b\"tool\": \"crm.customer.read\", \"args\": \x7b\"customer_id\": \"c-100\"\x7d\x7d" then .ok reply
      else .error ⟨.valueError, "Expecting value"⟩
    let chat : String → Except ChatFault String := fun _ =>
      .ok "\x7b\"tool\": \"crm.customer.read\", \"args\": \x7b\"customer_id\": \"c-100\"\x7d\x7d"
    ∃ d, decideToolWith chat loads "look up c-100" declaredTools ∅ none [] = .ok d ∧
      OnlyProposes declaredTools ∅ "look up c-100" [] (some reply) d := by
  intro _ reply loads chat
  have hloads : LoadsRaises loads := by
    intro text e h
    simp only [loads] at h
    split at h
    · cases h
    · cases h
      rfl
  exact decideToolWith_proposes chat loads "look up c-100" declaredTools ∅ [] hloads
    fun _ _ h => (declared_stringIds h).1

end Llm

end AgentPlatform
