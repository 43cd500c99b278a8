/-
What the model can propose.

Arguments are `Canonical` for a schema when each is declared and coercing it
changes nothing. The arguments of a proposal are: they were coerced, and an
identifier that replaces one of them is a string read out of the task.
-/
import AgentPlatform.Llm

namespace AgentPlatform

/-- Every argument is declared, and already coerced. -/
def Canonical [UnicodeData] (properties : Properties) (args : Args) : Prop :=
  ∀ k v, args.get? k = some v → ∃ t, properties.get? k = some t ∧ coerce v t = .ok v

namespace Llm

variable [UnicodeData] {properties : Properties} {required : List String} {args out : Args} {task : String}

theorem coerceArgs_canonical (h : coerceArgs properties args = .ok out) : Canonical properties out := by
  intro k v hk
  obtain ⟨t, w, ht, -, hw⟩ := coerceArgs_declared h hk
  exact ⟨t, ht, coerce_idem hw⟩

omit [UnicodeData] in
theorem bind_ok {α β : Type} {r : Except Exn α} {f : α → Except Exn β} {b : β} (h : r >>= f = .ok b) :
    ∃ a, r = .ok a ∧ f a = .ok b := by
  cases r with
  | error e => cases h
  | ok a => exact ⟨a, rfl, h⟩

theorem fillGaps_canonical (h : fillGaps properties args task = .ok out) : Canonical properties out := by
  obtain ⟨extracted, -, h⟩ := bind_ok h
  exact coerceArgs_canonical h

/-- What a task names for an identifier is a string. -/
theorem extractArgs_identifier {name : String} {v : Json} (h : extractArgs task = .ok args)
    (hname : name ≠ "amount") (hv : args.get? name = some v) : ∃ s, v = .str s := by
  have hone : ∀ {k value : String}, (Dict.ofList [(k, Json.str value)]).get? name = some v → ∃ s, v = .str s := by
    intro k value hget
    rcases Dict.get?_insert_cases hget with ⟨-, rfl⟩ | ⟨-, hnone⟩
    · exact ⟨value, rfl⟩
    · cases hnone
  unfold extractArgs at h
  dsimp only at h
  split at h
  · obtain ⟨x, -, rfl⟩ := map_ok h
    rw [Dict.get?_insert_ne _ _ (Ne.symm hname)] at hv
    split at hv
    · exact hone hv
    · cases hv
  · obtain rfl := Except.ok.inj h
    split at hv
    · exact hone hv
    · cases hv

/-- One identifier resolved keeps the arguments coerced. -/
theorem resolveIdentifier_canonical {seen : List String} {fromTask kept : Args} {name : String}
    (hstring : properties.get? name = some (some .string))
    (hnamed : ∀ v, fromTask.get? name = some v → ∃ s, v = .str s) (hkept : Canonical properties kept)
    (h : resolveIdentifier seen fromTask kept name = .ok out) : Canonical properties out := by
  unfold resolveIdentifier at h
  dsimp only at h
  split at h
  · exact Except.ok.inj h ▸ hkept
  obtain ⟨text, -, rfl⟩ := map_ok h
  split
  · exact hkept
  split
  · intro k v hk
    rw [Dict.get?_erase] at hk
    split at hk
    · cases hk
    · exact hkept k v hk
  · rename_i hblank
    intro k v hk
    rcases Dict.get?_insert_cases hk with ⟨rfl, hv⟩ | ⟨-, hk⟩
    · cases hf : fromTask.get? k with
      | none => simp [hf, Json.isBlank] at hblank
      | some u =>
        obtain ⟨s, rfl⟩ := hnamed u hf
        rw [hf, Option.getD_some] at hv
        exact ⟨_, hstring, by rw [hv]; rfl⟩
    · exact hkept k v hk

theorem resolveIdentifiers_canonical {seen : List String} {fromTask : Args}
    (hstring : ∀ name ∈ identifierArgs required, properties.get? name = some (some .string))
    (hnamed : ∀ name ∈ identifierArgs required, ∀ v, fromTask.get? name = some v → ∃ s, v = .str s)
    (hargs : Canonical properties args) (h : resolveIdentifiers required args seen fromTask = .ok out) :
    Canonical properties out := by
  unfold resolveIdentifiers at h
  generalize identifierArgs required = names at hstring hnamed h
  induction names generalizing args with
  | nil =>
    cases h
    exact hargs
  | cons name names ih =>
    rw [List.foldlM_cons] at h
    obtain ⟨kept, hkept, h⟩ := bind_ok h
    have hone : Canonical properties kept := resolveIdentifier_canonical (hstring name (List.mem_cons_self ..))
      (hnamed name (List.mem_cons_self ..)) hargs hkept
    exact ih hone (fun n hn => hstring n (List.mem_cons_of_mem _ hn))
      (fun n hn => hnamed n (List.mem_cons_of_mem _ hn)) h

/-- The identifiers a tool requires are strings. -/
def StringIds {σ : Type} (tool : Tool σ) : Prop :=
  ∀ name ∈ identifierArgs tool.required, tool.properties.get? name = some (some .string)

omit [UnicodeData] in
theorem identifierArgs_ne_amount {name : String} (h : name ∈ identifierArgs required) : name ≠ "amount" := by
  rintro rfl
  have hsuffix := (List.mem_filter.1 h).2
  exact absurd hsuffix (by decide)

variable {σ : Type}

/-- A proposal names its tool, with canonical arguments. -/
theorem propose_ok {tool : Tool σ} {decision : Json} {observations : List Observation} {d : ModelDecision}
    (hids : StringIds tool) (h : propose tool decision task observations = .ok d) :
    d.tool = some tool.name ∧ Canonical tool.properties d.args := by
  obtain ⟨given, -, h⟩ := bind_ok h
  obtain ⟨filled, hfilled, h⟩ := bind_ok h
  obtain ⟨seen, -, h⟩ := bind_ok h
  obtain ⟨fromTask, hfrom, h⟩ := bind_ok h
  obtain ⟨args, hargs, h⟩ := bind_ok h
  have hcanonical : Canonical tool.properties args :=
    resolveIdentifiers_canonical hids
      (fun name hname v hv => extractArgs_identifier hfrom (identifierArgs_ne_amount hname) hv)
      (fillGaps_canonical hfilled) hargs
  dsimp only at h
  split at h <;>
  · obtain rfl := Except.ok.inj h
    exact ⟨rfl, hcanonical⟩

/-- **What the model can propose**: nothing, or an offered tool with canonical
arguments. -/
theorem decideTool_cases (tools unavailable : Dict String (Tool σ)) (reply : ModelReply) (task : String)
    (observations : List Observation) (hids : ∀ name tool, tools.get? name = some tool →
      tool.name = name ∧ StringIds tool) :
    let d := decideTool tools unavailable reply task observations
    (d.tool = none ∧ d.clarify = false) ∨
    ∃ name tool, d.tool = some name ∧ tools.get? name = some tool ∧ Canonical tool.properties d.args := by
  intro d
  have hnone : ∀ reason, (noTool reason).tool = none ∧ (noTool reason).clarify = false := fun _ => ⟨rfl, rfl⟩
  cases reply with
  | revoked => exact .inl (hnone _)
  | unreachable => exact .inl (hnone _)
  | unparseable => exact .inl (hnone _)
  | read decision =>
    cases hc : chosen tools unavailable decision task observations with
    | error e =>
      left
      simp only [d, decideTool, hc]
      exact hnone _
    | ok o =>
      cases o with
      | none =>
        left
        simp only [d, decideTool, hc]
        exact hnone _
      | some d' =>
        have hd : d = d' := by simp only [d, decideTool, hc]
        rw [hd]
        unfold chosen at hc
        obtain ⟨named, -, hc⟩ := bind_ok hc
        split at hc
        · cases hc
          exact .inl ⟨rfl, rfl⟩
        obtain ⟨name, -, hc⟩ := bind_ok hc
        cases name with
        | none => cases hc
        | some name =>
          dsimp only at hc
          split at hc
          · cases hc
            exact .inl ⟨rfl, rfl⟩
          cases ht : tools.get? name with
          | none =>
            simp only [ht] at hc
            cases hc
          | some tool =>
            simp only [ht] at hc
            obtain ⟨d'', hd'', heq⟩ := map_ok hc
            cases heq
            obtain ⟨htool, hstring⟩ := hids name tool ht
            obtain ⟨hname, hcanonical⟩ := propose_ok hstring hd''
            exact .inr ⟨name, tool, htool ▸ hname, ht, hcanonical⟩

end Llm

end AgentPlatform
