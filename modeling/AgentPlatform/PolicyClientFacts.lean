/-
When the two clients of the policy engine fail closed, whatever answers them.

Both look for the `result` of a success response whose body is an object
(`policyAnswer`). `decide` leaves its `try` with a result that need not be a
dictionary, and `tools_for_roles` makes a set of any true result, so each
misreads, or raises on, some of what an engine can answer. The two
`…_failsClosed_iff` say which answers those are.
-/
import AgentPlatform.PolicyClient

namespace AgentPlatform

/-- The `result` in the body of a success response, when the body is an
object that has one. -/
def policyAnswer (post : Post) (doc : Args) : Option Json :=
  match post.send (.obj [("input", .obj doc.entries)]) with
  | .ok resp =>
    if resp.isSuccess then
      match resp.json with
      | .ok (.obj fs) => Dict.find "result" fs
      | _ => none
    else none
  | .error _ => none

/-- The document `tools_for_roles` posts. -/
def toolsDoc (roles : List String) (tenant : Option String) : Args :=
  Dict.ofList [("roles", .arr (roles.map .str)),
    ("tenant", match tenant with
      | some t => .str t
      | none => .null)]

/-- `decide` returns, and answers anything but a refusal only on the word of
the engine. -/
def DecideFailsClosed [UnicodeData] (post : Post) (doc : Args) : Prop :=
  ∃ records r, PolicyClient.decide post doc = (records, .ok r) ∧
    (r.decision ≠ .deny → ∃ fs, policyAnswer post doc = some (.obj fs) ∧
      Dict.find "decision" fs = some (.str r.decision.value))

/-- `tools_for_roles` returns, and names a tool only when the engine answered
with a list of strings, whose set it then is. -/
def ToolsFailClosed (post : Post) (roles : List String) (tenant : Option String) : Prop :=
  ∃ tools, toolsForRoles post roles tenant = .ok tools ∧
    (tools ≠ [] → ∃ names : List String,
      policyAnswer post (toolsDoc roles tenant) = some (.arr (names.map .str)) ∧
      ∀ v, v ∈ tools ↔ v ∈ names.map Json.str)

/-- An answer `decide` can read: nothing, a false value, or an object whose
decision can be written out. -/
def DecideReads [UnicodeData] (v : Option Json) : Prop :=
  ∀ result, v = some result → result.truthy = true →
    ∃ fs, result = .obj fs ∧ ∃ text, Py.str ((Dict.find "decision" fs).getD .null) = .ok text

/-- An answer `tools_for_roles` can read: nothing, a false value, or a list of
strings. -/
def ToolsRead (v : Option Json) : Prop :=
  ∀ result, v = some result → result.truthy = true → ∃ names : List String, result = .arr (names.map .str)

/-! ## What each client makes of the answer -/

theorem obj_or_not (v : Json) : (∃ fs, v = .obj fs) ∨ ∀ fs, v ≠ .obj fs := by
  cases v <;> simp

theorem getField_error {v : Json} {k : String} (h : ∀ fs, v ≠ .obj fs) :
    getField v k = .error ⟨.attributeError, "object has no attribute 'get'"⟩ := by
  cases v with
  | obj fs => exact absurd rfl (h fs)
  | _ => rfl

/-- What `decide` takes out of its `try` is the answer, or `{}` for a false
one, unless it has failed closed there. -/
theorem fetchResult_cases (post : Post) (doc : Args) :
    (∃ e, PolicyClient.fetchResult post doc = .error e ∧ policyAnswer post doc = none) ∨
    PolicyClient.fetchResult post doc = .ok (orEmpty ((policyAnswer post doc).getD .null)) := by
  unfold PolicyClient.fetchResult policyAnswer
  cases hsend : post.send (.obj [("input", .obj doc.entries)]) with
  | error e => exact .inl ⟨e, rfl, rfl⟩
  | ok resp =>
    cases hok : resp.isSuccess with
    | false => exact .inl ⟨_, by simp only [bind, Except.bind, hok]; rfl, by simp [hok]⟩
    | true =>
      cases hjson : resp.json with
      | error e => exact .inl ⟨e, by simp [bind, Except.bind, hok, hjson], by simp [hok, hjson]⟩
      | ok body =>
        simp only [bind, Except.bind, hok, hjson, if_true]
        obtain ⟨fs, rfl⟩ | hobj := obj_or_not body
        · refine .inr ?_
          cases fs with
          | nil => rfl
          | cons e fs => simp [orEmpty, Json.truthy, getField, pure, Except.pure]
        · have hnone : (match (Except.ok body : Except Exn Json) with
              | .ok (.obj fs) => Dict.find "result" fs
              | _ => none) = none := by
            cases body <;> simp_all
          by_cases ht : body.truthy = true
          · -- a true body that is no object has no `get`
            exact .inl ⟨_, by rw [orEmpty, if_pos ht, getField_error hobj], hnone⟩
          · refine .inr ?_
            rw [hnone, orEmpty, if_neg ht]
            rfl

/-- `_opa_post` is the answer, or `None`. -/
theorem opaPost_eq (post : Post) (doc : Args) : opaPost post doc = (policyAnswer post doc).getD .null := by
  unfold opaPost policyAnswer
  cases post.send (.obj [("input", .obj doc.entries)]) with
  | error e => rfl
  | ok resp =>
    cases hok : resp.isSuccess with
    | false => simp [bind, Except.bind, hok, throw, throwThe, MonadExceptOf.throw]
    | true =>
      cases hjson : resp.json with
      | error e => simp [bind, Except.bind, hok, hjson]
      | ok body => cases body <;> simp [bind, Except.bind, hok, hjson, getField]

theorem toolsForRoles_eq (post : Post) (roles : List String) (tenant : Option String) :
    toolsForRoles post roles tenant = setOf ((policyAnswer post (toolsDoc roles tenant)).getD .null) := by
  rw [← opaPost_eq]
  rfl

theorem decisionOf_eq {raw : Json} {d : Decision} (h : decisionOf raw = some d) : raw = .str d.value := by
  cases raw with
  | str s =>
    simp only [decisionOf] at h
    split at h
    · cases h; simp_all [Decision.value]
    split at h
    · cases h; simp_all [Decision.value]
    split at h
    · cases h; simp_all [Decision.value]
    · cases h
  | _ => cases h

variable [UnicodeData]

/-- Reading a result returns exactly when it is an object whose decision can
be written out, and what it then allows is the object's decision. -/
theorem readResult_ok_iff (result : Json) :
    (∃ records r, PolicyClient.readResult result = (records, .ok r) ∧
      (r.decision ≠ .deny → ∃ fs, result = .obj fs ∧
        Dict.find "decision" fs = some (.str r.decision.value))) ↔
    ∃ fs, result = .obj fs ∧ ∃ text, Py.str ((Dict.find "decision" fs).getD .null) = .ok text := by
  cases result with
  | obj fs =>
    have hexists : (∃ gs, Json.obj fs = .obj gs ∧
        ∃ text, Py.str ((Dict.find "decision" gs).getD .null) = .ok text) ↔
        ∃ text, Py.str ((Dict.find "decision" fs).getD .null) = .ok text := by simp
    rw [hexists]
    simp only [PolicyClient.readResult, getField]
    cases hd : decisionOf ((Dict.find "decision" fs).getD .null) with
    | none =>
      cases hs : Py.str ((Dict.find "decision" fs).getD .null) with
      | error e => simp
      | ok text => exact ⟨fun _ => ⟨text, rfl⟩, fun _ => ⟨_, _, rfl, fun h => (h rfl).elim⟩⟩
    | some d =>
      have hraw := decisionOf_eq hd
      have hfind : d ≠ .deny → Dict.find "decision" fs = some (.str d.value) := by
        intro _
        cases hf : Dict.find "decision" fs with
        | none => simp [hf] at hraw
        | some v => simpa [hf] using hraw
      exact ⟨fun _ => ⟨_, by rw [hraw]; rfl⟩, fun _ => ⟨_, _, rfl, fun h => ⟨fs, rfl, hfind h⟩⟩⟩
  | _ => simp [PolicyClient.readResult, getField]

/-- `decide` fails closed exactly on the answers it can read. -/
theorem decide_failsClosed_iff (post : Post) (doc : Args) :
    DecideFailsClosed post doc ↔ DecideReads (policyAnswer post doc) := by
  obtain ⟨e, hf, ha⟩ | hf := fetchResult_cases post doc
  · refine ⟨fun _ result h => by simp [ha] at h, fun _ => ?_⟩
    exact ⟨_, _, by rw [PolicyClient.decide, hf], fun h => (h rfl).elim⟩
  · have hdec : PolicyClient.decide post doc =
        PolicyClient.readResult (orEmpty ((policyAnswer post doc).getD .null)) := by
      rw [PolicyClient.decide, hf]
    have hempty : ∃ records r, PolicyClient.readResult (.obj []) = (records, .ok r) ∧ r.decision = .deny :=
      ⟨_, _, rfl, rfl⟩
    cases ha : policyAnswer post doc with
    | none =>
      obtain ⟨records, r, hr, hdeny⟩ := hempty
      refine ⟨fun _ result h => (by cases h), fun _ => ⟨records, r, ?_, fun h => (h hdeny).elim⟩⟩
      rw [hdec, ha]
      exact hr
    | some result =>
      by_cases ht : result.truthy = true
      · have hread := readResult_ok_iff result
        simp only [DecideFailsClosed, hdec, ha, Option.getD_some, orEmpty, ht, if_true, Option.some.injEq]
        rw [hread]
        exact ⟨fun h _ hv _ => by cases hv; exact h, fun h => h result rfl ht⟩
      · obtain ⟨records, r, hr, hdeny⟩ := hempty
        refine ⟨fun _ v hv hv' => ?_, fun _ => ⟨records, r, ?_, fun h => (h hdeny).elim⟩⟩
        · cases hv; exact (ht hv').elim
        · rw [hdec, ha]
          simpa [orEmpty, ht] using hr

omit [UnicodeData] in
/-- The set made of a true result: the result is a list of strings exactly
when the set is that list's. -/
theorem setOf_ok_iff {result : Json} (ht : result.truthy = true) :
    (∃ tools, setOf result = .ok tools ∧ (tools ≠ [] → ∃ names : List String,
      result = .arr (names.map .str) ∧ ∀ v, v ∈ tools ↔ v ∈ names.map Json.str)) ↔
    ∃ names : List String, result = .arr (names.map .str) := by
  rw [setOf, if_pos ht]
  cases result with
  | arr xs =>
    constructor
    · rintro ⟨tools, h, hnames⟩
      have hne : xs ≠ [] := by rintro rfl; simp [Json.truthy] at ht
      by_cases hany : xs.any unhashable = true
      · simp [hany] at h
      · simp only [hany] at h
        cases h
        obtain ⟨names, hn, -⟩ := hnames hne
        exact ⟨names, hn⟩
    · rintro ⟨names, hn⟩
      cases hn
      have hany : (names.map Json.str).any unhashable = false := by simp [unhashable]
      exact ⟨names.map .str, by simp only [hany]; rfl, fun _ => ⟨names, rfl, fun _ => Iff.rfl⟩⟩
  | obj fs =>
    refine ⟨?_, by rintro ⟨_, ⟨⟩⟩⟩
    rintro ⟨tools, h, hnames⟩
    cases h
    obtain ⟨_, hn, -⟩ := hnames (by rw [Ne, List.map_eq_nil_iff]; rintro rfl; simp [Json.truthy] at ht)
    cases hn
  | str s =>
    refine ⟨?_, by rintro ⟨_, ⟨⟩⟩⟩
    rintro ⟨tools, h, hnames⟩
    cases h
    obtain ⟨_, hn, -⟩ := hnames (by
      rw [Ne, List.map_eq_nil_iff, String.toList_eq_nil_iff]; rintro rfl; simp [Json.truthy] at ht)
    cases hn
  | _ => simp

omit [UnicodeData] in
/-- `tools_for_roles` fails closed exactly on the answers it can read. -/
theorem toolsForRoles_failsClosed_iff (post : Post) (roles : List String) (tenant : Option String) :
    ToolsFailClosed post roles tenant ↔ ToolsRead (policyAnswer post (toolsDoc roles tenant)) := by
  unfold ToolsFailClosed
  rw [toolsForRoles_eq]
  cases ha : policyAnswer post (toolsDoc roles tenant) with
  | none => exact ⟨fun _ v h => (by cases h), fun _ => ⟨[], rfl, fun h => (h rfl).elim⟩⟩
  | some result =>
    by_cases ht : result.truthy = true
    · simp only [Option.getD_some, Option.some.injEq]
      rw [setOf_ok_iff ht]
      exact ⟨fun h _ hv _ => by cases hv; exact h, fun h => h result rfl ht⟩
    · refine ⟨fun _ v hv hv' => ?_, fun _ => ⟨[], ?_, fun h => (h rfl).elim⟩⟩
      · cases hv; exact (ht hv').elim
      · simp [setOf, ht]

/-- Each client fails closed exactly on the answers it can read. -/
theorem policyClients_failClosed_iff (decidePost toolsPost : Post) (doc : Args) (roles : List String)
    (tenant : Option String) :
    (DecideFailsClosed decidePost doc ↔ DecideReads (policyAnswer decidePost doc)) ∧
    (ToolsFailClosed toolsPost roles tenant ↔ ToolsRead (policyAnswer toolsPost (toolsDoc roles tenant))) :=
  ⟨decide_failsClosed_iff decidePost doc, toolsForRoles_failsClosed_iff toolsPost roles tenant⟩

omit [UnicodeData] in
/-- An engine that answers a list where the decision is expected, and one
that answers a number where the tools are. -/
theorem policyClients_not_failClosed :
    (¬ ∀ (_ : UnicodeData) (post : Post) (doc : Args), DecideFailsClosed post doc) ∧
    ¬ ∀ (post : Post) (roles : List String) (tenant : Option String), ToolsFailClosed post roles tenant := by
  let listed : Post := fun _ => .ok ⟨200, .ok (.obj [("result", .arr [.str "allow"])])⟩
  let counted : Post := fun _ => .ok ⟨200, .ok (.obj [("result", .int 5)])⟩
  constructor
  · intro h
    obtain ⟨_, _, hdecide, -⟩ := h asciiData listed (Dict.ofList [])
    cases hdecide
  · intro h
    obtain ⟨_, htools, -⟩ := h counted [] none
    cases htools

end AgentPlatform
