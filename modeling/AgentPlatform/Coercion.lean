/-
Coercion over a schema as it is written (`app/common/schema.py`).

`properties` maps a name to any JSON value: `declaredType` is what such a
value declares, and `coerceDeclared` is the loop of `coerce_args` over them.
It returns what `coerceArgs` returns on the schema `readProperties` reads,
unless an argument's declaration cannot be read (`coerceDeclared_ok_iff`).

Coercing is a projection: the result holds the declared keys that were given,
each with a value of its type (`coerce_admits`), and coercing it again changes
nothing (`Canonical.coerceArgs_eq`). The values of a text type that stay as
they are have no text: they hold an integer past the digit limit.
-/
import AgentPlatform.LlmFacts

namespace AgentPlatform

namespace Json

mutual

/-- The value holds an integer past the digit limit. -/
def holdsLongInt : Json → Bool
  | .int i => decide (Py.maxStrDigits < (Py.decimalDigits i.natAbs).length)
  | .arr xs => holdsLongIntItems xs
  | .obj fs => holdsLongIntFields fs
  | _ => false

def holdsLongIntItems : List Json → Bool
  | [] => false
  | x :: xs => x.holdsLongInt || holdsLongIntItems xs

def holdsLongIntFields : List (String × Json) → Bool
  | [] => false
  | (_, v) :: fs => v.holdsLongInt || holdsLongIntFields fs

end

end Json

/-! ## Schemas as they are written -/

/-- A schema's `properties`, unread. -/
abbrev Declarations := Dict String Json

/-- The type a name stands for in the comparisons of `_coerce`. -/
def JsonType.named (t : Json) : Option JsonType :=
  if t.pyEq (.str "number") then some .number
  else if t.pyEq (.str "integer") then some .integer
  else if t.pyEq (.str "boolean") then some .boolean
  else if t.pyEq (.str "string") then some .string
  else none

/-- `(spec or {}).get("type")` -/
def declaredType (spec : Json) : Except Exn (Option JsonType) := (getField (orEmpty spec) "type").map JsonType.named

variable [UnicodeData]

/-- One turn of the loop of `coerce_args`. -/
def coerceDeclaredStep (properties : Declarations) (out : Args) (item : String × Json) : Except Exn Args :=
  let spec := (properties.get? item.1).getD .null
  if spec.isNull then .ok out
  else do
    let t ← declaredType spec
    let v ← coerce item.2 t
    return out.insert item.1 v

/-- `coerce_args(properties, args)`, whatever the declarations are. -/
def coerceDeclared (properties : Declarations) (args : Args) : Except Exn Args :=
  args.entries.foldlM (coerceDeclaredStep properties) ∅

/-- The schema the declarations say. -/
def readProperties (properties : Declarations) : Properties :=
  properties.filterMap fun _ spec => if spec.isNull then none else some (declaredType spec).toOption.join

/-- `properties.get(key) is not None` -/
def Declares (properties : Declarations) (k : String) : Prop := ∃ spec, properties.get? k = some spec ∧ spec ≠ .null

/-- The declaration of a name, if there is one, is a dictionary, or as good as an empty one. -/
def Readable (properties : Declarations) (k : String) : Prop :=
  ∀ spec, properties.get? k = some spec → ∃ t, declaredType spec = .ok t

/-! ## Reading them -/

section Reading

omit [UnicodeData]

variable {properties : Declarations} {k : String}

theorem declaredType_null : declaredType .null = .ok none := rfl

theorem readProperties_get? : (readProperties properties).get? k = (properties.get? k).bind fun spec =>
    if spec.isNull then none else some (declaredType spec).toOption.join := Dict.get?_filterMap _ _ _

theorem readProperties_declares : k ∈ (readProperties properties).keys ↔ Declares properties k := by
  rw [Dict.mem_keys, readProperties_get?, Declares]
  cases hp : properties.get? k with
  | none => simp
  | some spec =>
    cases hs : spec.isNull with
    | true =>
      obtain rfl := Json.isNull_iff.1 hs
      simp [Json.isNull]
    | false =>
      have hne : spec ≠ .null := fun h => by simp [h, Json.isNull] at hs
      simp [hs, hne]

theorem readProperties_type {spec : Json} {t : JsonType} (hp : properties.get? k = some spec)
    (ht : declaredType spec = .ok (some t)) : (readProperties properties).get? k = some (some t) := by
  have hnull : spec.isNull = false := by
    refine Bool.eq_false_iff.2 fun h => ?_
    rw [Json.isNull_iff.1 h, declaredType_null] at ht
    cases ht
  simp [readProperties_get?, hp, hnull, ht, Except.toOption]

end Reading

section Loop

variable {properties : Declarations} {args out : Args}

/-- One turn, on what the declarations say. -/
theorem coerceDeclaredStep_ok_iff {acc : Args} {item : String × Json} :
    coerceDeclaredStep properties acc item = .ok out ↔
      Readable properties item.1 ∧ coerceStep (readProperties properties) acc item = .ok out := by
  obtain ⟨k, v⟩ := item
  unfold coerceDeclaredStep coerceStep Readable
  rw [readProperties_get?]
  cases hp : properties.get? k with
  | none => simp [Json.isNull]
  | some spec =>
    cases hnull : spec.isNull with
    | true =>
      obtain rfl := Json.isNull_iff.1 hnull
      simp [Json.isNull, declaredType_null]
    | false =>
      cases ht : declaredType spec with
      | error e => simp [hnull, ht, bind, Except.bind]
      | ok t => cases hv : coerce v t <;>
          simp [hnull, ht, hv, bind, Except.bind, pure, Except.pure, Except.map, Except.toOption]

theorem foldlM_coerceDeclaredStep_ok_iff : ∀ {l : List (String × Json)} {acc : Args},
    l.foldlM (coerceDeclaredStep properties) acc = .ok out ↔
      (∀ item ∈ l, Readable properties item.1) ∧ l.foldlM (coerceStep (readProperties properties)) acc = .ok out
  | [], acc => by simp
  | item :: l, acc => by
    simp only [List.foldlM_cons, List.forall_mem_cons, bind, Except.bind]
    constructor
    · intro h
      cases hs : coerceDeclaredStep properties acc item with
      | error e =>
        rw [hs] at h
        cases h
      | ok mid =>
        rw [hs] at h
        obtain ⟨hreadable, hstep⟩ := coerceDeclaredStep_ok_iff.1 hs
        obtain ⟨hrest, hfold⟩ := foldlM_coerceDeclaredStep_ok_iff.1 h
        exact ⟨⟨hreadable, hrest⟩, by rw [hstep]; exact hfold⟩
    · rintro ⟨⟨hreadable, hrest⟩, h⟩
      cases hs : coerceStep (readProperties properties) acc item with
      | error e =>
        rw [hs] at h
        cases h
      | ok mid =>
        rw [hs] at h
        rw [coerceDeclaredStep_ok_iff.2 ⟨hreadable, hs⟩]
        exact foldlM_coerceDeclaredStep_ok_iff.2 ⟨hrest, h⟩

/-- The loop over the declarations is the loop over the schema they say. -/
theorem coerceDeclared_ok_iff : coerceDeclared properties args = .ok out ↔
    (∀ k ∈ args.keys, Readable properties k) ∧ coerceArgs (readProperties properties) args = .ok out := by
  rw [coerceDeclared, foldlM_coerceDeclaredStep_ok_iff, coerceArgs, Dict.keys, List.forall_mem_map]

end Loop

/-! ## What the result holds -/

/-- The values of a type. -/
def Admits : JsonType → Json → Prop
  | .number, v => ∃ x, v = .float x
  | .integer, v => ∃ i, v = .int i
  | .boolean, v => ∃ b, v = .bool b
  | .string, v => ∃ s, v = .str s

mutual

/-- Only an integer past the digit limit has no `repr`. -/
theorem repr_isSome : ∀ v : Json, (Py.repr v).toOption.isSome = !v.holdsLongInt
  | .null => rfl
  | .bool _ => rfl
  | .float _ => rfl
  | .str _ => rfl
  | .int i => by
    by_cases h : Py.maxStrDigits < (Py.decimalDigits i.natAbs).length <;>
      simp [Py.repr, Py.strInt, Json.holdsLongInt, h, Except.toOption]
  | .arr xs => by
    rw [Py.repr, Json.holdsLongInt, ← reprItems_isSome xs]
    cases Py.reprItems xs <;> rfl
  | .obj fs => by
    rw [Py.repr, Json.holdsLongInt, ← reprFields_isSome fs]
    cases Py.reprFields fs <;> rfl

theorem reprItems_isSome : ∀ xs : List Json, (Py.reprItems xs).toOption.isSome = !Json.holdsLongIntItems xs
  | [] => rfl
  | x :: xs => by
    rw [Py.reprItems, Json.holdsLongIntItems, Bool.not_or, ← repr_isSome x, ← reprItems_isSome xs]
    cases Py.repr x <;> cases Py.reprItems xs <;> rfl

theorem reprFields_isSome : ∀ fs : List (String × Json),
    (Py.reprFields fs).toOption.isSome = !Json.holdsLongIntFields fs
  | [] => rfl
  | (_, v) :: fs => by
    rw [Py.reprFields, Json.holdsLongIntFields, Bool.not_or, ← repr_isSome v, ← reprFields_isSome fs]
    cases Py.repr v <;> cases Py.reprFields fs <;> rfl

end

/-- A value has a text unless it holds such an integer. -/
theorem str_error_iff {v : Json} : (∃ e, Py.str v = .error e) ↔ v.holdsLongInt = true := by
  have hrepr : (∃ e, Py.repr v = .error e) ↔ v.holdsLongInt = true := by
    rw [← Bool.not_eq_false', ← repr_isSome v]
    cases Py.repr v <;> simp [Except.toOption]
  cases v with
  | str s => simp [Py.str, Json.holdsLongInt]
  | _ => exact hrepr

/-- Under a type that needs its text, a value without one is kept. -/
theorem coerce_of_holdsLongInt {v : Json} {t : JsonType} (ht : t = .boolean ∨ t = .string)
    (h : v.holdsLongInt = true) : coerce v (some t) = .ok v := by
  obtain ⟨e, he⟩ := str_error_iff.2 h
  have hkind := Py.str_error he
  have hnull : v.isNull = false := by
    cases v <;> first | rfl | cases h
  have hbool : v.isBool = false := by
    cases v <;> first | rfl | cases h
  rcases ht with rfl | rfl <;> simp [coerce, hnull, hbool, he, swallow, hkind, Except.map]

/-- A coerced value has the declared type, or is `None`, or was kept because it has no text. -/
theorem coerce_admits {v w : Json} {t : JsonType} (h : coerce v (some t) = .ok w) :
    w = .null ∨ Admits t w ∨ ((t = .boolean ∨ t = .string) ∧ w = v ∧ v.holdsLongInt = true) := by
  have hkept {p : String → Json} (hv : swallow v ((Py.str v).map p) = .ok w) (hp : ∀ s, Admits t (p s))
      (ht : t = .boolean ∨ t = .string) :
      Admits t w ∨ ((t = .boolean ∨ t = .string) ∧ w = v ∧ v.holdsLongInt = true) := by
    rcases swallow_ok hv with hv | ⟨rfl, e, he⟩
    · obtain ⟨s, -, rfl⟩ := map_ok hv
      exact .inl (hp s)
    · refine .inr ⟨ht, rfl, ?_⟩
      cases hs : Py.str w with
      | ok s => simp [hs, Except.map] at he
      | error e' => exact str_error_iff.1 ⟨e', hs⟩
  unfold coerce at h
  split at h
  · rename_i hnull
    obtain rfl := Except.ok.inj h
    exact .inl (Json.isNull_iff.1 hnull)
  · cases t with
    | number =>
      rcases swallow_ok h with h | ⟨rfl, -⟩
      · obtain ⟨x, -, rfl⟩ := map_ok h
        exact .inr (.inl ⟨x, rfl⟩)
      · exact .inl rfl
    | integer =>
      rcases swallow_ok h with h | ⟨rfl, -⟩
      · obtain ⟨i, -, rfl⟩ := map_ok h
        exact .inr (.inl ⟨i, rfl⟩)
      · exact .inl rfl
    | boolean =>
      simp only at h
      split at h
      · rename_i hbool
        obtain rfl := Except.ok.inj h
        cases v with
        | bool b => exact .inr (.inl ⟨b, rfl⟩)
        | _ => cases hbool
      · exact .inr (hkept h (fun s => ⟨_, rfl⟩) (.inl rfl))
    | string => exact .inr (hkept h (fun s => ⟨s, rfl⟩) (.inr rfl))

/-- The result has the declared keys that were given. -/
theorem coerceArgs_keys {properties : Properties} {args out : Args} (h : coerceArgs properties args = .ok out)
    (k : String) : k ∈ out.keys ↔ k ∈ args.keys ∧ k ∈ properties.keys := by
  simp only [Dict.mem_keys]
  constructor
  · rintro ⟨v, hv⟩
    obtain ⟨t, w, ht, hw, -⟩ := coerceArgs_declared h hv
    exact ⟨⟨w, hw⟩, t, ht⟩
  · rintro ⟨⟨w, hw⟩, t, ht⟩
    obtain ⟨v, hv⟩ := coerceArgs_ok_iff.1 ⟨out, h⟩ k w t hw ht
    exact ⟨v, by rw [coerceArgs_get? h, hw, Option.bind_some, ht, Option.bind_some, hv]; rfl⟩

/-- Arguments that are coerced already are left as they are. -/
theorem Canonical.coerceArgs_eq {properties : Properties} {args : Args} (h : Canonical properties args) :
    coerceArgs properties args = .ok args := by
  have hloop : ∀ (l : List (String × Json)) (acc : Args), (∀ item ∈ l, args.get? item.1 = some item.2) →
      l.foldlM (coerceStep properties) acc = .ok (acc.insertAll l) := by
    intro l
    induction l with
    | nil => exact fun acc _ => rfl
    | cons item l ih =>
      intro acc hl
      obtain ⟨t, ht, hv⟩ := h item.1 item.2 (hl item (List.mem_cons_self ..))
      have hstep : coerceStep properties acc item = .ok (acc.insert item.1 item.2) := by
        simp [coerceStep, ht, hv, Except.map]
      rw [List.foldlM_cons, hstep]
      exact ih _ fun item hm => hl item (List.mem_cons_of_mem _ hm)
  rw [coerceArgs, hloop _ _ fun item hm => Dict.mem_entries.1 hm]
  exact congrArg _ args.ofList_entries

/-! ## A projection -/

/-- What `coerce_args` returns: the declared arguments, each of its type or absent,
and nothing left for a second coercion to change. -/
theorem coerceDeclared_projection (properties : Declarations) (args out : Args)
    (h : coerceDeclared properties args = .ok out) :
    (∀ k, k ∈ out.keys ↔ k ∈ args.keys ∧ Declares properties k) ∧
      (∀ k v spec t, out.get? k = some v → properties.get? k = some spec → declaredType spec = .ok (some t) →
        v = .null ∨ Admits t v ∨
          ((t = .boolean ∨ t = .string) ∧ args.get? k = some v ∧ v.holdsLongInt = true)) ∧
      coerceDeclared properties out = .ok out ∧
      (∀ task filled, Llm.fillGaps (readProperties properties) args task = .ok filled →
        coerceArgs (readProperties properties) filled = .ok filled) := by
  obtain ⟨hreadable, hargs⟩ := coerceDeclared_ok_iff.1 h
  have hkeys (k : String) : k ∈ out.keys ↔ k ∈ args.keys ∧ Declares properties k := by
    rw [coerceArgs_keys hargs, readProperties_declares]
  refine ⟨hkeys, fun k v spec t hv hp ht => ?_, ?_, fun task filled hfilled => ?_⟩
  · obtain ⟨t', w, ht', hw, hc⟩ := coerceArgs_declared hargs hv
    obtain rfl := Option.some.inj (ht'.symm.trans (readProperties_type hp ht))
    rcases coerce_admits hc with hnull | hadmits | ⟨htext, rfl, hlong⟩
    · exact .inl hnull
    · exact .inr (.inl hadmits)
    · exact .inr (.inr ⟨htext, hw, hlong⟩)
  · refine coerceDeclared_ok_iff.2 ⟨fun k hk => hreadable k ((hkeys k).1 hk).1, ?_⟩
    exact (Llm.coerceArgs_canonical hargs).coerceArgs_eq
  · exact (Llm.fillGaps_canonical hfilled).coerceArgs_eq

omit [UnicodeData]

/-- The declarations of one argument, of this type. -/
def declare (name type : String) : Declarations := Dict.ofList [(name, .obj [("type", .str type)])]

/-- An amount that comes as text is coerced once, and an argument that is not declared is dropped. -/
theorem coerceDeclared_projection_amount : let _ := asciiData
    let properties := declare "amount" "number"
    let args := Dict.ofList [("amount", .str "200"), ("note", .null)]
    ∃ out, coerceDeclared properties args = .ok out ∧ out.keys = ["amount"] ∧
      (∀ k, k ∈ out.keys ↔ k ∈ args.keys ∧ Declares properties k) ∧ coerceDeclared properties out = .ok out := by
  intro _ properties args
  obtain ⟨out, hout, hone⟩ := exists_ok (e := coerceDeclared properties args)
    (p := fun out => decide (out.keys = ["amount"])) (by decide)
  obtain ⟨hkeys, -, hagain, -⟩ := coerceDeclared_projection properties args out hout
  exact ⟨out, hout, of_decide_eq_true hone, hkeys, hagain⟩

theorem holdsLongInt_int {i : Int} : (Json.int i).holdsLongInt = true ↔ 10 ^ Py.maxStrDigits ≤ i.natAbs := by
  rw [Json.holdsLongInt, decide_eq_true_eq, ← not_le, Py.decimalDigits,
    Nat.length_toDigits_le_iff (by decide) (by decide), not_lt]

/-- A value without a text stays what it is under the type `string`. -/
theorem coerceDeclared_kept [UnicodeData] {name : String} {v : Json} (h : v.holdsLongInt = true) :
    coerceDeclared (declare name "string") (Dict.ofList [(name, v)]) = .ok (Dict.ofList [(name, v)]) := by
  have hspec : (declare name "string").get? name = some (.obj [("type", .str "string")]) := by
    rw [declare, Dict.ofList, Dict.insertAll, List.foldl_cons, List.foldl_nil, Dict.get?_insert_self]
  have htype : declaredType (.obj [("type", .str "string")]) = .ok (some .string) := by decide
  have hstep : coerceDeclaredStep (declare name "string") ∅ (name, v) = .ok (Dict.ofList [(name, v)]) := by
    simp only [coerceDeclaredStep, hspec, Option.getD_some, Json.isNull, Bool.false_eq_true, if_false, htype,
      coerce_of_holdsLongInt (.inr rfl) h, bind, Except.bind]
    rfl
  exact (List.foldlM_cons ..).trans (by rw [hstep]; rfl)

/-- An integer past the digit limit stays an integer. -/
theorem not_coerceDeclared_projection : let _ := asciiData
    ∃ out v, coerceDeclared (declare "note" "string") (Dict.ofList [("note", .int (10 ^ Py.maxStrDigits))]) = .ok out ∧
      out.get? "note" = some v ∧ v ≠ .null ∧ ¬ Admits .string v := by
  have hlong : (Json.int (10 ^ Py.maxStrDigits)).holdsLongInt = true := by
    rw [holdsLongInt_int, Int.natAbs_pow]
    exact Nat.pow_le_pow_left (by decide) _
  refine ⟨_, _, @coerceDeclared_kept asciiData "note" _ hlong, Dict.get?_insert_self .., nofun, ?_⟩
  rintro ⟨s, hs⟩
  cases hs

end AgentPlatform
