/-
Argument coercion (`app/common/schema.py`): keep the declared arguments, each
converted to its declared type.

`coerce` swallows the two exceptions the source catches (`TypeError` and
`ValueError`) and lets the third one a conversion raises through: an integer
too large for a double is an `OverflowError`, so `coerceArgs` can fail.

`coerceArgs_get?` is the one fact the rest of the development uses: the
result maps a key exactly when the schema declares it and the arguments have
it, to the coerced value. `coerce_idem`: coercing a coerced value again
changes nothing.
-/
import AgentPlatform.PyText

namespace AgentPlatform

/-- The types the schemas name. -/
inductive JsonType where
  | number
  | integer
  | boolean
  | string
  deriving DecidableEq

/-- A schema's `properties`: each declared argument and its type, when the
declaration names one. -/
abbrev Properties := Dict String (Option JsonType)

variable [UnicodeData]

omit [UnicodeData] in
/-- The `try` of `_coerce`: what `except (TypeError, ValueError)` returns. Any
other exception escapes. -/
def swallow (fallback : Json) : Except Exn Json → Except Exn Json
  | .ok v => .ok v
  | .error e => if e.kind = .typeError ∨ e.kind = .valueError then .ok fallback else .error e

/-- `str(value).strip().lower() in ("true", "1", "yes")`. -/
def saysTrue (s : String) : Bool :=
  decide ((Py.strip s.toList).map Char.toLower ∈ ["true".toList, "1".toList, "yes".toList])

/-- `_coerce(value, json_type)`. -/
def coerce (value : Json) (jsonType : Option JsonType) : Except Exn Json :=
  if value.isNull then .ok value else
  match jsonType with
  | some .number => swallow .null ((Py.float value).map .float)
  | some .integer => swallow .null ((Py.int value).map .int)
  | some .boolean =>
    if value.isBool then .ok value else swallow value ((Py.str value).map fun s => .bool (saysTrue s))
  | some .string => swallow value ((Py.str value).map .str)
  | none => .ok value

/-- One turn of the loop of `coerce_args`. -/
def coerceStep (properties : Properties) (out : Args) (item : String × Json) : Except Exn Args :=
  match properties.get? item.1 with
  | none => .ok out
  | some spec => (coerce item.2 spec).map fun v => out.insert item.1 v

/-- `coerce_args(properties, args)`. -/
def coerceArgs (properties : Properties) (args : Args) : Except Exn Args :=
  args.entries.foldlM (coerceStep properties) ∅

/-! ## What coercion keeps -/

theorem coerceStep_get? {properties : Properties} {out out' : Args} {k j : String} {v : Json}
    (h : coerceStep properties out (k, v) = .ok out') :
    out'.get? j = if k = j then
        (properties.get? k).elim (out.get? j) fun t => (coerce v t).toOption
      else out.get? j := by
  unfold coerceStep at h
  cases hp : properties.get? k with
  | none =>
    simp only [hp, Except.ok.injEq] at h
    simp [h]
  | some t =>
    simp only [hp] at h
    cases hc : coerce v t with
    | error e => simp [hc, Except.map] at h
    | ok w =>
      simp only [hc, Except.map, Except.ok.injEq] at h
      subst h
      rw [Dict.get?_insert]
      by_cases hkj : k = j <;> simp [hkj, hc, Except.toOption]

theorem coerceStep_ok {properties : Properties} {out out' : Args} {k : String} {v : Json}
    (h : coerceStep properties out (k, v) = .ok out') {t : Option JsonType}
    (hp : properties.get? k = some t) : ∃ w, coerce v t = .ok w := by
  unfold coerceStep at h
  simp only [hp] at h
  cases hc : coerce v t with
  | error e => simp [hc, Except.map] at h
  | ok w => exact ⟨w, rfl⟩

/-- The loop, from any dictionary built so far. -/
theorem foldlM_coerceStep {properties : Properties} : ∀ {l : List (String × Json)} {out out' : Args},
    (l.map Prod.fst).Nodup → l.foldlM (coerceStep properties) out = .ok out' → ∀ j,
      out'.get? j = (Dict.find j l).elim (out.get? j) fun v =>
        (properties.get? j).elim (out.get? j) fun t => (coerce v t).toOption
  | [], out, out', _, h, j => by
    simp only [List.foldlM_nil, pure, Except.pure, Except.ok.injEq] at h
    simp [Dict.find, h]
  | (k, v) :: l, out, out', hn, h, j => by
    simp only [List.map_cons, List.nodup_cons] at hn
    simp only [List.foldlM_cons, bind, Except.bind] at h
    cases hs : coerceStep properties out (k, v) with
    | error e => simp [hs] at h
    | ok mid =>
      simp only [hs] at h
      rw [foldlM_coerceStep hn.2 h j]
      by_cases hkj : k = j
      · subst hkj
        have hnone : Dict.find k l = none := Dict.find_eq_none.2 hn.1
        simp [Dict.find, hnone, coerceStep_get? hs]
      · simp [Dict.find, hkj, coerceStep_get? hs]

/-- **What the coerced arguments hold**: the declared ones that were given,
each coerced to its declared type. -/
theorem coerceArgs_get? {properties : Properties} {args out : Args}
    (h : coerceArgs properties args = .ok out) (k : String) :
    out.get? k = (args.get? k).bind fun v => (properties.get? k).bind fun t => (coerce v t).toOption := by
  have := foldlM_coerceStep args.nodup h k
  rw [this]
  cases hk : Dict.find k args.entries <;> cases hp : properties.get? k <;>
    simp [Dict.get?, hk, EmptyCollection.emptyCollection, Dict.empty, Dict.find]

theorem coerceArgs_declared {properties : Properties} {args out : Args}
    (h : coerceArgs properties args = .ok out) {k : String} {v : Json} (hk : out.get? k = some v) :
    ∃ t w, properties.get? k = some t ∧ args.get? k = some w ∧ coerce w t = .ok v := by
  rw [coerceArgs_get? h] at hk
  cases ha : args.get? k with
  | none => simp [ha] at hk
  | some w =>
    cases hp : properties.get? k with
    | none => simp [ha, hp] at hk
    | some t =>
      cases hc : coerce w t with
      | error e => simp [ha, hp, hc, Except.toOption] at hk
      | ok u =>
        simp only [ha, hp, hc, Option.bind_some, Except.toOption, Option.some.injEq] at hk
        exact ⟨t, w, rfl, rfl, hk ▸ hc⟩

/-- An argument the schema does not declare is dropped. -/
theorem coerceArgs_undeclared {properties : Properties} {args out : Args}
    (h : coerceArgs properties args = .ok out) {k : String} (hk : properties.get? k = none) :
    out.get? k = none := by
  rw [coerceArgs_get? h, hk]
  cases args.get? k <;> rfl

theorem foldlM_coerceStep_ok {properties : Properties} : ∀ {l : List (String × Json)} {out out' : Args},
    l.foldlM (coerceStep properties) out = .ok out' → ∀ k v t, (k, v) ∈ l →
      properties.get? k = some t → ∃ w, coerce v t = .ok w
  | (k, v) :: l, out, out', h, j, u, t, hm, hp => by
    simp only [List.foldlM_cons, bind, Except.bind] at h
    cases hs : coerceStep properties out (k, v) with
    | error e => simp [hs] at h
    | ok mid =>
      simp only [hs] at h
      simp only [List.mem_cons, Prod.mk.injEq] at hm
      rcases hm with ⟨rfl, rfl⟩ | hm
      · exact coerceStep_ok hs hp
      · exact foldlM_coerceStep_ok h j u t hm hp

theorem foldlM_coerceStep_total {properties : Properties} : ∀ {l : List (String × Json)} (out : Args),
    (∀ k v t, (k, v) ∈ l → properties.get? k = some t → ∃ w, coerce v t = .ok w) →
      ∃ out', l.foldlM (coerceStep properties) out = .ok out'
  | [], out, _ => ⟨out, rfl⟩
  | (k, v) :: l, out, h => by
    have hrest := fun out => foldlM_coerceStep_total (l := l) out fun k v t hm =>
      h k v t (List.mem_cons_of_mem _ hm)
    simp only [List.foldlM_cons, bind, Except.bind]
    cases hp : properties.get? k with
    | none =>
      simp only [coerceStep, hp]
      exact hrest out
    | some t =>
      obtain ⟨w, hw⟩ := h k v t (by simp) hp
      simp only [coerceStep, hp, hw, Except.map]
      exact hrest _

/-- Coercion succeeds exactly when every declared argument's does. -/
theorem coerceArgs_ok_iff {properties : Properties} {args : Args} :
    (∃ out, coerceArgs properties args = .ok out) ↔
      ∀ k v t, args.get? k = some v → properties.get? k = some t → ∃ w, coerce v t = .ok w := by
  constructor
  · rintro ⟨out, h⟩ k v t hk hp
    exact foldlM_coerceStep_ok h k v t (Dict.mem_entries.2 hk) hp
  · intro h
    exact foldlM_coerceStep_total _ fun k v t hm hp => h k v t (Dict.mem_entries.1 hm) hp

/-! ## Coercing twice -/

omit [UnicodeData] in
theorem swallow_ok {fallback v : Json} {r : Except Exn Json} (h : swallow fallback r = .ok v) :
    r = .ok v ∨ (v = fallback ∧ ∃ e, r = .error e) := by
  cases r with
  | ok w => exact .inl h
  | error e =>
    simp only [swallow] at h
    split at h
    · simp only [Except.ok.injEq] at h
      exact .inr ⟨h.symm, e, rfl⟩
    · cases h

omit [UnicodeData] in
theorem map_ok {α β : Type} {f : α → β} {r : Except Exn α} {v : β} (h : r.map f = .ok v) :
    ∃ a, r = .ok a ∧ f a = v := by
  cases r with
  | ok a => exact ⟨a, rfl, by simpa [Except.map] using h⟩
  | error e => simp [Except.map] at h

omit [UnicodeData] in
/-- A computation whose result passes a test has a result. -/
theorem exists_ok {ε α : Type} {e : Except ε α} {p : α → Bool} (h : e.toOption.map p = some true) :
    ∃ a, e = .ok a ∧ p a = true := by
  cases e with
  | error e => cases h
  | ok a => exact ⟨a, rfl, Option.some.inj h⟩

/-- What a value coerced to a number is. -/
theorem coerce_number {v w : Json} (h : coerce v (some .number) = .ok w) :
    w = .null ∨ ∃ x, w = .float x := by
  unfold coerce at h
  split at h
  · rename_i hn
    simp only [Except.ok.injEq] at h
    exact .inl (h ▸ Json.isNull_iff.1 hn)
  · rcases swallow_ok h with h | ⟨rfl, _⟩
    · obtain ⟨x, _, hx⟩ := map_ok h
      exact .inr ⟨x, hx.symm⟩
    · exact .inl rfl

/-- What a value coerced to a string is: nothing, a string, or a value that
has no text because it holds an integer past the digit limit. -/
theorem coerce_string {v w : Json} (h : coerce v (some .string) = .ok w) :
    w = .null ∨ (∃ s, w = .str s) ∨ (w = v ∧ ∃ e, Py.str v = .error e) := by
  unfold coerce at h
  split at h
  · rename_i hn
    simp only [Except.ok.injEq] at h
    exact .inl (h ▸ Json.isNull_iff.1 hn)
  · rcases swallow_ok h with h | ⟨rfl, e, he⟩
    · obtain ⟨s, _, hs⟩ := map_ok h
      exact .inr (.inl ⟨s, hs.symm⟩)
    · refine .inr (.inr ⟨rfl, ?_⟩)
      cases hs : Py.str w with
      | ok s => simp [hs, Except.map] at he
      | error e => exact ⟨e, rfl⟩

/-- Coercing a coerced value again changes nothing. -/
theorem coerce_idem {v w : Json} {t : Option JsonType} (h : coerce v t = .ok w) :
    coerce w t = .ok w := by
  have hv := h
  unfold coerce at h
  split at h
  · simp only [Except.ok.injEq] at h
    exact h ▸ hv
  match t with
  | none =>
    simp only [Except.ok.injEq] at h
    exact h ▸ hv
  | some .number =>
    rcases swallow_ok h with h | ⟨rfl, _⟩
    · obtain ⟨x, _, rfl⟩ := map_ok h
      rfl
    · rfl
  | some .integer =>
    rcases swallow_ok h with h | ⟨rfl, _⟩
    · obtain ⟨i, _, rfl⟩ := map_ok h
      rfl
    · rfl
  | some .boolean =>
    simp only at h
    split at h
    · simp only [Except.ok.injEq] at h
      exact h ▸ hv
    · rcases swallow_ok h with h | ⟨rfl, _⟩
      · obtain ⟨s, _, rfl⟩ := map_ok h
        rfl
      · exact hv
  | some .string =>
    rcases swallow_ok h with h | ⟨rfl, _⟩
    · obtain ⟨s, _, rfl⟩ := map_ok h
      rfl
    · exact hv

end AgentPlatform
