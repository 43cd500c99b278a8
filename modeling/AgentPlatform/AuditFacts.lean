/-
The two audit stores on the same records.

A row is selected by the statement exactly when the record matches and every
filter that is the empty string is met (`selected_iff`): in memory an empty
filter is no filter, the statement tests `IS NULL`.

`audits_agree_iff`: on at most 500 records the stores answer a query alike
exactly when the database takes the query's values and every record that is
within the limit in memory was taken and is bare where a filter is empty.
-/
import AgentPlatform.Audit

namespace AgentPlatform

/-! ## Records -/

/-- The fields that are text. -/
def textFields : List String := ["event", "sub", "tenant", "tool", "decision"]

/-- The text fields are absent or strings, and `ts` is a number. -/
structure TypedRecord (record : Args) : Prop where
  text : ∀ k ∈ textFields, ∀ v, record.get? k = some v → ∃ s, v = .str s
  ts : ∃ v, record.get? "ts" = some v ∧ ((∃ i, v = .int i) ∨ ∃ x, v = .float x)

/-- The string a field is, where it is there. -/
def textAt (record : Args) (k : String) : Option String :=
  match record.get? k with
  | some (.str s) => some s
  | _ => none

section Fields

variable {record record' : Args}

namespace TypedRecord

theorem fieldOf_eq (h : TypedRecord record) {k : String} (hk : k ∈ textFields) :
    fieldOf record k = .ofOption (textAt record k) := by
  unfold fieldOf textAt
  cases hv : record.get? k with
  | none => rfl
  | some v =>
    obtain ⟨s, rfl⟩ := h.text k hk v hv
    rfl

/-- Equal records have the same text. -/
theorem textAt_congr (h : TypedRecord record) (heq : record.pyEq record' = true)
    {k : String} (hk : k ∈ textFields) : textAt record k = textAt record' k := by
  have hfield := Args.pyEq_iff.1 heq k
  unfold textAt
  rcases Json.optEq_cases hfield with ⟨hv, hv'⟩ | ⟨v, v', hv, hv', he⟩
  · rw [hv, hv']
  · obtain ⟨s, rfl⟩ := h.text k hk v hv
    obtain rfl : v' = .str s := Json.pyEq_str.1 he
    rw [hv, hv']

end TypedRecord

end Fields

/-! ## What the stores hold -/

namespace AuditStore

theorem holding_eq {records : List Args} (h : records.length ≤ maxInMemory) :
    AuditStore.holding records = records.reverse := by
  induction records using List.reverseRecOn with
  | nil => rfl
  | append_singleton records r ih =>
    rw [List.length_append, List.length_singleton] at h
    rw [holding, List.foldl_append, List.reverse_append]
    show append r (holding records) = r :: records.reverse
    rw [ih (by omega), append]
    refine List.take_of_length_le ?_
    rw [List.length_cons, List.length_reverse]
    exact h

end AuditStore

/-- The row's values pass the query's tests. -/
def AuditQuery.selects (q : AuditQuery) (e : AuditEntry) : Bool :=
  passes q.event (some e.event) && passes q.tool e.tool && passes q.sub (some e.sub) && passes q.tenant (some e.tenant)

namespace PostgresAuditStore

variable [UnicodeData] (db : AuditDatabase)

/-- The table has an entry for each record that did not raise. -/
theorem holding_entries (records : List Args) :
    (holding db records).rows.map AuditRow.entry = records.filterMap fun r => (entry db r).toOption := by
  induction records using List.reverseRecOn with
  | nil => rfl
  | append_singleton records r ih =>
    rw [holding, List.foldl_append, List.filterMap_append, ← ih]
    show (append db r (holding db records)).2.rows.map _ = _
    unfold append
    cases he : entry db r with
    | error e => simp [he, Except.toOption]
    | ok e => simp [he, Except.toOption, AuditTable.insert]

/-- The entry of a record that a query finds. -/
def shown (q : AuditQuery) (record : Args) : Option AuditEntry := (entry db record).toOption.filter q.selects

/-- What a query may be given. -/
def Takes (q : AuditQuery) : Prop :=
  db.limits q.limit = true ∧
    ∀ s, some s ∈ [q.event, q.tool, q.sub, q.tenant] → (db.text (.str s)).isSome = true

omit [UnicodeData] in
theorem text_ofOption {o : Option String} (h : ∀ s, o = some s → (db.text (.str s)).isSome = true) :
    db.text (.ofOption o) = some o := by
  cases o with
  | none => exact db.text_null
  | some s =>
    obtain ⟨c, hc⟩ := Option.isSome_iff_exists.1 (h s rfl)
    rw [Json.ofOption, hc, db.text_str hc]

omit [UnicodeData] in
theorem isSome_of_text_ofOption {o c : Option String} (h : db.text (.ofOption o) = some c) {s : String}
    (hs : o = some s) : (db.text (.str s)).isSome = true := by
  subst hs
  exact Option.isSome_iff_exists.2 ⟨c, h⟩

variable {db} {q : AuditQuery}

/-- `SELECT record … ORDER BY id DESC LIMIT …` -/
theorem query_eq (h : Takes db q) (records : List Args) :
    query db q (holding db records) =
      .ok (((records.reverse.filterMap (shown db q)).take q.limit).map AuditEntry.record) := by
  have htext : ∀ o ∈ [q.event, q.tool, q.sub, q.tenant], db.text (.ofOption o) = some o := fun o ho =>
    text_ofOption db fun s hs => h.2 s (hs ▸ ho)
  simp only [List.forall_mem_cons] at htext
  obtain ⟨hevent, htool, hsub, htenant, -⟩ := htext
  simp only [query, hevent, htool, hsub, htenant, h.1]
  have hascending := (holding db records).ascending.filter fun r => q.selects r.entry
  have hsort : List.mergeSort _ (fun a b : AuditRow => decide (b.id ≤ a.id)) = _ :=
    Rows.mergeSort_descending (fun _ _ _ _ => rfl) hascending
  have hentries : ((holding db records).rows.filter fun r => q.selects r.entry).map AuditRow.entry =
      records.filterMap (shown db q) := by
    show _ = records.filterMap fun r => (entry db r).toOption.filter q.selects
    rw [← List.filter_filterMap, ← holding_entries, List.filter_map]
    rfl
  rw [List.filterMap_reverse, ← hentries, ← List.map_reverse, ← List.map_take, List.map_map, ← hsort]
  rfl

omit [UnicodeData] in
theorem takes_of_query {t : AuditTable} {found : List Args} (h : query db q t = .ok found) : Takes db q := by
  unfold query at h
  split at h
  · rename_i hevent htool hsub htenant hlimit
    refine ⟨hlimit, fun s hs => ?_⟩
    simp only [List.mem_cons, List.not_mem_nil, or_false] at hs
    rcases hs with hs | hs | hs | hs
    · exact isSome_of_text_ofOption db hevent hs.symm
    · exact isSome_of_text_ofOption db htool hs.symm
    · exact isSome_of_text_ofOption db hsub hs.symm
    · exact isSome_of_text_ofOption db htenant hs.symm
  · cases h

/-! ## Which records are taken -/

variable (db)

/-- The database takes the record: its `ts` is a double, its strings are text,
and the whole is JSON. -/
structure Stores (record : Args) : Prop where
  ts : ∀ i, record.get? "ts" = some (.int i) → (F64.ofInt i).isFinite = true
  text : ∀ k ∈ textFields, ∀ s, textAt record k = some s → (db.text (.str s)).isSome = true
  json : (db.json record).isSome = true

end PostgresAuditStore

section Typed

variable [UnicodeData] {record record' : Args}

theorem strOrEmpty_ofOption (o : Option String) : strOrEmpty (.ofOption o) = .ok (o.getD "") := by
  cases o with
  | none => rfl
  | some s =>
    by_cases hs : s = ""
    · subst hs
      rfl
    · have htrue : (Json.str s).truthy = true := by simpa [Json.truthy] using hs
      simp only [strOrEmpty, Json.ofOption, htrue, if_true, Option.getD_some]
      rfl

/-- A number's `ts` column: an integer may overflow it. -/
theorem floatOrZero_ts (h : TypedRecord record) :
    (∃ x, floatOrZero (fieldOf record "ts") = .ok x) ↔
      ∀ i, record.get? "ts" = some (.int i) → (F64.ofInt i).isFinite = true := by
  obtain ⟨v, hv, hnumber⟩ := h.ts
  have hfield : fieldOf record "ts" = v := by rw [fieldOf, hv, Option.getD_some]
  rw [hfield, hv]
  rcases hnumber with ⟨i, rfl⟩ | ⟨x, rfl⟩
  · simp only [Option.some.injEq, Json.int.injEq, forall_eq']
    unfold floatOrZero
    split
    · cases hfinite : (F64.ofInt i).isFinite <;> simp [Py.float, hfinite]
    · rename_i hzero
      have hi : i = 0 := by simpa [Json.truthy] using hzero
      subst hi
      refine iff_of_true ⟨_, rfl⟩ ?_
      decide +kernel
  · refine iff_of_true ?_ (by simp)
    unfold floatOrZero
    split <;> exact ⟨_, rfl⟩

theorem columns_eq (h : TypedRecord record) : columns record = (floatOrZero (fieldOf record "ts")).map fun ts =>
    ⟨ts, (textAt record "event").getD "", (textAt record "sub").getD "", (textAt record "tenant").getD "",
      .ofOption (textAt record "tool"), .ofOption (textAt record "decision")⟩ := by
  have hfield : ∀ k ∈ textFields, fieldOf record k = .ofOption (textAt record k) := fun k hk => h.fieldOf_eq hk
  simp only [textFields, List.forall_mem_cons] at hfield
  obtain ⟨hevent, hsub, htenant, htool, hdecision, -⟩ := hfield
  simp only [columns, hevent, hsub, htenant, htool, hdecision, strOrEmpty_ofOption]
  cases floatOrZero (fieldOf record "ts") <;> rfl

namespace PostgresAuditStore

variable {db : AuditDatabase}

omit [UnicodeData] in
theorem text_getD {o : Option String} (h : ∀ s, o = some s → (db.text (.str s)).isSome = true) :
    db.text (.str (o.getD "")) = some (some (o.getD "")) := by
  cases o with
  | none => exact db.text_empty
  | some s =>
    obtain ⟨c, hc⟩ := Option.isSome_iff_exists.1 (h s rfl)
    rw [Option.getD_some, hc, db.text_str hc]

omit [UnicodeData] in
theorem isSome_of_text_getD {o c : Option String} (h : db.text (.str (o.getD "")) = some c) (s : String)
    (hs : o = some s) : (db.text (.str s)).isSome = true := by
  subst hs
  exact Option.isSome_iff_exists.2 ⟨c, h⟩

/-- The entry of a record that is taken. -/
theorem entry_ok (h : TypedRecord record) (hs : Stores db record) : ∃ ts stored, db.json record = some stored ∧
    entry db record = .ok ⟨ts, (textAt record "event").getD "", (textAt record "sub").getD "",
      (textAt record "tenant").getD "", textAt record "tool", textAt record "decision", stored⟩ := by
  obtain ⟨ts, hts⟩ := (floatOrZero_ts h).2 hs.ts
  obtain ⟨stored, hstored⟩ := Option.isSome_iff_exists.1 hs.json
  have htext := hs.text
  simp only [textFields, List.forall_mem_cons] at htext
  obtain ⟨hevent, hsub, htenant, htool, hdecision, -⟩ := htext
  refine ⟨ts, stored, hstored, ?_⟩
  simp only [entry, columns_eq h, hts, Except.map, text_getD hevent, text_getD hsub, text_getD htenant,
    text_ofOption db htool, text_ofOption db hdecision, hstored]

theorem stores_of_entry (h : TypedRecord record) {e : AuditEntry} (he : entry db record = .ok e) :
    Stores db record := by
  rw [entry, columns_eq h] at he
  cases hts : floatOrZero (fieldOf record "ts") with
  | error x =>
    rw [hts] at he
    cases he
  | ok ts =>
    simp only [hts, Except.map] at he
    split at he
    · rename_i hevent hsub htenant htool hdecision hjson
      refine ⟨(floatOrZero_ts h).1 ⟨ts, hts⟩, ?_, Option.isSome_iff_exists.2 ⟨_, hjson⟩⟩
      simp only [textFields, List.forall_mem_cons]
      exact ⟨isSome_of_text_getD hevent, isSome_of_text_getD hsub, isSome_of_text_getD htenant,
        fun s => isSome_of_text_ofOption db htool, fun s => isSome_of_text_ofOption db hdecision,
        fun k hk => absurd hk List.not_mem_nil⟩
    · cases he

omit [UnicodeData] in
/-- Equal records are taken alike. -/
theorem Stores.congr (hs : Stores db record') (h : TypedRecord record) (h' : TypedRecord record')
    (heq : record.pyEq record' = true) : Stores db record := by
  refine ⟨fun i hi => ?_, fun k hk s hks => ?_, db.json_value (Args.pyEq_symm heq) hs.json⟩
  · rcases Json.optEq_cases (Args.pyEq_iff.1 heq "ts") with ⟨hnone, -⟩ | ⟨v, v', hv, hv', he⟩
    · rw [hi] at hnone
      cases hnone
    · obtain rfl : .int i = v := Option.some.inj (hi.symm.trans hv)
      obtain ⟨w, hw, hnumber⟩ := h'.ts
      obtain rfl : v' = w := Option.some.inj (hv'.symm.trans hw)
      rcases hnumber with ⟨j, rfl⟩ | ⟨x, rfl⟩
      · obtain rfl : i = j := by simpa [Json.pyEq, Json.scalarEq, Json.asNum, Json.numEq] using he
        exact hs.ts i hv'
      · have hscaled : x.scaled = some (i * F64.unit) := by
          simpa [Json.pyEq, Json.scalarEq, Json.asNum, Json.numEq] using he
        exact F64.ofInt_isFinite_of_scaled hscaled
  · exact hs.text k hk s ((h.textAt_congr heq hk).symm.trans hks)

end PostgresAuditStore

/-! ## Which records are selected -/

omit [UnicodeData] in
/-- A filter in memory: the empty string is none. -/
theorem differs_eq_false (h : TypedRecord record) {k : String} (hk : k ∈ textFields) (value : Option String) :
    differs record k value = false ↔ ∀ s, value = some s → s ≠ "" → textAt record k = some s := by
  cases value with
  | none => simp [differs, given]
  | some s =>
    have heq : (Json.ofOption (textAt record k)).pyEq (.str s) = true ↔ textAt record k = some s := by
      rw [Json.pyEq_str_right]
      cases textAt record k <;> simp [Json.ofOption]
    have hvalue : Json.ofOption (some s) = .str s := rfl
    simp only [differs, given, h.fieldOf_eq hk, hvalue, Bool.and_eq_false_iff, decide_eq_false_iff_not,
      Bool.not_eq_false', heq, Option.some.injEq, forall_eq']
    tauto

omit [UnicodeData] in
/-- A filter of the statement on a column that is `''` where the field is absent. -/
theorem passes_defaulted (o value : Option String) : passes value (some (o.getD "")) = true ↔
    (∀ s, value = some s → s ≠ "" → o = some s) ∧ (value = some "" → o.getD "" = "") := by
  cases value with
  | none => simp [passes]
  | some s =>
    by_cases hs : s = ""
    · simp [passes, hs]
    · cases o <;> simp [passes, hs, eq_comm]

omit [UnicodeData] in
/-- A filter of the statement on a column that is `NULL` where the field is absent. -/
theorem passes_nullable (o value : Option String) : passes value o = true ↔
    (∀ s, value = some s → s ≠ "" → o = some s) ∧ (value = some "" → o = some "") := by
  cases value with
  | none => simp [passes]
  | some s => by_cases hs : s = "" <;> simp [passes, hs]

/-- Where a filter is the empty string, the record has nothing there: no event
or user, or the empty one; the empty tool. -/
structure AuditQuery.Bare (q : AuditQuery) (record : Args) : Prop where
  event : q.event = some "" → (textAt record "event").getD "" = ""
  sub : q.sub = some "" → (textAt record "sub").getD "" = ""
  tool : q.tool = some "" → textAt record "tool" = some ""

omit [UnicodeData] in
/-- `record.get("tenant") or ""` -/
theorem orEmpty_ofOption (o : Option String) :
    (if (Json.ofOption o).truthy then Json.ofOption o else .str "") = .str (o.getD "") := by
  cases o with
  | none => rfl
  | some s => by_cases hs : s = "" <;> simp [Json.ofOption, Json.truthy, hs]

omit [UnicodeData] in
theorem matches_iff (h : TypedRecord record) (q : AuditQuery) : q.matches record = true ↔
    (∀ s, q.event = some s → s ≠ "" → textAt record "event" = some s) ∧
    (∀ s, q.tool = some s → s ≠ "" → textAt record "tool" = some s) ∧
    (∀ s, q.sub = some s → s ≠ "" → textAt record "sub" = some s) ∧
    ∀ tenant, q.tenant = some tenant → (textAt record "tenant").getD "" = tenant := by
  have hevent := differs_eq_false h (k := "event") (by decide) q.event
  have htool := differs_eq_false h (k := "tool") (by decide) q.tool
  have hsub := differs_eq_false h (k := "sub") (by decide) q.sub
  rw [← hevent, ← htool, ← hsub]
  unfold AuditQuery.matches
  cases differs record "event" q.event with
  | true => simp
  | false =>
    cases differs record "tool" q.tool with
    | true => simp
    | false =>
      cases differs record "sub" q.sub with
      | true => simp
      | false =>
        cases q.tenant with
        | none => simp
        | some tenant =>
          simp only [Bool.false_eq_true, if_false, h.fieldOf_eq (k := "tenant") (by decide), orEmpty_ofOption,
            Json.pyEq_str_right, Json.str.injEq, Option.some.injEq, forall_eq', true_and]

omit [UnicodeData] in
/-- A row is selected exactly when its record matches and is bare. -/
theorem selects_iff (h : TypedRecord record) (q : AuditQuery) (ts : F64) (decision : Option String) (stored : Args) :
    q.selects ⟨ts, (textAt record "event").getD "", (textAt record "sub").getD "", (textAt record "tenant").getD "",
      textAt record "tool", decision, stored⟩ = true ↔ q.matches record = true ∧ q.Bare record := by
  have htenant : passes q.tenant (some ((textAt record "tenant").getD "")) = true ↔
      ∀ tenant, q.tenant = some tenant → (textAt record "tenant").getD "" = tenant := by
    cases q.tenant <;> simp [passes]
  rw [matches_iff h]
  simp only [AuditQuery.selects, Bool.and_eq_true, passes_defaulted _ q.event, passes_nullable _ q.tool,
    passes_defaulted _ q.sub, htenant]
  constructor
  · rintro ⟨⟨⟨⟨hevent, hbare⟩, htool, hbare'⟩, hsub, hbare''⟩, htenant⟩
    exact ⟨⟨hevent, htool, hsub, htenant⟩, hbare, hbare'', hbare'⟩
  · rintro ⟨⟨hevent, htool, hsub, htenant⟩, hbare⟩
    exact ⟨⟨⟨⟨hevent, hbare.event⟩, htool, hbare.tool⟩, hsub, hbare.sub⟩, htenant⟩

namespace PostgresAuditStore

variable {db : AuditDatabase} {q : AuditQuery}

theorem shown_isSome_iff (h : TypedRecord record) :
    (shown db q record).isSome = true ↔ Stores db record ∧ q.matches record = true ∧ q.Bare record := by
  constructor
  · intro hshown
    obtain ⟨e, he⟩ := Option.isSome_iff_exists.1 hshown
    obtain ⟨hentry, hselects⟩ := Option.filter_eq_some_iff.1 he
    cases hok : entry db record with
    | error x =>
      rw [hok] at hentry
      cases hentry
    | ok e' =>
      rw [hok] at hentry
      obtain rfl : e' = e := Option.some.inj hentry
      have hs := stores_of_entry h hok
      obtain ⟨ts, stored, -, heq⟩ := entry_ok h hs
      obtain rfl := Except.ok.inj (hok.symm.trans heq)
      exact ⟨hs, (selects_iff h q ..).1 hselects⟩
  · rintro ⟨hs, hselects⟩
    obtain ⟨ts, stored, -, heq⟩ := entry_ok h hs
    have hfilter : shown db q record = some _ :=
      Option.filter_eq_some_iff.2 ⟨congrArg Except.toOption heq, (selects_iff h q ..).2 hselects⟩
    rw [hfilter, Option.isSome_some]

/-- What is found is equal to what was appended. -/
theorem shown_record (h : TypedRecord record) (hkept : db.Keeps record) {e : AuditEntry}
    (he : shown db q record = some e) : record.pyEq e.record = true := by
  obtain ⟨hs, -, -⟩ := (shown_isSome_iff h).1 (Option.isSome_iff_exists.2 ⟨e, he⟩)
  obtain ⟨ts, stored, hjson, heq⟩ := entry_ok h hs
  obtain ⟨hentry, -⟩ := Option.filter_eq_some_iff.1 he
  rw [heq] at hentry
  obtain rfl := Option.some.inj hentry
  exact hkept stored hjson

/-- Equal records are found alike. -/
theorem shown_congr (h : TypedRecord record) (h' : TypedRecord record') (heq : record.pyEq record' = true)
    (hshown : (shown db q record').isSome = true) : (shown db q record).isSome = true := by
  rw [shown_isSome_iff h'] at hshown
  rw [shown_isSome_iff h]
  obtain ⟨hs, hmatches, hbare⟩ := hshown
  have htext : ∀ k ∈ textFields, textAt record k = textAt record' k := fun k hk => h.textAt_congr heq hk
  simp only [textFields, List.forall_mem_cons] at htext
  obtain ⟨hevent, hsub, htenant, htool, -, -⟩ := htext
  rw [matches_iff h'] at hmatches
  rw [matches_iff h, hevent, hsub, htenant, htool]
  exact ⟨hs.congr h h' heq, hmatches, ⟨hevent ▸ hbare.event, hsub ▸ hbare.sub, htool ▸ hbare.tool⟩⟩

end PostgresAuditStore

end Typed

/-! ## The two stores -/

section Stores

variable [UnicodeData] (db : AuditDatabase)

/-- Both stores, after the same records, return equal lists. -/
def AuditsAgree (records : List Args) (q : AuditQuery) : Prop :=
  ∃ found, PostgresAuditStore.query db q (PostgresAuditStore.holding db records) = .ok found ∧
    List.Forall₂ (fun r r' => r.pyEq r' = true) (AuditStore.query q (AuditStore.holding records)) found

/-- A record the memory store returns is one the database does: it was taken,
and is bare where a filter is empty. -/
def Found (q : AuditQuery) (newer : List Args) (record : Args) : Prop :=
  q.matches record = true → newer.countP q.matches < q.limit →
    PostgresAuditStore.Stores db record ∧ q.Bare record

variable {db} {records : List Args} {q : AuditQuery}

/-- What the memory store returns the database finds, where they agree. -/
theorem shown_of_agree (hlen : records.length ≤ maxInMemory) (htyped : ∀ r ∈ records, TypedRecord r)
    (hkept : ∀ r ∈ records, db.Keeps r) (h : AuditsAgree db records q) : PostgresAuditStore.Takes db q ∧
      ∀ r ∈ (records.reverse.filter q.matches).take q.limit, (PostgresAuditStore.shown db q r).isSome = true := by
  have htyped' : ∀ r ∈ records.reverse, TypedRecord r := fun r hr => htyped r (List.mem_reverse.1 hr)
  obtain ⟨found, hquery, heq⟩ := h
  rw [AuditStore.holding_eq hlen] at heq
  have htakes := PostgresAuditStore.takes_of_query hquery
  rw [PostgresAuditStore.query_eq htakes, Except.ok.injEq] at hquery
  subst hquery
  refine ⟨htakes, fun r hr => ?_⟩
  -- the record has an equal among those the statement returns
  obtain ⟨r', hr', hrr'⟩ := Rows.exists_of_forall₂ heq hr
  obtain ⟨e, he, rfl⟩ := List.mem_map.1 hr'
  obtain ⟨r₀, hr₀, he₀⟩ := List.mem_filterMap.1 (List.mem_of_mem_take he)
  have hback := PostgresAuditStore.shown_record (htyped' r₀ hr₀) (hkept r₀ (List.mem_reverse.1 hr₀)) he₀
  have hsame : r.pyEq r₀ = true := Args.pyEq_trans hrr' (Args.pyEq_symm hback)
  have hmem : r ∈ records.reverse := (List.mem_filter.1 (List.mem_of_mem_take hr)).1
  exact PostgresAuditStore.shown_congr (htyped' r hmem) (htyped' r₀ hr₀) hsame (Option.isSome_iff_exists.2 ⟨e, he₀⟩)

/-- Where the database finds what the memory store returns, it returns the same. -/
theorem agree_of_shown (hlen : records.length ≤ maxInMemory) (htyped : ∀ r ∈ records, TypedRecord r)
    (hkept : ∀ r ∈ records, db.Keeps r) (htakes : PostgresAuditStore.Takes db q)
    (hall : ∀ r ∈ (records.reverse.filter q.matches).take q.limit, (PostgresAuditStore.shown db q r).isSome = true) :
    AuditsAgree db records q := by
  have htyped' : ∀ r ∈ records.reverse, TypedRecord r := fun r hr => htyped r (List.mem_reverse.1 hr)
  have hmatches : ∀ r ∈ records.reverse, (PostgresAuditStore.shown db q r).isSome = true → q.matches r = true :=
    fun r hr h => ((PostgresAuditStore.shown_isSome_iff (htyped' r hr)).1 h).2.1
  refine ⟨_, PostgresAuditStore.query_eq htakes records, ?_⟩
  rw [AuditStore.holding_eq hlen, AuditStore.query, ← Rows.take_filter_congr hmatches hall, List.forall₂_map_right_iff]
  have hrecord : ∀ r ∈ records.reverse, TypedRecord r ∧ db.Keeps r := fun r hr =>
    ⟨htyped' r hr, hkept r (List.mem_reverse.1 hr)⟩
  have hrows := (List.forall₂_and_left _ _).2 ⟨fun r hr => hrecord r (List.mem_filter.1 hr).1,
    Rows.forall₂_filterMap (PostgresAuditStore.shown db q) records.reverse⟩
  exact List.forall₂_take _ (hrows.imp fun r e h => PostgresAuditStore.shown_record h.1.1 h.1.2 h.2)

/-- **The audit stores answer a query alike exactly when the database takes its
values, and took every record that is within the limit, and each of these is
bare where a filter is empty.** -/
theorem audits_agree_iff (hlen : records.length ≤ 500) (htyped : ∀ r ∈ records, TypedRecord r)
    (hkept : ∀ r ∈ records, db.Keeps r) : AuditsAgree db records q ↔
      PostgresAuditStore.Takes db q ∧ Throughout (Found db q) records.reverse := by
  have hfound : Throughout (Found db q) records.reverse ↔
      ∀ r ∈ (records.reverse.filter q.matches).take q.limit, (PostgresAuditStore.shown db q r).isSome = true := by
    refine Rows.forall_mem_take_filter.symm.trans (forall₂_congr fun r hr => ?_)
    obtain ⟨hmem, hmatches⟩ := List.mem_filter.1 (List.mem_of_mem_take hr)
    rw [PostgresAuditStore.shown_isSome_iff (htyped r (List.mem_reverse.1 hmem)), and_iff_right hmatches]
  rw [hfound]
  exact ⟨shown_of_agree hlen htyped hkept, fun h => agree_of_shown hlen htyped hkept h.1 h.2⟩

end Stores

/-- A database that refuses a NUL in a string and a value that is not equal to
itself. -/
def plainDatabase : AuditDatabase where
  text
    | .null => some none
    | .str s => if Char.ofNat 0 ∈ s.toList then none else some (some s)
    | _ => none
  json a := if a.pyEq a then some a else none
  limits n := decide (n < 2 ^ 63)
  text_null := rfl
  text_empty := rfl
  text_str h := by
    dsimp only at h
    split at h
    · cases h
    · exact (Option.some.inj h).symm
  json_value {a b} h _ := by
    rw [if_pos (Args.pyEq_trans (Args.pyEq_symm h) h)]
    rfl

theorem plainDatabase_keeps (record : Args) : plainDatabase.Keeps record := by
  intro stored h
  simp only [plainDatabase] at h
  split at h
  · rename_i hself
    obtain rfl := Option.some.inj h
    exact hself
  · cases h

def loginRecord : Args :=
  Dict.ofList [("ts", .int 1), ("event", .str "auth.login"), ("sub", .str "alice"), ("tenant", .str "acme")]

def toolRecord : Args :=
  Dict.ofList [("ts", .int 2), ("event", .str "tool.allowed"), ("sub", .str "alice"), ("tenant", .str "acme"),
    ("tool", .str "crm.customer.read"), ("decision", .str "allow")]

theorem loginRecord_typed : TypedRecord loginRecord where
  text := by
    simp only [textFields, List.forall_mem_cons]
    exact ⟨fun v hv => ⟨_, (Option.some.inj hv).symm⟩, fun v hv => ⟨_, (Option.some.inj hv).symm⟩,
      fun v hv => ⟨_, (Option.some.inj hv).symm⟩, fun v hv => (by cases hv), fun v hv => (by cases hv),
      fun k hk => absurd hk List.not_mem_nil⟩
  ts := ⟨_, rfl, .inl ⟨1, rfl⟩⟩

theorem toolRecord_typed : TypedRecord toolRecord where
  text := by
    simp only [textFields, List.forall_mem_cons]
    exact ⟨fun v hv => ⟨_, (Option.some.inj hv).symm⟩, fun v hv => ⟨_, (Option.some.inj hv).symm⟩,
      fun v hv => ⟨_, (Option.some.inj hv).symm⟩, fun v hv => ⟨_, (Option.some.inj hv).symm⟩,
      fun v hv => ⟨_, (Option.some.inj hv).symm⟩, fun k hk => absurd hk List.not_mem_nil⟩
  ts := ⟨_, rfl, .inl ⟨2, rfl⟩⟩

theorem plainDatabase_stores {record : Args}
    (ht : ∀ i, record.get? "ts" = some (.int i) → (F64.ofInt i).isFinite = true)
    (hs : ∀ k ∈ textFields, ∀ s, textAt record k = some s → Char.ofNat 0 ∉ s.toList)
    (he : record.encodable = true) : PostgresAuditStore.Stores plainDatabase record := by
  refine ⟨ht, fun k hk s h => ?_, ?_⟩
  · simp only [plainDatabase, hs k hk s h, if_false, Option.isSome_some]
  · simp only [plainDatabase, Args.pyEq_refl he, if_true, Option.isSome_some]

/-- What was allowed in a tenant: the login is not among it. -/
theorem allowed_agree : @AuditsAgree asciiData plainDatabase [loginRecord, toolRecord]
    { limit := 100, event := some "tool.allowed", tenant := some "acme" } := by
  let _ := asciiData
  refine (audits_agree_iff (by decide) ?_ fun r _ => plainDatabase_keeps r).2 ⟨⟨rfl, ?_⟩, ?_⟩
  · simp only [List.forall_mem_cons]
    exact ⟨loginRecord_typed, toolRecord_typed, fun r hr => absurd hr List.not_mem_nil⟩
  · intro s hs
    simp only [List.mem_cons, Option.some.injEq, reduceCtorEq, List.not_mem_nil, or_false, false_or] at hs
    rcases hs with rfl | rfl <;> rfl
  · intro newer r older heq _ _
    have hr : r ∈ [toolRecord, loginRecord] := by
      show r ∈ [loginRecord, toolRecord].reverse
      rw [heq]
      exact List.mem_append_right _ (List.mem_cons_self ..)
    refine ⟨?_, ⟨fun h => absurd (Option.some.inj h) (by decide), fun h => (by cases h), fun h => (by cases h)⟩⟩
    simp only [List.mem_cons, List.not_mem_nil, or_false] at hr
    rcases hr with rfl | rfl
    · refine plainDatabase_stores (fun i hi => ?_) (by decide +kernel) (by decide +kernel)
      obtain rfl : 2 = i := Json.int.inj (Option.some.inj hi)
      decide +kernel
    · refine plainDatabase_stores (fun i hi => ?_) (by decide +kernel) (by decide +kernel)
      obtain rfl : 1 = i := Json.int.inj (Option.some.inj hi)
      decide +kernel

/-- Asked for the empty event, the database finds no login. -/
theorem emptyEvent_differ : ¬ @AuditsAgree asciiData plainDatabase
    [loginRecord] { limit := 100, event := some "" } := by
  let _ := asciiData
  intro h
  have htyped : ∀ r ∈ [loginRecord], TypedRecord r := fun r hr => List.mem_singleton.1 hr ▸ loginRecord_typed
  obtain ⟨-, hall⟩ := shown_of_agree (by decide) htyped (fun r _ => plainDatabase_keeps r) h
  have hshown := hall loginRecord (List.mem_singleton_self _)
  have hbare := ((PostgresAuditStore.shown_isSome_iff loginRecord_typed).1 hshown).2.2.event rfl
  revert hbare
  decide

end AgentPlatform
