/-
The amount `_extract_args` reads out of a task (`app/agent/llm.py`).

The pattern takes the first run of digits that stands free: no word character
and no dash on either side (`amountAt_eq_some_iff`). A fraction behind the run
is taken along when it stands free on its right, and is left behind when it
does not; and a point or a comma with more digits does not keep a run from
standing free. So what is matched may be a piece of a longer number.
`writesAmount_iff` says for which texts it is not.
-/
import AgentPlatform.Identifiers

namespace AgentPlatform

namespace Llm

variable [UnicodeData]

/-! ## One match -/

/-- What the pattern takes behind a run of digits that stands free. -/
def fractionOf : List Char → List Char
  | '.' :: t =>
    if leadingDigits t ≠ [] ∧ isWordOrDash (t.drop (leadingDigits t).length).head? = false then
      '.' :: leadingDigits t
    else []
  | _ => []

theorem isWordOrDash_eq_false {c : Option Char} : isWordOrDash c = false ↔ isWord c = false ∧ c ≠ some '-' := by
  simp [isWordOrDash]

variable [LawfulUnicode]

theorem isWordOrDash_of_decimal {d : Char} (h : (UnicodeData.decimal d).isSome = true) :
    isWordOrDash (some d) = true := by
  simp [isWordOrDash, isWord_some, LawfulUnicode.isWord_of_decimal d h]

theorem isWordOrDash_point : isWordOrDash (some '.') = false := by
  rw [isWordOrDash_eq_false, isWord_some, LawfulUnicode.isWord_ascii _ (by decide)]
  decide

/-- The fraction that the pattern tries first. -/
theorem digitsThen_fraction {whole t : List Char} :
    (digitsThen t fun digits rest => if isWordOrDash rest.head? then none else some (whole ++ '.' :: digits)) =
      if leadingDigits t ≠ [] ∧ isWordOrDash (t.drop (leadingDigits t).length).head? = false then
        some (whole ++ '.' :: leadingDigits t) else none := by
  rw [digitsThen_eq fun ds d after _ hd => if_pos (isWordOrDash_of_decimal hd)]
  by_cases hne : leadingDigits t = []
  · simp [hne]
  · cases isWordOrDash (t.drop (leadingDigits t).length).head? <;> simp [hne]

/-- What the pattern does with a run of digits and what follows it. -/
theorem take_whole {whole after : List Char} :
    ((match after with
      | '.' :: t => digitsThen t fun digits rest =>
        if isWordOrDash rest.head? then none else some (whole ++ '.' :: digits)
      | _ => none).or (if isWordOrDash after.head? then none else some whole)) =
      if isWordOrDash after.head? then none else some (whole ++ fractionOf after) := by
  unfold fractionOf
  split
  · rename_i t
    rw [digitsThen_fraction, List.head?_cons, isWordOrDash_point]
    split <;> simp
  · simp

theorem amountAt_eq {before : Option Char} {s : List Char} : amountAt before s =
    if isWordOrDash before = true ∨ leadingDigits s = [] ∨
      isWordOrDash (s.drop (leadingDigits s).length).head? = true then none
    else some (leadingDigits s ++ fractionOf (s.drop (leadingDigits s).length)) := by
  have htake : amountAt before s = if isWordOrDash before then none else
      digitsThen s fun whole after => if isWordOrDash after.head? then none else some (whole ++ fractionOf after) :=
    congrArg (fun m => if isWordOrDash before then none else digitsThen s m)
      (funext fun _ => funext fun _ => take_whole)
  rw [htake, digitsThen_eq fun ds d after _ hd => if_pos (isWordOrDash_of_decimal hd)]
  by_cases hbefore : isWordOrDash before = true
  · simp [hbefore]
  by_cases hne : leadingDigits s = []
  · simp [hne]
  · cases isWordOrDash (s.drop (leadingDigits s).length).head? <;> simp [hbefore, hne]

/-- A character that is no word character is no digit. -/
theorem decimal_of_free {s : List Char} (h : isWordOrDash s.head? = false) :
    ∀ d ∈ s.head?, (UnicodeData.decimal d).isSome = false := by
  intro d hd
  rw [Option.mem_def.1 hd] at h
  exact Bool.eq_false_iff.2 fun hdec => by simp [isWordOrDash_of_decimal hdec] at h

omit [LawfulUnicode] in
theorem leadingDigits_isDigits {s : List Char} (h : leadingDigits s ≠ []) : IsDigits (leadingDigits s) :=
  ⟨h, fun _ hd => decimal_of_mem_leadingDigits hd⟩

omit [LawfulUnicode] in
theorem leadingDigits_append_drop (s : List Char) : leadingDigits s ++ s.drop (leadingDigits s).length = s :=
  List.prefix_iff_eq_append.1 (List.takeWhile_prefix _)

/-- A match at the start of a text: a run of digits that stands free, and the fraction behind it. -/
theorem amountAt_eq_some_iff {before : Option Char} {s n : List Char} : amountAt before s = some n ↔
    ∃ ds v, s = ds ++ v ∧ IsDigits ds ∧ isWordOrDash before = false ∧ isWordOrDash v.head? = false ∧
      n = ds ++ fractionOf v := by
  rw [amountAt_eq]
  constructor
  · intro h
    split at h
    · cases h
    · rename_i hfree
      simp only [not_or, Bool.not_eq_true] at hfree
      exact ⟨leadingDigits s, _, (leadingDigits_append_drop s).symm, leadingDigits_isDigits hfree.2.1, hfree.1,
        hfree.2.2, (Option.some.inj h).symm⟩
  · rintro ⟨ds, v, rfl, hds, hbefore, hv, rfl⟩
    rw [leadingDigits_append hds.2 (decimal_of_free hv), List.drop_left, if_neg]
    simp [hbefore, hv, hds.1]

/-- The fraction taken: all the digits behind a point, if no word character and no dash follows them. -/
theorem fractionOf_cases (v : List Char) :
    (∃ fs w, v = '.' :: (fs ++ w) ∧ IsDigits fs ∧ isWordOrDash w.head? = false ∧ fractionOf v = '.' :: fs) ∨
    fractionOf v = [] ∧ ∀ fs w, v = '.' :: (fs ++ w) → IsDigits fs → isWordOrDash w.head? = true := by
  unfold fractionOf
  split
  · rename_i t
    split
    · rename_i hfraction
      exact .inl ⟨leadingDigits t, _, by rw [leadingDigits_append_drop], leadingDigits_isDigits hfraction.1,
        hfraction.2, rfl⟩
    · rename_i hnone
      refine .inr ⟨rfl, fun fs w ht hfs => ?_⟩
      by_contra hfree
      rw [Bool.not_eq_true] at hfree
      obtain ⟨-, rfl⟩ := List.cons_eq_cons.1 ht
      rw [leadingDigits_append hfs.2 (decimal_of_free hfree), List.drop_left] at hnone
      exact hnone ⟨hfs.1, hfree⟩
  · rename_i hnone
    exact .inr ⟨rfl, fun fs w ht => (hnone _ ht).elim⟩

/-! ## The search -/

/-- Where a search stops: the text before the match, the match, and the text after it. -/
@[ext]
structure AmountMatch where
  before : List Char
  numeral : List Char
  after : List Char
  deriving DecidableEq

omit [LawfulUnicode] in
/-- `re.search` of the amount, behind a part of the text that has no match. -/
def searchAmount (pre : List Char) : List Char → Option AmountMatch
  | [] => none
  | c :: s =>
    match amountAt pre.getLast? (c :: s) with
    | some numeral => some ⟨pre, numeral, (c :: s).drop numeral.length⟩
    | none => searchAmount (pre ++ [c]) s

omit [LawfulUnicode] in
theorem findAmount_eq : ∀ (s pre : List Char),
    findAmount pre.getLast? s = (searchAmount pre s).map fun m => String.ofList m.numeral
  | [], _ => rfl
  | c :: s, pre => by
    rw [findAmount, searchAmount]
    cases hc : amountAt pre.getLast? (c :: s) with
    | some n => rfl
    | none =>
      have ih := findAmount_eq s (pre ++ [c])
      rwa [List.getLast?_concat] at ih

/-- A run of digits that stands free in a text. -/
structure Standing (text u ds v : List Char) : Prop where
  split : text = u ++ (ds ++ v)
  digits : IsDigits ds
  left : isWordOrDash u.getLast? = false
  right : isWordOrDash v.head? = false

/-- The first run of digits that stands free in a text. -/
def FirstStanding (text u ds v : List Char) : Prop :=
  Standing text u ds v ∧ ∀ u' ds' v', Standing text u' ds' v' → u.length ≤ u'.length

/-- The digits that stand free at a place are all of its digits. -/
theorem digits_unique {ds v ds' v' : List Char} (h : ds ++ v = ds' ++ v') (hds : IsDigits ds) (hds' : IsDigits ds')
    (hv : isWordOrDash v.head? = false) (hv' : isWordOrDash v'.head? = false) : ds = ds' ∧ v = v' := by
  have heq : ds = ds' := by
    rw [← leadingDigits_append hds.2 (decimal_of_free hv), h, leadingDigits_append hds'.2 (decimal_of_free hv')]
  exact ⟨heq, List.append_cancel_left (heq ▸ h)⟩

theorem FirstStanding.unique {text u ds v u' ds' v' : List Char} (h : FirstStanding text u ds v)
    (h' : FirstStanding text u' ds' v') : u = u' ∧ ds = ds' ∧ v = v' := by
  have hlen : u.length = u'.length := Nat.le_antisymm (h.2 _ _ _ h'.1) (h'.2 _ _ _ h.1)
  obtain ⟨hu, hrest⟩ := List.append_inj (h.1.split.symm.trans h'.1.split) hlen
  exact ⟨hu, digits_unique hrest h.1.digits h'.1.digits h.1.right h'.1.right⟩

theorem amountAt_eq_none {pre s u ds v : List Char} (h : amountAt pre.getLast? s = none)
    (hstanding : Standing (pre ++ s) u ds v) (hlen : pre.length ≤ u.length) : pre.length < u.length := by
  refine Nat.lt_of_le_of_ne hlen fun heq => ?_
  obtain ⟨rfl, rfl⟩ := List.append_inj hstanding.split heq
  rw [amountAt_eq_some_iff.2 ⟨ds, v, rfl, hstanding.digits, hstanding.left, hstanding.right, rfl⟩] at h
  cases h

/-- The search finds the first run that stands free. The induction is on what is left of the text. -/
theorem searchAmount_some : ∀ {s pre : List Char} {m : AmountMatch}, searchAmount pre s = some m →
    ∃ ds v, Standing (pre ++ s) m.before ds v ∧ m.numeral = ds ++ fractionOf v ∧
      m.after = v.drop (fractionOf v).length ∧
      ∀ u' ds' v', Standing (pre ++ s) u' ds' v' → pre.length ≤ u'.length → m.before.length ≤ u'.length
  | c :: s, pre, m, h => by
    rw [searchAmount] at h
    cases hc : amountAt pre.getLast? (c :: s) with
    | some n =>
      rw [hc] at h
      obtain rfl := Option.some.inj h
      obtain ⟨ds, v, hs, hds, hleft, hright, rfl⟩ := amountAt_eq_some_iff.1 hc
      refine ⟨ds, v, ⟨by rw [hs], hds, hleft, hright⟩, rfl, ?_, fun u' ds' v' _ hlen => hlen⟩
      rw [hs, List.length_append, ← List.drop_drop, List.drop_left]
    | none =>
      rw [hc] at h
      obtain ⟨ds, v, hstanding, hnumeral, hafter, hfirst⟩ := searchAmount_some h
      rw [List.append_assoc, List.singleton_append] at hstanding hfirst
      refine ⟨ds, v, hstanding, hnumeral, hafter, fun u' ds' v' h' hlen => hfirst u' ds' v' h' ?_⟩
      rw [List.length_append, List.length_singleton]
      exact amountAt_eq_none hc h' hlen

theorem searchAmount_none : ∀ {s pre : List Char}, searchAmount pre s = none →
    ∀ u ds v, Standing (pre ++ s) u ds v → u.length < pre.length
  | [], pre, _, u, ds, v, h => by
    have hlen := congrArg List.length h.split
    have hpos := List.length_pos_iff.2 h.digits.1
    simp only [List.length_append, List.length_nil] at hlen
    omega
  | c :: s, pre, hnone, u, ds, v, h => by
    rw [searchAmount] at hnone
    cases hc : amountAt pre.getLast? (c :: s) with
    | some n => simp [hc] at hnone
    | none =>
      rw [hc] at hnone
      by_contra hlen
      have hlt := amountAt_eq_none hc h (Nat.le_of_not_lt hlen)
      rw [← List.singleton_append, ← List.append_assoc] at h
      have := searchAmount_none hnone u ds v h
      simp only [List.length_append, List.length_singleton] at this
      omega

/-- **What a search of a text finds**: the first run of digits that stands free, with its fraction. -/
theorem searchAmount_iff {text : List Char} {m : AmountMatch} : searchAmount [] text = some m ↔
    ∃ ds v, FirstStanding text m.before ds v ∧ m.numeral = ds ++ fractionOf v ∧
      m.after = v.drop (fractionOf v).length := by
  have hfound {m : AmountMatch} (h : searchAmount [] text = some m) : ∃ ds v, FirstStanding text m.before ds v ∧
      m.numeral = ds ++ fractionOf v ∧ m.after = v.drop (fractionOf v).length := by
    obtain ⟨ds, v, hstanding, hnumeral, hafter, hfirst⟩ := searchAmount_some h
    exact ⟨ds, v, ⟨hstanding, fun u' ds' v' h' => hfirst u' ds' v' h' (Nat.zero_le _)⟩, hnumeral, hafter⟩
  refine ⟨hfound, ?_⟩
  rintro ⟨ds, v, hfirst, hnumeral, hafter⟩
  cases h : searchAmount [] text with
  | none => exact absurd (searchAmount_none h _ _ _ hfirst.1) (Nat.not_lt_zero _)
  | some m' =>
    obtain ⟨ds', v', hfirst', hnumeral', hafter'⟩ := hfound h
    obtain ⟨hbefore, rfl, rfl⟩ := hfirst'.unique hfirst
    rw [AmountMatch.ext hbefore (hnumeral'.trans hnumeral.symm) (hafter'.trans hafter.symm)]

/-! ## Reading the numeral -/

/-- `\d+(?:\.\d+)?`, a whole text of it. -/
def IsNumeral (n : List Char) : Prop :=
  ∃ whole, IsDigits whole ∧ (n = whole ∨ ∃ digits, IsDigits digits ∧ n = whole ++ '.' :: digits)

theorem isNumeral_append_fractionOf {ds : List Char} (h : IsDigits ds) (v : List Char) :
    IsNumeral (ds ++ fractionOf v) := by
  rcases fractionOf_cases v with ⟨fs, w, -, hfs, -, hv⟩ | ⟨hv, -⟩
  · exact ⟨ds, h, .inr ⟨fs, hfs, by rw [hv]⟩⟩
  · exact ⟨ds, h, .inl (by rw [hv, List.append_nil])⟩

omit [LawfulUnicode] in
theorem IsNumeral.ne_nil {n : List Char} (h : IsNumeral n) : n ≠ [] := by
  obtain ⟨whole, hwhole, rfl | ⟨digits, -, rfl⟩⟩ := h
  · exact hwhole.1
  · simp

omit [LawfulUnicode] in
theorem IsNumeral.char {n : List Char} (h : IsNumeral n) {c : Char} (hc : c ∈ n) :
    (UnicodeData.decimal c).isSome = true ∨ c = '.' := by
  obtain ⟨whole, hwhole, rfl | ⟨digits, hdigits, rfl⟩⟩ := h
  · exact .inl (hwhole.2 c hc)
  · rcases List.mem_append.1 hc with hc | hc
    · exact .inl (hwhole.2 c hc)
    · rcases List.mem_cons.1 hc with rfl | hc
      · exact .inr rfl
      · exact .inl (hdigits.2 c hc)

theorem isSpace_of_decimal {c : Char} (h : (UnicodeData.decimal c).isSome = true) : UnicodeData.isSpace c = false :=
  Bool.eq_false_iff.2 fun hspace => by
    simpa [LawfulUnicode.isWord_of_decimal c h] using LawfulUnicode.not_isWord_of_isSpace c hspace

theorem ne_of_decimal {c d : Char} (h : (UnicodeData.decimal c).isSome = true) (hascii : d.toNat < 128)
    (hdigit : d.isDigit = false) : c ≠ d := by
  rintro rfl
  rw [LawfulUnicode.decimal_ascii c hascii, hdigit] at h
  cases h

omit [UnicodeData] [LawfulUnicode] in
theorem takeSign_eq {s : List Char} (hminus : s.head? ≠ some '-') (hplus : s.head? ≠ some '+') :
    Py.takeSign s = (false, s) := by
  unfold Py.takeSign
  split
  · exact absurd rfl hminus
  · exact absurd rfl hplus
  · rfl

omit [LawfulUnicode] in
theorem filterMap_decimal_ne_nil {ds : List Char} (h : IsDigits ds) : ds.filterMap UnicodeData.decimal ≠ [] := by
  obtain ⟨d, ds, rfl⟩ := List.exists_cons_of_ne_nil h.1
  obtain ⟨n, hn⟩ := Option.isSome_iff_exists.1 (h.2 d (List.mem_cons_self ..))
  rw [List.filterMap_cons_some hn]
  exact List.cons_ne_nil _ _

theorem readMagnitude_isNumeral {n : List Char} (h : IsNumeral n) : ∃ x, Py.readMagnitude false n = some x := by
  have hend : ∀ {ds : List Char}, IsDigits ds → Py.takeDigits ds = (ds.filterMap UnicodeData.decimal, []) := by
    intro ds hds
    simpa using @Py.takeDigits_append _ [] nofun ds hds.2
  unfold Py.readMagnitude
  dsimp only
  split
  · exact ⟨_, rfl⟩
  split
  · exact ⟨_, rfl⟩
  obtain ⟨whole, hwhole, rfl | ⟨digits, hdigits, rfl⟩⟩ := h
  · simp [hend hwhole, filterMap_decimal_ne_nil hwhole, Py.takeExponent]
  · have hpoint : ∀ d ∈ ('.' :: digits).head?, (UnicodeData.decimal d).isSome = false :=
      decimal_of_free isWordOrDash_point
    simp [Py.takeDigits_append hpoint hwhole.2, hend hdigits, filterMap_decimal_ne_nil hwhole, Py.takeExponent]

/-- `float()` reads every numeral. -/
theorem floatOfStr_isNumeral {n : List Char} (h : IsNumeral n) : ∃ x, Py.floatOfStr (String.ofList n) = .ok x := by
  have hspace : ∀ c ∈ n, UnicodeData.isSpace c = false := by
    intro c hc
    rcases h.char hc with hdec | rfl
    · exact isSpace_of_decimal hdec
    · exact LawfulUnicode.isSpace_ascii _ (by decide) (by decide)
  have hunderscore : '_' ∉ n := by
    intro hc
    rcases h.char hc with hdec | hpoint
    · exact ne_of_decimal hdec (by decide) (by decide) rfl
    · exact absurd hpoint (by decide)
  have hsign : Py.takeSign n = (false, n) := by
    obtain ⟨whole, hwhole, hn⟩ := h
    obtain ⟨d, ds, rfl⟩ := List.exists_cons_of_ne_nil hwhole.1
    have hd := hwhole.2 d (List.mem_cons_self ..)
    have hhead : n.head? = some d := by
      rcases hn with rfl | ⟨digits, -, rfl⟩ <;> rfl
    refine takeSign_eq ?_ ?_ <;> rw [hhead, ne_eq, Option.some_inj] <;> exact ne_of_decimal hd (by decide) (by decide)
  obtain ⟨x, hx⟩ := readMagnitude_isNumeral h
  refine ⟨x, ?_⟩
  rw [Py.floatOfStr, String.toList_ofList, Py.strip_eq_self hspace, Py.dropUnderscores_eq_self hunderscore]
  simp [hsign, hx]

/-- The amount of a task in which a number is found. -/
theorem extractArgs_of_match {task : String} {m : AmountMatch} (h : searchAmount [] task.toList = some m) :
    ∃ args x, extractArgs task = .ok args ∧ Py.floatOfStr (String.ofList m.numeral) = .ok x ∧
      args.get? "amount" = some (.float x) := by
  obtain ⟨ds, v, hfirst, hnumeral, -⟩ := searchAmount_iff.1 h
  obtain ⟨x, hx⟩ := floatOfStr_isNumeral (hnumeral ▸ isNumeral_append_fractionOf hfirst.1.digits v)
  have hfind : findAmount none task.toList = some (String.ofList m.numeral) := by
    simpa [h] using findAmount_eq task.toList []
  have hargs : ∃ ids : Args, extractArgs task = .ok (ids.insert "amount" (.float x)) := by
    rw [extractArgs]
    simp only [hfind, hx, Except.map]
    exact ⟨_, rfl⟩
  obtain ⟨ids, hids⟩ := hargs
  exact ⟨_, x, hids, hx, Dict.get?_insert_self ..⟩

omit [LawfulUnicode] in
/-- A task in which none is found has no amount. -/
theorem extractArgs_of_none {task : String} (h : searchAmount [] task.toList = none) :
    ∃ args, extractArgs task = .ok args ∧ args.get? "amount" = none := by
  have hfind : findAmount none task.toList = none := by
    simpa [h] using findAmount_eq task.toList []
  rw [extractArgs]
  simp only [hfind]
  refine ⟨_, rfl, ?_⟩
  split
  · rename_i value _
    have hkey : argumentOf value.toList ≠ "amount" := by
      unfold argumentOf
      split <;> decide
    rw [Dict.ofList, Dict.insertAll, List.foldl_cons, List.foldl_nil, Dict.get?_insert_ne _ _ hkey]
    rfl
  · rfl

/-! ## Whole numbers -/

/-- What joins the digits of a number. -/
def IsMark (c : Char) : Prop := c = '.' ∨ c = ','

omit [LawfulUnicode] in
/-- The text ends with digits that are joined to what follows it. -/
def JoinedLeft (u : List Char) : Prop :=
  ∃ u' d mark, u = u' ++ [d, mark] ∧ (UnicodeData.decimal d).isSome = true ∧ IsMark mark

omit [LawfulUnicode] in
/-- The text starts with digits that are joined to what comes before it. -/
def JoinedRight (v : List Char) : Prop :=
  ∃ mark d v', v = mark :: d :: v' ∧ IsMark mark ∧ (UnicodeData.decimal d).isSome = true

omit [LawfulUnicode] in
/-- What was matched is a whole number of the text, and no part of an identifier. -/
structure AmountMatch.Maximal (m : AmountMatch) : Prop where
  numeral : IsNumeral m.numeral
  left : isWordOrDash m.before.getLast? = false
  right : isWordOrDash m.after.head? = false
  joined_left : ¬ JoinedLeft m.before
  joined_right : ¬ JoinedRight m.after
  identifier : ∀ pre token post, m.before ++ (m.numeral ++ m.after) = pre ++ (token ++ post) → IsToken token →
    m.before.length + m.numeral.length ≤ pre.length ∨ pre.length + token.length ≤ m.before.length

omit [LawfulUnicode] in
/-- An amount that is extracted is a number the task says. -/
def WritesAmount (task : String) : Prop :=
  ∀ args amount, extractArgs task = .ok args → args.get? "amount" = some amount →
    ∃ m x, searchAmount [] task.toList = some m ∧ task.toList = m.before ++ (m.numeral ++ m.after) ∧
      Py.floatOfStr (String.ofList m.numeral) = .ok x ∧ amount = .float x ∧ m.Maximal

omit [LawfulUnicode] in
/-- A run of digits that stands free is a whole number, or the whole part of one. -/
def Plain (u v : List Char) : Prop :=
  ¬ JoinedLeft u ∧ (JoinedRight v →
    ∃ fs w, v = '.' :: (fs ++ w) ∧ IsDigits fs ∧ isWordOrDash w.head? = false ∧ ¬ JoinedRight w)

theorem isPrefix_not_mem {n : List Char} (h : IsNumeral n) {c : Char} (hc : IsPrefix c) : c ∉ n := by
  intro hmem
  rcases h.char hmem with hdec | rfl
  · rw [decimal_of_isPrefix hc] at hdec
    cases hdec
  · rcases hc with h | h | h <;> exact absurd h (by decide)

/-- A numeral that stands free is no part of an identifier. -/
theorem not_in_token {u n v pre token post : List Char} (hn : IsNumeral n) (hleft : isWordOrDash u.getLast? = false)
    (h : u ++ (n ++ v) = pre ++ (token ++ post)) (htoken : IsToken token) :
    u.length + n.length ≤ pre.length ∨ pre.length + token.length ≤ u.length := by
  obtain ⟨p, rest, hp, hprefix⟩ : ∃ p rest, token = p :: rest ∧ IsPrefix p := by
    obtain ⟨p, digits, rfl, hprefix, -⟩ := htoken
    exact ⟨p, _, rfl, hprefix⟩
  rcases List.append_eq_append_iff.1 h with ⟨a, rfl, ha⟩ | ⟨a, rfl, ha⟩
  · -- the token begins at the numeral or behind its start
    rcases List.append_eq_append_iff.1 ha with ⟨b, rfl, -⟩ | ⟨b, rfl, hb⟩
    · exact .inl (by simp)
    · cases b with
      | nil => exact .inl (by simp)
      | cons x b =>
        rw [hp, List.cons_append, List.cons_append, List.cons_eq_cons] at hb
        exact absurd (hb.1 ▸ List.mem_append_right a (List.mem_cons_self ..)) (isPrefix_not_mem hn hprefix)
  · -- the token begins before the numeral, so a character of it would stand before the numeral
    rcases List.append_eq_append_iff.1 ha with ⟨b, rfl, -⟩ | ⟨b, hb, hrest⟩
    · exact .inr (by simp)
    · rcases List.eq_nil_or_concat a with rfl | ⟨a, z, rfl⟩
      · obtain ⟨d, n, rfl⟩ := List.exists_cons_of_ne_nil hn.ne_nil
        rw [List.nil_append] at hb
        rw [← hb, hp, List.cons_append, List.cons_append, List.cons_eq_cons] at hrest
        exact absurd (hrest.1 ▸ List.mem_cons_self ..) (isPrefix_not_mem hn hprefix)
      · rw [List.concat_eq_append, ← List.append_assoc, List.getLast?_concat, isWordOrDash_eq_false] at hleft
        have hz : z ∈ token := by simp [hb]
        rcases htoken.char hz with hword | rfl
        · rw [isWord_some, hword] at hleft
          cases hleft.1
        · exact absurd rfl hleft.2

/-- The fraction taken is what follows the run, and stands free on its right if the run does. -/
theorem fractionOf_split {v : List Char} (hv : isWordOrDash v.head? = false) :
    fractionOf v ++ v.drop (fractionOf v).length = v ∧ isWordOrDash (v.drop (fractionOf v).length).head? = false := by
  rcases fractionOf_cases v with ⟨fs, w, rfl, -, hw, hfraction⟩ | ⟨hfraction, -⟩
  · rw [hfraction, List.length_cons, List.drop_succ_cons, List.drop_left]
    exact ⟨rfl, hw⟩
  · rw [hfraction]
    exact ⟨rfl, hv⟩

/-- The match is a whole number exactly when the run it begins with is no piece of a longer one. -/
theorem plain_iff {u v : List Char} :
    Plain u v ↔ ¬ JoinedLeft u ∧ ¬ JoinedRight (v.drop (fractionOf v).length) := by
  refine and_congr_right fun _ => ?_
  rcases fractionOf_cases v with ⟨fs, w, rfl, hfs, hw, hfraction⟩ | ⟨hfraction, hnone⟩
  · have hafter : ('.' :: (fs ++ w)).drop (fractionOf ('.' :: (fs ++ w))).length = w := by
      rw [hfraction, List.length_cons, List.drop_succ_cons, List.drop_left]
    have hjoined : JoinedRight ('.' :: (fs ++ w)) := by
      obtain ⟨d, fs, rfl⟩ := List.exists_cons_of_ne_nil hfs.1
      exact ⟨'.', d, fs ++ w, rfl, .inl rfl, hfs.2 d (List.mem_cons_self ..)⟩
    rw [hafter]
    constructor
    · intro h
      obtain ⟨fs', w', heq, hfs', hw', hplain⟩ := h hjoined
      rwa [(digits_unique (List.cons_eq_cons.1 heq).2 hfs hfs' hw hw').2]
    · exact fun h _ => ⟨fs, w, rfl, hfs, hw, h⟩
  · rw [hfraction, List.length_nil, List.drop_zero]
    constructor
    · intro h hjoined
      obtain ⟨fs, w, hv, hfs, hw, -⟩ := h hjoined
      rw [hnone fs w hv hfs] at hw
      cases hw
    · exact fun h hjoined => absurd hjoined h

theorem WritesAmount.maximal {task : String} {m : AmountMatch} (h : WritesAmount task)
    (hsearch : searchAmount [] task.toList = some m) : m.Maximal := by
  obtain ⟨args, x, hargs, -, hamount⟩ := extractArgs_of_match hsearch
  obtain ⟨m', -, hm', -, -, -, hmaximal⟩ := h args _ hargs hamount
  obtain rfl := Option.some.inj (hsearch.symm.trans hm')
  exact hmaximal

theorem firstStanding_plain_iff {text : List Char} {m : AmountMatch} (h : searchAmount [] text = some m) :
    (∀ u ds v, FirstStanding text u ds v → Plain u v) ↔ ¬ JoinedLeft m.before ∧ ¬ JoinedRight m.after := by
  obtain ⟨ds, v, hfirst, -, hafter⟩ := searchAmount_iff.1 h
  rw [hafter, ← plain_iff]
  constructor
  · exact fun hall => hall _ _ _ hfirst
  · intro hplain u ds' v' h'
    obtain ⟨rfl, -, rfl⟩ := hfirst.unique h'
    exact hplain

/-- **When an amount is the number the person wrote**: the first run of digits that
stands free is no piece of a longer number. -/
theorem writesAmount_iff (task : String) :
    WritesAmount task ↔ ∀ u ds v, FirstStanding task.toList u ds v → Plain u v := by
  cases hsearch : searchAmount [] task.toList with
  | none =>
    refine iff_of_true (fun args amount hargs hamount => ?_) fun u ds v h => ?_
    · obtain ⟨args', hargs', hnone⟩ := extractArgs_of_none hsearch
      obtain rfl := Except.ok.inj (hargs.symm.trans hargs')
      rw [hnone] at hamount
      cases hamount
    · have := (searchAmount_iff (m := ⟨u, _, _⟩)).2 ⟨ds, v, h, rfl, rfl⟩
      rw [hsearch] at this
      cases this
  | some m =>
    obtain ⟨ds, v, hfirst, hnumeral, hafter⟩ := searchAmount_iff.1 hsearch
    obtain ⟨args, x, hargs, hx, hamount⟩ := extractArgs_of_match hsearch
    rw [firstStanding_plain_iff hsearch]
    constructor
    · exact fun h => ⟨(h.maximal hsearch).joined_left, (h.maximal hsearch).joined_right⟩
    · rintro ⟨hleft, hright⟩ args' amount hargs' hamount'
      obtain rfl := Except.ok.inj (hargs.symm.trans hargs')
      obtain rfl := Option.some.inj (hamount.symm.trans hamount')
      obtain ⟨hv, hfree⟩ := fractionOf_split hfirst.1.right
      have hsplit : task.toList = m.before ++ (m.numeral ++ m.after) := by
        rw [hnumeral, hafter, List.append_assoc, hv]
        exact hfirst.1.split
      have hisNumeral : IsNumeral m.numeral := hnumeral ▸ isNumeral_append_fractionOf hfirst.1.digits v
      exact ⟨m, x, hsearch, hsplit, hx, rfl, hisNumeral, hfirst.1.left, hafter ▸ hfree, hleft, hright,
        fun _ _ _ h htoken => not_in_token hisNumeral hfirst.1.left h htoken⟩

omit [UnicodeData] [LawfulUnicode] in
/-- An amount with a fraction, and a comma behind it that joins nothing. -/
theorem writesAmount_iff_fraction : let _ := asciiData
    WritesAmount "refund 12.5, for o-1001" := by
  intro _
  have : LawfulUnicode := asciiData_lawful
  have hsearch : searchAmount [] "refund 12.5, for o-1001".toList =
      some ⟨"refund ".toList, "12.5".toList, ", for o-1001".toList⟩ := by decide
  refine (writesAmount_iff _).2 ((firstStanding_plain_iff hsearch).2 ⟨?_, ?_⟩)
  · rintro ⟨u, d, mark, hu, -, hmark⟩
    have hlast : "refund ".toList.getLast? = some mark := (congrArg List.getLast? hu).trans (by simp)
    have hspace : "refund ".toList.getLast? = some ' ' := by decide
    rw [hspace] at hlast
    rcases hmark with rfl | rfl <;> exact absurd hlast (by decide)
  · rintro ⟨mark, d, v, hv, -, hd⟩
    have hsecond : ", for o-1001".toList[1]? = some d := congrArg (fun l => l[1]?) hv
    have hspace : ", for o-1001".toList[1]? = some ' ' := by decide
    obtain rfl := Option.some.inj (hspace.symm.trans hsecond)
    cases hd

omit [UnicodeData] [LawfulUnicode] in
/-- Of a number with a thousands separator the first group is extracted, and of one with a unit the whole part. -/
theorem not_writesAmount : let _ := asciiData
    ¬ WritesAmount "refund 1,000 for o-1001" ∧ ¬ WritesAmount "refund 12.5kg" := by
  intro _
  have : LawfulUnicode := asciiData_lawful
  have hthousand : searchAmount [] "refund 1,000 for o-1001".toList =
      some ⟨"refund ".toList, ['1'], ',' :: '0' :: "00 for o-1001".toList⟩ := by decide
  have hunit : searchAmount [] "refund 12.5kg".toList =
      some ⟨"refund ".toList, ['1', '2'], '.' :: '5' :: "kg".toList⟩ := by decide
  exact ⟨fun h => (h.maximal hthousand).joined_right ⟨',', '0', _, rfl, .inr rfl, rfl⟩,
    fun h => (h.maximal hunit).joined_right ⟨'.', '5', _, rfl, .inl rfl, rfl⟩⟩

end Llm

end AgentPlatform
