/-
What `_ID_TOKEN.findall` finds (`app/agent/llm.py`): exactly the identifier
tokens that stand between word boundaries, `mem_findIds_iff`.

A token never overlaps another, and takes every digit that follows its dash, so
where the scan resumes after a match does not matter. `occurs_append_sep`: no
token crosses a character that is no word character and no dash.
-/
import AgentPlatform.Llm
import AgentPlatform.Rewriting

namespace AgentPlatform

namespace Llm

variable [UnicodeData]

/-- The letters an identifier starts with. -/
def IsPrefix (c : Char) : Prop := c = 'o' ∨ c = 'c' ∨ c = 't'

/-- What the identifier pattern matches: a prefix, a dash and digits. -/
def IsToken (token : List Char) : Prop :=
  ∃ c digits, token = c :: '-' :: digits ∧ IsPrefix c ∧ digits ≠ [] ∧
    ∀ d ∈ digits, (UnicodeData.decimal d).isSome = true

/-- A token stands in a text, between two word boundaries; `before` is the
character before the text. -/
def OccursAfter (before : Option Char) (token text : List Char) : Prop :=
  IsToken token ∧ ∃ pre post, text = pre ++ token ++ post ∧
    boundary (pre.getLast?.or before) token.head? = true ∧ boundary token.getLast? post.head? = true

/-- A token stands in a text. -/
abbrev Occurs (token text : List Char) : Prop := OccursAfter none token text

theorem isWord_some (c : Char) : isWord (some c) = UnicodeData.isWord c := rfl

variable [LawfulUnicode]

theorem isWord_of_isPrefix {c : Char} (h : IsPrefix c) : UnicodeData.isWord c = true := by
  rcases h with rfl | rfl | rfl <;> (rw [LawfulUnicode.isWord_ascii _ (by decide)]; rfl)

theorem decimal_of_isPrefix {c : Char} (h : IsPrefix c) : (UnicodeData.decimal c).isSome = false := by
  rcases h with rfl | rfl | rfl <;> (rw [LawfulUnicode.decimal_ascii _ (by decide)]; rfl)

theorem isWord_getLast_digits {digits : List Char} (hne : digits ≠ [])
    (h : ∀ d ∈ digits, (UnicodeData.decimal d).isSome = true) : isWord digits.getLast? = true := by
  rw [List.getLast?_eq_some_getLast hne]
  exact LawfulUnicode.isWord_of_decimal _ (h _ (List.getLast_mem hne))

/-- The boundaries of a token: no word character on either side. -/
theorem occursAfter_iff {before : Option Char} {token text : List Char} :
    OccursAfter before token text ↔ IsToken token ∧ ∃ pre post, text = pre ++ token ++ post ∧
      isWord (pre.getLast?.or before) = false ∧ isWord post.head? = false := by
  refine and_congr_right fun ⟨c, digits, htoken, hc, hne, hdigits⟩ => ?_
  have hhead : isWord token.head? = true := by rw [htoken]; exact isWord_of_isPrefix hc
  have hlast : isWord token.getLast? = true := by
    obtain ⟨d, ds, rfl⟩ := List.exists_cons_of_ne_nil hne
    rw [htoken, List.getLast?_cons_cons, List.getLast?_cons_cons]
    exact isWord_getLast_digits hne hdigits
  simp [boundary, hhead, hlast]

/-! ## One match -/

/-- The characters a token is made of stop no word and are no separator. -/
theorem IsToken.char {token : List Char} (h : IsToken token) {c : Char} (hc : c ∈ token) :
    UnicodeData.isWord c = true ∨ c = '-' := by
  obtain ⟨p, digits, rfl, hp, -, hdigits⟩ := h
  rcases List.mem_cons.1 hc with rfl | hc
  · exact .inl (isWord_of_isPrefix hp)
  rcases List.mem_cons.1 hc with rfl | hc
  · exact .inr rfl
  · exact .inl (LawfulUnicode.isWord_of_decimal _ (hdigits c hc))

omit [LawfulUnicode] in
theorem IsToken.ne_nil {token : List Char} (h : IsToken token) : token ≠ [] := by
  obtain ⟨p, digits, rfl, -⟩ := h
  exact List.cons_ne_nil _ _

omit [LawfulUnicode] in
theorem leadingDigits_append {digits post : List Char}
    (hdigits : ∀ d ∈ digits, (UnicodeData.decimal d).isSome = true)
    (hpost : ∀ d ∈ post.head?, (UnicodeData.decimal d).isSome = false) :
    leadingDigits (digits ++ post) = digits := by
  rw [leadingDigits, List.takeWhile_append_of_pos hdigits]
  cases post with
  | nil => simp
  | cons d post => simp [hpost d rfl]

omit [LawfulUnicode] in
theorem decimal_of_mem_leadingDigits {s : List Char} {d : Char} (h : d ∈ leadingDigits s) :
    (UnicodeData.decimal d).isSome = true := by
  simpa using List.mem_takeWhile_imp h

/-- `\d+`, a whole text of it. -/
def IsDigits (ds : List Char) : Prop := ds ≠ [] ∧ ∀ d ∈ ds, (UnicodeData.decimal d).isSome = true

omit [LawfulUnicode] in
/-- Where nothing can follow a run of digits that ends before another digit, only the longest run counts. -/
theorem digitsThen_eq {α : Type} {s : List Char} {rest : List Char → List Char → Option α}
    (hrest : ∀ ds d after, IsDigits ds → (UnicodeData.decimal d).isSome = true → rest ds (d :: after) = none) :
    digitsThen s rest = if leadingDigits s = [] then none else
      rest (leadingDigits s) (s.drop (leadingDigits s).length) := by
  unfold digitsThen
  generalize hds : leadingDigits s = ds
  obtain ⟨after, hs⟩ : ∃ after, s = ds ++ after :=
    ⟨s.dropWhile fun c => (UnicodeData.decimal c).isSome,
      by rw [← hds, leadingDigits, List.takeWhile_append_dropWhile]⟩
  have hdec : ∀ d ∈ ds, (UnicodeData.decimal d).isSome = true := fun d hd =>
    decimal_of_mem_leadingDigits (hds ▸ hd)
  have hshort : ∀ n, n + 1 < ds.length → rest (s.take (n + 1)) (s.drop (n + 1)) = none := by
    intro n hn
    have htake : s.take (n + 1) = ds.take (n + 1) := by rw [hs, List.take_append_of_le_length hn.le]
    have hdrop : s.drop (n + 1) = ds[n + 1] :: (ds.drop (n + 2) ++ after) := by
      rw [hs, List.drop_append_of_le_length hn.le, List.drop_eq_getElem_cons hn, List.cons_append]
    rw [htake, hdrop]
    refine hrest _ _ _ ⟨?_, fun d hd => hdec d (List.mem_of_mem_take hd)⟩ (hdec _ (List.getElem_mem hn))
    rintro h
    simp at h
    simp [h] at hn
  cases hlen : ds.length with
  | zero => simp [List.length_eq_zero_iff.1 hlen]
  | succ n =>
    have hne : ds ≠ [] := by rintro h; simp [h] at hlen
    have htake : s.take (n + 1) = ds := by rw [hs, ← hlen, List.take_left]
    rw [List.range_succ, List.reverse_append, List.reverse_singleton, List.singleton_append,
      List.findSome?_cons, htake, if_neg hne]
    cases hb : rest ds (s.drop (n + 1)) with
    | some a => rfl
    | none =>
      rw [List.findSome?_eq_none_iff]
      intro m hm
      exact hshort m (by simp at hm; omega)

/-- The digits of a match: all that follow the dash, before a boundary. -/
theorem digitsThen_boundary {c : Char} {s : List Char} :
    (digitsThen s fun digits after =>
        if boundary digits.getLast? after.head? then some (c :: '-' :: digits) else none) =
      if leadingDigits s ≠ [] ∧ isWord (s.drop (leadingDigits s).length).head? = false then
        some (c :: '-' :: leadingDigits s) else none := by
  -- a shorter run of digits is followed by a digit, so by no boundary
  have hshort : ∀ ds d after, IsDigits ds → (UnicodeData.decimal d).isSome = true →
      (if boundary ds.getLast? (d :: after).head? then some (c :: '-' :: ds) else none) = none := by
    intro ds d after hds hd
    simp [boundary, isWord_getLast_digits hds.1 hds.2, isWord_some, LawfulUnicode.isWord_of_decimal d hd]
  rw [digitsThen_eq hshort]
  by_cases hne : leadingDigits s = []
  · simp [hne]
  · have hlast : isWord (leadingDigits s).getLast? = true :=
      isWord_getLast_digits hne fun d hd => decimal_of_mem_leadingDigits hd
    cases hb : isWord (s.drop (leadingDigits s).length).head? <;> simp [boundary, hlast, hb, hne, -List.head?_drop]

/-- A match at the start of a text. -/
theorem idAt_eq_some_iff {before : Option Char} {s token : List Char} :
    idAt before s = some token ↔ IsToken token ∧ isWord before = false ∧
      ∃ post, s = token ++ post ∧ isWord post.head? = false := by
  constructor
  · intro h
    unfold idAt at h
    split at h
    · rename_i c s
      split at h
      · rename_i hguard
        rw [digitsThen_boundary] at h
        split at h
        · rename_i hdigits
          cases h
          simp only [Bool.and_eq_true, decide_eq_true_eq, List.mem_cons, List.not_mem_nil, or_false] at hguard
          have hc : IsPrefix c := hguard.1
          have hbefore : isWord before = false := by
            simpa [boundary, isWord_some, isWord_of_isPrefix hc] using hguard.2
          refine ⟨⟨c, _, rfl, hc, hdigits.1, fun d hd => decimal_of_mem_leadingDigits hd⟩, hbefore,
            s.drop (leadingDigits s).length, ?_, hdigits.2⟩
          have hs : leadingDigits s ++ s.drop (leadingDigits s).length = s :=
            List.prefix_iff_eq_append.1 (List.takeWhile_prefix _)
          simp [hs]
        · cases h
      · cases h
    · cases h
  · rintro ⟨⟨c, digits, rfl, hc, hne, hdigits⟩, hbefore, post, rfl, hpost⟩
    have hdigitless : ∀ d ∈ post.head?, (UnicodeData.decimal d).isSome = false := by
      intro d hd
      rw [Option.mem_def.1 hd, isWord_some] at hpost
      exact Bool.eq_false_iff.2 fun h => by simp [LawfulUnicode.isWord_of_decimal d h] at hpost
    have hlead := leadingDigits_append hdigits hdigitless
    have hmem : c ∈ ['o', 'c', 't'] := by simpa [IsPrefix] using hc
    have hguard : (decide (c ∈ ['o', 'c', 't']) && boundary before (some c)) = true := by
      simp only [hmem, decide_true, boundary, hbefore, isWord_some, isWord_of_isPrefix hc, Bool.true_and]
      rfl
    simp only [List.cons_append, idAt]
    rw [if_pos hguard, digitsThen_boundary, hlead, List.drop_left, if_pos ⟨hne, hpost⟩]

/-! ## All matches -/

/-- A token stands at the start of a text, or further on. -/
theorem occursAfter_cons {before : Option Char} {c : Char} {s token : List Char} :
    OccursAfter before token (c :: s) ↔ idAt before (c :: s) = some token ∨ OccursAfter (some c) token s := by
  rw [occursAfter_iff, occursAfter_iff, idAt_eq_some_iff]
  constructor
  · rintro ⟨htoken, pre, post, hs, hpre, hpost⟩
    cases pre with
    | nil => exact .inl ⟨htoken, hpre, post, hs, hpost⟩
    | cons d pre =>
      rw [List.cons_append, List.cons_append, List.cons_eq_cons] at hs
      obtain ⟨rfl, rfl⟩ := hs
      refine .inr ⟨htoken, pre, post, rfl, ?_, hpost⟩
      cases pre with
      | nil => exact hpre
      | cons e pre => rwa [List.getLast?_cons_cons] at hpre
  · rintro (⟨htoken, hbefore, post, hs, hpost⟩ | ⟨htoken, pre, post, rfl, hpre, hpost⟩)
    · exact ⟨htoken, [], post, hs, hbefore, hpost⟩
    · refine ⟨htoken, c :: pre, post, rfl, ?_, hpost⟩
      cases pre with
      | nil => exact hpre
      | cons e pre => rwa [List.getLast?_cons_cons]

omit [LawfulUnicode] in
theorem not_occursAfter_nil {before : Option Char} {token : List Char} : ¬ OccursAfter before token [] := by
  rintro ⟨htoken, pre, post, hs, -⟩
  simp only [List.nil_eq, List.append_eq_nil_iff] at hs
  exact htoken.ne_nil hs.1.2

omit [LawfulUnicode] in
theorem idAt_ne_some {before : Option Char} {c : Char} {s token : List Char} (hc : ¬ IsPrefix c) :
    idAt before (c :: s) ≠ some token := by
  intro h
  unfold idAt at h
  split at h
  · rename_i heq
    cases heq
    have hmem : c ∉ ['o', 'c', 't'] := by simpa [IsPrefix] using hc
    simp [hmem] at h
  · cases h

/-- The scan finds a token exactly where one stands. The induction is on the
text; what is skipped is the rest of a token, where no other starts. -/
theorem mem_findIds_skip : ∀ (s : List Char) (skip : Nat) (before : Option Char) (token : List Char),
    (∀ c ∈ s.take skip, ¬ IsPrefix c) →
    (String.ofList token ∈ findIds skip before s ↔ OccursAfter before token s)
  | [], skip, before, token, _ => by simp [findIds, not_occursAfter_nil]
  | c :: s, skip + 1, before, token, hskip => by
    have hc : ¬ IsPrefix c := hskip c (List.mem_cons_self ..)
    rw [findIds, occursAfter_cons, mem_findIds_skip s skip (some c) token fun d hd =>
      hskip d (List.mem_cons_of_mem _ hd)]
    simp [idAt_ne_some hc]
  | c :: s, 0, before, token, _ => by
    rw [findIds, occursAfter_cons]
    cases hid : idAt before (c :: s) with
    | none => simp [mem_findIds_skip s 0 (some c) token (by simp)]
    | some found =>
      obtain ⟨⟨p, digits, rfl, -, -, hdigits⟩, -, post, hs, -⟩ := idAt_eq_some_iff.1 hid
      obtain ⟨-, rfl⟩ := List.cons_eq_cons.1 hs
      have hrest : ∀ d ∈ (('-' :: digits) ++ post).take ('-' :: digits).length, ¬ IsPrefix d := by
        intro d hd hp
        rw [List.take_left, List.mem_cons] at hd
        rcases hd with rfl | hd
        · rcases hp with hp | hp | hp <;> exact absurd hp (by decide)
        · exact absurd (hdigits d hd) (by simp [decimal_of_isPrefix hp])
      have ih := mem_findIds_skip (('-' :: digits) ++ post) ('-' :: digits).length (some c) token hrest
      simp only [List.length_cons, List.mem_cons, Nat.add_sub_cancel] at ih ⊢
      refine or_congr ?_ ih
      rw [String.ofList_inj, Option.some_inj, eq_comm]

/-- **What `findall` finds**: the tokens of the text. -/
theorem mem_findIds_iff {text token : String} :
    token ∈ findIds 0 none text.toList ↔ Occurs token.toList text.toList := by
  have h := mem_findIds_skip text.toList 0 none token.toList (by simp)
  rwa [String.ofList_toList] at h

/-! ## Separators -/

/-- No token crosses a separator. -/
theorem occurs_append_sep {x : Char} {a b token : List Char} (hx : UnicodeData.isWord x = false) (hdash : x ≠ '-') :
    Occurs token (a ++ x :: b) ↔ Occurs token a ∨ Occurs token b := by
  simp only [Occurs, occursAfter_iff, Option.or_none]
  constructor
  · rintro ⟨htoken, pre, post, hs, hpre, hpost⟩
    have hxt : x ∉ token := fun h => by
      rcases htoken.char h with hw | hd
      · simp [hx] at hw
      · exact hdash hd
    rcases Rewriting.append_sep_cases htoken.ne_nil hxt hs.symm with ⟨post', ha, rfl⟩ | ⟨pre', hb, rfl⟩
    · refine .inl ⟨htoken, pre, post', ha, hpre, ?_⟩
      cases post' with
      | nil => rfl
      | cons z post' => exact hpost
    · refine .inr ⟨htoken, pre', post, hb, ?_, hpost⟩
      cases hl : pre'.getLast? with
      | none => rfl
      | some z => simpa [List.getLast?_append, List.getLast?_cons, hl] using hpre
  · rintro (⟨htoken, pre, post, rfl, hpre, hpost⟩ | ⟨htoken, pre, post, rfl, hpre, hpost⟩)
    · refine ⟨htoken, pre, post ++ x :: b, by simp, hpre, ?_⟩
      cases post with
      | nil => simpa [isWord] using hx
      | cons z post => exact hpost
    · refine ⟨htoken, a ++ x :: pre, post, by simp, ?_, hpost⟩
      cases hl : pre.getLast? with
      | none => simpa [List.getLast?_eq_none_iff.1 hl, isWord] using hx
      | some z =>
        have hne : pre ≠ [] := by rintro rfl; simp at hl
        rw [hl] at hpre
        simpa [List.getLast?_append, List.getLast?_cons, hl] using hpre

omit [LawfulUnicode] in
theorem not_occurs_nil {token : List Char} : ¬ Occurs token [] := not_occursAfter_nil

omit [LawfulUnicode] in
/-- A text in which no prefix comes before a dash has no token. -/
theorem not_occurs_of_infix {text token : List Char} (h : ∀ c, IsPrefix c → ¬ [c, '-'] <:+: text) :
    ¬ Occurs token text := by
  rintro ⟨⟨c, digits, rfl, hc, -⟩, pre, post, rfl, -⟩
  exact h c hc ⟨pre, digits ++ post, by simp⟩

end Llm

end AgentPlatform
