/-
The identifiers the model has been shown (`_seen_identifiers`,
`app/agent/llm.py`), against the identifiers that stand in what it was shown.

The pattern is matched against the JSON text of an observation, where a
character that is not printable ASCII is written as an escape. The last
character of an escape is a letter or a hexadecimal digit, and its first a
backslash, so an escape hides the identifier after it (`Masked`), and ends one
where the string does not (`Conjured`). A tab followed by a dash and digits
even reads as a ticket. `occurs_dumps`: those are the only differences.
-/
import AgentPlatform.Identifiers
import AgentPlatform.LlmFacts

namespace AgentPlatform

namespace Json

mutual

/-- The strings of a value: keys and values, at any depth. -/
def strings : Json → List String
  | .str s => [s]
  | .arr xs => stringsItems xs
  | .obj fs => stringsFields fs
  | _ => []

def stringsItems : List Json → List String
  | [] => []
  | x :: xs => x.strings ++ stringsItems xs

def stringsFields : List (String × Json) → List String
  | [] => []
  | (k, v) :: fs => k :: (v.strings ++ stringsFields fs)

end

end Json

namespace Llm

variable [UnicodeData]

/-- `_seen_identifiers(task, observations)` on observations of any shape. -/
def seenIn (task : String) (observations : List Json) : Except Exn (List String) := do
  let texts ← observations.mapM dumps
  return findIds 0 none task.toList ++ texts.flatMap fun text => findIds 0 none text.toList

/-- The observations of a run are dictionaries. -/
theorem seenIdentifiers_eq (task : String) (observations : List Observation) :
    seenIdentifiers task observations = seenIn task (observations.map observationJson) := by
  unfold seenIdentifiers seenIn
  rw [List.mapM_map]
  rfl

/-! ## What an escape does to the pattern -/

/-- A character `json.dumps` writes as itself, if not for a backslash. -/
def Written (c : Char) : Prop := 0x20 ≤ c.toNat ∧ c.toNat ≤ 0x7e

instance (c : Char) : Decidable (Written c) := inferInstanceAs (Decidable (_ ∧ _))

/-- Written, a character leaves a word boundary before what follows it. -/
def Opens (c : Char) : Prop := Written c ∧ UnicodeData.isWord c = false

/-- Written, a character leaves a word boundary after what comes before it. -/
def Closes (c : Char) : Prop := Written c → UnicodeData.isWord c = false

/-- An identifier of ASCII digits. -/
def IsAsciiToken (token : List Char) : Prop := IsToken token ∧ ∀ c ∈ token, c.toNat < 128

/-- A tab, a dash and digits: the escape of a tab ends in a `t`. -/
def TabToken (token text : List Char) : Prop :=
  ∃ pre digits post, token = 't' :: '-' :: digits ∧ text = pre ++ '\t' :: '-' :: digits ++ post ∧
    ∀ c ∈ post.head?, Closes c

/-- An identifier is read in the escaped text of a string. -/
def Read (token text : List Char) : Prop :=
  IsAsciiToken token ∧ ((∃ pre post, text = pre ++ token ++ post ∧
    (∀ c ∈ pre.getLast?, Opens c) ∧ ∀ c ∈ post.head?, Closes c) ∨ TabToken token text)

/-- An identifier of a string that its escaped text hides: it has a digit
outside ASCII, or comes right after an escape. -/
def Masked (token text : List Char) : Prop :=
  IsToken token ∧ ∃ pre post, text = pre ++ token ++ post ∧
    isWord pre.getLast? = false ∧ isWord post.head? = false ∧
    ((∃ c ∈ token, ¬ c.toNat < 128) ∨ ∃ c ∈ pre.getLast?, ¬ Written c)

/-- An identifier that only the escaped text has: an escape ends it where the
string continues with a word character, or begins it with the `t` of a tab. -/
def Conjured (token text : List Char) : Prop :=
  IsAsciiToken token ∧ ((∃ pre post, text = pre ++ token ++ post ∧
    (∀ c ∈ pre.getLast?, Opens c) ∧ ∃ c ∈ post.head?, ¬ Written c ∧ UnicodeData.isWord c = true) ∨
      TabToken token text)

omit [UnicodeData] in
theorem hexDigit_mem (n : Nat) : Py.hexDigit n ∈ "0123456789abcdef".toList := by
  unfold Py.hexDigit
  rw [List.getD_eq_getElem?_getD]
  cases h : "0123456789abcdef".toList[n]? with
  | none => decide
  | some c => exact List.mem_of_getElem? h

omit [UnicodeData] in
theorem hex_ne_dash (w : ℕ) : ∀ n, ∀ d ∈ Py.hex w n, d ≠ '-' := by
  induction w with
  | zero => exact fun _ _ hd => nomatch hd
  | succ w ih =>
    intro n d hd
    rw [Py.hex, List.mem_append, List.mem_singleton] at hd
    rcases hd with hd | rfl
    · exact ih _ d hd
    · rintro h
      have hmem := hexDigit_mem (n % 16)
      rw [h] at hmem
      exact absurd hmem (by decide)

omit [UnicodeData] in
theorem hex_four (n : ℕ) :
    Py.hex 4 n = Py.hex 2 (n / 256) ++ [Py.hexDigit (n / 16 % 16), Py.hexDigit (n % 16)] := by
  simp only [Py.hex, List.append_assoc, Nat.div_div_eq_div_mul]
  rfl

omit [UnicodeData] in
/-- The escapes of `json.dumps`. -/
theorem dumpsChar_cases (c : Char) :
    (Written c ∧ dumpsChar c = [c]) ∨
    (Written c ∧ (c = '"' ∨ c = '\\') ∧ dumpsChar c = ['\\', c]) ∨
    (¬ Written c ∧ (c = '\t' ∧ dumpsChar c = ['\\', 't'] ∨
      ∃ e ∈ ['n', 'r', 'b', 'f'], dumpsChar c = ['\\', e])) ∨
    (¬ Written c ∧ ∃ body m n, dumpsChar c = '\\' :: body ++ [Py.hexDigit m, Py.hexDigit n] ∧
      ∀ d ∈ body, d ≠ '-') := by
  unfold dumpsChar
  by_cases hquote : c = '"' ∨ c = '\\'
  · rw [if_pos hquote]
    refine .inr (.inl ⟨?_, hquote, rfl⟩)
    rcases hquote with rfl | rfl <;> exact ⟨by decide, by decide⟩
  rw [if_neg hquote]
  by_cases hn : c = '\n'
  · rw [if_pos hn]
    exact .inr (.inr (.inl ⟨by subst hn; decide, .inr ⟨'n', by simp, rfl⟩⟩))
  rw [if_neg hn]
  by_cases hr : c = '\r'
  · rw [if_pos hr]
    exact .inr (.inr (.inl ⟨by subst hr; decide, .inr ⟨'r', by simp, rfl⟩⟩))
  rw [if_neg hr]
  by_cases ht : c = '\t'
  · rw [if_pos ht]
    exact .inr (.inr (.inl ⟨by subst ht; decide, .inl ⟨ht, rfl⟩⟩))
  rw [if_neg ht]
  by_cases hb : c = Char.ofNat 8
  · rw [if_pos hb]
    exact .inr (.inr (.inl ⟨by subst hb; decide, .inr ⟨'b', by simp, rfl⟩⟩))
  rw [if_neg hb]
  by_cases hf : c = Char.ofNat 12
  · rw [if_pos hf]
    exact .inr (.inr (.inl ⟨by subst hf; decide, .inr ⟨'f', by simp, rfl⟩⟩))
  rw [if_neg hf]
  by_cases hwritten : 0x20 ≤ c.toNat ∧ c.toNat ≤ 0x7e
  · rw [if_pos hwritten]
    exact .inl ⟨hwritten, rfl⟩
  rw [if_neg hwritten]
  refine .inr (.inr (.inr ⟨hwritten, ?_⟩))
  by_cases hbmp : c.toNat < 0x10000
  · rw [if_pos hbmp]
    refine ⟨'u' :: Py.hex 2 (c.toNat / 256), c.toNat / 16 % 16, c.toNat % 16, ?_, ?_⟩
    · rw [hex_four]; rfl
    · intro d hd
      rcases List.mem_cons.1 hd with rfl | hd
      · decide
      · exact hex_ne_dash _ _ d hd
  · rw [if_neg hbmp]
    -- a surrogate pair: the body holds the first escape whole
    refine ⟨'u' :: (Py.hex 4 (0xd800 + (c.toNat - 0x10000) / 0x400) ++
      '\\' :: 'u' :: Py.hex 2 ((0xdc00 + (c.toNat - 0x10000) % 0x400) / 256)),
      (0xdc00 + (c.toNat - 0x10000) % 0x400) / 16 % 16, (0xdc00 + (c.toNat - 0x10000) % 0x400) % 16, ?_, ?_⟩
    · dsimp only
      rw [hex_four (0xdc00 + _)]
      simp
    · intro d hd
      simp only [List.mem_cons, List.mem_append] at hd
      rcases hd with rfl | hd | rfl | rfl | hd
      · decide
      · exact hex_ne_dash _ _ d hd
      · decide
      · decide
      · exact hex_ne_dash _ _ d hd

/-- The escaped text of a string, without its quotes. -/
def escaped (s : List Char) : List Char := s.flatMap dumpsChar

omit [UnicodeData] in
@[simp] theorem escaped_nil : escaped [] = [] := rfl

omit [UnicodeData] in
theorem escaped_cons (c : Char) (s : List Char) : escaped (c :: s) = dumpsChar c ++ escaped s :=
  List.flatMap_cons

omit [UnicodeData] in
theorem escaped_append (a b : List Char) : escaped (a ++ b) = escaped a ++ escaped b := List.flatMap_append

omit [UnicodeData] in
theorem dumpsChar_dash {c : Char} (h : '-' ∈ dumpsChar c) : c = '-' ∧ dumpsChar c = ['-'] := by
  rcases dumpsChar_cases c with ⟨-, hc⟩ | ⟨-, hquote, hc⟩ | ⟨-, ⟨-, hc⟩ | ⟨e, he, hc⟩⟩ | ⟨-, body, m, n, hc, hbody⟩
  · rw [hc, List.mem_singleton] at h
    exact ⟨h.symm, h ▸ hc⟩
  · rw [hc] at h
    rcases hquote with rfl | rfl <;> exact absurd h (by decide)
  · rw [hc] at h
    exact absurd h (by decide)
  · rw [hc] at h
    simp only [List.mem_cons, List.not_mem_nil, or_false] at he
    rcases he with rfl | rfl | rfl | rfl <;> exact absurd h (by decide)
  · rw [hc] at h
    simp only [List.cons_append, List.mem_cons, List.mem_append, List.not_mem_nil, or_false] at h
    rcases h with h | h | h | h
    · exact absurd h (by decide)
    · exact (hbody _ h rfl).elim
    · exact absurd (h ▸ hexDigit_mem m) (by decide)
    · exact absurd (h ▸ hexDigit_mem n) (by decide)

omit [UnicodeData] in
/-- The escape of a character starts with the character or a backslash. -/
theorem dumpsChar_head (c : Char) : (Written c ∧ dumpsChar c = [c]) ∨ ∃ rest, dumpsChar c = '\\' :: rest := by
  rcases dumpsChar_cases c with h | ⟨-, -, hc⟩ | ⟨-, ⟨-, hc⟩ | ⟨e, -, hc⟩⟩ | ⟨-, body, m, n, hc, -⟩
  · exact .inl h
  all_goals exact .inr ⟨_, hc⟩

omit [UnicodeData] in
theorem dumpsChar_ne_nil (c : Char) : dumpsChar c ≠ [] := by
  rcases dumpsChar_head c with ⟨-, h⟩ | ⟨rest, h⟩ <;> simp [h]

omit [UnicodeData] in
/-- A dash in the escaped text is a dash of the string. -/
theorem escaped_dash : ∀ {s a b : List Char}, escaped s = a ++ '-' :: b →
    ∃ s₁ s₂, s = s₁ ++ '-' :: s₂ ∧ escaped s₁ = a ∧ escaped s₂ = b
  | [], a, b, h => by simp at h
  | c :: s, a, b, h => by
    rw [escaped_cons] at h
    rcases List.append_eq_append_iff.1 h with ⟨a', ha, hs⟩ | ⟨rest, hc, hrest⟩
    · obtain ⟨s₁, s₂, rfl, rfl, hb⟩ := escaped_dash hs
      exact ⟨c :: s₁, s₂, rfl, by rw [ha, escaped_cons], hb⟩
    · cases rest with
      | nil =>
        obtain ⟨s₁, s₂, rfl, hnil, hb⟩ := escaped_dash (a := []) hrest.symm
        refine ⟨c :: s₁, s₂, rfl, ?_, hb⟩
        rw [escaped_cons, hc, hnil, List.append_nil, List.append_nil]
      | cons d rest =>
        obtain ⟨rfl, hb⟩ := List.cons_eq_cons.1 hrest
        obtain ⟨rfl, hone⟩ := dumpsChar_dash (hc ▸ by simp : '-' ∈ dumpsChar c)
        rw [hone] at hc
        cases a with
        | nil =>
          obtain ⟨-, rfl⟩ := List.cons_eq_cons.1 hc
          exact ⟨[], s, rfl, rfl, hb.symm⟩
        | cons d a => simp at hc

omit [UnicodeData] in
/-- Characters that no escape starts with are characters of the string. -/
theorem escaped_prefix : ∀ {digits s b : List Char}, '\\' ∉ digits → escaped s = digits ++ b →
    ∃ s', s = digits ++ s' ∧ escaped s' = b ∧ ∀ d ∈ digits, Written d
  | [], s, b, _, h => ⟨s, rfl, h, by simp⟩
  | d :: digits, s, b, hslash, h => by
    rw [List.mem_cons, not_or] at hslash
    cases s with
    | nil => simp at h
    | cons c s =>
      rw [escaped_cons] at h
      rcases dumpsChar_head c with ⟨hw, hc⟩ | ⟨rest, hc⟩
      · rw [hc, List.singleton_append, List.cons_append, List.cons_eq_cons] at h
        obtain ⟨rfl, h⟩ := h
        obtain ⟨s', rfl, hb, hdigits⟩ := escaped_prefix hslash.2 h
        exact ⟨s', rfl, hb, List.forall_mem_cons.2 ⟨hw, hdigits⟩⟩
      · rw [hc] at h
        exact (hslash.1 (List.cons_eq_cons.1 h).1).elim

omit [UnicodeData] in
theorem escaped_getLast? (s : List Char) :
    (escaped s).getLast? = s.getLast?.bind fun c => (dumpsChar c).getLast? := by
  rcases List.eq_nil_or_concat s with rfl | ⟨s, c, rfl⟩
  · rfl
  · rw [List.concat_eq_append, escaped_append, List.getLast?_append, List.getLast?_append]
    have hone : escaped [c] = dumpsChar c := by simp [escaped]
    simp [hone, List.getLast?_eq_some_getLast (dumpsChar_ne_nil c)]

omit [UnicodeData] in
theorem escaped_head? (s : List Char) : (escaped s).head? = s.head?.bind fun c => (dumpsChar c).head? := by
  cases s with
  | nil => rfl
  | cons c s =>
    rw [escaped_cons, List.head?_append]
    rcases dumpsChar_head c with ⟨-, h⟩ | ⟨rest, h⟩ <;> simp [h]

variable [LawfulUnicode]

theorem isWord_written {c : Char} (h : c.toNat < 128) (hw : (c.isAlphanum || c = '_') = false) :
    UnicodeData.isWord c = false := by
  rw [LawfulUnicode.isWord_ascii c h, hw]

theorem isWord_backslash : UnicodeData.isWord '\\' = false := isWord_written (by decide) (by decide)

theorem isWord_hexDigit (n : Nat) : UnicodeData.isWord (Py.hexDigit n) = true := by
  have hall : ("0123456789abcdef".toList.all fun c =>
      decide (c.toNat < 128) && (c.isAlphanum || decide (c = '_'))) = true := by decide
  have hdigit := List.all_eq_true.1 hall _ (hexDigit_mem n)
  obtain ⟨hlow, hword⟩ := Bool.and_eq_true_iff.1 hdigit
  have hlow := of_decide_eq_true hlow
  rw [LawfulUnicode.isWord_ascii _ hlow, hword]

/-- What the escape of a character ends in. -/
theorem opens_iff (c : Char) : isWord (dumpsChar c).getLast? = false ↔ Opens c := by
  rcases dumpsChar_cases c with ⟨hw, hc⟩ | ⟨hw, hquote, hc⟩ | ⟨hw, ⟨-, hc⟩ | ⟨e, he, hc⟩⟩ | ⟨hw, body, m, n, hc, -⟩
  · rw [hc]
    exact ⟨fun h => ⟨hw, h⟩, fun h => h.2⟩
  · rw [hc]
    exact ⟨fun h => ⟨hw, h⟩, fun h => h.2⟩
  · refine iff_of_false ?_ fun h => hw h.1
    rw [hc, Bool.not_eq_false]
    change UnicodeData.isWord 't' = true
    rw [LawfulUnicode.isWord_ascii _ (by decide)]
    rfl
  · refine iff_of_false ?_ fun h => hw h.1
    rw [hc, Bool.not_eq_false]
    change UnicodeData.isWord e = true
    simp only [List.mem_cons, List.not_mem_nil, or_false] at he
    rcases he with rfl | rfl | rfl | rfl <;> (rw [LawfulUnicode.isWord_ascii _ (by decide)]; rfl)
  · refine iff_of_false ?_ fun h => hw h.1
    rw [hc, Bool.not_eq_false]
    have hlast : ('\\' :: body ++ [Py.hexDigit m, Py.hexDigit n]).getLast? = some (Py.hexDigit n) := by
      rw [List.getLast?_append]
      rfl
    rw [hlast]
    exact isWord_hexDigit n

/-- What the escape of a character starts with. -/
theorem closes_iff (c : Char) : isWord (dumpsChar c).head? = false ↔ Closes c := by
  rcases dumpsChar_cases c with ⟨hw, hc⟩ | ⟨hw, hquote, hc⟩ | ⟨hw, ⟨-, hc⟩ | ⟨e, he, hc⟩⟩ | ⟨hw, body, m, n, hc, -⟩
  · rw [hc]
    exact ⟨fun h _ => h, fun h => h hw⟩
  · rw [hc]
    refine ⟨fun _ _ => ?_, fun _ => isWord_backslash⟩
    rcases hquote with rfl | rfl <;> exact isWord_written (by decide) (by decide)
  all_goals
    rw [hc]
    exact ⟨fun _ h => (hw h).elim, fun _ => isWord_backslash⟩

theorem opens_last_iff (s : List Char) : isWord (escaped s).getLast? = false ↔ ∀ c ∈ s.getLast?, Opens c := by
  rw [escaped_getLast?]
  cases s.getLast? with
  | none => simp [isWord]
  | some c => simpa using opens_iff c

theorem closes_head_iff (s : List Char) : isWord (escaped s).head? = false ↔ ∀ c ∈ s.head?, Closes c := by
  rw [escaped_head?]
  cases s.head? with
  | none => simp [isWord]
  | some c => simpa using closes_iff c

/-! ## The identifiers of an escaped string -/

theorem IsAsciiToken.written {token : List Char} (h : IsAsciiToken token) {c : Char} (hc : c ∈ token) :
    dumpsChar c = [c] ∧ Written c := by
  obtain ⟨⟨p, digits, rfl, hp, -, hdigits⟩, hascii⟩ := h
  have hone : ∀ d : Char, Written d → d ≠ '"' → d ≠ '\\' → dumpsChar d = [d] := by
    intro d hd hq hs
    rcases dumpsChar_cases d with ⟨-, h⟩ | ⟨-, rfl | rfl, -⟩ | ⟨hn, -⟩ | ⟨hn, -⟩
    · exact h
    · exact (hq rfl).elim
    · exact (hs rfl).elim
    all_goals exact (hn hd).elim
  rcases List.mem_cons.1 hc with rfl | hc
  · rcases hp with rfl | rfl | rfl <;> exact ⟨rfl, by decide⟩
  rcases List.mem_cons.1 hc with rfl | hc
  · exact ⟨rfl, by decide⟩
  · have hd := hdigits c hc
    rw [LawfulUnicode.decimal_ascii c (hascii c (by simp [hc]))] at hd
    simp only [Char.isDigit, ge_iff_le, Bool.and_eq_true, decide_eq_true_eq, UInt32.le_iff_toNat_le] at hd
    have hlow : 48 ≤ c.toNat := hd.1
    have hhigh : c.toNat ≤ 57 := hd.2
    have hw : Written c := ⟨by omega, by omega⟩
    refine ⟨hone c hw ?_ ?_, hw⟩
    · rintro rfl
      exact absurd hlow (by decide)
    · rintro rfl
      exact absurd hhigh (by decide)

omit [UnicodeData] [LawfulUnicode] in
theorem escaped_eq_self {s : List Char} (h : ∀ c ∈ s, dumpsChar c = [c]) : escaped s = s := by
  induction s with
  | nil => rfl
  | cons c s ih =>
    rw [List.forall_mem_cons] at h
    rw [escaped_cons, h.1, ih h.2, List.singleton_append]

/-- **What an escaped string shows**: the identifiers read in it. -/
theorem occurs_escaped {token s : List Char} : Occurs token (escaped s) ↔ Read token s := by
  simp only [Occurs, occursAfter_iff, Option.or_none]
  constructor
  · rintro ⟨⟨p, digits, rfl, hp, hne, hdigits⟩, pre, post, hs, hpre, hpost⟩
    have hsplit : escaped s = (pre ++ [p]) ++ '-' :: (digits ++ post) := by simp [hs]
    obtain ⟨s₁, s₂, rfl, hs₁, hs₂⟩ := escaped_dash hsplit
    have hslash : '\\' ∉ digits := fun h => by
      have hd := LawfulUnicode.isWord_of_decimal _ (hdigits _ h)
      simp [isWord_backslash] at hd
    obtain ⟨s₃, rfl, hs₃, hwritten⟩ := escaped_prefix hslash hs₂
    have hcloses : ∀ c ∈ s₃.head?, Closes c := (closes_head_iff s₃).1 (by rwa [hs₃])
    have hascii : IsAsciiToken (p :: '-' :: digits) := by
      refine ⟨⟨p, digits, rfl, hp, hne, hdigits⟩, fun c hc => ?_⟩
      rcases List.mem_cons.1 hc with rfl | hc
      · rcases hp with rfl | rfl | rfl <;> decide
      rcases List.mem_cons.1 hc with rfl | hc
      · decide
      · exact Nat.lt_succ_of_le (Nat.le_trans (hwritten c hc).2 (by decide))
    refine ⟨hascii, ?_⟩
    -- the letter before the dash is the end of an escape
    rcases List.eq_nil_or_concat s₁ with rfl | ⟨s₀, c, rfl⟩
    · simp at hs₁
    rw [List.concat_eq_append, escaped_append, escaped_cons, escaped_nil, List.append_nil] at hs₁
    have hend : ∀ (init : List Char) (q : Char), dumpsChar c = init ++ [q] →
        escaped s₀ ++ init = pre ∧ q = p := by
      intro init q hc
      rw [hc, ← List.append_assoc] at hs₁
      exact ⟨(List.append_inj' hs₁ rfl).1, by simpa using (List.append_inj' hs₁ rfl).2⟩
    rcases dumpsChar_cases c with ⟨-, hc⟩ | ⟨-, hquote, hc⟩ | ⟨-, ⟨rfl, hc⟩ | ⟨e, he, hc⟩⟩ |
      ⟨-, body, m, n, hc, -⟩
    · obtain ⟨rfl, rfl⟩ := hend [] c hc
      rw [List.append_nil] at hpre
      exact .inl ⟨s₀, s₃, by simp, (opens_last_iff s₀).1 hpre, hcloses⟩
    · obtain ⟨-, rfl⟩ := hend ['\\'] _ hc
      rcases hquote with rfl | rfl <;> exact absurd hp (by simp [IsPrefix])
    · obtain ⟨-, rfl⟩ := hend ['\\'] _ hc
      exact .inr ⟨s₀, digits, s₃, rfl, by simp, hcloses⟩
    · obtain ⟨-, rfl⟩ := hend ['\\'] _ hc
      simp only [List.mem_cons, List.not_mem_nil, or_false] at he
      rcases he with rfl | rfl | rfl | rfl <;> exact absurd hp (by simp [IsPrefix])
    · -- the third hexadecimal digit is a word character
      obtain ⟨rfl, -⟩ := hend ('\\' :: body ++ [Py.hexDigit m]) (Py.hexDigit n) (by rw [hc]; simp)
      rw [← List.append_assoc, List.getLast?_concat, isWord_some, isWord_hexDigit] at hpre
      cases hpre
  · rintro ⟨hascii, ⟨pre, post, rfl, hpre, hpost⟩ | ⟨pre, digits, post, rfl, rfl, hpost⟩⟩
    · refine ⟨hascii.1, escaped pre, escaped post, ?_, (opens_last_iff pre).2 hpre, (closes_head_iff post).2 hpost⟩
      rw [escaped_append, escaped_append, escaped_eq_self fun c hc => (hascii.written hc).1]
    · have hrest : escaped ('-' :: digits) = '-' :: digits :=
        escaped_eq_self fun c hc => (hascii.written (List.mem_cons_of_mem _ hc)).1
      refine ⟨hascii.1, escaped pre ++ ['\\'], escaped post, ?_, ?_, (closes_head_iff post).2 hpost⟩
      · rw [List.append_assoc pre, List.cons_append, escaped_append, escaped_cons, escaped_append, hrest]
        simp [dumpsChar]
      · rw [List.getLast?_concat]
        exact isWord_backslash

/-! ## The text of an observation -/

section Numbers

omit [UnicodeData] [LawfulUnicode]

/-- What the text of a number is made of. -/
def IsNumeric (c : Char) : Prop := c.isDigit = true ∨ c = '.' ∨ c = 'e' ∨ c = '+' ∨ c = '-'

theorem isNumeric_decimalDigits {n : Nat} {c : Char} (h : c ∈ Py.decimalDigits n) : IsNumeric c :=
  .inl (Nat.isDigit_of_mem_toDigits (by decide) (by decide) h)

theorem isNumeric_layoutFloat {ds : List Char} {point : Int} (hds : ∀ c ∈ ds, IsNumeric c) :
    ∀ c ∈ Py.layoutFloat ds point, IsNumeric c := by
  have hzero : IsNumeric '0' := .inl rfl
  have hdot : IsNumeric '.' := .inr (.inl rfl)
  have hreplicate : ∀ n, ∀ c ∈ List.replicate n '0', IsNumeric c := fun n c hc =>
    (List.mem_replicate.1 hc).2 ▸ hzero
  unfold Py.layoutFloat
  dsimp only
  split
  · split
    · simp only [List.mem_append, or_imp, forall_and]
      exact ⟨⟨by simp [hzero, hdot], hreplicate _⟩, hds⟩
    split
    · simp only [List.mem_append, or_imp, forall_and]
      exact ⟨⟨hds, hreplicate _⟩, by simp [hzero, hdot]⟩
    · intro c hc
      rcases List.mem_append.1 hc with hc | hc
      · exact hds c (List.mem_of_mem_take hc)
      rcases List.mem_cons.1 hc with rfl | hc
      · exact hdot
      · exact hds c (List.mem_of_mem_drop hc)
  · intro c hc
    rcases List.mem_append.1 hc with hc | hc
    -- the mantissa
    · split at hc
      · cases hc
      · exact hds c hc
      · rw [List.forall_mem_cons] at hds
        exact List.forall_mem_cons.2 ⟨hds.1, List.forall_mem_cons.2 ⟨hdot, hds.2⟩⟩ c hc
    rcases List.mem_cons.1 hc with rfl | hc
    · exact .inr (.inr (.inl rfl))
    rcases List.mem_cons.1 hc with rfl | hc
    · split
      · exact .inr (.inr (.inr (.inr rfl)))
      · exact .inr (.inr (.inr (.inl rfl)))
    · split at hc
      · rcases List.mem_cons.1 hc with rfl | hc
        · exact hzero
        · exact isNumeric_decimalDigits hc
      · exact isNumeric_decimalDigits hc

theorem mem_signed {neg : Bool} {c : Char} {body : List Char} (h : c ∈ if neg then '-' :: body else body) :
    c = '-' ∨ c ∈ body := by
  cases neg with
  | false => exact .inr h
  | true => exact List.mem_cons.1 h

/-- The text of a finite double. -/
theorem isNumeric_reprFloat {neg : Bool} {m p : Nat} (h : F64.Valid m p) :
    ∀ c ∈ (Py.reprFloat (.fin neg m p h)).toList, IsNumeric c := by
  unfold Py.reprFloat
  dsimp only
  intro c hc
  rw [String.toList_ofList] at hc
  rcases mem_signed hc with rfl | hc
  · exact .inr (.inr (.inr (.inr rfl)))
  split at hc
  · have hall : ("0.0".toList.all fun c => c.isDigit || decide (c = '.')) = true := by decide
    rcases Bool.or_eq_true_iff.1 (List.all_eq_true.1 hall c hc) with h | h
    · exact .inl h
    · exact .inr (.inl (of_decide_eq_true h))
  · refine isNumeric_layoutFloat (fun c hc => ?_) c hc
    rw [List.mem_reverse] at hc
    exact isNumeric_decimalDigits (List.mem_reverse.1 ((List.dropWhile_sublist _).subset hc))

theorem not_prefix_of_isNumeric {text : List Char} (h : ∀ c ∈ text, IsNumeric c) {c : Char} (hc : IsPrefix c) :
    ¬ [c, '-'] <:+: text := by
  intro hin
  have hnum := h c (hin.subset (List.mem_cons_self ..))
  rcases hc with rfl | rfl | rfl <;> rcases hnum with h | h | h | h | h <;> exact absurd h (by decide)

theorem not_prefix_of_tail {text : List Char} (h : '-' ∉ text.tail) {c : Char} : ¬ [c, '-'] <:+: text := by
  rintro ⟨pre, post, rfl⟩
  cases pre <;> simp at h

end Numbers

omit [LawfulUnicode] in
theorem not_occurs_word {text : String} {token : List Char} (h : '-' ∉ text.toList.tail) :
    ¬ Occurs token text.toList :=
  not_occurs_of_infix fun _ _ => not_prefix_of_tail h

omit [UnicodeData] [LawfulUnicode] in
theorem isNumeric_strInt {i : Int} {text : String} (h : Py.strInt i = .ok text) : ∀ c ∈ text.toList, IsNumeric c := by
  intro c hc
  unfold Py.strInt at h
  dsimp only at h
  split at h
  · cases h
  · cases h
    rw [String.toList_ofList] at hc
    split at hc
    · rcases List.mem_cons.1 hc with rfl | hc
      · exact .inr (.inr (.inr (.inr rfl)))
      · exact isNumeric_decimalDigits hc
    · exact isNumeric_decimalDigits hc

omit [LawfulUnicode] in
theorem not_occurs_dumpsFloat {x : F64} {token : List Char} : ¬ Occurs token (dumpsFloat x).toList := by
  cases x with
  | nan => exact not_occurs_word (by decide)
  | inf neg => cases neg <;> exact not_occurs_word (by decide)
  | fin neg m p hmp =>
    exact not_occurs_of_infix fun c hc => not_prefix_of_isNumeric (isNumeric_reprFloat hmp) hc

theorem occurs_dumpsStr {token : List Char} {s : String} :
    Occurs token (dumpsStr s).toList ↔ Read token s.toList := by
  have hquote : UnicodeData.isWord '"' = false := isWord_written (by decide) (by decide)
  have htext : (dumpsStr s).toList = [] ++ '"' :: (escaped s.toList ++ '"' :: []) := by
    simp [dumpsStr, escaped]
  rw [htext, occurs_append_sep hquote (by decide), occurs_append_sep hquote (by decide), occurs_escaped]
  simp [not_occurs_nil]

/-- The texts of a list stand apart. -/
theorem occurs_intercalate {token : List Char} : ∀ (texts : List String),
    Occurs token (String.intercalate ", " texts).toList ↔ ∃ text ∈ texts, Occurs token text.toList
  | [] => by simp [not_occurs_nil]
  | [text] => by simp
  | text :: text' :: texts => by
    have hcomma : UnicodeData.isWord ',' = false := isWord_written (by decide) (by decide)
    have hspace : UnicodeData.isWord ' ' = false := isWord_written (by decide) (by decide)
    have htext : (String.intercalate ", " (text :: text' :: texts)).toList =
        text.toList ++ ',' :: ([] ++ ' ' :: (String.intercalate ", " (text' :: texts)).toList) := by
      rw [String.intercalate_cons_cons]
      simp
    rw [htext, occurs_append_sep hcomma (by decide), occurs_append_sep hspace (by decide),
      occurs_intercalate (text' :: texts)]
    simp [not_occurs_nil]

/-- The brackets of a text hold no identifier. -/
theorem occurs_bracketed {token inner : List Char} {l r : Char} (hl : UnicodeData.isWord l = false) (hl' : l ≠ '-')
    (hr : UnicodeData.isWord r = false) (hr' : r ≠ '-') :
    Occurs token (l :: (inner ++ [r])) ↔ Occurs token inner := by
  have h : Occurs token ([] ++ l :: (inner ++ [r])) ↔ _ := occurs_append_sep hl hl'
  rw [List.nil_append] at h
  rw [h, occurs_append_sep hr hr']
  simp [not_occurs_nil]

set_option linter.unusedSectionVars false in
mutual

/-- **What the text of an observation shows**: the identifiers read in its
strings. -/
theorem occurs_dumps {token : List Char} : ∀ (v : Json) {text : String}, dumps v = .ok text →
    (Occurs token text.toList ↔ ∃ s ∈ v.strings, Read token s.toList)
  | .null, text, h => by
    cases h
    simp only [Json.strings, List.not_mem_nil, false_and, exists_false, iff_false]
    exact not_occurs_word (by decide)
  | .bool b, text, h => by
    cases h
    simp only [Json.strings, List.not_mem_nil, false_and, exists_false, iff_false]
    cases b <;> exact not_occurs_word (by decide)
  | .int i, text, h => by
    simp only [Json.strings, List.not_mem_nil, false_and, exists_false, iff_false]
    exact not_occurs_of_infix fun c hc => not_prefix_of_isNumeric (isNumeric_strInt h) hc
  | .float x, text, h => by
    cases h
    simp only [Json.strings, List.not_mem_nil, false_and, exists_false, iff_false]
    exact not_occurs_dumpsFloat
  | .str s, text, h => by
    cases h
    simp [Json.strings, occurs_dumpsStr]
  | .arr xs, text, h => by
    rw [dumps] at h
    obtain ⟨texts, htexts, rfl⟩ := map_ok h
    have hl : UnicodeData.isWord '[' = false := isWord_written (by decide) (by decide)
    have hr : UnicodeData.isWord ']' = false := isWord_written (by decide) (by decide)
    have htext : ("[" ++ String.intercalate ", " texts ++ "]").toList =
        '[' :: ((String.intercalate ", " texts).toList ++ [']']) := by simp
    rw [htext, occurs_bracketed hl (by decide) hr (by decide), occurs_intercalate, Json.strings]
    exact occurs_dumpsItems xs htexts
  | .obj fs, text, h => by
    rw [dumps] at h
    obtain ⟨texts, htexts, rfl⟩ := map_ok h
    have hl : UnicodeData.isWord '\x7b' = false := isWord_written (by decide) (by decide)
    have hr : UnicodeData.isWord '\x7d' = false := isWord_written (by decide) (by decide)
    have htext : ("\x7b" ++ String.intercalate ", " ((sortKeys texts).map fun e => dumpsStr e.1 ++ ": " ++ e.2) ++
        "\x7d").toList = '\x7b' :: ((String.intercalate ", "
          ((sortKeys texts).map fun e => dumpsStr e.1 ++ ": " ++ e.2)).toList ++ ['\x7d']) := by simp
    have hperm : ∀ e, e ∈ sortKeys texts ↔ e ∈ texts := fun e => (List.perm_insertionSort _ texts).mem_iff
    rw [htext, occurs_bracketed hl (by decide) hr (by decide), occurs_intercalate, Json.strings]
    simp only [List.mem_map, exists_exists_and_eq_and, hperm]
    exact occurs_dumpsFields fs htexts

theorem occurs_dumpsItems {token : List Char} : ∀ (xs : List Json) {texts : List String},
    dumpsItems xs = .ok texts →
    ((∃ text ∈ texts, Occurs token text.toList) ↔ ∃ s ∈ Json.stringsItems xs, Read token s.toList)
  | [], texts, h => by
    cases h
    simp [Json.stringsItems]
  | x :: xs, texts, h => by
    obtain ⟨text, htext, h⟩ := bind_ok h
    obtain ⟨rest, hrest, h⟩ := bind_ok h
    cases h
    simp only [Json.stringsItems, List.exists_mem_cons_iff, List.mem_append, or_and_right, exists_or]
    exact or_congr (occurs_dumps x htext) (occurs_dumpsItems xs hrest)

theorem occurs_dumpsFields {token : List Char} : ∀ (fs : List (String × Json)) {texts : List (String × String)},
    dumpsFields fs = .ok texts →
    ((∃ e ∈ texts, Occurs token (dumpsStr e.1 ++ ": " ++ e.2).toList) ↔
      ∃ s ∈ Json.stringsFields fs, Read token s.toList)
  | [], texts, h => by
    cases h
    simp [Json.stringsFields]
  | (k, v) :: fs, texts, h => by
    obtain ⟨text, htext, h⟩ := bind_ok h
    obtain ⟨rest, hrest, h⟩ := bind_ok h
    cases h
    have hcolon : UnicodeData.isWord ':' = false := isWord_written (by decide) (by decide)
    have hspace : UnicodeData.isWord ' ' = false := isWord_written (by decide) (by decide)
    have hentry : (dumpsStr k ++ ": " ++ text).toList = (dumpsStr k).toList ++ ':' :: ([] ++ ' ' :: text.toList) := by
      simp
    simp only [Json.stringsFields, List.exists_mem_cons_iff, List.mem_append, or_and_right, exists_or]
    rw [hentry, occurs_append_sep hcolon (by decide), occurs_append_sep hspace (by decide), occurs_dumpsStr,
      occurs_dumps v htext, occurs_dumpsFields fs hrest]
    simp [not_occurs_nil, or_assoc]

end

/-! ## Seen and shown -/

omit [LawfulUnicode] in
/-- An identifier stands in the task, or in a string of an observation. -/
def Shown (task : String) (observations : List Json) (token : String) : Prop :=
  Occurs token.toList task.toList ∨ ∃ o ∈ observations, ∃ s ∈ o.strings, Occurs token.toList s.toList

/-- `_seen_identifiers` answers exactly the identifiers shown. -/
def SeenIsShown (task : String) (observations : List Json) : Prop :=
  ∃ seen, seenIn task observations = .ok seen ∧ ∀ token, token ∈ seen ↔ Shown task observations token

/-- No escape matters: each observation has a text, what an escape hides is
read elsewhere, and what an escape makes up is shown elsewhere. -/
structure EscapesHarmless (task : String) (observations : List Json) : Prop where
  written : ∀ o ∈ observations, ∃ text, dumps o = .ok text
  masked : ∀ token : String, (∃ o ∈ observations, ∃ s ∈ o.strings, Masked token.toList s.toList) →
    Occurs token.toList task.toList ∨ ∃ o ∈ observations, ∃ s ∈ o.strings, Read token.toList s.toList
  conjured : ∀ token : String, (∃ o ∈ observations, ∃ s ∈ o.strings, Conjured token.toList s.toList) →
    Shown task observations token

/-- An identifier of a string is read, or hidden. -/
theorem occurs_cases {token s : List Char} (h : Occurs token s) : Read token s ∨ Masked token s := by
  obtain ⟨htoken, pre, post, rfl, hpre, hpost⟩ := occursAfter_iff.1 h
  rw [Option.or_none] at hpre
  by_cases hascii : ∀ c ∈ token, c.toNat < 128
  · by_cases hwritten : ∀ c ∈ pre.getLast?, Written c
    · refine .inl ⟨⟨htoken, hascii⟩, .inl ⟨pre, post, rfl, fun c hc => ⟨hwritten c hc, ?_⟩, fun c hc _ => ?_⟩⟩
      · rwa [Option.mem_def.1 hc] at hpre
      · rwa [Option.mem_def.1 hc] at hpost
    · simp only [not_forall] at hwritten
      obtain ⟨c, hc, hw⟩ := hwritten
      exact .inr ⟨htoken, pre, post, rfl, hpre, hpost, .inr ⟨c, hc, hw⟩⟩
  · simp only [not_forall] at hascii
    obtain ⟨c, hc, hn⟩ := hascii
    exact .inr ⟨htoken, pre, post, rfl, hpre, hpost, .inl ⟨c, hc, hn⟩⟩

/-- What is read in a string stands there, or is made up. -/
theorem read_cases {token s : List Char} (h : Read token s) : Occurs token s ∨ Conjured token s := by
  obtain ⟨hascii, ⟨pre, post, rfl, hpre, hpost⟩ | htab⟩ := h
  · have hopen : isWord pre.getLast? = false := by
      cases hl : pre.getLast? with
      | none => rfl
      | some c => exact (hpre c hl).2
    cases hh : isWord post.head? with
    | false => exact .inl (occursAfter_iff.2 ⟨hascii.1, pre, post, rfl, by rwa [Option.or_none], hh⟩)
    | true =>
      cases post with
      | nil => cases hh
      | cons c post =>
        refine .inr ⟨hascii, .inl ⟨pre, c :: post, rfl, hpre, c, rfl, fun hw => ?_, hh⟩⟩
        have hclosed : UnicodeData.isWord c = false := hpost c rfl hw
        rw [List.head?_cons, isWord_some, hclosed] at hh
        cases hh
  · exact .inr ⟨hascii, .inr htab⟩

theorem masked_occurs {token s : List Char} (h : Masked token s) : Occurs token s := by
  obtain ⟨htoken, pre, post, hs, hpre, hpost, -⟩ := h
  exact occursAfter_iff.2 ⟨htoken, pre, post, hs, by rwa [Option.or_none], hpost⟩

omit [LawfulUnicode] in
theorem conjured_read {token s : List Char} (h : Conjured token s) : Read token s := by
  obtain ⟨hascii, ⟨pre, post, hs, hpre, c, hc, hw, -⟩ | htab⟩ := h
  · refine ⟨hascii, .inl ⟨pre, post, hs, hpre, fun d hd hwritten => ?_⟩⟩
    rw [Option.mem_def.1 hc] at hd
    cases hd
    exact (hw hwritten).elim
  · exact ⟨hascii, .inr htab⟩

omit [UnicodeData] [LawfulUnicode] in
theorem mapM_dumps_ok {observations : List Json} (h : ∀ o ∈ observations, ∃ text, dumps o = .ok text) :
    ∃ texts, observations.mapM dumps = .ok texts := by
  induction observations with
  | nil => exact ⟨[], rfl⟩
  | cons o os ih =>
    rw [List.forall_mem_cons] at h
    obtain ⟨text, ht⟩ := h.1
    obtain ⟨texts, hts⟩ := ih h.2
    exact ⟨text :: texts, by rw [List.mapM_cons, ht, hts]; rfl⟩

/-- What the observations' texts show. -/
theorem occurs_texts (token : List Char) : ∀ {observations : List Json} {texts : List String},
    observations.mapM dumps = .ok texts →
    (∀ o ∈ observations, ∃ text, dumps o = .ok text) ∧
    ((∃ text ∈ texts, Occurs token text.toList) ↔ ∃ o ∈ observations, ∃ s ∈ o.strings, Read token s.toList)
  | [], texts, h => by
    cases h
    simp
  | o :: os, texts, h => by
    rw [List.mapM_cons] at h
    obtain ⟨text, htext, h⟩ := bind_ok h
    obtain ⟨rest, hrest, h⟩ := bind_ok h
    cases h
    obtain ⟨hok, hiff⟩ := occurs_texts token hrest
    refine ⟨List.forall_mem_cons.2 ⟨⟨text, htext⟩, hok⟩, ?_⟩
    simp only [List.exists_mem_cons_iff]
    exact or_congr (occurs_dumps o htext) hiff

/-- What `_seen_identifiers` answers: the identifiers of the task, and those
read in the texts of the observations. -/
theorem mem_seenIn {task : String} {observations : List Json} {seen : List String}
    (h : seenIn task observations = .ok seen) (token : String) :
    token ∈ seen ↔ Occurs token.toList task.toList ∨
      ∃ o ∈ observations, ∃ s ∈ o.strings, Read token.toList s.toList := by
  obtain ⟨texts, htexts, h⟩ := bind_ok h
  cases h
  simp only [List.mem_append, List.mem_flatMap, mem_findIds_iff]
  exact or_congr Iff.rfl (occurs_texts _ htexts).2

/-- **Seen means shown** exactly where no escape hides an identifier or makes
one up. -/
theorem seenIsShown_iff (task : String) (observations : List Json) :
    SeenIsShown task observations ↔ EscapesHarmless task observations := by
  constructor
  · rintro ⟨seen, hseen, hiff⟩
    have hread := fun token => (mem_seenIn hseen token).symm.trans (hiff token)
    obtain ⟨texts, htexts, -⟩ := bind_ok hseen
    refine ⟨(occurs_texts [] htexts).1, fun token => ?_, fun token => ?_⟩
    · rintro ⟨o, ho, s, hs, hmasked⟩
      exact (hread token).2 (.inr ⟨o, ho, s, hs, masked_occurs hmasked⟩)
    · rintro ⟨o, ho, s, hs, hconjured⟩
      exact (hread token).1 (.inr ⟨o, ho, s, hs, conjured_read hconjured⟩)
  · intro h
    obtain ⟨texts, htexts⟩ := mapM_dumps_ok h.written
    have hseen : seenIn task observations = .ok (findIds 0 none task.toList ++
        texts.flatMap fun text => findIds 0 none text.toList) := by
      rw [seenIn, htexts]
      rfl
    refine ⟨_, hseen, fun token => ?_⟩
    rw [mem_seenIn hseen]
    constructor
    · rintro (htask | ⟨o, ho, s, hs, hread⟩)
      · exact .inl htask
      rcases read_cases hread with hoccurs | hconjured
      · exact .inr ⟨o, ho, s, hs, hoccurs⟩
      · exact h.conjured token ⟨o, ho, s, hs, hconjured⟩
    · rintro (htask | ⟨o, ho, s, hs, hoccurs⟩)
      · exact .inl htask
      rcases occurs_cases hoccurs with hread | hmasked
      · exact .inr ⟨o, ho, s, hs, hread⟩
      · exact h.masked token ⟨o, ho, s, hs, hmasked⟩

omit [UnicodeData] [LawfulUnicode] in
/-- A line break hides an order that the task names too. -/
theorem namedOrder_seenIsShown :
    @SeenIsShown asciiData "refund o-1001" [.obj [("note", .str "see\no-1001")]] := by
  let _ := asciiData
  have _ := asciiData_lawful
  have hfound (text token : String) : token ∈ findIds 0 none text.toList ↔ Occurs token.toList text.toList :=
    mem_findIds_iff
  have htask : Occurs "o-1001".toList "refund o-1001".toList :=
    (hfound "refund o-1001" "o-1001").1 (List.mem_singleton_self "o-1001")
  have hseen : seenIn "refund o-1001" [.obj [("note", .str "see\no-1001")]] = .ok ["o-1001"] := by rfl
  refine (seenIsShown_iff _ _).2 ⟨fun o ho => ?_, fun token hmasked => ?_, fun token hconjured => ?_⟩
  · rw [List.mem_singleton.1 ho]
    exact ⟨_, rfl⟩
  · obtain ⟨o, ho, s, hs, hmasked⟩ := hmasked
    rw [List.mem_singleton.1 ho] at hs
    have htoken := (hfound s token).2 (masked_occurs hmasked)
    have hstrings : s = "note" ∨ s = "see\no-1001" := by simpa [Json.strings, Json.stringsFields] using hs
    rcases hstrings with rfl | rfl
    · cases htoken
    · obtain rfl := List.mem_singleton.1 (show token ∈ ["o-1001"] from htoken)
      exact .inl htask
  · obtain ⟨o, ho, s, hs, hconjured⟩ := hconjured
    have htoken := (mem_seenIn hseen token).2 (.inr ⟨o, ho, s, hs, conjured_read hconjured⟩)
    obtain rfl := List.mem_singleton.1 htoken
    exact .inl htask

omit [UnicodeData] [LawfulUnicode] in
/-- A line break before an order hides it; a tab before a negative number makes
a ticket of it. -/
theorem not_seenIsShown :
    ¬ @SeenIsShown asciiData "" [.obj [("note", .str "ref:\no-1001")]] ∧
    ¬ @SeenIsShown asciiData "" [.obj [("note", .str "diff:\t-5")]] := by
  let _ := asciiData
  constructor
  · rintro ⟨seen, hseen, hiff⟩
    have hnone : seenIn "" [.obj [("note", .str "ref:\no-1001")]] = .ok [] := by rfl
    cases hnone.symm.trans hseen
    refine absurd ((hiff "o-1001").2 (.inr ⟨_, List.mem_singleton_self _, "ref:\no-1001", by simp [Json.strings,
      Json.stringsFields], ?_⟩)) (by simp)
    have hdigits : "1001".toList.all (fun c => (UnicodeData.decimal c).isSome) = true := by decide
    exact ⟨⟨'o', "1001".toList, by decide, .inl rfl, by decide, List.all_eq_true.1 hdigits⟩, "ref:\n".toList, [],
      by decide, by decide, by decide⟩
  · rintro ⟨seen, hseen, hiff⟩
    have hone : seenIn "" [.obj [("note", .str "diff:\t-5")]] = .ok ["t-5"] := by rfl
    cases hone.symm.trans hseen
    have hfind : ∀ text ∈ ["", "note", "diff:\t-5"], findIds 0 none text.toList = [] := by
      simp only [List.forall_mem_cons]
      exact ⟨rfl, rfl, rfl, by simp⟩
    have hlacks : ∀ text ∈ ["", "note", "diff:\t-5"], ¬ Occurs "t-5".toList text.toList := fun text htext h => by
      have hmem := (@mem_findIds_iff asciiData asciiData_lawful text "t-5").2 h
      rw [hfind text htext] at hmem
      cases hmem
    rcases (hiff "t-5").1 (List.mem_singleton_self _) with h | ⟨o, ho, s, hs, h⟩
    · exact hlacks "" (by simp) h
    · rw [List.mem_singleton.1 ho] at hs
      exact hlacks s (List.mem_cons_of_mem _ (by simpa [Json.strings, Json.stringsFields] using hs)) h

end Llm

end AgentPlatform
