/-
The interpreter's conversions between values and text: `str()`, `repr()`,
`float()` and `int()`.

The interpreter's Unicode tables are a parameter (`UnicodeData`): which
characters are whitespace, decimal digits, word characters or printable. The
conversions that can fail return an `Except`: a `ValueError` for text that is
no number and for an integer of more digits than the interpreter converts, an
`OverflowError` for an integer too large for a double.
-/
import AgentPlatform.Json

namespace AgentPlatform

/-- The exceptions the modelled code tells apart. -/
inductive ExnKind where
  | typeError
  | valueError
  | overflowError
  | keyError
  | attributeError
  | notFound
  | tokenRejected
  | workloadRejected
  | httpError
  | other
  deriving DecidableEq

/-- A raised exception and its text. -/
structure Exn where
  kind : ExnKind
  msg : String
  deriving DecidableEq

/-- The interpreter's Unicode tables. -/
class UnicodeData where
  /-- `str.isspace` -/
  isSpace : Char → Bool
  /-- The digit a character of category Nd stands for. -/
  decimal : Char → Option Nat
  /-- `\w` of the regular expressions. -/
  isWord : Char → Bool
  /-- `str.isprintable` -/
  isPrintable : Char → Bool

/-- Tables for text in the ASCII range. -/
@[reducible] def asciiData : UnicodeData where
  isSpace c := decide (c ∈ [' ', '\t', '\n', '\r', Char.ofNat 11, Char.ofNat 12])
  decimal c := if 48 ≤ c.toNat ∧ c.toNat < 58 then some (c.toNat - 48) else none
  isWord c := c.isAlphanum || c = '_'
  isPrintable c := decide (32 ≤ c.toNat ∧ c.toNat < 127)

/-- The letters outside ASCII that `[a-z]` matches when case is ignored. -/
def foldedLetters : List Char := [Char.ofNat 0x130, Char.ofNat 0x131, Char.ofNat 0x17F, Char.ofNat 0x212A]

/-- What the regular expressions rely on in the tables: the ASCII range, that
a digit is a word character, and that a space is not, nor a letter. -/
class LawfulUnicode [UnicodeData] : Prop where
  isWord_ascii : ∀ c : Char, c.toNat < 128 → UnicodeData.isWord c = (c.isAlphanum || c = '_')
  decimal_ascii : ∀ c : Char, c.toNat < 128 → (UnicodeData.decimal c).isSome = c.isDigit
  isSpace_ascii : ∀ c : Char, 32 < c.toNat → c.toNat < 127 → UnicodeData.isSpace c = false
  isSpace_blank : UnicodeData.isSpace ' ' = true
  isSpace_folded : ∀ c ∈ foldedLetters, UnicodeData.isSpace c = false
  isWord_of_decimal : ∀ c : Char, (UnicodeData.decimal c).isSome = true → UnicodeData.isWord c = true
  not_isWord_of_isSpace : ∀ c : Char, UnicodeData.isSpace c = true → UnicodeData.isWord c = false

theorem asciiData_lawful : @LawfulUnicode asciiData := by
  let _ := asciiData
  have hdigit : ∀ c : Char, (UnicodeData.decimal c).isSome = c.isDigit := by
    intro c
    have hiff : (48 ≤ c.toNat ∧ c.toNat < 58) ↔ c.isDigit = true := by
      simp only [Char.isDigit, Bool.and_eq_true, decide_eq_true_eq, ge_iff_le, UInt32.le_iff_toNat_le]
      exact ⟨fun h => ⟨h.1, Nat.le_of_lt_succ h.2⟩, fun h => ⟨h.1, Nat.lt_succ_of_le h.2⟩⟩
    change (if 48 ≤ c.toNat ∧ c.toNat < 58 then some (c.toNat - 48) else none).isSome = c.isDigit
    by_cases h : 48 ≤ c.toNat ∧ c.toNat < 58
    · simp [h, hiff.1 h]
    · simpa [h] using (Bool.eq_false_iff.2 fun hd => h (hiff.2 hd)).symm
  have hspace : ∀ c : Char, UnicodeData.isSpace c = true →
      c ∈ [' ', '\t', '\n', '\r', Char.ofNat 11, Char.ofNat 12] := fun c h => of_decide_eq_true h
  refine ⟨fun _ _ => rfl, fun c _ => hdigit c, fun c hlow _ => ?_, rfl, fun c h => ?_, fun c h => ?_, fun c h => ?_⟩
  · refine Bool.eq_false_iff.2 fun h => ?_
    have hc := hspace c h
    simp only [List.mem_cons, List.not_mem_nil, or_false] at hc
    rcases hc with rfl | rfl | rfl | rfl | rfl | rfl <;> exact absurd hlow (by decide)
  · simp only [foldedLetters, List.mem_cons, List.not_mem_nil, or_false] at h
    rcases h with rfl | rfl | rfl | rfl <;> rfl
  · rw [hdigit c] at h
    change (c.isAlphanum || decide (c = '_')) = true
    simp [Char.isAlphanum, h]
  · have hc := hspace c h
    simp only [List.mem_cons, List.not_mem_nil, or_false] at hc
    rcases hc with rfl | rfl | rfl | rfl | rfl | rfl <;> rfl

namespace Py

variable [UnicodeData]

/-- `s.strip()`. -/
def strip (s : List Char) : List Char :=
  ((s.dropWhile UnicodeData.isSpace).reverse.dropWhile UnicodeData.isSpace).reverse

/-! ## Reading numbers -/

/-- Underscores may stand between two digits, and are dropped. -/
def dropUnderscores : Bool → List Char → Option (List Char)
  | _, [] => some []
  | afterDigit, '_' :: rest =>
    match rest with
    | c :: _ => if afterDigit && (UnicodeData.decimal c).isSome then dropUnderscores false rest else none
    | [] => none
  | _, c :: rest => (dropUnderscores (UnicodeData.decimal c).isSome rest).map (c :: ·)

/-- The leading decimal digits of a text, and what follows them. -/
def takeDigits : List Char → List Nat × List Char
  | [] => ([], [])
  | c :: rest =>
    match UnicodeData.decimal c with
    | some n => ((n :: (takeDigits rest).1), (takeDigits rest).2)
    | none => ([], c :: rest)

def digitsValue (ds : List Nat) : Nat := ds.foldl (fun n d => 10 * n + d) 0

/-- An optional sign, and what follows it. -/
def takeSign : List Char → Bool × List Char
  | '-' :: rest => (true, rest)
  | '+' :: rest => (false, rest)
  | s => (false, s)

/-- An exponent at the end of a number: absent, or `e`, a sign and digits. -/
def takeExponent : List Char → Option Int
  | [] => some 0
  | e :: rest =>
    if e = 'e' ∨ e = 'E' then
      let (neg, rest) := takeSign rest
      match takeDigits rest with
      | ([], _) => none
      | (ds, []) => some (if neg then -(digitsValue ds : Int) else digitsValue ds)
      | _ => none
    else none

/-- The double nearest `± n * 10^e`. -/
def ofDecimal (neg : Bool) (n : Nat) (e : Int) : F64 :=
  if 0 ≤ e then F64.ofQuot neg (n * 10 ^ e.toNat) 1 else F64.ofQuot neg n (10 ^ (-e).toNat)

/-- A number without sign or surrounding space. -/
def readMagnitude (neg : Bool) (s : List Char) : Option F64 :=
  let lower := s.map Char.toLower
  if lower = "inf".toList ∨ lower = "infinity".toList then some (.inf neg)
  else if lower = "nan".toList then some .nan
  else
    let (whole, rest) := takeDigits s
    let (frac, rest) := match rest with
      | '.' :: rest => takeDigits rest
      | rest => ([], rest)
    if whole ++ frac = [] then none
    else (takeExponent rest).map fun e =>
      ofDecimal neg (digitsValue (whole ++ frac)) (e - frac.length)

/-- `float(s)` on a string. -/
def floatOfStr (s : String) : Except Exn F64 :=
  let body := strip s.toList
  match (dropUnderscores false body).bind fun t => readMagnitude (takeSign t).1 (takeSign t).2 with
  | some x => .ok x
  | none => .error ⟨.valueError, "could not convert string to float"⟩

/-- `int(s)` on a string. -/
def intOfStr (s : String) : Except Exn Int :=
  match dropUnderscores false (strip s.toList) with
  | none => .error ⟨.valueError, "invalid literal for int()"⟩
  | some t =>
    let (neg, rest) := takeSign t
    match takeDigits rest with
    | (ds, []) =>
      if ds = [] then .error ⟨.valueError, "invalid literal for int()"⟩
      else if maxStrDigits < ds.length then
        .error ⟨.valueError, "Exceeds the limit (4300 digits) for integer string conversion"⟩
      else .ok (if neg then -(digitsValue ds : Int) else digitsValue ds)
    | _ => .error ⟨.valueError, "invalid literal for int()"⟩

/-- `float(v)`. -/
def float : Json → Except Exn F64
  | .float x => .ok x
  | .bool b => .ok (F64.ofInt (if b then 1 else 0))
  | .int i =>
    if (F64.ofInt i).isFinite then .ok (F64.ofInt i)
    else .error ⟨.overflowError, "int too large to convert to float"⟩
  | .str s => floatOfStr s
  | _ => .error ⟨.typeError, "float() argument must be a string or a real number"⟩

/-- `int(v)`: a double is cut toward zero. -/
def int : Json → Except Exn Int
  | .int i => .ok i
  | .bool b => .ok (if b then 1 else 0)
  | .float .nan => .error ⟨.valueError, "cannot convert float NaN to integer"⟩
  | .float (.inf _) => .error ⟨.overflowError, "cannot convert float infinity to integer"⟩
  | .float (.fin neg m p _) =>
    let q : Nat := m * 2 ^ p / F64.unit
    .ok (if neg then -(q : Int) else q)
  | .str s => intOfStr s
  | _ => .error ⟨.typeError, "int() argument must be a string or a real number"⟩

/-! ## Writing numbers -/

/-- The `n`-digit decimals just below and above `a / d > 0`, with the power
of ten of their last digit. -/
def decimalsAround (a d n : Nat) : List (Nat × Int) :=
  -- the power of ten that leaves `n` digits before the point
  let whole := decimalDigits (a / d)
  let e : Int := if a < d then
      -- the first digit after the point stands where `10^k * a` reaches `d`
      let k := ((List.range 400).find? fun k => decide (d ≤ a * 10 ^ k)).getD 400
      1 - (k : Int) - n
    else (whole.length : Int) - n
  let (num, den) := if 0 ≤ e then (a, d * 10 ^ e.toNat) else (a * 10 ^ (-e).toNat, d)
  [(num / den, e), (num / den + 1, e)]

/-- How far a decimal is from `a / d`, over a common denominator. -/
def decimalDistance (a d : Nat) (c : Nat × Int) : Nat :=
  let (x, y) := if 0 ≤ c.2 then (c.1 * 10 ^ c.2.toNat * d, a) else (c.1 * d, a * 10 ^ (-c.2).toNat)
  (x - y) + (y - x)

/-- The shortest decimal that reads back as a positive double, of those equally
short the nearest, or the even one where two are equally near. -/
def shortest (m p : Nat) : Nat × Int :=
  let a := m * 2 ^ p
  let d := F64.unit
  let readsBack (c : Nat × Int) : Bool :=
    match ofDecimal false c.1 c.2 with
    | .fin _ m' p' _ => decide (m' = m ∧ p' = p)
    | _ => false
  let pick (n : Nat) : Option (Nat × Int) :=
    match (decimalsAround a d n).filter readsBack with
    | [c] => some c
    | [c, c'] =>
      let below := decimalDistance a d c
      let above := decimalDistance a d c'
      some (if below < above ∨ below = above ∧ c.1 % 2 = 0 then c else c')
    | _ => none
  ((List.range' 1 17).findSome? pick).getD (a / d, 0)

/-- The layout of `repr` for digits `ds` with the decimal point after
`point` of them: an exponent below `1e-4` and from `1e16` on. -/
def layoutFloat (ds : List Char) (point : Int) : List Char :=
  let n := ds.length
  if -4 < point ∧ point ≤ 16 then
    if point ≤ 0 then "0.".toList ++ List.replicate (-point).toNat '0' ++ ds
    else if n ≤ point.toNat then ds ++ List.replicate (point.toNat - n) '0' ++ ".0".toList
    else ds.take point.toNat ++ '.' :: ds.drop point.toNat
  else
    let mantissa := match ds with
      | [] => []
      | [d] => [d]
      | d :: rest => d :: '.' :: rest
    let e := point - 1
    let digits := decimalDigits e.natAbs
    let padded := if digits.length < 2 then '0' :: digits else digits
    mantissa ++ 'e' :: (if e < 0 then '-' else '+') :: padded

/-- `repr(x)` of a double. -/
def reprFloat : F64 → String
  | .nan => "nan"
  | .inf neg => if neg then "-inf" else "inf"
  | .fin neg m p _ =>
    let body := if m = 0 then "0.0".toList else
      let (n, e) := shortest m p
      -- trailing zeros of the decimal belong to the exponent
      let ds := (decimalDigits n).reverse.dropWhile (· = '0') |>.reverse
      layoutFloat ds ((decimalDigits n).length + e)
    String.ofList (if neg then '-' :: body else body)

/-- `str(i)` of an integer, in decimal up to the digit limit. -/
def strInt (i : Int) : Except Exn String :=
  let ds := decimalDigits i.natAbs
  if maxStrDigits < ds.length then
    .error ⟨.valueError, "Exceeds the limit (4300 digits) for integer string conversion"⟩
  else .ok (String.ofList (if i < 0 then '-' :: ds else ds))

/-! ## What is read -/

/-- A text without white space is its own `strip()`. -/
theorem strip_eq_self {s : List Char} (h : ∀ c ∈ s, UnicodeData.isSpace c = false) : strip s = s := by
  have hdrop {l : List Char} (hl : ∀ c ∈ l, UnicodeData.isSpace c = false) : l.dropWhile UnicodeData.isSpace = l := by
    cases l with
    | nil => rfl
    | cons c l => rw [List.dropWhile_cons, if_neg (by simp [hl c (List.mem_cons_self ..)])]
  rw [strip, hdrop h, hdrop fun c hc => h c (List.mem_reverse.1 hc), List.reverse_reverse]

theorem dropUnderscores_eq_self : ∀ {s : List Char} {afterDigit : Bool}, '_' ∉ s →
    dropUnderscores afterDigit s = some s
  | [], _, _ => by rw [dropUnderscores]
  | c :: s, afterDigit, h => by
    have hc : c ≠ '_' := fun hc => h (hc ▸ List.mem_cons_self ..)
    rw [dropUnderscores, dropUnderscores_eq_self fun hs => h (List.mem_cons_of_mem _ hs), Option.map_some]
    exact hc

/-- The digits a text starts with, read whole. -/
theorem takeDigits_append {rest : List Char} (hrest : ∀ d ∈ rest.head?, (UnicodeData.decimal d).isSome = false) :
    ∀ {ds : List Char}, (∀ d ∈ ds, (UnicodeData.decimal d).isSome = true) →
      takeDigits (ds ++ rest) = (ds.filterMap UnicodeData.decimal, rest)
  | [], _ => by
    cases rest with
    | nil => rfl
    | cons d rest =>
      cases hd : UnicodeData.decimal d with
      | none => simp [takeDigits, hd]
      | some n => simp [hd] at hrest
  | d :: ds, h => by
    obtain ⟨n, hn⟩ := Option.isSome_iff_exists.1 (h d (List.mem_cons_self ..))
    have ih := takeDigits_append hrest fun d hd => h d (List.mem_cons_of_mem _ hd)
    simp [takeDigits, hn, ih]

/-! ## Writing values -/

def hexDigit (n : Nat) : Char := "0123456789abcdef".toList.getD n '0'

/-- `n` in hexadecimal, `w` digits wide. -/
def hex : Nat → Nat → List Char
  | 0, _ => []
  | w + 1, n => hex w (n / 16) ++ [hexDigit (n % 16)]

/-- One character inside a quoted string. -/
def escapeChar (quote c : Char) : List Char :=
  if c = quote ∨ c = '\\' then ['\\', c]
  else if c = '\n' then ['\\', 'n']
  else if c = '\r' then ['\\', 'r']
  else if c = '\t' then ['\\', 't']
  else if UnicodeData.isPrintable c then [c]
  else if c.toNat < 0x100 then '\\' :: 'x' :: hex 2 c.toNat
  else if c.toNat < 0x10000 then '\\' :: 'u' :: hex 4 c.toNat
  else '\\' :: 'U' :: hex 8 c.toNat

/-- `repr(s)` of a string: double quotes when it holds a single quote only. -/
def reprStr (s : String) : String :=
  let quote := if s.toList.contains '\'' && !s.toList.contains '"' then '"' else '\''
  String.ofList (quote :: s.toList.flatMap (escapeChar quote) ++ [quote])

mutual

/-- `repr(v)`. -/
def repr : Json → Except Exn String
  | .null => .ok "None"
  | .bool b => .ok (if b then "True" else "False")
  | .int i => strInt i
  | .float x => .ok (reprFloat x)
  | .str s => .ok (reprStr s)
  | .arr xs => (reprItems xs).map fun ss => "[" ++ String.intercalate ", " ss ++ "]"
  | .obj fs => (reprFields fs).map fun ss => "\x7b" ++ String.intercalate ", " ss ++ "\x7d"

def reprItems : List Json → Except Exn (List String)
  | [] => .ok []
  | x :: xs => do
    let s ← repr x
    let ss ← reprItems xs
    return s :: ss

def reprFields : List (String × Json) → Except Exn (List String)
  | [] => .ok []
  | (k, v) :: fs => do
    let s ← repr v
    let ss ← reprFields fs
    return (reprStr k ++ ": " ++ s) :: ss

end

/-- `str(v)`: a string is itself. -/
def str : Json → Except Exn String
  | .str s => .ok s
  | v => repr v

/-! ## What can be written -/

omit [UnicodeData] in
theorem strInt_ok {i : Int} (h : (Json.int i).encodable = true) : ∃ s, strInt i = .ok s := by
  simp only [Json.encodable, decide_eq_true_eq] at h
  exact ⟨_, by simp only [strInt, Nat.not_lt.2 h, if_false]; rfl⟩

mutual

/-- A value that has a JSON text has a `repr`. -/
theorem repr_ok : ∀ (v : Json), v.encodable = true → ∃ s, repr v = .ok s
  | .null, _ => ⟨_, rfl⟩
  | .bool b, _ => ⟨_, rfl⟩
  | .int i, h => strInt_ok h
  | .float x, _ => ⟨_, rfl⟩
  | .str s, _ => ⟨_, rfl⟩
  | .arr xs, h => by
    obtain ⟨ss, hss⟩ := reprItems_ok xs h
    exact ⟨_, by rw [repr, hss]; rfl⟩
  | .obj fs, h => by
    obtain ⟨ss, hss⟩ := reprFields_ok fs h
    exact ⟨_, by rw [repr, hss]; rfl⟩

theorem reprItems_ok : ∀ (xs : List Json), Json.encodableItems xs = true → ∃ ss, reprItems xs = .ok ss
  | [], _ => ⟨_, rfl⟩
  | x :: xs, h => by
    simp only [Json.encodableItems, Bool.and_eq_true] at h
    obtain ⟨s, hs⟩ := repr_ok x h.1
    obtain ⟨ss, hss⟩ := reprItems_ok xs h.2
    exact ⟨_, by rw [reprItems, hs, hss]; rfl⟩

theorem reprFields_ok : ∀ (fs : List (String × Json)), Json.encodableFields fs = true →
    ∃ ss, reprFields fs = .ok ss
  | [], _ => ⟨_, rfl⟩
  | (k, v) :: fs, h => by
    simp only [Json.encodableFields, Bool.and_eq_true] at h
    obtain ⟨s, hs⟩ := repr_ok v h.1
    obtain ⟨ss, hss⟩ := reprFields_ok fs h.2
    exact ⟨_, by rw [reprFields, hs, hss]; rfl⟩

end

theorem str_ok {v : Json} (h : v.encodable = true) : ∃ s, str v = .ok s := by
  cases v with
  | str s => exact ⟨s, rfl⟩
  | _ => exact repr_ok _ h

/-! ## What cannot -/

omit [UnicodeData] in
theorem strInt_error {i : Int} {e : Exn} (h : strInt i = .error e) : e.kind = .valueError := by
  unfold strInt at h
  dsimp only at h
  split at h
  · cases h
    rfl
  · cases h

mutual

theorem repr_error : ∀ (v : Json) {e : Exn}, repr v = .error e → e.kind = .valueError
  | .null, _, h => by cases h
  | .bool b, _, h => by cases h
  | .int i, _, h => strInt_error h
  | .float x, _, h => by cases h
  | .str s, _, h => by cases h
  | .arr xs, e, h => by
    rw [repr] at h
    cases hxs : reprItems xs with
    | ok ss => simp [hxs, Except.map] at h
    | error e' =>
      simp only [hxs, Except.map, Except.error.injEq] at h
      exact h ▸ reprItems_error xs hxs
  | .obj fs, e, h => by
    rw [repr] at h
    cases hfs : reprFields fs with
    | ok ss => simp [hfs, Except.map] at h
    | error e' =>
      simp only [hfs, Except.map, Except.error.injEq] at h
      exact h ▸ reprFields_error fs hfs

theorem reprItems_error : ∀ (xs : List Json) {e : Exn}, reprItems xs = .error e → e.kind = .valueError
  | [], _, h => by cases h
  | x :: xs, e, h => by
    rw [reprItems] at h
    cases hx : repr x with
    | error e' =>
      simp only [hx, bind, Except.bind, Except.error.injEq] at h
      exact h ▸ repr_error x hx
    | ok s =>
      cases hxs : reprItems xs with
      | error e' =>
        simp only [hx, hxs, bind, Except.bind, Except.error.injEq] at h
        exact h ▸ reprItems_error xs hxs
      | ok ss => simp [hx, hxs, bind, Except.bind, pure, Except.pure] at h

theorem reprFields_error : ∀ (fs : List (String × Json)) {e : Exn}, reprFields fs = .error e →
    e.kind = .valueError
  | [], _, h => by cases h
  | (k, v) :: fs, e, h => by
    rw [reprFields] at h
    cases hv : repr v with
    | error e' =>
      simp only [hv, bind, Except.bind, Except.error.injEq] at h
      exact h ▸ repr_error v hv
    | ok s =>
      cases hfs : reprFields fs with
      | error e' =>
        simp only [hv, hfs, bind, Except.bind, Except.error.injEq] at h
        exact h ▸ reprFields_error fs hfs
      | ok ss => simp [hv, hfs, bind, Except.bind, pure, Except.pure] at h

end

theorem str_error {v : Json} {e : Exn} (h : str v = .error e) : e.kind = .valueError := by
  cases v with
  | str s => cases h
  | _ => exact repr_error _ h

end Py

end AgentPlatform
