/-
What an audit record shows of a value (`redact` of `sdk/agentnhi/audit.py`).

A text is masked by two rewritings, one after the other: the JWTs in it, then
the bearer credentials. Both work on texts whose characters carry a mark
(`redactMarked`), so that what becomes of one occurrence can be told from
another of the same letters; `redactString` is the case without marks. The
lowering of `str.lower`, the configured keys and `str(k)` are parameters.
-/
import AgentPlatform.Patterns
import AgentPlatform.PyText

namespace AgentPlatform

namespace Redaction

open Rewriting

/-! ## The patterns -/

/-- What a character is compared by when case is ignored. -/
def foldLetter (c : Char) : Char :=
  if c = Char.ofNat 0x130 ∨ c = Char.ofNat 0x131 then 'i'
  else if c = Char.ofNat 0x17F then 's'
  else if c = Char.ofNat 0x212A then 'k'
  else c.toLower

/-- A literal. -/
def exactly (s : String) : Piece Char := literal (s.toList.map fun l c => c == l)

/-- A literal in small letters, in any case. -/
def anyCase (s : String) : Piece Char := literal (s.toList.map fun l c => foldLetter c == l)

/-- `[_-]?` -/
def optionalSeparator : Piece Char
  | c :: t => if c = '_' ∨ c = '-' then some t else some (c :: t)
  | [] => some []

/-- The alternatives of `_SECRET_KEY_RE`. -/
def secretWords : List (Piece Char) :=
  [anyCase "authorization", anyCase "cookie", anyCase "token", anyCase "secret", anyCase "password", anyCase "passwd",
    andThen (anyCase "api") (andThen optionalSeparator (anyCase "key")), anyCase "assertion", anyCase "jti",
    anyCase "credential", andThen (anyCase "private") (andThen optionalSeparator (anyCase "key")), anyCase "session"]

/-- `[A-Za-z0-9_\-]` -/
def isSegmentChar (c : Char) : Bool := c.isAlphanum || c == '_' || c == '-'

/-- `[A-Za-z0-9._\-]`, in any case. -/
def isCredentialChar (c : Char) : Bool := (foldLetter c).isAlphanum || c == '.' || c == '_' || c == '-'

/-- `_JWT_RE` -/
def jwt : Piece Char :=
  andThen (exactly "eyJ") <| andThen (run isSegmentChar 8) <| andThen (exactly ".") <|
    andThen (run isSegmentChar 8) <| andThen (exactly ".") (run isSegmentChar 8)

section Bearer

variable [UnicodeData]

/-- `_BEARER_RE` -/
def bearer : Piece Char :=
  andThen (anyCase "bearer") <| andThen (run UnicodeData.isSpace 1) (run isCredentialChar 1)

end Bearer

/-! ## Texts -/

def jwtMarker : List Char := "[REDACTED:jwt]".toList

def bearerMarker : List Char := "Bearer [REDACTED]".toList

section Texts

/-- The rewriting of a pattern, on characters that carry a mark: what a
replacement puts in is `unmarked`. -/
def mask {μ : Type} (f : Piece Char) (marker : List Char) (unmarked : μ) (t : List (Char × μ)) : List (Char × μ) :=
  sub (fun t => f.pattern (t.map Prod.fst)) (marker.map (·, unmarked)) 0 t

variable [UnicodeData]

/-- `_redact_string`, on marked characters. -/
def redactMarked {μ : Type} (unmarked : μ) (t : List (Char × μ)) : List (Char × μ) :=
  mask bearer bearerMarker unmarked (mask jwt jwtMarker unmarked t)

/-- `_redact_string` -/
def redactString (s : String) : String :=
  String.ofList (sub bearer.pattern bearerMarker 0 (sub jwt.pattern jwtMarker 0 s.toList))

end Texts

/-! ## Keys -/

/-- `_PII_KEYS` -/
def piiKeys : List String :=
  ["name", "full_name", "first_name", "last_name", "customer_name", "username", "email", "email_address", "phone",
    "phone_number", "ssn", "tax_id", "address", "street", "city", "postal_code", "zip", "dob", "date_of_birth", "card",
    "card_number", "pan", "cvv", "cvc", "iban", "account_number", "routing_number"]

/-- What the redaction of a dictionary's entries depends on: `str(k)`,
`str.lower` and the configured names. -/
structure KeyRules (κ : Type) where
  text : κ → String
  lower : String → String
  configured : List String

/-- `_extra_keys`, as `configure` fills it. -/
def KeyRules.extraKeys {κ : Type} (rules : KeyRules κ) : List String := rules.configured.map rules.lower

/-- `_is_secret_key` -/
def isSecretKey (key : String) : Bool := key.toList.tails.any fun t => secretWords.any fun f => (f t).isSome

/-- `_is_pii_key` -/
def isPiiKey {κ : Type} [UnicodeData] (rules : KeyRules κ) (key : String) : Bool :=
  let k := rules.lower (String.ofList (Py.strip key.toList))
  piiKeys.contains k || rules.extraKeys.contains k

/-! ## Values -/

/-- What may be redacted: dictionaries, lists, tuples and strings, and the
scalars, which are left alone. -/
inductive Value (κ ς : Type) where
  | scalar (x : ς)
  | str (s : String)
  | list (vs : List (Value κ ς))
  | tuple (vs : List (Value κ ς))
  | dict (fs : List (κ × Value κ ς))

/-- `REDACTED` -/
def redacted : String := "[REDACTED]"

/-- `REDACTED_PII` -/
def redactedPii : String := "[REDACTED:pii]"

section Values

variable {κ ς : Type} [UnicodeData] (rules : KeyRules κ)

mutual

/-- `redact(value)` -/
def redact : Value κ ς → Value κ ς
  | .dict fs => .dict (redactFields fs)
  | .list vs => .list (redactItems vs)
  | .tuple vs => .list (redactItems vs)
  | .str s => .str (redactString s)
  | .scalar x => .scalar x

def redactItems : List (Value κ ς) → List (Value κ ς)
  | [] => []
  | v :: vs => redact v :: redactItems vs

/-- The entries: `redact(v, key=str(k))` looks at the key first. -/
def redactFields : List (κ × Value κ ς) → List (κ × Value κ ς)
  | [] => []
  | (k, v) :: fs =>
    (k, if isSecretKey (rules.text k) then .str redacted
      else if isPiiKey rules (rules.text k) then .str redactedPii
      else redact v) :: redactFields fs

end

end Values

end Redaction

end AgentPlatform
