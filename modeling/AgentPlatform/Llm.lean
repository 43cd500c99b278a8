/-
What the model proposes (`app/agent/llm.py`, `app/agent/guardrails.py`): from
the model's reply to the decision the graph is given.

The reply is what `_chat` returned or raised, read as JSON where it can be. The
regular expressions are matched as the interpreter matches them: leftmost, the
longest repetition first, stepping back while the rest does not match. The
prompt and the audit records are left out: the model answers anything.
-/
import AgentPlatform.Graph
import AgentPlatform.Tools

namespace AgentPlatform

namespace Llm

section Patterns

variable [UnicodeData]

def isWord (c : Option Char) : Bool := c.elim false UnicodeData.isWord

/-- `\b` between two characters of a text. -/
def boundary (before after : Option Char) : Bool := isWord before != isWord after

/-- The digits a text starts with. -/
def leadingDigits (s : List Char) : List Char := s.takeWhile fun c => (UnicodeData.decimal c).isSome

/-- `\d+` and what must follow it: the longest run of digits first. -/
def digitsThen {α : Type} (s : List Char) (rest : List Char → List Char → Option α) : Option α :=
  (List.range (leadingDigits s).length).reverse.findSome? fun n => rest (s.take (n + 1)) (s.drop (n + 1))

/-- `\b([oct]-\d+)\b` at the start of a text, after the character before it. -/
def idAt (before : Option Char) : List Char → Option (List Char)
  | c :: '-' :: s =>
    if decide (c ∈ ['o', 'c', 't']) && boundary before (some c) then
      digitsThen s fun digits after =>
        if boundary digits.getLast? after.head? then some (c :: '-' :: digits) else none
    else none
  | _ => none

/-- `_ID_TOKEN.findall`: matches do not overlap. -/
def findIds (skip : Nat) (before : Option Char) : List Char → List String
  | [] => []
  | c :: s =>
    match skip with
    | skip + 1 => findIds skip (some c) s
    | 0 =>
      match idAt before (c :: s) with
      | some token => String.ofList token :: findIds (token.length - 1) (some c) s
      | none => findIds 0 (some c) s

/-- `[\w-]` -/
def isWordOrDash (c : Option Char) : Bool := isWord c || decide (c = some '-')

/-- `(?<![\w-])(\d+(?:\.\d+)?)(?![\w-])` at the start of a text. -/
def amountAt (before : Option Char) (s : List Char) : Option (List Char) :=
  if isWordOrDash before then none
  else
    digitsThen s fun whole after =>
      let fraction := match after with
        | '.' :: t => digitsThen t fun digits rest =>
          if isWordOrDash rest.head? then none else some (whole ++ '.' :: digits)
        | _ => none
      fraction.or (if isWordOrDash after.head? then none else some whole)

/-- `re.search` of the amount. -/
def findAmount (before : Option Char) : List Char → Option String
  | [] => none
  | c :: s =>
    match amountAt before (c :: s) with
    | some numeral => some (String.ofList numeral)
    | none => findAmount (some c) s

end Patterns

/-! ## The text of an observation -/

section Dumps

/-- A character inside a string of `json.dumps`. -/
def dumpsChar (c : Char) : List Char :=
  if c = '"' ∨ c = '\\' then ['\\', c]
  else if c = '\n' then ['\\', 'n']
  else if c = '\r' then ['\\', 'r']
  else if c = '\t' then ['\\', 't']
  else if c = Char.ofNat 8 then ['\\', 'b']
  else if c = Char.ofNat 12 then ['\\', 'f']
  else if 0x20 ≤ c.toNat ∧ c.toNat ≤ 0x7e then [c]
  else if c.toNat < 0x10000 then '\\' :: 'u' :: Py.hex 4 c.toNat
  else
    -- a surrogate pair
    let n := c.toNat - 0x10000
    '\\' :: 'u' :: Py.hex 4 (0xd800 + n / 0x400) ++ '\\' :: 'u' :: Py.hex 4 (0xdc00 + n % 0x400)

def dumpsStr (s : String) : String := String.ofList ('"' :: s.toList.flatMap dumpsChar ++ ['"'])

def dumpsFloat : F64 → String
  | .nan => "NaN"
  | .inf neg => if neg then "-Infinity" else "Infinity"
  | x => Py.reprFloat x

/-- Fields in the order of their keys. -/
def sortKeys (texts : List (String × String)) : List (String × String) :=
  texts.insertionSort fun a b => a.1 ≤ b.1

mutual

/-- `json.dumps(v, sort_keys=True)` -/
def dumps : Json → Except Exn String
  | .null => .ok "null"
  | .bool b => .ok (if b then "true" else "false")
  | .int i => Py.strInt i
  | .float x => .ok (dumpsFloat x)
  | .str s => .ok (dumpsStr s)
  | .arr xs => (dumpsItems xs).map fun texts => "[" ++ String.intercalate ", " texts ++ "]"
  | .obj fs => (dumpsFields fs).map fun texts =>
    "\x7b" ++ String.intercalate ", " ((sortKeys texts).map fun e => dumpsStr e.1 ++ ": " ++ e.2) ++ "\x7d"

def dumpsItems : List Json → Except Exn (List String)
  | [] => .ok []
  | x :: xs => do
    let text ← dumps x
    let texts ← dumpsItems xs
    return text :: texts

def dumpsFields : List (String × Json) → Except Exn (List (String × String))
  | [] => .ok []
  | (k, v) :: fs => do
    let text ← dumps v
    let texts ← dumpsFields fs
    return (k, text) :: texts

end

end Dumps

/-- An observation as the dictionary it is. -/
def observationJson (o : Observation) : Json :=
  .obj [("tool", .str o.tool), ("args", .obj o.args.entries), ("result", o.result)]

variable [UnicodeData]

/-! ## Arguments -/

/-- The argument an identifier of this prefix is. -/
def argumentOf : List Char → String
  | 'o' :: _ => "order_id"
  | 'c' :: _ => "customer_id"
  | _ => "ticket_id"

/-- `_extract_args(task)` -/
def extractArgs (task : String) : Except Exn Args :=
  let ids : Args := match (findIds 0 none task.toList).head? with
    | some value => Dict.ofList [(argumentOf value.toList, .str value)]
    | none => ∅
  match findAmount none task.toList with
  | some numeral => (Py.floatOfStr numeral).map fun x => ids.insert "amount" (.float x)
  | none => .ok ids

/-- `v in (None, "", 0)` -/
def isGap (v : Json) : Bool := v.isBlank || Json.pyEq v (.int 0)

/-- One turn of the loop of `_fill_gaps`. -/
def fillGap (properties : Properties) (args : Args) (item : String × Json) : Args :=
  if (properties.get? item.1).isSome && isGap ((args.get? item.1).getD .null) then args.insert item.1 item.2 else args

/-- `_fill_gaps(tool, args, task)` -/
def fillGaps (properties : Properties) (args : Args) (task : String) : Except Exn Args := do
  let extracted ← extractArgs task
  coerceArgs properties (extracted.entries.foldl (fillGap properties) args)

/-- `_seen_identifiers(task, observations)` -/
def seenIdentifiers (task : String) (observations : List Observation) : Except Exn (List String) := do
  let texts ← observations.mapM fun o => dumps (observationJson o)
  return findIds 0 none task.toList ++ texts.flatMap fun text => findIds 0 none text.toList

/-! ## Guardrails -/

/-- `check_decision(tool, args)` -/
def checkDecision (required : List String) (args : Args) : List String :=
  required.filter fun name => ((args.get? name).getD .null).isBlank

/-- `identifier_args(tool)` -/
def identifierArgs (required : List String) : List String :=
  required.filter fun name => "_id".toList.isSuffixOf name.toList

/-- One turn of the loop of `resolve_identifiers`. -/
def resolveIdentifier (seen : List String) (fromTask : Args) (kept : Args) (name : String) : Except Exn Args :=
  let value := (kept.get? name).getD .null
  if value.isBlank then .ok kept
  else
    (Py.str value).map fun text =>
      if text ∈ seen then kept
      else
        let named := (fromTask.get? name).getD .null
        if named.isBlank then kept.erase name else kept.insert name named

/-- `resolve_identifiers(tool, args, seen, from_task)`, the arguments only. -/
def resolveIdentifiers (required : List String) (args : Args) (seen : List String) (fromTask : Args) :
    Except Exn Args :=
  (identifierArgs required).foldlM (resolveIdentifier seen fromTask) args

/-! ## The decision -/

/-- What came back from the model. -/
inductive ModelReply where
  | revoked
  | unreachable
  | unparseable
  | read (decision : Json)

/-- `_no_tool(None, reason, cause)` -/
def noTool (reason : String) : ModelDecision := { tool := none, reason := some (.str reason) }

/-- Two items, as `dict()` takes them out of an element of a list. -/
def pairOf : Json → Except Exn (Json × Json)
  | .arr [k, v] => .ok (k, v)
  | .str s =>
    match s.toList with
    | [k, v] => .ok (.str (String.ofList [k]), .str (String.ofList [v]))
    | _ => .error ⟨.valueError, "dictionary update sequence element has the wrong length"⟩
  | .obj [(k, _), (v, _)] => .ok (.str k, .str v)
  | .arr _ | .obj _ => .error ⟨.valueError, "dictionary update sequence element has the wrong length"⟩
  | _ => .error ⟨.typeError, "cannot convert dictionary update sequence element"⟩

/-- `dict(v)`, its string keys: no schema declares another. -/
def dictOf : Json → Except Exn Args
  | .obj fs => .ok (Dict.ofList fs)
  | .arr xs => do
    let pairs ← xs.mapM pairOf
    if pairs.any fun e => unhashable e.1 then throw ⟨.typeError, "unhashable type"⟩
    return Dict.ofList (pairs.filterMap fun e => match e.1 with
      | .str k => some (k, e.2)
      | _ => none)
  | .str s => if s = "" then .ok ∅ else .error ⟨.valueError, "dictionary update sequence element has the wrong length"⟩
  | _ => .error ⟨.typeError, "object is not iterable"⟩

/-- A key of a dictionary of tools; an unhashable one raises. -/
def toolKey : Json → Except Exn (Option String)
  | .str s => .ok (some s)
  | v => if unhashable v then .error ⟨.typeError, "unhashable type"⟩ else .ok none

section Decide

variable {σ : Type}

/-- The call proposed for an offered tool. -/
def propose (tool : Tool σ) (decision : Json) (task : String) (observations : List Observation) :
    Except Exn ModelDecision := do
  let given ← dictOf (orEmpty ((decision.field "args").getD .null))
  let filled ← fillGaps tool.properties given task
  let seen ← seenIdentifiers task observations
  let fromTask ← extractArgs task
  let args ← resolveIdentifiers tool.required filled seen fromTask
  let missing := checkDecision tool.required args
  if missing ≠ [] then
    return { tool := some tool.name, args, missing, clarify := true,
             reason := some (.str (tool.name ++ " needs " ++ String.intercalate ", " missing)) }
  else
    return { tool := some tool.name, args, reason := some ((decision.field "reason").getD (.str "")),
             more := ((decision.field "more").getD .null).truthy }

/-- The third part of `decide_tool`: what the reply names. `none` where it names
no usable tool. -/
def chosen (tools unavailable : Dict String (Tool σ)) (decision : Json) (task : String)
    (observations : List Observation) : Except Exn (Option ModelDecision) := do
  let chosen ← getField decision "tool"
  if !chosen.truthy then
    return some { tool := none, refused := true,
                  reason := some (.str "no tool your role may call fits this task — nothing was executed") }
  let name ← toolKey chosen
  match name with
  | none => return none
  | some name =>
    if (unavailable.get? name).isSome then
      return some { tool := none, refused := true, refusedTool := name,
                    reason := some (.str ("your role may not call " ++ name)) }
    match tools.get? name with
    | none => return none
    | some tool => (propose tool decision task observations).map some

/-- `decide_tool(task, tools, unavailable, observations=observations)` -/
def decideTool (tools unavailable : Dict String (Tool σ)) (reply : ModelReply) (task : String)
    (observations : List Observation) : ModelDecision :=
  match reply with
  | .revoked => noTool "this agent has been revoked — nothing was executed"
  | .unreachable => noTool "the model could not be reached — nothing was executed"
  | .unparseable => noTool "the model's reply could not be understood — nothing was executed"
  | .read decision =>
    match chosen tools unavailable decision task observations with
    | .ok (some d) => d
    | _ => noTool "the model did not choose a usable tool — nothing was executed"

end Decide

end Llm

end AgentPlatform
