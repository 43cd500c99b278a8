/-
The model gateway (`app/gateway/app.py`): the only component that calls a model
provider.

A chat is two moments: the caller is identified and admitted, and the provider
called; later the provider answers, and the caller is charged. Between the two
other chats are under way, so the calls in flight are part of the state. The
limiter is a machine, in memory or in Postgres; the denylist is asked as a
service asks it. What a provider answers is typed as its format has it.
-/
import AgentPlatform.Limits
import AgentPlatform.Workload

namespace AgentPlatform

namespace Gateway

/-! ## Requests and answers -/

structure ChatRequest where
  model : Option String := none
  messages : List Args
  responseFormat : Option Args := none

/-- What the gateway reads of a provider's answer. -/
structure ProviderBody where
  response : Claim := .absent
  thinking : Claim := .absent
  totalTokens : Option Int := none

/-- The environment. `provider` is `LLM_PROVIDER`, as it is read with its default. -/
structure Config where
  svids : Svids
  audience : String
  provider : String := "ollama"
  ollamaModel : String := "llama3.2:3b"
  llmModel : String := ""
  apiKey : String := ""
  stripResponseFormat : String := ""

/-- What the provider is sent. -/
inductive Payload where
  | generate (model prompt : String) (json : Bool)
  | completions (key : Option String) (model : String) (messages : List Args) (responseFormat : Option Args)

/-- A call to the provider that is under way, and what it was sent. -/
inductive Flight where
  | ollama (caller prompt : String)
  | hosted (caller : String) (messages : List Args)

def Flight.caller : Flight → String
  | .ollama caller _ => caller
  | .hosted caller _ => caller

/-- `HTTPException(status_code, detail, headers)`, a call to the provider, its answer passed on. -/
inductive Reply where
  | refused (status : Nat) (detail : String) (retryAfter : Option Int)
  | called (payload : Payload)
  | answered (content : String)
  | forwarded (body : ProviderBody)
  | raised (e : Exn)
  | none

structure Outcome where
  audits : List AuditRecord
  reply : Reply

structure State (σ δ : Type) where
  limiter : σ
  denylist : δ
  flights : List Flight

/-- A chat begins; the call in some place ends, in an answer or an exception. -/
inductive Event where
  | chat (now : ℚ) (req : ChatRequest) (authorization : Option String)
  | answer (place : Nat) (now later : ℚ) (result : Except Exn ProviderBody)

def Event.now : Event → ℚ
  | .chat now _ _ => now
  | .answer _ now _ _ => now

section Chat

variable [UnicodeData]

/-- `estimate_tokens(text)` -/
def estimateTokens (text : String) : Int := max 1 (text.length / 4 : Nat)

/-- `str(m.get("content", ""))` -/
def content (m : Args) : Except Exn String := Py.str ((m.get? "content").getD (.str ""))

/-- `[str(m.get("content", "")) for m in messages]` -/
def contents (messages : List Args) : Except Exn (List String) := messages.mapM content

/-- `"\n".join(texts)` -/
def joinLines (texts : List String) : String := String.ofList (['\n'].intercalate (texts.map String.toList))

/-- `_wants_json(req)` -/
def wantsJson (req : ChatRequest) : Bool :=
  ((req.responseFormat.getD ∅).get? "type").any fun v => v.pyEq (.str "json_object")

/-- `_strip_response_format()` -/
def Config.strips (cfg : Config) : Bool :=
  ["1".toList, "true".toList, "yes".toList, "on".toList].contains
    ((Py.strip cfg.stripResponseFormat.toList).map Char.toLower)

/-- `req.model or (OLLAMA_MODEL if provider == "ollama" else os.environ.get("LLM_MODEL", ""))` -/
def modelOf (cfg : Config) (req : ChatRequest) : String :=
  match req.model with
  | some m => if m = "" then (if cfg.provider = "ollama" then cfg.ollamaModel else cfg.llmModel) else m
  | none => if cfg.provider = "ollama" then cfg.ollamaModel else cfg.llmModel

/-- `caller_id(authorization)`: the audit it leaves, and the caller or why there is none. -/
def callerId {δ : Type} (cfg : Config) (isRevoked : ℚ → String → δ → Bool × δ) (now : ℚ)
    (authorization : Option String) (d : δ) : List AuditRecord × Except Reply String × δ :=
  let token := Workload.bare (authorization.getD "")
  if token = "" then ([], .error (.refused 401 "missing workload token" none), d)
  else
    match cfg.svids now cfg.audience token with
    | .error why => ([], .error (.refused 403 ("invalid workload token: " ++ why) none), d)
    | .ok sub =>
      match sub.get with
      | none => ([], .error (.refused 403 "workload token has no subject" none), d)
      | some subject =>
        if subject = "" then ([], .error (.refused 403 "workload token has no subject" none), d)
        else
          match isRevoked now subject d with
          | (true, d) =>
            ([⟨"llm.revoked_refused", [("caller", .str subject)]⟩],
              .error (.refused 403 (subject ++ " has been revoked") none), d)
          | (false, d) => ([], .ok subject, d)

/-- The rest of `chat`, for a caller within its limits, up to the call: the
audit, the payload and the call under way, or why there is none. -/
def provide (cfg : Config) (caller : String) (req : ChatRequest) :
    List AuditRecord × Except Reply (Payload × Flight) :=
  let model := modelOf cfg req
  if cfg.provider ≠ "ollama" ∧ model = "" then
    ([], .error (.refused 500 "no model configured: set LLM_MODEL" none))
  else
    let called := [⟨"llm.call", [("provider", .str cfg.provider), ("model", .str model),
      ("messages", .int req.messages.length), ("caller", .str caller)]⟩]
    if cfg.provider = "ollama" then
      match contents req.messages with
      | .error e => (called, .error (.raised e))
      | .ok texts =>
        let prompt := joinLines texts
        (called, .ok (.generate model prompt (wantsJson req), .ollama caller prompt))
    else
      (called, .ok (.completions (if cfg.apiKey = "" then none else some cfg.apiKey) model req.messages
        (if cfg.strips then none else req.responseFormat), .hosted caller req.messages))

/-- What a flight that got an answer costs its caller, or the exception computing it. -/
def Flight.cost (f : Flight) (body : ProviderBody) : Except Exn Int :=
  match f with
  | .ollama _ prompt =>
    match body.response.orElse "" with
    | "" =>
      match body.thinking with
      | .absent => .ok (estimateTokens prompt + estimateTokens "")
      | .null => .error ⟨.typeError, "object of type 'NoneType' has no len()"⟩
      | .str s => .ok (estimateTokens prompt + estimateTokens s)
    | s => .ok (estimateTokens prompt + estimateTokens s)
  | .hosted _ messages =>
    match body.totalTokens with
    | some n => .ok n
    | none => (contents messages).map fun texts => (texts.map estimateTokens).sum

/-- What the caller gets of the answer. -/
def Flight.result (f : Flight) (body : ProviderBody) : Reply :=
  match f with
  | .ollama _ _ => .answered (body.response.orElse (body.thinking.orElse ""))
  | .hosted _ _ => .forwarded body

variable {σ δ : Type} (cfg : Config) (isRevoked : ℚ → String → δ → Bool × δ)
  (limiter : Machine σ Limits.Call Limits.Answer)

/-- `chat(req, authorization)`, up to the call of the provider. -/
def chat (now : ℚ) (req : ChatRequest) (authorization : Option String) (s : State σ δ) : Outcome × State σ δ :=
  match callerId cfg isRevoked now authorization s.denylist with
  | (audits, .error reply, d) => (⟨audits, reply⟩, { s with denylist := d })
  | (_, .ok caller, d) =>
    match limiter.step (.check caller now) s.limiter with
    | (.decided decision, l) =>
      if decision.allowed then
        match provide cfg caller req with
        | (audits, .ok (payload, flight)) => (⟨audits, .called payload⟩, ⟨l, d, s.flights ++ [flight]⟩)
        | (audits, .error reply) => (⟨audits, reply⟩, ⟨l, d, s.flights⟩)
      else
        (⟨[⟨"llm.limited", [("caller", .str caller), ("reason", .str decision.reason)]⟩],
          .refused 429 decision.reason (some decision.retryAfter)⟩, ⟨l, d, s.flights⟩)
    | (.raised e, l) => (⟨[], .raised e⟩, ⟨l, d, s.flights⟩)
    | (_, l) => (⟨[], .none⟩, ⟨l, d, s.flights⟩)

/-- The provider's answer, or the exception in its place, to the flight in a place. -/
def answer (place : Nat) (now later : ℚ) (result : Except Exn ProviderBody) (s : State σ δ) :
    Outcome × State σ δ :=
  match s.flights[place]? with
  | none => (⟨[], .none⟩, s)
  | some flight =>
    let s := { s with flights := s.flights.eraseIdx place }
    match result with
    | .error e => (⟨[], .raised e⟩, s)
    | .ok body =>
      match flight.cost body with
      | .error e => (⟨[], .raised e⟩, s)
      | .ok tokens =>
        match limiter.step (.charge flight.caller tokens now later) s.limiter with
        | (.raised e, l) => (⟨[], .raised e⟩, { s with limiter := l })
        | (_, l) => (⟨[], flight.result body⟩, { s with limiter := l })

def gateway (denylist : δ) : Machine (State σ δ) Event Outcome where
  init := ⟨limiter.init, denylist, []⟩
  step
    | .chat now req authorization, s => chat cfg isRevoked limiter now req authorization s
    | .answer place now later result, s => answer limiter place now later result s

end Chat

end Gateway

end AgentPlatform
