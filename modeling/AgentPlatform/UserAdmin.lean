/-
Creating a user (`create_user` of `app/api/admin.py`, over `IdentityAdmin` of
`app/api/identity.py`): the account, its roles one at a time, then the audit
record.

The identity provider is a pattern of outcomes: what it answers each request,
or the exception the request raised, and whether it carried the request out. A
request that raised may have been carried out; one that was answered was,
exactly when the answer is a success. Fetching the service account's token is
part of a request.

The client writes an id into the path of a request as it is, so what the path is
about is the provider's to read; and it posts the representation of a role that
it looked up, so the role granted is the one named there.
-/
import AgentPlatform.PolicyClient

namespace AgentPlatform

/-! ## The identity provider -/

structure IdpResponse extends Response where
  /-- The `Location` header, empty where there is none. -/
  location : String

/-- How a request that changes something went. -/
structure IdpOutcome where
  response : Except Exn IdpResponse
  applied : Bool
  answered : ∀ r, response = .ok r → applied = r.isSuccess

/-- The request made with a body: one that has no JSON text is never sent. -/
def IdpOutcome.sending (payload : Json) (o : IdpOutcome) : IdpOutcome :=
  if payload.encodable then o
  else ⟨.error ⟨.valueError, "Out of range float values are not JSON compliant"⟩, false, fun _ h => (by cases h)⟩

/-- A realm account: what it was created from, and its roles. -/
structure Account where
  payload : Json
  roles : List String

namespace Account

def grant (a : Account) (names : List String) : Account := { a with roles := a.roles ++ names }

def revoke (a : Account) (names : List String) : Account := { a with roles := a.roles.filter fun r => r ∉ names }

/-- The fields of what the account is made of, as a `PUT` of a user sets them. -/
def update (a : Account) : Json → Account
  | .obj fields =>
    match a.payload with
    | .obj fs => { a with payload := .obj (fields.foldl (fun fs field => Dict.upsert field.1 field.2 fs) fs) }
    | _ => a
  | _ => a

end Account

abbrev Accounts := Dict String Account

/-- The account of that id changed, where there is one. -/
def Accounts.change (accounts : Accounts) (id : String) (f : Account → Account) : Accounts :=
  match accounts.get? id with
  | some a => accounts.insert id (f a)
  | none => accounts

/-! ### What a request does -/

inductive IdpMethod where
  | post
  | put
  | delete

/-- A request that changes something, its path as the client wrote it; `null` for no body. -/
structure IdpRequest where
  method : IdpMethod
  path : String
  body : Json

/-- What a path is about, as the provider reads it. -/
inductive Resource where
  /-- `/users/{id}` -/
  | user (id : String)
  /-- `/users/{id}/reset-password` -/
  | password (id : String)
  /-- `/users/{id}/role-mappings/realm` -/
  | roleMappings (id : String)
  /-- Anything else; the service account may manage users and their roles only. -/
  | other
deriving DecidableEq

/-- `f"/users/{user_id}"` -/
def userPath (id : String) : String := "/users/" ++ id

/-- `f"/users/{user_id}/reset-password"` -/
def passwordPath (id : String) : String := "/users/" ++ id ++ "/reset-password"

/-- `f"/users/{user_id}/role-mappings/realm"` -/
def rolesPath (id : String) : String := "/users/" ++ id ++ "/role-mappings/realm"

/-- The role a representation is of. -/
def roleName : Json → Option String
  | .obj fs =>
    match Dict.find "name" fs with
    | some (.str name) => some name
    | _ => none
  | _ => none

/-- The roles a body lists. -/
def roleNames : Json → List String
  | .arr l => l.filterMap roleName
  | _ => []

/-- What the provider makes of the requests of one call, the `i`-th role's by
its place. An account it creates gets an id no other has. -/
structure IdentityProvider where
  create : IdpOutcome
  newId : Accounts → String
  newId_fresh : ∀ accounts : Accounts, accounts.get? (newId accounts) = none
  find : Except Exn IdpResponse
  /-- The answer to `GET /roles/{name}` -/
  lookup : Nat → String → Except Exn IdpResponse
  assign : Nat → IdpOutcome
  reads : String → Resource

/-- What the accounts are once it carried a request out: by what its path is about, whatever
it was meant to be. -/
def IdentityProvider.carried (idp : IdentityProvider) (r : IdpRequest) (accounts : Accounts) : Accounts :=
  match r.method, idp.reads r.path with
  | .post, .roleMappings id => accounts.change id (·.grant (roleNames r.body))
  | .delete, .roleMappings id => accounts.change id (·.revoke (roleNames r.body))
  | .put, .user id => accounts.change id (·.update r.body)
  | .delete, .user id => accounts.erase id
  | .put, .password id => accounts.change id (·.update (.obj [("credentials", .arr [r.body])]))
  | _, _ => accounts

/-- The realm's accounts, and the records emitted. -/
structure UserWorld where
  accounts : Accounts
  trail : List AuditRecord

/-! ## The request -/

/-- `ASSIGNABLE_ROLES` -/
def assignableRoles : List String := ["support_rep", "manager", "privacy", "platform_admin"]

/-- The values a `for` takes out of `v or []`. -/
def iterated (v : Json) : Except Exn (List Json) :=
  match if v.truthy then v else .arr [] with
  | .arr xs => .ok xs
  | .obj fs => .ok (fs.map fun e => .str e.1)
  | .str s => .ok (s.toList.map fun c => .str (String.ofList [c]))
  | _ => .error ⟨.typeError, "object is not iterable"⟩

/-- A role that may be granted. -/
def assignable : Json → Option String
  | .str r => if assignableRoles.contains r then some r else none
  | _ => none

/-- What `POST /admin/users` creates. -/
structure NewUser where
  username : String
  email : String
  password : Json
  firstName : String
  lastName : String
  tenant : String
  roles : List String

section Body

variable [UnicodeData]

/-- `(v or "").strip()` -/
def stripped (v : Json) : Except Exn String :=
  if v.truthy then
    match v with
    | .str s => .ok (String.ofList (Py.strip s.toList))
    | _ => .error ⟨.attributeError, "object has no attribute 'strip'"⟩
  else .ok ""

/-- The body as the handler reads it, up to the first request it makes. -/
def readBody (defaultTenant : String) (body : Args) : Except Exn NewUser := do
  let username ← stripped ((body.get? "username").getD .null)
  let password := (body.get? "password").getD .null
  if username = "" || !password.truthy then
    throw ⟨.httpError, "username and password are required"⟩
  let roles ← iterated ((body.get? "roles").getD .null)
  let email ← stripped ((body.get? "email").getD .null)
  let firstName ← stripped ((body.get? "firstName").getD .null)
  let lastName ← stripped ((body.get? "lastName").getD .null)
  let tenant ← stripped ((body.get? "tenant").getD .null)
  return { username, email, password, firstName, lastName
           tenant := if tenant = "" then defaultTenant else tenant
           roles := roles.filterMap assignable }

end Body

/-- The `payload` of `IdentityAdmin.create_user`. -/
def NewUser.payload (u : NewUser) : Json :=
  .obj ([("username", .str u.username), ("email", .str u.email), ("enabled", .bool true), ("emailVerified", .bool true),
    ("firstName", .str (if u.firstName = "" then u.username else u.firstName)),
    ("lastName", .str (if u.lastName = "" then u.username else u.lastName)), ("requiredActions", .arr []),
    ("credentials", .arr [.obj [("type", .str "password"), ("value", u.password), ("temporary", .bool false)]])] ++
    if u.tenant = "" then [] else [("attributes", .obj [("tenant", .arr [.str u.tenant])])])

namespace IdentityAdmin

/-- `raise_for_status` -/
def raiseForStatus (r : IdpResponse) : Except Exn Unit :=
  if r.isSuccess then .ok () else .error ⟨.httpError, "status error"⟩

/-- `location.rsplit("/", 1)[-1]` -/
def lastSegment (location : String) : String :=
  String.ofList (location.toList.reverse.takeWhile (· ≠ '/')).reverse

/-- `users[0] if users else None` -/
def firstOf (users : Json) : Except Exn Json :=
  if users.truthy then
    match users with
    | .arr (u :: _) => .ok u
    | .str s => .ok (.str (String.ofList (s.toList.take 1)))
    | .obj _ => .error ⟨.keyError, "0"⟩
    | _ => .error ⟨.typeError, "object is not subscriptable"⟩
  else .ok .null

/-- The id `create_user` answers, from the response to the creation and, where
that has no `Location`, from `find_user`'s. -/
def idOf (created : IdpResponse) (find : Except Exn IdpResponse) : Except Exn Json :=
  if created.location = "" then do
    let r ← find
    raiseForStatus r
    let found ← firstOf (← r.json)
    match orEmpty found with
    | .obj fs => return (Dict.find "id" fs).getD (.str "")
    | v => getField v "id"
  else .ok (.str (lastSegment created.location))

variable (idp : IdentityProvider)

/-- How the creation went. -/
def creation (u : NewUser) : IdpOutcome := idp.create.sending u.payload

/-- The account the provider has once it carried the creation out. -/
def created (u : NewUser) (w : UserWorld) : UserWorld :=
  if (creation idp u).applied then { w with accounts := w.accounts.insert (idp.newId w.accounts) ⟨u.payload, []⟩ }
  else w

/-- `IdentityAdmin.create_user` -/
def createUser (u : NewUser) (w : UserWorld) : Except Exn Json × UserWorld :=
  let response : Except Exn Json := do
    let r ← (creation idp u).response
    if r.status = 409 then throw ⟨.valueError, "that username is already taken"⟩
    raiseForStatus r
    idOf r idp.find
  (response, created idp u w)

/-- `_role(name)`: `None` on a 404. -/
def role (i : Nat) (name : String) : Except Exn Json := do
  let r ← idp.lookup i name
  if r.status = 404 then return .null
  raiseForStatus r
  r.json

/-- `_request(…)` of a change, and `raise_for_status()` after it. -/
def send (o : IdpOutcome) (r : IdpRequest) (w : UserWorld) : Except Exn Unit × UserWorld :=
  let o := o.sending r.body
  (do raiseForStatus (← o.response), if o.applied then { w with accounts := idp.carried r w.accounts } else w)

variable [UnicodeData]

/-- `assign_role(user_id, name)` -/
def assignRole (i : Nat) (id : Json) (name : String) (w : UserWorld) : Except Exn Unit × UserWorld :=
  match role idp i name with
  | .error e => (.error e, w)
  | .ok r =>
    if r.isNull then (.error ⟨.valueError, "unknown role: " ++ name⟩, w)
    else
      match Py.str id with
      | .error e => (.error e, w)
      | .ok text => send idp (idp.assign i) ⟨.post, rolesPath text, .arr [r]⟩ w

/-- The loop over the roles, from the `i`-th. -/
def assignRoles (id : Json) : Nat → List String → UserWorld → Except Exn Unit × UserWorld
  | _, [], w => (.ok (), w)
  | i, name :: names, w =>
    match assignRole idp i id name w with
    | (.error e, w) => (.error e, w)
    | (.ok (), w) => assignRoles id (i + 1) names w

end IdentityAdmin

/-- The `user.created` record. -/
def userCreated (u : NewUser) (id : Json) (actor : String) : AuditRecord :=
  ⟨"user.created", [("user", .str u.username), ("user_id", id), ("roles", .arr (u.roles.map .str)),
    ("actor", .str actor)]⟩

section Routes

variable [UnicodeData]

/-- `create_user(body)` of the admin routes, once the body is read. -/
def createUserWith (idp : IdentityProvider) (u : NewUser) (actor : String) (w : UserWorld) :
    Except Exn Json × UserWorld :=
  match IdentityAdmin.createUser idp u w with
  | (.error e, w) =>
    -- a `ValueError` is answered as a conflict, anything else escapes
    (.error (if e.kind = .valueError then ⟨.httpError, e.msg⟩ else e), w)
  | (.ok id, w) =>
    match IdentityAdmin.assignRoles idp id 0 u.roles w with
    | (.error e, w) => (.error e, w)
    | (.ok (), w) =>
      (.ok (.obj [("id", id), ("username", .str u.username), ("roles", .arr (u.roles.map .str))]),
        { w with trail := w.trail ++ [userCreated u id actor] })

/-- `POST /admin/users` -/
def postUsers (idp : IdentityProvider) (defaultTenant : String) (body : Args) (actor : String)
    (w : UserWorld) : Except Exn Json × UserWorld :=
  match readBody defaultTenant body with
  | .error e => (.error e, w)
  | .ok u => createUserWith idp u actor w

end Routes

end AgentPlatform
