/-
Who may do what: the administration of accounts (`app/api/admin.py`), signing up
(`enroll` of `app/api/auth.py`), and what they ask of the identity provider
(`app/api/identity.py`).

The realm is in the provider's hands. A request carries what the provider makes
of it: what it answers, whether it carried a change out, and what it reads in the
paths the id was written into, as in `UserAdmin`.
The routes of an administrator ask for the role first; signing up asks for
nothing.
-/
import AgentPlatform.Api
import AgentPlatform.UserAdmin

namespace AgentPlatform

namespace UserRoutes

/-! ## Requests -/

/-- What the provider makes of the requests of one call, and of the change a route
asks for by one request of its own. -/
structure Provider extends IdentityProvider where
  write : IdpOutcome
  /-- The names in the answer to `GET /users/{user_id}/role-mappings/realm` -/
  names : Except Exn (List String)

inductive Route where
  /-- `POST /admin/users` -/
  | createUser (body : Args)
  /-- `POST /admin/users/{user_id}/roles` -/
  | grantRole (userId : String) (body : Args)
  /-- `DELETE /admin/users/{user_id}/roles/{role}` -/
  | revokeRole (userId role : String)
  /-- `POST /admin/users/{user_id}/enabled` -/
  | setEnabled (userId : String) (body : Args)
  /-- `POST /admin/users/{user_id}/password` -/
  | resetPassword (userId : String) (body : Args)
  /-- `DELETE /admin/users/{user_id}` -/
  | deleteUser (userId : String)
  /-- `POST /enroll` -/
  | enroll (body : Args)

structure Request where
  caller : Api.Caller
  provider : Provider
  route : Route

inductive Reply where
  | refused (reply : Api.Reply)
  | answered (result : Except Exn Json)

/-- `DEFAULT_TENANT` and `SIGNUP_ENABLED`, as they are read with their defaults. -/
structure Settings where
  gates : Api.Gates
  defaultTenant : String := "acme"
  signup : String := "1"

/-- `signup_enabled()` -/
def Settings.signupEnabled (s : Settings) : Bool :=
  !(["0".toList, "false".toList, "no".toList, []].contains (s.signup.toList.map Char.toLower))

/-! ## What is asked of the provider -/

/-- The one request of a route that changes something. -/
def write (p : Provider) (method : IdpMethod) (path : String) (body : Json) (w : UserWorld) : Except Exn Unit × UserWorld :=
  IdentityAdmin.send p.toIdentityProvider p.write ⟨method, path, body⟩ w

/-- `remove_role(user_id, name)` -/
def removeRole (p : Provider) (id name : String) (w : UserWorld) : Except Exn Unit × UserWorld :=
  match IdentityAdmin.role p.toIdentityProvider 0 name with
  | .error e => (.error e, w)
  | .ok r =>
    if r.isNull then (.error ⟨.valueError, "unknown role: " ++ name⟩, w)
    else write p .delete (rolesPath id) (.arr [r]) w

/-- `{"type": "password", "value": password, "temporary": False}` -/
def credential (password : Json) : Json :=
  .obj [("type", .str "password"), ("value", password), ("temporary", .bool false)]

/-- `len(v)` -/
def length : Json → Except Exn Nat
  | .str s => .ok s.length
  | .arr l => .ok l.length
  | .obj fs => .ok fs.length
  | _ => .error ⟨.typeError, "object has no len()"⟩

/-! ## What is recorded -/

/-- The record of a route: the account it was about, and who asked. -/
def recordOf (event userId actor : String) : AuditRecord := ⟨event, [("user_id", .str userId), ("actor", .str actor)]⟩

/-- The record of a change of one role. -/
def roleRecord (event userId role actor : String) : AuditRecord :=
  ⟨event, [("user_id", .str userId), ("role", .str role), ("actor", .str actor)]⟩

def userEnrolled (username : String) (id : Json) : AuditRecord :=
  ⟨"user.enrolled", [("user", .str username), ("user_id", id), ("roles", .arr [])]⟩

def UserWorld.record (r : AuditRecord) (w : UserWorld) : UserWorld := { w with trail := w.trail ++ [r] }

/-- `audit(…)` after a change that went well, and the answer. -/
def recorded (result : Except Exn Unit × UserWorld) (r : AuditRecord) (answer : Except Exn Json) :
    Except Exn Json × UserWorld :=
  match result with
  | (.error e, w) => (.error e, w)
  | (.ok (), w) => (answer, UserWorld.record r w)

/-- `{"id": user_id, "roles": admin.user_role_names(user_id)}` -/
def rolesAnswer (p : Provider) (userId : String) : Except Exn Json :=
  p.names.map fun l =>
    .obj [("id", .str userId), ("roles", .arr ((l.mergeSort fun a b => decide (a ≤ b)).map .str))]

section Routes

variable [UnicodeData]

/-! ## The routes -/

/-- `grant_role(user_id, body)` -/
def grantRole (p : Provider) (actor userId : String) (body : Args) (w : UserWorld) : Except Exn Json × UserWorld :=
  match stripped ((body.get? "role").getD .null) with
  | .error e => (.error e, w)
  | .ok role =>
    if !assignableRoles.contains role then
      (.error ⟨.httpError, "role must be one of: " ++ ", ".intercalate assignableRoles⟩, w)
    else
      recorded (IdentityAdmin.assignRole p.toIdentityProvider 0 (.str userId) role w)
        (roleRecord "user.role_granted" userId role actor) (rolesAnswer p userId)

/-- `revoke_role(user_id, role)` -/
def revokeRole (p : Provider) (actor userId role : String) (w : UserWorld) : Except Exn Json × UserWorld :=
  if !assignableRoles.contains role then (.error ⟨.httpError, "unknown role"⟩, w)
  else
    recorded (removeRole p userId role w) (roleRecord "user.role_revoked" userId role actor) (rolesAnswer p userId)

/-- `set_enabled(user_id, body)` -/
def setEnabled (p : Provider) (actor userId : String) (body : Args) (w : UserWorld) : Except Exn Json × UserWorld :=
  let enabled := ((body.get? "enabled").getD .null).truthy
  recorded (write p .put (userPath userId) (.obj [("enabled", .bool enabled)]) w)
    (recordOf (if enabled then "user.enabled" else "user.disabled") userId actor)
    (.ok (.obj [("id", .str userId), ("enabled", .bool enabled)]))

/-- `reset_password(user_id, body)` -/
def resetPassword (p : Provider) (actor userId : String) (body : Args) (w : UserWorld) :
    Except Exn Json × UserWorld :=
  let given := (body.get? "password").getD .null
  let password := if given.truthy then given else .str ""
  match length password with
  | .error e => (.error e, w)
  | .ok n =>
    if n < 8 then (.error ⟨.httpError, "password must be at least 8 characters"⟩, w)
    else
      recorded (write p .put (passwordPath userId) (credential password) w)
        (recordOf "user.password_reset" userId actor) (.ok (.obj [("id", .str userId), ("reset", .bool true)]))

/-- `delete_user(user_id)` -/
def deleteUser (p : Provider) (actor userId : String) (w : UserWorld) : Except Exn Json × UserWorld :=
  recorded (write p .delete (userPath userId) .null w)
    (recordOf "user.deleted" userId actor) (.ok (.obj [("id", .str userId), ("deleted", .bool true)]))

/-- The body of `enroll`, up to the first request it makes: no role is read. -/
def readEnrollment (defaultTenant : String) (body : Args) : Except Exn NewUser := do
  let username ← stripped ((body.get? "username").getD .null)
  let email ← stripped ((body.get? "email").getD .null)
  let password := (body.get? "password").getD .null
  if username = "" || email = "" || !password.truthy then
    throw ⟨.httpError, "username, email and password are required"⟩
  let firstName ← stripped ((body.get? "firstName").getD .null)
  let lastName ← stripped ((body.get? "lastName").getD .null)
  return { username, email, password, firstName, lastName, tenant := defaultTenant, roles := [] }

omit [UnicodeData] in
/-- The status of the `HTTPStatusError` that `create_user` raised, if it raised one. -/
def statusError (p : Provider) (u : NewUser) : Option Nat :=
  match (IdentityAdmin.creation p.toIdentityProvider u).response with
  | .error _ => none
  | .ok r =>
    if !r.isSuccess then some r.status
    else
      match p.find with
      | .error _ => none
      | .ok found => if r.location = "" && !found.isSuccess then some found.status else none

omit [UnicodeData] in
/-- What becomes of an exception of `create_user` in `enroll`. -/
def enrollError (p : Provider) (u : NewUser) (e : Exn) : Exn :=
  if e.kind = .valueError then ⟨.httpError, e.msg⟩
  else
    match statusError p u with
    | none => e
    | some status =>
      if status = 400 then ⟨.httpError, "password does not meet the realm policy (min 8)"⟩
      else ⟨.httpError, "enrollment failed"⟩

/-- `enroll(body)` -/
def enroll (s : Settings) (p : Provider) (body : Args) (w : UserWorld) : Except Exn Json × UserWorld :=
  if !s.signupEnabled then (.error ⟨.httpError, "self-service signup is disabled; ask an admin"⟩, w)
  else
    match readEnrollment s.defaultTenant body with
    | .error e => (.error e, w)
    | .ok u =>
      match IdentityAdmin.createUser p.toIdentityProvider u w with
      | (.error e, w) => (.error (enrollError p u e), w)
      | (.ok id, w) =>
        (.ok (.obj [("user", .str u.username), ("id", id), ("roles", .arr [])]),
          UserWorld.record (userEnrolled u.username id) w)

/-- A route that `require_admin` stands before. -/
def asAdmin (s : Settings) (c : Api.Caller) (w : UserWorld) (rest : String → Except Exn Json × UserWorld) :
    Reply × UserWorld :=
  match Api.requireRoles s.gates ["platform_admin"] c with
  | .error reply => (.refused reply, w)
  | .ok d =>
    let (result, w) := rest d.user
    (.answered result, w)

def handle (s : Settings) (req : Request) (w : UserWorld) : Reply × UserWorld :=
  let p := req.provider
  match req.route with
  | .createUser body =>
    asAdmin s req.caller w fun actor => postUsers p.toIdentityProvider s.defaultTenant body actor w
  | .grantRole userId body => asAdmin s req.caller w fun actor => grantRole p actor userId body w
  | .revokeRole userId role => asAdmin s req.caller w fun actor => revokeRole p actor userId role w
  | .setEnabled userId body => asAdmin s req.caller w fun actor => setEnabled p actor userId body w
  | .resetPassword userId body => asAdmin s req.caller w fun actor => resetPassword p actor userId body w
  | .deleteUser userId => asAdmin s req.caller w fun actor => deleteUser p actor userId w
  | .enroll body =>
    let (result, w) := enroll s p body w
    (.answered result, w)

end Routes

end UserRoutes

end AgentPlatform
