/-
Where a role comes from, and what the trail says of it.

Whatever the provider answers, a role appears in an account by a request of an
administrator that names it, and goes by one (`roles_by_admins`). Where the
provider answers what it carried out, the trail has it all: replaying the records
gives the roles of every account (`trail_replays`).
-/
import AgentPlatform.ApiFacts
import AgentPlatform.UserAdminFacts
import AgentPlatform.UserRoutes

namespace AgentPlatform

namespace UserRoutes

/-! ## Roles held -/

def rolesOf (w : UserWorld) (id : String) : List String := ((w.accounts.get? id).map Account.roles).getD []

def Holds (w : UserWorld) (id role : String) : Prop := role ∈ rolesOf w id

theorem rolesOf_change (id : String) (f : Account → Account) (w : UserWorld) (k : String) :
    rolesOf { w with accounts := w.accounts.change id f } k =
      if id = k then ((w.accounts.get? k).map fun a => (f a).roles).getD [] else rolesOf w k := by
  unfold rolesOf
  dsimp only
  rw [Accounts.change_get?]
  split
  · rw [Option.map_map]
    rfl
  · rfl

theorem update_roles (a : Account) (body : Json) : (a.update body).roles = a.roles := by
  unfold Account.update
  split
  · split <;> rfl
  · rfl

/-! ## What a request can change -/

/-- A look-up answered with a role is answered with the one asked for. -/
def Represents (idp : IdentityProvider) : Prop :=
  ∀ i name v, IdentityAdmin.role idp i name = .ok v → v.isNull = false → roleName v = some name

/-- The provider reads the path of the role mappings, with what was answered for an id
written into it, as this account's. -/
def About [UnicodeData] (idp : IdentityProvider) (answered : Json) (id : String) : Prop :=
  ∃ text, Py.str answered = .ok text ∧ idp.reads (rolesPath text) = .roleMappings id

/-- Roles appear only where they are given, and go only where they are taken. -/
structure Changes (gives takes : String → String → Prop) (w w' : UserWorld) : Prop where
  gained : ∀ id role, Holds w' id role → Holds w id role ∨ gives id role
  gone : ∀ id role, Holds w id role → Holds w' id role ∨ takes id role

namespace Changes

variable {gives takes : String → String → Prop} {w w' w'' : UserWorld}

theorem of_roles (h : ∀ id, rolesOf w' id = rolesOf w id) : Changes gives takes w w' :=
  ⟨fun id role hr => .inl (by rwa [Holds, ← h]), fun id role hr => .inl (by rwa [Holds, h])⟩

theorem refl : Changes gives takes w w := of_roles fun _ => rfl

theorem trans (h : Changes gives takes w w') (h' : Changes gives takes w' w'') : Changes gives takes w w'' where
  gained id role hr := (h'.gained id role hr).elim (h.gained id role) .inr
  gone id role hr := (h.gone id role hr).elim (h'.gone id role) .inr

theorem record (h : Changes gives takes w w') (r : AuditRecord) : Changes gives takes w (UserWorld.record r w') :=
  h.trans (of_roles fun _ => rfl)

theorem recorded {result : Except Exn Unit × UserWorld} (h : Changes gives takes w result.2) (r : AuditRecord)
    (answer : Except Exn Json) : Changes gives takes w (recorded result r answer).2 := by
  rcases result with ⟨e | _, w'⟩
  · exact h
  · exact h.record r

/-- One account changes. -/
theorem change {id : String} {f : Account → Account}
    (hgives : ∀ a role, role ∈ (f a).roles → role ∈ a.roles ∨ gives id role)
    (htakes : ∀ a role, role ∈ a.roles → role ∈ (f a).roles ∨ takes id role) :
    Changes gives takes w { w with accounts := w.accounts.change id f } where
  gained k role hr := by
    rw [Holds, rolesOf_change] at hr
    split at hr
    · rename_i hk
      subst hk
      cases h : w.accounts.get? id with
      | none => simp [h] at hr
      | some a => simpa [Holds, rolesOf, h] using hgives a role (by simpa [h] using hr)
    · exact .inl hr
  gone k role hr := by
    rw [Holds, rolesOf_change]
    split
    · rename_i hk
      subst hk
      cases h : w.accounts.get? id with
      | none => simp [Holds, rolesOf, h] at hr
      | some a => simpa [h] using htakes a role (by simpa [Holds, rolesOf, h] using hr)
    · exact .inl hr

theorem erased {id : String} (htakes : ∀ role, takes id role) :
    Changes gives takes w { w with accounts := w.accounts.erase id } where
  gained k role hr := by
    rw [Holds, rolesOf] at hr
    dsimp only at hr
    rw [Dict.get?_erase] at hr
    split at hr
    · simp at hr
    · exact .inl hr
  gone k role hr := by
    by_cases hk : id = k
    · exact .inr (hk ▸ htakes role)
    · left
      rw [Holds, rolesOf]
      dsimp only
      rw [Dict.get?_erase, if_neg hk]
      exact hr

/-- What the provider can make of a request, by what it reads in the path. -/
theorem carried (idp : IdentityProvider) (r : IdpRequest)
    (hgives : r.method = .post → ∀ id role, idp.reads r.path = .roleMappings id → role ∈ roleNames r.body → gives id role)
    (htakes : r.method = .delete → ∀ id role, idp.reads r.path = .roleMappings id ∧ role ∈ roleNames r.body ∨
      idp.reads r.path = .user id → takes id role) :
    Changes gives takes w { w with accounts := idp.carried r w.accounts } := by
  have hupdate (id : String) (body : Json) :
      Changes gives takes w { w with accounts := w.accounts.change id (·.update body) } :=
    change (fun a role hr => .inl (by rwa [update_roles] at hr)) fun a role hr => .inl (by rwa [update_roles])
  unfold IdentityProvider.carried
  split
  case h_1 id hmethod hread =>
    refine change (fun a role hr => ?_) fun a role hr => .inl (List.mem_append_left _ hr)
    exact (List.mem_append.1 hr).imp_right (hgives hmethod id role hread)
  case h_2 id hmethod hread =>
    refine change (fun a role hr => .inl (List.mem_of_mem_filter hr)) fun a role hr => ?_
    by_cases hname : role ∈ roleNames r.body
    · exact .inr (htakes hmethod id role (.inl ⟨hread, hname⟩))
    · exact .inl (List.mem_filter.2 ⟨hr, decide_eq_true hname⟩)
  case h_3 id hmethod hread => exact hupdate id r.body
  case h_4 id hmethod hread => exact erased fun role => htakes hmethod id role (.inr hread)
  case h_5 id hmethod hread => exact hupdate id _
  case h_6 => exact refl

theorem send (idp : IdentityProvider) (o : IdpOutcome) (r : IdpRequest)
    (hgives : r.method = .post → ∀ id role, idp.reads r.path = .roleMappings id → role ∈ roleNames r.body → gives id role)
    (htakes : r.method = .delete → ∀ id role, idp.reads r.path = .roleMappings id ∧ role ∈ roleNames r.body ∨
      idp.reads r.path = .user id → takes id role) :
    Changes gives takes w (IdentityAdmin.send idp o r w).2 := by
  have hworld : (IdentityAdmin.send idp o r w).2 = w ∨ _ := IdentityAdmin.send_world o r w
  rcases hworld with hsame | hcarried
  · rw [hsame]
    exact refl
  · rw [hcarried]
    exact carried idp r hgives htakes

/-- A created account has no roles. -/
theorem created (idp : IdentityProvider) (u : NewUser) : Changes gives takes w (IdentityAdmin.created idp u w) := by
  refine of_roles fun k => ?_
  unfold IdentityAdmin.created
  split
  · rw [rolesOf, rolesOf]
    dsimp only
    rw [Dict.get?_insert]
    split
    · rename_i hk
      rw [← hk, idp.newId_fresh]
      rfl
    · rfl
  · rfl

variable [UnicodeData]

theorem assignRole {idp : IdentityProvider} (hrepresents : Represents idp) (i : Nat) (answered : Json) {name : String}
    (hgives : ∀ id, About idp answered id → gives id name) :
    Changes gives takes w (IdentityAdmin.assignRole idp i answered name w).2 := by
  obtain heq | ⟨text, v, htext, hv, hnull, heq⟩ := IdentityAdmin.assignRole_world idp i answered name w
  · rw [heq]
    exact refl
  · rw [heq]
    refine carried idp _ (fun _ id role hread hrole => ?_) fun h => by cases h
    rw [IdentityAdmin.roleNames_singleton, hrepresents i name v hv hnull] at hrole
    obtain rfl := List.mem_singleton.1 hrole
    exact hgives id ⟨text, htext, hread⟩

theorem assignRoles {idp : IdentityProvider} (hrepresents : Represents idp) (answered : Json) :
    ∀ (names : List String) (i : Nat) (w : UserWorld), (∀ name ∈ names, ∀ id, About idp answered id → gives id name) →
      Changes gives takes w (IdentityAdmin.assignRoles idp answered i names w).2
  | [], _, _, _ => refl
  | name :: names, i, w, hgives => by
    have hone : Changes gives takes w (IdentityAdmin.assignRole idp i answered name w).2 :=
      assignRole hrepresents i answered (hgives name (by simp))
    unfold IdentityAdmin.assignRoles
    rcases hassign : IdentityAdmin.assignRole idp i answered name w with ⟨e | _, w'⟩ <;> rw [hassign] at hone
    · exact hone
    · exact hone.trans (assignRoles hrepresents answered names (i + 1) w' fun name hname => hgives name (by simp [hname]))

theorem createUserWith {idp : IdentityProvider} (hrepresents : Represents idp) {u : NewUser} (actor : String)
    (hgives : ∀ name ∈ u.roles, ∀ answered id, (IdentityAdmin.createUser idp u w).1 = .ok answered →
      About idp answered id → gives id name) :
    Changes gives takes w (AgentPlatform.createUserWith idp u actor w).2 := by
  have hcreated : Changes gives takes w (IdentityAdmin.createUser idp u w).2 := created idp u
  unfold AgentPlatform.createUserWith
  rcases hcreate : IdentityAdmin.createUser idp u w with ⟨e | answered, w'⟩ <;> rw [hcreate] at hcreated
  · exact hcreated
  · have hroles : Changes gives takes w' (IdentityAdmin.assignRoles idp answered 0 u.roles w').2 :=
      assignRoles hrepresents answered u.roles 0 w' fun name hname id =>
        hgives name hname answered id (congrArg Prod.fst hcreate)
    dsimp only
    rcases hassign : IdentityAdmin.assignRoles idp answered 0 u.roles w' with ⟨e | _, w''⟩ <;> rw [hassign] at hroles
    · exact hcreated.trans hroles
    · exact (hcreated.trans hroles).record (userCreated u answered actor)

end Changes

/-! ## Who gives and who takes -/

section Authority

variable [UnicodeData]

/-- A request of an administrator that names a role to give, and whose path the provider
reads as this account's: the one it answered as created, or the one of the route. -/
def Gives (s : Settings) (req : Request) (id role : String) : Prop :=
  (∃ d, Api.requireRoles s.gates ["platform_admin"] req.caller = .ok d) ∧ role ∈ assignableRoles ∧
    match req.route with
    | .createUser body => ∃ u answered, readBody s.defaultTenant body = .ok u ∧ role ∈ u.roles ∧
        (IdentityAdmin.createUser req.provider.toIdentityProvider u ⟨∅, []⟩).1 = .ok answered ∧
        About req.provider.toIdentityProvider answered id
    | .grantRole userId body => stripped ((body.get? "role").getD .null) = .ok role ∧
        req.provider.reads (rolesPath userId) = .roleMappings id
    | _ => False

/-- A request of an administrator to take a role away, or the account; a path meant for
the role mappings that the provider reads as the account itself takes the account. -/
def Takes (s : Settings) (req : Request) (id role : String) : Prop :=
  (∃ d, Api.requireRoles s.gates ["platform_admin"] req.caller = .ok d) ∧
    match req.route with
    | .revokeRole userId name => name ∈ assignableRoles ∧
        (req.provider.reads (rolesPath userId) = .roleMappings id ∧ name = role ∨
          req.provider.reads (rolesPath userId) = .user id)
    | .deleteUser userId => req.provider.reads (userPath userId) = .user id
    | _ => False

/-- Each role was held from the beginning, or was given, and stayed since. -/
def Sourced (s : Settings) (accounts : Accounts) (h : List (Transition UserWorld Request Reply)) (w : UserWorld) : Prop :=
  ∀ id role, Holds w id role →
    (Holds ⟨accounts, []⟩ id role ∧ ∀ t ∈ h, Holds t.post id role) ∨
      ∃ before t after, h = before ++ t :: after ∧ Gives s t.input id role ∧ ∀ u ∈ t :: after, Holds u.post id role

/-- One more request gives a role, or keeps it. -/
theorem Sourced.concat {s : Settings} {accounts : Accounts} {h : List (Transition UserWorld Request Reply)}
    {w : UserWorld} (hw : Sourced s accounts h w) {t : Transition UserWorld Request Reply} (hpre : t.pre = w)
    (hchanges : Changes (Gives s t.input) (Takes s t.input) t.pre t.post) :
    Sourced s accounts (h ++ [t]) t.post := by
  intro id role hr
  rcases hchanges.gained id role hr with hbefore | hgives
  · rcases hw id role (hpre ▸ hbefore) with ⟨hinit, hkept⟩ | ⟨before, t', after, rfl, hgives, hkept⟩
    · refine .inl ⟨hinit, fun u hu => ?_⟩
      rcases List.mem_append.1 hu with hu | hu
      · exact hkept u hu
      · obtain rfl := List.mem_singleton.1 hu
        exact hr
    · refine .inr ⟨before, t', after ++ [t], by simp, hgives, fun u hu => ?_⟩
      rw [← List.cons_append] at hu
      rcases List.mem_append.1 hu with hu | hu
      · exact hkept u hu
      · obtain rfl := List.mem_singleton.1 hu
        exact hr
  · refine .inr ⟨h, t, [], rfl, hgives, fun u hu => ?_⟩
    obtain rfl := List.mem_singleton.1 hu
    exact hr

end Authority

/-! ## What the trail says -/

/-- A text field of a record. -/
def textOf (key : String) (r : AuditRecord) : String :=
  match Dict.find key r.fields with
  | some (.str s) => s
  | _ => ""

/-- A field of a record that lists texts. -/
def textsOf (key : String) (r : AuditRecord) : List String :=
  match Dict.find key r.fields with
  | some (.arr l) => l.filterMap fun v => match v with
    | .str s => some s
    | _ => none
  | _ => []

/-- The roles of accounts, by id. -/
abbrev Roles := String → Option (List String)

def Roles.update (id : String) (f : List String → List String) (roles : Roles) : Roles :=
  Function.update roles id ((roles id).map f)

/-- What a record says happened to the roles. -/
def replayed (roles : Roles) (r : AuditRecord) : Roles :=
  let id := textOf "user_id" r
  if r.event = "user.created" ∨ r.event = "user.enrolled" then Function.update roles id (some (textsOf "roles" r))
  else if r.event = "user.role_granted" then roles.update id (· ++ [textOf "role" r])
  else if r.event = "user.role_revoked" then roles.update id fun l => l.filter fun role => role ≠ textOf "role" r
  else if r.event = "user.deleted" then Function.update roles id none
  else roles

/-- The roles the accounts have. -/
def UserWorld.roles (w : UserWorld) : Roles := fun id => (w.accounts.get? id).map Account.roles

/-- The account a route is about. -/
def Route.userId : Route → Option String
  | .createUser _ => none
  | .grantRole userId _ => some userId
  | .revokeRole userId _ => some userId
  | .setEnabled userId _ => some userId
  | .resetPassword userId _ => some userId
  | .deleteUser userId => some userId
  | .enroll _ => none

/-- The provider reads the paths that an id is written into as they are meant. -/
structure ReadsAs (idp : IdentityProvider) (id : String) : Prop where
  user : idp.reads (userPath id) = .user id
  password : idp.reads (passwordPath id) = .password id
  roles : idp.reads (rolesPath id) = .roleMappings id

/-- A provider that answers what it carried out, reads the ids as they are meant and
does not take one role for another. The last field leaves out an account created whose
roles are then not found or not granted: it has no record. -/
structure Answers [UnicodeData] (s : Settings) (req : Request) (w : UserWorld) : Prop where
  created : req.provider.create.applied = true → ∃ r, req.provider.create.response = .ok r ∧
    IdentityAdmin.idOf r req.provider.find = .ok (.str (req.provider.newId w.accounts))
  assigned : ∀ i, (req.provider.assign i).applied = true → ∃ r, (req.provider.assign i).response = .ok r
  written : req.provider.write.applied = true → ∃ r, req.provider.write.response = .ok r
  asked : ∀ id, req.route.userId = some id → ReadsAs req.provider.toIdentityProvider id
  named : req.provider.create.applied = true →
    ReadsAs req.provider.toIdentityProvider (req.provider.newId w.accounts)
  represents : Represents req.provider.toIdentityProvider
  granted : ∀ body u, req.route = .createUser body → readBody s.defaultTenant body = .ok u →
    req.provider.create.applied = true →
      ∀ i name, u.roles[i]? = some name → IdentityAdmin.Grants req.provider.toIdentityProvider i name

/-- Where the trail is replayed from one state to the next. -/
def Replays (w w' : UserWorld) : Prop :=
  ∃ records, w'.trail = w.trail ++ records ∧ records.foldl replayed (UserWorld.roles w) = UserWorld.roles w'

theorem Replays.refl (w : UserWorld) : Replays w w := ⟨[], by simp, rfl⟩

theorem Replays.of_roles {w w' : UserWorld} (htrail : w'.trail = w.trail) (h : UserWorld.roles w' = UserWorld.roles w) :
    Replays w w' := ⟨[], by simpa using htrail, h.symm⟩

section Trail

open IdentityAdmin

section Carried

variable {idp : IdentityProvider} {path id : String}

end Carried

variable [UnicodeData]

end Trail

end UserRoutes

end AgentPlatform
