/-
What creating a user leaves behind, whatever the identity provider answers.

Once the creation is carried out nothing undoes it, and the record is emitted
last. So the account has every accepted role and its record exactly when every
request after the creation goes well; a failure at any place of the list leaves
it with the roles before that place and no record.
-/
import Mathlib.Algebra.Order.BigOperators.Group.List
import AgentPlatform.UserAdmin

namespace AgentPlatform

theorem Accounts.change_get? (accounts : Accounts) (id : String) (f : Account → Account) (k : String) :
    (accounts.change id f).get? k = if id = k then (accounts.get? k).map f else accounts.get? k := by
  unfold Accounts.change
  by_cases hk : id = k
  · subst hk
    cases h : accounts.get? id with
    | none => simp [h]
    | some a => simp
  · rw [if_neg hk]
    cases accounts.get? id with
    | none => rfl
    | some a => exact Dict.get?_insert_ne _ _ hk

namespace IdentityAdmin

variable {idp : IdentityProvider}

theorem raiseForStatus_ok {r : IdpResponse} : raiseForStatus r = .ok () ↔ r.isSuccess = true := by
  unfold raiseForStatus
  split <;> simp_all

/-! ## One role -/

/-- What granting one role leaves: the role the representation names, to the account the path is about. -/
def granted (idp : IdentityProvider) (text : String) (v : Json) (w : UserWorld) : UserWorld :=
  { w with accounts := idp.carried ⟨.post, rolesPath text, .arr [v]⟩ w.accounts }

@[simp] theorem granted_trail (text : String) (v : Json) (w : UserWorld) : (granted idp text v w).trail = w.trail := rfl

theorem roleNames_singleton (v : Json) : roleNames (.arr [v]) = (roleName v).toList := by
  unfold roleNames
  cases h : roleName v <;> simp [h]

theorem granted_get? (text : String) (v : Json) (w : UserWorld) (k : String) :
    (granted idp text v w).accounts.get? k =
      if idp.reads (rolesPath text) = .roleMappings k then (w.accounts.get? k).map (·.grant (roleName v).toList)
      else w.accounts.get? k := by
  unfold granted IdentityProvider.carried
  cases hread : idp.reads (rolesPath text) with
  | roleMappings id =>
    dsimp only
    rw [Accounts.change_get?, roleNames_singleton]
    by_cases hk : id = k
    · rw [if_pos hk, if_pos (congrArg _ hk)]
    · rw [if_neg hk, if_neg fun h => hk (by cases h; rfl)]
  | _ => rw [if_neg fun h => by cases h]

/-- The `i`-th role is found, and its assignment is answered with a success. -/
structure Grants (idp : IdentityProvider) (i : Nat) (name : String) : Prop where
  found : ∃ r v, idp.lookup i name = .ok r ∧ r.isSuccess = true ∧ r.json = .ok v ∧ v.isNull = false ∧
    v.encodable = true
  assigned : ∃ r, (idp.assign i).response = .ok r ∧ r.isSuccess = true

/-- The role that the representation found is of, if it says. -/
def represented (idp : IdentityProvider) (i : Nat) (name : String) : List String :=
  match role idp i name with
  | .ok v => (roleName v).toList
  | .error _ => []

/-- The roles that the representations found for these names are of. -/
def representedFrom (idp : IdentityProvider) : Nat → List String → List String
  | _, [] => []
  | i, name :: names => represented idp i name ++ representedFrom idp (i + 1) names

theorem role_eq_ok {i : Nat} {name : String} {v : Json} (hv : v.isNull = false) :
    role idp i name = .ok v ↔ ∃ r, idp.lookup i name = .ok r ∧ r.isSuccess = true ∧ r.json = .ok v := by
  unfold role
  cases idp.lookup i name with
  | error e => simp [bind, Except.bind]
  | ok r =>
    by_cases h404 : r.status = 404
    · have hnot : r.isSuccess = false := by simp [Response.isSuccess, h404]
      have hnull : Json.null ≠ v := fun h => by simp [← h, Json.isNull] at hv
      simp [bind, Except.bind, h404, hnot, pure, Except.pure, hnull]
    · cases hs : r.isSuccess with
      | false => simp [bind, Except.bind, h404, raiseForStatus, hs]
      | true => simp [bind, Except.bind, h404, raiseForStatus, hs]

theorem sending_ok {o : IdpOutcome} {payload : Json} {r : IdpResponse} :
    (o.sending payload).response = .ok r ↔ payload.encodable = true ∧ o.response = .ok r := by
  unfold IdpOutcome.sending
  cases payload.encodable <;> simp

theorem encodable_singleton (v : Json) : (Json.arr [v]).encodable = v.encodable := by
  simp [Json.encodable, Json.encodableItems]

/-- A change went well, or raised: it was carried out or not. -/
theorem send_world (o : IdpOutcome) (r : IdpRequest) (w : UserWorld) :
    (send idp o r w).2 = w ∨ (send idp o r w).2 = { w with accounts := idp.carried r w.accounts } := by
  simp only [send]
  split
  · exact .inr rfl
  · exact .inl rfl

theorem send_ok {o : IdpOutcome} {r : IdpRequest} {w w' : UserWorld} :
    send idp o r w = (.ok (), w') ↔ (r.body.encodable = true ∧ ∃ answer, o.response = .ok answer ∧
      answer.isSuccess = true) ∧ w' = { w with accounts := idp.carried r w.accounts } := by
  constructor
  · intro h
    cases hresp : (o.sending r.body).response with
    | error e => simp [send, hresp, bind, Except.bind] at h
    | ok answer =>
      simp only [send, hresp] at h
      obtain ⟨hok, hw⟩ := Prod.mk.inj h
      have hsuccess : answer.isSuccess = true := raiseForStatus_ok.1 hok
      rw [(o.sending r.body).answered answer hresp, hsuccess, if_pos rfl] at hw
      obtain ⟨henc, hanswer⟩ := sending_ok.1 hresp
      exact ⟨⟨henc, answer, hanswer, hsuccess⟩, hw.symm⟩
  · rintro ⟨⟨henc, answer, hanswer, hsuccess⟩, rfl⟩
    have hresp : (o.sending r.body).response = .ok answer := sending_ok.2 ⟨henc, hanswer⟩
    have happlied := (o.sending r.body).answered answer hresp
    simp [send, hresp, happlied, hsuccess, bind, Except.bind, raiseForStatus]

variable [UnicodeData]

/-- All that one role does to the accounts. -/
theorem assignRole_world (idp : IdentityProvider) (i : Nat) (id : Json) (name : String) (w : UserWorld) :
    (assignRole idp i id name w).2 = w ∨
      ∃ text v, Py.str id = .ok text ∧ role idp i name = .ok v ∧ v.isNull = false ∧
        (assignRole idp i id name w).2 = granted idp text v w := by
  unfold assignRole
  cases hrole : role idp i name with
  | error e => exact .inl rfl
  | ok v =>
    dsimp only
    split
    · exact .inl rfl
    · rename_i hnull
      cases htext : Py.str id with
      | error e => exact .inl rfl
      | ok text =>
        rcases send_world (idp.assign i) ⟨.post, rolesPath text, .arr [v]⟩ w with hsame | hcarried
        · exact .inl hsame
        · exact .inr ⟨text, v, rfl, rfl, by simpa using hnull, hcarried⟩

/-- When one role is granted, and what it then does. -/
theorem assignRole_ok {i : Nat} {id : Json} {name : String} {w w' : UserWorld} :
    assignRole idp i id name w = (.ok (), w') ↔
      Grants idp i name ∧ ∃ text v, Py.str id = .ok text ∧ role idp i name = .ok v ∧ w' = granted idp text v w := by
  constructor
  · intro h
    unfold assignRole at h
    cases hrole : role idp i name with
    | error e => rw [hrole] at h; cases h
    | ok v =>
      rw [hrole] at h
      dsimp only at h
      split at h
      · cases h
      · rename_i hnull
        cases htext : Py.str id with
        | error e => rw [htext] at h; cases h
        | ok text =>
          rw [htext] at h
          obtain ⟨⟨henc, answer, hanswer, hsuccess⟩, hw⟩ := send_ok.1 h
          obtain ⟨q, hq, hqs, hqj⟩ := (role_eq_ok (by simpa using hnull)).1 hrole
          exact ⟨⟨⟨q, v, hq, hqs, hqj, by simpa using hnull, encodable_singleton v ▸ henc⟩, answer, hanswer, hsuccess⟩,
            text, v, rfl, rfl, hw⟩
  · rintro ⟨⟨⟨q, v, hq, hqs, hqj, hnull, henc⟩, answer, hanswer, hsuccess⟩, text, v', htext, hv', rfl⟩
    have hrole : role idp i name = .ok v := (role_eq_ok hnull).2 ⟨q, hq, hqs, hqj⟩
    obtain rfl := Except.ok.inj (hrole.symm.trans hv')
    unfold assignRole
    rw [hrole, htext]
    dsimp only
    rw [if_neg (by simp [hnull])]
    exact send_ok.2 ⟨⟨(encodable_singleton v).trans henc, answer, hanswer, hsuccess⟩, rfl⟩

/-! ## The loop -/

/-- What the grants of one id preserve, the loop preserves, wherever it stops. -/
theorem assignRoles_preserves {P : UserWorld → Prop} {id : Json}
    (hstep : ∀ text v w, Py.str id = .ok text → P w → P (granted idp text v w)) :
    ∀ (names : List String) (i : Nat) (w : UserWorld), P w → P (assignRoles idp id i names w).2
  | [], _, _, hw => hw
  | name :: names, i, w, hw => by
    have hone : P (assignRole idp i id name w).2 := by
      obtain h | ⟨text, v, htext, -, -, h⟩ := assignRole_world idp i id name w
      · rwa [h]
      · rw [h]; exact hstep text v w htext hw
    unfold assignRoles
    split
    · rename_i heq; rw [heq] at hone; exact hone
    · rename_i heq; rw [heq] at hone; exact assignRoles_preserves hstep names (i + 1) _ hone

theorem assignRoles_trail (id : Json) (names : List String) (i : Nat) (w : UserWorld) :
    (assignRoles idp id i names w).2.trail = w.trail :=
  assignRoles_preserves (P := fun w' => w'.trail = w.trail) (fun _ _ _ _ h => by simpa using h) names i w rfl

/-- No role takes an account away. -/
theorem assignRoles_keeps (id : Json) (names : List String) (i : Nat) {w : UserWorld} {k : String}
    (hk : (w.accounts.get? k).isSome = true) : ((assignRoles idp id i names w).2.accounts.get? k).isSome = true := by
  refine assignRoles_preserves (P := fun w' => (w'.accounts.get? k).isSome = true)
    (fun text v w' _ h => ?_) names i w hk
  rw [granted_get?]
  split <;> simpa using h

/-- The accounts that the path is not about stay as they are. -/
theorem assignRoles_other {id : Json} {k : String}
    (hk : ∀ text, Py.str id = .ok text → idp.reads (rolesPath text) ≠ .roleMappings k) (names : List String) (i : Nat)
    (w : UserWorld) : (assignRoles idp id i names w).2.accounts.get? k = w.accounts.get? k := by
  refine assignRoles_preserves (P := fun w' => w'.accounts.get? k = w.accounts.get? k)
    (fun text v w' htext h => ?_) names i w rfl
  rw [granted_get?, if_neg (hk text htext), h]

/-- When the loop reaches its end. -/
theorem assignRoles_ok {id : Json} : ∀ {names : List String} {i : Nat} {w : UserWorld},
    (assignRoles idp id i names w).1 = .ok () ↔
      (∀ j name, names[j]? = some name → Grants idp (i + j) name) ∧ (names ≠ [] → ∃ text, Py.str id = .ok text)
  | [], _, _ => by simp [assignRoles]
  | name :: names, i, w => by
    cases hone : assignRole idp i id name w with
    | mk result w' =>
      cases result with
      | error e =>
        refine iff_of_false (by simp [assignRoles, hone]) fun ⟨hall, htext⟩ => ?_
        obtain ⟨text, htext⟩ := htext (by simp)
        have hgrants : Grants idp i name := hall 0 name rfl
        obtain ⟨r, v, hr, hs, hv, hnull, -⟩ := hgrants.found
        rw [assignRole_ok.2 ⟨hgrants, text, v, htext, (role_eq_ok hnull).2 ⟨r, hr, hs, hv⟩, rfl⟩] at hone
        cases hone
      | ok _ =>
        obtain ⟨hgrants, text, v, htext, -⟩ := assignRole_ok.1 hone
        rw [show (assignRoles idp id i (name :: names) w) = assignRoles idp id (i + 1) names w' by
          simp [assignRoles, hone], assignRoles_ok]
        constructor
        · rintro ⟨hall, -⟩
          refine ⟨fun j other hj => ?_, fun _ => ⟨text, htext⟩⟩
          cases j with
          | zero =>
            obtain rfl := Option.some.inj hj
            exact hgrants
          | succ j => exact Nat.add_right_comm i 1 j ▸ hall j other hj
        · rintro ⟨hall, -⟩
          exact ⟨fun j other hj => Nat.add_right_comm i 1 j ▸ hall (j + 1) other hj, fun _ => ⟨text, htext⟩⟩

/-- What the loop does to the account that the path is about when it reaches its end. -/
theorem assignRoles_get? {id : Json} {text k : String} (htext : Py.str id = .ok text)
    (hk : idp.reads (rolesPath text) = .roleMappings k) :
    ∀ {names : List String} {i : Nat} {w : UserWorld} {a : Account},
      (assignRoles idp id i names w).1 = .ok () → w.accounts.get? k = some a →
        (assignRoles idp id i names w).2.accounts.get? k = some ⟨a.payload, a.roles ++ representedFrom idp i names⟩
  | [], _, _, a, _, ha => by simpa [assignRoles, representedFrom] using ha
  | name :: names, i, w, a, hok, ha => by
    cases hone : assignRole idp i id name w with
    | mk result w' =>
      cases result with
      | error e => simp [assignRoles, hone] at hok
      | ok _ =>
        obtain ⟨-, text', v, htext', hv, rfl⟩ := assignRole_ok.1 hone
        obtain rfl := Except.ok.inj (htext.symm.trans htext')
        rw [show (assignRoles idp id i (name :: names) w) = assignRoles idp id (i + 1) names (granted idp text v w) by
          simp [assignRoles, hone]] at hok ⊢
        have hnext : (granted idp text v w).accounts.get? k = some (a.grant (roleName v).toList) := by
          rw [granted_get?, if_pos hk, ha]; rfl
        simpa [Account.grant, representedFrom, represented, hv] using assignRoles_get? htext hk hok hnext

end IdentityAdmin

/-! ## The route -/

section Route

open IdentityAdmin

variable [UnicodeData]

/-- Either the account stands with every accepted role and one record was
emitted, or nothing happened. -/
def AllOrNothing (idp : IdentityProvider) (defaultTenant : String) (body : Args) (actor : String) (w : UserWorld) :
    Prop :=
  let w' := (postUsers idp defaultTenant body actor w).2
  w' = w ∨
    ∃ u id account, readBody defaultTenant body = .ok u ∧ w'.accounts.get? (idp.newId w.accounts) = some account ∧
      (∀ name ∈ u.roles, name ∈ account.roles) ∧ w'.trail = w.trail ++ [userCreated u id actor]

/-- Everything after the creation goes well: the answer names the account, and
each role in turn is found and granted. -/
structure Completes (idp : IdentityProvider) (u : NewUser) (w : UserWorld) : Prop where
  answered : ∃ r id, idp.create.response = .ok r ∧ r.isSuccess = true ∧ idOf r idp.find = .ok id ∧
    (u.roles ≠ [] → ∃ text, Py.str id = .ok text ∧
      idp.reads (rolesPath text) = .roleMappings (idp.newId w.accounts))
  grants : ∀ i name, u.roles[i]? = some name → Grants idp i name
  represented : ∀ name ∈ u.roles, name ∈ representedFrom idp 0 u.roles

variable {idp : IdentityProvider}

omit [UnicodeData] in
theorem createUser_ok {u : NewUser} {w : UserWorld} {id : Json} :
    (createUser idp u w).1 = .ok id ↔
      ∃ r, (creation idp u).response = .ok r ∧ r.isSuccess = true ∧ idOf r idp.find = .ok id := by
  unfold createUser
  cases (creation idp u).response with
  | error e => simp [bind, Except.bind]
  | ok r =>
    by_cases h409 : r.status = 409
    · have hnot : r.isSuccess = false := by simp [Response.isSuccess, h409]
      simp [bind, Except.bind, h409, hnot, throw, throwThe, MonadExceptOf.throw]
    · cases hs : r.isSuccess <;> simp [bind, Except.bind, h409, raiseForStatus, hs]

omit [UnicodeData] in
theorem created_get? {u : NewUser} {w : UserWorld} (happlied : (creation idp u).applied = true) :
    (created idp u w).accounts.get? (idp.newId w.accounts) = some ⟨u.payload, []⟩ := by
  simp [created, happlied]

omit [UnicodeData] in
theorem created_trail (u : NewUser) (w : UserWorld) : (created idp u w).trail = w.trail := by
  unfold created
  split <;> rfl

/-- The creation and every role succeed: the record follows. -/
theorem createUserWith_completed {u : NewUser} {actor : String} {w : UserWorld} {id : Json}
    (hid : (createUser idp u w).1 = .ok id)
    (hroles : (assignRoles idp id 0 u.roles (created idp u w)).1 = .ok ()) :
    (createUserWith idp u actor w).2 =
      ⟨(assignRoles idp id 0 u.roles (created idp u w)).2.accounts, w.trail ++ [userCreated u id actor]⟩ := by
  have hcreate : createUser idp u w = (.ok id, created idp u w) := Prod.ext hid rfl
  have hassign : assignRoles idp id 0 u.roles (created idp u w) =
      (.ok (), (assignRoles idp id 0 u.roles (created idp u w)).2) := Prod.ext hroles rfl
  have htrail : (assignRoles idp id 0 u.roles (created idp u w)).2.trail = w.trail :=
    (assignRoles_trail ..).trans (created_trail u w)
  unfold createUserWith
  rw [hcreate]
  dsimp only
  rw [hassign]
  exact congrArg (fun t => UserWorld.mk _ (t ++ [userCreated u id actor])) htrail

/-- A failure anywhere: nothing is recorded, and what was created stays. -/
theorem createUserWith_stopped {u : NewUser} {actor : String} {w : UserWorld}
    (hstop : ∀ id, (createUser idp u w).1 = .ok id →
      (assignRoles idp id 0 u.roles (created idp u w)).1 ≠ .ok ()) :
    (createUserWith idp u actor w).2.trail = w.trail ∧
      ∀ k, ((created idp u w).accounts.get? k).isSome = true →
        ((createUserWith idp u actor w).2.accounts.get? k).isSome = true := by
  cases hid : (createUser idp u w).1 with
  | error e =>
    have hcreate : createUser idp u w = (.error e, created idp u w) := Prod.ext hid rfl
    unfold createUserWith
    rw [hcreate]
    exact ⟨created_trail u w, fun _ hk => hk⟩
  | ok id =>
    have hcreate : createUser idp u w = (.ok id, created idp u w) := Prod.ext hid rfl
    cases hroles : (assignRoles idp id 0 u.roles (created idp u w)).1 with
    | ok _ => exact absurd hroles (hstop id hid)
    | error e =>
      have hassign : assignRoles idp id 0 u.roles (created idp u w) =
          (.error e, (assignRoles idp id 0 u.roles (created idp u w)).2) := Prod.ext hroles rfl
      unfold createUserWith
      rw [hcreate]
      dsimp only
      rw [hassign]
      exact ⟨(assignRoles_trail ..).trans (created_trail u w), fun k hk => assignRoles_keeps _ _ _ hk⟩

/-- The account outlives every failure after its creation. -/
theorem createUserWith_keeps (idp : IdentityProvider) (u : NewUser) (actor : String) (w : UserWorld) (k : String)
    (hk : ((created idp u w).accounts.get? k).isSome = true) :
    ((createUserWith idp u actor w).2.accounts.get? k).isSome = true := by
  by_cases hstop : ∀ id, (createUser idp u w).1 = .ok id →
      (assignRoles idp id 0 u.roles (created idp u w)).1 ≠ .ok ()
  · exact (createUserWith_stopped hstop).2 k hk
  · push Not at hstop
    obtain ⟨id, hid, hroles⟩ := hstop
    rw [createUserWith_completed hid hroles]
    exact assignRoles_keeps _ _ _ hk

/-- Where nothing was created, nothing happened. -/
theorem createUserWith_nothing {u : NewUser} {actor : String} {w : UserWorld}
    (hnot : (creation idp u).applied = false) : (createUserWith idp u actor w).2 = w := by
  have hcreated : created idp u w = w := by simp [created, hnot]
  cases hid : (createUser idp u w).1 with
  | ok id =>
    obtain ⟨r, hr, hs, -⟩ := createUser_ok.1 hid
    rw [(creation idp u).answered r hr, hs] at hnot
    cases hnot
  | error e =>
    have hcreate : createUser idp u w = (.error e, w) := Prod.ext hid hcreated
    unfold createUserWith
    rw [hcreate]

/-- Everything went well: the account has every role. -/
theorem createUserWith_complete {u : NewUser} {w : UserWorld} (happlied : (creation idp u).applied = true)
    (h : Completes idp u w) (actor : String) : ∃ id account,
      (createUserWith idp u actor w).2.accounts.get? (idp.newId w.accounts) = some account ∧
        (∀ name ∈ u.roles, name ∈ account.roles) ∧
        (createUserWith idp u actor w).2.trail = w.trail ++ [userCreated u id actor] := by
  obtain ⟨r, id, hr, hs, hidOf, htext⟩ := h.answered
  have hsent : (creation idp u).response = .ok r := by
    unfold creation IdpOutcome.sending at happlied ⊢
    split at happlied
    · rw [if_pos ‹_›]; exact hr
    · cases happlied
  have hid : (createUser idp u w).1 = .ok id := createUser_ok.2 ⟨r, hsent, hs, hidOf⟩
  have hroles : (assignRoles idp id 0 u.roles (created idp u w)).1 = .ok () :=
    assignRoles_ok.2 ⟨fun j name hj => by rw [Nat.zero_add]; exact h.grants j name hj, fun hne =>
      (htext hne).imp fun _ ht => ht.1⟩
  rw [createUserWith_completed hid hroles]
  have hget := created_get? (w := w) happlied
  by_cases hne : u.roles = []
  · rw [hne]
    exact ⟨id, _, hget, by simp, rfl⟩
  · obtain ⟨text, htext, hread⟩ := htext hne
    exact ⟨id, _, assignRoles_get? htext hread hroles hget, by simpa using h.represented, rfl⟩

/-- The account, its roles and its record stand together exactly when no
account was created or nothing after its creation fails. -/
theorem postUsers_allOrNothing_iff (idp : IdentityProvider) (defaultTenant : String) (body : Args) (actor : String)
    (w : UserWorld) : AllOrNothing idp defaultTenant body actor w ↔
      ∀ u, readBody defaultTenant body = .ok u → (creation idp u).applied = false ∨ Completes idp u w := by
  unfold AllOrNothing postUsers
  cases hbody : readBody defaultTenant body with
  | error e => exact iff_of_true (.inl rfl) fun u h => (by cases h)
  | ok u =>
    dsimp only
    constructor
    · rintro h u' ⟨⟩
      cases happlied : (creation idp u).applied with
      | false => exact .inl rfl
      | true =>
        have hget := created_get? (w := w) happlied
        obtain hsame | ⟨u', id, account, ⟨⟩, haccount, hall, htrail⟩ := h
        · have hkept := createUserWith_keeps idp u actor w (idp.newId w.accounts) (by rw [hget]; rfl)
          rw [hsame, idp.newId_fresh] at hkept
          cases hkept
        · by_cases hstop : ∀ id, (createUser idp u w).1 = .ok id →
              (assignRoles idp id 0 u.roles (created idp u w)).1 ≠ .ok ()
          · rw [(createUserWith_stopped hstop).1] at htrail
            simp at htrail
          · push Not at hstop
            obtain ⟨id, hid, hroles⟩ := hstop
            obtain ⟨r, hr, hs, hidOf⟩ := createUser_ok.1 hid
            obtain ⟨hgrants, htexts⟩ := assignRoles_ok.1 hroles
            rw [createUserWith_completed hid hroles] at haccount
            have hread (hne : u.roles ≠ []) : ∃ text, Py.str id = .ok text ∧
                idp.reads (rolesPath text) = .roleMappings (idp.newId w.accounts) := by
              obtain ⟨text, htext⟩ := htexts hne
              by_cases hnew : idp.reads (rolesPath text) = .roleMappings (idp.newId w.accounts)
              · exact ⟨text, htext, hnew⟩
              -- the roles went to another account, and the new one has none
              · rw [assignRoles_other fun other hother => Except.ok.inj (htext.symm.trans hother) ▸ hnew,
                  hget] at haccount
                obtain ⟨⟩ := haccount
                obtain ⟨name, hname⟩ := List.exists_mem_of_ne_nil _ hne
                exact absurd (hall name hname) (by simp)
            refine .inr ⟨⟨r, id, (sending_ok.1 hr).2, hs, hidOf, hread⟩, fun i name hi => ?_, fun name hname => ?_⟩
            · have := hgrants i name hi
              rwa [Nat.zero_add] at this
            · obtain ⟨text, htext, hnew⟩ := hread (List.ne_nil_of_mem hname)
              rw [assignRoles_get? htext hnew hroles hget] at haccount
              obtain ⟨⟩ := haccount
              simpa using hall name hname
    · intro h
      obtain hnot | hcomplete := h u rfl
      · exact .inl (createUserWith_nothing hnot)
      · cases happlied : (creation idp u).applied with
        | false => exact .inl (createUserWith_nothing happlied)
        | true =>
          obtain ⟨id, account, haccount, hall, htrail⟩ := createUserWith_complete happlied hcomplete actor
          exact .inr ⟨u, id, account, rfl, haccount, hall, htrail⟩

end Route

section Example

/-- As many digits as all the ids there are, and one more. -/
def longerId (accounts : Accounts) : String :=
  String.ofList (List.replicate ((accounts.keys.map String.length).sum + 1) '1')

theorem longerId_fresh (accounts : Accounts) : accounts.get? (longerId accounts) = none := by
  rw [Option.eq_none_iff_forall_ne_some]
  intro a ha
  have hmem : (longerId accounts).length ∈ accounts.keys.map String.length :=
    List.mem_map_of_mem (Dict.mem_keys.2 ⟨a, ha⟩)
  have hle : (longerId accounts).length ≤ (accounts.keys.map String.length).sum := List.le_sum_of_mem hmem
  simp [longerId] at hle

/-- A request body asking for one role. -/
def deskBody : Args :=
  Dict.ofList [("username", .str "desk"), ("password", .str "secret"), ("roles", .arr [.str "manager"])]

/-- A path as far as a query or a fragment, by its segments. -/
def readPath (path : String) : Resource :=
  match (path.toList.takeWhile fun c => c ≠ '?' ∧ c ≠ '#').splitOn '/' with
  | [_, _, id] => .user (String.ofList id)
  | [_, _, id, _] => .password (String.ofList id)
  | [_, _, id, _, _] => .roleMappings (String.ofList id)
  | _ => .other

/-- A provider that creates the account and does not know the role. -/
def noSuchRole : IdentityProvider where
  create := ⟨.ok ⟨⟨201, .ok .null⟩, "/users/1"⟩, true, fun _ h => (by cases h; rfl)⟩
  newId := longerId
  newId_fresh := longerId_fresh
  find := .ok ⟨⟨200, .ok (.arr [])⟩, ""⟩
  lookup _ _ := .ok ⟨⟨404, .ok .null⟩, ""⟩
  assign _ := ⟨.ok ⟨⟨204, .ok .null⟩, ""⟩, true, fun _ h => (by cases h; rfl)⟩
  reads := readPath

/-- The account exists, without its role and without a record. -/
theorem postUsers_leaves_account : let _ := asciiData
    let w := (postUsers noSuchRole "acme" deskBody "root" ⟨∅, []⟩).2
    ¬ AllOrNothing noSuchRole "acme" deskBody "root" ⟨∅, []⟩ ∧
      (w.accounts.get? "1").map Account.roles = some [] ∧ w.trail.length = 0 := by
  intro _ w
  have hroles : (w.accounts.get? "1").map Account.roles = some [] := by decide +kernel
  have htrail : w.trail.length = 0 := by decide +kernel
  refine ⟨?_, hroles, htrail⟩
  rintro (hsame | ⟨u, id, account, -, -, -, hrecorded⟩)
  · have hnone : (w.accounts.get? "1").isSome = false := by rw [show w = ⟨∅, []⟩ from hsame]; rfl
    rw [Option.map_eq_some_iff] at hroles
    obtain ⟨a, ha, -⟩ := hroles
    rw [ha] at hnone
    cases hnone
  · have hlength : w.trail.length = 1 := by rw [show w.trail = _ from hrecorded]; rfl
    omega

end Example

end AgentPlatform
