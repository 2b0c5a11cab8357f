import GridProof.Auth.Tokens

/-!
# What registration answers and stores

The routes with the texts that they answer, over runs from the empty store in memory mode.

* `route_eq`          the routes answer the sessions of `handle`, with the text of their tokens;
* `stored_after`      the users that are stored, whatever was asked before;
* `registration_iff`  a registration that is allowed is answered with a token that works, and one that is answered
  with an error stores nothing, iff a secret is configured and the identity has three units when it is trimmed.

The user is stored before the session is made, and the session is refused for an identity that the request's schema
let through.
-/

namespace Auth

open Sha256 (Byte utf8)

/-! ## the routes -/

section
variable [JsText.Runtime] (formats : Formats) (config : Config) (mode : Mode)

/-- the session of a user that is found or registered -/
def answer (user : User) (nowMillis : Int) : Except Error SessionResponse := do
  let session ← createSessionToken config user nowMillis (60 * 60)
  authSessionResponse formats ⟨user, session.1, session.2⟩

/-- `POST /auth/register` and `POST /auth/login` -/
def route (users : Users) (r : Request) : Users × Except Error SessionResponse :=
  match r.body with
  | .register phoneOrEmail role inviteCode =>
    match authRegisterRequest phoneOrEmail role inviteCode with
    | .error e => (users, .error e)
    | .ok input =>
      match registerUser config mode users input r.id r.now with
      | .error e => (users, .error e)
      | .ok (users, user) => (users, answer formats config user r.now)
  | .login phoneOrEmail =>
    match authLoginRequest phoneOrEmail with
    | .error e => (users, .error e)
    | .ok phoneOrEmail =>
      match findUserForLogin users phoneOrEmail with
      | none => (users, .error .userNotFound)
      | some user => (users, answer formats config user r.now)

/-- what the runtime gives to a request: a random id is a UUID, and the year has four digits an hour later -/
structure Drawn (r : Request) : Prop where
  id : formats.uuid r.id = true
  now : 0 ≤ r.now
  later : r.now + 60 * 60 * 1000 < 253402300800000

/-- a user that was stored by a request of this kind -/
structure Registered (i : String) (user : User) : Prop where
  id : formats.uuid user.id = true
  phoneOrEmail : user.phoneOrEmail = i
  createdAt : formats.datetime user.createdAt = true

/-- the reply of a session -/
def Session.reply (session : Session) : SessionResponse :=
  ⟨session.user, session.token, Calendar.isoMillis (session.payload.exp * 1000)⟩

end

/-! ## answers -/

section
variable {formats : Formats} {config : Config}

theorem token_length (session : Session) : 20 ≤ JsText.utf16Length session.token := by
  have hheader : (base64UrlJson headerMembers).length = 36 := by decide +kernel
  have hle := JsText.length_le_utf16Length session.token
  unfold Session.token signedText at hle
  simp only [String.length_append, hheader] at hle
  unfold Session.token signedText
  omega

theorem answer_eq {user : User} {i : String} {r : Request} (hr : Drawn formats r) (hu : Registered formats i user) :
    answer formats config user r.now = (sessionResponse config user r.now).map Session.reply := by
  obtain ⟨-, hnow, hlater⟩ := hr
  unfold answer sessionResponse
  cases hsecret : jwtSecret config with
  | error e =>
    unfold createSessionToken
    rw [hsecret]
    rfl
  | ok secret =>
    rw [createSessionToken_eq hsecret]
    show authSessionResponse formats ⟨user, _, _⟩ = Except.map Session.reply (if _ then _ else _)
    have hexpires : formats.datetime (Calendar.isoMillis ((r.now / 1000 + 60 * 60) * 1000)) = true :=
      formats.datetime_iso _ (by omega) (by omega)
    unfold authSessionResponse
    split
    · rename_i hok
      rw [if_pos hok.1.2.1]
      rfl
    · rename_i hno
      rw [if_neg fun hlength => hno ⟨⟨hu.id, hlength, hu.createdAt⟩, token_length _, hexpires⟩]
      rfl

/-! ## the store -/

/-- every user is stored under its own identity, and passes the schemas but for the length of the identity -/
def Stored (formats : Formats) (users : Users) : Prop :=
  ∀ i user, users.get? i = some user → Registered formats i user

theorem registered_registered {users : Users} {r : Request} (hr : Drawn formats r) (h : Stored formats users)
    (i : String) (role : UserRole) : Registered formats i (registered users i role r.id r.now) := by
  obtain ⟨hid, hnow, hlater⟩ := hr
  unfold registered registerDatabase
  cases he : users.get? i with
  | none => exact ⟨hid, rfl, formats.datetime_iso r.now hnow (by omega)⟩
  | some existing =>
    obtain ⟨hid, hphone, hcreated⟩ := h i existing he
    exact ⟨hid, hphone, hcreated⟩

theorem sessionResponse_payload {user : User} {nowMillis : Int} {session : Session}
    (h : sessionResponse config user nowMillis = .ok session) : session.user = user ∧
      jwtSecret config = .ok session.secret ∧
      session.payload = sessionPayload user (nowMillis / 1000) (nowMillis / 1000 + 60 * 60) := by
  unfold sessionResponse at h
  obtain ⟨secret, hsecret, h⟩ := Except.bind_eq_ok.mp h
  change (if 3 ≤ JsText.utf16Length user.phoneOrEmail then _ else _) = _ at h
  split at h
  · cases h
    exact ⟨rfl, hsecret, rfl⟩
  · cases h

theorem registered_get? (users : Users) (i : String) (role : UserRole) (id : String) (now : Int) :
    (registerDatabase users i role id now).1.get? i = some (registered users i role id now) := by
  rw [registerDatabase_get?, if_pos rfl]

variable [JsText.Runtime] {mode : Mode}

/-- the routes answer the sessions of `handle` with the text of their tokens -/
theorem route_eq {users : Users} {r : Request} (hr : Drawn formats r) (h : Stored formats users) :
    route formats config mode users r =
      ((handle config mode users r).1, (handle config mode users r).2.map Session.reply) := by
  unfold route handle
  cases r.body with
  | login phoneOrEmail =>
    dsimp only
    cases authLoginRequest phoneOrEmail with
    | error e => rfl
    | ok q =>
      dsimp only
      cases hu : findUserForLogin users q with
      | none => rfl
      | some user => exact congrArg (Prod.mk users) (answer_eq hr (h _ user hu))
  | register phoneOrEmail role inviteCode =>
    dsimp only
    cases authRegisterRequest phoneOrEmail role inviteCode with
    | error e => rfl
    | ok input =>
      dsimp only
      cases hallowed : assertRoleAllowed config input.role input.inviteCode with
      | error e =>
        have hu : registerUser config mode users input r.id r.now = .error e := by
          unfold registerUser
          rw [hallowed]
          rfl
        rw [hu]
        rfl
      | ok _ =>
        rw [registerUser_eq hallowed]
        exact congrArg (Prod.mk _) (answer_eq hr (registered_registered hr h _ input.role))

theorem stored_handle {users : Users} {r : Request} (hr : Drawn formats r) (h : Stored formats users) :
    Stored formats (handle config mode users r).1 := by
  have hhandled := handled config mode users r
  generalize handle config mode users r = result at hhandled
  cases hhandled with
  | register role ha hraises =>
    intro i user hget
    rw [registerDatabase_get?] at hget
    split at hget
    · rename_i hi
      cases hget
      rw [hi]
      exact registered_registered hr h _ role
    · exact h i user hget
  | _ => exact h

theorem stored_after {requests : List Request} (h : ∀ q ∈ requests, Drawn formats q) :
    Stored formats (usersAfter config mode requests) := by
  induction requests using List.reverseRecOn with
  | nil =>
    intro i user hget
    cases hget
  | append_singleton requests r ih =>
    rw [usersAfter_snoc]
    exact stored_handle (h r (List.mem_append_right _ List.mem_cons_self))
      (ih fun q hq => h q (List.mem_append_left _ hq))

end

/-! ## sessions that work -/

section
variable [JsText.Runtime] (formats : Formats) (config : Config)

/-- a registration with a valid body and a role that is allowed -/
def Allowed (r : Request) : Prop :=
  (∃ phoneOrEmail role inviteCode, r.body = .register phoneOrEmail role inviteCode) ∧ accepted config r

/-- when the token of a request expires, in milliseconds -/
def expiry (r : Request) : Int := (r.now / 1000 + 60 * 60) * 1000

/-- the token is accepted until it expires, and names the user that is stored -/
structure Works (users : Users) (r : Request) (reply : SessionResponse) : Prop where
  stored : users.get? (identity r) = some reply.user
  expiresAt : reply.expiresAt = Calendar.isoMillis (expiry r)
  verified : ∀ now < expiry r, ∃ auth, verifyBearerToken formats config reply.token now = .ok auth ∧
    auth.user.id = reply.user.id ∧ auth.user.role = reply.user.role ∧ auth.user.phoneOrEmail = reply.user.phoneOrEmail

/-- an allowed registration is answered with a session that works -/
def Registers (users : Users) (r : Request) : Prop :=
  Allowed config r → ∃ reply, (route formats config .memory users r).2 = .ok reply ∧
    Works formats config (route formats config .memory users r).1 r reply

/-- a request that is answered with an error leaves the users as they were -/
def Untouched (users : Users) (r : Request) : Prop :=
  ∀ e, (route formats config .memory users r).2 = .error e → (route formats config .memory users r).1 = users

/-- a token that was answered to one of these requests -/
def Issued (requests : List Request) (token : String) : Prop :=
  ∃ before r after reply, requests = before ++ r :: after ∧
    (route formats config .memory (usersAfter config .memory before) r).2 = .ok reply ∧ reply.token = token

/-- the header and payload of a token that was issued -/
def Seen (requests : List Request) (message : List Byte) : Prop :=
  ∃ token t, Issued formats config requests token ∧ tokenText token = some t ∧ t.message = message

/-- if the HMAC is unforgeable, a token that is made without the secret and is accepted has the header and payload of
one that was issued -/
def Unforged (requests : List Request) : Prop :=
  ∀ secret makes, jwtSecret config = .ok secret →
    Unforgeable (Sha256.hmac (utf8 secret)) (Seen formats config requests) makes →
    ∀ token t now auth, tokenText token = some t → makes t.message (Base64.decode t.signed) →
      verifyBearerToken formats config token now = .ok auth →
      ∃ token' t', Issued formats config requests token' ∧ tokenText token' = some t' ∧
        t'.header = t.header ∧ t'.payload = t.payload

variable {formats config}

theorem unforged (requests : List Request) : Unforged formats config requests := by
  intro secret makes hsecret hmac token t now auth ht hmade hverify
  obtain ⟨token', t', hissued, ht', he⟩ := verify_seen hsecret hmac ht hmade hverify
  obtain ⟨hheader, hpayload⟩ := tokenText_message ht' ht he
  exact ⟨token', t', hissued, ht', hheader, hpayload⟩

/-- what an allowed registration does -/
theorem handle_allowed (users : Users) {r : Request} (h : Allowed config r) : ∃ role,
    handle config .memory users r = ((registerDatabase users (identity r) role r.id r.now).1,
      sessionResponse config (registered users (identity r) role r.id r.now) r.now) := by
  obtain ⟨body, id, now⟩ := r
  obtain ⟨⟨phoneOrEmail, role, inviteCode, rfl⟩, input, hinput, hallowed⟩ := h
  obtain ⟨hphone, -, -⟩ := authRegisterRequest_role hinput
  refine ⟨input.role, ?_⟩
  unfold handle
  dsimp only
  rw [hinput]
  dsimp only
  rw [registerUser_eq hallowed, hphone]
  rfl

/-- every other request leaves the users as they were -/
theorem handle_not_allowed (users : Users) {r : Request} (h : ¬Allowed config r) :
    (handle config .memory users r).1 = users := by
  obtain ⟨body, id, now⟩ := r
  unfold handle
  cases body with
  | login phoneOrEmail =>
    dsimp only
    cases authLoginRequest phoneOrEmail with
    | error e => rfl
    | ok q =>
      dsimp only
      cases findUserForLogin users q with
      | none => rfl
      | some user => rfl
  | register phoneOrEmail role inviteCode =>
    dsimp only
    cases hinput : authRegisterRequest phoneOrEmail role inviteCode with
    | error e => rfl
    | ok input =>
      dsimp only
      unfold registerUser
      cases hallowed : assertRoleAllowed config input.role input.inviteCode with
      | error e => rfl
      | ok _ => exact absurd ⟨⟨phoneOrEmail, role, inviteCode, rfl⟩, input, hinput, hallowed⟩ h

/-- **A registration that is allowed is answered with a session that works iff there is a secret and the identity is
long enough when it is trimmed.** -/
theorem registers_iff {users : Users} {r : Request} (hr : Drawn formats r) (hstored : Stored formats users) :
    Registers formats config users r ↔
      (Allowed config r → (∃ secret, jwtSecret config = .ok secret) ∧ 3 ≤ JsText.utf16Length (identity r)) := by
  unfold Registers
  refine imp_congr_right fun hallowed => ?_
  obtain ⟨role, hhandle⟩ := handle_allowed users hallowed
  have hregistered := registered_registered hr hstored (identity r) role
  rw [route_eq hr hstored, hhandle]
  constructor
  · rintro ⟨reply, hreply, -⟩
    cases hsession : sessionResponse config (registered users (identity r) role r.id r.now) r.now with
    | error e =>
      rw [hsession] at hreply
      cases hreply
    | ok session =>
      obtain ⟨-, hsecret, hlength⟩ := sessionResponse_eq_ok hsession
      exact ⟨hsecret, hregistered.phoneOrEmail ▸ hlength⟩
  · rintro ⟨⟨secret, hsecret⟩, hlength⟩
    rw [← hregistered.phoneOrEmail] at hlength
    obtain ⟨session, hsession, -⟩ := sessionResponse_ok r.now hsecret hlength
    obtain ⟨huser, hsecret', hpayload⟩ := sessionResponse_payload hsession
    rw [← huser] at hpayload hregistered hlength
    obtain ⟨-, hnow, hlater⟩ := hr
    have hdated : Dated (r.now / 1000 * 1000) := ⟨by omega, by omega⟩
    refine ⟨session.reply, congrArg (Except.map Session.reply) hsession, ?_, ?_, ?_⟩
    · rw [registered_get?]
      exact congrArg some huser.symm
    · unfold Session.reply
      rw [hpayload]
      rfl
    · intro now hbefore
      unfold expiry at hbefore
      exact ⟨_, verify_token formats hsecret' hpayload hregistered.id hlength hdated (by omega), rfl, rfl, rfl⟩

/-- where there is a secret and the identity is long enough, an error comes before the store is written -/
theorem untouched {users : Users} {r : Request} (hr : Drawn formats r) (hstored : Stored formats users)
    (h : Allowed config r → (∃ secret, jwtSecret config = .ok secret) ∧ 3 ≤ JsText.utf16Length (identity r)) :
    Untouched formats config users r := by
  intro e he
  by_cases hallowed : Allowed config r
  · obtain ⟨reply, hreply, -⟩ := (registers_iff hr hstored).mpr h hallowed
    rw [hreply] at he
    cases he
  · rw [route_eq hr hstored]
    exact handle_not_allowed users hallowed

/-- **Registration yields a session that works, an error stores nothing and no token is forged, iff a secret is
configured and the identity has three units when it is trimmed and in lower case.** -/
theorem registration_iff (formats : Formats) (config : Config) (before : List Request) (r : Request)
    (h : ∀ q ∈ before ++ [r], Drawn formats q) :
    (Registers formats config (usersAfter config .memory before) r ∧
      Untouched formats config (usersAfter config .memory before) r ∧ Unforged formats config (before ++ [r])) ↔
    (Allowed config r → (∃ secret, jwtSecret config = .ok secret) ∧ 3 ≤ JsText.utf16Length (identity r)) := by
  have hr := h r (List.mem_append_right before List.mem_cons_self)
  have hstored : Stored formats (usersAfter config .memory before) :=
    stored_after fun q hq => h q (List.mem_append_left [r] hq)
  rw [registers_iff hr hstored]
  exact ⟨fun hall => hall.1, fun hcond => ⟨hcond, untouched hr hstored hcond, unforged _⟩⟩

end

/-- the groups of a UUID, and the letter of a time -/
def sampleFormats : Formats where
  uuid s := (s.toList.splitOn '-').map List.length = [8, 4, 4, 4, 12]
  datetime s := s.toList.contains 'T'
  datetime_iso ms _ _ := by
    unfold Calendar.isoMillis
    simp only [String.toList_append, List.contains_eq_mem, List.mem_append, decide_eq_true_eq]
    exact .inl (.inl (.inl (.inl (.inr List.mem_cons_self))))

def sampleRegistration (phoneOrEmail : String) : Request :=
  ⟨.register phoneOrEmail none none, "9cc8a4f6-4df7-45b4-8c1e-a4381c47083a", 1767276000000⟩

theorem drawn_sample (phoneOrEmail : String) : Drawn sampleFormats (sampleRegistration phoneOrEmail) := by
  have hid : sampleFormats.uuid "9cc8a4f6-4df7-45b4-8c1e-a4381c47083a" = true := by decide +kernel
  have hlater : (1767276000000 : Int) + 60 * 60 * 1000 < 253402300800000 := by decide
  exact ⟨hid, Int.natCast_nonneg _, hlater⟩

theorem registration_iff_sample : letI := JsText.asciiRuntime
    (Registers sampleFormats sampleConfig .empty (sampleRegistration " User@GridProof.test ") ∧
      Untouched sampleFormats sampleConfig .empty (sampleRegistration " User@GridProof.test ") ∧
      Unforged sampleFormats sampleConfig [sampleRegistration " User@GridProof.test "]) := by
  let _ := JsText.asciiRuntime
  have hlength : 3 ≤ JsText.utf16Length (identity (sampleRegistration " User@GridProof.test ")) := by decide +kernel
  refine (registration_iff sampleFormats sampleConfig [] (sampleRegistration " User@GridProof.test ") ?_).mpr
    fun _ => ⟨⟨"secret", rfl⟩, hlength⟩
  intro q hq
  obtain rfl := List.mem_singleton.mp hq
  exact drawn_sample _

/-- two blanks and a letter are stored as the letter, and the session of the letter is refused -/
theorem blank_identity : letI := JsText.asciiRuntime
    ¬Registers sampleFormats sampleConfig .empty (sampleRegistration "  a") ∧
      ¬Untouched sampleFormats sampleConfig .empty (sampleRegistration "  a") := by
  let _ := JsText.asciiRuntime
  have hstored : Stored sampleFormats .empty := by
    intro i user h
    cases h
  have hallowed : Allowed sampleConfig (sampleRegistration "  a") :=
    ⟨⟨"  a", none, none, rfl⟩, ⟨"  a", .reporter, by decide, none⟩, by rfl, rfl⟩
  have hsession : (handle sampleConfig .memory .empty (sampleRegistration "  a")).2 = .error .invalidResponse := by
    decide +kernel
  have husers : (handle sampleConfig .memory .empty (sampleRegistration "  a")).1.get? "a" ≠ none := by
    decide +kernel
  have hroute : route sampleFormats sampleConfig .memory .empty (sampleRegistration "  a") = _ :=
    route_eq (drawn_sample "  a") hstored
  have hreply : (route sampleFormats sampleConfig .memory .empty (sampleRegistration "  a")).2 =
      .error .invalidResponse := by
    rw [hroute, hsession]
    rfl
  refine ⟨fun h => ?_, fun h => ?_⟩
  · obtain ⟨reply, hok, -⟩ := h hallowed
    rw [hreply] at hok
    cases hok
  · have hsame := h _ hreply
    rw [hroute] at hsame
    exact husers (congrArg (OrderedMap.get? · "a") hsame)

end Auth
