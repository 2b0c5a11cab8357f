import GridProof.Auth.Sessions

/-!
# Who is issued a privileged token

The invite check looks at the requested role, and the token carries the stored one.

* `privilegedAt_after`  an identity is privileged iff an earlier request raised it with the code;
* `minted_with_code_iff`  every token of a reviewer or an admin is issued to a request with the code
  iff no request without it names an identity that was raised before.
-/

namespace Auth

/-! ## what is asked of a request -/

section
variable (config : Config)

/-- the request carries the invite code that is configured -/
def carriesCode (r : Request) : Prop :=
  match r.body with
  | .register _ _ inviteCode => ∃ code ∈ config.inviteCode, code ≠ "" ∧ inviteCode = some code
  | .login _ => False

/-- the request is valid, and the role it asks for is allowed -/
def accepted (r : Request) : Prop :=
  match r.body with
  | .register phoneOrEmail role inviteCode =>
    ∃ input, authRegisterRequest phoneOrEmail role inviteCode = .ok input ∧
      assertRoleAllowed config input.role input.inviteCode = .ok ()
  | .login phoneOrEmail => authLoginRequest phoneOrEmail = .ok phoneOrEmail

/-- the request registers a reviewer or an admin -/
def raises (r : Request) : Prop :=
  match r.body with
  | .register _ role _ => (role.getD .reporter).privileged ∧ accepted config r
  | .login _ => False

section
variable [JsText.Runtime]

/-- the identity that a request names -/
def identity (r : Request) : String :=
  match r.body with
  | .register phoneOrEmail _ _ => normalizeIdentity phoneOrEmail
  | .login phoneOrEmail => normalizeIdentity phoneOrEmail

/-- the request is answered with a token as soon as a user is found -/
def answered (r : Request) : Prop :=
  accepted config r ∧ (∃ secret, jwtSecret config = .ok secret) ∧
    3 ≤ JsText.utf16Length (identity r)

end

end

/-! ## roles -/

variable {config : Config}

theorem highestRole_privileged (current requested : UserRole) :
    (highestRole current requested).privileged ↔ current.privileged ∨ requested.privileged := by
  cases current <;> cases requested <;> decide

theorem authRegisterRequest_role {phoneOrEmail : String} {role : Option UserRole}
    {inviteCode : Option String} {input : AuthRegisterRequest}
    (h : authRegisterRequest phoneOrEmail role inviteCode = .ok input) :
    input.phoneOrEmail = phoneOrEmail ∧ input.role = role.getD .reporter ∧
      input.inviteCode = inviteCode := by
  unfold authRegisterRequest at h
  split at h
  · split at h
    · cases h
      exact ⟨rfl, rfl, rfl⟩
    · cases h
  · cases h

theorem assertRoleAllowed_eq_ok {role : UserRole} {inviteCode : Option String}
    (h : assertRoleAllowed config role inviteCode = .ok ()) : role = .reporter ∨
      ∃ code ∈ config.inviteCode, code ≠ "" ∧ inviteCode = some code := by
  unfold assertRoleAllowed at h
  split at h
  · rename_i hrole
    exact .inl hrole
  · split at h
    · cases h
    · rename_i expected hexpected
      split at h
      · cases h
      · rename_i hcode
        obtain ⟨hne, heq⟩ := not_or.mp hcode
        exact .inr ⟨expected, hexpected, hne, not_not.mp heq⟩

/-- who registers a reviewer or an admin carries the code -/
theorem raises_carriesCode {r : Request} (h : raises config r) : carriesCode config r := by
  unfold raises accepted at h
  unfold carriesCode
  split at h
  · obtain ⟨hrole, input, hinput, hallowed⟩ := h
    obtain ⟨-, hr, hc⟩ := authRegisterRequest_role hinput
    rw [hr, hc] at hallowed
    rcases assertRoleAllowed_eq_ok hallowed with hreporter | hcode
    · rw [hreporter] at hrole
      exact absurd hrole (by decide)
    · exact hcode
  · exact h.elim

theorem raises_accepted {r : Request} (h : raises config r) : accepted config r := by
  unfold raises at h
  split at h
  · exact h.2
  · exact h.elim

/-! ## one request -/

/-- the user that a registration stores -/
def registered (users : Users) (phoneOrEmail : String) (role : UserRole) (id : String) (now : Int) :
    User :=
  (registerDatabase users phoneOrEmail role id now).2

theorem registerDatabase_get? (users : Users) (phoneOrEmail : String) (role : UserRole) (id : String)
    (now : Int) (i : String) : (registerDatabase users phoneOrEmail role id now).1.get? i =
      if i = phoneOrEmail then some (registered users phoneOrEmail role id now)
      else users.get? i := by
  exact OrderedMap.get?_set

/-- an identity is a reviewer or an admin -/
def privilegedAt (users : Users) (i : String) : Prop :=
  ∃ user, users.get? i = some user ∧ user.role.privileged

theorem registered_privileged (users : Users) (phoneOrEmail : String) (role : UserRole) (id : String)
    (now : Int) : (registered users phoneOrEmail role id now).role.privileged ↔
      privilegedAt users phoneOrEmail ∨ role.privileged := by
  unfold registered registerDatabase privilegedAt
  cases h : users.get? phoneOrEmail with
  | none =>
    refine ⟨Or.inr, ?_⟩
    rintro (⟨user, he, -⟩ | hrole)
    · cases he
    · exact hrole
  | some existing =>
    dsimp only
    rw [sqlRole_eq_highestRole, highestRole_privileged]
    refine or_congr_left ⟨fun hp => ⟨existing, rfl, hp⟩, ?_⟩
    rintro ⟨user, he, hp⟩
    cases he
    exact hp

/-- every user is stored under its own identity -/
def Keyed (users : Users) : Prop := ∀ i user, users.get? i = some user → user.phoneOrEmail = i

theorem registered_phoneOrEmail {users : Users} (h : Keyed users) (phoneOrEmail : String)
    (role : UserRole) (id : String) (now : Int) :
    (registered users phoneOrEmail role id now).phoneOrEmail = phoneOrEmail := by
  unfold registered registerDatabase
  cases he : users.get? phoneOrEmail with
  | none => rfl
  | some existing => exact h phoneOrEmail existing he

section
variable [JsText.Runtime] {mode : Mode}

theorem registerUser_eq {users : Users} {input : AuthRegisterRequest} {id : String} {now : Int}
    (h : assertRoleAllowed config input.role input.inviteCode = .ok ()) :
    registerUser config mode users input id now = .ok (registerDatabase users
      (normalizeIdentity input.phoneOrEmail) input.role id now) := by
  unfold registerUser
  rw [h]
  cases mode with
  | memory => exact congrArg Except.ok (registerDatabase_eq ..).symm
  | database => rfl

variable (config mode)

/-- everything that a request does -/
inductive Handled (users : Users) (r : Request) : Users × Except Error Session → Prop
  | refused (e : Error) (h : ¬ accepted config r) : Handled users r (users, .error e)
  | unknown (h : users.get? (identity r) = none) (hr : ¬ raises config r) :
    Handled users r (users, .error .userNotFound)
  | login (user : User) (h : users.get? (identity r) = some user)
    (ha : accepted config r) (hr : ¬ raises config r) :
    Handled users r (users, sessionResponse config user r.now)
  | register (role : UserRole) (ha : accepted config r) (hr : raises config r ↔ role.privileged) :
    Handled users r ((registerDatabase users (identity r) role r.id r.now).1,
      sessionResponse config (registered users (identity r) role r.id r.now) r.now)

theorem handled (users : Users) (r : Request) :
    Handled config users r (handle config mode users r) := by
  obtain ⟨body, id, now⟩ := r
  unfold handle
  cases body with
  | login phoneOrEmail =>
    dsimp only
    cases hq : authLoginRequest phoneOrEmail with
    | error e =>
      refine .refused e fun h => ?_
      have hok : authLoginRequest phoneOrEmail = .ok phoneOrEmail := h
      rw [hq] at hok
      cases hok
    | ok q =>
      have hqp : q = phoneOrEmail := by
        unfold authLoginRequest at hq
        split at hq
        · cases hq
          rfl
        · cases hq
      subst hqp
      dsimp only
      cases hu : findUserForLogin users q with
      | none => exact .unknown hu not_false
      | some user => exact .login user hu hq not_false
  | register phoneOrEmail role inviteCode =>
    dsimp only
    cases hinput : authRegisterRequest phoneOrEmail role inviteCode with
    | error e =>
      refine .refused e fun h => ?_
      obtain ⟨input, hok, -⟩ := h
      rw [hinput] at hok
      cases hok
    | ok input =>
      obtain ⟨hphone, hrole, -⟩ := authRegisterRequest_role hinput
      dsimp only
      cases hallowed : assertRoleAllowed config input.role input.inviteCode with
      | error e =>
        have hu : registerUser config mode users input id now = .error e := by
          unfold registerUser
          rw [hallowed]
          rfl
        rw [hu]
        refine .refused e fun h => ?_
        obtain ⟨input', hok, ha⟩ := h
        rw [hinput] at hok
        cases hok
        rw [hallowed] at ha
        cases ha
      | ok _ =>
        rw [registerUser_eq hallowed, hphone]
        have ha : accepted config ⟨.register phoneOrEmail role inviteCode, id, now⟩ :=
          ⟨input, hinput, hallowed⟩
        refine .register input.role ha ?_
        rw [hrole]
        exact ⟨fun h => h.1, fun h => ⟨h, ha⟩⟩

end

/-! ## the session -/

theorem sessionResponse_eq_ok {user : User} {now : Int} {session : Session}
    (h : sessionResponse config user now = .ok session) : session.payload.role = user.role ∧
      (∃ secret, jwtSecret config = .ok secret) ∧ 3 ≤ JsText.utf16Length user.phoneOrEmail := by
  unfold sessionResponse at h
  cases hs : jwtSecret config with
  | error e =>
    rw [hs] at h
    cases h
  | ok secret =>
    rw [hs] at h
    change (if 3 ≤ JsText.utf16Length user.phoneOrEmail then _ else _) = _ at h
    split at h
    · rename_i hlen
      cases h
      exact ⟨rfl, ⟨secret, rfl⟩, hlen⟩
    · cases h

theorem sessionResponse_ok {user : User} (now : Int) {secret : String}
    (hs : jwtSecret config = .ok secret) (hlen : 3 ≤ JsText.utf16Length user.phoneOrEmail) :
    ∃ session, sessionResponse config user now = .ok session ∧ session.payload.role = user.role := by
  unfold sessionResponse
  rw [hs]
  refine ⟨_, if_pos hlen, rfl⟩

/-! ## runs -/

section
variable [JsText.Runtime] (config : Config) (mode : Mode)

theorem usersAfter_snoc (requests : List Request) (r : Request) :
    usersAfter config mode (requests ++ [r]) =
      (handle config mode (usersAfter config mode requests) r).1 := by
  unfold usersAfter
  rw [List.foldl_append]
  rfl

theorem keyed_after (requests : List Request) : Keyed (usersAfter config mode requests) := by
  induction requests using List.reverseRecOn with
  | nil =>
    intro i user h
    cases h
  | append_singleton requests r ih =>
    rw [usersAfter_snoc]
    have hr := handled config mode (usersAfter config mode requests) r
    generalize handle config mode _ r = result at hr
    cases hr with
    | register role ha hraises =>
      intro i user h
      rw [registerDatabase_get?] at h
      split at h
      · rename_i hi
        cases h
        rw [hi]
        exact registered_phoneOrEmail ih ..
      · exact ih i user h
    | _ => exact ih

/-- **An identity is a reviewer or an admin iff an earlier request has raised it.** -/
theorem privilegedAt_after (requests : List Request) (i : String) :
    privilegedAt (usersAfter config mode requests) i ↔
      ∃ q ∈ requests, raises config q ∧ identity q = i := by
  induction requests using List.reverseRecOn with
  | nil =>
    constructor
    · rintro ⟨user, h, -⟩
      cases h
    · rintro ⟨q, h, -⟩
      cases h
  | append_singleton requests r ih =>
    rw [usersAfter_snoc]
    have hr := handled config mode (usersAfter config mode requests) r
    generalize handle config mode _ r = result at hr
    have hsplit : (∃ q ∈ requests ++ [r], raises config q ∧ identity q = i) ↔
        privilegedAt (usersAfter config mode requests) i ∨
          raises config r ∧ identity r = i := by
      simp only [ih, List.mem_append, List.mem_singleton, or_and_right, exists_or, exists_eq_left]
    rw [hsplit]
    have hkept : ¬ raises config r →
        (privilegedAt (usersAfter config mode requests) i ↔
          privilegedAt (usersAfter config mode requests) i ∨
            raises config r ∧ identity r = i) :=
      fun h => ⟨Or.inl, fun hor => hor.resolve_right fun hr => h hr.1⟩
    cases hr with
    | refused e h => exact hkept fun hraises => h (raises_accepted hraises)
    | unknown h hraises => exact hkept hraises
    | login user h ha hraises => exact hkept hraises
    | register role ha hraises =>
      by_cases hi : i = identity r
      · have hstored : privilegedAt (registerDatabase (usersAfter config mode requests)
            (identity r) role r.id r.now).1 i ↔
            (registered (usersAfter config mode requests) (identity r) role
              r.id r.now).role.privileged := by
          unfold privilegedAt
          simp only [registerDatabase_get?, if_pos hi, Option.some.injEq, exists_eq_left']
        rw [hstored, registered_privileged, ← hi, hraises]
        simp only [and_true]
      · have hstored : privilegedAt (registerDatabase (usersAfter config mode requests)
            (identity r) role r.id r.now).1 i ↔
            privilegedAt (usersAfter config mode requests) i := by
          unfold privilegedAt
          simp only [registerDatabase_get?, if_neg hi]
        rw [hstored]
        exact ⟨Or.inl, fun hor => hor.resolve_right fun h => hi h.2.symm⟩

/-- a request that raises nobody gets a privileged token iff its identity is privileged already -/
theorem handle_privileged_iff {users : Users} (hkeyed : Keyed users) {r : Request}
    (hraises : ¬ raises config r) :
    (∃ session, (handle config mode users r).2 = .ok session ∧
      session.payload.role.privileged) ↔
    answered config r ∧ privilegedAt users (identity r) := by
  have hr := handled config mode users r
  generalize handle config mode users r = result at hr
  cases hr with
  | refused e h =>
    constructor
    · rintro ⟨session, he, -⟩
      cases he
    · rintro ⟨hanswered, -⟩
      exact absurd hanswered.1 h
  | unknown h _ =>
    constructor
    · rintro ⟨session, he, -⟩
      cases he
    · rintro ⟨-, user, hu, -⟩
      rw [h] at hu
      cases hu
  | login user h ha _ =>
    have hphone := hkeyed _ user h
    constructor
    · rintro ⟨session, hsession, hrole⟩
      obtain ⟨hsame, hsecret, hlen⟩ := sessionResponse_eq_ok hsession
      exact ⟨⟨ha, hsecret, hphone ▸ hlen⟩, user, h, hsame ▸ hrole⟩
    · rintro ⟨⟨-, ⟨secret, hsecret⟩, hlen⟩, user', hu, hrole⟩
      rw [h] at hu
      cases hu
      obtain ⟨session, hsession, hsame⟩ := sessionResponse_ok r.now hsecret (hphone ▸ hlen)
      exact ⟨session, hsession, hsame ▸ hrole⟩
  | register role ha hiff =>
    have hphone := registered_phoneOrEmail hkeyed (identity r) role r.id r.now
    have hpriv := registered_privileged users (identity r) role r.id r.now
    rw [← hiff, or_iff_left hraises] at hpriv
    constructor
    · rintro ⟨session, hsession, hrole⟩
      obtain ⟨hsame, hsecret, hlen⟩ := sessionResponse_eq_ok hsession
      exact ⟨⟨ha, hsecret, hphone ▸ hlen⟩, hpriv.mp (hsame ▸ hrole)⟩
    · rintro ⟨⟨-, ⟨secret, hsecret⟩, hlen⟩, hat⟩
      obtain ⟨session, hsession, hsame⟩ := sessionResponse_ok r.now hsecret (hphone.symm ▸ hlen)
      exact ⟨session, hsession, hsame ▸ hpriv.mpr hat⟩

/-- **Every token of a reviewer or an admin is issued to a request with the code, iff no request without it
that is answered names an identity that an earlier request has raised.** -/
theorem minted_with_code_iff (requests : List Request) :
    (∀ before r after session, requests = before ++ r :: after →
      (handle config mode (usersAfter config mode before) r).2 = .ok session →
      session.payload.role.privileged → carriesCode config r) ↔
    ∀ before r after, requests = before ++ r :: after → answered config r →
      ¬ carriesCode config r → ∀ q ∈ before, raises config q →
      identity q ≠ identity r := by
  have hstep := fun before {r} (hcode : ¬ carriesCode config r) =>
    handle_privileged_iff config mode (keyed_after config mode before)
      fun h => hcode (raises_carriesCode h)
  constructor
  · intro h before r after he hanswered hcode q hq hraises hi
    have hat := (privilegedAt_after config mode before _).mpr ⟨q, hq, hraises, hi⟩
    obtain ⟨session, hsession, hrole⟩ := (hstep before hcode).mpr ⟨hanswered, hat⟩
    exact hcode (h before r after session he hsession hrole)
  · intro h before r after session he hsession hrole
    by_contra hcode
    obtain ⟨hanswered, hat⟩ := (hstep before hcode).mp ⟨session, hsession, hrole⟩
    obtain ⟨q, hq, hraises, hi⟩ := (privilegedAt_after config mode before _).mp hat
    exact h before r after he hanswered hcode q hq hraises hi

end

/-- a code and a secret are configured -/
def sampleConfig : Config := ⟨some "demo-invite", some "secret", none, true⟩

/-- an admin registers with the code, then anyone registers the same address as a reporter -/
def sampleRequests : List Request :=
  [⟨.register "admin@gridproof.test" (some .admin) (some "demo-invite"), "u1", 0⟩,
    ⟨.register "admin@gridproof.test" (some .reporter) none, "u2", 1000⟩]

theorem open_mint : letI := JsText.asciiRuntime
    ∃ before r after session, sampleRequests = before ++ r :: after ∧
      (handle sampleConfig .memory (usersAfter sampleConfig .memory before) r).2 = .ok session ∧
      session.payload.role = .admin ∧ ¬ carriesCode sampleConfig r := by
  let _ := JsText.asciiRuntime
  have hrun : (match (handle sampleConfig .memory
      (usersAfter sampleConfig .memory (sampleRequests.take 1)) sampleRequests[1]).2 with
      | .ok session => decide (session.payload.role = .admin)
      | .error _ => false) = true := by
    decide +kernel
  split at hrun
  · rename_i session hsession
    refine ⟨sampleRequests.take 1, sampleRequests[1], [], session, rfl, hsession,
      of_decide_eq_true hrun, ?_⟩
    rintro ⟨code, -, -, h⟩
    cases h
  · cases hrun

end Auth
