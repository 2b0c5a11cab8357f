import GridProof.Auth.Minting
import GridProof.Lib.Base64
import GridProof.Lib.Checked
import GridProof.Lib.Cut
import GridProof.Lib.JsonText
import GridProof.Lib.Utf8

/-!
# The text of a session token

A token is three parts with points between them: a header and a payload, which are JSON in base64, and the HMAC of
both.

* `createSessionToken`, `verifyBearerToken`   a token is made, and read back;
* `route`             registration and login with the texts that they answer;
* `verify_token`      what is read of a token that was made, until it expires;
* `verify_signed`     who presents a token that is accepted has the HMAC of its header and payload.
-/

namespace Auth

open Sha256 (utf8)

/-! ## schemas -/

/-- the two formats of the schema library that a user has, and what it documents of them -/
structure Formats where
  uuid : String → Bool
  /-- with `offset: true` -/
  datetime : String → Bool
  /-- a year of four digits -/
  datetime_iso : ∀ ms, 0 ≤ ms → ms < 253402300800000 → datetime (Calendar.isoMillis ms) = true

/-- `userSchema` -/
def Formats.User (formats : Formats) (user : Auth.User) : Prop :=
  formats.uuid user.id = true ∧ 3 ≤ JsText.utf16Length user.phoneOrEmail ∧ formats.datetime user.createdAt = true

instance (formats : Formats) (user : User) : Decidable (formats.User user) := inferInstanceAs (Decidable (_ ∧ _))

structure SessionResponse where
  user : User
  token : String
  expiresAt : String

/-- `authSessionResponseSchema` -/
def authSessionResponse (formats : Formats) (session : SessionResponse) : Except Error SessionResponse :=
  if formats.User session.user ∧ 20 ≤ JsText.utf16Length session.token ∧ formats.datetime session.expiresAt = true
  then .ok session
  else .error .invalidResponse

def UserRole.text : UserRole → String
  | .public => "public"
  | .reporter => "reporter"
  | .reviewer => "reviewer"
  | .admin => "admin"

/-- `userRoleSchema` -/
def UserRole.ofText (text : String) : Option UserRole :=
  [.public, .reporter, .reviewer, .admin].find? fun role => role.text = text

/-! ## making a token -/

/-- a claim that is undefined is left out -/
def claim (name : String) (value : Option String) : List (String × Json.Doc) :=
  value.toList.map fun v => (name, .text v)

def Payload.members (p : Payload) : List (String × Json.Doc) :=
  ("sub", .text p.sub) :: (claim "email" p.email ++ claim "phone" p.phone ++
    [("iat", .integer p.iat), ("exp", .integer p.exp), ("app_metadata", .object [("role", .text p.role.text)])])

def headerMembers : List (String × Json.Doc) := [("alg", .text "HS256"), ("typ", .text "JWT")]

def base64UrlJson (members : List (String × Json.Doc)) : String :=
  Base64.encode (utf8 (Json.Doc.object members).stringify)

/-- `base64Url` of the HMAC -/
def signature (secret message : String) : String := Base64.encode (Sha256.hmac (utf8 secret) (utf8 message))

def sessionPayload (user : User) (now exp : Int) : Payload :=
  let isEmail := user.phoneOrEmail.toList.contains '@'
  { sub := user.id
    email := if isEmail then some user.phoneOrEmail else none
    phone := if isEmail then none else some user.phoneOrEmail
    iat := now
    exp := exp
    role := user.role }

/-- the token, and when it expires -/
def createSessionToken (config : Config) (user : User) (nowMillis : Int) (expiresInSeconds : Int) :
    Except Error (String × String) := do
  let now := nowMillis / 1000
  let exp := now + expiresInSeconds
  let header := base64UrlJson headerMembers
  let payload := base64UrlJson (sessionPayload user now exp).members
  let secret ← jwtSecret config
  let message := header ++ "." ++ payload
  return (message ++ "." ++ signature secret message, Calendar.isoMillis (exp * 1000))

/-! ## reading a token -/

inductive TokenError where
  | notSigned
  /-- no JSON, or `null`, which has no members -/
  | malformed
  | algorithm
  | secretNotConfigured
  | invalidSignature
  | expired
  | notActiveYet
  | missingSubject
  | invalidTime
  | invalidUser
deriving DecidableEq

structure AuthContext where
  user : User
  tokenPayload : Json.Value

def ensure (holds : Bool) (otherwise : TokenError) : Except TokenError Unit :=
  if holds then .ok () else .error otherwise

def parseJwtPart (value : String) : Except TokenError Json.Value :=
  match Json.parse (Utf8.decode (Base64.decode value)) with
  | none => .error .malformed
  | some .null => .error .malformed
  | some v => .ok v

/-- `token.split(".")` -/
def tokenParts (token : String) : List String := (token.toList.splitOn '.').map String.ofList

def stringClaim : Option Json.Value → Option String
  | some (.string s) => if s = "" then none else some s
  | _ => none

def numberClaim : Option Json.Value → Option ℚ
  | some (.number q) => some q
  | _ => none

def assertTemporalClaims (payload : Json.Value) (now : Int) : Except TokenError Unit :=
  if ∃ exp ∈ numberClaim (payload.member "exp"), exp ≤ now then .error .expired
  else if ∃ nbf ∈ numberClaim (payload.member "nbf"), nbf > now then .error .notActiveYet
  else .ok ()

def roleFromMetadata (metadata : Option Json.Value) : Option String :=
  stringClaim (metadata.bind (Json.Value.member "role"))

def roleFromPayload (payload : Json.Value) : UserRole :=
  let role := (roleFromMetadata (payload.member "app_metadata")).getD
    ((roleFromMetadata (payload.member "user_metadata")).getD ((stringClaim (payload.member "role")).getD "public"))
  (UserRole.ofText role).getD .public

/-- the milliseconds that `Date` takes, and the greatest that it has -/
def timeClip (ms : ℚ) : Except TokenError Int :=
  let whole := ms.num.tdiv ms.den
  if whole.natAbs ≤ 8640000000000000 then .ok whole else .error .invalidTime

def userFromPayload (formats : Formats) (payload : Json.Value) (now : Int) : Except TokenError User :=
  match payload.member "sub" with
  | some (.string sub) => do
    let ms ← timeClip ((numberClaim (payload.member "iat")).getD now * 1000)
    let user : User :=
      { id := sub
        role := roleFromPayload payload
        phoneOrEmail := (stringClaim (payload.member "email")).getD
          ((stringClaim (payload.member "phone")).getD sub)
        createdAt := Calendar.isoMillis ms }
    if formats.User user then return user else throw .invalidUser
  | _ => .error .missingSubject

/-- `safeEqual`, of the bytes -/
def safeEqual (left right : String) : Bool := utf8 left = utf8 right

/-- the algorithm that the header names -/
def isHS256 (header : Json.Value) : Bool := (header.member "alg").any fun
  | .string alg => alg = "HS256"
  | _ => false

def verifyBearerToken (formats : Formats) (config : Config) (token : String) (nowMillis : Int) :
    Except TokenError AuthContext :=
  match tokenParts token with
  | encodedHeader :: encodedPayload :: signed :: _ =>
    if encodedHeader = "" ∨ encodedPayload = "" ∨ signed = "" then .error .notSigned
    else do
      let header ← parseJwtPart encodedHeader
      ensure (isHS256 header) .algorithm
      let secret ← (jwtSecret config).mapError fun _ => .secretNotConfigured
      ensure (safeEqual signed (signature secret (encodedHeader ++ "." ++ encodedPayload))) .invalidSignature
      let payload ← parseJwtPart encodedPayload
      assertTemporalClaims payload (nowMillis / 1000)
      let user ← userFromPayload formats payload (nowMillis / 1000)
      return ⟨user, payload⟩
  | _ => .error .notSigned

/-! ## what is read of a token -/

theorem parseJwtPart_base64UrlJson (members : List (String × Json.Doc)) :
    parseJwtPart (base64UrlJson members) = .ok (Json.Doc.object members).value := by
  unfold parseJwtPart base64UrlJson
  rw [Base64.decode_encode, Utf8.decode_utf8, Json.parse_stringify]
  rfl

theorem isHS256_header : isHS256 (Json.Doc.object headerMembers).value = true := by decide +kernel

theorem safeEqual_iff {left right : String} : safeEqual left right = true ↔ left = right := by
  unfold safeEqual
  rw [decide_eq_true_iff]
  exact ⟨Utf8.utf8_inj, congrArg utf8⟩

theorem ofText_text (role : UserRole) : UserRole.ofText role.text = some role := by
  cases role <;> decide +kernel

/-- the payload as it is read -/
abbrev readPayload (user : User) (now exp : Int) : Json.Value :=
  (Json.Doc.object (sessionPayload user now exp).members).value

section
variable (user : User) (now exp : Int)

theorem readPayload_eq : readPayload user now exp =
    .object [("sub", .string user.id),
      (if user.phoneOrEmail.toList.contains '@' then "email" else "phone", .string user.phoneOrEmail),
      ("iat", .number now), ("exp", .number exp), ("app_metadata", .object [("role", .string user.role.text)])] := by
  unfold readPayload sessionPayload
  dsimp only
  cases user.phoneOrEmail.toList.contains '@' with
  | true => rfl
  | false => rfl

theorem payload_sub : (readPayload user now exp).member "sub" = some (.string user.id) := by
  rw [readPayload_eq]
  cases user.phoneOrEmail.toList.contains '@' with
  | true => rfl
  | false => rfl

theorem payload_iat : numberClaim ((readPayload user now exp).member "iat") = some (now : ℚ) := by
  rw [readPayload_eq]
  cases user.phoneOrEmail.toList.contains '@' with
  | true => rfl
  | false => rfl

theorem payload_exp : numberClaim ((readPayload user now exp).member "exp") = some (exp : ℚ) := by
  rw [readPayload_eq]
  cases user.phoneOrEmail.toList.contains '@' with
  | true => rfl
  | false => rfl

theorem payload_nbf : numberClaim ((readPayload user now exp).member "nbf") = none := by
  rw [readPayload_eq]
  cases user.phoneOrEmail.toList.contains '@' with
  | true => rfl
  | false => rfl

/-- the identity is the claim that the text has the sign of, or lacks it -/
theorem payload_identity (h : user.phoneOrEmail ≠ "") :
    (stringClaim ((readPayload user now exp).member "email")).getD
      ((stringClaim ((readPayload user now exp).member "phone")).getD user.id) = user.phoneOrEmail := by
  have hclaim : stringClaim (some (.string user.phoneOrEmail)) = some user.phoneOrEmail := if_neg h
  rw [readPayload_eq]
  cases user.phoneOrEmail.toList.contains '@' with
  | true =>
    show (stringClaim (some (.string user.phoneOrEmail))).getD _ = _
    rw [hclaim]
    rfl
  | false =>
    show (stringClaim (some (.string user.phoneOrEmail))).getD _ = _
    rw [hclaim]
    rfl

theorem payload_role : roleFromPayload (readPayload user now exp) = user.role := by
  have hne : user.role.text ≠ "" := by cases user.role <;> decide
  have hclaim : stringClaim (some (.string user.role.text)) = some user.role.text := if_neg hne
  have hmeta : roleFromMetadata ((readPayload user now exp).member "app_metadata") = some user.role.text := by
    rw [readPayload_eq]
    cases user.phoneOrEmail.toList.contains '@' with
    | true => exact hclaim
    | false => exact hclaim
  unfold roleFromPayload
  rw [hmeta]
  show (UserRole.ofText user.role.text).getD .public = _
  rw [ofText_text]
  rfl

theorem timeClip_integer {ms : Int} (h : ms.natAbs ≤ 8640000000000000) : timeClip (ms : ℚ) = .ok ms := by
  have hwhole : (ms : ℚ).num.tdiv (ms : ℚ).den = ms := Int.tdiv_one ms
  unfold timeClip
  dsimp only
  rw [hwhole]
  exact if_pos h

end

/-- what `Formats` documents of a time -/
def Dated (ms : Int) : Prop := 0 ≤ ms ∧ ms < 253402300800000

theorem userFromPayload_read (formats : Formats) {user : User} {now : Int} (exp now' : Int)
    (hid : formats.uuid user.id = true) (hlength : 3 ≤ JsText.utf16Length user.phoneOrEmail)
    (hnow : Dated (now * 1000)) : userFromPayload formats (readPayload user now exp) now' =
      .ok { user with createdAt := Calendar.isoMillis (now * 1000) } := by
  obtain ⟨hnow, hnow'⟩ := hnow
  have hne : user.phoneOrEmail ≠ "" := by
    rintro he
    rw [he] at hlength
    exact absurd hlength (by decide)
  have hms : timeClip ((numberClaim ((readPayload user now exp).member "iat")).getD now' * 1000) =
      .ok (now * 1000) := by
    rw [payload_iat, Option.getD_some]
    have hcast : (now : ℚ) * 1000 = ((now * 1000 : ℤ) : ℚ) := by norm_num
    rw [hcast, timeClip_integer (by omega)]
  unfold userFromPayload
  rw [payload_sub]
  dsimp only
  rw [hms]
  show (if _ then _ else _) = _
  rw [payload_role, payload_identity user now exp hne]
  exact if_pos ⟨hid, hlength, formats.datetime_iso _ hnow hnow'⟩

/-! ## a token that was made -/

/-- header and payload of a token, with the point between them -/
def signedText (payload : Payload) : String :=
  base64UrlJson headerMembers ++ "." ++ base64UrlJson payload.members

def Session.token (session : Session) : String :=
  signedText session.payload ++ "." ++ signature session.secret (signedText session.payload)

theorem base64UrlJson_char {members : List (String × Json.Doc)} {c : Char}
    (h : c ∈ (base64UrlJson members).toList) : c ≠ '.' := (Base64.encode_char h).2

theorem base64UrlJson_ne (members : List (String × Json.Doc)) : base64UrlJson members ≠ "" := by
  refine Base64.encode_ne fun h => ?_
  have hempty := congrArg Utf8.decode h
  rw [Utf8.decode_utf8] at hempty
  have hlist := congrArg String.toList hempty
  unfold Json.Doc.stringify at hlist
  rw [String.toList_ofList] at hlist
  cases hlist

theorem signature_ne (secret message : String) : signature secret message ≠ "" := by
  refine Base64.encode_ne fun h => ?_
  have hlength : (Sha256.hmac (utf8 secret) (utf8 message)).length = 32 := Sha256.digest_length _
  rw [h] at hlength
  cases hlength

theorem tokenParts_join {header payload signed : String} (hheader : '.' ∉ header.toList)
    (hpayload : '.' ∉ payload.toList) (hsigned : '.' ∉ signed.toList) :
    tokenParts (header ++ "." ++ payload ++ "." ++ signed) = [header, payload, signed] := by
  have hlist : (header ++ "." ++ payload ++ "." ++ signed).toList =
      header.toList ++ '.' :: (payload.toList ++ '.' :: signed.toList) := by
    simp only [String.toList_append, List.append_assoc]
    rfl
  unfold tokenParts
  rw [hlist, List.splitOn_append_cons_self_of_not_mem hheader, List.splitOn_append_cons_self_of_not_mem hpayload,
    List.splitOn_eq_singleton hsigned]
  simp only [List.map_cons, String.ofList_toList, List.map_nil]

theorem Session.parts (session : Session) : tokenParts session.token = [base64UrlJson headerMembers,
    base64UrlJson session.payload.members, signature session.secret (signedText session.payload)] :=
  tokenParts_join (fun h => base64UrlJson_char h rfl) (fun h => base64UrlJson_char h rfl)
    (fun h => (Base64.encode_char h).2 rfl)

theorem createSessionToken_eq {config : Config} {secret : String} (hsecret : jwtSecret config = .ok secret)
    (user : User) (nowMillis seconds : Int) : createSessionToken config user nowMillis seconds =
      .ok (Session.token ⟨user, sessionPayload user (nowMillis / 1000) (nowMillis / 1000 + seconds), secret⟩,
        Calendar.isoMillis ((nowMillis / 1000 + seconds) * 1000)) := by
  unfold createSessionToken
  rw [hsecret]
  rfl

/-- **Until it expires, a token is read as the user that it was made for.** -/
theorem verify_token (formats : Formats) {config : Config} {session : Session} {now exp now' : Int}
    (hsecret : jwtSecret config = .ok session.secret)
    (hpayload : session.payload = sessionPayload session.user now exp)
    (hid : formats.uuid session.user.id = true) (hlength : 3 ≤ JsText.utf16Length session.user.phoneOrEmail)
    (hnow : Dated (now * 1000)) (hbefore : now' / 1000 < exp) :
    verifyBearerToken formats config session.token now' =
      .ok ⟨{ session.user with createdAt := Calendar.isoMillis (now * 1000) },
        readPayload session.user now exp⟩ := by
  have hclaims : assertTemporalClaims (readPayload session.user now exp) (now' / 1000) = .ok () := by
    unfold assertTemporalClaims
    rw [payload_exp, payload_nbf, if_neg, if_neg]
    · rintro ⟨nbf, hnbf, -⟩
      cases hnbf
    · rintro ⟨q, hq, hle⟩
      cases hq
      have hle : exp ≤ now' / 1000 := by exact_mod_cast hle
      omega
  unfold verifyBearerToken
  rw [Session.parts]
  dsimp only
  rw [if_neg (by simp only [base64UrlJson_ne, signature_ne, or_self, not_false_eq_true])]
  refine Except.bind_eq_ok.mpr ⟨_, parseJwtPart_base64UrlJson headerMembers, ?_⟩
  refine Except.bind_eq_ok.mpr ⟨(), if_pos isHS256_header, ?_⟩
  refine Except.bind_eq_ok.mpr ⟨session.secret, by rw [hsecret]; rfl, ?_⟩
  refine Except.bind_eq_ok.mpr ⟨(), if_pos (safeEqual_iff.mpr rfl), ?_⟩
  refine Except.bind_eq_ok.mpr ⟨_, parseJwtPart_base64UrlJson session.payload.members, ?_⟩
  rw [hpayload]
  refine Except.bind_eq_ok.mpr ⟨(), hclaims, ?_⟩
  refine Except.bind_eq_ok.mpr ⟨_, userFromPayload_read formats exp _ hid hlength hnow, ?_⟩
  rfl

/-- who presents a token that is accepted has the HMAC of its header and payload -/
theorem verify_signed {formats : Formats} {config : Config} {token : String} {now : Int} {auth : AuthContext}
    (h : verifyBearerToken formats config token now = .ok auth) : ∃ header payload rest secret,
      jwtSecret config = .ok secret ∧
        tokenParts token = header :: payload :: signature secret (header ++ "." ++ payload) :: rest := by
  unfold verifyBearerToken at h
  split at h
  · rename_i header payload signed rest hparts
    split at h
    · cases h
    · obtain ⟨_, -, h⟩ := Except.bind_eq_ok.mp h
      obtain ⟨_, -, h⟩ := Except.bind_eq_ok.mp h
      obtain ⟨secret, hsecret, h⟩ := Except.bind_eq_ok.mp h
      obtain ⟨_, hsigned, -⟩ := Except.bind_eq_ok.mp h
      have hconfigured : jwtSecret config = .ok secret := by
        cases hs : jwtSecret config with
        | error e =>
          rw [hs] at hsecret
          cases hsecret
        | ok s =>
          rw [hs] at hsecret
          exact congrArg Except.ok (Except.ok.inj hsecret)
      have hequal : signed = signature secret (header ++ "." ++ payload) := by
        unfold ensure at hsigned
        split at hsigned
        · rename_i heq
          exact safeEqual_iff.mp heq
        · cases hsigned
      exact ⟨header, payload, rest, secret, hconfigured, hequal ▸ hparts⟩
  · cases h

/-! ## who has no secret -/

/-- of the tags that somebody makes, who has seen those of the messages `seen`, the right ones are of these
messages -/
def Unforgeable {α β : Type*} (mac : α → β) (seen : α → Prop) (makes : α → β → Prop) : Prop :=
  ∀ m tag, makes m tag → tag = mac m → seen m

structure TokenText where
  header : String
  payload : String
  signed : String

def tokenText (token : String) : Option TokenText :=
  match tokenParts token with
  | header :: payload :: signed :: _ => some ⟨header, payload, signed⟩
  | _ => none

def TokenText.message (t : TokenText) : List Sha256.Byte := utf8 (t.header ++ "." ++ t.payload)

theorem not_mem_of_mem_splitOn {α : Type*} [DecidableEq α] {s : α} {xs part : List α} (h : part ∈ xs.splitOn s) :
    s ∉ part := by
  induction xs generalizing part with
  | nil =>
    obtain rfl := List.mem_singleton.mp h
    exact List.not_mem_nil
  | cons x xs ih =>
    rw [List.splitOn_cons_eq_if_modifyHead] at h
    split at h
    · rcases List.mem_cons.mp h with rfl | h
      · exact List.not_mem_nil
      · exact ih h
    · rename_i hx
      obtain ⟨first, rest, hsplit⟩ := List.exists_cons_of_ne_nil (List.splitOn_ne_nil s xs)
      rw [hsplit, List.modifyHead_cons] at h
      have hne : s ≠ x := fun he => hx (beq_iff_eq.mpr he.symm)
      rcases List.mem_cons.mp h with rfl | h
      · exact List.not_mem_cons_of_ne_of_not_mem hne (ih (hsplit ▸ List.mem_cons_self))
      · exact ih (hsplit ▸ List.mem_cons_of_mem first h)

theorem tokenText_header {token : String} {t : TokenText} (h : tokenText token = some t) : '.' ∉ t.header.toList := by
  unfold tokenText at h
  split at h
  · rename_i header payload signed rest hparts
    cases h
    have hmem : header ∈ tokenParts token := hparts ▸ List.mem_cons_self
    obtain ⟨part, hpart, rfl⟩ := List.mem_map.mp hmem
    rw [String.toList_ofList]
    exact not_mem_of_mem_splitOn hpart
  · cases h

theorem tokenText_message {token token' : String} {t t' : TokenText} (h : tokenText token = some t)
    (h' : tokenText token' = some t') (he : t.message = t'.message) :
    t.header = t'.header ∧ t.payload = t'.payload := by
  have hlist := congrArg String.toList (Utf8.utf8_inj he)
  simp only [String.toList_append, List.append_assoc] at hlist
  obtain ⟨hheader, hpayload⟩ := Cut.cut_first (tokenText_header h) (tokenText_header h') hlist
  exact ⟨String.toList_inj.mp hheader.symm, String.toList_inj.mp hpayload⟩

/-- **A token that somebody without the secret makes is accepted only if its header and payload were seen.** -/
theorem verify_seen {formats : Formats} {config : Config} {secret token : String} {t : TokenText} {now : Int}
    {auth : AuthContext} {seen : List Sha256.Byte → Prop} {makes : List Sha256.Byte → List Sha256.Byte → Prop}
    (hsecret : jwtSecret config = .ok secret) (h : Unforgeable (Sha256.hmac (utf8 secret)) seen makes)
    (ht : tokenText token = some t) (hmade : makes t.message (Base64.decode t.signed))
    (hverify : verifyBearerToken formats config token now = .ok auth) : seen t.message := by
  obtain ⟨header, payload, rest, secret', hsecret', hparts⟩ := verify_signed hverify
  rw [hsecret] at hsecret'
  cases hsecret'
  unfold tokenText at ht
  rw [hparts] at ht
  cases ht
  exact h _ _ hmade (Base64.decode_encode _)

end Auth
