import Mathlib.Tactic.IntervalCases
import GridProof.Ingestion.Silencing

/-!
# What becomes of a bad signature

The guard of `isValidTelemetrySignature` compares the lengths of two texts; `timingSafeEqual` compares the buffers
that they decode to, and throws if those have different lengths.

* `bufferFromHex_length`    a text is decoded in full iff it is made of hex digits;
* `hexOf_bufferFromHex`     lower-case digits are found again from their buffer;
* `isValid_iff`, `isValid_eq_none_iff`   what is returned, and where nothing is;
* `answered_iff`            a signature is answered unless it has 64 units that are not all hex digits.
-/

namespace Ingestion
open RateLimit (HttpError)

/-! ## hex digits -/

/-- the two digits of each byte -/
def hexOf (bytes : List ℕ) : List Char := bytes.flatMap fun b => [Sha256.hexDigit (b / 16), Sha256.hexDigit (b % 16)]

/-- `nibble` and `isHexDigit` on an ASCII character -/
theorem nibble_ascii : ∀ k : Fin 128, (nibble (Char.ofNat k)).isSome = isHexDigit (Char.ofNat k) ∧
    ∀ n ∈ nibble (Char.ofNat k), (Char.ofNat k).isUpper = false → n < 16 ∧ Sha256.hexDigit n = Char.ofNat k := by
  decide +kernel

theorem ascii_of_nibble {c : Char} (h : (nibble c).isSome = true) : c.toNat < 128 := by
  have hrange (a b : Char) : (a ≤ c ∧ c ≤ b) = (a.toNat ≤ c.toNat ∧ c.toNat ≤ b.toNat) := rfl
  have hletters : 'f'.toNat = 102 ∧ 'F'.toNat = 70 := ⟨rfl, rfl⟩
  unfold nibble at h
  simp only [hrange] at h
  split at h
  · rename_i hdigit
    unfold Char.isDigit at hdigit
    rw [Bool.and_eq_true, decide_eq_true_eq, decide_eq_true_eq, UInt32.le_iff_toNat_le] at hdigit
    have hhigh : c.toNat ≤ 57 := hdigit.2
    omega
  · split at h
    · omega
    · split at h
      · omega
      · cases h

theorem ascii_of_isHexDigit {c : Char} (h : isHexDigit c = true) : c.toNat < 128 := by
  have hall : (hexDigits.all fun c => c.toNat < 128) = true := by decide
  exact of_decide_eq_true (List.all_eq_true.mp hall c (List.contains_iff_mem.mp h))

theorem nibble_isSome (c : Char) : (nibble c).isSome = isHexDigit c := by
  by_cases h : c.toNat < 128
  · have hc := (nibble_ascii ⟨c.toNat, h⟩).1
    rwa [Char.ofNat_toNat] at hc
  · have hnone : (nibble c).isSome = false := Bool.eq_false_iff.mpr fun hsome => h (ascii_of_nibble hsome)
    have hother : isHexDigit c = false := Bool.eq_false_iff.mpr fun hhex => h (ascii_of_isHexDigit hhex)
    rw [hnone, hother]

/-- a digit that is no capital is the one of its value -/
theorem nibble_lower {c : Char} {n : ℕ} (h : nibble c = some n) (hc : c.isUpper = false) :
    n < 16 ∧ Sha256.hexDigit n = c := by
  have hascii : c.toNat < 128 := ascii_of_nibble (by rw [h]; rfl)
  have hdigit := (nibble_ascii ⟨c.toNat, hascii⟩).2 n
  rw [Char.ofNat_toNat] at hdigit
  exact hdigit h hc

/-! ## decoding -/

theorem exists_pair_cons {α : Type*} {n : ℕ} {l : List α} (h : l.length = 2 * (n + 1)) :
    ∃ a b rest, l = a :: b :: rest ∧ rest.length = 2 * n := by
  cases l with
  | nil => cases h
  | cons a l =>
    cases l with
    | nil =>
      rw [List.length_singleton] at h
      omega
    | cons b rest =>
      simp only [List.length_cons] at h
      exact ⟨a, b, rest, rfl, by omega⟩

/-- a text of `2 * n` characters decodes to `n` bytes iff they are hex digits -/
theorem bufferFromHex_length {n : ℕ} {text : List Char} (h : text.length = 2 * n) :
    (bufferFromHex text).length = n ↔ ∀ c ∈ text, isHexDigit c = true := by
  induction n generalizing text with
  | zero =>
    obtain rfl := List.length_eq_zero_iff.mp h
    simp [bufferFromHex]
  | succ n ih =>
    obtain ⟨high, low, rest, rfl, hrest⟩ := exists_pair_cons h
    rw [List.forall_mem_cons, List.forall_mem_cons, ← nibble_isSome, ← nibble_isSome, ← ih hrest]
    by_cases hpair : (nibble high).isSome ∧ (nibble low).isSome
    · obtain ⟨a, ha⟩ := Option.isSome_iff_exists.mp hpair.1
      obtain ⟨b, hb⟩ := Option.isSome_iff_exists.mp hpair.2
      rw [bufferFromHex_cons ha hb, List.length_cons, ha, hb]
      simp
    · rw [bufferFromHex_stop hpair]
      simp only [List.length_nil]
      constructor
      · intro hzero
        omega
      · rintro ⟨hhigh, hlow, -⟩
        exact absurd ⟨hhigh, hlow⟩ hpair

/-- lower-case digits are found again from their buffer -/
theorem hexOf_bufferFromHex {n : ℕ} {text : List Char} (h : text.length = 2 * n)
    (hlower : ∀ c ∈ text, isHexDigit c = true ∧ c.isUpper = false) : hexOf (bufferFromHex text) = text := by
  induction n generalizing text with
  | zero =>
    obtain rfl := List.length_eq_zero_iff.mp h
    rfl
  | succ n ih =>
    obtain ⟨high, low, rest, rfl, hlength⟩ := exists_pair_cons h
    obtain ⟨hhigh, hlow, hrest⟩ : _ ∧ _ ∧ _ := by
      rw [List.forall_mem_cons, List.forall_mem_cons] at hlower
      exact hlower
    obtain ⟨a, ha⟩ := Option.isSome_iff_exists.mp ((nibble_isSome high).trans hhigh.1)
    obtain ⟨b, hb⟩ := Option.isSome_iff_exists.mp ((nibble_isSome low).trans hlow.1)
    obtain ⟨-, hdigitA⟩ := nibble_lower ha hhigh.2
    obtain ⟨hltB, hdigitB⟩ := nibble_lower hb hlow.2
    have htail := ih hlength hrest
    rw [bufferFromHex_cons ha hb]
    unfold hexOf at *
    rw [List.flatMap_cons, htail, show (16 * a + b) / 16 = a by omega, show (16 * a + b) % 16 = b by omega,
      hdigitA, hdigitB]
    rfl

/-! ## the comparison -/

/-- `toLowerCase` leaves no ASCII capital -/
def LeavesNoCapital [JsText.Runtime] : Prop := ∀ s : String, ∀ c ∈ (JsText.toLowerCase s).toList, c.isUpper = false

theorem hmacHex_digits (secret text : String) :
    ∀ c ∈ (hmacHex secret text).toList, isHexDigit c = true ∧ c.isUpper = false := by
  have hdigits : ∀ n : Fin 16, isHexDigit (Sha256.hexDigit n.val) = true ∧
      (Sha256.hexDigit n.val).isUpper = false := by decide
  intro c hc
  obtain ⟨n, rfl⟩ := hmacHex_chars hc
  exact hdigits n

theorem hmacHex_toList_length (secret text : String) : (hmacHex secret text).toList.length = 2 * 32 :=
  hmacHex_length secret text

theorem digest_decoded (secret text : String) : (bufferFromHex (hmacHex secret text).toList).length = 32 :=
  (bufferFromHex_length (hmacHex_toList_length secret text)).mpr fun c hc => (hmacHex_digits secret text c hc).1

/-- a text of 64 units has the length of a digest in bytes iff it is made of hex digits -/
theorem decoded_length {s : String} (h : JsText.utf16Length s = 64) :
    (bufferFromHex s.toList).length = 32 ↔ ∀ c ∈ s.toList, isHexDigit c = true := by
  have hle := JsText.length_le_utf16Length s
  constructor
  · intro hdecoded
    have hbytes := bufferFromHex_length_le s.toList
    rw [String.length_toList] at hbytes
    have hlength : s.toList.length = 2 * 32 := by
      rw [String.length_toList]
      omega
    exact (bufferFromHex_length hlength).mp hdecoded
  · intro hdigits
    have hunits : JsText.utf16Length s = s.length :=
      JsText.utf16Length_eq_length fun c hc => (ascii_of_isHexDigit (hdigits c hc)).trans (by decide)
    have hlength : s.toList.length = 2 * 32 := by
      rw [String.length_toList]
      omega
    exact (bufferFromHex_length hlength).mpr hdigits

section
variable [JsText.Runtime] (b : TelemetryBody) (secret : String)

/-- behind the guard -/
theorem isValid_compared (h : JsText.utf16Length (JsText.toLowerCase b.signature) = 64) :
    isValidTelemetrySignature b secret = timingSafeEqual (bufferFromHex (JsText.toLowerCase b.signature).toList)
      (bufferFromHex (hmacHex secret (signedPayload b)).toList) := by
  refine if_neg (not_not_intro ?_)
  rw [hmacHex_utf16Length]
  exact h

/-- the comparison throws for 64 units that are not all hex digits -/
theorem isValid_eq_none_iff : isValidTelemetrySignature b secret = none ↔
    JsText.utf16Length (JsText.toLowerCase b.signature) = 64 ∧
      ¬ ∀ c ∈ (JsText.toLowerCase b.signature).toList, isHexDigit c = true := by
  by_cases hunits : JsText.utf16Length (JsText.toLowerCase b.signature) = 64
  · rw [← decoded_length hunits, and_iff_right hunits]
    rw [isValid_compared b secret hunits]
    unfold timingSafeEqual
    rw [digest_decoded]
    split
    · rename_i hlength
      exact ⟨nofun, fun h => absurd hlength h⟩
    · rename_i hlength
      exact ⟨fun _ => hlength, fun _ => rfl⟩
  · rw [isValid_length hunits]
    exact ⟨nofun, fun h => absurd h.1 hunits⟩

variable {b secret}

/-- a signature is valid iff it is the digest, in any letter case -/
theorem isValid_iff (hlower : LeavesNoCapital) : isValidTelemetrySignature b secret = some true ↔
    JsText.toLowerCase b.signature = hmacHex secret (signedPayload b) := by
  refine ⟨fun hvalid => ?_, isValid_own⟩
  have hunits : JsText.utf16Length (JsText.toLowerCase b.signature) = 64 := by
    by_contra hunits
    rw [isValid_length hunits] at hvalid
    cases hvalid
  have hdigits : ∀ c ∈ (JsText.toLowerCase b.signature).toList, isHexDigit c = true := by
    by_contra hdigits
    rw [(isValid_eq_none_iff b secret).mpr ⟨hunits, hdigits⟩] at hvalid
    cases hvalid
  have hbuffers : bufferFromHex (JsText.toLowerCase b.signature).toList =
      bufferFromHex (hmacHex secret (signedPayload b)).toList := by
    rw [isValid_compared b secret hunits] at hvalid
    unfold timingSafeEqual at hvalid
    rw [digest_decoded, if_pos ((decoded_length hunits).mpr hdigits)] at hvalid
    exact of_decide_eq_true (Option.some.inj hvalid)
  have hlength : (JsText.toLowerCase b.signature).toList.length = 2 * 32 := by
    have hle := bufferFromHex_length_le (JsText.toLowerCase b.signature).toList
    have hupper := JsText.length_le_utf16Length (JsText.toLowerCase b.signature)
    rw [(decoded_length hunits).mpr hdigits] at hle
    rw [String.length_toList] at *
    omega
  apply String.toList_inj.mp
  rw [← hexOf_bufferFromHex hlength fun c hc => ⟨hdigits c hc, hlower _ c hc⟩, hbuffers]
  exact hexOf_bufferFromHex (hmacHex_toList_length _ _) (hmacHex_digits _ _)

end

/-! ## the handler and the store -/

section
variable {σ : Type*} [JsText.Runtime]

/-- the handler, with what `upsertTelemetryEvidence` does to the store -/
def TelemetryEnv.serve (env : TelemetryEnv) (upsertTelemetryEvidence : σ → TelemetryBody → σ) (store : σ)
    (input : TelemetryBody) : σ × Response :=
  match env.handle input with
  | .accepted input => (upsertTelemetryEvidence store input, .accepted input)
  | response => (store, response)

/-- a genuine signature is stored, any other one answered with 401 and nothing stored -/
structure Answered (env : TelemetryEnv) (secret : String) (upsert : σ → TelemetryBody → σ) (store : σ)
    (b : TelemetryBody) : Prop where
  returns : (isValidTelemetrySignature b secret).isSome
  genuine : JsText.toLowerCase b.signature = hmacHex secret (signedPayload b) →
    env.serve upsert store b = (upsert store b, .accepted b)
  bad : JsText.toLowerCase b.signature ≠ hmacHex secret (signedPayload b) →
    env.serve upsert store b = (store, .error ⟨401, "BAD_SIGNATURE", "Telemetry signature is invalid"⟩)

variable {env : TelemetryEnv} {secret : String}

theorem serve_some (hsecret : env.hmacSecret = some secret) (upsert : σ → TelemetryBody → σ) (store : σ)
    {b : TelemetryBody} {valid : Bool} (h : isValidTelemetrySignature b secret = some valid) :
    env.serve upsert store b = if valid then (upsert store b, .accepted b)
      else (store, .error ⟨401, "BAD_SIGNATURE", "Telemetry signature is invalid"⟩) := by
  unfold TelemetryEnv.serve TelemetryEnv.handle
  rw [hsecret]
  simp only [h]
  cases valid with
  | true => rfl
  | false => rfl

/-- **A signature is answered iff it is not 64 units long, or is made of hex digits.** -/
theorem answered_iff (hlower : LeavesNoCapital) (hsecret : env.hmacSecret = some secret)
    (upsert : σ → TelemetryBody → σ) (store : σ) (b : TelemetryBody) : Answered env secret upsert store b ↔
      (JsText.utf16Length (JsText.toLowerCase b.signature) = 64 →
        ∀ c ∈ (JsText.toLowerCase b.signature).toList, isHexDigit c = true) := by
  constructor
  · intro h hunits
    by_contra hdigits
    have hreturns := h.returns
    rw [(isValid_eq_none_iff b secret).mpr ⟨hunits, hdigits⟩] at hreturns
    cases hreturns
  · intro hguard
    have hreturns : isValidTelemetrySignature b secret ≠ none := by
      intro hnone
      obtain ⟨hunits, hdigits⟩ := (isValid_eq_none_iff b secret).mp hnone
      exact hdigits (hguard hunits)
    obtain ⟨valid, hvalid⟩ := Option.ne_none_iff_exists'.mp hreturns
    have hiff : isValidTelemetrySignature b secret = some true ↔ _ := isValid_iff hlower
    rw [hvalid, Option.some.injEq] at hiff
    refine ⟨by rw [hvalid]; rfl, fun hgenuine => ?_, fun hbad => ?_⟩
    · rw [serve_some hsecret upsert store hvalid, if_pos (hiff.mpr hgenuine)]
    · rw [serve_some hsecret upsert store hvalid, if_neg fun htrue => hbad (hiff.mp htrue)]

end

/-- a capital moves behind all of them -/
theorem toLower_isUpper (c : Char) : c.toLower.isUpper = false := by
  unfold Char.toLower Char.isUpper
  split
  · rename_i h
    have hcapital : 65 ≤ c.val.toNat ∧ c.val.toNat ≤ 90 :=
      ⟨UInt32.le_iff_toNat_le.mp h.1, UInt32.le_iff_toNat_le.mp h.2⟩
    have hmoved : (c.val + ('a'.val - 'A'.val)).toNat = c.val.toNat + 32 := by
      rw [UInt32.toNat_add]
      show (c.val.toNat + 32) % 2 ^ 32 = _
      omega
    refine decide_eq_false fun hupper => ?_
    have hle : (c.val + ('a'.val - 'A'.val)).toNat ≤ 90 := UInt32.le_iff_toNat_le.mp hupper.2
    omega
  · rename_i h
    exact decide_eq_false h

theorem ascii_leavesNoCapital : letI := JsText.asciiRuntime
    LeavesNoCapital := by
  intro s c hc
  have hmap : (JsText.asciiLower s).toList = s.toList.map Char.toLower := String.toList_ofList
  obtain ⟨d, -, rfl⟩ := List.mem_map.mp (hmap ▸ hc)
  exact toLower_isUpper d

theorem answered_iff_signed : letI := JsText.asciiRuntime
    Answered sampleTelemetryEnv "test-secret" (fun store b => b :: store) [] signedBody ↔
      (JsText.utf16Length (JsText.toLowerCase signedBody.signature) = 64 →
        ∀ c ∈ (JsText.toLowerCase signedBody.signature).toList, isHexDigit c = true) := by
  let _ := JsText.asciiRuntime
  exact answered_iff ascii_leavesNoCapital rfl _ [] signedBody

/-- a reading with 64 characters that are no digits in place of a signature -/
def garbledBody : TelemetryBody := readingBody "m-1" (String.ofList (List.replicate 64 'z'))

theorem garbled_unanswered : letI := JsText.asciiRuntime
    Accepted sampleZod garbledBody ∧
      ¬ Answered sampleTelemetryEnv "test-secret" (fun store b => b :: store) [] garbledBody := by
  let _ := JsText.asciiRuntime
  refine ⟨by decide +kernel, fun h => ?_⟩
  have hreturns := h.returns
  have hnone : isValidTelemetrySignature garbledBody "test-secret" = none :=
    (isValid_eq_none_iff _ _).mpr ⟨by decide +kernel, fun hdigits => absurd (hdigits 'z' (by decide +kernel)) nofun⟩
  rw [hnone] at hreturns
  cases hreturns

end Ingestion
