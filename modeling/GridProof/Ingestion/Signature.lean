import GridProof.Lib.Cut
import GridProof.Lib.JsText
import GridProof.Lib.NumberText
import GridProof.Ingestion.Evidence

/-!
# What a telemetry signature binds

The string that `isValidTelemetrySignature` authenticates is the fields of the body, joined with dots.  The
numbers at its end and the free texts before them may hold dots too.

* `status_cut`, `observedAt_cut`   the status and the time are found from the right in one way only;
* `zone_cut`    the four fields before them are found in one way unless a wallet and a zone hide in the
                device or in the key;
* `binds_iff`   a body shares its signed string with no other reading iff its numbers are unmistakable and
                nothing hides in its device or its key.

The wallet of an accepted body is ASCII, so its lower case is that of ASCII.
-/

namespace Ingestion
open NumberText (Number)

/-! ## bodies -/

structure TelemetryBody where
  deviceId : String
  providerWallet : String
  zoneId : String
  idempotencyKey : String
  observedAt : String
  status : EvidenceStatus
  voltage : Option Number
  currentAmps : Option Number
  signature : String

/-- `walletAddressSchema` -/
def isWalletAddress (s : String) : Bool :=
  s.toList.take 2 = ['0', 'x'] && (s.toList.drop 2).all isHexDigit && s.toList.length = 42

/-- `telemetryIngestRequestSchema` -/
def Accepted (zod : Zod) (b : TelemetryBody) : Prop :=
  3 ≤ JsText.utf16Length b.deviceId ∧ isWalletAddress b.providerWallet = true ∧
    zod.uuid b.zoneId = true ∧ 12 ≤ JsText.utf16Length b.idempotencyKey ∧
    zod.datetime b.observedAt = true ∧ 32 ≤ JsText.utf16Length b.signature

instance (zod : Zod) (b : TelemetryBody) : Decidable (Accepted zod b) :=
  inferInstanceAs (Decidable (_ ∧ _ ∧ _ ∧ _ ∧ _ ∧ _))

/-! ## the signed string -/

/-- `fields`; an absent voltage contributes the empty text, an absent current no field -/
def signedFields (b : TelemetryBody) : List (List Char) :=
  [b.deviceId.toList, (JsText.asciiLower b.providerWallet).toList, b.zoneId.toList,
    b.idempotencyKey.toList, b.observedAt.toList, b.status.text.toList,
    (b.voltage.map Number.text).getD []] ++ (b.currentAmps.map Number.text).toList

/-- `fields.join(".")` -/
def signedPayload (b : TelemetryBody) : String := String.ofList (['.'].intercalate (signedFields b))

/-- what stands behind the status -/
def numbers : Option Number → Option Number → List Char
  | voltage, none => (voltage.map Number.text).getD []
  | voltage, some current => (voltage.map Number.text).getD [] ++ '.' :: current.text

theorem signedPayload_toList (b : TelemetryBody) : (signedPayload b).toList =
    b.deviceId.toList ++ '.' :: ((JsText.asciiLower b.providerWallet).toList ++ '.' ::
      (b.zoneId.toList ++ '.' :: (b.idempotencyKey.toList ++ '.' :: (b.observedAt.toList ++ '.' ::
        (b.status.text.toList ++ '.' :: numbers b.voltage b.currentAmps))))) := by
  unfold signedPayload signedFields numbers
  rw [String.toList_ofList]
  cases b.currentAmps with
  | none => simp [List.intercalate, List.intersperse]
  | some current => simp [List.intercalate, List.intersperse]

/-- the signed string cut where the time and the status begin -/
theorem signedPayload_parts (b : TelemetryBody) : (signedPayload b).toList =
    ((b.deviceId.toList ++ '.' :: ((JsText.asciiLower b.providerWallet).toList ++ '.' ::
      (b.zoneId.toList ++ '.' :: b.idempotencyKey.toList))) ++ '.' :: b.observedAt.toList) ++ '.' ::
        (b.status.text.toList ++ '.' :: numbers b.voltage b.currentAmps) := by
  rw [signedPayload_toList]
  simp only [List.append_assoc, List.cons_append]

/-- the two bodies report the same reading; the wallets are compared without case -/
def Agree (b b' : TelemetryBody) : Prop :=
  b.deviceId = b'.deviceId ∧
    JsText.asciiLower b.providerWallet = JsText.asciiLower b'.providerWallet ∧
    b.zoneId = b'.zoneId ∧ b.idempotencyKey = b'.idempotencyKey ∧ b.observedAt = b'.observedAt ∧
    b.status = b'.status ∧ b.voltage = b'.voltage ∧ b.currentAmps = b'.currentAmps

/-! ## when a body is unmistakable -/

/-- the text is that of a number -/
def IsNumber (t : List Char) : Prop := ∃ a : Number, a.text = t

/-- a voltage on its own is not two numbers with a dot between; a voltage and a current are not one number,
and no two numbers that meet at another dot -/
def Unmistakable : Option Number → Option Number → Prop
  | none, _ => True
  | some voltage, none => ∀ v c, voltage.text = v ++ '.' :: c → ¬ (IsNumber v ∧ IsNumber c)
  | some voltage, some current => ¬ IsNumber (voltage.text ++ '.' :: current.text) ∧
      ∀ v c, voltage.text ++ '.' :: current.text = v ++ '.' :: c → v ≠ voltage.text →
        ¬ (IsNumber v ∧ IsNumber c)

/-- a wallet and a zone between dots, as the signed string has them -/
def marker (wallet zone : String) : List Char :=
  '.' :: ((JsText.asciiLower wallet).toList ++ '.' :: (zone.toList ++ ['.']))

/-- the device, with the dot behind it, holds a wallet and a zone behind a shorter device -/
def HiddenInDevice (zod : Zod) (b : TelemetryBody) : Prop :=
  ∃ device wallet zone rest, 3 ≤ JsText.utf16Length device ∧ isWalletAddress wallet = true ∧
    zod.uuid zone = true ∧ b.deviceId.toList ++ ['.'] = device.toList ++ (marker wallet zone ++ rest)

/-- the key, with the dot before it, holds a wallet and a zone before a shorter key -/
def HiddenInKey (zod : Zod) (b : TelemetryBody) : Prop :=
  ∃ before wallet zone key, isWalletAddress wallet = true ∧ zod.uuid zone = true ∧
    12 ≤ JsText.utf16Length key ∧ '.' :: b.idempotencyKey.toList = before ++ (marker wallet zone ++ key.toList)

/-! ## from the right -/

theorem numbers_chars {voltage current : Option Number} {c : Char} (h : c ∈ numbers voltage current) :
    c.isDigit = true ∨ c ∈ NumberText.marks := by
  have hopt : ∀ {v : Option Number}, c ∈ (v.map Number.text).getD [] →
      c.isDigit = true ∨ c ∈ NumberText.marks := by
    intro v hv
    cases v with
    | none => cases hv
    | some a => exact Number.text_chars hv
  cases current with
  | none => exact hopt h
  | some a =>
    rcases List.mem_append.mp h with hv | hv
    · exact hopt hv
    · rcases List.mem_cons.mp hv with rfl | hc
      · exact .inr (by decide)
      · exact Number.text_chars hc

/-- a status has a character that no number has -/
theorem status_mark (status : EvidenceStatus) : ∃ c ∈ status.text.toList,
    ¬ (c.isDigit = true ∨ c ∈ NumberText.marks) := by
  cases status with
  | gridUp => exact ⟨'_', by decide, by decide⟩
  | gridDown => exact ⟨'_', by decide, by decide⟩
  | unknown => exact ⟨'k', by decide, by decide⟩

theorem status_no_dot (status : EvidenceStatus) : '.' ∉ status.text.toList := by
  cases status with
  | _ => decide

theorem status_text_inj {status status' : EvidenceStatus} (h : status.text.toList = status'.text.toList) :
    status = status' := by
  revert h
  cases status <;> cases status' <;> decide

/-- no status ends inside the numbers -/
theorem status_not_inside {status : EvidenceStatus} {x y v : List Char} {voltage current : Option Number}
    {t : List Char} (h : x ++ '.' :: status.text.toList = y ++ '.' :: v)
    (hv : numbers voltage current = v ++ '.' :: t) : False := by
  obtain ⟨c, hc, hno⟩ := status_mark status
  have hmem : c ∈ numbers voltage current := ?_
  · exact hno (numbers_chars hmem)
  rw [hv]
  refine List.mem_append_left _ ?_
  rcases Cut.cut_right (status_no_dot status) h with ⟨rfl, -⟩ | ⟨w, rfl, -⟩
  · exact hc
  · exact List.mem_append_right w (List.mem_cons_of_mem _ hc)

theorem status_cut {x x' : List Char} {status status' : EvidenceStatus}
    {voltage voltage' current current' : Option Number}
    (h : x ++ '.' :: (status.text.toList ++ '.' :: numbers voltage current) =
      x' ++ '.' :: (status'.text.toList ++ '.' :: numbers voltage' current')) :
    x = x' ∧ status = status' ∧ numbers voltage current = numbers voltage' current' := by
  rw [← List.cons_append, ← List.cons_append, ← List.append_assoc, ← List.append_assoc] at h
  rcases Cut.append_cases h with ⟨he, hn⟩ | ⟨v, hb, hn⟩ | ⟨v, ha, hn⟩
  · obtain ⟨hs, hx⟩ := Cut.cut_last (status_no_dot status) (status_no_dot status') he
    exact ⟨hx, (status_text_inj hs).symm, hn⟩
  · exact (status_not_inside hb hn).elim
  · exact (status_not_inside ha hn).elim

theorem observedAt_cut {zod : Zod} {m m' : List Char} {o o' : String} (ho : zod.datetime o = true)
    (ho' : zod.datetime o' = true) (h : m ++ '.' :: o.toList = m' ++ '.' :: o'.toList) :
    m = m' ∧ o = o' := by
  obtain ⟨date, time, heq, hdate, htime⟩ := zod.datetime_parts o ho
  obtain ⟨date', time', heq', hdate', htime'⟩ := zod.datetime_parts o' ho'
  rw [heq, heq', ← List.cons_append, ← List.cons_append, ← List.append_assoc,
    ← List.append_assoc] at h
  obtain ⟨htimes, hm⟩ := Cut.cut_last htime htime' h
  obtain ⟨hdates, hm⟩ := Cut.cut_last hdate hdate' hm
  refine ⟨hm, String.toList_inj.mp ?_⟩
  rw [heq, heq', hdates, htimes]

/-! ## the fields before the time -/

theorem wallet_text {wallet : String} (h : isWalletAddress wallet = true) :
    'x' ∈ (JsText.asciiLower wallet).toList ∧ '.' ∉ (JsText.asciiLower wallet).toList := by
  unfold isWalletAddress at h
  rw [Bool.and_eq_true, Bool.and_eq_true, decide_eq_true_eq, List.all_eq_true] at h
  obtain ⟨⟨hstart, hhex⟩, -⟩ := h
  have hlower : (JsText.asciiLower wallet).toList =
      ['0', 'x'] ++ (wallet.toList.drop 2).map Char.toLower := by
    unfold JsText.asciiLower
    rw [String.toList_ofList]
    conv_lhs => rw [← List.take_append_drop 2 wallet.toList]
    rw [hstart, List.map_append]
    rfl
  rw [hlower]
  refine ⟨List.mem_append_left _ (by decide), ?_⟩
  intro hdot
  rcases List.mem_append.mp hdot with hdot | hdot
  · exact absurd hdot (by decide)
  · obtain ⟨c, hc, he⟩ := List.mem_map.mp hdot
    have hno : (hexDigits.all fun c => c.toLower ≠ '.') = true := by decide
    exact of_decide_eq_true (List.all_eq_true.mp hno c (List.contains_iff_mem.mp (hhex c hc))) he

theorem uuid_text {zod : Zod} {zone : String} (h : zod.uuid zone = true) :
    'x' ∉ zone.toList ∧ '.' ∉ zone.toList := by
  constructor
  · intro hx
    exact absurd (zod.uuid_chars zone h 'x' hx) (by decide)
  · intro hx
    exact absurd (zod.uuid_chars zone h '.' hx) (by decide)

/-- the fields of two strings of the same length up to the zone: nothing else begins inside them -/
theorem zone_inside {zod : Zod} {wallet wallet' zone zone' : String} {v k k' : List Char}
    (hw : isWalletAddress wallet = true) (hw' : isWalletAddress wallet' = true)
    (hz : zod.uuid zone = true)
    (h : (JsText.asciiLower wallet).toList ++ '.' :: (zone.toList ++ '.' :: k) =
      v ++ '.' :: ((JsText.asciiLower wallet').toList ++ '.' :: (zone'.toList ++ '.' :: k'))) :
    (v = (JsText.asciiLower wallet).toList ++ '.' :: zone.toList ∧
      k = (JsText.asciiLower wallet').toList ++ '.' :: (zone'.toList ++ '.' :: k')) ∨
    ∃ w, v = (JsText.asciiLower wallet).toList ++ '.' :: (zone.toList ++ '.' :: w) ∧
      k = w ++ '.' :: ((JsText.asciiLower wallet').toList ++ '.' :: (zone'.toList ++ '.' :: k')) := by
  rcases Cut.cut_left (wallet_text hw).2 h with ⟨-, hrest⟩ | ⟨u, rfl, hrest⟩
  · -- a zone would be a wallet
    obtain ⟨he, -⟩ := Cut.cut_first (uuid_text hz).2 (wallet_text hw').2 hrest
    exact absurd (he ▸ (wallet_text hw').1) (uuid_text hz).1
  · rcases Cut.cut_left (uuid_text hz).2 hrest with ⟨rfl, hk⟩ | ⟨w, rfl, hk⟩
    · exact .inl ⟨rfl, hk⟩
    · exact .inr ⟨w, rfl, hk⟩

/-- two cuts of the fields before the time are the same, or one of them hides in the other's device or key -/
theorem zone_cut {zod : Zod} {b b' : TelemetryBody} (hb : Accepted zod b) (hb' : Accepted zod b')
    (hdevice : ¬ HiddenInDevice zod b) (hkey : ¬ HiddenInKey zod b)
    (h : b.deviceId.toList ++ '.' :: ((JsText.asciiLower b.providerWallet).toList ++ '.' ::
        (b.zoneId.toList ++ '.' :: b.idempotencyKey.toList)) =
      b'.deviceId.toList ++ '.' :: ((JsText.asciiLower b'.providerWallet).toList ++ '.' ::
        (b'.zoneId.toList ++ '.' :: b'.idempotencyKey.toList))) :
    b.deviceId = b'.deviceId ∧ JsText.asciiLower b.providerWallet = JsText.asciiLower b'.providerWallet ∧
      b.zoneId = b'.zoneId ∧ b.idempotencyKey = b'.idempotencyKey := by
  obtain ⟨hlen, hw, hz, hklen, -⟩ := hb
  obtain ⟨hlen', hw', hz', hklen', -⟩ := hb'
  rcases Cut.append_cases h with ⟨hd, hrest⟩ | ⟨v, hd, hrest⟩ | ⟨v, hd, hrest⟩
  · obtain ⟨hwallet, hrest⟩ := Cut.cut_first (wallet_text hw).2 (wallet_text hw').2 hrest
    obtain ⟨hzone, hk⟩ := Cut.cut_first (uuid_text hz).2 (uuid_text hz').2 hrest
    exact ⟨String.toList_inj.mp hd, (String.toList_inj.mp hwallet).symm,
      (String.toList_inj.mp hzone).symm, String.toList_inj.mp hk⟩
  · -- the other wallet and zone stand in the key
    refine (hkey ?_).elim
    rcases zone_inside hw hw' hz hrest with ⟨-, hk⟩ | ⟨w, -, hk⟩
    · refine ⟨[], b'.providerWallet, b'.zoneId, b'.idempotencyKey, hw', hz', hklen', ?_⟩
      rw [hk]
      simp [marker]
    · refine ⟨'.' :: w, b'.providerWallet, b'.zoneId, b'.idempotencyKey, hw', hz', hklen', ?_⟩
      rw [hk]
      simp [marker]
  · -- they stand in the device
    refine (hdevice ?_).elim
    rcases zone_inside hw' hw hz' hrest with ⟨hv, -⟩ | ⟨w, hv, -⟩
    · refine ⟨b'.deviceId, b'.providerWallet, b'.zoneId, [], hlen', hw', hz', ?_⟩
      rw [hd, hv]
      simp [marker]
    · refine ⟨b'.deviceId, b'.providerWallet, b'.zoneId, w ++ ['.'], hlen', hw', hz', ?_⟩
      rw [hd, hv]
      simp [marker]

/-! ## the numbers -/

/-- a voltage begins the numbers with something other than a dot -/
theorem numbers_some_start (a : Number) (current : Option Number) :
    ∃ c rest, numbers (some a) current = c :: rest ∧ c ≠ '.' := by
  obtain ⟨c, rest, htext, hc⟩ := a.text_start
  cases current with
  | none => exact ⟨c, rest, htext, hc⟩
  | some b =>
    refine ⟨c, rest ++ '.' :: b.text, ?_, hc⟩
    show a.text ++ '.' :: b.text = _
    rw [htext]
    rfl

/-- the numbers of an unmistakable body are read in one way -/
theorem numbers_inj {voltage voltage' current current' : Option Number}
    (hone : Unmistakable voltage current) (h : numbers voltage current = numbers voltage' current') :
    voltage = voltage' ∧ current = current' := by
  cases voltage with
  | none =>
    cases voltage' with
    | some a' =>
      obtain ⟨c, rest, hc, hne⟩ := numbers_some_start a' current'
      rw [hc] at h
      cases current with
      | none => cases h
      | some a => exact absurd (List.cons.inj h).1.symm hne
    | none =>
      cases current with
      | none =>
        cases current' with
        | none => exact ⟨rfl, rfl⟩
        | some a' => cases h
      | some a =>
        cases current' with
        | none => cases h
        | some a' =>
          have htext : a.text = a'.text := (List.cons.inj h).2
          exact ⟨rfl, congrArg some (Number.text_inj htext)⟩
  | some a =>
    cases voltage' with
    | none =>
      obtain ⟨c, rest, hc, hne⟩ := numbers_some_start a current
      rw [hc] at h
      cases current' with
      | none => cases h
      | some a' => exact absurd (List.cons.inj h).1 hne
    | some a' =>
      cases current with
      | none =>
        cases current' with
        | none => exact ⟨congrArg some (Number.text_inj h), rfl⟩
        | some b' => exact absurd ⟨⟨a', rfl⟩, ⟨b', rfl⟩⟩ (hone _ _ h)
      | some b =>
        obtain ⟨hsingle, hpair⟩ := hone
        cases current' with
        | none => exact absurd ⟨a', h.symm⟩ hsingle
        | some b' =>
          have htexts : a.text ++ '.' :: b.text = a'.text ++ '.' :: b'.text := h
          by_cases he : a'.text = a.text
          · rw [he] at htexts
            have hb := (List.cons.inj (List.append_cancel_left htexts)).2
            exact ⟨congrArg some (Number.text_inj he.symm), congrArg some (Number.text_inj hb)⟩
          · exact absurd ⟨⟨a', rfl⟩, ⟨b', rfl⟩⟩ (hpair _ _ htexts he)

/-- numbers that are not unmistakable are read in another way -/
theorem numbers_other {voltage current : Option Number} (hone : ¬ Unmistakable voltage current) :
    ∃ voltage' current', numbers voltage' current' = numbers voltage current ∧
      ¬ (voltage = voltage' ∧ current = current') := by
  cases voltage with
  | none => exact absurd trivial hone
  | some a =>
    cases current with
    | none =>
      unfold Unmistakable at hone
      push Not at hone
      obtain ⟨v, c, htext, ⟨x, rfl⟩, ⟨y, rfl⟩⟩ := hone
      exact ⟨some x, some y, htext.symm, fun h => by cases h.2⟩
    | some b =>
      unfold Unmistakable at hone
      rw [not_and_or, not_not] at hone
      rcases hone with ⟨x, hx⟩ | hpair
      · exact ⟨some x, none, hx, fun h => by cases h.2⟩
      · push Not at hpair
        obtain ⟨v, c, htext, hne, ⟨x, rfl⟩, ⟨y, rfl⟩⟩ := hpair
        refine ⟨some x, some y, htext.symm, fun h => hne ?_⟩
        rw [Option.some.inj h.1]

/-! ## what a signature binds -/

theorem utf16Length_append (s t : List Char) : JsText.utf16Length (String.ofList (s ++ t)) =
    JsText.utf16Length (String.ofList s) + JsText.utf16Length (String.ofList t) := by
  unfold JsText.utf16Length
  simp only [String.toList_ofList, List.map_append, List.sum_append]

theorem utf16Length_toList (s : String) :
    JsText.utf16Length (String.ofList s.toList) = JsText.utf16Length s := by
  rw [String.ofList_toList]

theorem marker_length (wallet zone : String) : 3 ≤ (marker wallet zone).length := by
  unfold marker
  simp only [List.length_cons, List.length_append]
  omega

/-- a wallet and a zone in the device make a signed string of a shorter device and a longer key -/
theorem device_other {zod : Zod} {b : TelemetryBody} (hb : Accepted zod b) (h : HiddenInDevice zod b) :
    ∃ b', Accepted zod b' ∧ signedPayload b' = signedPayload b ∧ ¬ Agree b b' := by
  obtain ⟨-, -, -, hkey, hrest⟩ := hb
  obtain ⟨device, wallet, zone, rest, hdevice, hwallet, hzone, heq⟩ := h
  let key := rest ++ ((JsText.asciiLower b.providerWallet).toList ++ '.' :: (b.zoneId.toList ++ ['.']))
  refine ⟨{ b with
    deviceId := device, providerWallet := wallet, zoneId := zone
    idempotencyKey := String.ofList (key ++ b.idempotencyKey.toList) }, ?_, ?_, ?_⟩
  · refine ⟨hdevice, hwallet, hzone, ?_, hrest⟩
    show 12 ≤ JsText.utf16Length (String.ofList (key ++ b.idempotencyKey.toList))
    rw [utf16Length_append, utf16Length_toList]
    omega
  · apply String.toList_inj.mp
    rw [signedPayload_toList, signedPayload_toList, List.append_cons b.deviceId.toList, heq]
    simp only [key, marker, String.toList_ofList, List.append_assoc, List.cons_append, List.nil_append]
  · intro hagree
    have hlen := congrArg List.length heq
    have he : b.deviceId = device := hagree.1
    rw [List.length_append, List.length_append, List.length_append, List.length_singleton, he] at hlen
    have := marker_length wallet zone
    omega

/-- a wallet and a zone in the key make a signed string of a longer device and a shorter key -/
theorem key_other {zod : Zod} {b : TelemetryBody} (hb : Accepted zod b) (h : HiddenInKey zod b) :
    ∃ b', Accepted zod b' ∧ signedPayload b' = signedPayload b ∧ ¬ Agree b b' := by
  obtain ⟨hdevice, -, -, -, hrest⟩ := hb
  obtain ⟨before, wallet, zone, key, hwallet, hzone, hkey, heq⟩ := h
  let rest := '.' :: ((JsText.asciiLower b.providerWallet).toList ++ '.' :: b.zoneId.toList) ++ before
  refine ⟨{ b with
    deviceId := String.ofList (b.deviceId.toList ++ rest), providerWallet := wallet, zoneId := zone
    idempotencyKey := key }, ?_, ?_, ?_⟩
  · refine ⟨?_, hwallet, hzone, hkey, hrest⟩
    show 3 ≤ JsText.utf16Length (String.ofList (b.deviceId.toList ++ rest))
    rw [utf16Length_append, utf16Length_toList]
    omega
  · apply String.toList_inj.mp
    rw [signedPayload_toList, signedPayload_toList, ← @List.cons_append _ '.' b.idempotencyKey.toList,
      heq]
    simp only [rest, marker, String.toList_ofList, List.append_assoc, List.cons_append, List.nil_append]
  · intro hagree
    have hlen := congrArg List.length heq
    have he : b.idempotencyKey = key := hagree.2.2.2.1
    rw [List.length_append, List.length_append, List.length_cons, he] at hlen
    have := marker_length wallet zone
    omega

/-- numbers that are not unmistakable make a signed string of other numbers -/
theorem numbers_differ {zod : Zod} {b : TelemetryBody} (hb : Accepted zod b)
    (h : ¬ Unmistakable b.voltage b.currentAmps) :
    ∃ b', Accepted zod b' ∧ signedPayload b' = signedPayload b ∧ ¬ Agree b b' := by
  obtain ⟨voltage, current, heq, hne⟩ := numbers_other h
  refine ⟨{ b with voltage := voltage, currentAmps := current }, hb, ?_, ?_⟩
  · apply String.toList_inj.mp
    rw [signedPayload_toList, signedPayload_toList, heq]
  · intro hagree
    obtain ⟨-, -, -, -, -, -, hvoltage, hcurrent⟩ := hagree
    exact hne ⟨hvoltage, hcurrent⟩

/-- the signed string of an accepted body is that of this reading only iff its numbers are unmistakable and no
wallet and zone hide in its device or in its key -/
theorem binds_iff (zod : Zod) {b : TelemetryBody} (hb : Accepted zod b) :
    (∀ b', Accepted zod b' → signedPayload b' = signedPayload b → Agree b b') ↔
      Unmistakable b.voltage b.currentAmps ∧ ¬ HiddenInDevice zod b ∧ ¬ HiddenInKey zod b := by
  constructor
  · intro hall
    have hno : ¬ ∃ b', Accepted zod b' ∧ signedPayload b' = signedPayload b ∧ ¬ Agree b b' := by
      rintro ⟨b', hb', heq, hne⟩
      exact hne (hall b' hb' heq)
    refine ⟨?_, fun h => hno (device_other hb h), fun h => hno (key_other hb h)⟩
    by_contra h
    exact hno (numbers_differ hb h)
  · rintro ⟨hone, hdevice, hkey⟩ b' hb' heq
    have h := congrArg String.toList heq.symm
    rw [signedPayload_parts, signedPayload_parts] at h
    obtain ⟨hbefore, hstatus, hnumbers⟩ := status_cut h
    obtain ⟨hfront, hobserved⟩ := observedAt_cut hb.2.2.2.2.1 hb'.2.2.2.2.1 hbefore
    obtain ⟨hd, hw, hz, hk⟩ := zone_cut hb hb' hdevice hkey hfront
    obtain ⟨hvoltage, hcurrent⟩ := numbers_inj hone hnumbers
    exact ⟨hd, hw, hz, hk, hobserved, hstatus, hvoltage, hcurrent⟩

/-! ## free texts with few dots -/

theorem marker_dots (wallet zone : String) : 3 ≤ (marker wallet zone).count '.' := by
  unfold marker
  simp only [List.count_cons, List.count_append]
  simp
  omega

theorem not_hiddenInDevice (zod : Zod) {b : TelemetryBody} (h : b.deviceId.toList.count '.' < 2) :
    ¬ HiddenInDevice zod b := by
  rintro ⟨device, wallet, zone, rest, -, -, -, heq⟩
  have hdots := congrArg (List.count '.') heq
  rw [List.count_append, List.count_append, List.count_append, List.count_singleton_self] at hdots
  have := marker_dots wallet zone
  omega

theorem not_hiddenInKey (zod : Zod) {b : TelemetryBody} (h : b.idempotencyKey.toList.count '.' < 2) :
    ¬ HiddenInKey zod b := by
  rintro ⟨before, wallet, zone, key, -, -, -, heq⟩
  have hdots := congrArg (List.count '.') heq
  rw [List.count_append, List.count_append, List.count_cons_self] at hdots
  have := marker_dots wallet zone
  omega

theorem unmistakable_of_no_dot {voltage : Number} (h : '.' ∉ voltage.text) :
    Unmistakable (some voltage) none := by
  intro v c htext
  rw [htext] at h
  exact absurd (List.mem_append_right v List.mem_cons_self) h

/-! ## a voltage with a fraction -/

def sampleBody (voltage current : Option Number) : TelemetryBody where
  deviceId := "gridproof-node-01"
  providerWallet := "0x2222222222222222222222222222222222222222"
  zoneId := "aaaaaaaa-aaaa-4aaa-8aaa-aaaaaaaaaaaa"
  idempotencyKey := "a84041ed485a0b9f-1767276000"
  observedAt := "2026-01-01T14:00:00.000Z"
  status := .gridUp
  voltage := voltage
  currentAmps := current
  signature := "0000000000000000000000000000000000000000000000000000000000000000"

theorem accepted_sample (voltage current : Option Number) :
    Accepted sampleZod (sampleBody voltage current) := by
  -- the schema has nothing to say of numbers that are not negative
  have h : Accepted sampleZod (sampleBody none none) := by decide +kernel
  exact h

def one : Number := .finite 1 ⟨1, 1, 1⟩ (by decide +kernel)

def five : Number := .finite 5 ⟨5, 1, 1⟩ (by decide +kernel)

def oneAndFiveTenths : Number := .finite (3 / 2) ⟨15, 2, 1⟩ (by decide +kernel)

/-- a reading of one volt without a current is bound -/
theorem one_volt_binds : Accepted sampleZod (sampleBody (some one) none) ∧
    ∀ b', Accepted sampleZod b' → signedPayload b' = signedPayload (sampleBody (some one) none) →
      Agree (sampleBody (some one) none) b' :=
  ⟨accepted_sample _ _, (binds_iff sampleZod (accepted_sample _ _)).mpr
    ⟨unmistakable_of_no_dot (by decide +kernel), not_hiddenInDevice _ (by decide +kernel),
      not_hiddenInKey _ (by decide +kernel)⟩⟩

/-- one and a half volts without a current are signed as one volt and five amperes -/
theorem volts_or_amperes :
    Accepted sampleZod (sampleBody (some oneAndFiveTenths) none) ∧
    Accepted sampleZod (sampleBody (some one) (some five)) ∧
    signedPayload (sampleBody (some oneAndFiveTenths) none) =
      signedPayload (sampleBody (some one) (some five)) ∧
    ¬ Agree (sampleBody (some oneAndFiveTenths) none) (sampleBody (some one) (some five)) := by
  refine ⟨accepted_sample _ _, accepted_sample _ _, by decide +kernel, ?_⟩
  intro hagree
  cases hagree.2.2.2.2.2.2.2

end Ingestion
