import GridProof.Lib.DateText
import GridProof.Lib.JsonLayout
import GridProof.Deployment.Rendering
import GridProof.Ingestion.Parsing

/-!
# Reading a manifest back

What the deploy script writes is what both readers of the manifest read.

* `text_chars`           a manifest is an object with white space;
* `parseManifest_text`   the verification script reads a manifest as it was written;
* `load_text`            so does the client;
* `manifest_read`        every value of a manifest is read as it was deployed.
-/

namespace Deployment
open ReputationEscrow (Address Bytes32)
open Sha256 (Byte)
open Ingestion (isWalletAddress Zod)
open Json (Layout)

/-! ## the text -/

namespace DeploymentManifest
variable (m : DeploymentManifest)

/-- the lines of `writeManifest` -/
def text : String :=
  let json := "\x7b\n  \"network\": \"" ++ m.network ++ "\",\n"
  let json := json ++ "  \"chainId\": \"" ++ m.chainId ++ "\",\n"
  let json := json ++ "  \"deployedAt\": \"" ++ m.deployedAt ++ "\",\n"
  let json := json ++ "  \"admin\": \"" ++ m.admin ++ "\",\n"
  let json := json ++ "  \"relayer\": \"" ++ m.relayer ++ "\",\n"
  let json := json ++ "  \"contracts\": \x7b\n"
  let json := json ++ "    \"NodeRegistry\": \"" ++ m.contracts.NodeRegistry ++ "\",\n"
  let json := json ++ "    \"UptimeAttestation\": \"" ++ m.contracts.UptimeAttestation ++ "\",\n"
  let json := json ++ "    \"ReputationEscrow\": \"" ++ m.contracts.ReputationEscrow ++ "\"\n"
  let json := json ++ "  \x7d,\n"
  let json := json ++ "  \"params\": \x7b\n"
  let json := json ++ "    \"epochDurationSeconds\": \"" ++ m.params.epochDurationSeconds ++ "\",\n"
  let json := json ++ "    \"slashPolicyCap\": \"" ++ m.params.slashPolicyCap ++ "\",\n"
  let json := json ++ "    \"minimumStake\": \"" ++ m.params.minimumStake ++ "\",\n"
  let json := json ++ "    \"withdrawCooldownSeconds\": \"" ++ m.params.withdrawCooldownSeconds ++ "\"\n"
  json ++ "  \x7d\n\x7d\n"

def addresses : List String :=
  [m.admin, m.relayer, m.contracts.NodeRegistry, m.contracts.UptimeAttestation, m.contracts.ReputationEscrow]

def numbers : List String :=
  [m.chainId, m.params.epochDurationSeconds, m.params.slashPolicyCap, m.params.minimumStake,
    m.params.withdrawCooldownSeconds]

/-- what both readers ask for, the format of the time apart -/
structure WellFormed : Prop where
  plain : Json.Plain m.network
  trimmed : JsText.trim m.network = m.network
  named : m.network ≠ ""
  deployedAt : ∀ c ∈ m.deployedAt.toList, Visible c
  timed : m.deployedAt ≠ ""
  addresses : ∀ s ∈ m.addresses, isWalletAddress s = true
  numbers : ∀ s ∈ m.numbers, isDigits s = true
  chainId : 0 < bigInt m.chainId
  epochDurationSeconds : 0 < bigInt m.params.epochDurationSeconds

end DeploymentManifest

theorem forall_mem_five {α : Type} {P : α → Prop} {a b c d e : α} (h : ∀ x ∈ [a, b, c, d, e], P x) :
    P a ∧ P b ∧ P c ∧ P d ∧ P e := by
  simp only [List.forall_mem_cons] at h
  obtain ⟨ha, hb, hc, hd, he, -⟩ := h
  exact ⟨ha, hb, hc, hd, he⟩

/-! ## the layout -/

/-- a new line and its indentation -/
def line (indent : ℕ) : List Char := '\n' :: List.replicate indent ' '

theorem line_blank (indent : ℕ) : Json.Blank (line indent) := by
  intro c hc
  rcases List.mem_cons.mp hc with rfl | hc
  · rfl
  · rw [List.eq_of_mem_replicate hc]
    rfl

def textLine (indent : ℕ) (name s : String) : Layout.Member := (line indent, name, [' '], .text s)

def groupLine (name : String) (members : List Layout.Member) : Layout.Member :=
  (line 2, name, [' '], .object members (line 2))

namespace DeploymentManifest
variable (m : DeploymentManifest)

def layout : List Layout.Member :=
  [textLine 2 "network" m.network, textLine 2 "chainId" m.chainId, textLine 2 "deployedAt" m.deployedAt,
    textLine 2 "admin" m.admin, textLine 2 "relayer" m.relayer,
    groupLine "contracts" [textLine 4 "NodeRegistry" m.contracts.NodeRegistry,
      textLine 4 "UptimeAttestation" m.contracts.UptimeAttestation,
      textLine 4 "ReputationEscrow" m.contracts.ReputationEscrow],
    groupLine "params" [textLine 4 "epochDurationSeconds" m.params.epochDurationSeconds,
      textLine 4 "slashPolicyCap" m.params.slashPolicyCap, textLine 4 "minimumStake" m.params.minimumStake,
      textLine 4 "withdrawCooldownSeconds" m.params.withdrawCooldownSeconds]]

theorem layout_spaced : (Layout.object m.layout (line 0)).Spaced := by
  have hgap : Json.Blank [' '] := fun c hc => by
    rw [List.mem_singleton.mp hc]
    rfl
  have htext : ∀ indent name s members, Layout.MembersSpaced members →
      Layout.MembersSpaced (textLine indent name s :: members) :=
    fun indent _ _ _ h => ⟨line_blank indent, hgap, trivial, h⟩
  have hgroup : ∀ name group members, Layout.MembersSpaced group → Layout.MembersSpaced members →
      Layout.MembersSpaced (groupLine name group :: members) :=
    fun _ _ _ hg h => ⟨line_blank 2, hgap, ⟨line_blank 2, hg⟩, h⟩
  refine ⟨line_blank 0, ?_⟩
  unfold layout
  iterate 5 apply htext
  apply hgroup
  · iterate 3 apply htext
    exact trivial
  · apply hgroup
    · iterate 4 apply htext
      exact trivial
    · exact trivial

variable {m}

theorem WellFormed.texts_plain (h : m.WellFormed) :
    Json.Plain m.network ∧ Json.Plain m.deployedAt ∧ (∀ s ∈ m.addresses, Json.Plain s) ∧
      ∀ s ∈ m.numbers, Json.Plain s :=
  ⟨h.plain, plain_of_visible h.deployedAt, fun s hs => plain_of_visible (visible_of_wallet (h.addresses s hs)),
    fun s hs => plain_of_visible (visible_of_digits (h.numbers s hs))⟩

set_option maxRecDepth 8000 in
/-- **The text of a manifest is the one of its layout.** -/
theorem text_chars (h : m.WellFormed) :
    m.text.toList = (Layout.object m.layout (line 0)).chars ++ line 0 := by
  obtain ⟨hnetwork, htime, haddresses, hnumbers⟩ := h.texts_plain
  obtain ⟨hadmin, hrelayer, hregistry, hattestation, hescrow⟩ := forall_mem_five haddresses
  obtain ⟨hchain, hepoch, hcap, hstake, hcooldown⟩ := forall_mem_five hnumbers
  unfold text layout textLine groupLine
  simp only [Layout.chars, Layout.memberChars, String.toList_append, List.append_assoc, List.cons_append,
    Json.quote_plain hnetwork, Json.quote_plain htime, Json.quote_plain hadmin, Json.quote_plain hrelayer,
    Json.quote_plain hregistry, Json.quote_plain hattestation, Json.quote_plain hescrow, Json.quote_plain hchain,
    Json.quote_plain hepoch, Json.quote_plain hcap, Json.quote_plain hstake, Json.quote_plain hcooldown]
  rfl

/-! ## the record -/

variable (m) in
def contractsRecord : Json.Value :=
  .object [("NodeRegistry", .string m.contracts.NodeRegistry),
    ("UptimeAttestation", .string m.contracts.UptimeAttestation),
    ("ReputationEscrow", .string m.contracts.ReputationEscrow)]

variable (m) in
def paramsRecord : Json.Value :=
  .object [("epochDurationSeconds", .string m.params.epochDurationSeconds),
    ("slashPolicyCap", .string m.params.slashPolicyCap), ("minimumStake", .string m.params.minimumStake),
    ("withdrawCooldownSeconds", .string m.params.withdrawCooldownSeconds)]

variable (m) in
def record : Json.Value :=
  .object [("network", .string m.network), ("chainId", .string m.chainId), ("deployedAt", .string m.deployedAt),
    ("admin", .string m.admin), ("relayer", .string m.relayer), ("contracts", m.contractsRecord),
    ("params", m.paramsRecord)]

theorem WellFormed.parse_text (h : m.WellFormed) : Json.parse m.text = some m.record := by
  have hparse := Json.parse_layout m.layout_spaced (line_blank 0)
  rw [← text_chars h, String.ofList_toList] at hparse
  exact hparse

variable (m) in
theorem record_members : m.record.member "network" = some (.string m.network) ∧
    m.record.member "chainId" = some (.string m.chainId) ∧
    m.record.member "deployedAt" = some (.string m.deployedAt) ∧
    m.record.member "admin" = some (.string m.admin) ∧ m.record.member "relayer" = some (.string m.relayer) ∧
    objectRecord (m.record.member "contracts") = some m.contractsRecord ∧
    objectRecord (m.record.member "params") = some m.paramsRecord :=
  ⟨rfl, rfl, rfl, rfl, rfl, rfl, rfl⟩

variable (m) in
theorem contracts_members :
    m.contractsRecord.member "NodeRegistry" = some (.string m.contracts.NodeRegistry) ∧
    m.contractsRecord.member "UptimeAttestation" = some (.string m.contracts.UptimeAttestation) ∧
    m.contractsRecord.member "ReputationEscrow" = some (.string m.contracts.ReputationEscrow) :=
  ⟨rfl, rfl, rfl⟩

variable (m) in
theorem params_members :
    m.paramsRecord.member "epochDurationSeconds" = some (.string m.params.epochDurationSeconds) ∧
    m.paramsRecord.member "slashPolicyCap" = some (.string m.params.slashPolicyCap) ∧
    m.paramsRecord.member "minimumStake" = some (.string m.params.minimumStake) ∧
    m.paramsRecord.member "withdrawCooldownSeconds" = some (.string m.params.withdrawCooldownSeconds) :=
  ⟨rfl, rfl, rfl, rfl⟩

end DeploymentManifest

/-! ## the two readers -/

theorem requiredString_ok {s : String} (htrim : JsText.trim s = s) (hne : s ≠ "") (name : String) :
    requiredString (some (.string s)) name = .ok s := by
  unfold requiredString
  dsimp only
  rw [htrim, if_neg hne]

theorem requiredDigits_ok {s : String} (h : isDigits s = true) (name : String) :
    requiredDigits (some (.string s)) name = .ok s := by
  have hne : s ≠ "" := by
    rintro rfl
    exact absurd h (by decide)
  unfold requiredDigits
  rw [requiredString_ok (trim_of_visible (visible_of_digits h)) hne]
  exact if_pos h

theorem requiredAddress_ok {s : String} (h : isWalletAddress s = true) (name : String) :
    requiredAddress (some (.string s)) name = .ok s := by
  have hne : s ≠ "" := by
    rintro rfl
    exact absurd h (by decide)
  unfold requiredAddress
  rw [requiredString_ok (trim_of_visible (visible_of_wallet h)) hne]
  exact if_pos h

theorem textMember_ok {record : Json.Value} {name s : String} {accepts : String → Bool}
    (hmember : record.member name = some (.string s)) (h : accepts s = true) :
    textMember name accepts record = some s := by
  unfold textMember
  rw [hmember]
  exact if_pos h

section
variable {m : DeploymentManifest} (h : m.WellFormed)
include h

/-- **The verification script reads a manifest as it was written.** -/
theorem parseManifest_text {engine : Engine} (hdate : (engine.parseDate m.deployedAt).isSome = true) :
    parseManifest engine m.text = .ok m := by
  obtain ⟨hadmin, hrelayer, hregistry, hattestation, hescrow⟩ := forall_mem_five h.addresses
  obtain ⟨hchain, hepoch, hcap, hstake, hcooldown⟩ := forall_mem_five h.numbers
  obtain ⟨rnetwork, rchain, rtime, radmin, rrelayer, rcontracts, rparams⟩ := m.record_members
  obtain ⟨rregistry, rattestation, rescrow⟩ := m.contracts_members
  obtain ⟨repoch, rcap, rstake, rcooldown⟩ := m.params_members
  have htime : requiredDateTime engine (some (.string m.deployedAt)) "deployedAt" = .ok m.deployedAt := by
    unfold requiredDateTime
    rw [requiredString_ok (trim_of_visible h.deployedAt) h.timed]
    exact if_pos hdate
  have hrecord : objectRecord (some m.record) = some m.record := rfl
  unfold parseManifest
  rw [h.parse_text]
  dsimp only
  rw [hrecord]
  dsimp only
  rw [rcontracts, rparams]
  dsimp only
  rw [rnetwork, rchain, rtime, radmin, rrelayer, rregistry, rattestation, rescrow, repoch, rcap, rstake, rcooldown,
    requiredString_ok h.trimmed h.named, requiredDigits_ok hchain, htime, requiredAddress_ok hadmin,
    requiredAddress_ok hrelayer, requiredAddress_ok hregistry, requiredAddress_ok hattestation,
    requiredAddress_ok hescrow, requiredDigits_ok hepoch, requiredDigits_ok hcap, requiredDigits_ok hstake,
    requiredDigits_ok hcooldown]
  show (if bigInt m.chainId ≤ 0 then _ else if bigInt m.params.epochDurationSeconds ≤ 0 then _ else Except.ok m) = _
  rw [if_neg (Nat.not_le.mpr h.chainId), if_neg (Nat.not_le.mpr h.epochDurationSeconds)]

/-- **The client reads a manifest as it was written.** -/
theorem load_text {zod : Zod} (hdate : zod.datetime m.deployedAt = true) :
    loadDeploymentManifest zod m.text = some m := by
  obtain ⟨hadmin, hrelayer, hregistry, hattestation, hescrow⟩ := forall_mem_five h.addresses
  obtain ⟨hchain, hepoch, hcap, hstake, hcooldown⟩ := forall_mem_five h.numbers
  obtain ⟨rnetwork, rchain, rtime, radmin, rrelayer, rcontracts, rparams⟩ := m.record_members
  obtain ⟨rregistry, rattestation, rescrow⟩ := m.contracts_members
  obtain ⟨repoch, rcap, rstake, rcooldown⟩ := m.params_members
  have hnetwork : decide (1 ≤ JsText.utf16Length m.network) = true := by
    refine decide_eq_true (Nat.le_trans (Nat.one_le_iff_ne_zero.mpr fun hzero => ?_) (JsText.length_le_utf16Length _))
    exact h.named (String.length_eq_zero_iff.mp hzero)
  have hrecord : objectRecord (some m.record) = some m.record := rfl
  unfold loadDeploymentManifest
  rw [h.parse_text, Option.bind_some]
  unfold deploymentManifestSchema
  rw [hrecord, Option.bind_eq_bind, Option.bind_some, textMember_ok rnetwork hnetwork, textMember_ok rchain hchain,
    textMember_ok rtime hdate, textMember_ok radmin hadmin, textMember_ok rrelayer hrelayer, rcontracts, rparams]
  simp only [Option.bind_eq_bind, Option.bind_some]
  rw [textMember_ok rregistry hregistry, textMember_ok rattestation hattestation, textMember_ok rescrow hescrow,
    textMember_ok repoch hepoch, textMember_ok rcap hcap, textMember_ok rstake hstake,
    textMember_ok rcooldown hcooldown]
  rfl

end

/-! ## what a deployment writes -/

section
variable (keccak256 : List Byte → Bytes32) (block : Block) (p : Params) (addresses : Addresses)

/-- the values of `writeManifest` -/
def written : DeploymentManifest where
  network := p.network
  chainId := toString block.chainId.toNat
  deployedAt := isoTimestamp block.timestamp.toNat
  admin := addressText keccak256 p.admin
  relayer := addressText keccak256 p.relayer
  contracts := ⟨addressText keccak256 addresses.registry, addressText keccak256 addresses.attestation,
    addressText keccak256 addresses.escrow⟩
  params := ⟨toString p.epochDurationSeconds.toNat, toString p.slashPolicyCap.toNat, toString p.minimumStake.toNat,
    toString p.withdrawCooldownSeconds.toNat⟩

theorem writeManifest_eq : writeManifest keccak256 block p addresses = (written keccak256 block p addresses).text := rfl

/-- a network that is a text as it stands, a chain with a number, and a time before the year 10000 -/
structure Fits (block : Block) (network : String) : Prop where
  plain : Json.Plain network
  trimmed : JsText.trim network = network
  named : network ≠ ""
  chainId : block.chainId ≠ 0
  timestamp : block.timestamp.toNat < 253402300800

/-- what the values of a manifest are -/
structure Records (m : DeploymentManifest) : Prop where
  network : m.network = p.network
  chainId : bigInt m.chainId = block.chainId.toNat
  deployedAt : Calendar.readMicros m.deployedAt = block.timestamp.toNat * 1000000
  admin : ∀ a, JsText.asciiLower m.admin = lowerAddress a ↔ a = p.admin
  relayer : ∀ a, JsText.asciiLower m.relayer = lowerAddress a ↔ a = p.relayer
  registry : ∀ a, JsText.asciiLower m.contracts.NodeRegistry = lowerAddress a ↔ a = addresses.registry
  attestation : ∀ a, JsText.asciiLower m.contracts.UptimeAttestation = lowerAddress a ↔ a = addresses.attestation
  escrow : ∀ a, JsText.asciiLower m.contracts.ReputationEscrow = lowerAddress a ↔ a = addresses.escrow
  epochDurationSeconds : bigInt m.params.epochDurationSeconds = p.epochDurationSeconds.toNat
  slashPolicyCap : bigInt m.params.slashPolicyCap = p.slashPolicyCap.toNat
  minimumStake : bigInt m.params.minimumStake = p.minimumStake.toNat
  withdrawCooldownSeconds : bigInt m.params.withdrawCooldownSeconds = p.withdrawCooldownSeconds.toNat

/-- `Date.parse` of an ISO text in seconds -/
def Engine.ReadsIso (engine : Engine) : Prop :=
  ∀ s : ℤ, 0 ≤ s → s < 253402300800 → (engine.parseDate (Calendar.isoSeconds s)).isSome = true

end

section
variable {keccak256 : List Byte → Bytes32} {block : Block} {p : Params} {addresses : Addresses}

theorem bigInt_toString (n : ℕ) : bigInt (toString n) = n := by
  unfold bigInt
  rw [Nat.toString_eq_ofList_toDigits, String.toList_ofList]
  exact Nat.ofDigitChars_ten_toDigits

theorem isDigits_toString (n : ℕ) : isDigits (toString n) = true := by
  have hne : Nat.toDigits 10 n ≠ [] := List.ne_nil_of_length_pos Nat.length_toDigits_pos
  unfold isDigits
  rw [Nat.toString_eq_ofList_toDigits, String.toList_ofList, Bool.and_eq_true, List.all_eq_true]
  exact ⟨bne_iff_ne.mpr hne, fun c hc => Nat.isDigit_of_mem_toDigits (by decide) (by decide) hc⟩

theorem isoSeconds_date {t : ℤ} (h : 0 ≤ t) (h' : t < 253402300800) :
    0 ≤ (Calendar.civilOfDays (t.fdiv 86400)).1 ∧ (Calendar.civilOfDays (t.fdiv 86400)).1 ≤ 9999 := by
  rw [Int.fdiv_eq_ediv_of_nonneg _ (by decide)]
  exact Calendar.civil_year_of_range (by omega) (by omega)

theorem isoSeconds_seconds (t : ℤ) : (t.fmod 86400).toNat < 86400 := by
  rw [Int.fmod_eq_emod_of_nonneg _ (by decide)]
  omega

theorem isoSeconds_visible {t : ℤ} (h : 0 ≤ t) (h' : t < 253402300800) :
    ∀ c ∈ (Calendar.isoSeconds t).toList, Visible c := by
  rw [Calendar.isoSeconds_eq]
  obtain ⟨date, time, htext, hdate, htime⟩ := Calendar.utcText_parts (isoSeconds_date h h')
  rw [htext]
  intro c hc
  rcases List.mem_append.mp hc with hc | hc
  · rcases hdate c hc with h | rfl
    · exact visible_of_digit h
    · decide
  · rcases List.mem_cons.mp hc with rfl | hc
    · decide
    · rcases htime c hc with h | rfl | rfl
      · exact visible_of_digit h
      · decide
      · decide

theorem isoSeconds_length {t : ℤ} (h : 0 ≤ t) (h' : t < 253402300800) : (Calendar.isoSeconds t).length = 20 := by
  rw [Calendar.isoSeconds_eq]
  exact Calendar.utcText_length (isoSeconds_date h h') (Calendar.civil_valid _) (isoSeconds_seconds t)

/-- **A manifest has the form that both readers ask for.** -/
theorem written_wellFormed (hfit : Fits block p.network) (hepoch : p.epochDurationSeconds ≠ 0) :
    (written keccak256 block p addresses).WellFormed where
  plain := hfit.plain
  trimmed := hfit.trimmed
  named := hfit.named
  deployedAt := by
    show ∀ c ∈ (isoTimestamp block.timestamp.toNat).toList, Visible c
    rw [isoTimestamp_eq hfit.timestamp]
    exact isoSeconds_visible (Int.natCast_nonneg _) (by exact_mod_cast hfit.timestamp)
  timed := by
    show isoTimestamp block.timestamp.toNat ≠ ""
    rw [isoTimestamp_eq hfit.timestamp]
    intro hempty
    have hlength := isoSeconds_length (Int.natCast_nonneg _) (by exact_mod_cast hfit.timestamp)
    rw [hempty] at hlength
    exact absurd hlength (by decide)
  addresses := by
    unfold DeploymentManifest.addresses
    simp only [List.forall_mem_cons]
    exact ⟨addressText_wallet _ _, addressText_wallet _ _, addressText_wallet _ _, addressText_wallet _ _,
      addressText_wallet _ _, List.forall_mem_nil _⟩
  numbers := by
    unfold DeploymentManifest.numbers
    simp only [List.forall_mem_cons]
    exact ⟨isDigits_toString _, isDigits_toString _, isDigits_toString _, isDigits_toString _, isDigits_toString _,
      List.forall_mem_nil _⟩
  chainId := by
    show 0 < bigInt (toString block.chainId.toNat)
    rw [bigInt_toString]
    exact Nat.pos_of_ne_zero fun hzero => hfit.chainId (BitVec.eq_of_toNat_eq hzero)
  epochDurationSeconds := by
    show 0 < bigInt (toString p.epochDurationSeconds.toNat)
    rw [bigInt_toString]
    exact Nat.pos_of_ne_zero fun hzero => hepoch (BitVec.eq_of_toNat_eq hzero)

theorem asciiLower_eq_lowerAddress (b a : Address) :
    JsText.asciiLower (addressText keccak256 b) = lowerAddress a ↔ a = b := by
  rw [asciiLower_addressText]
  exact ⟨fun h => (lowerAddress_inj h).symm, fun h => congrArg lowerAddress h.symm⟩

theorem written_records (htime : block.timestamp.toNat < 253402300800) :
    Records block p addresses (written keccak256 block p addresses) where
  network := rfl
  chainId := bigInt_toString _
  deployedAt := by
    show Calendar.readMicros (isoTimestamp block.timestamp.toNat) = _
    rw [isoTimestamp_eq htime]
    exact Calendar.readMicros_isoSeconds (by omega) (by omega)
  admin := asciiLower_eq_lowerAddress _
  relayer := asciiLower_eq_lowerAddress _
  registry := asciiLower_eq_lowerAddress _
  attestation := asciiLower_eq_lowerAddress _
  escrow := asciiLower_eq_lowerAddress _
  epochDurationSeconds := bigInt_toString _
  slashPolicyCap := bigInt_toString _
  minimumStake := bigInt_toString _
  withdrawCooldownSeconds := bigInt_toString _

/-- what a deployment that is not reverted has checked and written -/
theorem deploy_ok {broadcastSender : Address} {d : Deployed}
    (h : deploy keccak256 block broadcastSender addresses p = .ok d) :
    (p.admin ≠ 0 ∧ p.relayer ≠ 0 ∧ p.admin ≠ p.relayer ∧ p.epochDurationSeconds ≠ 0) ∧
      d.manifest = writeManifest keccak256 block p addresses ∧
      (if 0 < p.zoneIds.length ∧ (p.admin == broadcastSender) = true then
        seedZones keccak256 (seedMsg block p broadcastSender) p.zoneIds NodeRegistry.deploy
      else .ok NodeRegistry.deploy) = .ok d.registry := by
  have hrequire : ∀ {c : Bool} {message : String} {u : Unit}, require c message = .ok u → c = true := by
    intro c message u hc
    unfold require at hc
    split at hc
    · assumption
    · cases hc
  simp only [deploy, Except.bind_eq_ok, Except.pure_eq_ok] at h
  obtain ⟨_, hadmin, _, hrelayer, _, hdiffer, _, hepoch, attestation, -, escrow, -, registry, hregistry, rfl⟩ := h
  exact ⟨⟨bne_iff_ne.mp (hrequire hadmin), bne_iff_ne.mp (hrequire hrelayer), bne_iff_ne.mp (hrequire hdiffer),
    bne_iff_ne.mp (hrequire hepoch)⟩, rfl, hregistry⟩

/-- **Both readers of the manifest read the deployment, every value of it.** -/
theorem manifest_read {engine : Engine} (hengine : engine.ReadsIso) {zod : Zod} (hzod : zod.AcceptsUtc)
    (hfit : Fits block p.network) {broadcastSender : Address} {d : Deployed}
    (h : deploy keccak256 block broadcastSender addresses p = .ok d) :
    ∃ m, parseManifest engine d.manifest = .ok m ∧ loadDeploymentManifest zod d.manifest = some m ∧
      Records block p addresses m := by
  obtain ⟨⟨-, -, -, hepoch⟩, hmanifest, -⟩ := deploy_ok h
  have hform : (written keccak256 block p addresses).WellFormed := written_wellFormed hfit hepoch
  have htime : (written keccak256 block p addresses).deployedAt = Calendar.isoSeconds block.timestamp.toNat :=
    isoTimestamp_eq hfit.timestamp
  have hlate : (block.timestamp.toNat : ℤ) < 253402300800 := by exact_mod_cast hfit.timestamp
  refine ⟨written keccak256 block p addresses, ?_, ?_, written_records hfit.timestamp⟩
  · rw [hmanifest, writeManifest_eq]
    refine parseManifest_text hform ?_
    rw [htime]
    exact hengine _ (Int.natCast_nonneg _) hlate
  · rw [hmanifest, writeManifest_eq]
    refine load_text hform ?_
    rw [htime, Calendar.isoSeconds_eq]
    exact hzod _ _ _ _ (isoSeconds_date (Int.natCast_nonneg _) hlate) (Calendar.civil_valid _) (isoSeconds_seconds _)

end

/-! ## one deployment -/

/-- `Date.parse` on the times in UTC, and nothing else -/
def utcEngine : Engine where
  syntaxError _ := "Unexpected token in JSON"
  parseDate s := if Ingestion.utcDatetime s then some ⟨s, Calendar.readMicros s⟩ else none

theorem utcEngine_readsIso : utcEngine.ReadsIso := by
  intro s hlow hhigh
  have hutc : Ingestion.utcDatetime (Calendar.isoSeconds s) = true := by
    rw [Ingestion.utcDatetime_iff, Calendar.isoSeconds_eq]
    exact Ingestion.isUtc_utcText (isoSeconds_date hlow hhigh) (Calendar.civil_valid _) (isoSeconds_seconds s)
  unfold utcEngine
  dsimp only
  rw [if_pos hutc]
  rfl

def sampleBlock : Block := ⟨968#256, 1767268800#256⟩

/-- addresses without letters, which have one text whatever is hashed -/
def sampleAddresses : Addresses := ⟨(0x30#160).toFin, (0x40#160).toFin, (0x50#160).toFin⟩

/-- the defaults of the script -/
def sampleParams : Params where
  network := "botchainTestnet"
  admin := (0x10#160).toFin
  relayer := (0x20#160).toFin
  epochDurationSeconds := 3600#64
  slashPolicyCap := 500000000000000000#256
  minimumStake := 100000000000000000#256
  withdrawCooldownSeconds := 259200#64
  zoneIds := []

def sampleDeployed : Except String Deployed :=
  deploy (fun _ => 0#256) sampleBlock sampleParams.admin sampleAddresses sampleParams

theorem sampleFits : Fits sampleBlock sampleParams.network where
  plain := plain_of_visible fun _ hc => visible_of_mem (by decide) hc
  trimmed := by decide
  named := by decide
  chainId := by decide
  timestamp := by decide

theorem sampleDeployed_ok : ∃ d, sampleDeployed = .ok d := ⟨_, rfl⟩

theorem manifest_read_sample : ∃ d m, sampleDeployed = .ok d ∧ parseManifest utcEngine d.manifest = .ok m ∧
    loadDeploymentManifest Ingestion.utcZod d.manifest = some m ∧
    Records sampleBlock sampleParams sampleAddresses m := by
  obtain ⟨d, hd⟩ := sampleDeployed_ok
  obtain ⟨m, hscript, hclient, hrecords⟩ := manifest_read utcEngine_readsIso Ingestion.utcZod_acceptsUtc sampleFits hd
  exact ⟨d, m, hd, hscript, hclient, hrecords⟩

end Deployment
