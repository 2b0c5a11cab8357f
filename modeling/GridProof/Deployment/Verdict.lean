import GridProof.Deployment.Manifest

/-!
# The verdict on a manifest

When the verification script accepts the manifest that a deployment wrote.

* `compareAddressEnv_ok`   a variable that names a contract is unset, or is its address in any case;
* `checkContracts_ok`      the addresses of the contracts are three, and none is zero;
* `verdict`                the exit code of the script.
-/

namespace Deployment
open ReputationEscrow (Address Bytes32)
open Sha256 (Byte)
open Ingestion (isWalletAddress)
open Firmware (LowersAscii)

/-! ## what the environment says -/

def Addresses.all (addresses : Addresses) : List Address :=
  [addresses.registry, addresses.attestation, addresses.escrow]

/-- a variable is unset, or it is the address in any case -/
def EnvNames (env : String → Option String) (name : String) (a : Address) : Prop :=
  ∀ value, envValue env name = some value → isWalletAddress value = true ∧ JsText.asciiLower value = lowerAddress a

structure Aligned (env : String → Option String) (block : Block) (addresses : Addresses) : Prop where
  chainId : ∀ value, envValue env "BOTCHAIN_CHAIN_ID" = some value → value = toString block.chainId.toNat
  nonzero : 0 ∉ addresses.all
  distinct : addresses.all.Nodup
  registry : EnvNames env "BOTCHAIN_NODE_REGISTRY_ADDRESS" addresses.registry
  attestation : EnvNames env "BOTCHAIN_UPTIME_ATTESTATION_ADDRESS" addresses.attestation
  escrow : EnvNames env "BOTCHAIN_REPUTATION_ESCROW_ADDRESS" addresses.escrow

/-! ## the checks -/

theorem warn_ne_fail : CheckStatus.warn ≠ .fail := by decide

theorem pass_ne_fail : CheckStatus.pass ≠ .fail := by decide

theorem checkParams_ok (m : DeploymentManifest) : (checkParams m).status ≠ .fail := by
  unfold checkParams
  split
  · exact warn_ne_fail
  · split
    · exact warn_ne_fail
    · exact pass_ne_fail

theorem checkNetworkIdentity_ok (env : String → Option String) (m : DeploymentManifest) :
    (checkNetworkIdentity m env).status ≠ .fail ↔
      ∀ value, envValue env "BOTCHAIN_CHAIN_ID" = some value → value = m.chainId := by
  unfold checkNetworkIdentity
  cases envValue env "BOTCHAIN_CHAIN_ID" with
  | none => exact iff_of_true warn_ne_fail fun _ h => nomatch h
  | some value =>
    dsimp only
    split
    · rename_i hne
      exact iff_of_false (fun h => h rfl) fun h => hne (h value rfl)
    · rename_i heq
      refine iff_of_true pass_ne_fail fun other h => ?_
      rw [← Option.some.inj h]
      exact not_not.mp heq

section
variable [JsText.Runtime]

theorem compareAddressEnv_ok (env : String → Option String) (name envName manifestAddress : String) :
    (compareAddressEnv name envName manifestAddress env).status ≠ .fail ↔
      ∀ value, envValue env envName = some value →
        isWalletAddress value = true ∧ JsText.toLowerCase value = JsText.toLowerCase manifestAddress := by
  unfold compareAddressEnv
  cases envValue env envName with
  | none => exact iff_of_true warn_ne_fail fun _ h => nomatch h
  | some value =>
    dsimp only
    split
    · rename_i hform
      refine iff_of_false (fun h => h rfl) fun h => ?_
      rw [(h value rfl).1] at hform
      exact absurd hform (by decide)
    · rename_i hform
      split
      · rename_i hne
        exact iff_of_false (fun h => h rfl) fun h => hne (h value rfl).2
      · rename_i heq
        refine iff_of_true pass_ne_fail fun other h => ?_
        rw [← Option.some.inj h]
        exact ⟨by simpa using hform, not_not.mp heq⟩

theorem checkActors_ok (m : DeploymentManifest) : (checkActors m).status ≠ .fail ↔
    JsText.toLowerCase m.admin ≠ zeroAddress ∧ JsText.toLowerCase m.relayer ≠ zeroAddress ∧
      JsText.toLowerCase m.admin ≠ JsText.toLowerCase m.relayer := by
  unfold checkActors
  dsimp only
  split
  · rename_i hzero
    exact iff_of_false (fun h => h rfl) fun h => hzero.elim h.1 h.2.1
  · rename_i hzero
    split
    · rename_i heq
      exact iff_of_false (fun h => h rfl) fun h => h.2.2 heq
    · rename_i hne
      exact iff_of_true pass_ne_fail ⟨fun h => hzero (.inl h), fun h => hzero (.inr h), hne⟩

theorem checkContracts_ok (m : DeploymentManifest) : (checkContracts m).status ≠ .fail ↔
    zeroAddress ∉ contractAddresses m ∧ (contractAddresses m).Nodup := by
  have hdedup : (contractAddresses m).dedup.length = (contractAddresses m).length ↔ (contractAddresses m).Nodup :=
    ⟨fun h => List.dedup_eq_self.mp ((List.dedup_sublist _).eq_of_length h),
      fun h => congrArg List.length (List.dedup_eq_self.mpr h)⟩
  unfold checkContracts
  dsimp only
  split
  · rename_i hzero
    exact iff_of_false (fun h => h rfl) fun h => h.1 hzero
  · rename_i hzero
    split
    · rename_i hne
      exact iff_of_false (fun h => h rfl) fun h => hne (hdedup.mpr h.2)
    · rename_i heq
      exact iff_of_true pass_ne_fail ⟨hzero, hdedup.mp (not_not.mp heq)⟩

end

/-! ## the script -/

theorem exitCode_eq_zero (checks : List CheckResult) :
    exitCode checks = 0 ↔ ∀ check ∈ checks, check.status ≠ .fail := by
  unfold exitCode
  split
  · rename_i hany
    obtain ⟨check, hmem, hfail⟩ := List.any_eq_true.mp hany
    exact iff_of_false Nat.one_ne_zero fun h => h check hmem (of_decide_eq_true hfail)
  · rename_i hnone
    exact iff_of_true rfl fun check hmem hfail => hnone (List.any_eq_true.mpr ⟨check, hmem, decide_eq_true hfail⟩)

/-- the checks of a manifest that is read -/
theorem exitCode_read [JsText.Runtime] {engine : Engine} {files : Files} {env : String → Option String}
    (hexists : files.fileExists (contractManifestPathFromEnv files env) = true) {raw : String}
    (hfile : files.readFile (contractManifestPathFromEnv files env) = .ok raw) {m : DeploymentManifest}
    (hread : parseManifest engine raw = .ok m) :
    exitCode (verifyContractDeploymentManifest engine files env) = 0 ↔
      (checkNetworkIdentity m env).status ≠ .fail ∧ (checkActors m).status ≠ .fail ∧
        (checkContracts m).status ≠ .fail ∧ ∀ check ∈ checkApiEnvAlignment m env, check.status ≠ .fail := by
  have hbind : (files.readFile (contractManifestPathFromEnv files env)).bind (parseManifest engine) = .ok m := by
    rw [hfile]
    exact hread
  rw [exitCode_eq_zero]
  unfold verifyContractDeploymentManifest
  dsimp only
  rw [hexists, hbind]
  simp only [Bool.not_true, Bool.false_eq_true, if_false, List.forall_mem_cons]
  constructor
  · rintro ⟨-, -, hnetwork, hactors, hcontracts, -, henv⟩
    exact ⟨hnetwork, hactors, hcontracts, henv⟩
  · rintro ⟨hnetwork, hactors, hcontracts, henv⟩
    exact ⟨pass_ne_fail, pass_ne_fail, hnetwork, hactors, hcontracts, checkParams_ok m, henv⟩

section
variable [JsText.Runtime] (hlower : LowersAscii) {keccak256 : List Byte → Bytes32}
include hlower

theorem lower_wallet {s : String} (h : isWalletAddress s = true) : JsText.toLowerCase s = JsText.asciiLower s :=
  hlower s fun c hc => Nat.lt_succ_of_lt (visible_of_wallet h c hc).1.2

theorem lower_addressText (a : Address) : JsText.toLowerCase (addressText keccak256 a) = lowerAddress a := by
  rw [lower_wallet hlower (addressText_wallet keccak256 a), asciiLower_addressText]

theorem envNames_iff (env : String → Option String) (name envName : String) (a : Address) :
    (compareAddressEnv name envName (addressText keccak256 a) env).status ≠ .fail ↔ EnvNames env envName a := by
  rw [compareAddressEnv_ok]
  unfold EnvNames
  refine forall_congr' fun value => imp_congr_right fun _ => and_congr_right fun hform => ?_
  rw [lower_wallet hlower hform, lower_addressText hlower]

variable {block : Block} {p : Params} {addresses : Addresses}

theorem contractAddresses_written :
    contractAddresses (written keccak256 block p addresses) = addresses.all.map lowerAddress := by
  show [JsText.toLowerCase (addressText keccak256 addresses.registry),
    JsText.toLowerCase (addressText keccak256 addresses.attestation),
    JsText.toLowerCase (addressText keccak256 addresses.escrow)] = _
  rw [lower_addressText hlower, lower_addressText hlower, lower_addressText hlower]
  rfl

/-- **The verification script accepts the manifest of a deployment exactly where the environment names it.** -/
theorem verdict {engine : Engine} (hengine : engine.ReadsIso) (hfit : Fits block p.network) {broadcastSender : Address}
    {d : Deployed} (h : deploy keccak256 block broadcastSender addresses p = .ok d) {files : Files}
    {env : String → Option String} (hexists : files.fileExists (contractManifestPathFromEnv files env) = true)
    (hfile : files.readFile (contractManifestPathFromEnv files env) = .ok d.manifest) :
    exitCode (verifyContractDeploymentManifest engine files env) = 0 ↔ Aligned env block addresses := by
  have hzero : zeroAddress = lowerAddress 0 := by decide
  obtain ⟨⟨hadmin, hrelayer, hdiffer, hepoch⟩, hmanifest, -⟩ := deploy_ok h
  have hread : parseManifest engine d.manifest = .ok (written keccak256 block p addresses) := by
    rw [hmanifest, writeManifest_eq]
    refine parseManifest_text (written_wellFormed hfit hepoch) ?_
    show (engine.parseDate (isoTimestamp block.timestamp.toNat)).isSome = true
    rw [isoTimestamp_eq hfit.timestamp]
    exact hengine _ (Int.natCast_nonneg _) (by exact_mod_cast hfit.timestamp)
  have hactors : (checkActors (written keccak256 block p addresses)).status ≠ .fail := by
    rw [checkActors_ok]
    show JsText.toLowerCase (addressText keccak256 p.admin) ≠ _ ∧
      JsText.toLowerCase (addressText keccak256 p.relayer) ≠ _ ∧
      JsText.toLowerCase (addressText keccak256 p.admin) ≠ JsText.toLowerCase (addressText keccak256 p.relayer)
    rw [lower_addressText hlower, lower_addressText hlower, hzero]
    exact ⟨lowerAddress_inj.mt hadmin, lowerAddress_inj.mt hrelayer, lowerAddress_inj.mt hdiffer⟩
  have hcontracts : (checkContracts (written keccak256 block p addresses)).status ≠ .fail ↔
      0 ∉ addresses.all ∧ addresses.all.Nodup := by
    rw [checkContracts_ok, contractAddresses_written hlower, hzero,
      List.mem_map_of_injective fun _ _ => lowerAddress_inj, List.nodup_map_iff fun _ _ => lowerAddress_inj]
  have henv : (∀ check ∈ checkApiEnvAlignment (written keccak256 block p addresses) env, check.status ≠ .fail) ↔
      EnvNames env "BOTCHAIN_NODE_REGISTRY_ADDRESS" addresses.registry ∧
        EnvNames env "BOTCHAIN_UPTIME_ATTESTATION_ADDRESS" addresses.attestation ∧
        EnvNames env "BOTCHAIN_REPUTATION_ESCROW_ADDRESS" addresses.escrow := by
    unfold checkApiEnvAlignment
    rw [List.forall_mem_cons, List.forall_mem_cons, List.forall_mem_singleton]
    exact and_congr (envNames_iff hlower env _ _ _)
      (and_congr (envNames_iff hlower env _ _ _) (envNames_iff hlower env _ _ _))
  rw [exitCode_read hexists hfile hread, checkNetworkIdentity_ok, hcontracts, henv]
  constructor
  · rintro ⟨hchain, -, ⟨hnonzero, hdistinct⟩, hregistry, hattestation, hescrow⟩
    exact ⟨hchain, hnonzero, hdistinct, hregistry, hattestation, hescrow⟩
  · rintro ⟨hchain, hnonzero, hdistinct, hregistry, hattestation, hescrow⟩
    exact ⟨hchain, hactors, ⟨hnonzero, hdistinct⟩, hregistry, hattestation, hescrow⟩

end

/-! ## one deployment -/

/-- the folder of the repository, with the manifest of the test network -/
def sampleFiles (d : Deployed) : Files where
  resolve := String.intercalate "/"
  fileExists path := path = "smart-contracts/deployments/botchainTestnet.json"
  readFile path :=
    if path = "smart-contracts/deployments/botchainTestnet.json" then .ok d.manifest else .error "no such file"

/-- the chain and one contract, the address with a blank before it -/
def sampleEnvironment (name : String) : Option String :=
  if name = "BOTCHAIN_CHAIN_ID" then some "968"
  else if name = "BOTCHAIN_NODE_REGISTRY_ADDRESS" then some " 0x0000000000000000000000000000000000000030"
  else none

theorem sample_aligned : Aligned sampleEnvironment sampleBlock sampleAddresses where
  chainId value h := (Option.some.inj h).symm
  nonzero := by decide
  distinct := by decide
  registry value h := by
    have hvalue : value = "0x0000000000000000000000000000000000000030" := (Option.some.inj h).symm
    rw [hvalue]
    decide
  attestation value h := nomatch h
  escrow value h := nomatch h

theorem verdict_sample : letI := JsText.asciiRuntime
    ∃ d, sampleDeployed = .ok d ∧
      exitCode (verifyContractDeploymentManifest utcEngine (sampleFiles d) sampleEnvironment) = 0 := by
  let := JsText.asciiRuntime
  obtain ⟨d, hd⟩ := sampleDeployed_ok
  exact ⟨d, hd, (verdict (fun _ _ => rfl) utcEngine_readsIso sampleFits hd rfl rfl).mpr sample_aligned⟩

end Deployment
