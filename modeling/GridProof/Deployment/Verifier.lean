import GridProof.Lib.Json
import GridProof.Ingestion.Signature

/-!
# The checks of a manifest

The script `verify-contract-manifest.ts`, and the schema that the blockchain client reads a manifest with.

* `parseManifest`                      the script's own reader, with its messages;
* `verifyContractDeploymentManifest`   the results of its checks;
* `deploymentManifestSchema`           the reader of the client.
-/

namespace Deployment
open Ingestion (isWalletAddress Zod)
open Pipeline (IsoDate)

structure Contracts where
  NodeRegistry : String
  UptimeAttestation : String
  ReputationEscrow : String
deriving DecidableEq

structure ManifestParams where
  epochDurationSeconds : String
  slashPolicyCap : String
  minimumStake : String
  withdrawCooldownSeconds : String
deriving DecidableEq

structure DeploymentManifest where
  network : String
  chainId : String
  deployedAt : String
  admin : String
  relayer : String
  contracts : Contracts
  params : ManifestParams
deriving DecidableEq

/-! ## the reader of the script -/

/-- `BigInt` of decimal digits -/
def bigInt (s : String) : ℕ := Nat.ofDigitChars 10 s.toList 0

/-- `/^\d+$/` -/
def isDigits (s : String) : Bool := s.toList != [] && s.toList.all Char.isDigit

/-- what `JSON.parse` and `Date.parse` do beyond the grammar -/
structure Engine where
  /-- the message of a text that is no JSON -/
  syntaxError : String → String
  /-- `Date.parse`, absent for a time that is no number -/
  parseDate : String → Option IsoDate

def objectRecord (value : Option Json.Value) : Option Json.Value :=
  match value with
  | some (.object members) => some (.object members)
  | _ => none

def requiredString (value : Option Json.Value) (name : String) : Except String String :=
  match value with
  | some (.string s) =>
    if JsText.trim s = "" then .error (name ++ " must be a non-empty string.") else .ok (JsText.trim s)
  | _ => .error (name ++ " must be a non-empty string.")

def requiredDigits (value : Option Json.Value) (name : String) : Except String String := do
  let normalized ← requiredString value name
  if isDigits normalized then .ok normalized else .error (name ++ " must contain only digits.")

def requiredDateTime (engine : Engine) (value : Option Json.Value) (name : String) : Except String String := do
  let normalized ← requiredString value name
  if (engine.parseDate normalized).isSome then .ok normalized
  else .error (name ++ " must be a valid ISO date-time string.")

/-- `addressPattern` is the one of `walletAddressSchema` -/
def requiredAddress (value : Option Json.Value) (name : String) : Except String String := do
  let normalized ← requiredString value name
  if isWalletAddress normalized then .ok normalized else .error (name ++ " must be an EVM address.")

def parseManifest (engine : Engine) (raw : String) : Except String DeploymentManifest :=
  match Json.parse raw with
  | none => .error (engine.syntaxError raw)
  | some value =>
    match objectRecord (some value) with
    | none => .error "Manifest must be a JSON object."
    | some record =>
      match objectRecord (record.member "contracts"), objectRecord (record.member "params") with
      | none, _ => .error "Manifest contracts must be an object."
      | some _, none => .error "Manifest params must be an object."
      | some contracts, some params => do
        let network ← requiredString (record.member "network") "network"
        let chainId ← requiredDigits (record.member "chainId") "chainId"
        let deployedAt ← requiredDateTime engine (record.member "deployedAt") "deployedAt"
        let admin ← requiredAddress (record.member "admin") "admin"
        let relayer ← requiredAddress (record.member "relayer") "relayer"
        let nodeRegistry ← requiredAddress (contracts.member "NodeRegistry") "contracts.NodeRegistry"
        let uptimeAttestation ← requiredAddress (contracts.member "UptimeAttestation") "contracts.UptimeAttestation"
        let reputationEscrow ← requiredAddress (contracts.member "ReputationEscrow") "contracts.ReputationEscrow"
        let epochDurationSeconds ← requiredDigits (params.member "epochDurationSeconds") "params.epochDurationSeconds"
        let slashPolicyCap ← requiredDigits (params.member "slashPolicyCap") "params.slashPolicyCap"
        let minimumStake ← requiredDigits (params.member "minimumStake") "params.minimumStake"
        let withdrawCooldownSeconds ←
          requiredDigits (params.member "withdrawCooldownSeconds") "params.withdrawCooldownSeconds"
        if bigInt chainId ≤ 0 then .error "chainId must be greater than zero."
        else if bigInt epochDurationSeconds ≤ 0 then
          .error "params.epochDurationSeconds must be greater than zero."
        else .ok ⟨network, chainId, deployedAt, admin, relayer, ⟨nodeRegistry, uptimeAttestation, reputationEscrow⟩,
          ⟨epochDurationSeconds, slashPolicyCap, minimumStake, withdrawCooldownSeconds⟩⟩

/-! ## the checks -/

inductive CheckStatus where
  | pass
  | warn
  | fail
deriving DecidableEq

structure CheckResult where
  name : String
  status : CheckStatus
  detail : String
deriving DecidableEq

def zeroAddress : String := "0x0000000000000000000000000000000000000000"

/-- `env[name]?.trim()`, absent where it is empty -/
def envValue (env : String → Option String) (name : String) : Option String :=
  (env name).bind fun value => if JsText.trim value = "" then none else some (JsText.trim value)

section
variable [JsText.Runtime]

def checkNetworkIdentity (manifest : DeploymentManifest) (env : String → Option String) : CheckResult :=
  match envValue env "BOTCHAIN_CHAIN_ID" with
  | none => ⟨"network_identity", .warn,
      "BOTCHAIN_CHAIN_ID is not set; cannot compare API relayer chain ID to the manifest."⟩
  | some expectedChainId =>
    if expectedChainId ≠ manifest.chainId then
      ⟨"network_identity", .fail,
        "BOTCHAIN_CHAIN_ID=" ++ expectedChainId ++ " does not match manifest chainId=" ++ manifest.chainId ++ "."⟩
    else ⟨"network_identity", .pass,
      "Manifest network " ++ manifest.network ++ " uses chain ID " ++ manifest.chainId ++ "."⟩

def checkActors (manifest : DeploymentManifest) : CheckResult :=
  let admin := JsText.toLowerCase manifest.admin
  let relayer := JsText.toLowerCase manifest.relayer
  if admin = zeroAddress ∨ relayer = zeroAddress then
    ⟨"actors", .fail, "Admin and relayer must not be the zero address."⟩
  else if admin = relayer then
    ⟨"actors", .fail,
      "Admin and relayer are the same address; use a multisig/admin wallet separate from the hot relayer."⟩
  else ⟨"actors", .pass, "Manifest uses separate non-zero admin and relayer addresses."⟩

/-- `Object.values(manifest.contracts)` in lower case -/
def contractAddresses (manifest : DeploymentManifest) : List String :=
  [manifest.contracts.NodeRegistry, manifest.contracts.UptimeAttestation, manifest.contracts.ReputationEscrow].map
    JsText.toLowerCase

def checkContracts (manifest : DeploymentManifest) : CheckResult :=
  let addresses := contractAddresses manifest
  if zeroAddress ∈ addresses then
    ⟨"contract_addresses", .fail, "Contract addresses must not include the zero address."⟩
  else if addresses.dedup.length ≠ addresses.length then
    ⟨"contract_addresses", .fail, "Contract addresses must be unique."⟩
  else ⟨"contract_addresses", .pass,
    "NodeRegistry, UptimeAttestation, and ReputationEscrow addresses are unique and non-zero."⟩

def checkParams (manifest : DeploymentManifest) : CheckResult :=
  if 86400 < bigInt manifest.params.epochDurationSeconds then
    ⟨"contract_params", .warn,
      "Epoch duration is longer than one day; confirm this is intentional for the demo cadence."⟩
  else if bigInt manifest.params.withdrawCooldownSeconds = 0 then
    ⟨"contract_params", .warn, "Withdraw cooldown is zero; acceptable for local tests, but document the risk before " ++
      "a live fallback-mode demo."⟩
  else ⟨"contract_params", .pass, "Epoch duration and escrow timing parameters are non-zero and demo-compatible."⟩

def compareAddressEnv (name envName manifestAddress : String) (env : String → Option String) : CheckResult :=
  match envValue env envName with
  | none => ⟨name, .warn,
      envName ++ " is not set; set it to " ++ manifestAddress ++ " in the API service before live submission."⟩
  | some value =>
    if !isWalletAddress value then ⟨name, .fail, envName ++ " is not a valid EVM address."⟩
    else if JsText.toLowerCase value ≠ JsText.toLowerCase manifestAddress then
      ⟨name, .fail, envName ++ "=" ++ value ++ " does not match manifest address " ++ manifestAddress ++ "."⟩
    else ⟨name, .pass, envName ++ " matches the deployment manifest."⟩

def checkApiEnvAlignment (manifest : DeploymentManifest) (env : String → Option String) : List CheckResult :=
  [compareAddressEnv "env_node_registry" "BOTCHAIN_NODE_REGISTRY_ADDRESS" manifest.contracts.NodeRegistry env,
    compareAddressEnv "env_uptime_attestation" "BOTCHAIN_UPTIME_ATTESTATION_ADDRESS"
      manifest.contracts.UptimeAttestation env,
    compareAddressEnv "env_reputation_escrow" "BOTCHAIN_REPUTATION_ESCROW_ADDRESS"
      manifest.contracts.ReputationEscrow env]

/-! ## the script -/

/-- `resolve`, and the files -/
structure Files where
  resolve : List String → String
  fileExists : String → Bool
  /-- or the message of what it throws -/
  readFile : String → Except String String

def contractManifestPathFromEnv (files : Files) (env : String → Option String) : String :=
  match envValue env "GRIDPROOF_CONTRACT_MANIFEST_PATH" with
  | some explicitPath => files.resolve [explicitPath]
  | none =>
    match envValue env "GRIDPROOF_CONTRACT_NETWORK" with
    | some network => files.resolve ["smart-contracts", "deployments", network ++ ".json"]
    | none => files.resolve ["smart-contracts", "deployments", "botchainTestnet.json"]

def verifyContractDeploymentManifest (engine : Engine) (files : Files) (env : String → Option String) :
    List CheckResult :=
  let manifestPath := contractManifestPathFromEnv files env
  if !files.fileExists manifestPath then
    [⟨"manifest_file", .fail, "No deployment manifest found at " ++ manifestPath ++
      ". Run the Forge deploy script first: forge script script/Deploy.s.sol:Deploy --root smart-contracts " ++
      "--rpc-url \"$BOTCHAIN_RPC_URL\" --broadcast"⟩]
  else
    let loaded : CheckResult := ⟨"manifest_file", .pass, "Loaded " ++ manifestPath ++ "."⟩
    match (files.readFile manifestPath).bind (parseManifest engine) with
    | .error message => [loaded, ⟨"manifest_shape", .fail, message⟩]
    | .ok manifest =>
      loaded :: ⟨"manifest_shape", .pass, "Deployment manifest has the expected GridProof shape."⟩ ::
        checkNetworkIdentity manifest env :: checkActors manifest :: checkContracts manifest :: checkParams manifest ::
        checkApiEnvAlignment manifest env

/-- the exit code -/
def exitCode (checks : List CheckResult) : ℕ := if checks.any fun check => check.status = .fail then 1 else 0

end

/-! ## the reader of the client -/

def textMember (name : String) (accepts : String → Bool) (record : Json.Value) : Option String :=
  match record.member name with
  | some (.string s) => if accepts s then some s else none
  | _ => none

def deploymentManifestSchema (zod : Zod) (value : Json.Value) : Option DeploymentManifest := do
  let record ← objectRecord (some value)
  let network ← textMember "network" (fun s => 1 ≤ JsText.utf16Length s) record
  let chainId ← textMember "chainId" isDigits record
  let deployedAt ← textMember "deployedAt" zod.datetime record
  let admin ← textMember "admin" isWalletAddress record
  let relayer ← textMember "relayer" isWalletAddress record
  let contracts ← objectRecord (record.member "contracts")
  let nodeRegistry ← textMember "NodeRegistry" isWalletAddress contracts
  let uptimeAttestation ← textMember "UptimeAttestation" isWalletAddress contracts
  let reputationEscrow ← textMember "ReputationEscrow" isWalletAddress contracts
  let params ← objectRecord (record.member "params")
  let epochDurationSeconds ← textMember "epochDurationSeconds" isDigits params
  let slashPolicyCap ← textMember "slashPolicyCap" isDigits params
  let minimumStake ← textMember "minimumStake" isDigits params
  let withdrawCooldownSeconds ← textMember "withdrawCooldownSeconds" isDigits params
  return ⟨network, chainId, deployedAt, admin, relayer, ⟨nodeRegistry, uptimeAttestation, reputationEscrow⟩,
    ⟨epochDurationSeconds, slashPolicyCap, minimumStake, withdrawCooldownSeconds⟩⟩

/-- `loadDeploymentManifest`, once the file is read -/
def loadDeploymentManifest (zod : Zod) (raw : String) : Option DeploymentManifest :=
  (Json.parse raw).bind (deploymentManifestSchema zod)

end Deployment
