import GridProof.Blockchain.Encoding
import GridProof.Deployment.Script
import GridProof.Ingestion.Providers
import GridProof.Ingestion.Signature
import GridProof.Lib.AbiWord
import GridProof.Registry.Contract

/-!
# Registration by the provider's own wallet

`chain-registration.ts`: the call that the API hands to a wallet, and what it reads of the registry.

* `encodeNodeRegistryRegisterCall`   the call data of the client;
* `decodeCall`                       how the contract reads call data;
* `providerChainRegistrationFor`     the answer of the API.

`keccak256` and the node that the client talks to are parameters.
-/

namespace SelfService
open ReputationEscrow (Address Bytes32)
open Sha256 (Byte)
open Ingestion (EvidenceSource RegisterProviderRequest isWalletAddress)
open Pipeline (IsoDate Zone bytes32 hexValue sha256Hex)

/-! ## call data -/

section
variable (keccak256 : List Byte → Bytes32)

/-- the bytes that name a function -/
def selector (signature : String) : List Byte := (Abi.word (keccak256 (Sha256.utf8 signature))).take 4

/-- `providerTypeSchema` -/
abbrev ProviderType := EvidenceSource

def providerTypeIdFor : ProviderType → BitVec 8
  | .sensor => 0
  | .reporter => 1

/-- `encodeFunctionData` of the arguments; the check of the key throws -/
def encodeNodeRegistryRegisterCall (zoneId : String) (providerType : ProviderType) : Option String :=
  (bytes32 zoneId).map fun key =>
    "0x" ++ Sha256.hex (selector keccak256 "register(bytes32,uint8)" ++
      (Abi.word key ++ Abi.word ((providerTypeIdFor providerType).setWidth 256)))

/-- the functions of the contract that write, as the compiler dispatches them; an argument out of the range of its
type reverts -/
def decodeCall (data : List Byte) : Option NodeRegistry.Call :=
  let function := data.take 4
  let args := data.drop 4
  if function = selector keccak256 "addZone(bytes32)" then (Abi.argument args 0).map .addZone
  else if function = selector keccak256 "removeZone(bytes32)" then (Abi.argument args 0).map .removeZone
  else if function = selector keccak256 "pause()" then some .pause
  else if function = selector keccak256 "unpause()" then some .unpause
  else if function = selector keccak256 "register(bytes32,uint8)" then do
    let zoneId ← Abi.argument args 0
    let providerType ← Abi.argument args 1
    if providerType.toNat < 2 ^ 8 then some (.register zoneId (providerType.setWidth 8)) else none
  else if function = selector keccak256 "deactivate(address)" then do
    let provider ← Abi.argument args 0
    if provider.toNat < 2 ^ 160 then some (.deactivate (provider.setWidth 160).toFin) else none
  else none

/-- the compiler refuses a contract that has two functions with one selector -/
def Dispatches : Prop :=
  (["addZone(bytes32)", "removeZone(bytes32)", "pause()", "unpause()", "register(bytes32,uint8)",
    "deactivate(address)"].map (selector keccak256)).Nodup

instance : Decidable (Dispatches keccak256) := inferInstanceAs (Decidable (List.Nodup _))

end

/-! ## the call as a text -/

/-- two digits a byte -/
def pairs : List ℕ → List Byte
  | high :: low :: digits => BitVec.ofNat 8 (16 * high + low) :: pairs digits
  | _ => []

/-- the bytes of `0x` and hexadecimal digits, as a wallet sends them -/
def dataBytes (text : String) : Option (List Byte) := ((text.toList.drop 2).mapM hexValue).map pairs

/-! ## what the client reads -/

/-- a word of thirty-two bytes as the client shows it -/
def bytes32Text (w : Bytes32) : String := String.ofList ('0' :: 'x' :: Deployment.lowerHex 64 w.toNat)

structure NodeRegistryProvider where
  zoneId : String
  providerTypeId : BitVec 8
  registeredAt : ℕ
  active : Bool

structure ClientConfig where
  rpcUrl : String
  relayerPrivateKey : String
  nodeRegistry : String
  uptimeAttestation : String
  reputationEscrow : String

/-- the library of the client, and the node behind it -/
structure Node where
  /-- the constructor of the client does not throw -/
  accepts : ClientConfig → Bool
  /-- `getProvider` of the contract, absent where the call throws -/
  getProvider : String → Option NodeRegistry.Provider

/-- absent where it throws -/
def getProviderRegistration (node : Node) (providerWallet : String) : Option NodeRegistryProvider :=
  if !isWalletAddress providerWallet then none
  else (node.getProvider providerWallet).bind fun provider =>
    if provider.providerType ≠ 0 ∧ provider.providerType ≠ 1 then none
    else some ⟨bytes32Text provider.zoneId, provider.providerType, provider.registeredAt.toNat, provider.active⟩

/-! ## the answer of the API -/

structure OnChain where
  active : Bool
  zoneKey : String
  providerTypeId : BitVec 8
  matchesRequest : Bool
  checkedAt : IsoDate

/-- `toContract` is the field `to` -/
structure RegisterCall where
  toContract : Option String
  functionName : String
  args : String × BitVec 8
  data : Option String

structure ProviderChainRegistration where
  configured : Bool
  mode : String
  chainId : Option String
  contractAddress : Option String
  explorerUrl : Option String
  providerWallet : String
  providerType : ProviderType
  providerTypeId : BitVec 8
  zoneId : String
  zoneKey : String
  registerCall : RegisterCall
  onChain : Option OnChain
  reason : String

abbrev ProcessEnv := String → Option String

def bytes32From (value : String) : String := "0x" ++ sha256Hex value

/-- the rows of `zones`, or those of the demonstration without a database.  Zone ids are compared as texts; the column
is a uuid and takes an id in capitals too. -/
def zoneKeyForProviderRegistration (zones : List Zone) (zoneId : String) : String :=
  ((zones.find? fun zone => zone.id = zoneId).map Zone.zoneKey).getD (bytes32From ("zone:" ++ zoneId))

/-- a variable that is set and not empty -/
def truthy (value : Option String) : Option String := value.filter fun s => s ≠ ""

/-- `url.replace(/\/$/, "")` -/
def withoutSlash (url : String) : String :=
  if url.toList.getLast? = some '/' then String.ofList url.toList.dropLast else url

def providerExplorerUrl (providerWallet : String) (explorerBaseUrl : Option String) : Option String :=
  (truthy explorerBaseUrl).map fun url => withoutSlash url ++ "/address/" ++ providerWallet

/-- no client, a client, or what its constructor throws -/
def createClientFromEnv (node : Node) (env : ProcessEnv) : Option (Option ClientConfig) :=
  match truthy (env "BOTCHAIN_RPC_URL"), truthy (env "RELAYER_PRIVATE_KEY"),
    truthy (env "BOTCHAIN_NODE_REGISTRY_ADDRESS"), truthy (env "BOTCHAIN_UPTIME_ATTESTATION_ADDRESS"),
    truthy (env "BOTCHAIN_REPUTATION_ESCROW_ADDRESS") with
  | some rpcUrl, some relayerPrivateKey, some nodeRegistry, some uptimeAttestation, some reputationEscrow =>
    let config : ClientConfig := ⟨rpcUrl, relayerPrivateKey, nodeRegistry, uptimeAttestation, reputationEscrow⟩
    if node.accepts config then some (some config) else none
  | _, _, _, _, _ => some none

section
variable [JsText.Runtime] (keccak256 : List Byte → Bytes32)

def readOnChainRegistration (node : Node) (env : ProcessEnv) (now : IsoDate) (input : RegisterProviderRequest)
    (expectedZoneKey : String) (expectedProviderTypeId : BitVec 8) : Option (Option OnChain) :=
  (createClientFromEnv node env).map fun client =>
    client.bind fun _ => (getProviderRegistration node input.walletAddress).map fun registration =>
      { active := registration.active
        zoneKey := registration.zoneId
        providerTypeId := registration.providerTypeId
        matchesRequest := registration.active &&
          decide (JsText.toLowerCase registration.zoneId = JsText.toLowerCase expectedZoneKey) &&
          decide (registration.providerTypeId = expectedProviderTypeId)
        checkedAt := now }

/-- absent where it throws -/
def providerChainRegistrationFor (zones : List Zone) (node : Node) (env : ProcessEnv) (now : IsoDate)
    (input : RegisterProviderRequest) : Option ProviderChainRegistration := do
  let providerWallet := JsText.toLowerCase input.walletAddress
  let zoneKey := zoneKeyForProviderRegistration zones input.zoneId
  let providerTypeId := providerTypeIdFor input.providerType
  let contractAddress := env "BOTCHAIN_NODE_REGISTRY_ADDRESS"
  let chainId := (env "BOTCHAIN_CHAIN_ID").or (env "BOTCHAIN_TESTNET_CHAIN_ID")
  let explorerUrl := providerExplorerUrl providerWallet (env "BOTCHAIN_EXPLORER_BASE_URL")
  let configured := (truthy contractAddress).isSome && (truthy chainId).isSome
  let data ← (match truthy contractAddress with
    | some _ => (encodeNodeRegistryRegisterCall keccak256 zoneKey input.providerType).map some
    | none => some none)
  let onChain ← readOnChainRegistration node env now input zoneKey providerTypeId
  return {
    configured := configured
    mode := "wallet_self_service"
    chainId := chainId
    contractAddress := contractAddress
    explorerUrl := explorerUrl
    providerWallet := providerWallet
    providerType := input.providerType
    providerTypeId := providerTypeId
    zoneId := input.zoneId
    zoneKey := zoneKey
    registerCall := ⟨contractAddress, "register", (zoneKey, providerTypeId), data⟩
    onChain := onChain
    reason := if configured then
        "Provider must call NodeRegistry.register from their own wallet; the backend cannot register a different " ++
          "msg.sender."
      else "Set BOTCHAIN_NODE_REGISTRY_ADDRESS and BOTCHAIN_CHAIN_ID after deployment to enable wallet " ++
        "self-registration." }

end

end SelfService
