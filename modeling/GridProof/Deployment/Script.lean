import GridProof.Lib.CivilDate
import GridProof.Lib.Sha256
import GridProof.Blockchain.Attestation
import GridProof.Registry.Contract

/-!
# The deploy script

`Deploy.s.sol`: the three contracts, the zones of the allowlist, and the manifest of the deployment.

* `zoneKey`         a key in hexadecimal as it is, and any other text hashed;
* `isoTimestamp`    the block's time as a text;
* `writeManifest`   the text of the manifest;
* `deploy`          the contracts and the manifest, or the message of the revert.

`keccak256` and the addresses of the contracts are parameters.
-/

namespace Deployment
open ReputationEscrow (Address Bytes32)
open Sha256 (Byte)

/-! ## zone keys -/

def hexNibble (charCode : ℕ) : Except String ℕ :=
  if 48 ≤ charCode ∧ charCode ≤ 57 then .ok (charCode - 48)
  else if 65 ≤ charCode ∧ charCode ≤ 70 then .ok (charCode - 55)
  else if 97 ≤ charCode ∧ charCode ≤ 102 then .ok (charCode - 87)
  else .error "GRIDPROOF_ZONE_IDS contains invalid bytes32 hex"

/-- the loop over the digits; `parsed` is a word -/
def parseDigits : List Byte → Bytes32 → Except String Bytes32
  | [], parsed => .ok parsed
  | b :: bs, parsed =>
    match hexNibble b.toNat with
    | .ok nibble => parseDigits bs (parsed <<< 4 ||| BitVec.ofNat 256 nibble)
    | .error message => .error message

section
variable (keccak256 : List Byte → Bytes32)

def zoneKey (value : String) : Except String Bytes32 :=
  let raw := Sha256.utf8 value
  if raw.length ≠ 66 ∨ raw.getD 0 0 ≠ 48 ∨ raw.getD 1 0 ≠ 120 ∧ raw.getD 1 0 ≠ 88 then .ok (keccak256 raw)
  else parseDigits (raw.drop 2) 0

/-! ## `vm.toString` -/

/-- the digits of a number in hexadecimal, as many as asked for -/
def lowerHex : ℕ → ℕ → List Char
  | 0, _ => []
  | width + 1, n => lowerHex width (n / 16) ++ [Sha256.hexDigit (n % 16)]

/-- an address with its checksum: a letter is a capital where the hash of the digits has a digit of 8 or more -/
def addressText (a : Address) : String :=
  let digits := lowerHex 40 a.val
  let hash := lowerHex 64 (keccak256 (digits.map fun c => BitVec.ofNat 8 c.toNat)).toNat
  String.ofList ('0' :: 'x' :: List.zipWith (fun c h => if '8' ≤ h then c.toUpper else c) digits hash)

/-! ## the time of the block -/

/-- on naturals, since nothing that is subtracted is larger than what it is subtracted from -/
def civilFromDays (daysSinceEpoch : ℕ) : ℕ × ℕ × ℕ :=
  let z := daysSinceEpoch + 719468
  let era := z / 146097
  let doe := z - era * 146097
  let yoe := (doe - doe / 1460 + doe / 36524 - doe / 146096) / 365
  let y := yoe + era * 400
  let doy := doe - (365 * yoe + yoe / 4 - yoe / 100)
  let mp := (5 * doy + 2) / 153
  let d := doy - (153 * mp + 2) / 5 + 1
  let m := if mp < 10 then mp + 3 else mp - 9
  (if m ≤ 2 then y + 1 else y, m, d)

def pad2 (value : ℕ) : String := if value < 10 then "0" ++ toString value else toString value

def isoTimestamp (timestamp : ℕ) : String :=
  let secsOfDay := timestamp % 86400
  let (year, month, day) := civilFromDays (timestamp / 86400)
  toString year ++ "-" ++ pad2 month ++ "-" ++ pad2 day ++ "T" ++ pad2 (secsOfDay / 3600) ++ ":" ++
    pad2 (secsOfDay % 3600 / 60) ++ ":" ++ pad2 (secsOfDay % 60) ++ "Z"

/-! ## the script -/

structure Params where
  network : String
  admin : Address
  relayer : Address
  epochDurationSeconds : BitVec 64
  slashPolicyCap : BitVec 256
  minimumStake : BitVec 256
  withdrawCooldownSeconds : BitVec 64
  zoneIds : List String

structure Block where
  chainId : BitVec 256
  timestamp : BitVec 256

/-- the addresses of the contracts -/
structure Addresses where
  registry : Address
  attestation : Address
  escrow : Address

def writeManifest (block : Block) (p : Params) (addresses : Addresses) : String :=
  let json := "\x7b\n  \"network\": \"" ++ p.network ++ "\",\n"
  let json := json ++ "  \"chainId\": \"" ++ toString block.chainId.toNat ++ "\",\n"
  let json := json ++ "  \"deployedAt\": \"" ++ isoTimestamp block.timestamp.toNat ++ "\",\n"
  let json := json ++ "  \"admin\": \"" ++ addressText keccak256 p.admin ++ "\",\n"
  let json := json ++ "  \"relayer\": \"" ++ addressText keccak256 p.relayer ++ "\",\n"
  let json := json ++ "  \"contracts\": \x7b\n"
  let json := json ++ "    \"NodeRegistry\": \"" ++ addressText keccak256 addresses.registry ++ "\",\n"
  let json := json ++ "    \"UptimeAttestation\": \"" ++ addressText keccak256 addresses.attestation ++ "\",\n"
  let json := json ++ "    \"ReputationEscrow\": \"" ++ addressText keccak256 addresses.escrow ++ "\"\n"
  let json := json ++ "  \x7d,\n"
  let json := json ++ "  \"params\": \x7b\n"
  let json := json ++ "    \"epochDurationSeconds\": \"" ++ toString p.epochDurationSeconds.toNat ++ "\",\n"
  let json := json ++ "    \"slashPolicyCap\": \"" ++ toString p.slashPolicyCap.toNat ++ "\",\n"
  let json := json ++ "    \"minimumStake\": \"" ++ toString p.minimumStake.toNat ++ "\",\n"
  let json := json ++ "    \"withdrawCooldownSeconds\": \"" ++ toString p.withdrawCooldownSeconds.toNat ++ "\"\n"
  json ++ "  \x7d\n\x7d\n"

/-- what the script leaves -/
structure Deployed where
  registry : NodeRegistry.Registry
  attestation : UptimeAttestation.Attestation
  escrow : ReputationEscrow.Escrow
  manifest : String

/-- `require(c, message)` -/
def require (c : Bool) (message : String) : Except String Unit := if c then .ok () else .error message

/-- the loop over the zones -/
def seedZones (msg : NodeRegistry.Msg) : List String → NodeRegistry.Registry → Except String NodeRegistry.Registry
  | [], registry => .ok registry
  | zoneId :: zoneIds, registry => do
    let key ← zoneKey keccak256 zoneId
    let registry ← (NodeRegistry.addZone registry msg key).mapError fun _ => "AccessControlUnauthorizedAccount"
    seedZones msg zoneIds registry

/-- the message of a call of the script to the registry: its only admin is the one of the constructor -/
def seedMsg (block : Block) (p : Params) (broadcastSender : Address) : NodeRegistry.Msg where
  sender := broadcastSender
  value := 0
  timestamp := block.timestamp.toNat
  hasRole _ account := account = p.admin

def deploy (block : Block) (broadcastSender : Address) (addresses : Addresses) (p : Params) :
    Except String Deployed := do
  require (p.admin != 0) "GRIDPROOF_ADMIN_ADDRESS must not be the zero address"
  require (p.relayer != 0) "GRIDPROOF_RELAYER_ADDRESS must not be the zero address"
  require (p.admin != p.relayer) "GRIDPROOF_ADMIN_ADDRESS must differ from GRIDPROOF_RELAYER_ADDRESS"
  require (p.epochDurationSeconds != 0) "GRIDPROOF_EPOCH_DURATION_SECONDS must be > 0"
  let registry := NodeRegistry.deploy
  let attestation ← (UptimeAttestation.deploy p.epochDurationSeconds).mapError fun _ => "ZeroEpochDuration"
  let escrow ← (ReputationEscrow.deploy p.admin p.relayer addresses.registry p.slashPolicyCap.toNat
    p.minimumStake.toNat p.withdrawCooldownSeconds.toNat).mapError fun _ => "ZeroAddress"
  let canSeedZones := p.admin == broadcastSender
  let registry ← (if 0 < p.zoneIds.length ∧ canSeedZones then
    seedZones keccak256 (seedMsg block p broadcastSender) p.zoneIds registry else .ok registry)
  return ⟨registry, attestation, escrow, writeManifest keccak256 block p addresses⟩

end

end Deployment
