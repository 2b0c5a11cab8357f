import GridProof.Escrow.Contract

/-!
# The uptime attestation contract

`UptimeAttestation.sol` and the functions of `EpochMath.sol` it uses.  A call reverts with an error or
ends in a new state.

* integers are bit vectors of the width of their type, so that the unchecked addition wraps;
* `epochs` is keyed by the pair of zone and epoch start: the hash of a packed pair stands for the pair;
* as in the escrow, a message brings what the role table answers while the call runs;
* `commitEpoch_ok`  a `commitEpoch` that does not revert commits an epoch that was not committed.
-/

namespace UptimeAttestation
open ReputationEscrow (Address Bytes32 Role)

/-! ## messages, events and errors -/

structure Msg where
  sender : Address
  /-- nobody has the key of the zero address -/
  sender_ne : sender ≠ 0
  value : Nat
  timestamp : Nat
  hasRole : Role → Address → Bool

inductive Event where
  | epochCommitted (zoneId : Bytes32) (epochStart : BitVec 64) (uptimeBps : BitVec 16)
      (evidenceHash : Bytes32)
  | epochDurationUpdated (previousDuration newDuration : BitVec 64)

inductive Error where
  | epochAlreadyCommitted (zoneId : Bytes32) (epochStart : BitVec 64)
  | invalidUptimeBps (uptimeBps : BitVec 16)
  | epochNotAligned (epochStart epochDuration : BitVec 64)
  | epochNotYetElapsed (epochStart epochDuration : BitVec 64) (nowTs : Nat)
  | zeroEpochDuration
  /-- `AccessControlUnauthorizedAccount` of the base contract -/
  | unauthorized (account : Address) (role : Role)
  /-- `EnforcedPause` and `ExpectedPause` of the base contract -/
  | enforcedPause
  | expectedPause
  /-- ether sent to a function that is not payable -/
  | notPayable

/-! ## epochs -/

def isAlignedEpoch (epochStart epochDuration : BitVec 64) : Bool :=
  if epochDuration == 0 then false else epochStart % epochDuration == 0

/-- the sum is unchecked -/
def isPastEpoch (epochStart epochDuration nowTs : BitVec 64) : Bool :=
  decide (epochStart + epochDuration ≤ nowTs)

/-- `bps <= BPS_DENOMINATOR` -/
def isValidBps (bps : BitVec 16) : Bool := decide (bps ≤ 10000#16)

theorem isAlignedEpoch_iff {epochStart epochDuration : BitVec 64} :
    isAlignedEpoch epochStart epochDuration = true ↔
      0 < epochDuration.toNat ∧ epochDuration.toNat ∣ epochStart.toNat := by
  unfold isAlignedEpoch
  split
  · rename_i h
    have h0 : epochDuration = 0 := eq_of_beq h
    simp [h0]
  · rename_i h
    have h0 : epochDuration ≠ 0 := fun he => h (beq_iff_eq.mpr he)
    have hpos : 0 < epochDuration.toNat := by
      apply Nat.pos_of_ne_zero
      intro he
      exact h0 (BitVec.eq_of_toNat_eq he)
    rw [beq_iff_eq, Nat.dvd_iff_mod_eq_zero, ← BitVec.toNat_inj, BitVec.toNat_umod]
    exact ⟨fun he => ⟨hpos, he⟩, fun he => he.2⟩

/-- without a wrap the sum is the one of the integers -/
theorem isPastEpoch_iff {epochStart epochDuration nowTs : BitVec 64}
    (h : epochStart.toNat + epochDuration.toNat < 2 ^ 64) :
    isPastEpoch epochStart epochDuration nowTs = true ↔
      epochStart.toNat + epochDuration.toNat ≤ nowTs.toNat := by
  unfold isPastEpoch
  rw [decide_eq_true_eq, BitVec.le_def, BitVec.toNat_add, Nat.mod_eq_of_lt h]

theorem isValidBps_iff {bps : BitVec 16} : isValidBps bps = true ↔ bps.toNat ≤ 10000 := by
  unfold isValidBps
  rw [decide_eq_true_eq, BitVec.le_def]
  rfl

structure Epoch where
  zoneId : Bytes32
  epochStart : BitVec 64
  uptimeBps : BitVec 16
  evidenceHash : Bytes32
  submittedBy : Address
deriving DecidableEq

/-- what a mapping holds where nothing was written -/
def Epoch.zero : Epoch := ⟨0, 0, 0, 0, 0⟩

structure Attestation where
  epochDuration : BitVec 64
  paused : Bool
  epochs : Bytes32 × BitVec 64 → Epoch
  logs : List Event

/-- the constructor; `msg` is of the deployment -/
def deploy (initialEpochDuration : BitVec 64) : Except Error Attestation :=
  if initialEpochDuration = 0 then .error .zeroEpochDuration
  else .ok ⟨initialEpochDuration, false, fun _ => .zero, []⟩

/-! ## functions -/

/-- `if (!c) revert e` -/
def require (c : Bool) (e : Error) : Except Error Unit :=
  if c then .ok () else .error e

def onlyRole (msg : Msg) (role : Role) : Except Error Unit :=
  require (msg.hasRole role msg.sender) (.unauthorized msg.sender role)

def whenNotPaused (s : Attestation) : Except Error Unit := require (!s.paused) .enforcedPause

def notPayable (msg : Msg) : Except Error Unit := require (msg.value == 0) .notPayable

def setEpochDuration (s : Attestation) (msg : Msg) (newDuration : BitVec 64) :
    Except Error Attestation := do
  notPayable msg
  onlyRole msg .defaultAdmin
  require (newDuration != 0) .zeroEpochDuration
  return { s with
    epochDuration := newDuration
    logs := .epochDurationUpdated s.epochDuration newDuration :: s.logs }

def pause (s : Attestation) (msg : Msg) : Except Error Attestation := do
  notPayable msg
  onlyRole msg .pauser
  whenNotPaused s
  return { s with paused := true }

def unpause (s : Attestation) (msg : Msg) : Except Error Attestation := do
  notPayable msg
  onlyRole msg .pauser
  require s.paused .expectedPause
  return { s with paused := false }

def getEpoch (s : Attestation) (zoneId : Bytes32) (epochStart : BitVec 64) : Epoch :=
  s.epochs (zoneId, epochStart)

def isCommitted (s : Attestation) (zoneId : Bytes32) (epochStart : BitVec 64) : Bool :=
  (s.epochs (zoneId, epochStart)).submittedBy != 0

/-- the arguments of `commitEpoch` -/
structure CommitEpoch where
  zoneId : Bytes32
  epochStart : BitVec 64
  uptimeBps : BitVec 16
  evidenceHash : Bytes32
deriving DecidableEq

def commitEpoch (s : Attestation) (msg : Msg) (c : CommitEpoch) : Except Error Attestation := do
  notPayable msg
  onlyRole msg .relayer
  whenNotPaused s
  require (!isCommitted s c.zoneId c.epochStart) (.epochAlreadyCommitted c.zoneId c.epochStart)
  require (isValidBps c.uptimeBps) (.invalidUptimeBps c.uptimeBps)
  require (isAlignedEpoch c.epochStart s.epochDuration) (.epochNotAligned c.epochStart s.epochDuration)
  require (isPastEpoch c.epochStart s.epochDuration (BitVec.ofNat 64 msg.timestamp))
    (.epochNotYetElapsed c.epochStart s.epochDuration msg.timestamp)
  return { s with
    epochs := Function.update s.epochs (c.zoneId, c.epochStart)
      ⟨c.zoneId, c.epochStart, c.uptimeBps, c.evidenceHash, msg.sender⟩
    logs := .epochCommitted c.zoneId c.epochStart c.uptimeBps c.evidenceHash :: s.logs }

/-- the functions that do not write epochs -/
inductive AdminCall where
  | setEpochDuration (newDuration : BitVec 64)
  | pause
  | unpause
deriving DecidableEq

def admin (s : Attestation) (msg : Msg) : AdminCall → Except Error Attestation
  | .setEpochDuration newDuration => setEpochDuration s msg newDuration
  | .pause => pause s msg
  | .unpause => unpause s msg

/-! ## what a call does to the epochs -/

theorem require_eq_ok {c : Bool} {e : Error} {u : Unit} (h : require c e = .ok u) : c = true := by
  unfold require at h
  split at h
  · rename_i hc
    exact hc
  · cases h

theorem admin_epochs {s s' : Attestation} {msg : Msg} {call : AdminCall}
    (h : admin s msg call = .ok s') : s'.epochs = s.epochs := by
  cases call with
  | setEpochDuration newDuration =>
    obtain rfl := Except.eq_of_checks h
    rfl
  | pause =>
    obtain rfl := Except.eq_of_checks h
    rfl
  | unpause =>
    obtain rfl := Except.eq_of_checks h
    rfl

/-- **A `commitEpoch` that does not revert commits an epoch that was not committed, and no other.** -/
theorem commitEpoch_ok {s s' : Attestation} {msg : Msg} {c : CommitEpoch}
    (h : commitEpoch s msg c = .ok s') : isCommitted s c.zoneId c.epochStart = false ∧
    isCommitted s' c.zoneId c.epochStart = true ∧
    ∀ key, key ≠ (c.zoneId, c.epochStart) → s'.epochs key = s.epochs key := by
  obtain ⟨_, -, h⟩ := Except.bind_eq_ok.mp h
  obtain ⟨_, -, h⟩ := Except.bind_eq_ok.mp h
  obtain ⟨_, -, h⟩ := Except.bind_eq_ok.mp h
  obtain ⟨_, hfree, h⟩ := Except.bind_eq_ok.mp h
  obtain ⟨_, -, h⟩ := Except.bind_eq_ok.mp h
  obtain ⟨_, -, h⟩ := Except.bind_eq_ok.mp h
  obtain ⟨_, -, h⟩ := Except.bind_eq_ok.mp h
  cases h
  refine ⟨by simpa using require_eq_ok hfree, ?_, fun key hne => Function.update_of_ne hne _ _⟩
  unfold isCommitted
  dsimp only
  rw [Function.update_self]
  exact bne_iff_ne.mpr msg.sender_ne

end UptimeAttestation
