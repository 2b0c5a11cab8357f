import GridProof.Lib.Trail
import GridProof.Escrow.Contract

/-!
# The node registry contract

`NodeRegistry.sol`, function by function, in the manner of the escrow: a function takes the contract's state
and the message of the call and either reverts with an error or ends in a new state.

* `Effect`   what a call that does not revert has done, with the checks it has passed.
-/

namespace NodeRegistry
open ReputationEscrow (Address Bytes32 Role)
open Except (bind_eq_ok pure_eq_ok)

/-! ## messages, events and errors -/

/-- a call's context: `hasRole` is the answer of the role table while the call runs -/
structure Msg where
  sender : Address
  value : Nat
  timestamp : Nat
  hasRole : Role → Address → Bool

/-- `uint64(block.timestamp)` -/
def Msg.time (msg : Msg) : BitVec 64 := BitVec.ofNat 64 msg.timestamp

inductive Event where
  | providerRegistered (provider : Address) (zoneId : Bytes32) (providerType : BitVec 8)
  | providerDeactivated (provider actor : Address)
  | zoneAdded (zoneId : Bytes32)
  | zoneRemoved (zoneId : Bytes32)

inductive Error where
  | zoneNotAllowed (zoneId : Bytes32)
  | invalidProviderType (providerType : BitVec 8)
  | alreadyRegisteredAndActive (provider : Address)
  | notRegistered (provider : Address)
  | alreadyInactive (provider : Address)
  | notAuthorizedToDeactivate (caller provider : Address)
  /-- `AccessControlUnauthorizedAccount` of the base contract -/
  | unauthorized (account : Address) (role : Role)
  /-- `EnforcedPause` and `ExpectedPause` of the base contract -/
  | enforcedPause
  | expectedPause
  /-- ether sent to a function that is not payable -/
  | notPayable

/-! ## state -/

def providerTypeSensorNode : BitVec 8 := 0
def providerTypeHumanReporter : BitVec 8 := 1

structure Provider where
  zoneId : Bytes32
  providerType : BitVec 8
  registeredAt : BitVec 64
  active : Bool
deriving DecidableEq

/-- what a mapping holds where nothing was written -/
def Provider.zero : Provider := ⟨0, 0, 0, false⟩

structure Registry where
  providers : Address → Provider
  validZones : Bytes32 → Bool
  paused : Bool
  logs : List Event

/-- the constructor -/
def deploy : Registry := ⟨fun _ => .zero, fun _ => false, false, []⟩

namespace Registry

def isActive (s : Registry) (provider : Address) : Bool := (s.providers provider).active

def getProvider (s : Registry) (provider : Address) : Provider := s.providers provider

end Registry

/-! ## functions -/

/-- `if (!c) revert e` -/
def require (c : Bool) (e : Error) : Except Error Unit :=
  if c then .ok () else .error e

def onlyRole (msg : Msg) (role : Role) : Except Error Unit :=
  require (msg.hasRole role msg.sender) (.unauthorized msg.sender role)

def whenNotPaused (s : Registry) : Except Error Unit := require (!s.paused) .enforcedPause

def notPayable (msg : Msg) : Except Error Unit := require (msg.value == 0) .notPayable

def addZone (s : Registry) (msg : Msg) (zoneId : Bytes32) : Except Error Registry := do
  notPayable msg
  onlyRole msg .defaultAdmin
  return { s with
    validZones := Function.update s.validZones zoneId true
    logs := .zoneAdded zoneId :: s.logs }

def removeZone (s : Registry) (msg : Msg) (zoneId : Bytes32) : Except Error Registry := do
  notPayable msg
  onlyRole msg .defaultAdmin
  return { s with
    validZones := Function.update s.validZones zoneId false
    logs := .zoneRemoved zoneId :: s.logs }

def pause (s : Registry) (msg : Msg) : Except Error Registry := do
  notPayable msg
  onlyRole msg .pauser
  whenNotPaused s
  return { s with paused := true }

def unpause (s : Registry) (msg : Msg) : Except Error Registry := do
  notPayable msg
  onlyRole msg .pauser
  require s.paused .expectedPause
  return { s with paused := false }

def register (s : Registry) (msg : Msg) (zoneId : Bytes32) (providerType : BitVec 8) :
    Except Error Registry := do
  notPayable msg
  whenNotPaused s
  require (s.validZones zoneId) (.zoneNotAllowed zoneId)
  require (!(providerType != providerTypeSensorNode && providerType != providerTypeHumanReporter))
    (.invalidProviderType providerType)
  require (!(s.providers msg.sender).active) (.alreadyRegisteredAndActive msg.sender)
  return { s with
    providers := Function.update s.providers msg.sender ⟨zoneId, providerType, msg.time, true⟩
    logs := .providerRegistered msg.sender zoneId providerType :: s.logs }

/-- neither the pause nor the zone matters here -/
def deactivate (s : Registry) (msg : Msg) (provider : Address) : Except Error Registry := do
  notPayable msg
  require (!(msg.sender != provider && !msg.hasRole .defaultAdmin msg.sender))
    (.notAuthorizedToDeactivate msg.sender provider)
  let p := s.providers provider
  require (p.registeredAt != 0) (.notRegistered provider)
  require p.active (.alreadyInactive provider)
  return { s with
    providers := Function.update s.providers provider { p with active := false }
    logs := .providerDeactivated provider msg.sender :: s.logs }

/-! ## the contract as a machine -/

inductive Call where
  | addZone (zoneId : Bytes32)
  | removeZone (zoneId : Bytes32)
  | pause
  | unpause
  | register (zoneId : Bytes32) (providerType : BitVec 8)
  | deactivate (provider : Address)

def dispatch (s : Registry) (msg : Msg) : Call → Except Error Registry
  | .addZone zoneId => addZone s msg zoneId
  | .removeZone zoneId => removeZone s msg zoneId
  | .pause => pause s msg
  | .unpause => unpause s msg
  | .register zoneId providerType => register s msg zoneId providerType
  | .deactivate provider => deactivate s msg provider

/-- the contract hands control to nobody -/
def exec (s : Registry) (c : Msg × Call) : Nested.Outcome Registry :=
  match dispatch s c.1 c.2 with
  | .error _ => .revert
  | .ok s' => .done s'

/-! ## what a call that does not revert has done -/

theorem require_eq_ok {c : Bool} {e : Error} {u : Unit} : require c e = .ok u ↔ c = true := by
  cases c with
  | false => exact ⟨nofun, nofun⟩
  | true => exact ⟨fun _ => rfl, fun _ => rfl⟩

inductive Effect (s : Registry) (msg : Msg) : Call → Registry → Prop
  | addZone (zoneId : Bytes32) : Effect s msg (.addZone zoneId) { s with
      validZones := Function.update s.validZones zoneId true
      logs := .zoneAdded zoneId :: s.logs }
  | removeZone (zoneId : Bytes32) : Effect s msg (.removeZone zoneId) { s with
      validZones := Function.update s.validZones zoneId false
      logs := .zoneRemoved zoneId :: s.logs }
  | pause : Effect s msg .pause { s with paused := true }
  | unpause : Effect s msg .unpause { s with paused := false }
  | register (zoneId : Bytes32) (providerType : BitVec 8) (hpaused : s.paused = false)
      (hzone : s.validZones zoneId) (htype : providerType = 0 ∨ providerType = 1)
      (hinactive : s.isActive msg.sender = false) :
    Effect s msg (.register zoneId providerType) { s with
      providers := Function.update s.providers msg.sender ⟨zoneId, providerType, msg.time, true⟩
      logs := .providerRegistered msg.sender zoneId providerType :: s.logs }
  | deactivate (provider : Address)
      (hsender : msg.sender = provider ∨ msg.hasRole .defaultAdmin msg.sender)
      (hactive : s.isActive provider) :
    Effect s msg (.deactivate provider) { s with
      providers := Function.update s.providers provider { s.providers provider with active := false }
      logs := .providerDeactivated provider msg.sender :: s.logs }

section
variable {s s' : Registry} {msg : Msg}

theorem addZone_effect {zoneId : Bytes32} (h : addZone s msg zoneId = .ok s') :
    Effect s msg (.addZone zoneId) s' := by
  simp only [addZone, bind_eq_ok, pure_eq_ok] at h
  obtain ⟨_, -, _, -, rfl⟩ := h
  exact .addZone zoneId

theorem removeZone_effect {zoneId : Bytes32} (h : removeZone s msg zoneId = .ok s') :
    Effect s msg (.removeZone zoneId) s' := by
  simp only [removeZone, bind_eq_ok, pure_eq_ok] at h
  obtain ⟨_, -, _, -, rfl⟩ := h
  exact .removeZone zoneId

theorem pause_effect (h : pause s msg = .ok s') : Effect s msg .pause s' := by
  simp only [pause, bind_eq_ok, pure_eq_ok] at h
  obtain ⟨_, -, _, -, _, -, rfl⟩ := h
  exact .pause

theorem unpause_effect (h : unpause s msg = .ok s') : Effect s msg .unpause s' := by
  simp only [unpause, bind_eq_ok, pure_eq_ok] at h
  obtain ⟨_, -, _, -, _, -, rfl⟩ := h
  exact .unpause

theorem register_effect {zoneId : Bytes32} {providerType : BitVec 8}
    (h : register s msg zoneId providerType = .ok s') :
    Effect s msg (.register zoneId providerType) s' := by
  simp only [register, bind_eq_ok, pure_eq_ok, whenNotPaused, require_eq_ok, Bool.not_eq_true',
    Bool.and_eq_false_iff, bne_eq_false_iff_eq] at h
  obtain ⟨_, -, _, hpaused, _, hzone, _, htype, _, hinactive, rfl⟩ := h
  exact .register zoneId providerType hpaused hzone htype hinactive

theorem deactivate_effect {provider : Address} (h : deactivate s msg provider = .ok s') :
    Effect s msg (.deactivate provider) s' := by
  simp only [deactivate, bind_eq_ok, pure_eq_ok, require_eq_ok, Bool.not_eq_true',
    Bool.and_eq_false_iff, bne_eq_false_iff_eq, Bool.not_eq_false'] at h
  obtain ⟨_, -, _, hsender, _, -, _, hactive, rfl⟩ := h
  exact .deactivate provider hsender hactive

theorem dispatch_effect {c : Call} (h : dispatch s msg c = .ok s') : Effect s msg c s' := by
  cases c with
  | addZone zoneId => exact addZone_effect h
  | removeZone zoneId => exact removeZone_effect h
  | pause => exact pause_effect h
  | unpause => exact unpause_effect h
  | register zoneId providerType => exact register_effect h
  | deactivate provider => exact deactivate_effect h

/-- **What a call that does not revert has done.** -/
theorem exec_effect {c : Msg × Call} (h : exec s c = .done s' ∨ exec s c = .opened s') :
    Effect s c.1 c.2 s' := by
  cases hd : dispatch s c.1 c.2 with
  | error e => simp only [exec, hd, reduceCtorEq, or_self] at h
  | ok t =>
    simp only [exec, hd, Nested.Outcome.done.injEq, reduceCtorEq, or_false] at h
    exact h ▸ dispatch_effect hd

/-- **`p` or an admin deactivates `p` whenever it is active and its time is not zero, paused or not.** -/
theorem deactivate_ok {provider : Address} (hvalue : msg.value = 0)
    (hsender : msg.sender = provider ∨ msg.hasRole .defaultAdmin msg.sender)
    (htime : (s.providers provider).registeredAt ≠ 0) (hactive : s.isActive provider) :
    ∃ t, exec s (msg, .deactivate provider) = .done t ∧ t.isActive provider = false := by
  have hok : ∃ t, deactivate s msg provider = .ok t := by
    simp only [deactivate, notPayable, bind_eq_ok, pure_eq_ok, require_eq_ok, Bool.not_eq_true',
      Bool.and_eq_false_iff, bne_eq_false_iff_eq, Bool.not_eq_false', bne_iff_ne, beq_iff_eq]
    exact ⟨_, (), hvalue, (), hsender, (), htime, (), hactive, rfl⟩
  obtain ⟨t, ht⟩ := hok
  refine ⟨t, ?_, ?_⟩
  · simp only [exec, dispatch, ht]
  · cases deactivate_effect ht with
    | deactivate _ _ _ =>
      unfold Registry.isActive
      dsimp only
      rw [Function.update_self]

end

end NodeRegistry
