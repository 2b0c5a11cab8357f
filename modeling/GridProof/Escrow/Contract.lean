import Mathlib.Algebra.Group.Int.Defs
import Mathlib.Algebra.GroupWithZero.Nat
import Mathlib.Logic.Function.Basic
import Mathlib.Data.Fintype.Basic
import GridProof.Lib.Checked
import GridProof.Lib.Nested

/-!
# The reputation escrow contract

`ReputationEscrow.sol`, function by function.  A function takes the contract's state and the
message of the call and either reverts with an error or ends in a new state; `withdraw` and
`withdrawRewardPool` end in `send`, which hands the ether to the recipient, whose code then runs.

* amounts are natural numbers, and the checked arithmetic of the source reverts with `panic`
  where the sum does not fit its type;
* the events of the contract are kept in the state (`logs`, latest first): a call that reverts
  emits none, so they are the history of what has succeeded;
* the role table of the access control base contract and the provider registry can change between
  any two calls, so each message brings what they answer during it;
* `exec` is the contract as a machine whose calls nest.
-/

namespace ReputationEscrow

open Except (bind_eq_ok map_eq_ok pure_eq_ok)

/-! ## messages, events and errors -/

abbrev Address := Fin (2 ^ 160)
abbrev Bytes32 := BitVec 256

instance Address.neZero : NeZero (2 ^ 160) := ⟨by decide⟩

theorem Address.one_ne_zero : (1 : Address) ≠ 0 := by decide

inductive Role where
  | defaultAdmin
  | relayer
  | pauser
deriving DecidableEq

/-- a call's context: `hasRole` and `isActive` are the answers of the role table and of
`NodeRegistry` while the call runs -/
structure Msg where
  sender : Address
  value : Nat
  timestamp : Nat
  hasRole : Role → Address → Bool
  isActive : Address → Bool

inductive Event where
  | staked (provider : Address) (amount newBalance : Nat)
  | rewarded (provider : Address) (amount : Nat) (evidenceHash : Bytes32) (newReputation : Int)
  | slashed (provider : Address) (amount : Nat) (reasonHash : Bytes32) (newReputation : Int)
  | withdrawn (provider : Address) (amount newBalance : Nat)
  | rewardPoolFunded (funder : Address) (amount newPool : Nat)
  | rewardPoolWithdrawn (recipient : Address) (amount newPool : Nat)
  | policyUpdated (slashPolicyCap minimumStake withdrawCooldownSeconds : Nat)

inductive Error where
  | zeroAmount
  | zeroAddress
  | providerNotActive (provider : Address)
  | insufficientStake (provider : Address) (requested available : Nat)
  | slashExceedsPolicyCap (requested cap : Nat)
  | rewardPoolExhausted (requested available : Nat)
  | withdrawCooldownActive (provider : Address) (availableAt : Nat)
  | minimumStakeNotMet (provider : Address) (remaining minimum : Nat)
  | transferFailed (recipient : Address) (amount : Nat)
  /-- `AccessControlUnauthorizedAccount` of the base contract -/
  | unauthorized (account : Address) (role : Role)
  /-- `EnforcedPause` and `ExpectedPause` of the base contract -/
  | enforcedPause
  | expectedPause
  /-- arithmetic overflow or underflow -/
  | panic
  /-- ether sent to a function that is not payable -/
  | notPayable

/-! ## state -/

structure Escrow where
  /-- `address(this).balance` -/
  balance : Nat
  stakes : Address → Nat
  reputationScore : Address → Int
  lastStakedAt : Address → Nat
  rewardPool : Nat
  totalStaked : Nat
  slashPolicyCap : Nat
  minimumStake : Nat
  withdrawCooldownSeconds : Nat
  paused : Bool
  logs : List Event

/-- the constructor; the contract holds no ether before it -/
def deploy (admin relayer registry : Address)
    (initialSlashPolicyCap initialMinimumStake initialWithdrawCooldownSeconds : Nat) :
    Except Error Escrow :=
  if admin = 0 ∨ relayer = 0 ∨ registry = 0 then .error .zeroAddress
  else .ok
    { balance := 0
      stakes := fun _ => 0
      reputationScore := fun _ => 0
      lastStakedAt := fun _ => 0
      rewardPool := 0
      totalStaked := 0
      slashPolicyCap := initialSlashPolicyCap
      minimumStake := initialMinimumStake
      withdrawCooldownSeconds := initialWithdrawCooldownSeconds
      paused := false
      logs := [.policyUpdated initialSlashPolicyCap initialMinimumStake
        initialWithdrawCooldownSeconds] }

/-! ## checks -/

/-- `if (!c) revert e` -/
def require (c : Bool) (e : Error) : Except Error Unit :=
  if c then .ok () else .error e

/-- `x + y` in an unsigned type of `w` bits -/
def checkedAdd (w x y : Nat) : Except Error Nat :=
  if x + y < 2 ^ w then .ok (x + y) else .error .panic

/-- `x - y` in an unsigned type -/
def checkedSub (x y : Nat) : Except Error Nat :=
  if y ≤ x then .ok (x - y) else .error .panic

/-- `x + d` in `int256` -/
def checkedInt (x d : Int) : Except Error Int :=
  if -2 ^ 255 ≤ x + d ∧ x + d < 2 ^ 255 then .ok (x + d) else .error .panic

def onlyRole (msg : Msg) (role : Role) : Except Error Unit :=
  require (msg.hasRole role msg.sender) (.unauthorized msg.sender role)

def whenNotPaused (s : Escrow) : Except Error Unit := require (!s.paused) .enforcedPause

def notPayable (msg : Msg) : Except Error Unit := require (msg.value == 0) .notPayable

/-- the ether of the message is the contract's before its first line runs -/
def Escrow.receive (s : Escrow) (msg : Msg) : Escrow := { s with balance := s.balance + msg.value }

/-! ## admin: policy and reward pool -/

/-- how a function ends: it returns, or the recipient's code runs and it returns after that -/
inductive Result where
  | returned (s : Escrow)
  | sending (s : Escrow) (recipient : Address) (amount : Nat)

/-- `_send`; `self` has no receive function, so a transfer to itself fails -/
def send (self : Address) (s : Escrow) (recipient : Address) (amount : Nat) : Except Error Result :=
  if recipient = self ∨ s.balance < amount then .error (.transferFailed recipient amount)
  else .ok (.sending { s with balance := s.balance - amount } recipient amount)

def setPolicy (s : Escrow) (msg : Msg)
    (newSlashPolicyCap newMinimumStake newWithdrawCooldownSeconds : Nat) : Except Error Escrow := do
  notPayable msg
  onlyRole msg .defaultAdmin
  return { s with
    slashPolicyCap := newSlashPolicyCap
    minimumStake := newMinimumStake
    withdrawCooldownSeconds := newWithdrawCooldownSeconds
    logs := .policyUpdated newSlashPolicyCap newMinimumStake newWithdrawCooldownSeconds :: s.logs }

def fundRewardPool (s : Escrow) (msg : Msg) : Except Error Escrow := do
  onlyRole msg .defaultAdmin
  require (msg.value != 0) .zeroAmount
  let pool ← checkedAdd 256 s.rewardPool msg.value
  return { s.receive msg with
    rewardPool := pool
    logs := .rewardPoolFunded msg.sender msg.value pool :: s.logs }

def withdrawRewardPool (self : Address) (s : Escrow) (msg : Msg) (recipient : Address) (amount : Nat) :
    Except Error Result := do
  notPayable msg
  onlyRole msg .defaultAdmin
  require (recipient != 0) .zeroAddress
  require (amount != 0) .zeroAmount
  require (amount ≤ s.rewardPool) (.rewardPoolExhausted amount s.rewardPool)
  let pool ← checkedSub s.rewardPool amount
  send self { s with
    rewardPool := pool
    logs := .rewardPoolWithdrawn recipient amount pool :: s.logs } recipient amount

def pause (s : Escrow) (msg : Msg) : Except Error Escrow := do
  notPayable msg
  onlyRole msg .pauser
  whenNotPaused s
  return { s with paused := true }

def unpause (s : Escrow) (msg : Msg) : Except Error Escrow := do
  notPayable msg
  onlyRole msg .pauser
  require s.paused .expectedPause
  return { s with paused := false }

/-! ## provider self-service -/

def stake (s : Escrow) (msg : Msg) : Except Error Escrow := do
  whenNotPaused s
  require (msg.value != 0) .zeroAmount
  require (msg.isActive msg.sender) (.providerNotActive msg.sender)
  let balance ← checkedAdd 256 (s.stakes msg.sender) msg.value
  let total ← checkedAdd 256 s.totalStaked msg.value
  return { s.receive msg with
    stakes := Function.update s.stakes msg.sender balance
    totalStaked := total
    lastStakedAt := Function.update s.lastStakedAt msg.sender (msg.timestamp % 2 ^ 64)
    logs := .staked msg.sender msg.value balance :: s.logs }

def withdraw (self : Address) (s : Escrow) (msg : Msg) (amount : Nat) : Except Error Result := do
  notPayable msg
  whenNotPaused s
  require (amount != 0) .zeroAmount
  let balance := s.stakes msg.sender
  require (amount ≤ balance) (.insufficientStake msg.sender amount balance)
  let availableAt ← checkedAdd 64 (s.lastStakedAt msg.sender) s.withdrawCooldownSeconds
  require (availableAt ≤ msg.timestamp) (.withdrawCooldownActive msg.sender availableAt)
  let remaining ← checkedSub balance amount
  require (!(decide (remaining < s.minimumStake) && msg.isActive msg.sender))
    (.minimumStakeNotMet msg.sender remaining s.minimumStake)
  let total ← checkedSub s.totalStaked amount
  send self { s with
    stakes := Function.update s.stakes msg.sender remaining
    totalStaked := total
    logs := .withdrawn msg.sender amount remaining :: s.logs } msg.sender amount

/-! ## relayer: outcome settlement -/

def reward (s : Escrow) (msg : Msg) (provider : Address) (amount : Nat) (evidenceHash : Bytes32) :
    Except Error Escrow := do
  notPayable msg
  onlyRole msg .relayer
  whenNotPaused s
  require (provider != 0) .zeroAddress
  require (amount != 0) .zeroAmount
  require (amount ≤ s.rewardPool) (.rewardPoolExhausted amount s.rewardPool)
  let pool ← checkedSub s.rewardPool amount
  let balance ← checkedAdd 256 (s.stakes provider) amount
  let total ← checkedAdd 256 s.totalStaked amount
  let score ← checkedInt (s.reputationScore provider) 1
  return { s with
    rewardPool := pool
    stakes := Function.update s.stakes provider balance
    totalStaked := total
    reputationScore := Function.update s.reputationScore provider score
    logs := .rewarded provider amount evidenceHash score :: s.logs }

def slash (s : Escrow) (msg : Msg) (provider : Address) (amount : Nat) (reasonHash : Bytes32) :
    Except Error Escrow := do
  notPayable msg
  onlyRole msg .relayer
  whenNotPaused s
  require (provider != 0) .zeroAddress
  require (amount != 0) .zeroAmount
  require (amount ≤ s.slashPolicyCap) (.slashExceedsPolicyCap amount s.slashPolicyCap)
  let balance := s.stakes provider
  require (amount ≤ balance) (.insufficientStake provider amount balance)
  let remaining ← checkedSub balance amount
  let total ← checkedSub s.totalStaked amount
  let pool ← checkedAdd 256 s.rewardPool amount
  let score ← checkedInt (s.reputationScore provider) (-1)
  return { s with
    stakes := Function.update s.stakes provider remaining
    totalStaked := total
    rewardPool := pool
    reputationScore := Function.update s.reputationScore provider score
    logs := .slashed provider amount reasonHash score :: s.logs }

/-! ## the contract as a machine -/

inductive Call where
  | setPolicy (newSlashPolicyCap newMinimumStake newWithdrawCooldownSeconds : Nat)
  | fundRewardPool
  | withdrawRewardPool (recipient : Address) (amount : Nat)
  | pause
  | unpause
  | stake
  | withdraw (amount : Nat)
  | reward (provider : Address) (amount : Nat) (evidenceHash : Bytes32)
  | slash (provider : Address) (amount : Nat) (reasonHash : Bytes32)

def dispatch (self : Address) (s : Escrow) (msg : Msg) : Call → Except Error Result
  | .setPolicy cap minimum cooldown => .returned <$> setPolicy s msg cap minimum cooldown
  | .fundRewardPool => .returned <$> fundRewardPool s msg
  | .withdrawRewardPool recipient amount => withdrawRewardPool self s msg recipient amount
  | .pause => .returned <$> pause s msg
  | .unpause => .returned <$> unpause s msg
  | .stake => .returned <$> stake s msg
  | .withdraw amount => withdraw self s msg amount
  | .reward provider amount evidenceHash =>
    .returned <$> reward s msg provider amount evidenceHash
  | .slash provider amount reasonHash => .returned <$> slash s msg provider amount reasonHash

/-- a call of the contract at address `self`; while ether is being sent the recipient's code runs
in a frame of its own, and its failure is the failure of the call -/
def exec (self : Address) (s : Escrow) (c : Msg × Call) : Nested.Outcome Escrow :=
  match dispatch self s c.1 c.2 with
  | .error _ => .revert
  | .ok (.returned s') => .done s'
  | .ok (.sending s' _ _) => .opened s'


/-! ## what a call that does not revert has done -/

section

theorem require_eq_ok {c : Bool} {e : Error} {u : Unit} : require c e = .ok u ↔ c = true := by
  cases c with
  | false => exact ⟨nofun, nofun⟩
  | true => exact ⟨fun _ => rfl, fun _ => rfl⟩

theorem checkedAdd_eq_ok {w x y z : Nat} :
    checkedAdd w x y = .ok z ↔ x + y < 2 ^ w ∧ x + y = z := by
  unfold checkedAdd
  split <;> simp [*]

theorem checkedSub_eq_ok {x y z : Nat} : checkedSub x y = .ok z ↔ y ≤ x ∧ x - y = z := by
  unfold checkedSub
  split <;> simp [*]

theorem checkedInt_eq_ok {x d z : Int} :
    checkedInt x d = .ok z ↔ (-2 ^ 255 ≤ x + d ∧ x + d < 2 ^ 255) ∧ x + d = z := by
  unfold checkedInt
  split
  · rename_i h
    simp only [Except.ok.injEq, h, true_and]
  · rename_i h
    simp only [reduceCtorEq, h, false_and]

theorem send_eq_ok {self recipient : Address} {s : Escrow} {amount : Nat} {r : Result} :
    send self s recipient amount = .ok r ↔ (recipient ≠ self ∧ amount ≤ s.balance) ∧
      Result.sending { s with balance := s.balance - amount } recipient amount = r := by
  unfold send
  split
  · rename_i h
    refine ⟨nofun, fun ⟨⟨hne, hle⟩, _⟩ => ?_⟩
    rcases h with h | h
    · exact absurd h hne
    · exact absurd hle (Nat.not_le.mpr h)
  · rename_i h
    rw [not_or, Nat.not_lt] at h
    simp only [Except.ok.injEq, ne_eq, h, not_false_eq_true, and_self, true_and]

end

/-- the state in which a call that does not revert returns or runs the recipient's code -/
inductive Effect (s : Escrow) (msg : Msg) : Call → Escrow → Prop
  | setPolicy (cap minimum cooldown : Nat) (hrole : msg.hasRole .defaultAdmin msg.sender) :
    Effect s msg (.setPolicy cap minimum cooldown) { s with
      slashPolicyCap := cap
      minimumStake := minimum
      withdrawCooldownSeconds := cooldown
      logs := .policyUpdated cap minimum cooldown :: s.logs }
  | fundRewardPool (hrole : msg.hasRole .defaultAdmin msg.sender) (hvalue : msg.value ≠ 0) :
    Effect s msg .fundRewardPool { s with
      balance := s.balance + msg.value
      rewardPool := s.rewardPool + msg.value
      logs := .rewardPoolFunded msg.sender msg.value (s.rewardPool + msg.value) :: s.logs }
  | withdrawRewardPool (recipient : Address) (amount : Nat)
      (hrole : msg.hasRole .defaultAdmin msg.sender) (hamount : amount ≠ 0)
      (hpool : amount ≤ s.rewardPool) (hbalance : amount ≤ s.balance) :
    Effect s msg (.withdrawRewardPool recipient amount) { s with
      balance := s.balance - amount
      rewardPool := s.rewardPool - amount
      logs := .rewardPoolWithdrawn recipient amount (s.rewardPool - amount) :: s.logs }
  | pause (hrole : msg.hasRole .pauser msg.sender) : Effect s msg .pause { s with paused := true }
  | unpause (hrole : msg.hasRole .pauser msg.sender) :
    Effect s msg .unpause { s with paused := false }
  | stake (hpaused : s.paused = false) (hvalue : msg.value ≠ 0)
      (hactive : msg.isActive msg.sender) :
    Effect s msg .stake { s with
      balance := s.balance + msg.value
      stakes := Function.update s.stakes msg.sender (s.stakes msg.sender + msg.value)
      totalStaked := s.totalStaked + msg.value
      lastStakedAt := Function.update s.lastStakedAt msg.sender (msg.timestamp % 2 ^ 64)
      logs := .staked msg.sender msg.value (s.stakes msg.sender + msg.value) :: s.logs }
  | withdraw (amount : Nat) (hpaused : s.paused = false) (hamount : amount ≠ 0)
      (hstake : amount ≤ s.stakes msg.sender)
      (hcooldown : s.lastStakedAt msg.sender + s.withdrawCooldownSeconds ≤ msg.timestamp)
      (hfloor : s.stakes msg.sender - amount < s.minimumStake → msg.isActive msg.sender = false)
      (htotal : amount ≤ s.totalStaked) (hbalance : amount ≤ s.balance) :
    Effect s msg (.withdraw amount) { s with
      balance := s.balance - amount
      stakes := Function.update s.stakes msg.sender (s.stakes msg.sender - amount)
      totalStaked := s.totalStaked - amount
      logs := .withdrawn msg.sender amount (s.stakes msg.sender - amount) :: s.logs }
  | reward (provider : Address) (amount : Nat) (evidenceHash : Bytes32)
      (hrole : msg.hasRole .relayer msg.sender) (hpaused : s.paused = false)
      (hprovider : provider ≠ 0) (hamount : amount ≠ 0) (hpool : amount ≤ s.rewardPool) :
    Effect s msg (.reward provider amount evidenceHash) { s with
      rewardPool := s.rewardPool - amount
      stakes := Function.update s.stakes provider (s.stakes provider + amount)
      totalStaked := s.totalStaked + amount
      reputationScore := Function.update s.reputationScore provider (s.reputationScore provider + 1)
      logs := .rewarded provider amount evidenceHash (s.reputationScore provider + 1) :: s.logs }
  | slash (provider : Address) (amount : Nat) (reasonHash : Bytes32)
      (hrole : msg.hasRole .relayer msg.sender) (hpaused : s.paused = false)
      (hprovider : provider ≠ 0) (hamount : amount ≠ 0) (hcap : amount ≤ s.slashPolicyCap)
      (hstake : amount ≤ s.stakes provider) (htotal : amount ≤ s.totalStaked) :
    Effect s msg (.slash provider amount reasonHash) { s with
      stakes := Function.update s.stakes provider (s.stakes provider - amount)
      totalStaked := s.totalStaked - amount
      rewardPool := s.rewardPool + amount
      reputationScore :=
        Function.update s.reputationScore provider (s.reputationScore provider + -1)
      logs := .slashed provider amount reasonHash (s.reputationScore provider + -1) :: s.logs }

def Result.state : Result → Escrow
  | .returned s => s
  | .sending s _ _ => s

section
variable {self : Address} {s s' : Escrow} {msg : Msg} {r : Result}

theorem setPolicy_effect {cap minimum cooldown : Nat}
    (h : setPolicy s msg cap minimum cooldown = .ok s') :
    Effect s msg (.setPolicy cap minimum cooldown) s' := by
  simp only [setPolicy, bind_eq_ok, pure_eq_ok, onlyRole, require_eq_ok] at h
  obtain ⟨_, -, _, hrole, rfl⟩ := h
  exact .setPolicy cap minimum cooldown hrole

theorem fundRewardPool_effect (h : fundRewardPool s msg = .ok s') :
    Effect s msg .fundRewardPool s' := by
  simp only [fundRewardPool, bind_eq_ok, pure_eq_ok, onlyRole, require_eq_ok, bne_iff_ne,
    checkedAdd_eq_ok] at h
  obtain ⟨_, hrole, _, hvalue, pool, ⟨-, rfl⟩, rfl⟩ := h
  exact .fundRewardPool hrole hvalue

theorem withdrawRewardPool_effect {recipient : Address} {amount : Nat}
    (h : withdrawRewardPool self s msg recipient amount = .ok r) :
    Effect s msg (.withdrawRewardPool recipient amount) r.state := by
  simp only [withdrawRewardPool, bind_eq_ok, onlyRole, require_eq_ok, bne_iff_ne,
    checkedSub_eq_ok, send_eq_ok] at h
  obtain ⟨_, -, _, hrole, _, -, _, hamount, _, -, pool, ⟨hpool, rfl⟩, ⟨-, hbalance⟩, rfl⟩ := h
  exact .withdrawRewardPool recipient amount hrole hamount hpool hbalance

theorem pause_effect (h : pause s msg = .ok s') : Effect s msg .pause s' := by
  simp only [pause, bind_eq_ok, pure_eq_ok, onlyRole, require_eq_ok] at h
  obtain ⟨_, -, _, hrole, _, -, rfl⟩ := h
  exact .pause hrole

theorem unpause_effect (h : unpause s msg = .ok s') : Effect s msg .unpause s' := by
  simp only [unpause, bind_eq_ok, pure_eq_ok, onlyRole, require_eq_ok] at h
  obtain ⟨_, -, _, hrole, _, -, rfl⟩ := h
  exact .unpause hrole

theorem stake_effect (h : stake s msg = .ok s') : Effect s msg .stake s' := by
  simp only [stake, bind_eq_ok, pure_eq_ok, whenNotPaused, require_eq_ok, bne_iff_ne,
    Bool.not_eq_true', checkedAdd_eq_ok] at h
  obtain ⟨_, hpaused, _, hvalue, _, hactive, balance, ⟨-, rfl⟩, total, ⟨-, rfl⟩, rfl⟩ := h
  exact .stake hpaused hvalue hactive

theorem withdraw_effect {amount : Nat} (h : withdraw self s msg amount = .ok r) :
    Effect s msg (.withdraw amount) r.state := by
  simp only [withdraw, bind_eq_ok, whenNotPaused, require_eq_ok, bne_iff_ne, Bool.not_eq_true',
    decide_eq_true_eq, checkedAdd_eq_ok, checkedSub_eq_ok, send_eq_ok] at h
  obtain ⟨_, -, _, hpaused, _, hamount, _, -, availableAt, ⟨-, rfl⟩, _, hcooldown, remaining,
    ⟨hstake, rfl⟩, _, hfloor, total, ⟨htotal, rfl⟩, ⟨-, hbalance⟩, rfl⟩ := h
  refine .withdraw amount hpaused hamount hstake hcooldown (fun hlt => ?_) htotal hbalance
  rw [decide_eq_true hlt, Bool.true_and] at hfloor
  exact hfloor

theorem reward_effect {provider : Address} {amount : Nat} {evidenceHash : Bytes32}
    (h : reward s msg provider amount evidenceHash = .ok s') :
    Effect s msg (.reward provider amount evidenceHash) s' := by
  simp only [reward, bind_eq_ok, pure_eq_ok, onlyRole, whenNotPaused, require_eq_ok, bne_iff_ne,
    Bool.not_eq_true', checkedAdd_eq_ok, checkedSub_eq_ok, checkedInt_eq_ok] at h
  obtain ⟨_, -, _, hrole, _, hpaused, _, hprovider, _, hamount, _, -, pool, ⟨hpool, rfl⟩, balance,
    ⟨-, rfl⟩, total, ⟨-, rfl⟩, score, ⟨-, rfl⟩, rfl⟩ := h
  exact .reward provider amount evidenceHash hrole hpaused hprovider hamount hpool

theorem slash_effect {provider : Address} {amount : Nat} {reasonHash : Bytes32}
    (h : slash s msg provider amount reasonHash = .ok s') :
    Effect s msg (.slash provider amount reasonHash) s' := by
  simp only [slash, bind_eq_ok, pure_eq_ok, onlyRole, whenNotPaused, require_eq_ok, bne_iff_ne,
    Bool.not_eq_true', decide_eq_true_eq, checkedAdd_eq_ok, checkedSub_eq_ok,
    checkedInt_eq_ok] at h
  obtain ⟨_, -, _, hrole, _, hpaused, _, hprovider, _, hamount, _, hcap, _, -, remaining,
    ⟨hstake, rfl⟩, total, ⟨htotal, rfl⟩, pool, ⟨-, rfl⟩, score, ⟨-, rfl⟩, rfl⟩ := h
  exact .slash provider amount reasonHash hrole hpaused hprovider hamount hcap hstake htotal

theorem dispatch_effect {c : Call} (h : dispatch self s msg c = .ok r) :
    Effect s msg c r.state := by
  cases c with
  | setPolicy cap minimum cooldown =>
    obtain ⟨s', h', rfl⟩ := map_eq_ok.mp h
    exact setPolicy_effect h'
  | fundRewardPool =>
    obtain ⟨s', h', rfl⟩ := map_eq_ok.mp h
    exact fundRewardPool_effect h'
  | withdrawRewardPool recipient amount => exact withdrawRewardPool_effect h
  | pause =>
    obtain ⟨s', h', rfl⟩ := map_eq_ok.mp h
    exact pause_effect h'
  | unpause =>
    obtain ⟨s', h', rfl⟩ := map_eq_ok.mp h
    exact unpause_effect h'
  | stake =>
    obtain ⟨s', h', rfl⟩ := map_eq_ok.mp h
    exact stake_effect h'
  | withdraw amount => exact withdraw_effect h
  | reward provider amount evidenceHash =>
    obtain ⟨s', h', rfl⟩ := map_eq_ok.mp h
    exact reward_effect h'
  | slash provider amount reasonHash =>
    obtain ⟨s', h', rfl⟩ := map_eq_ok.mp h
    exact slash_effect h'

/-- **What a call that does not revert has done.** -/
theorem exec_effect {c : Msg × Call} (h : exec self s c = .done s' ∨ exec self s c = .opened s') :
    Effect s c.1 c.2 s' := by
  cases hd : dispatch self s c.1 c.2 with
  | error e => simp only [exec, hd, reduceCtorEq, or_self] at h
  | ok r =>
    have heff := dispatch_effect hd
    cases r with
    | returned t =>
      simp only [exec, hd, Nested.Outcome.done.injEq, reduceCtorEq, or_false] at h
      exact h ▸ heff
    | sending t recipient amount =>
      simp only [exec, hd, Nested.Outcome.opened.injEq, reduceCtorEq, false_or] at h
      exact h ▸ heff

end

end ReputationEscrow
