import Mathlib.Algebra.Order.BigOperators.Group.Finset
import GridProof.Escrow.Accounting

/-!
# Leaving the escrow

Solidity's arithmetic is checked, so a mismatch between the stakes, their total, the pool and the ether would
freeze funds for good.  The accounts exclude it: behind its explicit guards a call reverts for no other reason.

* `Balanced.stake_le`, `Balanced.stakes_le`   a stake is within the total, and both buckets within the balance;
* `withdraw_ok`, `withdrawRewardPool_ok`      behind its guards the call gets to the transfer;
* `reward_ok_iff`, `slash_ok_iff`             behind their guards only the score can leave its type;
* `provider_can_leave`                        all of it in every reachable state.
-/

namespace ReputationEscrow

open Nested Runs
open Except (bind_eq_ok pure_eq_ok)

section
variable {s : Escrow} {self : Address} {msg : Msg}

/-! ## bounds from the accounts -/

theorem Balanced.stake_le (hs : Balanced s) (p : Address) : s.stakes p ≤ s.totalStaked := by
  rw [hs.total_eq]
  exact Finset.single_le_sum (fun q _ => Nat.zero_le (s.stakes q)) (Finset.mem_univ p)

theorem Balanced.stakes_le (hs : Balanced s) : s.totalStaked ≤ s.balance := by
  rw [hs.balance_eq]
  exact Nat.le_add_right _ _

theorem Balanced.pool_le (hs : Balanced s) : s.rewardPool ≤ s.balance := by
  rw [hs.balance_eq]
  exact Nat.le_add_left _ _

/-! ## calls behind their guards -/

/-- **A provider that is not active, or leaves the minimum behind, withdraws any part of its stake when its
cool-down is over.** -/
theorem withdraw_ok (hs : Balanced s) {amount : Nat} (hself : msg.sender ≠ self)
    (hvalue : msg.value = 0) (hpaused : s.paused = false) (hpos : 0 < amount)
    (hstake : amount ≤ s.stakes msg.sender) (htime : msg.timestamp < 2 ^ 64)
    (hcooldown : s.lastStakedAt msg.sender + s.withdrawCooldownSeconds ≤ msg.timestamp)
    (hfloor : s.stakes msg.sender - amount < s.minimumStake → msg.isActive msg.sender = false) :
    ∃ t, withdraw self s msg amount = .ok (.sending t msg.sender amount) := by
  have htotal : amount ≤ s.totalStaked := hstake.trans (hs.stake_le _)
  have hbalance : amount ≤ s.balance := htotal.trans hs.stakes_le
  simp only [withdraw, notPayable, whenNotPaused, bind_eq_ok, require_eq_ok, checkedAdd_eq_ok,
    checkedSub_eq_ok, send_eq_ok, bne_iff_ne, beq_iff_eq, decide_eq_true_eq, Bool.not_eq_true']
  refine ⟨_, (), hvalue, (), hpaused, (), Nat.ne_of_gt hpos, (), hstake, _,
    ⟨Nat.lt_of_le_of_lt hcooldown htime, rfl⟩, (), hcooldown, _, ⟨hstake, rfl⟩, (), ?_, _,
    ⟨htotal, rfl⟩, ⟨hself, hbalance⟩, rfl⟩
  by_cases hlow : s.stakes msg.sender - amount < s.minimumStake
  · rw [hfloor hlow, Bool.and_false]
  · rw [decide_eq_false hlow, Bool.false_and]

theorem withdrawRewardPool_ok (hs : Balanced s) {recipient : Address} {amount : Nat}
    (hself : recipient ≠ self) (hvalue : msg.value = 0)
    (hrole : msg.hasRole .defaultAdmin msg.sender) (hrecipient : recipient ≠ 0) (hpos : 0 < amount)
    (hpool : amount ≤ s.rewardPool) :
    ∃ t, withdrawRewardPool self s msg recipient amount = .ok (.sending t recipient amount) := by
  have hbalance : amount ≤ s.balance := hpool.trans hs.pool_le
  simp only [withdrawRewardPool, notPayable, onlyRole, bind_eq_ok, require_eq_ok, checkedSub_eq_ok,
    send_eq_ok, bne_iff_ne, beq_iff_eq, decide_eq_true_eq]
  exact ⟨_, (), hvalue, (), hrole, (), hrecipient, (), Nat.ne_of_gt hpos, (), hpool, _,
    ⟨hpool, rfl⟩, ⟨hself, hbalance⟩, rfl⟩

/-- behind its guards a `reward` reverts only when the score is at the end of its type -/
theorem reward_ok_iff (hs : Balanced s) {provider : Address} {amount : Nat}
    {evidenceHash : Bytes32} (hvalue : msg.value = 0) (hrole : msg.hasRole .relayer msg.sender)
    (hpaused : s.paused = false) (hprovider : provider ≠ 0) (hpos : 0 < amount)
    (hpool : amount ≤ s.rewardPool) (hether : s.balance < 2 ^ 256) :
    (∃ t, reward s msg provider amount evidenceHash = .ok t) ↔
      -2 ^ 255 ≤ s.reputationScore provider + 1 ∧ s.reputationScore provider + 1 < 2 ^ 255 := by
  have htotal : s.totalStaked + amount < 2 ^ 256 := by
    have hb := hs.balance_eq
    omega
  have hstake : s.stakes provider + amount < 2 ^ 256 := by
    have hle := hs.stake_le provider
    omega
  simp only [reward, notPayable, onlyRole, whenNotPaused, bind_eq_ok, pure_eq_ok, require_eq_ok,
    checkedAdd_eq_ok, checkedSub_eq_ok, checkedInt_eq_ok, bne_iff_ne, beq_iff_eq, decide_eq_true_eq,
    Bool.not_eq_true']
  constructor
  · rintro ⟨_, _, -, _, -, _, -, _, -, _, -, _, -, _, -, _, -, _, -, _, ⟨hscore, -⟩, -⟩
    exact hscore
  · intro hscore
    exact ⟨_, (), hvalue, (), hrole, (), hpaused, (), hprovider, (), Nat.ne_of_gt hpos, (), hpool, _,
      ⟨hpool, rfl⟩, _, ⟨hstake, rfl⟩, _, ⟨htotal, rfl⟩, _, ⟨hscore, rfl⟩, rfl⟩

/-- behind its guards a `slash` reverts only when the score is at the end of its type -/
theorem slash_ok_iff (hs : Balanced s) {provider : Address} {amount : Nat} {reasonHash : Bytes32}
    (hvalue : msg.value = 0) (hrole : msg.hasRole .relayer msg.sender) (hpaused : s.paused = false)
    (hprovider : provider ≠ 0) (hpos : 0 < amount) (hcap : amount ≤ s.slashPolicyCap)
    (hstake : amount ≤ s.stakes provider) (hether : s.balance < 2 ^ 256) :
    (∃ t, slash s msg provider amount reasonHash = .ok t) ↔
      -2 ^ 255 ≤ s.reputationScore provider + -1 ∧ s.reputationScore provider + -1 < 2 ^ 255 := by
  have htotal : amount ≤ s.totalStaked := hstake.trans (hs.stake_le _)
  have hpool : s.rewardPool + amount < 2 ^ 256 := by
    have hb := hs.balance_eq
    omega
  simp only [slash, notPayable, onlyRole, whenNotPaused, bind_eq_ok, pure_eq_ok, require_eq_ok,
    checkedAdd_eq_ok, checkedSub_eq_ok, checkedInt_eq_ok, bne_iff_ne, beq_iff_eq, decide_eq_true_eq,
    Bool.not_eq_true']
  constructor
  · rintro ⟨_, _, -, _, -, _, -, _, -, _, -, _, -, _, -, _, -, _, -, _, -, _, ⟨hscore, -⟩, -⟩
    exact hscore
  · intro hscore
    exact ⟨_, (), hvalue, (), hrole, (), hpaused, (), hprovider, (), Nat.ne_of_gt hpos, (), hcap, (),
      hstake, _, ⟨hstake, rfl⟩, _, ⟨htotal, rfl⟩, _, ⟨hpool, rfl⟩, _, ⟨hscore, rfl⟩, rfl⟩

theorem exec_sending {c : Call} {t : Escrow} {recipient : Address} {amount : Nat}
    (h : dispatch self s msg c = .ok (.sending t recipient amount)) :
    exec self s (msg, c) = .opened t := by
  unfold exec
  rw [h]

end

/-! ## reachable states -/

/-- **A provider that is not active can always leave: behind the guards of `withdraw`, whoever calls it,
`withdrawRewardPool`, `reward` and `slash` no subtraction reverts, and the ether for the transfer is there.** -/
theorem provider_can_leave {self admin relayer registry : Address} {cap minimum cooldown : Nat}
    {s₀ : Escrow} {m : Machine Escrow} {as : List (Action (Msg × Call))}
    (hdeploy : deploy admin relayer registry cap minimum cooldown = .ok s₀)
    (hrun : run (step (exec self)) ⟨s₀, []⟩ as = some m) (msg : Msg) (hvalue : msg.value = 0) :
    (∀ amount, m.top.paused = false → msg.sender ≠ self → 0 < amount →
      amount ≤ m.top.stakes msg.sender → msg.timestamp < 2 ^ 64 →
      m.top.lastStakedAt msg.sender + m.top.withdrawCooldownSeconds ≤ msg.timestamp →
      (m.top.stakes msg.sender - amount < m.top.minimumStake → msg.isActive msg.sender = false) →
      checkedSub (m.top.stakes msg.sender) amount = .ok (m.top.stakes msg.sender - amount) ∧
      checkedSub m.top.totalStaked amount = .ok (m.top.totalStaked - amount) ∧
      amount ≤ m.top.balance ∧
      ∃ t, withdraw self m.top msg amount = .ok (.sending t msg.sender amount) ∧
        run (step (exec self)) m [.call (msg, .withdraw amount), .ret true] = some ⟨t, m.saved⟩) ∧
    (∀ recipient amount, msg.hasRole .defaultAdmin msg.sender → recipient ≠ 0 → recipient ≠ self →
      0 < amount → amount ≤ m.top.rewardPool →
      checkedSub m.top.rewardPool amount = .ok (m.top.rewardPool - amount) ∧ amount ≤ m.top.balance ∧
      ∃ t, withdrawRewardPool self m.top msg recipient amount =
        .ok (.sending t recipient amount)) ∧
    (∀ provider amount evidenceHash, msg.hasRole .relayer msg.sender → m.top.paused = false →
      provider ≠ 0 → 0 < amount → amount ≤ m.top.rewardPool → m.top.balance < 2 ^ 256 →
      checkedSub m.top.rewardPool amount = .ok (m.top.rewardPool - amount) ∧
      ((∃ t, reward m.top msg provider amount evidenceHash = .ok t) ↔
        -2 ^ 255 ≤ m.top.reputationScore provider + 1 ∧
        m.top.reputationScore provider + 1 < 2 ^ 255)) ∧
    ∀ provider amount reasonHash, msg.hasRole .relayer msg.sender → m.top.paused = false →
      provider ≠ 0 → 0 < amount → amount ≤ m.top.slashPolicyCap →
      amount ≤ m.top.stakes provider → m.top.balance < 2 ^ 256 →
      checkedSub (m.top.stakes provider) amount = .ok (m.top.stakes provider - amount) ∧
      checkedSub m.top.totalStaked amount = .ok (m.top.totalStaked - amount) ∧
      ((∃ t, slash m.top msg provider amount reasonHash = .ok t) ↔
        -2 ^ 255 ≤ m.top.reputationScore provider + -1 ∧
        m.top.reputationScore provider + -1 < 2 ^ 255) := by
  have hs : Balanced m.top := (reachable_balanced hdeploy hrun).1
  refine ⟨?_, ?_, ?_, ?_⟩
  · intro amount hpaused hself hpos hstake htime hcooldown hfloor
    obtain ⟨t, ht⟩ := withdraw_ok hs hself hvalue hpaused hpos hstake htime hcooldown hfloor
    have htotal : amount ≤ m.top.totalStaked := hstake.trans (hs.stake_le _)
    refine ⟨checkedSub_eq_ok.mpr ⟨hstake, rfl⟩, checkedSub_eq_ok.mpr ⟨htotal, rfl⟩, htotal.trans hs.stakes_le, t, ht,
      ?_⟩
    have hcall := step_opened (exec_sending (c := .withdraw amount) ht)
    rw [run_cons, hcall]
    rfl
  · intro recipient amount hrole hrecipient hself hpos hpool
    exact ⟨checkedSub_eq_ok.mpr ⟨hpool, rfl⟩, hpool.trans hs.pool_le,
      withdrawRewardPool_ok hs hself hvalue hrole hrecipient hpos hpool⟩
  · intro provider amount evidenceHash hrole hpaused hprovider hpos hpool hether
    exact ⟨checkedSub_eq_ok.mpr ⟨hpool, rfl⟩,
      reward_ok_iff hs hvalue hrole hpaused hprovider hpos hpool hether⟩
  · intro provider amount reasonHash hrole hpaused hprovider hpos hcap hstake hether
    exact ⟨checkedSub_eq_ok.mpr ⟨hstake, rfl⟩,
      checkedSub_eq_ok.mpr ⟨hstake.trans (hs.stake_le _), rfl⟩,
      slash_ok_iff hs hvalue hrole hpaused hprovider hpos hcap hstake hether⟩

/-- `plainMsg` when the registry has deactivated everyone -/
def inactiveMsg (sender : Address) : Msg := { plainMsg sender 0 with isActive := fun _ => false }

theorem provider_can_leave_deactivated : ∃ m,
    run (step (exec 9)) ⟨deployed, []⟩ [.call (plainMsg 3 8, .stake),
      .call (plainMsg 2 0, .slash 3 2 0)] = some m ∧
    ∃ t, withdraw 9 m.top (inactiveMsg 3) 6 = .ok (.sending t 3 6) := by
  obtain ⟨m, hm⟩ : ∃ m, run (step (exec 9)) ⟨deployed, []⟩ [.call (plainMsg 3 8, .stake),
    .call (plainMsg 2 0, .slash 3 2 0)] = some m := ⟨_, rfl⟩
  have hleave := (@provider_can_leave 9 1 2 3 10 0 0 deployed m _ rfl hm (inactiveMsg 3) rfl).1 6
  cases hm
  obtain ⟨-, -, -, t, ht, -⟩ := hleave rfl (by decide) (by decide) (by decide) (by decide) (by decide) fun _ => rfl
  exact ⟨_, rfl, t, ht⟩

end ReputationEscrow
