import Mathlib.Algebra.BigOperators.Fin
import GridProof.Lib.Trail
import GridProof.Escrow.Contract

/-!
# The escrow's accounts

What each provider put in, won, lost and took out, read off the calls that succeeded and were not
undone, and how the three representations of value (the ether balance, the two buckets, the
mapping of stakes) stand to it:

* `Balanced`          the balance is the two buckets, the staked bucket is the sum of the stakes;
* `Accounts`          besides, every stake and every reputation score is what the calls say;
* `stakes_of_effect`, `reputation_of_effect`   what a call that does not revert does to a stake and a score;
* `Balanced.effect`, `Accounts.effect`   every such call keeps the accounts, also at the point where
                      the recipient's code starts to run;
* `accounting`        they hold in every reachable state of the machine, in each open frame, and a
                      call that reverts, at once or because its transfer failed, changes nothing.
-/

namespace ReputationEscrow

open Nested Runs

/-- the states of the contract, each with the calls that have led to it -/
abbrev Ledger := Recorded Escrow (Msg × Call)

/-! ## what the calls say -/

/-- the sum over the calls of what `f` reads from each -/
def tally (f : Msg × Call → Nat) (trail : List (Entry Escrow (Msg × Call))) : Nat :=
  (trail.map fun e => f e.call).sum

theorem tally_cons (f : Msg × Call → Nat) (s : Escrow) (c : Msg × Call)
    (trail : List (Entry Escrow (Msg × Call))) : tally f (⟨s, c⟩ :: trail) = f c + tally f trail := by
  simp only [tally, List.map_cons, List.sum_cons]

section
variable (p : Address)

def depositOf : Msg × Call → Nat
  | (msg, .stake) => if msg.sender = p then msg.value else 0
  | _ => 0

def rewardOf : Msg × Call → Nat
  | (_, .reward q amount _) => if q = p then amount else 0
  | _ => 0

def slashOf : Msg × Call → Nat
  | (_, .slash q amount _) => if q = p then amount else 0
  | _ => 0

def withdrawalOf : Msg × Call → Nat
  | (msg, .withdraw amount) => if msg.sender = p then amount else 0
  | _ => 0

/-- one for each reward of `p` -/
def isRewardOf : Msg × Call → Nat
  | (_, .reward q _ _) => if q = p then 1 else 0
  | _ => 0

/-- one for each slash of `p` -/
def isSlashOf : Msg × Call → Nat
  | (_, .slash q _ _) => if q = p then 1 else 0
  | _ => 0

end

structure Balanced (s : Escrow) : Prop where
  balance_eq : s.balance = s.totalStaked + s.rewardPool
  total_eq : s.totalStaked = ∑ p, s.stakes p

structure Accounts (s : Ledger) : Prop extends Balanced s.1 where
  stake_eq : ∀ p, s.1.stakes p + (tally (slashOf p) s.2 + tally (withdrawalOf p) s.2) =
    tally (depositOf p) s.2 + tally (rewardOf p) s.2
  reputation_eq : ∀ p, s.1.reputationScore p =
    (tally (isRewardOf p) s.2 : Int) - tally (isSlashOf p) s.2

/-! ## sums over all providers -/

theorem sum_update_add (f : Address → Nat) (p : Address) (a : Nat) :
    ∑ q, Function.update f p (f p + a) q = ∑ q, f q + a := by
  rw [Finset.sum_update_of_mem (Finset.mem_univ p), ← Finset.add_sum_erase _ f (Finset.mem_univ p),
    Finset.sdiff_singleton_eq_erase]
  omega

theorem sum_update_sub (f : Address → Nat) (p : Address) (a : Nat) (h : a ≤ f p) :
    ∑ q, Function.update f p (f p - a) q = ∑ q, f q - a := by
  rw [Finset.sum_update_of_mem (Finset.mem_univ p), ← Finset.add_sum_erase _ f (Finset.mem_univ p),
    Finset.sdiff_singleton_eq_erase]
  omega

/-! ## what a call does -/

section
variable {s t : Escrow} {msg : Msg} {c : Call}

theorem stakes_of_effect (h : Effect s msg c t) (p : Address) :
    t.stakes p + (slashOf p (msg, c) + withdrawalOf p (msg, c)) =
      s.stakes p + (depositOf p (msg, c) + rewardOf p (msg, c)) := by
  cases h with
  | stake =>
    simp only [slashOf, withdrawalOf, depositOf, rewardOf, Function.update_apply, eq_comm (b := p)]
    split
    · subst p; omega
    · omega
  | withdraw amount _ _ hamount =>
    simp only [slashOf, withdrawalOf, depositOf, rewardOf, Function.update_apply, eq_comm (b := p)]
    split
    · subst p; omega
    · omega
  | reward provider amount =>
    simp only [slashOf, withdrawalOf, depositOf, rewardOf, Function.update_apply, eq_comm (b := p)]
    split
    · subst p; omega
    · omega
  | slash provider amount reasonHash _ _ _ _ _ hamount =>
    simp only [slashOf, withdrawalOf, depositOf, rewardOf, Function.update_apply, eq_comm (b := p)]
    split
    · subst p; omega
    · omega
  | _ => rfl

theorem reputation_of_effect (h : Effect s msg c t) (p : Address) :
    t.reputationScore p = s.reputationScore p + isRewardOf p (msg, c) - isSlashOf p (msg, c) := by
  cases h with
  | reward provider amount =>
    simp only [isRewardOf, isSlashOf, Function.update_apply, eq_comm (b := p)]
    split
    · subst p; omega
    · omega
  | slash provider amount =>
    simp only [isRewardOf, isSlashOf, Function.update_apply, eq_comm (b := p)]
    split
    · subst p; omega
    · omega
  | _ =>
    show s.reputationScore p = s.reputationScore p + ((0 : Nat) : Int) - ((0 : Nat) : Int)
    omega

/-! ## every call keeps the accounts -/

theorem deploy_balanced {admin relayer registry : Address} {cap minimum cooldown : Nat}
    (h : deploy admin relayer registry cap minimum cooldown = .ok s) : Balanced s := by
  unfold deploy at h
  split at h
  · cases h
  · cases h
    refine ⟨rfl, ?_⟩
    rw [Finset.sum_const_zero]

theorem deploy_accounts {admin relayer registry : Address} {cap minimum cooldown : Nat}
    (h : deploy admin relayer registry cap minimum cooldown = .ok s) : Accounts (s, []) := by
  refine ⟨deploy_balanced h, fun p => ?_, fun p => ?_⟩
  all_goals
    unfold deploy at h
    split at h
    · cases h
    · cases h
      rfl

/-- **Every call that does not revert keeps the buckets.** -/
theorem Balanced.effect (hs : Balanced s) (h : Effect s msg c t) : Balanced t := by
  obtain ⟨hbalance, htotal⟩ := hs
  cases h with
  | setPolicy => exact ⟨hbalance, htotal⟩
  | pause => exact ⟨hbalance, htotal⟩
  | unpause => exact ⟨hbalance, htotal⟩
  | fundRewardPool =>
    refine ⟨?_, htotal⟩
    show s.balance + msg.value = s.totalStaked + (s.rewardPool + msg.value)
    omega
  | withdrawRewardPool recipient amount _ _ hpool =>
    refine ⟨?_, htotal⟩
    show s.balance - amount = s.totalStaked + (s.rewardPool - amount)
    omega
  | stake =>
    refine ⟨?_, ?_⟩
    · show s.balance + msg.value = s.totalStaked + msg.value + s.rewardPool
      omega
    · show s.totalStaked + msg.value = _
      rw [sum_update_add, htotal]
  | withdraw amount _ _ hamount _ _ hle =>
    refine ⟨?_, ?_⟩
    · show s.balance - amount = s.totalStaked - amount + s.rewardPool
      omega
    · show s.totalStaked - amount = _
      rw [sum_update_sub _ _ _ hamount, htotal]
  | reward provider amount evidenceHash _ _ _ _ hpool =>
    refine ⟨?_, ?_⟩
    · show s.balance = s.totalStaked + amount + (s.rewardPool - amount)
      omega
    · show s.totalStaked + amount = _
      rw [sum_update_add, htotal]
  | slash provider amount reasonHash _ _ _ _ _ hamount hle =>
    refine ⟨?_, ?_⟩
    · show s.balance = s.totalStaked - amount + (s.rewardPool + amount)
      omega
    · show s.totalStaked - amount = _
      rw [sum_update_sub _ _ _ hamount, htotal]

/-- **Every call that does not revert keeps the accounts, itself among the calls.** -/
theorem Accounts.effect {trail : List (Entry Escrow (Msg × Call))} (hs : Accounts (s, trail))
    (h : Effect s msg c t) : Accounts (t, ⟨s, (msg, c)⟩ :: trail) := by
  refine ⟨hs.toBalanced.effect h, fun p => ?_, fun p => ?_⟩
  · have hstake : s.stakes p + (tally (slashOf p) trail + tally (withdrawalOf p) trail) =
        tally (depositOf p) trail + tally (rewardOf p) trail := hs.stake_eq p
    have hcall := stakes_of_effect h p
    show t.stakes p + (tally (slashOf p) (_ :: trail) + tally (withdrawalOf p) (_ :: trail)) =
      tally (depositOf p) (_ :: trail) + tally (rewardOf p) (_ :: trail)
    rw [tally_cons, tally_cons, tally_cons, tally_cons]
    omega
  · have hscore : s.reputationScore p = (tally (isRewardOf p) trail : Int) - tally (isSlashOf p) trail :=
      hs.reputation_eq p
    have hcall := reputation_of_effect h p
    show t.reputationScore p =
      (tally (isRewardOf p) (_ :: trail) : Int) - tally (isSlashOf p) (_ :: trail)
    rw [tally_cons, tally_cons]
    push_cast
    omega

end

/-! ## the accounts over whole runs -/

section
variable {self admin relayer registry : Address} {cap minimum cooldown : Nat} {s : Escrow}
  {as : List (Action (Msg × Call))}

theorem reachable_balanced {m : Machine Escrow}
    (hdeploy : deploy admin relayer registry cap minimum cooldown = .ok s)
    (hrun : run (step (exec self)) ⟨s, []⟩ as = some m) : m.All Balanced := by
  refine run_all (fun m c s' hm _ hc => ?_) (fun m c s' hm _ hc => ?_)
    (Machine.all_start (deploy_balanced hdeploy)) (along_true _ _ _) hrun
  · exact hm.effect (exec_effect (.inl hc))
  · exact hm.effect (exec_effect (.inr hc))

theorem reachable_accounts {m : Machine Ledger}
    (hdeploy : deploy admin relayer registry cap minimum cooldown = .ok s)
    (hrun : run (step (recorded (exec self))) ⟨(s, []), []⟩ as = some m) : m.All Accounts := by
  refine run_all (fun m c t hm _ hc => ?_) (fun m c t hm _ hc => ?_)
    (Machine.all_start (deploy_accounts hdeploy)) (along_true _ _ _) hrun
  · obtain ⟨t, trail⟩ := t
    obtain ⟨he, rfl⟩ := recorded_done hc
    exact hm.effect (exec_effect (.inl he))
  · obtain ⟨t, trail⟩ := t
    obtain ⟨he, rfl⟩ := recorded_opened hc
    exact hm.effect (exec_effect (.inr he))

/-- **The escrow's accounts hold in every reachable state, between calls and while a recipient's
code runs, and a call that reverts, at once or when its transfer fails, changes nothing.** -/
theorem accounting {m : Machine Ledger}
    (hdeploy : deploy admin relayer registry cap minimum cooldown = .ok s)
    (hrun : run (step (recorded (exec self))) ⟨(s, []), []⟩ as = some m) :
    m.All Accounts ∧
    (∀ c, exec self m.top.1 c = .revert → step (recorded (exec self)) m (.call c) = some m) ∧
    (∀ c t inner m', recorded (exec self) m.top c = .opened t →
      Along (step (recorded (exec self))) (Inside (m.saved.length + 1)) ⟨t, m.top :: m.saved⟩ inner →
      run (step (recorded (exec self))) ⟨t, m.top :: m.saved⟩ inner = some m' →
      m'.saved.length = m.saved.length + 1 →
      step (recorded (exec self)) m' (.ret false) = some m) := by
  refine ⟨reachable_accounts hdeploy hrun, fun c hc => step_revert ?_, ?_⟩
  · unfold recorded
    rw [hc]
  · intro c t inner m' _ hin hinner hdepth
    exact @rollback _ _ _ m ⟨t, m.top :: m.saved⟩ m' inner rfl hin hinner hdepth

end

/-- a message at second 100 from `sender`; account 1 is the admin, account 2 the relayer, and
every provider is active -/
def plainMsg (sender : Address) (value : Nat) : Msg where
  sender := sender
  value := value
  timestamp := 100
  hasRole := fun role account => account == if role = .relayer then 2 else 1
  isActive := fun _ => true

/-- the escrow deployed with a slash cap of 10, no stake floor and no cool-down -/
def deployed : Escrow where
  balance := 0
  stakes := fun _ => 0
  reputationScore := fun _ => 0
  lastStakedAt := fun _ => 0
  rewardPool := 0
  totalStaked := 0
  slashPolicyCap := 10
  minimumStake := 0
  withdrawCooldownSeconds := 0
  paused := false
  logs := [.policyUpdated 10 0 0]

/-- provider 3 withdraws, and stakes again while it receives the ether -/
def reentered : List (Action (Msg × Call)) :=
  [.call (plainMsg 3 8, .stake), .call (plainMsg 1 4, .fundRewardPool),
    .call (plainMsg 2 0, .reward 3 1 0), .call (plainMsg 3 0, .withdraw 6),
    .call (plainMsg 3 2, .stake), .ret true]

/-- the deposits of provider 3 are 8 and 2, its reward is 1, and 6 were withdrawn -/
theorem accounting_reentered : deploy 1 2 3 10 0 0 = .ok deployed ∧
    (run (step (recorded (exec 9))) ⟨(deployed, []), []⟩ reentered).map
      (fun m => (m.top.1.balance, m.top.1.stakes 3, m.top.1.reputationScore 3, m.top.2.length)) =
        some (8, 5, 1, 5) ∧
    ∃ m, run (step (recorded (exec 9))) ⟨(deployed, []), []⟩ reentered = some m ∧ m.All Accounts := by
  refine ⟨rfl, rfl, ?_⟩
  obtain ⟨m, hm⟩ : ∃ m, run (step (recorded (exec 9))) ⟨(deployed, []), []⟩ reentered = some m := ⟨_, rfl⟩
  exact ⟨m, hm, (@accounting 9 1 2 3 10 0 0 deployed reentered m rfl hm).1⟩

end ReputationEscrow
