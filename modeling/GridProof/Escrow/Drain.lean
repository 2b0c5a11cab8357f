import GridProof.Escrow.Accounting

/-!
# What the relayer can pay out

The contract's first design invariant says that rewards come only out of what the admin has put
into the reward pool.  The pool is fed from a second source: `slash` moves staked principal into
it.

* `Flow`            the pool holds what was funded and slashed, less what was rewarded and taken
                    out;
* `Covered`         the call pays out of the pool no more than it holds besides slashed principal;
* `within_funds`    along calls that are covered, rewards and withdrawals of the pool never exceed
                    the funding, and all slashed principal is still in the pool;
* `drained`         after a slash the relayer pays one provider's stake to another.
-/

namespace ReputationEscrow

open Nested Runs

/-! ## the pool's flow -/

/-- the sum over the events of what `f` reads from each -/
def total (f : Event → Nat) (logs : List Event) : Nat := (logs.map f).sum

theorem total_cons (f : Event → Nat) (e : Event) (logs : List Event) :
    total f (e :: logs) = f e + total f logs := by
  simp only [total, List.map_cons, List.sum_cons]

def fundedAmount : Event → Nat
  | .rewardPoolFunded _ amount _ => amount
  | _ => 0

def takenAmount : Event → Nat
  | .rewardPoolWithdrawn _ amount _ => amount
  | _ => 0

def rewardedAmount : Event → Nat
  | .rewarded _ amount _ _ => amount
  | _ => 0

def slashedAmount : Event → Nat
  | .slashed _ amount _ _ => amount
  | _ => 0

def Escrow.funded (s : Escrow) : Nat := total fundedAmount s.logs
def Escrow.taken (s : Escrow) : Nat := total takenAmount s.logs
def Escrow.rewarded (s : Escrow) : Nat := total rewardedAmount s.logs
def Escrow.slashed (s : Escrow) : Nat := total slashedAmount s.logs

/-- the pool's balance sheet -/
def Flow (s : Escrow) : Prop := s.rewardPool + s.rewarded + s.taken = s.funded + s.slashed

theorem deploy_flow {admin relayer registry : Address} {cap minimum cooldown : Nat}
    {s : Escrow} (h : deploy admin relayer registry cap minimum cooldown = .ok s) : Flow s := by
  unfold deploy at h
  split at h
  · cases h
  · cases h
    rfl

theorem Flow.effect {s s' : Escrow} {msg : Msg} {c : Call} (hs : Flow s)
    (h : Effect s msg c s') : Flow s' := by
  unfold Flow Escrow.rewarded Escrow.taken Escrow.funded Escrow.slashed at *
  cases h with
  | setPolicy cap minimum cooldown hrole =>
    simpa only [total_cons, rewardedAmount, takenAmount, fundedAmount, slashedAmount, zero_add]
      using hs
  | fundRewardPool hrole hvalue =>
    simp only [total_cons, rewardedAmount, takenAmount, fundedAmount, slashedAmount]
    omega
  | withdrawRewardPool recipient amount hrole hamount hpool hbalance =>
    simp only [total_cons, rewardedAmount, takenAmount, fundedAmount, slashedAmount]
    omega
  | pause hrole => exact hs
  | unpause hrole => exact hs
  | stake hpaused hvalue hactive =>
    simpa only [total_cons, rewardedAmount, takenAmount, fundedAmount, slashedAmount, zero_add]
      using hs
  | withdraw amount hpaused hamount hstake hcooldown hfloor htotal hbalance =>
    simpa only [total_cons, rewardedAmount, takenAmount, fundedAmount, slashedAmount, zero_add]
      using hs
  | reward provider amount evidenceHash hrole hpaused hprovider hamount hpool =>
    simp only [total_cons, rewardedAmount, takenAmount, fundedAmount, slashedAmount]
    omega
  | slash provider amount reasonHash hrole hpaused hprovider hamount hcap hstake htotal =>
    simp only [total_cons, rewardedAmount, takenAmount, fundedAmount, slashedAmount]
    omega

/-! ## calls that leave slashed principal in the pool -/

/-- a reward or a withdrawal of the pool that passes the caller's and the pool's checks leaves in
the pool at least the principal that slashes have moved there -/
def Covered (m : Machine Escrow) : Action (Msg × Call) → Prop
  | .call (msg, .reward _ amount _) =>
    msg.hasRole .relayer msg.sender → m.top.paused = false → amount ≤ m.top.rewardPool →
      amount + m.top.slashed ≤ m.top.rewardPool
  | .call (msg, .withdrawRewardPool _ amount) =>
    msg.hasRole .defaultAdmin msg.sender → amount ≤ m.top.rewardPool →
      amount + m.top.slashed ≤ m.top.rewardPool
  | _ => True

instance (m : Machine Escrow) (a : Action (Msg × Call)) : Decidable (Covered m a) := by
  unfold Covered
  split <;> infer_instance

/-- rewards and withdrawals of the pool stay within its funding, so that everything slashed is
still in it -/
def WithinFunds (s : Escrow) : Prop := s.rewarded + s.taken ≤ s.funded ∧ s.slashed ≤ s.rewardPool

theorem Flow.within_iff {s : Escrow} (hs : Flow s) : WithinFunds s ↔ s.slashed ≤ s.rewardPool := by
  unfold WithinFunds Flow at *
  omega

theorem slashed_effect {m : Machine Escrow} {s' : Escrow} {msg : Msg} {c : Call}
    (hs : m.top.slashed ≤ m.top.rewardPool) (hcov : Covered m (.call (msg, c)))
    (h : Effect m.top msg c s') : s'.slashed ≤ s'.rewardPool := by
  unfold Escrow.slashed at *
  cases h with
  | setPolicy cap minimum cooldown hrole => simpa only [total_cons, slashedAmount, zero_add] using hs
  | fundRewardPool hrole hvalue =>
    simp only [total_cons, slashedAmount]
    omega
  | withdrawRewardPool recipient amount hrole hamount hpool hbalance =>
    have hle : amount + total slashedAmount m.top.logs ≤ m.top.rewardPool := hcov hrole hpool
    simp only [total_cons, slashedAmount]
    omega
  | pause hrole => exact hs
  | unpause hrole => exact hs
  | stake hpaused hvalue hactive => simpa only [total_cons, slashedAmount, zero_add] using hs
  | withdraw amount hpaused hamount hstake hcooldown hfloor htotal hbalance =>
    simpa only [total_cons, slashedAmount, zero_add] using hs
  | reward provider amount evidenceHash hrole hpaused hprovider hamount hpool =>
    have hle : amount + total slashedAmount m.top.logs ≤ m.top.rewardPool :=
      hcov hrole hpaused hpool
    simp only [total_cons, slashedAmount]
    omega
  | slash provider amount reasonHash hrole hpaused hprovider hamount hcap hstake htotal =>
    simp only [total_cons, slashedAmount]
    omega

/-- a call that is not covered takes slashed principal out of the pool -/
theorem not_within_of_not_covered {m : Machine Escrow} {s' : Escrow} {msg : Msg} {c : Call}
    (hcov : ¬ Covered m (.call (msg, c))) (h : Effect m.top msg c s') : ¬ WithinFunds s' := by
  intro hw
  have hle : s'.slashed ≤ s'.rewardPool := hw.2
  unfold Escrow.slashed at hle
  cases h with
  | withdrawRewardPool recipient amount hrole hamount hpool hbalance =>
    simp only [total_cons, slashedAmount] at hle
    refine hcov fun _ _ => ?_
    show amount + total slashedAmount m.top.logs ≤ m.top.rewardPool
    omega
  | reward provider amount evidenceHash hrole hpaused hprovider hamount hpool =>
    simp only [total_cons, slashedAmount] at hle
    refine hcov fun _ _ _ => ?_
    show amount + total slashedAmount m.top.logs ≤ m.top.rewardPool
    omega
  | _ => exact hcov trivial

/-- before the first slash every call is covered -/
theorem covered_of_unslashed {m : Machine Escrow} (h : m.top.slashed = 0)
    (a : Action (Msg × Call)) : Covered m a := by
  unfold Covered
  split
  · intro _ _ hle
    rw [h]
    exact hle
  · intro _ hle
    rw [h]
    exact hle
  · trivial

/-! ## whole runs -/

/-- **Along covered calls the relayer never pays out more than the admin has funded, and all
slashed principal is still in the pool.** -/
theorem within_funds {self admin relayer registry : Address} {cap minimum cooldown : Nat}
    {s : Escrow} {m : Machine Escrow} {as : List (Action (Msg × Call))}
    (hdeploy : deploy admin relayer registry cap minimum cooldown = .ok s)
    (hcov : Along (step (exec self)) Covered ⟨s, []⟩ as)
    (hrun : run (step (exec self)) ⟨s, []⟩ as = some m) : m.All WithinFunds := by
  have hflow : Flow s := deploy_flow hdeploy
  have hstart : s.slashed ≤ s.rewardPool := by
    unfold deploy at hdeploy
    split at hdeploy
    · cases hdeploy
    · cases hdeploy
      exact Nat.le_refl 0
  -- the invariant carries the balance sheet along with the slashed principal
  have hall : m.All fun s => Flow s ∧ s.slashed ≤ s.rewardPool := by
    refine run_all (fun m c s' hm hok hc => ?_) (fun m c s' hm hok hc => ?_)
      (Machine.all_start ⟨hflow, hstart⟩) hcov hrun
    · have heff := exec_effect (.inl hc)
      exact ⟨hm.1.effect heff, slashed_effect hm.2 hok heff⟩
    · have heff := exec_effect (.inr hc)
      exact ⟨hm.1.effect heff, slashed_effect hm.2 hok heff⟩
  exact ⟨hall.1.1.within_iff.mpr hall.1.2, fun t ht =>
    (hall.2 t ht).1.within_iff.mpr (hall.2 t ht).2⟩

/-- the admin funds 4, the relayer rewards provider 4 with 3 of them and slashes 2 from provider 3 -/
def fundedRun : List (Action (Msg × Call)) :=
  [.call (plainMsg 3 8, .stake), .call (plainMsg 1 4, .fundRewardPool),
    .call (plainMsg 2 0, .reward 4 3 0), .call (plainMsg 2 0, .slash 3 2 0)]

theorem within_funds_fundedRun :
    ∃ m, run (step (exec 9)) ⟨deployed, []⟩ fundedRun = some m ∧ m.All WithinFunds := by
  obtain ⟨m, hm⟩ : ∃ m, run (step (exec 9)) ⟨deployed, []⟩ fundedRun = some m := ⟨_, rfl⟩
  exact ⟨m, hm, @within_funds 9 1 2 3 10 0 0 deployed m fundedRun rfl (by decide) hm⟩

/-- the relayer slashes all of provider 3 and rewards provider 4 with it; nothing was funded -/
def drain : List (Action (Msg × Call)) :=
  [.call (plainMsg 3 8, .stake), .call (plainMsg 2 0, .slash 3 8 0),
    .call (plainMsg 2 0, .reward 4 8 0)]

/-- **A slash lets the relayer pay one provider's stake to another.** -/
theorem drained : deploy 1 2 3 10 0 0 = .ok deployed ∧
    (run (step (exec 9)) ⟨deployed, []⟩ drain).map
      (fun m => (m.top.stakes 3, m.top.stakes 4, m.top.rewarded)) = some (0, 8, 8) ∧
    ¬ ∀ m, run (step (exec 9)) ⟨deployed, []⟩ drain = some m →
      m.top.rewarded + m.top.taken ≤ m.top.funded := by
  refine ⟨rfl, rfl, fun h => ?_⟩
  exact absurd (h _ rfl) (by decide)

end ReputationEscrow
