import Mathlib.Data.List.TakeWhile
import GridProof.Lib.Trail
import GridProof.Escrow.Accounting

/-!
# The cool-down of credits

`stake` restarts the cool-down of `withdraw`.  `reward` credits the stake as well, "subject to the same
cool-down", and does not touch its clock: what was credited after the last stake leaves as early as the stake.

* `CooledDown`      of every withdrawal in the history, all credits before it are as old as the cool-down;
* `Timely`          block times fit 64 bits and do not go back;
* `Rested`          the call is no withdrawal, or its sender got no younger reward since its last stake;
* `credits_wait`    along calls that are timely and rested every history has cooled down;
* `fresh_reward`    a reward leaves one second after it was credited.
-/

namespace ReputationEscrow

open Nested Runs

/-! ## credits in a history -/

/-- `p` stakes -/
def stakedBy (p : Address) : Msg × Call → Bool
  | (msg, .stake) => msg.sender == p
  | _ => false

/-- a reward is credited to `p` -/
def rewardedTo (p : Address) : Msg × Call → Bool
  | (_, .reward q _ _) => q == p
  | _ => false

/-- the calls since the last stake of `p` -/
def sinceStake (p : Address) (trail : List (Entry Escrow (Msg × Call))) :
    List (Entry Escrow (Msg × Call)) :=
  trail.takeWhile fun e => !stakedBy p e.call

/-- every withdrawal comes at least the cool-down of its time after each credit of its provider -/
def CooledDown (trail : List (Entry Escrow (Msg × Call))) : Prop :=
  ∀ later w earlier amount, trail = later ++ w :: earlier → w.call.2 = .withdraw amount →
    ∀ e ∈ earlier, stakedBy w.call.1.sender e.call ∨ rewardedTo w.call.1.sender e.call →
      e.call.1.timestamp + w.state.withdrawCooldownSeconds ≤ w.call.1.timestamp

def Timely (s : Recorded Escrow (Msg × Call)) (msg : Msg) : Prop :=
  msg.timestamp < 2 ^ 64 ∧ ∀ e ∈ s.2, e.call.1.timestamp ≤ msg.timestamp

def Rested (s : Recorded Escrow (Msg × Call)) : Msg × Call → Prop
  | (msg, .withdraw _) => ∀ e ∈ sinceStake msg.sender s.2, rewardedTo msg.sender e.call →
      e.call.1.timestamp + s.1.withdrawCooldownSeconds ≤ msg.timestamp
  | _ => True

instance (s : Recorded Escrow (Msg × Call)) (msg : Msg) : Decidable (Timely s msg) :=
  inferInstanceAs (Decidable (_ ∧ _))

instance (s : Recorded Escrow (Msg × Call)) (c : Msg × Call) : Decidable (Rested s c) := by
  unfold Rested
  split <;> infer_instance

/-! ## the clock of a provider -/

/-- everything up to the last stake of a provider is at most as young as its clock -/
def Clocked (s : Recorded Escrow (Msg × Call)) : Prop :=
  ∀ p, ∀ e ∈ s.2, e ∈ sinceStake p s.2 ∨ e.call.1.timestamp ≤ s.1.lastStakedAt p

section
variable {p : Address} {s t : Escrow} {msg : Msg} {c : Call}
  {trail : List (Entry Escrow (Msg × Call))}

theorem lastStakedAt_stake (h : Effect s msg c t) (hp : stakedBy p (msg, c) = true) :
    t.lastStakedAt p = msg.timestamp % 2 ^ 64 := by
  cases h with
  | stake hpaused hvalue hactive =>
    obtain rfl : msg.sender = p := beq_iff_eq.mp hp
    exact Function.update_self _ _ _
  | _ => cases hp

theorem lastStakedAt_effect (h : Effect s msg c t) (hp : stakedBy p (msg, c) = false) :
    t.lastStakedAt p = s.lastStakedAt p := by
  cases h with
  | stake hpaused hvalue hactive =>
    have hne : msg.sender ≠ p := beq_eq_false_iff_ne.mp hp
    exact Function.update_of_ne hne.symm _ _
  | _ => rfl

theorem Clocked.effect (hs : Clocked (s, trail)) (htime : Timely (s, trail) msg)
    (h : Effect s msg c t) : Clocked (t, ⟨s, (msg, c)⟩ :: trail) := by
  intro p e he
  cases hp : stakedBy p (msg, c) with
  | true =>
    -- a stake: nothing in the history is younger than it
    right
    show e.call.1.timestamp ≤ t.lastStakedAt p
    rw [lastStakedAt_stake h hp, Nat.mod_eq_of_lt htime.1]
    rcases List.mem_cons.mp he with rfl | he'
    · exact Nat.le_refl _
    · exact htime.2 e he'
  | false =>
    have hsince : sinceStake p (⟨s, (msg, c)⟩ :: trail) =
        ⟨s, (msg, c)⟩ :: sinceStake p trail := by
      apply List.takeWhile_cons_of_pos
      rw [hp]
      rfl
    rw [hsince]
    rcases List.mem_cons.mp he with rfl | he'
    · exact .inl List.mem_cons_self
    · rcases hs p e he' with hin | hle
      · exact .inl (List.mem_cons_of_mem _ hin)
      · right
        show e.call.1.timestamp ≤ t.lastStakedAt p
        rw [lastStakedAt_effect h hp]
        exact hle

/-- a rested withdrawal that does not revert comes late enough after every credit -/
theorem withdraw_waits {amount : Nat} (hs : Clocked (s, trail))
    (hrest : Rested (s, trail) (msg, .withdraw amount)) (h : Effect s msg (.withdraw amount) t)
    {e : Entry Escrow (Msg × Call)} (he : e ∈ trail)
    (hcredit : stakedBy msg.sender e.call ∨ rewardedTo msg.sender e.call) :
    e.call.1.timestamp + s.withdrawCooldownSeconds ≤ msg.timestamp := by
  cases h with
  | withdraw _ hpaused hamount hstake hcooldown hfloor htotal hbalance =>
    rcases hs msg.sender e he with hin | hle
    · rcases hcredit with hstaked | hrewarded
      · have hnot := List.mem_takeWhile_imp hin
        rw [hstaked] at hnot
        cases hnot
      · exact hrest e hin hrewarded
    · have hclock : e.call.1.timestamp ≤ s.lastStakedAt msg.sender := hle
      omega

theorem CooledDown.cons (htrail : CooledDown trail)
    (h : ∀ amount, c = .withdraw amount → ∀ e ∈ trail,
      stakedBy msg.sender e.call ∨ rewardedTo msg.sender e.call →
      e.call.1.timestamp + s.withdrawCooldownSeconds ≤ msg.timestamp) :
    CooledDown (⟨s, (msg, c)⟩ :: trail) := by
  intro later w earlier amount heq hw e he hcredit
  cases later with
  | nil =>
    obtain ⟨rfl, rfl⟩ := List.cons.inj heq
    exact h amount hw e he hcredit
  | cons x later =>
    obtain ⟨rfl, rfl⟩ := List.cons.inj heq
    exact htrail later w earlier amount rfl hw e he hcredit

end

/-! ## whole runs -/

theorem Leads.cooledDown {self : Address} {s₀ : Escrow} {s : Recorded Escrow (Msg × Call)}
    (h : Nested.Leads (exec self) (fun s c => Timely s c.1 ∧ Rested s c) s₀ s) :
    Clocked s ∧ CooledDown s.2 := by
  induction h with
  | start =>
    refine ⟨fun p e he => absurd he List.not_mem_nil, fun later w earlier amount heq => ?_⟩
    exact absurd heq.symm (List.append_ne_nil_of_right_ne_nil _ (List.cons_ne_nil _ _))
  | @call s trail c t _ hQ he ih =>
    have heff : Effect s c.1 c.2 t := exec_effect he
    refine ⟨ih.1.effect hQ.1 heff, ih.2.cons fun amount hc e hmem hcredit => ?_⟩
    obtain ⟨msg, _⟩ := c
    obtain rfl : _ = Call.withdraw amount := hc
    exact withdraw_waits ih.1 hQ.2 heff hmem hcredit

/-- **Everything credited waits out the cool-down, as long as nobody withdraws with a younger reward that came
after its last stake.** -/
theorem credits_wait {self : Address} {s₀ : Escrow} {m : Machine (Recorded Escrow (Msg × Call))}
    {as : List (Action (Msg × Call))}
    (hok : Along (step (recorded (exec self))) (Meets fun s c => Timely s c.1 ∧ Rested s c)
      ⟨(s₀, []), []⟩ as)
    (hrun : run (step (recorded (exec self))) ⟨(s₀, []), []⟩ as = some m) :
    m.All fun s => CooledDown s.2 := by
  have hall := run_leads hok hrun
  exact ⟨(Leads.cooledDown hall.1).2, fun s hs => (Leads.cooledDown (hall.2 s hs)).2⟩

/-- `plainMsg` at another time -/
def msgAt (sender : Address) (value timestamp : Nat) : Msg :=
  { plainMsg sender value with timestamp := timestamp }

/-- the escrow deployed with a cool-down of a day -/
def dayDeployed : Escrow :=
  { deployed with withdrawCooldownSeconds := 86400, logs := [.policyUpdated 10 0 86400] }

/-- provider 3 stakes 8, is rewarded with 4 and withdraws all of it when the reward is a day old -/
def restedRun : List (Action (Msg × Call)) :=
  [.call (msgAt 3 8 100, .stake), .call (msgAt 1 4 100, .fundRewardPool),
    .call (msgAt 2 0 3700, .reward 3 4 0), .call (msgAt 3 0 90100, .withdraw 12), .ret true]

theorem credits_wait_restedRun : ∃ m,
    run (step (recorded (exec 9))) ⟨(dayDeployed, []), []⟩ restedRun = some m ∧
      m.All fun s => CooledDown s.2 := by
  obtain ⟨m, hm⟩ : ∃ m,
    run (step (recorded (exec 9))) ⟨(dayDeployed, []), []⟩ restedRun = some m := ⟨_, rfl⟩
  exact ⟨m, hm, @credits_wait 9 dayDeployed m restedRun (by decide) hm⟩

/-- the same, with the reward one second before the withdrawal -/
def freshRun : List (Action (Msg × Call)) :=
  [.call (msgAt 3 8 100, .stake), .call (msgAt 1 4 100, .fundRewardPool),
    .call (msgAt 2 0 90099, .reward 3 4 0), .call (msgAt 3 0 90100, .withdraw 12), .ret true]

/-- **A reward leaves one second after it was credited.** -/
theorem fresh_reward : deploy 1 2 3 10 0 86400 = .ok dayDeployed ∧
    Along (step (recorded (exec 9))) (Meets fun s c => Timely s c.1) ⟨(dayDeployed, []), []⟩
      freshRun ∧
    ¬ ∀ m, run (step (recorded (exec 9))) ⟨(dayDeployed, []), []⟩ freshRun = some m →
      CooledDown m.top.2 := by
  refine ⟨rfl, by decide, fun h => ?_⟩
  have hwait := h _ rfl [] _ _ 12 rfl rfl _ List.mem_cons_self (.inr rfl)
  exact absurd hwait (by decide)

end ReputationEscrow
