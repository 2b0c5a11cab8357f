import GridProof.Registry.History
import GridProof.Escrow.Cooldown

/-!
# The stake floor over both contracts

`withdraw` holds an active provider to the stake floor at the moment of the call; whether it is active is the
provider's own choice in the other contract.

* `System`        both contracts; the escrow asks the registry of the moment;
* `floor_step`    a call that neither changes the policy nor slashes `p`, and is no withdrawal by an inactive
                  `p` to below the floor, leaves `p` with the floor if it had it;
* `floor_holds`   the same over whole runs, from any point of the history on;
* `floor_passed`  a provider leaves, withdraws and comes back without a stake.
-/

namespace Staking

open Nested Runs
open ReputationEscrow (Address Escrow)
open NodeRegistry (Registry)

structure System where
  registry : Registry
  escrow : Escrow

inductive Call where
  | registry (msg : NodeRegistry.Msg) (c : NodeRegistry.Call)
  | escrow (msg : ReputationEscrow.Msg) (c : ReputationEscrow.Call)

/-- the escrow at address `self` asks `nodeRegistry.isActive` while its call runs -/
def exec (self : Address) (s : System) : Call → Outcome System
  | .registry msg c => (NodeRegistry.exec s.registry (msg, c)).map fun r => { s with registry := r }
  | .escrow msg c => (ReputationEscrow.exec self s.escrow
      ({ msg with isActive := s.registry.isActive }, c)).map fun t => { s with escrow := t }

/-! ## what may take a provider below the floor -/

def setsPolicy : Call → Bool
  | .escrow _ (.setPolicy _ _ _) => true
  | _ => false

section
variable (p : Address)

def slashes : Call → Bool
  | .escrow _ (.slash q _ _) => q == p
  | _ => false

/-- `p` is inactive and withdraws to below the floor -/
def leavesBelow (s : System) : Call → Bool
  | .escrow msg (.withdraw amount) => msg.sender == p && !s.registry.isActive p &&
      decide (s.escrow.stakes p - amount < s.escrow.minimumStake)
  | _ => false

/-- `p` has the floor -/
def Bonded (s : System) : Prop := s.escrow.minimumStake ≤ s.escrow.stakes p

/-- the call in its state can take nothing from `p` below the floor -/
def Spares (e : Entry System Call) : Prop :=
  setsPolicy e.call = false ∧ slashes p e.call = false ∧ leavesBelow p e.state e.call = false

end

instance (p : Address) (s : System) : Decidable (Bonded p s) :=
  inferInstanceAs (Decidable (_ ≤ _))

instance (p : Address) (e : Entry System Call) : Decidable (Spares p e) :=
  inferInstanceAs (Decidable (_ ∧ _ ∧ _))

/-! ## one call -/

section
variable {self p : Address} {s t : System}

theorem escrow_floor {msg : ReputationEscrow.Msg} {c : ReputationEscrow.Call} {u : Escrow}
    (hs : Bonded p s) (hc : Spares p ⟨s, .escrow msg c⟩)
    (h : ReputationEscrow.Effect s.escrow { msg with isActive := s.registry.isActive } c u) :
    u.minimumStake ≤ u.stakes p := by
  obtain ⟨hpolicy, hslash, hleave⟩ := hc
  have hfloor : s.escrow.minimumStake ≤ s.escrow.stakes p := hs
  cases h with
  | setPolicy cap minimum cooldown hrole => cases hpolicy
  | fundRewardPool hrole hvalue => exact hfloor
  | withdrawRewardPool recipient amount hrole hamount hpool hbalance => exact hfloor
  | pause hrole => exact hfloor
  | unpause hrole => exact hfloor
  | stake hpaused hvalue hactive =>
    dsimp only
    rw [Function.update_apply]
    split
    · rename_i hp
      rw [← hp]
      exact hfloor.trans (Nat.le_add_right _ _)
    · exact hfloor
  | withdraw amount hpaused hamount hstake hcooldown hwithdraw htotal hbalance =>
    dsimp only
    rw [Function.update_apply]
    split
    · rename_i hp
      subst hp
      by_contra hlt
      rw [Nat.not_le] at hlt
      -- below the floor the escrow has found the provider inactive
      have hinactive : s.registry.isActive msg.sender = false := hwithdraw hlt
      simp only [leavesBelow, beq_self_eq_true, hinactive, Bool.not_false, Bool.and_self,
        Bool.true_and, decide_eq_false_iff_not] at hleave
      exact hleave hlt
    · exact hfloor
  | reward provider amount evidenceHash hrole hpaused hprovider hamount hpool =>
    dsimp only
    rw [Function.update_apply]
    split
    · rename_i hp
      rw [← hp]
      exact hfloor.trans (Nat.le_add_right _ _)
    · exact hfloor
  | slash provider amount reasonHash hrole hpaused hprovider hamount hcap hstake htotal =>
    have hne : provider ≠ p := beq_eq_false_iff_ne.mp hslash
    dsimp only
    rw [Function.update_of_ne hne.symm]
    exact hfloor

/-- a call that spares `p` leaves it the floor -/
theorem floor_step {c : Call} (hs : Bonded p s) (hc : Spares p ⟨s, c⟩)
    (h : exec self s c = .done t ∨ exec self s c = .opened t) : Bonded p t := by
  cases c with
  | registry msg c =>
    obtain ⟨r, -, rfl⟩ := Outcome.map_ends h
    exact hs
  | escrow msg c =>
    obtain ⟨u, hu, rfl⟩ := Outcome.map_ends h
    exact escrow_floor hs hc (ReputationEscrow.exec_effect hu)

end

/-! ## whole runs -/

/-- **A provider that has once had the floor has it in every later state, unless the policy was changed, it
was slashed, or it withdrew to below the floor while it was inactive.** -/
theorem floor_holds {self : Address} {s₀ : System} {m : Machine (Recorded System Call)}
    {as : List (Action Call)}
    (hrun : run (step (recorded (exec self))) ⟨(s₀, []), []⟩ as = some m) :
    m.All fun s => ∀ p later u c earlier, s.2 = later ++ ⟨u, c⟩ :: earlier → Bonded p u →
      (∀ e ∈ later ++ [⟨u, c⟩], Spares p e) → Bonded p s.1 := by
  have hall := run_leads (Q := fun _ _ => True)
    (along_of_forall (fun a _ s => by cases a <;> exact trivial) _) hrun
  have hfloor : ∀ s, Leads (exec self) (fun _ _ => True) s₀ s → ∀ p later u c earlier,
      s.2 = later ++ ⟨u, c⟩ :: earlier → Bonded p u →
      (∀ e ∈ later ++ [⟨u, c⟩], Spares p e) → Bonded p s.1 := by
    intro s hs p later u c earlier htrail hu hspares
    obtain ⟨t, trail⟩ := s
    obtain rfl : trail = _ := htrail
    exact hs.since (P := Bonded p) (R := Spares p) (fun _ _ _ => floor_step) hu hspares
  exact ⟨hfloor _ hall.1, fun s hs => hfloor s (hall.2 s hs)⟩

open ReputationEscrow (plainMsg)

/-- the escrow deployed with a floor of 5, beside a registry without zones -/
def start : System :=
  ⟨NodeRegistry.deploy, { ReputationEscrow.deployed with
    minimumStake := 5, logs := [.policyUpdated 10 5 0] }⟩

/-- the admin allows zone 5, where provider 3 registers and stakes 8 -/
def bonding : List (Action Call) :=
  [.call (.registry (NodeRegistry.plainMsg 1) (.addZone 5)),
    .call (.registry (NodeRegistry.plainMsg 3) (.register 5 NodeRegistry.providerTypeSensorNode)),
    .call (.escrow (plainMsg 3 8) .stake)]

/-- provider 3 deactivates itself, withdraws and registers again -/
def returning (amount : Nat) : List (Action Call) :=
  [.call (.registry (NodeRegistry.plainMsg 3) (.deactivate 3)),
    .call (.escrow (plainMsg 3 0) (.withdraw amount)), .ret true,
    .call (.registry (NodeRegistry.plainMsg 3) (.register 5 NodeRegistry.providerTypeSensorNode))]

/-- down to the floor -/
theorem floor_holds_returning : ∃ m,
    run (step (recorded (exec 9))) ⟨(start, []), []⟩ (bonding ++ returning 3) = some m ∧
      Bonded 3 m.top.1 := by
  obtain ⟨m, hm⟩ : ∃ m,
    run (step (recorded (exec 9))) ⟨(start, []), []⟩ (bonding ++ returning 3) = some m := ⟨_, rfl⟩
  have hfloor := (floor_holds hm).1 3
  cases hm
  exact ⟨_, rfl, hfloor [_, _] _ _ [_, _, _] rfl (by decide) (by decide)⟩

/-- **A provider leaves, withdraws everything and is active again without a stake.** -/
theorem floor_passed : ReputationEscrow.deploy 1 2 3 10 5 0 = .ok start.escrow ∧
    ∃ m₁ m₂, run (step (exec 9)) ⟨start, []⟩ bonding = some m₁ ∧
      run (step (exec 9)) m₁ (returning 8) = some m₂ ∧
      m₁.top.registry.isActive 3 = true ∧ Bonded 3 m₁.top ∧
      m₂.top.registry.isActive 3 = true ∧ ¬ Bonded 3 m₂.top :=
  ⟨rfl, _, _, rfl, rfl, rfl, by decide, rfl, by decide⟩

end Staking
