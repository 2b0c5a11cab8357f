import GridProof.Registry.Contract

/-!
# What the registry's records say of its history

The history of a state is the list of calls that have led to it, latest first, each with the state it was made
in (`Nested.recorded`).

* `HistoryOf`          `p` is active iff the last call that registered or deactivated it registered it, and its
                       record is that of its own last `register`, which passed the checks of its time;
* `effect_history`     every call that does not revert keeps it, for every provider;
* `registry_history`   it holds after every run, in each open frame; only a provider or an admin deactivates
                       it, and either can, at any time.
-/

namespace NodeRegistry
open Nested Runs
open ReputationEscrow (Address Bytes32)

/-! ## the history of a provider -/

section
variable (p : Address)

/-- `p` registers itself -/
def registers : Msg × Call → Bool
  | (msg, .register _ _) => msg.sender == p
  | _ => false

def deactivates : Msg × Call → Bool
  | (_, .deactivate q) => q == p
  | _ => false

def lastRegister (trail : List (Entry Registry (Msg × Call))) : Option (Entry Registry (Msg × Call)) :=
  trail.find? fun e => registers p e.call

def lastChange (trail : List (Entry Registry (Msg × Call))) : Option (Entry Registry (Msg × Call)) :=
  trail.find? fun e => registers p e.call || deactivates p e.call

/-- the record is what the call of `e` wrote, and the call was allowed to -/
structure RegisteredBy (e : Entry Registry (Msg × Call)) (r : Provider) : Prop where
  sender : e.call.1.sender = p
  call : e.call.2 = .register r.zoneId r.providerType
  time : e.call.1.time = r.registeredAt
  zone : e.state.validZones r.zoneId = true
  type : r.providerType = 0 ∨ r.providerType = 1
  unpaused : e.state.paused = false

structure HistoryOf (s : Recorded Registry (Msg × Call)) : Prop where
  active_iff : s.1.isActive p = true ↔
    ∃ e, lastChange p s.2 = some e ∧ registers p e.call = true
  registered : ∀ e, lastRegister p s.2 = some e → RegisteredBy p e (s.1.providers p)
  unregistered : lastRegister p s.2 = none → s.1.providers p = .zero

end

/-- an active provider has a time -/
def Stamped (s : Registry) : Prop :=
  ∀ p, s.isActive p = true → (s.providers p).registeredAt ≠ 0

/-- allowlist changes and the emergency stop -/
def Call.admin : Call → Bool
  | .addZone _ | .removeZone _ | .pause | .unpause => true
  | .register _ _ | .deactivate _ => false

section
variable {p : Address} {s t : Registry} {msg : Msg} {c : Call}
  {trail : List (Entry Registry (Msg × Call))}

/-! ## one call -/

theorem deploy_history : HistoryOf p (deploy, []) where
  active_iff := iff_of_false nofun nofun
  registered := nofun
  unregistered _ := rfl

/-- a call that is not about `p` and leaves its record alone -/
theorem HistoryOf.frame (h : HistoryOf p (s, trail)) (hreg : registers p (msg, c) = false)
    (hdeact : deactivates p (msg, c) = false) (hp : t.providers p = s.providers p) :
    HistoryOf p (t, ⟨s, (msg, c)⟩ :: trail) := by
  have hlast : lastRegister p (⟨s, (msg, c)⟩ :: trail) = lastRegister p trail := by
    apply List.find?_cons_of_neg
    simp only [hreg, Bool.false_eq_true, not_false_eq_true]
  have hchange : lastChange p (⟨s, (msg, c)⟩ :: trail) = lastChange p trail := by
    apply List.find?_cons_of_neg
    simp only [hreg, hdeact, Bool.or_self, Bool.false_eq_true, not_false_eq_true]
  have hact : t.isActive p = s.isActive p := congrArg Provider.active hp
  refine ⟨?_, ?_, ?_⟩
  · rw [hact, hchange]
    exact h.active_iff
  · rw [hlast, hp]
    exact h.registered
  · rw [hlast, hp]
    exact h.unregistered

theorem HistoryOf.register {r : Provider} (hr : RegisteredBy p ⟨s, (msg, c)⟩ r)
    (hp : t.providers p = r) (hactive : r.active = true) :
    HistoryOf p (t, ⟨s, (msg, c)⟩ :: trail) := by
  have hreg : registers p (msg, c) = true := by
    obtain rfl : c = _ := hr.call
    exact beq_iff_eq.mpr hr.sender
  have hlast : lastRegister p (⟨s, (msg, c)⟩ :: trail) = some ⟨s, (msg, c)⟩ :=
    List.find?_cons_of_pos hreg
  refine ⟨iff_of_true ?_ ⟨⟨s, (msg, c)⟩, ?_, hreg⟩, fun e he => ?_, fun hnone => ?_⟩
  · rw [← hactive, ← hp]
    rfl
  · apply List.find?_cons_of_pos
    simp only [hreg, Bool.true_or]
  · obtain rfl := Option.some.inj (hlast.symm.trans he)
    rw [hp]
    exact hr
  · exact absurd (hlast.symm.trans hnone) (Option.some_ne_none _)

/-- a deactivation leaves everything of the record but the flag -/
theorem HistoryOf.deactivate (h : HistoryOf p (s, trail)) (hactive : s.isActive p = true)
    (hp : t.providers p = { s.providers p with active := false }) :
    HistoryOf p (t, ⟨s, (msg, .deactivate p)⟩ :: trail) := by
  have hchange : lastChange p (⟨s, (msg, .deactivate p)⟩ :: trail) =
      some ⟨s, (msg, .deactivate p)⟩ := by
    apply List.find?_cons_of_pos
    simp only [registers, deactivates, beq_self_eq_true, Bool.or_true]
  have hinactive : t.isActive p = false := congrArg Provider.active hp
  refine ⟨iff_of_false ?_ ?_, fun e he => ?_, fun hnone => ?_⟩
  · rw [hinactive]
    exact Bool.false_ne_true
  · rintro ⟨e, he, hreg⟩
    obtain rfl := Option.some.inj (hchange.symm.trans he)
    exact Bool.false_ne_true hreg
  · obtain ⟨sender, call, time, zone, type, unpaused⟩ := h.registered e he
    rw [hp]
    exact ⟨sender, call, time, zone, type, unpaused⟩
  · -- a provider without a `register` is not active
    have hzero : s.providers p = .zero := h.unregistered hnone
    have hact : (s.providers p).active = true := hactive
    rw [hzero] at hact
    cases hact

/-- **Every call that does not revert keeps the history of every provider.** -/
theorem effect_history (h : HistoryOf p (s, trail)) (he : Effect s msg c t) :
    HistoryOf p (t, ⟨s, (msg, c)⟩ :: trail) := by
  cases he with
  | addZone zoneId => exact h.frame rfl rfl rfl
  | removeZone zoneId => exact h.frame rfl rfl rfl
  | pause => exact h.frame rfl rfl rfl
  | unpause => exact h.frame rfl rfl rfl
  | register zoneId providerType hpaused hzone htype hinactive =>
    by_cases hq : msg.sender = p
    · subst hq
      exact .register ⟨rfl, rfl, rfl, hzone, htype, hpaused⟩ (Function.update_self _ _ _) rfl
    · exact h.frame (beq_eq_false_iff_ne.mpr hq) rfl (Function.update_of_ne (Ne.symm hq) _ _)
  | deactivate provider hsender hactive =>
    by_cases hq : provider = p
    · subst hq
      exact h.deactivate hactive (Function.update_self _ _ _)
    · exact h.frame rfl (beq_eq_false_iff_ne.mpr hq) (Function.update_of_ne (Ne.symm hq) _ _)

theorem Stamped.effect (hs : Stamped s) (hmsg : msg.time ≠ 0) (he : Effect s msg c t) :
    Stamped t := by
  intro q hq
  unfold Registry.isActive at hq
  cases he with
  | addZone zoneId => exact hs q hq
  | removeZone zoneId => exact hs q hq
  | pause => exact hs q hq
  | unpause => exact hs q hq
  | register zoneId providerType hpaused hzone htype hinactive =>
    by_cases hne : q = msg.sender
    · subst hne
      dsimp only
      rw [Function.update_self]
      exact hmsg
    · dsimp only at hq ⊢
      rw [Function.update_of_ne hne] at hq ⊢
      exact hs q hq
  | deactivate provider hsender hactive =>
    by_cases hne : q = provider
    · subst hne
      dsimp only at hq
      rw [Function.update_self] at hq
      cases hq
    · dsimp only at hq ⊢
      rw [Function.update_of_ne hne] at hq ⊢
      exact hs q hq

/-- only `deactivate p` makes `p` inactive, and only `p` or an admin calls it with success -/
theorem effect_inactive (he : Effect s msg c t) (hs : s.isActive p = true)
    (ht : t.isActive p = false) :
    c = .deactivate p ∧ (msg.sender = p ∨ msg.hasRole .defaultAdmin msg.sender = true) := by
  have hne : t.providers p ≠ s.providers p := by
    intro h
    have hact : t.isActive p = s.isActive p := congrArg Provider.active h
    rw [hs, ht] at hact
    cases hact
  cases he with
  | addZone zoneId => exact absurd rfl hne
  | removeZone zoneId => exact absurd rfl hne
  | pause => exact absurd rfl hne
  | unpause => exact absurd rfl hne
  | register zoneId providerType hpaused hzone htype hinactive =>
    by_cases hq : p = msg.sender
    · subst hq
      rw [hinactive] at hs
      cases hs
    · exact absurd (Function.update_of_ne hq _ _) hne
  | deactivate provider hsender hactive =>
    by_cases hq : p = provider
    · subst hq
      exact ⟨rfl, hsender⟩
    · exact absurd (Function.update_of_ne hq _ _) hne

theorem effect_admin (he : Effect s msg c t) (hc : c.admin = true) : t.providers = s.providers := by
  cases he with
  | addZone zoneId => rfl
  | removeZone zoneId => rfl
  | pause => rfl
  | unpause => rfl
  | register zoneId providerType hpaused hzone htype hinactive => cases hc
  | deactivate provider hsender hactive => cases hc

end

/-! ## whole runs -/

theorem Leads.history {Q : Recorded Registry (Msg × Call) → Msg × Call → Prop}
    {s : Recorded Registry (Msg × Call)} (h : Nested.Leads exec Q deploy s) (p : Address) :
    HistoryOf p s := by
  induction h with
  | start => exact deploy_history
  | call _ _ he ih => exact effect_history ih (exec_effect he)

theorem Leads.stamped {s : Recorded Registry (Msg × Call)}
    (h : Nested.Leads exec (fun _ c => c.1.time ≠ 0) deploy s) : Stamped s.1 := by
  induction h with
  | start => exact nofun
  | call _ hmsg he ih => exact ih.effect hmsg (exec_effect he)

/-- the block time of the call is not zero in the type of the contract's times -/
def Timed : Action (Msg × Call) → Prop
  | .call c => c.1.time ≠ 0
  | _ => True

instance : DecidablePred Timed := fun a => by
  unfold Timed
  split <;> infer_instance

/-- **The registry's records are what its history says, only a provider or an admin deactivates the provider,
the admin's other calls alter no record, and an active provider can always be deactivated.** -/
theorem registry_history {m : Machine (Recorded Registry (Msg × Call))}
    {as : List (Action (Msg × Call))} (htimed : ∀ a ∈ as, Timed a)
    (hrun : run (step (recorded exec)) ⟨(deploy, []), []⟩ as = some m) :
    m.All (fun s => ∀ p, HistoryOf p s) ∧
    (∀ msg c t, exec m.top.1 (msg, c) = .done t →
      (∀ p, m.top.1.isActive p = true → t.isActive p = false →
        msg.sender = p ∨ msg.hasRole .defaultAdmin msg.sender = true) ∧
      (c.admin = true → t.providers = m.top.1.providers)) ∧
    ∀ msg p, m.top.1.isActive p = true → msg.value = 0 →
      (msg.sender = p ∨ msg.hasRole .defaultAdmin msg.sender = true) →
      ∃ t, exec m.top.1 (msg, .deactivate p) = .done t ∧ t.isActive p = false := by
  have hall : m.All (Nested.Leads exec (fun _ c => c.1.time ≠ 0) deploy) := by
    refine run_leads (along_of_forall (fun a ha s => ?_) _) hrun
    have hta := htimed a ha
    cases a with
    | call c => exact hta
    | enter => trivial
    | ret ok => trivial
  refine ⟨⟨Leads.history hall.1, fun s hs => Leads.history (hall.2 s hs)⟩, ?_, ?_⟩
  · intro msg c t ht
    have he : Effect m.top.1 msg c t := exec_effect (.inl ht)
    exact ⟨fun p hp hq => (effect_inactive he hp hq).2, effect_admin he⟩
  · intro msg p hactive hvalue hsender
    exact deactivate_ok hvalue hsender (Leads.stamped hall.1 p hactive) hactive

/-- a message at second 100; account 1 has every role -/
def plainMsg (sender : Address) : Msg where
  sender := sender
  value := 0
  timestamp := 100
  hasRole := fun _ account => account == 1

/-- provider 3 registers, the admin deactivates it in a transaction that fails and in one that does not, and
it registers in another zone, which is then removed -/
def reregistered : List (Action (Msg × Call)) :=
  [.call (plainMsg 1, .addZone 5), .call (plainMsg 1, .addZone 6),
    .call (plainMsg 3, .register 5 providerTypeSensorNode), .enter,
    .call (plainMsg 1, .deactivate 3), .ret false, .call (plainMsg 1, .deactivate 3),
    .call (plainMsg 3, .register 6 providerTypeHumanReporter), .call (plainMsg 1, .removeZone 6)]

theorem registry_history_reregistered :
    (run (step (recorded exec)) ⟨(deploy, []), []⟩ reregistered).map
      (fun m => m.top.1.getProvider 3) = some ⟨6, 1, 100, true⟩ ∧
    ∃ m, run (step (recorded exec)) ⟨(deploy, []), []⟩ reregistered = some m ∧
      m.All fun s => ∀ p, HistoryOf p s := by
  refine ⟨rfl, ?_⟩
  obtain ⟨m, hm⟩ : ∃ m, run (step (recorded exec)) ⟨(deploy, []), []⟩ reregistered = some m :=
    ⟨_, rfl⟩
  exact ⟨m, hm, (@registry_history m reregistered (by decide) hm).1⟩

end NodeRegistry
