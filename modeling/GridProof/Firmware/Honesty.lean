import GridProof.Firmware.Payload

/-!
# What a body says about the feeder

The status and the voltage of a cycle's body, against what the cycle measured.

* `measured`        the values of the voltage group, if it was read;
* `Honest`          a body reports an outage only from three finite values whose minimum rounds to
                    at most 5 V, and says `unknown`, without a voltage, where nothing was measured;
* `honest_iff`      a body is honest exactly if no group was read, or the voltage group was, as
                    numbers, all finite or all of at least 5.5 V;
* `partial_read`    one good group of another quantity turns a silent voltage group into an outage.
-/

namespace Firmware

open BinaryFloat

abbrev Voltages := Value × Value × Value

def voltages (regs : Vector Register 6) : Voltages :=
  (float (lineVoltages regs).1, float (lineVoltages regs).2.1, float (lineVoltages regs).2.2)

def measured (bus : Bus) : Option Voltages := (bus 1020 6).map voltages

/-- the group decodes to numbers -/
def Numbers (v : Voltages) : Prop := v.1.isNumber ∧ v.2.1.isNumber ∧ v.2.2.isNumber

/-- no value is below `q` -/
def AtLeast (q : ℚ) (v : Voltages) : Prop :=
  ¬ v.1.lt (.fin q) ∧ ¬ v.2.1.lt (.fin q) ∧ ¬ v.2.2.lt (.fin q)

def Finite (v : Voltages) : Prop := ∃ p q r, v = (.fin p, .fin q, .fin r)

structure Honest (bus : Bus) (body : GridProofBody) : Prop where
  down : body.status = .gridDown → ∃ p q r, measured bus = some (.fin p, .fin q, .fin r) ∧
    roundAway (min (min p q) r) ≤ downVoltage
  unmeasured : (∀ v, measured bus = some v → ¬ Numbers v) →
    body.status = .unknown ∧ body.voltage = none

/-! ## the reported voltage -/

/-- a number is reported at most 5 iff it is below 5.5 -/
theorem reported_le_iff {low : Value} (h : low.isNumber) :
    reported low ≤ downVoltage ↔ low.lt (.fin (11 / 2)) := by
  cases low with
  | nan => cases h
  | inf negative => cases negative <;> decide
  | fin q =>
    have hround := roundAway_le_iff q 5
    simp only [reported, Value.isNumber, Value.lt, lroundf, downVoltage, Bool.not_true,
      Bool.false_eq_true, if_false, decide_eq_true_eq]
    split
    · exact ⟨fun _ => by linarith, fun _ => by decide⟩
    · split
      · exact ⟨fun h => absurd h (by decide), fun _ => by linarith⟩
      · push_cast at hround
        rw [hround]
        norm_num

/-! ## bodies -/

section
variable {cfg : Config} {now : BitVec 32} {i : Fin 2} {bus : Bus} {body : GridProofBody}

theorem cycleBody_eq_some (h : cycleBody cfg now i bus = some body) :
    body = gridProofBody cfg (captureRecord now i bus) := buildGridProofPayload_eq_some h

/-- a meter that answered nothing -/
theorem silent_body (h : cycleBody cfg now i bus = some body)
    (hoff : (captureMeter bus).1 = false) : body.status = .unknown ∧ body.voltage = none := by
  have honline : (captureRecord now i bus).online = 0 := by
    show (if (captureMeter bus).1 then (1 : BitVec 8) else 0) = 0
    rw [hoff]
    rfl
  rw [cycleBody_eq_some h]
  refine ⟨if_pos honline, ?_⟩
  show (if gridproofVoltage (captureRecord now i bus) < 0 then none else some _) = none
  rw [if_pos]
  rw [gridproofVoltage, if_pos honline]
  decide

/-- a meter that answered something -/
theorem online_body (h : cycleBody cfg now i bus = some body)
    (hon : (captureMeter bus).1 = true) :
    body.status = (if reported (lowest (captureMeter bus).2) ≤ downVoltage then .gridDown
      else .gridUp) := by
  have honline : (captureRecord now i bus).online ≠ 0 := by
    show (if (captureMeter bus).1 then (1 : BitVec 8) else 0) ≠ 0
    rw [hon]
    decide
  rw [cycleBody_eq_some h]
  show gridproofStatusFor (captureRecord now i bus) = _
  unfold gridproofStatusFor gridproofVoltage
  rw [if_neg honline, if_neg honline]
  rfl

theorem online_status_ne (h : cycleBody cfg now i bus = some body)
    (hon : (captureMeter bus).1 = true) : body.status ≠ .unknown := by
  rw [online_body h hon]
  split
  · decide
  · decide

/-- the lowest voltage of a record whose voltage group was read -/
theorem lowest_of_measured {v : Voltages} (hon : (captureMeter bus).1 = true)
    (hv : measured bus = some v) :
    lowest (captureMeter bus).2 = (v.1.lower v.2.1).lower v.2.2 := by
  obtain ⟨regs, hregs, rfl⟩ := Option.map_eq_some_iff.mp hv
  have hvolts := captureMeter_volts hon
  rw [hregs] at hvolts
  have h₁ := congrArg Prod.fst hvolts
  have h₂ := congrArg (fun v => v.2.1) hvolts
  have h₃ := congrArg (fun v => v.2.2) hvolts
  dsimp only [Readings.volts, Option.map_some, Option.getD_some] at h₁ h₂ h₃
  unfold lowest
  rw [h₁, h₂, h₃]
  rfl

/-- with the voltage group read as numbers, the body is an outage iff some value is below 5.5 -/
theorem status_gridDown_iff {v : Voltages} (h : cycleBody cfg now i bus = some body)
    (hon : (captureMeter bus).1 = true) (hv : measured bus = some v) (hnum : Numbers v) :
    body.status = .gridDown ↔ ¬ AtLeast (11 / 2) v := by
  obtain ⟨h₁, h₂, h₃⟩ := hnum
  have hlow : body.status = .gridDown ↔ ((v.1.lower v.2.1).lower v.2.2).lt (.fin (11 / 2)) := by
    rw [online_body h hon, lowest_of_measured hon hv,
      ← reported_le_iff (Value.lower_isNumber (Value.lower_isNumber h₁ h₂) h₃)]
    split
    · rename_i hle
      exact ⟨fun _ => hle, fun _ => rfl⟩
    · rename_i hle
      exact ⟨nofun, fun hle' => absurd hle' hle⟩
  rw [hlow, Value.lower_lt_iff (Value.lower_isNumber h₁ h₂), Value.lower_lt_iff h₁]
  simp only [AtLeast, not_and_or, not_not, or_assoc]

/-! ## when a body is honest -/

/-- no group was read, or the voltage group was, as numbers that are all finite or all of at least
5.5 V -/
def Sound (bus : Bus) : Prop :=
  (∀ g ∈ registerGroups, bus g.1 g.2 = none) ∨
  ∃ v, measured bus = some v ∧ Numbers v ∧ (Finite v ∨ AtLeast (11 / 2) v)

/-- **A body is honest exactly if the voltage group was read whenever any group was, and what it
decodes to is a number, finite where it is low.** -/
theorem honest_iff (h : cycleBody cfg now i bus = some body) : Honest bus body ↔ Sound bus := by
  cases hon : (captureMeter bus).1 with
  | false =>
    have hnone : ∀ g ∈ registerGroups, bus g.1 g.2 = none := by
      intro g hg
      by_contra hne
      have hsome : (bus g.1 g.2).isSome := Option.isSome_iff_ne_none.mpr hne
      rw [(captureMeter_online bus).mpr ⟨g, hg, hsome⟩] at hon
      cases hon
    have hsilent := silent_body h hon
    refine ⟨fun _ => .inl hnone, fun _ => ⟨fun hd => ?_, fun _ => hsilent⟩⟩
    rw [hsilent.1] at hd
    cases hd
  | true =>
    have hne : body.status ≠ .unknown := online_status_ne h hon
    constructor
    · intro hh
      -- a status other than `unknown` must come from a measurement
      obtain ⟨v, hv, hnum⟩ : ∃ v, measured bus = some v ∧ Numbers v := by
        by_contra hno
        push Not at hno
        exact hne (hh.unmeasured hno).1
      refine .inr ⟨v, hv, hnum, ?_⟩
      by_cases hge : AtLeast (11 / 2) v
      · exact .inr hge
      · obtain ⟨p, q, r, hpqr, -⟩ := hh.down ((status_gridDown_iff h hon hv hnum).mpr hge)
        rw [hv] at hpqr
        exact .inl ⟨p, q, r, Option.some.inj hpqr⟩
    · rintro (hnone | ⟨v, hv, hnum, hcase⟩)
      · obtain ⟨g, hg, hsome⟩ := (captureMeter_online bus).mp hon
        rw [hnone g hg] at hsome
        cases hsome
      · refine ⟨fun hd => ?_, fun hno => absurd hnum (hno v hv)⟩
        have hlow := (status_gridDown_iff h hon hv hnum).mp hd
        rcases hcase with ⟨p, q, r, rfl⟩ | hge
        · refine ⟨p, q, r, hv, ?_⟩
          rw [online_body h hon, lowest_of_measured hon hv, Value.lower_fin, Value.lower_fin] at hd
          have hle : reported (.fin (min (min p q) r)) ≤ downVoltage := by
            by_contra hgt
            rw [if_neg hgt] at hd
            cases hd
          have hlt := of_decide_eq_true ((reported_le_iff rfl).mp hle)
          refine (roundAway_le_iff _ 5).mpr ?_
          push_cast
          linarith
        · exact absurd hge hlow

end

/-- only the current group answers, with zeros -/
def onlyCurrents : Bus := fun addr count =>
  if addr = 1000 then some (Vector.replicate count 0) else none

/-- a healthy feeder: every group answers, each value with the words of 10700 -/
def healthy : Bus := fun _ count =>
  some (Vector.ofFn fun k : Fin count => if k.val % 2 = 0 then 0x4627 else 0x3000)

theorem honest_iff_healthy : ∃ body, cycleBody shipped 1700000000 0 healthy = some body ∧
    (Honest healthy body ↔ Sound healthy) :=
  ⟨_, buildGridProofPayload_fits shipped_fits _,
    honest_iff (buildGridProofPayload_fits shipped_fits _)⟩

/-- **A meter that answers one group of currents and not the voltages is reported as an outage.** -/
theorem partial_read : measured onlyCurrents = none ∧
    ∃ body, cycleBody shipped 1700000000 0 onlyCurrents = some body ∧
      body.status = .gridDown ∧ body.voltage = some 0 ∧ ¬ Honest onlyCurrents body := by
  refine ⟨rfl, _, buildGridProofPayload_fits shipped_fits _, by decide +kernel, by decide +kernel,
    fun h => ?_⟩
  have hunknown := (h.unmeasured nofun).1
  revert hunknown
  decide +kernel

end Firmware
