import Mathlib.Data.Vector.Basic
import GridProof.Lib.BinaryFloat

/-!
# Reading a meter

The part of `hardware.ino` that turns one cycle of Modbus reads into a telemetry record.

* `Bus`             what each register read of the cycle returns: the words of the group, or
                    nothing;
* `readMeter`       the ten groups in order, each stored only if it was read;
* `captureMeter`    the meter's block of `loop`: locals start at zero and are zeroed again if the
                    meter answered nothing;
* `captureMeter_online`, `captureMeter_volts`  when a record counts as online, and which line
                    voltages it holds.
-/

namespace Firmware

open BinaryFloat

/-! ## registers -/

abbrev Register := BitVec 16
abbrev Binary32 := BitVec 32

def toFloat (hi lo : Register) : Binary32 := hi ++ lo
def toUInt32 (hi lo : Register) : BitVec 32 := hi ++ lo

/-- the outcome of `readRegs` for an address and a count of registers -/
abbrev Bus := (addr count : Nat) → Option (Vector Register count)

/-- the groups `readMeter` asks for, as address and count -/
def registerGroups : List (Nat × Nat) :=
  [(1000, 6), (1020, 6), (1028, 8), (1036, 8), (1044, 8), (1052, 8), (1074, 2), (2606, 2),
    (2622, 2), (2638, 2)]

/-! ## one pass over the groups -/

structure Readings where
  (I_L1 I_L2 I_L3 : Binary32)
  (V_L12 V_L23 V_L31 : Binary32)
  (activePowerInst reactivePowerInst apparentPowerInst : Binary32)
  (powerFactorAvg freqAvg : Binary32)
  (activeEnergyTot reactiveEnergyTot apparentEnergyTot : BitVec 32)

def Readings.zero : Readings := ⟨0, 0, 0, 0, 0, 0, 0, 0, 0, 0, 0, 0, 0, 0⟩

/-- the line-to-line voltages -/
def Readings.volts (x : Readings) : Binary32 × Binary32 × Binary32 := (x.V_L12, x.V_L23, x.V_L31)

structure Pass where
  readings : Readings
  successCount : Nat

def Pass.group {n : Nat} (p : Pass) (r : Option (Vector Register n))
    (store : Readings → Vector Register n → Readings) : Pass :=
  match r with
  | some regs => ⟨store p.readings regs, p.successCount + 1⟩
  | none => p

/-- the second component holds the caller's variables after the call -/
def readMeter (bus : Bus) (x : Readings) : Bool × Readings :=
  let p : Pass := ⟨x, 0⟩
  let p := p.group (bus 1000 6) fun x regs => { x with
    I_L1 := toFloat regs[0] regs[1]
    I_L2 := toFloat regs[2] regs[3]
    I_L3 := toFloat regs[4] regs[5] }
  let p := p.group (bus 1020 6) fun x regs => { x with
    V_L12 := toFloat regs[0] regs[1]
    V_L23 := toFloat regs[2] regs[3]
    V_L31 := toFloat regs[4] regs[5] }
  let p := p.group (bus 1028 8) fun x regs => { x with activePowerInst := toFloat regs[6] regs[7] }
  let p := p.group (bus 1036 8) fun x regs =>
    { x with reactivePowerInst := toFloat regs[6] regs[7] }
  let p := p.group (bus 1044 8) fun x regs =>
    { x with apparentPowerInst := toFloat regs[6] regs[7] }
  let p := p.group (bus 1052 8) fun x regs => { x with powerFactorAvg := toFloat regs[6] regs[7] }
  let p := p.group (bus 1074 2) fun x regs => { x with freqAvg := toFloat regs[0] regs[1] }
  let p := p.group (bus 2606 2) fun x regs => { x with activeEnergyTot := toUInt32 regs[0] regs[1] }
  let p := p.group (bus 2622 2) fun x regs =>
    { x with reactiveEnergyTot := toUInt32 regs[0] regs[1] }
  let p := p.group (bus 2638 2) fun x regs =>
    { x with apparentEnergyTot := toUInt32 regs[0] regs[1] }
  (decide (0 < p.successCount), p.readings)

/-! ## the record of a cycle -/

structure TelemetryRecord where
  timestamp : BitVec 32
  meterIndex : Fin 2
  online : BitVec 8
  readings : Readings

/-- one meter's block of `loop` up to `postTelemetry` -/
def captureMeter (bus : Bus) : Bool × Readings :=
  let (online, x) := readMeter bus .zero
  if !online then (online, .zero) else (online, x)

/-- the record `postTelemetry` fills in; `now` is the clock -/
def makeRecord (now : BitVec 32) (meterIndex : Fin 2) (online : Bool) (x : Readings) :
    TelemetryRecord where
  timestamp := now
  meterIndex := meterIndex
  online := if online then 1 else 0
  readings := x

def captureRecord (now : BitVec 32) (meterIndex : Fin 2) (bus : Bus) : TelemetryRecord :=
  makeRecord now meterIndex (captureMeter bus).1 (captureMeter bus).2

/-! ## what a pass leaves -/

section
variable {n : Nat} (p : Pass) (r : Option (Vector Register n))
  (store : Readings → Vector Register n → Readings)

theorem Pass.group_none : p.group none store = p := rfl

theorem Pass.group_successCount :
    (p.group r store).successCount = p.successCount + r.isSome.toNat := by
  cases r with
  | none => rfl
  | some regs => rfl

/-- a group that stores no voltage leaves the voltages -/
theorem Pass.group_volts (h : ∀ x regs, (store x regs).volts = x.volts) :
    (p.group r store).readings.volts = p.readings.volts := by
  cases r with
  | none => rfl
  | some regs => exact h p.readings regs

end

/-- the words of the voltage group as the three line-to-line voltages -/
def lineVoltages (regs : Vector Register 6) : Binary32 × Binary32 × Binary32 :=
  (toFloat regs[0] regs[1], toFloat regs[2] regs[3], toFloat regs[4] regs[5])

theorem readMeter_volts (bus : Bus) (x : Readings) :
    (readMeter bus x).2.volts = ((bus 1020 6).map lineVoltages).getD x.volts := by
  dsimp only [readMeter]
  -- the eight groups after the voltages, last one first
  iterate 8
    refine (Pass.group_volts _ _ _ ?_).trans ?_
    · exact fun _ _ => rfl
  cases bus 1020 6 with
  | none =>
    rw [Pass.group_none]
    refine Pass.group_volts _ _ _ ?_
    exact fun _ _ => rfl
  | some regs => rfl

theorem readMeter_anyOk (bus : Bus) (x : Readings) :
    (readMeter bus x).1 = true ↔ ∃ g ∈ registerGroups, (bus g.1 g.2).isSome := by
  unfold readMeter
  simp only [Pass.group_successCount, decide_eq_true_eq, registerGroups, List.mem_cons,
    List.not_mem_nil, or_false, exists_eq_or_imp, exists_eq_left]
  have hpos (b : Bool) : 0 < b.toNat ↔ b = true := by cases b <;> decide
  simp only [← hpos]
  omega

/-- the record is online iff some group was read -/
theorem captureMeter_online (bus : Bus) :
    (captureMeter bus).1 = true ↔ ∃ g ∈ registerGroups, (bus g.1 g.2).isSome := by
  rw [← readMeter_anyOk bus .zero]
  unfold captureMeter
  cases readMeter bus .zero with
  | mk online x =>
    show (if !online then (online, Readings.zero) else (online, x)).1 = true ↔ online = true
    cases online with
    | true => rfl
    | false => rfl

/-- the voltages of an online record are those of the voltage group, or the zeros the locals
started with -/
theorem captureMeter_volts {bus : Bus} (h : (captureMeter bus).1 = true) :
    (captureMeter bus).2.volts = ((bus 1020 6).map lineVoltages).getD (0, 0, 0) := by
  have hvolts := readMeter_volts bus .zero
  unfold captureMeter at *
  cases hr : readMeter bus .zero with
  | mk online x =>
    rw [hr] at h hvolts
    cases online with
    | true => exact hvolts
    | false => cases h

end Firmware
