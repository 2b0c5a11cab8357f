import Mathlib.Data.List.Induction
import Mathlib.Tactic.IntervalCases
import GridProof.Firmware.Meter

/-!
# The relay of the converter

The end of `loop`: after a cycle in which neither meter answered, the relay cuts the power of the RS485 converter, at
most `MAX_RELAY_CYCLES_BEFORE_PAUSING` times; after `FULL_FAILURE_CYCLES_BEFORE_REBOOT` such cycles in a row the
board restarts, and its counters with it.

* `loopEnd`                 what it does after a cycle;
* `Failing k s`             the counters after `k` silent cycles since they were last zero;
* `outage_powerCycles`      how often the relay is cycled in an outage;
* `protected_iff`           the cap holds in the outages that end before the board has restarted.
-/

namespace Firmware

/-! ## the end of a cycle -/

/-- in RAM -/
structure RelayState where
  consecutiveFullFailures : BitVec 32
  relayCycleAttempts : BitVec 32
  lastRelayCycleAt : BitVec 32

def RelayState.boot : RelayState := ⟨0, 0, 0⟩

def fullFailureCyclesBeforeReboot : BitVec 32 := 6
def maxRelayCyclesBeforePausing : BitVec 32 := 3

/-- what the meters answer in a cycle, and the clock at its end -/
structure RelayCycle where
  bus : Fin 2 → Bus
  millis : BitVec 32

def RelayCycle.online (c : RelayCycle) (meterIndex : Fin 2) : Bool := (readMeter (c.bus meterIndex) .zero).1

/-- `!m1_online && !m2_online` -/
def RelayCycle.bothOffline (c : RelayCycle) : Bool := (List.finRange 2).all fun meterIndex => !c.online meterIndex

def powerCycleRS485Converter (millis : BitVec 32) (s : RelayState) : RelayState :=
  { s with
    relayCycleAttempts := s.relayCycleAttempts + 1
    lastRelayCycleAt := millis }

/-- whether the converter was power-cycled, and the variables after the branch on `bothOffline` -/
def selfHeal (s : RelayState) (c : RelayCycle) : Bool × RelayState :=
  if c.bothOffline then
    let s := { s with consecutiveFullFailures := s.consecutiveFullFailures + 1 }
    if s.relayCycleAttempts < maxRelayCyclesBeforePausing then (true, powerCycleRS485Converter c.millis s)
    else if s.relayCycleAttempts = maxRelayCyclesBeforePausing then
      -- past the cap, so that the pause is logged once
      (false, { s with relayCycleAttempts := s.relayCycleAttempts + 1 })
    else (false, s)
  else (false, { s with consecutiveFullFailures := 0, relayCycleAttempts := 0 })

/-- `ESP.restart()` leaves nothing in RAM -/
def loopEnd (s : RelayState) (c : RelayCycle) : Bool × RelayState :=
  let (cycled, s) := selfHeal s c
  if fullFailureCyclesBeforeReboot ≤ s.consecutiveFullFailures then (cycled, .boot) else (cycled, s)

/-! ## runs -/

def afterCycles (s : RelayState) (cycles : List RelayCycle) : RelayState := cycles.foldl (fun s c => (loopEnd s c).2) s

/-- how often the converter is power-cycled -/
def powerCycles (s : RelayState) : List RelayCycle → Nat
  | [] => 0
  | c :: cycles => (loopEnd s c).1.toNat + powerCycles (loopEnd s c).2 cycles

/-- a maximal stretch of a run in which neither meter answers -/
structure OutageIn (run before outage after : List RelayCycle) : Prop where
  parts : run = before ++ outage ++ after
  silent : ∀ c ∈ outage, c.bothOffline = true
  starts : ∀ c ∈ before.getLast?, c.bothOffline = false
  ends : ∀ c ∈ after.head?, c.bothOffline = false

/-- no outage of a run from the start of the board cycles the relay more often than the cap says -/
def Protected (run : List RelayCycle) : Prop :=
  ∀ before outage after, OutageIn run before outage after →
    powerCycles (afterCycles .boot before) outage ≤ maxRelayCyclesBeforePausing.toNat

/-! ## what a cycle does -/

/-- `k` silent cycles since the counters were last zero -/
structure Failing (k : Nat) (s : RelayState) : Prop where
  failures : s.consecutiveFullFailures = BitVec.ofNat 32 k
  attempts : s.relayCycleAttempts = BitVec.ofNat 32 (min k 4)

theorem boot_failing : Failing 0 .boot := ⟨rfl, rfl⟩

/-- an answer resets the counters -/
theorem loopEnd_answered (s : RelayState) {c : RelayCycle} (h : c.bothOffline = false) : Failing 0 (loopEnd s c).2 := by
  unfold loopEnd selfHeal
  rw [h]
  exact ⟨rfl, rfl⟩

/-- the sixth silent cycle restarts the board, the first three cut the power -/
theorem loopEnd_silent {k : Nat} {s : RelayState} {c : RelayCycle} (h : c.bothOffline = true) (hk : k < 6)
    (hs : Failing k s) : (loopEnd s c).1 = decide (k < 3) ∧ Failing ((k + 1) % 6) (loopEnd s c).2 := by
  obtain ⟨failures, attempts, last⟩ := s
  obtain ⟨rfl, rfl⟩ : failures = _ ∧ attempts = _ := ⟨hs.failures, hs.attempts⟩
  unfold loopEnd selfHeal
  rw [h]
  interval_cases k
  · exact ⟨rfl, rfl, rfl⟩
  · exact ⟨rfl, rfl, rfl⟩
  · exact ⟨rfl, rfl, rfl⟩
  · exact ⟨rfl, rfl, rfl⟩
  · exact ⟨rfl, rfl, rfl⟩
  · exact ⟨rfl, rfl, rfl⟩

/-! ## an outage -/

theorem powerCycles_silent {outage : List RelayCycle} {k : Nat} {s : RelayState}
    (h : ∀ c ∈ outage, c.bothOffline = true) (hk : k < 6) (hs : Failing k s) :
    powerCycles s outage = 3 * ((k + outage.length) / 6) + min 3 ((k + outage.length) % 6) - min 3 k := by
  induction outage generalizing k s with
  | nil =>
    show 0 = _
    simp only [List.length_nil]
    omega
  | cons c cycles ih =>
    obtain ⟨hcycled, hnext⟩ := loopEnd_silent (h c List.mem_cons_self) hk hs
    have hrest := ih (fun c hc => h c (List.mem_cons_of_mem _ hc)) (Nat.mod_lt _ (by decide)) hnext
    show (loopEnd s c).1.toNat + powerCycles (loopEnd s c).2 cycles = _
    rw [hcycled, hrest, List.length_cons]
    by_cases hlow : k < 3
    · simp only [hlow, decide_true, Bool.toNat_true]
      omega
    · simp only [hlow, decide_false, Bool.toNat_false]
      omega

theorem afterCycles_append (s : RelayState) (as bs : List RelayCycle) :
    afterCycles s (as ++ bs) = afterCycles (afterCycles s as) bs := List.foldl_append

/-- an outage starts with counters at zero -/
theorem outage_starts {before : List RelayCycle} (h : ∀ c ∈ before.getLast?, c.bothOffline = false) :
    Failing 0 (afterCycles .boot before) := by
  induction before using List.reverseRecOn with
  | nil => exact boot_failing
  | append_singleton before c _ =>
    rw [afterCycles_append]
    exact loopEnd_answered _ (h c (by simp))

/-- three power cycles for each restart, and up to three more -/
theorem outage_powerCycles {run before outage after : List RelayCycle} (h : OutageIn run before outage after) :
    powerCycles (afterCycles .boot before) outage = 3 * (outage.length / 6) + min 3 (outage.length % 6) := by
  have hcount := powerCycles_silent h.silent (by decide) (outage_starts h.starts)
  rw [Nat.zero_add] at hcount
  omega

/-- **The relay is protected in a run iff no outage outlasts the first restart of the board.** -/
theorem protected_iff (run : List RelayCycle) : Protected run ↔ ∀ before outage after,
    OutageIn run before outage after → outage.length ≤ fullFailureCyclesBeforeReboot.toNat := by
  have houtage {before outage after : List RelayCycle} (h : OutageIn run before outage after) :
      powerCycles (afterCycles .boot before) outage ≤ maxRelayCyclesBeforePausing.toNat ↔
        outage.length ≤ fullFailureCyclesBeforeReboot.toNat := by
    rw [outage_powerCycles h]
    show _ ≤ 3 ↔ _ ≤ 6
    omega
  constructor
  · intro hrun before outage after h
    exact (houtage h).mp (hrun before outage after h)
  · intro hrun before outage after h
    exact (houtage h).mpr (hrun before outage after h)

/-- a cycle in which nothing answers -/
def silentCycle : RelayCycle := ⟨fun _ _ _ => none, 0⟩

theorem restarted_relay : ¬ Protected (List.replicate 7 silentCycle) := by
  intro h
  have hcount := h [] (List.replicate 7 silentCycle) []
    ⟨by simp, by decide +kernel, by simp, by simp⟩
  exact absurd hcount (by decide +kernel)

end Firmware
