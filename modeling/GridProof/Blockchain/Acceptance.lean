import GridProof.Blockchain.WellFormed

/-!
# What the contract makes of a submitted row

A row of the submit sweep goes through the checks of the client, the encoding of the arguments and the
checks of the contract.  None of them refuses it.

* `System.Within`, `World.Within`   the epochs that are recorded, kept by every action;
* `commitEpoch_accepted`            a row that a sweep selects is not reverted.
-/

namespace Pipeline

/-! ## epochs that are recorded -/

section
variable (P : String × EpochStart → Prop)

/-- a candidate that the operation records is of an epoch in `P` -/
def Op.Within : Op → Prop
  | .ingest row _ _ _ => P row.event.epochKey
  | _ => True

instance [DecidablePred P] (op : Op) : Decidable (op.Within P) :=
  match op with
  | .ingest row _ _ _ => inferInstanceAs (Decidable (P row.event.epochKey))
  | .deliver .. => isTrue trivial
  | .review .. => isTrue trivial

def Phase.Within : Phase → Prop
  | .started op => op.Within P
  | phase => ∀ c ∈ phase.candidate, P c.epochKey

structure System.Within (s : System) : Prop where
  candidates : ∀ row ∈ s.db.candidates.rows, P row.event.epochKey
  scores : ∀ r ∈ s.db.epochScores.rows, P r.key

end

section
variable {P : String × EpochStart → Prop}

theorem storeDecision_within {s s' : System} {op : Op} {phase : Phase} (hs : s.Wf)
    (hwithin : s.Within P) (hop : op.Within P) (h : storeDecision s op = some (s', phase)) :
    s'.Within P ∧ phase.Within P := by
  obtain ⟨d, hdec, hframe, hphase⟩ := storeDecision_effect hs h
  have hcandidates : ∀ row ∈ s'.db.candidates.rows, P row.event.epochKey := by
    intro row hrow
    rcases hdec.candidates with hsame | ⟨new, _, _, _, rfl, hins⟩
    · exact hwithin.candidates row (hsame ▸ hrow)
    · rw [(Table.insert_eq_some hins).1, List.mem_append, List.mem_singleton] at hrow
      rcases hrow with hold | rfl
      · exact hwithin.candidates row hold
      · exact hop
  refine ⟨⟨hcandidates, fun r hr => hwithin.scores r ?_⟩, ?_⟩
  · rw [hframe] at hr
    exact hr
  · rcases hphase with rfl | ⟨c, byWorker, now, rfl, -, -, row, hrow, -, hkey⟩
    · exact nofun
    · intro c' hc'
      obtain rfl := Option.some.inj hc'
      rw [← hkey]
      exact hcandidates row hrow

/-- a statement records no epoch but the one of its candidate -/
theorem statement_within {s s' : System} {phase phase' : Phase} (hs : s.Wf) (hwithin : s.Within P)
    (hphase : phase.Within P) (h : statement s phase = some (s', phase')) :
    s'.Within P ∧ phase'.Within P := by
  cases phase with
  | started op => exact storeDecision_within hs hwithin hphase h
  | decided c byWorker now =>
    obtain ⟨rfl, rfl⟩ := Prod.mk.inj (Option.some.inj h)
    exact ⟨hwithin, hphase⟩
  | selected c votes now =>
    obtain ⟨hframe, -, r, hputs, hkey, -, rfl⟩ := statement_selected h
    refine ⟨⟨fun row hrow => hwithin.candidates row ?_, fun r' hr' => ?_⟩, hphase⟩
    · rw [hframe] at hrow
      exact hrow
    · rcases hputs.cases hr' with ⟨hold, -⟩ | rfl
      · exact hwithin.scores r' hold
      · rw [hkey]
        exact hphase c rfl
  | scored c es now =>
    obtain ⟨hframe, -, -, rfl⟩ := statement_scored h
    refine ⟨⟨fun row hrow => hwithin.candidates row ?_, fun r hr => hwithin.scores r ?_⟩, hphase⟩
    · rw [hframe] at hrow
      exact hrow
    · rw [hframe] at hr
      exact hr
  | finished c => cases h

end

namespace World

/-- the epochs of the tables and of the operations that run -/
structure Within (P : String × EpochStart → Prop) (w : World) : Prop where
  system : w.system.Within P
  operations : ∀ phase, .operation phase ∈ w.processes → phase.Within P

/-- the operation that an action begins -/
def Action.op : Action → Option Op
  | .operation op => some op
  | _ => none

/-- a candidate that an action records is of an epoch in `P` -/
def Records (P : String × EpochStart → Prop) (_ : World) (a : Action) : Prop :=
  ∀ op ∈ a.op, op.Within P

instance (P : String × EpochStart → Prop) [DecidablePred P] (w : World) (a : Action) :
    Decidable (w.Records P a) :=
  inferInstanceAs (Decidable (∀ op ∈ a.op, op.Within P))

section
variable {P : String × EpochStart → Prop}

/-- an action that leaves the candidates, the scores and the operations alone -/
theorem Within.congr {w w' : World} (h : w.Within P) (hc : w'.db.candidates = w.db.candidates)
    (hs : w'.db.epochScores = w.db.epochScores)
    (hp : ∀ phase, .operation phase ∈ w'.processes → .operation phase ∈ w.processes) :
    w'.Within P := by
  refine ⟨⟨fun row hrow => h.system.candidates row ?_, fun r hr => h.system.scores r ?_⟩,
    fun phase hphase => h.operations phase (hp phase hphase)⟩
  · rw [← hc]
    exact hrow
  · rw [← hs]
    exact hr

theorem mem_set_operation {w : World} {i : Nat} {p : Process} {phase : Phase}
    (h : .operation phase ∈ (w.set i p).processes) (hp : p ≠ .operation phase) :
    .operation phase ∈ w.processes :=
  (mem_set h).resolve_right hp.symm

theorem mem_spawn_operation {w : World} {p : Process} {phase : Phase}
    (h : .operation phase ∈ (w.spawn p).processes) (hp : p ≠ .operation phase) :
    .operation phase ∈ w.processes :=
  (mem_spawn h).resolve_right hp.symm

/-- **An action records no epoch but those of the candidates it is given.** -/
theorem Effect.within {w w' : World} {a : Action} (hw : w.Wf) (hwithin : w.Within P)
    (hok : w.Records P a) (h : w.Effect a w') : w'.Within P := by
  cases h with
  | operation op =>
    refine ⟨hwithin.system, fun phase hphase => ?_⟩
    rcases mem_spawn hphase with hold | hnew
    · exact hwithin.operations phase hold
    · cases hnew
      exact hok op rfl
  | @statement i phase phase' system hi h =>
    obtain ⟨hsystem, hphase'⟩ := statement_within hw.system hwithin.system
      (hwithin.operations phase (List.mem_of_getElem? hi)) h
    refine ⟨hsystem, fun q hq => ?_⟩
    rcases mem_set hq with hold | hnew
    · exact hwithin.operations q hold
    · cases hnew
      exact hphase'
  | submit now limit => exact hwithin.congr rfl rfl fun _ h => mem_spawn_operation h nofun
  | index limit => exact hwithin.congr rfl rfl fun _ h => mem_spawn_operation h nofun
  | mined ht hpending h => exact hwithin.congr rfl rfl fun _ h => h
  | admin h => exact hwithin.congr rfl rfl fun _ h => h
  | _ => exact hwithin.congr rfl rfl fun _ h => mem_set_operation h nofun

end

end World

end Pipeline

/-! ## the contract -/

namespace UptimeAttestation

theorem require_ok {c : Bool} {e : Error} (h : c = true) : require c e = .ok () := if_pos h

/-- a call that passes every check does not revert -/
theorem commitEpoch_of_checks {s : Attestation} {msg : Msg} {c : CommitEpoch} (hvalue : msg.value = 0)
    (hrole : msg.hasRole .relayer msg.sender = true) (hpaused : s.paused = false)
    (hfree : isCommitted s c.zoneId c.epochStart = false) (hbps : isValidBps c.uptimeBps = true)
    (haligned : isAlignedEpoch c.epochStart s.epochDuration = true)
    (hpast : isPastEpoch c.epochStart s.epochDuration (BitVec.ofNat 64 msg.timestamp) = true) :
    ∃ s', commitEpoch s msg c = .ok s' := by
  unfold commitEpoch notPayable onlyRole whenNotPaused
  rw [require_ok (beq_iff_eq.mpr hvalue), require_ok hrole, hpaused, hfree, require_ok hbps,
    require_ok haligned, require_ok hpast]
  exact ⟨_, rfl⟩

end UptimeAttestation

namespace Pipeline

/-! ## selected rows -/

/-- an aligned start is a whole number of hours in seconds, and its hour ends in whole seconds -/
theorem EpochStart.seconds (e : EpochStart) (now : IsoDate) {T : Nat} (h0 : 0 ≤ e.ms)
    (hover : (e.ms + 60 * 60 * 1000) * 1000 ≤ now.micros) (hT : now.micros ≤ T * 1000000) :
    0 ≤ e.ms / 1000 ∧ (3600 : Int) ∣ e.ms / 1000 ∧ e.ms / 1000 + 3600 ≤ T := by
  obtain ⟨k, hk⟩ := e.aligned
  unfold epochDurationMs at hk
  omega

namespace World
open UptimeAttestation (Attestation Msg isValidBps isAlignedEpoch isPastEpoch isCommitted commitEpoch)

/-- the hour starts in 1970 or later -/
def Since1970 (epoch : String × EpochStart) : Prop := 0 ≤ epoch.2.ms

instance : DecidablePred Since1970 := fun _ => inferInstanceAs (Decidable (_ ≤ _))

/-- **The contract accepts what the submit sweep selects.**  The candidates are of hours since 1970, and a
block has its time in 64 bits. -/
theorem commitEpoch_accepted {zones : Zones} {attestation : Attestation} {actions : List Action}
    {w : World} (hzones : ∀ z ∈ zones.rows, z.KeyIsBytes32)
    (hok : Runs.Along next (Records Since1970) (start zones attestation) actions)
    (hrun : Runs.run next (start zones attestation) actions = some w) {now : IsoDate} {limit : Nat}
    {row : PendingCommitmentRow} (hrow : row ∈ selectPending w.db now limit) :
    (commitInputFromPending row).Valid ∧
    ∀ msg : Msg, now.micros ≤ msg.timestamp * 1000000 → msg.timestamp < 2 ^ 64 →
      ∃ call, (commitInputFromPending row).encode = some call ∧ isValidBps call.uptimeBps = true ∧
        isAlignedEpoch call.epochStart 3600 = true ∧
        isPastEpoch call.epochStart 3600 (BitVec.ofNat 64 msg.timestamp) = true ∧
        ∀ s : Attestation, s.epochDuration = 3600 → s.paused = false →
          isCommitted s call.zoneId call.epochStart = false → msg.value = 0 →
          msg.hasRole .relayer msg.sender = true → ∃ s', commitEpoch s msg call = .ok s' := by
  have hinv : w.Wf ∧ w.db.zones = zones ∧ w.Within Since1970 := by
    refine Runs.run_inv (fun w => w.Wf ∧ w.db.zones = zones ∧ w.Within Since1970) ?_
      ⟨start_wf zones attestation, rfl, ⟨?_, ?_⟩, ?_⟩ hok hrun
    · rintro w a w' ⟨hw, hzones, hwithin⟩ hok hnext
      have heff := next_effect hnext
      exact ⟨heff.wf hw, (heff.persists hw.system).zones.trans hzones, heff.within hw hwithin hok⟩
    · exact fun _ h => absurd h List.not_mem_nil
    · exact fun _ h => absurd h List.not_mem_nil
    · exact fun _ h => absurd h List.not_mem_nil
  obtain ⟨-, hz, hwithin⟩ := hinv
  obtain ⟨cc, -, es, z, hjoin, rfl, -, -, hover⟩ := of_mem_selectPending hrow
  obtain ⟨⟨hes, -⟩, hzone, -⟩ := joinCommitment_eq_some hjoin
  have hvalid := valid_pendingRow cc es (hzones z (hz ▸ hzone))
  refine ⟨hvalid, fun msg hnow h64 => ?_⟩
  obtain ⟨hstart, haligned, hpast⟩ := es.epochStart.seconds now (hwithin.system.scores es hes) hover hnow
  obtain ⟨call, hencode, hcallStart, hcallBps⟩ := CommitEpochInput.encode_of_valid hvalid hstart (by
    show es.epochStart.ms / 1000 < 2 ^ 64
    omega)
  have hseconds : (call.epochStart.toNat : Int) = es.epochStart.ms / 1000 := hcallStart
  have hbpsOk : isValidBps call.uptimeBps = true := by
    have hle := hvalid.2.2.2
    rw [UptimeAttestation.isValidBps_iff]
    omega
  have halignedOk : isAlignedEpoch call.epochStart 3600 = true := by
    refine UptimeAttestation.isAlignedEpoch_iff.mpr ⟨by decide, ?_⟩
    show 3600 ∣ call.epochStart.toNat
    omega
  have hpastOk : isPastEpoch call.epochStart 3600 (BitVec.ofNat 64 msg.timestamp) = true := by
    have hfits : call.epochStart.toNat + (3600 : BitVec 64).toNat < 2 ^ 64 := by
      show call.epochStart.toNat + 3600 < 2 ^ 64
      omega
    rw [UptimeAttestation.isPastEpoch_iff hfits, BitVec.toNat_ofNat, Nat.mod_eq_of_lt h64]
    show call.epochStart.toNat + 3600 ≤ msg.timestamp
    omega
  refine ⟨call, hencode, hbpsOk, halignedOk, hpastOk, fun s hduration hpaused hfree hvalue hrole => ?_⟩
  rw [← hduration] at halignedOk hpastOk
  exact UptimeAttestation.commitEpoch_of_checks hvalue hrole hpaused hfree hbpsOk halignedOk hpastOk

/-- the sweep selects the commitment of an approval, two hours later -/
theorem commitEpoch_accepted_sample : ∃ w, Runs.run next sampleStart
    (sampleApproval 0 (sampleRow "c1" .restored (9 / 10))) = some w ∧
    ∃ row ∈ selectPending w.db sampleLater 5, (commitInputFromPending row).Valid ∧
      ∃ call, (commitInputFromPending row).encode = some call ∧
        ∃ s', commitEpoch sampleStart.attestation sampleMsg call = .ok s' := by
  have h : (Runs.run next sampleStart (sampleApproval 0 (sampleRow "c1" .restored (9 / 10)))).any
      (fun w => decide (selectPending w.db sampleLater 5 ≠ [])) = true := by
    decide +kernel
  have hok : Runs.Along next (Records Since1970) sampleStart
      (sampleApproval 0 (sampleRow "c1" .restored (9 / 10))) := by
    decide +kernel
  have hzones : ∀ z ∈ sampleZones.rows, z.KeyIsBytes32 := by decide +kernel
  obtain ⟨w, hrun, h⟩ := (Option.any_eq_true _ _).mp h
  obtain ⟨row, hrow⟩ := List.exists_mem_of_ne_nil _ (of_decide_eq_true h)
  obtain ⟨hvalid, haccepted⟩ := commitEpoch_accepted hzones hok hrun hrow
  obtain ⟨call, hencode, -, -, -, hcommit⟩ := haccepted sampleMsg (by decide) (by decide)
  exact ⟨w, hrun, row, hrow, hvalid, call, hencode, hcommit _ rfl rfl rfl rfl rfl⟩

end World

end Pipeline
