import GridProof.Blockchain.WellFormed
import GridProof.Ingestion.ExactlyOnce
import GridProof.Lib.Visited
import GridProof.Provenance.Tasks

/-!
# Nothing is attested without evidence

Whatever the order of the steps, an epoch of the contract carries the score of candidates of its zone and hour,
each approved at the threshold or by a reviewer and each with the stored readings that it names.

* `ProcessBacked`   what a process of the relayer has in its hands;
* `Minted`          the arguments of a transaction are those of such a score;
* `Sound`           the invariant; `Sound.act`, `Sound.next` one step;
* `attested`        every epoch of the contract, after every run.
-/

namespace Provenance
open Ingestion (EvidenceEvent Task)
open Pipeline
open UptimeAttestation (Attestation getEpoch isCommitted)

/-! ## the relayer and the contract -/

/-- the arguments are those of the score of a zone and an epoch, of tallied votes -/
def Minted (V : Db → Prop) (db : Db) (input : CommitEpochInput) : Prop :=
  ∃ z ∈ db.zones.rows, ∃ (e : EpochStart) (votes : List Vote),
    input = ⟨z.zoneKey, e.ms / 1000, uptimeBps votes, evidenceHash z.id e votes⟩ ∧ Tallied V db (z.id, e) votes

def ProcessBacked (V : Db → Prop) (db : Db) : Process → Prop
  | .operation phase => PhaseBacked V db phase
  | .submitting sweep => ∀ row ∈ sweep.rows, Minted V db (commitInputFromPending row)
  | .broadcast _ _ sweep => ∀ row ∈ sweep.rows, Minted V db (commitInputFromPending row)
  | .failing _ => True
  | .indexing _ => True
  | .receipt _ _ _ => True
  | .ended => True

/-- the arguments of a transaction are those of its input -/
theorem encode_eq_some {input : CommitEpochInput} {call : UptimeAttestation.CommitEpoch}
    (h : input.encode = some call) : bytes32 input.zoneId = some call.zoneId ∧
      (call.epochStart.toNat : Int) = input.epochStart ∧ (call.uptimeBps.toNat : Int) = input.uptimeBps ∧
      bytes32 input.evidenceHash = some call.evidenceHash := by
  simp only [CommitEpochInput.encode, Option.bind_eq_bind, Option.bind_eq_some_iff] at h
  obtain ⟨zoneId, hzone, evidenceHash, hhash, h⟩ := h
  split at h
  · rename_i hrange
    obtain ⟨hlow, hhigh, hstart, hend⟩ := hrange
    obtain rfl := Option.some.inj h
    exact ⟨hzone, toNat_ofInt_of_lt 64 hstart hend, toNat_ofInt_of_lt 16 hlow (by omega), hhash⟩
  · cases h

theorem commitEpoch_epochs {s s' : Attestation} {msg : UptimeAttestation.Msg} {c : UptimeAttestation.CommitEpoch}
    (h : UptimeAttestation.commitEpoch s msg c = .ok s') : s'.epochs = Function.update s.epochs
      (c.zoneId, c.epochStart) ⟨c.zoneId, c.epochStart, c.uptimeBps, c.evidenceHash, msg.sender⟩ := by
  obtain ⟨_, -, h⟩ := Except.bind_eq_ok.mp h
  obtain ⟨_, -, h⟩ := Except.bind_eq_ok.mp h
  obtain ⟨_, -, h⟩ := Except.bind_eq_ok.mp h
  obtain ⟨_, -, h⟩ := Except.bind_eq_ok.mp h
  obtain ⟨_, -, h⟩ := Except.bind_eq_ok.mp h
  obtain ⟨_, -, h⟩ := Except.bind_eq_ok.mp h
  obtain ⟨_, -, h⟩ := Except.bind_eq_ok.mp h
  cases h
  rfl

/-- every epoch of the contract was committed by one of the transactions -/
def Committed (w : World) : Prop :=
  ∀ zoneId epochStart, isCommitted w.attestation zoneId epochStart = true → ∃ t ∈ w.transactions.rows,
    t.call = ⟨zoneId, epochStart, (getEpoch w.attestation zoneId epochStart).uptimeBps,
      (getEpoch w.attestation zoneId epochStart).evidenceHash⟩

section
variable {V W : Db → Prop} {db db' : Db}

theorem Minted.mono (hV : ∀ x, V x → W x) (hkeeps : Keeps db db') {input : CommitEpochInput}
    (h : Minted V db input) : Minted W db' input := by
  obtain ⟨z, hz, e, votes, hinput, htallied⟩ := h
  exact ⟨z, hkeeps.zones ▸ hz, e, votes, hinput, htallied.mono hV hkeeps⟩

theorem ProcessBacked.mono (hV : ∀ x, V x → W x) (hkeeps : Keeps db db') {p : Process} (h : ProcessBacked V db p) :
    ProcessBacked W db' p := by
  cases p with
  | operation phase => exact PhaseBacked.mono hV hkeeps h
  | submitting sweep => exact fun row hrow => (h row hrow).mono hV hkeeps
  | broadcast row txHash sweep => exact fun row hrow => (h row hrow).mono hV hkeeps
  | _ => trivial

/-- a submit sweep selects rows of stored scores -/
theorem minted_of_select {rows : List EvidenceEvent} {s : System} (hs : Backed V rows s) {now : IsoDate}
    {limit : Nat} {row : PendingCommitmentRow} (h : row ∈ selectPending s.db now limit) :
    Minted V s.db (commitInputFromPending row) := by
  obtain ⟨cc, -, es, z, hjoin, rfl, -⟩ := of_mem_selectPending h
  obtain ⟨⟨hes, -⟩, hz, hzone⟩ := joinCommitment_eq_some hjoin
  have hkey : es.key = (z.id, es.epochStart) := Prod.ext hzone.symm rfl
  refine ⟨z, hz, es.epochStart, es.counted, ?_, hkey ▸ hs.tallied es hes⟩
  rw [hzone, ← es.valid.1, ← es.valid.2]
  rfl

end

/-- the same contract, and no transaction is lost -/
theorem Committed.congr {w w' : World} (h : Committed w) (hattestation : w'.attestation.epochs = w.attestation.epochs)
    (hsent : ∀ t ∈ w.transactions.rows, ∃ t' ∈ w'.transactions.rows, t'.call = t.call) : Committed w' := by
  intro zoneId epochStart hcommitted
  unfold isCommitted at hcommitted
  unfold getEpoch
  rw [hattestation] at hcommitted ⊢
  obtain ⟨t, ht, hcall⟩ := h zoneId epochStart hcommitted
  obtain ⟨t', ht', hcall'⟩ := hsent t ht
  exact ⟨t', ht', hcall'.trans hcall⟩

/-- a transaction keeps its call when its status is stored -/
theorem setTxStatus_calls {w : World} {txHash : String} {status : TxStatus} {t : Transaction}
    (ht : t ∈ w.transactions.rows) : ∃ t' ∈ (w.setTxStatus txHash status).transactions.rows, t'.call = t.call := by
  obtain ⟨t', ht', hcases, -⟩ := w.transactions.update_keeps (fun t => t.hash = txHash) (.setStatus status)
    (fun _ => rfl) (fun _ => rfl) ht
  refine ⟨t', ht', ?_⟩
  rcases hcases with rfl | rfl
  · rfl
  · rfl

/-- a transaction is mined with success -/
theorem Committed.mined {w : World} {txHash : String} {msg : UptimeAttestation.Msg} {t : Transaction}
    {attestation : Attestation} (h : Committed w) (ht : w.transactions.get? txHash = some t)
    (hok : UptimeAttestation.commitEpoch w.attestation msg t.call = .ok attestation) :
    Committed { w.setTxStatus txHash .success with attestation := attestation } := by
  intro zoneId epochStart hcommitted
  unfold isCommitted at hcommitted
  unfold getEpoch
  dsimp only at hcommitted ⊢
  rw [commitEpoch_epochs hok] at hcommitted ⊢
  by_cases hkey : (zoneId, epochStart) = (t.call.zoneId, t.call.epochStart)
  · obtain ⟨rfl, rfl⟩ := Prod.mk.inj hkey
    rw [Function.update_self]
    exact setTxStatus_calls (Table.get?_eq_some.mp ht).1
  · rw [Function.update_of_ne hkey] at hcommitted ⊢
    obtain ⟨u, hu, hcall⟩ := h zoneId epochStart hcommitted
    obtain ⟨u', hu', hcall'⟩ := @setTxStatus_calls w txHash .success u hu
    exact ⟨u', hu', hcall'.trans hcall⟩

section
variable {π : Type*} {zones : Zones} {V W : Db → Prop}

structure Sound (zones : Zones) (V : Db → Prop) (g : Grid π) : Prop where
  system : Backed V g.evidence.values g.world.system
  tasks : ∀ p, TaskBacked V g.evidence.values g.world.db (g.task p)
  processes : ∀ p ∈ g.world.processes, ProcessBacked V g.world.db p
  sent : ∀ t ∈ g.world.transactions.rows, Minted V g.world.db t.input
  committed : Committed g.world
  zones : g.world.db.zones = zones

theorem Sound.mono (hV : ∀ x, V x → W x) {g : Grid π} (h : Sound zones V g) : Sound zones W g where
  system := h.system.mono hV fun _ => id
  tasks p := (h.tasks p).mono hV (fun _ => id) (.refl _)
  processes p hp := (h.processes p hp).mono hV (.refl _)
  sent t ht := (h.sent t ht).mono hV (.refl _)
  committed := h.committed
  zones := h.zones

/-- what a relayed action leaves, from what it writes -/
theorem Sound.congr {g : Grid π} (hg : Sound zones V g) {w : World} (hsystem : Backed V g.evidence.values w.system)
    (hkeeps : Keeps g.world.db w.db)
    (hprocesses : ∀ q ∈ w.processes, q ∈ g.world.processes ∨ ProcessBacked V w.db q)
    (hsent : ∀ t' ∈ w.transactions.rows, (∃ t ∈ g.world.transactions.rows, t'.input = t.input) ∨
      Minted V g.world.db t'.input) (hcommitted : Committed w) : Sound zones V { g with world := w } where
  system := hsystem
  tasks p := (hg.tasks p).mono (fun _ => id) (fun _ => id) hkeeps
  processes q hq := by
    rcases hprocesses q hq with hold | hnew
    · exact (hg.processes q hold).mono (fun _ => id) hkeeps
    · exact hnew
  sent t' ht' := by
    rcases hsent t' ht' with ⟨t, ht, hinput⟩ | hnew
    · rw [hinput]
      exact (hg.sent t ht).mono (fun _ => id) hkeeps
    · exact hnew.mono (fun _ => id) hkeeps
  committed := hcommitted
  zones := hkeeps.zones.trans hg.zones

/-- an action of the relayer that writes commitments and processes only -/
theorem Sound.process {g : Grid π} (hg : Sound zones V g) {w : World}
    (hsystem : w.system = { g.world.system with db := { g.world.db with commitments := w.db.commitments } })
    (htransactions : w.transactions = g.world.transactions)
    (hattestation : w.attestation.epochs = g.world.attestation.epochs)
    (hprocesses : ∀ q ∈ w.processes, q ∈ g.world.processes ∨ ProcessBacked V g.world.db q) :
    Sound zones V { g with world := w } := by
  have hkeeps : Keeps g.world.db w.db := by
    show Keeps _ w.system.db
    rw [hsystem]
    exact .of_eq rfl rfl
  refine hg.congr ?_ hkeeps (fun q hq => (hprocesses q hq).imp_right fun h => h.mono (fun _ => id) hkeeps) ?_ ?_
  · rw [hsystem]
    exact hg.system.write rfl rfl hg.system.jobs (fun d hd => .inl hd) fun r hr => .inl hr
  · rw [htransactions]
    exact fun t ht => .inl ⟨t, ht, rfl⟩
  · refine hg.committed.congr hattestation ?_
    rw [htransactions]
    exact fun t ht => ⟨t, ht, rfl⟩

/-- a transaction is sent for a row of a sweep -/
theorem Sound.send {g : Grid π} (hg : Sound zones V g) {i : Nat} {p : Process} {row : PendingCommitmentRow}
    {t : Transaction} {transactions : Transactions} (hrow : Minted V g.world.db (commitInputFromPending row))
    (hinput : t.input = commitInputFromPending row) (hins : g.world.transactions.insert t = some transactions)
    (hp : ProcessBacked V g.world.db p) :
    Sound zones V { g with world := { g.world with transactions := transactions }.set i p } := by
  have hrows := (Table.insert_eq_some hins).1
  refine hg.congr hg.system (.refl _) (fun q hq => ?_) (fun t' ht' => ?_) ?_
  · rcases World.mem_set hq with hq | rfl
    · exact .inl hq
    · exact .inr hp
  · have hmem : t' ∈ g.world.transactions.rows ++ [t] := hrows ▸ ht'
    rcases List.mem_append.mp hmem with hold | hnew
    · exact .inl ⟨t', hold, rfl⟩
    · rw [List.mem_singleton.mp hnew, hinput]
      exact .inr hrow
  · refine hg.committed.congr rfl fun u hu => ⟨u, ?_, rfl⟩
    show u ∈ transactions.rows
    rw [hrows]
    exact List.mem_append_left _ hu

/-- **An operation, a sweep or the chain goes on.** -/
theorem Sound.act {g : Grid π} {w : World} {a : World.Action} (hV : V g.world.db) (hV' : V w.db) (hg : Sound zones V g)
    (ha : ∀ op, a = .operation op → PhaseBacked V g.world.db (.started op)) (h : g.world.Effect a w) :
    Sound zones V { g with world := w } := by
  have hat {i : Nat} {p : Process} (hi : g.world.processes[i]? = some p) : ProcessBacked V g.world.db p :=
    hg.processes p (List.mem_of_getElem? hi)
  -- a process that goes on with what it has
  have hset {i : Nat} {p : Process} (hp : ProcessBacked V g.world.db p) {w : World}
      (hw : w.processes = g.world.processes) : ∀ q ∈ (w.set i p).processes,
        q ∈ g.world.processes ∨ ProcessBacked V g.world.db q := by
    intro q hq
    rcases World.mem_set hq with hq | rfl
    · exact .inl (hw ▸ hq)
    · exact .inr hp
  have hspawn {p : Process} (hp : ProcessBacked V g.world.db p) : ∀ q ∈ (g.world.spawn p).processes,
      q ∈ g.world.processes ∨ ProcessBacked V g.world.db q := by
    intro q hq
    rcases World.mem_spawn hq with hq | rfl
    · exact .inl hq
    · exact .inr hp
  cases h with
  | operation op => exact hg.process rfl rfl rfl (hspawn (ha op rfl))
  | submit now limit => exact hg.process rfl rfl rfl (hspawn fun row hrow => minted_of_select hg.system hrow)
  | index limit => exact hg.process rfl rfl rfl (hspawn trivial)
  | @statement i phase phase' system hi h =>
    obtain ⟨hbacked, hphase, hkeeps⟩ := statement_backed hV hV' hg.system (hat hi) h
    refine hg.congr hbacked hkeeps (fun q hq => ?_) (fun t ht => .inl ⟨t, ht, rfl⟩)
      (hg.committed.congr rfl fun t ht => ⟨t, ht, rfl⟩)
    rcases World.mem_set hq with hq | rfl
    · exact .inl hq
    · exact .inr hphase
  | accepted hi hrows hinput hstatus hins =>
    have hsweep := hat hi
    refine hg.send (hsweep _ (hrows ▸ List.mem_cons_self)) hinput hins fun row hrow => ?_
    exact hsweep row (hrows ▸ List.mem_cons_of_mem _ hrow)
  | lost hi hrows hinput hstatus hins =>
    exact hg.send (hat hi _ (hrows ▸ List.mem_cons_self)) hinput hins trivial
  | storeTxHash hi hrows =>
    have hsweep := hat hi
    refine hg.process rfl rfl rfl (hset ?_ rfl)
    exact fun row hrow => hsweep row (hrows ▸ hrow)
  | rejected | storeTxHashFails | markFailed | noReceipt | receipt | storeConfirmation | stop =>
    -- these processes hold nothing that is to be minted
    refine hg.process rfl rfl rfl (hset ?_ rfl)
    trivial
  | mined ht hpending h =>
    refine hg.congr hg.system (.refl _) (fun q hq => .inl hq) (fun t' ht' => .inl ?_) ?_
    · rcases (World.setTxStatus_puts ht _).cases ht' with ⟨hold, -⟩ | rfl
      · exact ⟨t', hold, rfl⟩
      · exact ⟨_, (Table.get?_eq_some.mp ht).1, rfl⟩
    · rcases h with ⟨rfl, hok⟩ | ⟨rfl, rfl⟩
      · exact hg.committed.mined ht hok
      · exact hg.committed.congr rfl fun t ht => setTxStatus_calls ht
  | admin h => exact hg.process rfl rfl (UptimeAttestation.admin_epochs h) fun q hq => .inl hq

/-- a new contract has no epoch -/
theorem deploy_isCommitted {initialEpochDuration : BitVec 64} {attestation : Attestation}
    (hdeploy : UptimeAttestation.deploy initialEpochDuration = .ok attestation) (zoneId : ReputationEscrow.Bytes32)
    (epochStart : BitVec 64) : isCommitted attestation zoneId epochStart = false := by
  unfold UptimeAttestation.deploy at hdeploy
  split at hdeploy
  · cases hdeploy
  · cases hdeploy
    rfl

theorem sound_start {zod : Ingestion.Zod} {task : π → Task} (hfresh : ∀ p, (task p).Fresh zod)
    {initialEpochDuration : BitVec 64} {attestation : Attestation}
    (hdeploy : UptimeAttestation.deploy initialEpochDuration = .ok attestation) (zones : Zones) :
    Sound zones V (Grid.start zones attestation task) where
  system := ⟨fun _ h => absurd h List.not_mem_nil, fun _ h => absurd h List.not_mem_nil,
    fun _ h => absurd h List.not_mem_nil, fun _ h => absurd h List.not_mem_nil⟩
  tasks p := by
    have hp := hfresh p
    show TaskBacked V _ _ (task p)
    cases ht : task p with
    | insertEvidence input => trivial
    | listEvidence now => trivial
    | _ =>
      rw [ht] at hp
      exact hp.elim
  processes _ h := absurd h List.not_mem_nil
  sent _ h := absurd h List.not_mem_nil
  committed zoneId epochStart h :=
    absurd ((deploy_isCommitted hdeploy zoneId epochStart).symm.trans h) Bool.false_ne_true
  zones := rfl

section
variable [JsText.Runtime] [DecidableEq π]

/-- **A step of the backend.** -/
theorem Sound.next {simulation : π → Option Simulation} {g g' : Grid π} {a : Action π} (hV : V g.world.db)
    (hV' : V g'.world.db) (hg : Sound zones V g) (h : g.next simulation a = some g') : Sound zones V g' := by
  cases a with
  | task p draw =>
    obtain ⟨o, ho, rfl⟩ := Option.map_eq_some_iff.mp h
    have hstep : StepBacked V g.database o := step_backed hV hV' hg.system (hg.tasks p) ho
    refine ⟨hstep.system, fun q => ?_, fun q hq => ?_, fun t ht => ?_, hg.committed,
      hstep.keeps.zones.trans hg.zones⟩
    · show TaskBacked V _ _ (Function.update g.task p o.task q)
      by_cases hq : q = p
      · rw [hq, Function.update_self]
        exact hstep.task
      · rw [Function.update_of_ne hq]
        exact (hg.tasks q).mono (fun _ => id) hstep.rows hstep.keeps
    · exact (hg.processes q hq).mono (fun _ => id) hstep.keeps
    · exact (hg.sent t ht).mono (fun _ => id) hstep.keeps
  | deliver job replies decisionId now =>
    obtain ⟨w, hw, rfl⟩ := Grid.act_eq_some h
    refine hg.act hV hV' (fun op hop => ?_) (World.next_effect hw)
    obtain rfl := World.Action.operation.inj hop
    exact guarded_orchestrate replies
  | review decisionId reviewDecision note now =>
    obtain ⟨w, hw, rfl⟩ := Grid.act_eq_some h
    refine hg.act hV hV' (fun op hop => ?_) (World.next_effect hw)
    obtain rfl := World.Action.operation.inj hop
    trivial
  | relay a =>
    cases a with
    | operation op => cases h
    | _ =>
      obtain ⟨w, hw, rfl⟩ := Grid.act_eq_some h
      refine hg.act hV hV' (fun op hop => ?_) (World.next_effect hw)
      cases hop

/-! ## runs -/

/-- the states of the tables in the course of a run -/
def States (simulation : π → Option Simulation) (g : Grid π) (actions : List (Action π)) (db : Db) : Prop :=
  ∃ t, Runs.Visited (Grid.next simulation) g actions t ∧ t.world.db = db

theorem sound_run {simulation : π → Option Simulation} {g g' : Grid π} {actions : List (Action π)}
    (hg : Sound zones (fun _ => False) g) (hrun : Runs.run (Grid.next simulation) g actions = some g') :
    Sound zones (States simulation g actions) g' := by
  refine Runs.run_visited (fun V g => Sound zones (fun db => ∃ t, V t ∧ t.world.db = db) g) ?_ ?_ ?_ hrun
  · intro V W s hVW hs
    refine hs.mono ?_
    rintro db ⟨t, ht, hdb⟩
    exact ⟨t, hVW t ht, hdb⟩
  · intro V s a s' hs hs' hsound hnext
    exact hsound.next ⟨s, hs, rfl⟩ ⟨s', hs', rfl⟩ hnext
  · exact hg.mono fun _ h => h.elim

/-- **Every epoch of the contract is the score of evidenced candidates.**  For the zone and the hour of the epoch
there are votes with its uptime and its evidence hash.  They were, in one state of the run, those of all
candidates that were approved for the zone and the hour; each is of a recorded candidate with an approval at the
threshold or by a reviewer, and with stored readings that say what it says or bound the silence that it is. -/
theorem attested {zod : Ingestion.Zod} {simulation : π → Option Simulation} {task : π → Task}
    (hfresh : ∀ p, (task p).Fresh zod) {initialEpochDuration : BitVec 64} {attestation : Attestation}
    (hdeploy : UptimeAttestation.deploy initialEpochDuration = .ok attestation) {zones : Zones}
    {actions : List (Action π)} {g : Grid π}
    (hrun : Runs.run (Grid.next simulation) (Grid.start zones attestation task) actions = some g)
    {zoneId : ReputationEscrow.Bytes32} {epochStart : BitVec 64}
    (hcommitted : isCommitted g.world.attestation zoneId epochStart = true) :
    ∃ z ∈ zones.rows, ∃ (e : EpochStart) (votes : List Vote),
      bytes32 z.zoneKey = some zoneId ∧ (epochStart.toNat : Int) = e.ms / 1000 ∧
      ((getEpoch g.world.attestation zoneId epochStart).uptimeBps.toNat : Int) = uptimeBps votes ∧
      bytes32 (evidenceHash z.id e votes) = some (getEpoch g.world.attestation zoneId epochStart).evidenceHash ∧
      Snapshot (States simulation (Grid.start zones attestation task) actions) (z.id, e) votes ∧
      ∀ v ∈ votes, ∃ r ∈ g.world.db.candidates.rows, r.event.vote = v ∧ r.event.epochKey = (z.id, e) ∧
        Approved (States simulation (Grid.start zones attestation task) actions) r.id ∧
        Evidenced g.evidence.values r.event := by
  have hsound := sound_run (sound_start hfresh hdeploy zones) hrun
  obtain ⟨t, ht, hcall⟩ := hsound.committed zoneId epochStart hcommitted
  obtain ⟨z, hz, e, votes, hinput, htallied⟩ := hsound.sent t ht
  obtain ⟨hzone, hstart, hbps, hhash⟩ := encode_eq_some t.encoded
  rw [hinput, hcall] at hzone hstart hbps hhash
  refine ⟨z, hsound.zones ▸ hz, e, votes, hzone, hstart, hbps, hhash, htallied.snapshot, fun v hv => ?_⟩
  obtain ⟨r, hr, hvote, hkey, happroved⟩ := htallied.counted v hv
  exact ⟨r, hr, hvote, hkey, happroved, hsound.system.evidenced r hr⟩

end

end

/-! ## one reading and its epoch -/

def sampleZone : Zone := ⟨"aaaaaaaa-aaaa-4aaa-8aaa-aaaaaaaaaaaa", "0x" ++ String.ofList (List.replicate 64 'a')⟩

/-- a meter of the zone has one reading to deliver -/
def sampleGrid : Grid Unit :=
  .start ⟨[sampleZone], List.nodup_singleton _, List.nodup_singleton _⟩ ⟨3600, false, fun _ => .zero, []⟩
    fun _ => .insertEvidence Ingestion.sampleTasks.sampleEvidence

/-- the delivery as far as its commitment -/
def sampleDelivery : List (Action Unit) :=
  (List.range 9).map fun n => .task () (Ingestion.sampleStepDraw n)

def sampleScored : Grid Unit :=
  letI := JsText.asciiRuntime
  (Runs.run (Grid.next fun _ => none) sampleGrid sampleDelivery).get (by decide +kernel)

/-- after the end of the hour -/
def sampleTime : IsoDate := ⟨"2026-01-01T16:00:00.000Z", 1767283200000000⟩

def sampleDue : List PendingCommitmentRow := selectPending sampleScored.world.db sampleTime 5

def sampleFirst : PendingCommitmentRow := sampleDue.head (by decide +kernel)

theorem sampleFirst_valid : (commitInputFromPending sampleFirst).Valid := by
  have hzones : ∀ z ∈ sampleScored.world.db.zones.rows, z.KeyIsBytes32 := by decide +kernel
  have hmem : sampleFirst ∈ sampleDue := List.head_mem _
  obtain ⟨cc, -, es, z, hjoin, hrow, -⟩ := of_mem_selectPending hmem
  rw [hrow]
  exact valid_pendingRow cc es (hzones z (joinCommitment_eq_some hjoin).2.1)

def sampleTransaction : Transaction where
  hash := "0x1"
  input := commitInputFromPending sampleFirst
  call := (commitInputFromPending sampleFirst).call sampleFirst_valid
  encoded := CommitEpochInput.encode_eq_call _ (by decide +kernel) (by decide +kernel)
  status := .pending

def sampleTransactions : Transactions :=
  (sampleScored.world.transactions.insert sampleTransaction).get (by decide +kernel)

def sampleSwept : Grid Unit :=
  { sampleScored with world := sampleScored.world.spawn (.submitting (.start sampleDue)) }

def sampleSent : Grid Unit :=
  { sampleSwept with
    world := { sampleSwept.world with transactions := sampleTransactions }.set 0
      (.broadcast sampleFirst "0x1" ⟨sampleDue.length, [], sampleDue.tail⟩) }

def sampleMsg : UptimeAttestation.Msg :=
  ⟨1, ReputationEscrow.Address.one_ne_zero, 0, 1767283200, fun _ _ => true⟩

/-- the relayer sends the transaction of the row, and the chain executes it -/
def sampleActions : List (Action Unit) :=
  sampleDelivery ++ [.relay (.submit sampleTime 5), .relay (.commitEpoch 0 (.accepted "0x1")),
    .relay (.mine "0x1" sampleMsg)]

theorem run_sampleActions : letI := JsText.asciiRuntime
    Runs.run (Grid.next fun _ => none) sampleGrid sampleActions =
      Runs.run (Grid.next fun _ => none) sampleSent [.relay (.mine "0x1" sampleMsg)] := by
  let _ := JsText.asciiRuntime
  have hscored : Runs.run (Grid.next fun _ => none) sampleGrid sampleDelivery = some sampleScored :=
    (Option.some_get _).symm
  have hsubmit : Grid.next (fun _ => none) sampleScored (.relay (.submit sampleTime 5)) = some sampleSwept := rfl
  have hnone : sampleScored.world.processes.length = 0 := by decide +kernel
  have hprocess : sampleSwept.world.processes[0]? = some (.submitting (.start sampleDue)) := by
    unfold sampleSwept World.spawn
    rw [List.getElem?_append_right (Nat.le_of_eq hnone), hnone]
    rfl
  have hinsert : sampleSwept.world.transactions.insert sampleTransaction = some sampleTransactions :=
    (Option.some_get _).symm
  have haccepted : sampleSwept.world.next (.commitEpoch 0 (.accepted "0x1")) = some sampleSent.world :=
    World.next_accepted hprocess (List.cons_head_tail _).symm rfl rfl hinsert
  have hcommit : Grid.next (fun _ => none) sampleSwept (.relay (.commitEpoch 0 (.accepted "0x1"))) =
      some sampleSent := by
    show sampleSwept.act _ = _
    unfold Grid.act
    rw [haccepted]
    rfl
  rw [sampleActions, Runs.run_append, hscored, Option.bind_some, Runs.run_cons, hsubmit, Option.bind_some,
    Runs.run_cons, hcommit, Option.bind_some]

theorem attested_reading : letI := JsText.asciiRuntime
    ∃ g, Runs.run (Grid.next fun _ => none) sampleGrid sampleActions = some g ∧
      ∃ key, bytes32 sampleZone.zoneKey = some key ∧ isCommitted g.world.attestation key 1767276000 = true ∧
        ∃ e votes, ((getEpoch g.world.attestation key 1767276000).uptimeBps.toNat : Int) = uptimeBps votes ∧
          ∀ v ∈ votes, ∃ r ∈ g.world.db.candidates.rows, r.event.vote = v ∧ r.event.epochKey = (sampleZone.id, e) ∧
            Evidenced g.evidence.values r.event := by
  let _ := JsText.asciiRuntime
  have hfresh : ∀ p, ((fun _ => .insertEvidence Ingestion.sampleTasks.sampleEvidence : Unit → Task) p).Fresh
      Ingestion.sampleZod := fun _ => Ingestion.sampleTasks_fresh 0
  have hdeploy : UptimeAttestation.deploy 3600 = .ok ⟨3600, false, fun _ => .zero, []⟩ := rfl
  have hlast : (Runs.run (Grid.next fun _ => none) sampleSent [.relay (.mine "0x1" sampleMsg)]).any (fun g =>
      (bytes32 sampleZone.zoneKey).any fun key => isCommitted g.world.attestation key 1767276000) = true := by
    decide +kernel
  rw [← run_sampleActions] at hlast
  obtain ⟨g, hrun, hlast⟩ := (Option.any_eq_true _ _).mp hlast
  obtain ⟨key, hkey, hcommitted⟩ := (Option.any_eq_true _ _).mp hlast
  obtain ⟨z, hz, e, votes, -, -, huptime, -, -, hvotes⟩ := attested hfresh hdeploy hrun hcommitted
  obtain rfl := List.mem_singleton.mp hz
  refine ⟨g, hrun, key, hkey, hcommitted, e, votes, huptime, fun v hv => ?_⟩
  obtain ⟨r, hr, hvote, hepoch, -, hevidenced⟩ := hvotes v hv
  exact ⟨r, hr, hvote, hepoch, hevidenced⟩

end Provenance
