import GridProof.Blockchain.World

/-!
# What holds in every world

Invariants of `World.next` that hold whatever the actions are.

* `Db.Names`        the zone and the epoch of a commitment, the same on chain and in the tables;
* `World.Persists`  what no action takes away, and so what a process may rely on;
* `World.Knows`     what a process knows of the rows it holds;
* `Effect.commitments`, `Effect.scores`, `Effect.transactions`   where a row comes from;
* `World.Wf`        kept by every action.
-/

namespace Pipeline

/-! ## statements and the tables of the relayer -/

theorem upsertEpochScore_keeps {db db' : Db} {row : ScoreRow} {es : EpochScore}
    (h : upsertEpochScore db row = some (db', es)) {old : ScoreRow}
    (hold : old ∈ db.epochScores.rows) :
    ∃ new ∈ db'.epochScores.rows, new.id = old.id ∧ new.key = old.key := by
  obtain ⟨scores, hupsert, he⟩ := Option.map_eq_some_iff.mp h
  obtain ⟨rfl, -⟩ := Prod.mk.inj he
  obtain ⟨new, hnew, -, hid, hkey⟩ := Table.upsert_keeps hupsert hold
  exact ⟨new, hnew, hid, hkey⟩

theorem upsertCommitment_keeps {db db' : Db} {commitment c : ChainCommitment}
    (h : upsertCommitment db commitment = some (db', c)) {old : ChainCommitment}
    (hold : old ∈ db.commitments.rows) : ∃ new ∈ db'.commitments.rows,
    new = old ∨ new = commitment.overwrite old := by
  obtain ⟨commitments, hupsert, he⟩ := Option.map_eq_some_iff.mp h
  obtain ⟨rfl, -⟩ := Prod.mk.inj he
  obtain ⟨new, hnew, hcases, -⟩ := Table.upsert_keeps hupsert hold
  exact ⟨new, hnew, hcases⟩

theorem upsertCommitment_cases {db db' : Db} {commitment c : ChainCommitment}
    (h : upsertCommitment db commitment = some (db', c)) {new : ChainCommitment}
    (hnew : new ∈ db'.commitments.rows) : (∃ old ∈ db.commitments.rows,
      new = old ∨ new = commitment.overwrite old) ∨ new = commitment := by
  obtain ⟨commitments, hupsert, he⟩ := Option.map_eq_some_iff.mp h
  obtain ⟨rfl, -⟩ := Prod.mk.inj he
  rcases Table.upsert_cases hupsert hnew with ⟨old, hold, hcases⟩ | ⟨rfl, -⟩
  · exact .inl ⟨old, hold, hcases.imp id And.left⟩
  · exact .inr rfl

/-- what a statement does to the scores and the commitments -/
inductive TablesEffect (s s' : System) : Phase → Phase → Prop
  | same {phase phase' : Phase} (hscores : s'.db.epochScores = s.db.epochScores)
      (hcommitments : s'.db.commitments = s.db.commitments)
      (hphase : ∀ c es now, phase' ≠ .scored c es now) : TablesEffect s s' phase phase'
  | score {c : CandidateEvent} {votes : List Vote} {now : IsoDate} {r : ScoreRow}
      (hcommitments : s'.db.commitments = s.db.commitments)
      (hputs : s.db.epochScores.Puts s'.db.epochScores r)
      (hkeeps : ∀ old ∈ s.db.epochScores.rows, ∃ new ∈ s'.db.epochScores.rows,
        new.id = old.id ∧ new.key = old.key)
      (hkey : r.key = c.epochKey) (hcounted : r.counted = votes) :
      TablesEffect s s' (.selected c votes now) (.scored c r.toEpochScore now)
  | commitment {c : CandidateEvent} {es : EpochScore} {now : IsoDate}
      (hscores : s'.db.epochScores = s.db.epochScores)
      (hkeeps : ∀ old ∈ s.db.commitments.rows, ∃ new ∈ s'.db.commitments.rows,
        new = old ∨ new = { old with status := .pending })
      (hcases : ∀ new ∈ s'.db.commitments.rows, (∃ old ∈ s.db.commitments.rows,
        new = old ∨ new = { old with status := .pending }) ∨
        new = pendingCommitmentForEpochScore es now) :
      TablesEffect s s' (.scored c es now) (.finished (some c))

theorem statement_tables {s s' : System} {phase phase' : Phase} (hs : s.Wf)
    (h : statement s phase = some (s', phase')) :
    s'.db.zones = s.db.zones ∧ TablesEffect s s' phase phase' := by
  cases phase with
  | started op =>
    obtain ⟨d, -, hframe, hphase⟩ := storeDecision_effect hs h
    refine ⟨by rw [hframe], .same (by rw [hframe]) (by rw [hframe]) fun c es now => ?_⟩
    rcases hphase with rfl | ⟨_, _, _, rfl, -⟩
    · exact nofun
    · exact nofun
  | decided c byWorker now =>
    obtain ⟨hsystem, hphase⟩ := Prod.mk.inj (Option.some.inj h)
    rw [← hsystem, ← hphase]
    exact ⟨rfl, .same rfl rfl fun _ _ _ => nofun⟩
  | selected c votes now =>
    obtain ⟨hframe, -, r, hputs, hkey, hcounted, rfl⟩ := statement_selected h
    simp only [statement, Option.bind_eq_bind, Option.bind_eq_some_iff, Prod.exists] at h
    obtain ⟨db, es, hup, h⟩ := h
    obtain ⟨rfl, -⟩ := Prod.mk.inj (Option.some.inj h)
    refine ⟨by rw [hframe], .score (by rw [hframe]) hputs (fun old hold => ?_) hkey hcounted⟩
    exact upsertEpochScore_keeps hup hold
  | scored c es now =>
    obtain ⟨hframe, -, -, rfl⟩ := statement_scored h
    obtain ⟨⟨db, commitment⟩, hup, h⟩ := Option.bind_eq_some_iff.mp h
    obtain ⟨rfl, -⟩ := Prod.mk.inj (Option.some.inj h)
    refine ⟨by rw [hframe], .commitment (by rw [hframe]) (fun old hold => ?_) fun new hnew => ?_⟩
    · exact upsertCommitment_keeps hup hold
    · exact upsertCommitment_cases hup hnew
  | finished c => cases h

/-! ## the epoch of a commitment -/

/-- the commitment is of the zone and the epoch -/
def Db.Names (db : Db) (cc : ChainCommitment) (epoch : String × Int) : Prop :=
  ∃ r ∈ db.epochScores.rows, r.id = cc.epochScoreId ∧
    ∃ z ∈ db.zones.rows, z.id = r.zoneId ∧ (z.zoneKey, r.epochStart.ms / 1000) = epoch

theorem Db.names_pendingRow {db : Db} {cc : ChainCommitment} {es : ScoreRow} {z : Zone}
    (h : joinCommitment db cc = some (es, z)) :
    db.Names cc (commitInputFromPending (pendingRow cc es z)).epoch := by
  obtain ⟨⟨hes, hid⟩, hz, hzone⟩ := joinCommitment_eq_some h
  exact ⟨es, hes, hid, z, hz, hzone, rfl⟩

theorem EpochStart.eq_of_seconds {a b : EpochStart} (h : a.ms / 1000 = b.ms / 1000) : a = b := by
  obtain ⟨i, hi⟩ := a.aligned
  obtain ⟨j, hj⟩ := b.aligned
  rw [EpochStart.ext_iff]
  unfold epochDurationMs at *
  omega

theorem Db.Names.epoch_eq {db : Db} {cc : ChainCommitment} {e e' : String × Int}
    (h : db.Names cc e) (h' : db.Names cc e') : e = e' := by
  obtain ⟨r, hr, hid, z, hz, hzone, rfl⟩ := h
  obtain ⟨r', hr', hid', z', hz', hzone', rfl⟩ := h'
  obtain rfl := Table.eq_of_id hr hr' (hid.trans hid'.symm)
  obtain rfl := Table.eq_of_id hz hz' (hzone.trans hzone'.symm)
  rfl

/-- at most one commitment is of a zone and an epoch -/
theorem Db.Names.eq {db : Db} {cc cc' : ChainCommitment} {e : String × Int}
    (h : db.Names cc e) (h' : db.Names cc' e) (hcc : cc ∈ db.commitments.rows)
    (hcc' : cc' ∈ db.commitments.rows) : cc = cc' := by
  obtain ⟨r, hr, hid, z, hz, hzone, rfl⟩ := h
  obtain ⟨r', hr', hid', z', hz', hzone', he⟩ := h'
  obtain ⟨hkey, hstart⟩ := Prod.mk.inj he
  obtain rfl := Table.eq_of_key hz hz' hkey.symm
  have hscore : r = r' := by
    refine Table.eq_of_key hr hr' (Prod.ext (hzone.symm.trans hzone') ?_)
    exact EpochStart.eq_of_seconds hstart.symm
  subst hscore
  exact Table.eq_of_key hcc hcc' (hid.symm.trans hid')

namespace World

/-! ## what lasts -/

/-- what no action takes away -/
structure Persists (w w' : World) : Prop where
  zones : w'.db.zones = w.db.zones
  scores : ∀ r ∈ w.db.epochScores.rows, ∃ r' ∈ w'.db.epochScores.rows,
    r'.id = r.id ∧ r'.key = r.key
  commitments : ∀ cc ∈ w.db.commitments.rows, ∃ cc' ∈ w'.db.commitments.rows, cc'.id = cc.id ∧
    cc'.epochScoreId = cc.epochScoreId ∧ (cc.txHash ≠ none → cc'.txHash ≠ none)
  transactions : ∀ t ∈ w.transactions.rows, ∃ t' ∈ w'.transactions.rows,
    t'.hash = t.hash ∧ t'.input = t.input ∧ (t.status = .reverted → t'.status = .reverted)

/-- the tables are the same -/
theorem Persists.of_eq {w w' : World} (hdb : w'.db = w.db)
    (htransactions : w'.transactions = w.transactions) : w.Persists w' := by
  refine ⟨by rw [hdb], fun r hr => ⟨r, ?_, rfl, rfl⟩, fun cc hcc => ⟨cc, ?_, rfl, rfl, id⟩,
    fun t ht => ⟨t, ?_, rfl, rfl, id⟩⟩
  · rw [hdb]
    exact hr
  · rw [hdb]
    exact hcc
  · rw [htransactions]
    exact ht

/-- one commitment is updated -/
theorem Persists.of_update {w : World} {i : Nat} {p : Process} {commitmentId : String}
    {f : ChainCommitment → ChainCommitment} {hid : ∀ cc, (f cc).id = cc.id}
    {hkey : ∀ cc, (f cc).epochScoreId = cc.epochScoreId}
    (hhash : ∀ cc, cc.txHash ≠ none → (f cc).txHash ≠ none) :
    w.Persists ((w.setDb (w.db.updateCommitment commitmentId f hid hkey)).set i p) := by
  refine ⟨rfl, fun r hr => ⟨r, hr, rfl, rfl⟩, fun cc hcc => ?_, fun t ht => ⟨t, ht, rfl, rfl, id⟩⟩
  obtain ⟨cc', hcc', hcases, hid', hkey'⟩ :=
    w.db.commitments.update_keeps (fun cc => cc.id = commitmentId) f hid hkey hcc
  refine ⟨cc', hcc', hid', hkey', ?_⟩
  rcases hcases with rfl | rfl
  · exact id
  · exact hhash cc

/-- a transaction is sent -/
theorem Persists.of_insert {w : World} {i : Nat} {p : Process} {t : Transaction}
    {transactions : Transactions} (h : w.transactions.insert t = some transactions) :
    w.Persists ({ w with transactions := transactions }.set i p) := by
  refine ⟨rfl, fun r hr => ⟨r, hr, rfl, rfl⟩, fun cc hcc => ⟨cc, hcc, rfl, rfl, id⟩,
    fun t ht => ⟨t, ?_, rfl, rfl, id⟩⟩
  show t ∈ transactions.rows
  rw [(Table.insert_eq_some h).1]
  exact List.mem_append_left _ ht

/-- a statement of an operation -/
theorem Persists.of_statement {w : World} {i : Nat} {p : Process} {system : System}
    {phase phase' : Phase} (hw : w.system.Wf)
    (h : Pipeline.statement w.system phase = some (system, phase')) :
    w.Persists ({ w with system := system }.set i p) := by
  obtain ⟨hzones, htables⟩ := statement_tables hw h
  cases htables with
  | same hscores hcommitments _ =>
    refine ⟨hzones, fun r hr => ⟨r, ?_, rfl, rfl⟩, fun cc hcc => ⟨cc, ?_, rfl, rfl, id⟩,
      fun t ht => ⟨t, ht, rfl, rfl, id⟩⟩
    · exact hscores ▸ hr
    · exact hcommitments ▸ hcc
  | score hcommitments _ hkeeps _ _ =>
    refine ⟨hzones, hkeeps, fun cc hcc => ⟨cc, ?_, rfl, rfl, id⟩, fun t ht => ⟨t, ht, rfl, rfl, id⟩⟩
    exact hcommitments ▸ hcc
  | commitment hscores hkeeps _ =>
    refine ⟨hzones, fun r hr => ⟨r, ?_, rfl, rfl⟩, fun cc hcc => ?_, fun t ht => ⟨t, ht, rfl, rfl, id⟩⟩
    · exact hscores ▸ hr
    · obtain ⟨cc', hcc', rfl | rfl⟩ := hkeeps cc hcc
      · exact ⟨_, hcc', rfl, rfl, id⟩
      · exact ⟨_, hcc', rfl, rfl, id⟩

theorem setTxStatus_puts {w : World} {txHash : String} {t : Transaction}
    (ht : w.transactions.get? txHash = some t) (status : TxStatus) :
    w.transactions.Puts (w.setTxStatus txHash status).transactions (t.setStatus status) := by
  refine Table.update_get?_puts ?_ ?_ ht
  · exact fun _ => rfl
  · exact fun _ => rfl

theorem Persists.of_mined {w : World} {txHash : String} {t : Transaction} {status : TxStatus}
    {attestation : UptimeAttestation.Attestation} (ht : w.transactions.get? txHash = some t)
    (hpending : t.status = .pending) :
    w.Persists { w.setTxStatus txHash status with attestation := attestation } := by
  refine ⟨rfl, fun r hr => ⟨r, hr, rfl, rfl⟩, fun cc hcc => ⟨cc, hcc, rfl, rfl, id⟩, fun u hu => ?_⟩
  have hputs := setTxStatus_puts ht status
  by_cases hne : u.hash = t.hash
  · obtain rfl := Table.eq_of_id hu (Table.get?_eq_some.mp ht).1 hne
    exact ⟨_, hputs.self, rfl, rfl, fun hrev => absurd (hpending.symm.trans hrev) (by decide)⟩
  · exact ⟨u, hputs.of_ne hu hne, rfl, rfl, id⟩

/-- **No action takes away a score, a commitment, its hash, or a transaction.** -/
theorem Effect.persists {w w' : World} {a : Action} (hw : w.system.Wf) (h : w.Effect a w') :
    w.Persists w' := by
  cases h with
  | operation op => exact .of_eq rfl rfl
  | submit now limit => exact .of_eq rfl rfl
  | index limit => exact .of_eq rfl rfl
  | statement hi h => exact .of_statement hw h
  | accepted hi hrows hinput hstatus h => exact .of_insert h
  | rejected hi hrows => exact .of_eq rfl rfl
  | lost hi hrows hinput hstatus h => exact .of_insert h
  | storeTxHash hi hrows => exact .of_update fun _ _ => nofun
  | storeTxHashFails hi => exact .of_eq rfl rfl
  | markFailed hi => exact .of_update fun _ => id
  | noReceipt hi hrows => exact .of_eq rfl rfl
  | receipt hi hrows hanswers hupdate => exact .of_eq rfl rfl
  | storeConfirmation hi hrows => exact .of_update fun _ => id
  | stop i => exact .of_eq rfl rfl
  | mined ht hpending h => exact .of_mined ht hpending
  | admin h => exact .of_eq rfl rfl

/-- a commitment keeps its zone and epoch -/
theorem Persists.names {w w' : World} (h : w.Persists w') {cc cc' : ChainCommitment}
    {e : String × Int} (hid : cc'.epochScoreId = cc.epochScoreId) (hcc : w.db.Names cc e) :
    w'.db.Names cc' e := by
  obtain ⟨r, hr, hrid, z, hz, hzone, rfl⟩ := hcc
  obtain ⟨r', hr', hid', hkey⟩ := h.scores r hr
  obtain ⟨hzone', hstart⟩ := Prod.mk.inj hkey
  refine ⟨r', hr', hid'.trans (hrid.trans hid.symm), z, h.zones ▸ hz, hzone.trans hzone'.symm, ?_⟩
  rw [hstart]

/-- a commitment of a score that was there has had its zone and epoch before -/
theorem Persists.names_before {w w' : World} (h : w.Persists w') {cc cc' : ChainCommitment}
    {e : String × Int} (hscored : ∃ r ∈ w.db.epochScores.rows, r.id = cc.epochScoreId)
    (hid : cc'.epochScoreId = cc.epochScoreId) (hcc' : w'.db.Names cc' e) : w.db.Names cc e := by
  obtain ⟨r', hr', hrid', z, hz, hzone, rfl⟩ := hcc'
  obtain ⟨r, hr, hrid⟩ := hscored
  obtain ⟨r'', hr'', hid'', hkey⟩ := h.scores r hr
  obtain rfl := Table.eq_of_id hr'' hr' (hid''.trans (hrid.trans (hid.symm.trans hrid'.symm)))
  obtain ⟨hzone', hstart⟩ := Prod.mk.inj hkey
  refine ⟨r, hr, hrid, z, h.zones ▸ hz, hzone.trans hzone', ?_⟩
  rw [hstart]

/-! ## what a process knows -/

/-- the commitment of a row, with the zone and the epoch of the row -/
def Holds (w : World) (row : PendingCommitmentRow) : Prop :=
  ∃ cc ∈ w.db.commitments.rows, cc.id = row.commitmentId ∧
    w.db.Names cc (commitInputFromPending row).epoch

def Knows (w : World) : Process → Prop
  | .operation (.scored _ es _) => ∃ r ∈ w.db.epochScores.rows, r.id = es.id
  | .operation _ => True
  | .submitting sweep => ∀ row ∈ sweep.rows, w.Holds row
  | .broadcast row txHash sweep => w.Holds row ∧ (∃ t ∈ w.transactions.rows, t.hash = txHash ∧
      t.input = commitInputFromPending row) ∧ ∀ row ∈ sweep.rows, w.Holds row
  | .failing row => w.Holds row
  | .indexing sweep => ∀ row ∈ sweep.rows, w.Holds row.toPendingCommitmentRow
  | .receipt row _ sweep => w.Holds row.toPendingCommitmentRow ∧
      ∀ row ∈ sweep.rows, w.Holds row.toPendingCommitmentRow
  | .ended => True

structure Wf (w : World) : Prop where
  system : w.system.Wf
  scored : ∀ cc ∈ w.db.commitments.rows, ∃ r ∈ w.db.epochScores.rows, r.id = cc.epochScoreId
  knows : ∀ p ∈ w.processes, w.Knows p

theorem Persists.holds {w w' : World} (h : w.Persists w') {row : PendingCommitmentRow}
    (hrow : w.Holds row) : w'.Holds row := by
  obtain ⟨cc, hcc, hid, hnames⟩ := hrow
  obtain ⟨cc', hcc', hid', hkey, -⟩ := h.commitments cc hcc
  exact ⟨cc', hcc', hid'.trans hid, h.names hkey hnames⟩

theorem Persists.knows {w w' : World} (h : w.Persists w') {p : Process} (hp : w.Knows p) :
    w'.Knows p := by
  cases p with
  | operation phase =>
    cases phase with
    | scored c es now =>
      obtain ⟨r, hr, hid⟩ := hp
      obtain ⟨r', hr', hid', -⟩ := h.scores r hr
      exact ⟨r', hr', hid'.trans hid⟩
    | started op => trivial
    | decided c byWorker now => trivial
    | selected c votes now => trivial
    | finished c => trivial
  | submitting sweep => exact fun row hrow => h.holds (hp row hrow)
  | broadcast row txHash sweep =>
    obtain ⟨hrow, ⟨t, ht, hhash, hinput⟩, hrows⟩ := hp
    obtain ⟨t', ht', hhash', hinput', -⟩ := h.transactions t ht
    exact ⟨h.holds hrow, ⟨t', ht', hhash'.trans hhash, hinput'.trans hinput⟩,
      fun row hrow => h.holds (hrows row hrow)⟩
  | failing row => exact h.holds hp
  | indexing sweep => exact fun row hrow => h.holds (hp row hrow)
  | receipt row update sweep => exact ⟨h.holds hp.1, fun row hrow => h.holds (hp.2 row hrow)⟩
  | ended => trivial

/-- after an action a process was there before or is the one that acts -/
theorem mem_set {w : World} {i : Nat} {p q : Process} (h : q ∈ (w.set i p).processes) :
    q ∈ w.processes ∨ q = p :=
  List.mem_or_eq_of_mem_set h

theorem mem_spawn {w : World} {p q : Process} (h : q ∈ (w.spawn p).processes) :
    q ∈ w.processes ∨ q = p :=
  (List.mem_append.mp h).imp id List.mem_singleton.mp

/-! ## a row after an action -/

/-- how an action changes a commitment -/
inductive CommitmentEffect (w : World) : Action → ChainCommitment → ChainCommitment → Prop
  | same (a : Action) (cc : ChainCommitment) : CommitmentEffect w a cc cc
  | pending (a : Action) (cc : ChainCommitment) :
      CommitmentEffect w a cc { cc with status := .pending }
  | submitted {i : Nat} {row : PendingCommitmentRow} {txHash : String} {sweep : SubmitSweep}
      {cc : ChainCommitment} (hi : w.processes[i]? = some (.broadcast row txHash sweep))
      (hid : cc.id = row.commitmentId) :
      CommitmentEffect w (.storeTxHash i) cc (cc.setTxHash txHash)
  | failed {i : Nat} {row : PendingCommitmentRow} {cc : ChainCommitment}
      (hi : w.processes[i]? = some (.failing row)) (hid : cc.id = row.commitmentId) :
      CommitmentEffect w (.markFailed i) cc cc.setFailed
  | confirmed {i : Nat} {row : SubmittedCommitmentRow} {update : ConfirmationUpdate}
      {sweep : IndexSweep} {cc : ChainCommitment}
      (hi : w.processes[i]? = some (.receipt row update sweep)) (hid : cc.id = row.commitmentId) :
      CommitmentEffect w (.storeConfirmation i) cc (cc.setConfirmation update)

theorem CommitmentEffect.keeps {w : World} {a : Action} {cc cc' : ChainCommitment}
    (h : w.CommitmentEffect a cc cc') : cc'.id = cc.id ∧ cc'.epochScoreId = cc.epochScoreId := by
  cases h with
  | _ => exact ⟨rfl, rfl⟩

theorem Effect.commitments {w w' : World} {a : Action} (hw : w.Wf) (h : w.Effect a w')
    {cc' : ChainCommitment} (hcc' : cc' ∈ w'.db.commitments.rows) :
    (∃ cc ∈ w.db.commitments.rows, w.CommitmentEffect a cc cc') ∨
      (cc'.txHash = none ∧ cc'.status = .pending ∧
        ∃ r ∈ w.db.epochScores.rows, r.id = cc'.epochScoreId) := by
  cases h with
  | @statement i phase phase' system hi h =>
    obtain ⟨-, htables⟩ := statement_tables hw.system h
    cases htables with
    | same hscores hcommitments _ =>
      exact .inl ⟨cc', hcommitments ▸ hcc', .same _ _⟩
    | score hcommitments _ _ _ _ =>
      exact .inl ⟨cc', hcommitments ▸ hcc', .same _ _⟩
    | commitment hscores hkeeps hcases =>
      rcases hcases cc' hcc' with ⟨old, hold, rfl | rfl⟩ | rfl
      · exact .inl ⟨_, hold, .same _ _⟩
      · exact .inl ⟨_, hold, .pending _ _⟩
      · exact .inr ⟨rfl, rfl, hw.knows _ (List.mem_of_getElem? hi)⟩
  | storeTxHash hi hrows =>
    rcases mem_updateCommitment hcc' with ⟨hold, -⟩ | ⟨old, hold, hid, rfl⟩
    · exact .inl ⟨cc', hold, .same _ _⟩
    · exact .inl ⟨old, hold, .submitted hi hid⟩
  | markFailed hi =>
    rcases mem_updateCommitment hcc' with ⟨hold, -⟩ | ⟨old, hold, hid, rfl⟩
    · exact .inl ⟨cc', hold, .same _ _⟩
    · exact .inl ⟨old, hold, .failed hi hid⟩
  | storeConfirmation hi hrows =>
    rcases mem_updateCommitment hcc' with ⟨hold, -⟩ | ⟨old, hold, hid, rfl⟩
    · exact .inl ⟨cc', hold, .same _ _⟩
    · exact .inl ⟨old, hold, .confirmed hi hid⟩
  | _ => exact .inl ⟨cc', hcc', .same _ _⟩

/-- a score after an action was there before, or is the one an approval stores -/
theorem Effect.scores {w w' : World} {a : Action} (hw : w.Wf) (h : w.Effect a w') {r : ScoreRow}
    (hr : r ∈ w'.db.epochScores.rows) : r ∈ w.db.epochScores.rows ∨ ∃ i c votes now,
      a = .statement i ∧ w.processes[i]? = some (.operation (.selected c votes now)) ∧
        r.key = c.epochKey ∧ r.counted = votes := by
  cases h with
  | @statement i phase phase' system hi h =>
    obtain ⟨-, htables⟩ := statement_tables hw.system h
    cases htables with
    | same hscores _ _ => exact .inl (hscores ▸ hr)
    | score _ hputs _ hkey hcounted =>
      rcases hputs.cases hr with ⟨hold, -⟩ | rfl
      · exact .inl hold
      · exact .inr ⟨i, _, _, _, rfl, hi, hkey, hcounted⟩
    | commitment hscores _ _ => exact .inl (hscores ▸ hr)
  | _ => exact .inl hr

/-- the row whose transaction an action sends -/
def Sends (w : World) (a : Action) (row : PendingCommitmentRow) : Prop :=
  ∃ i sweep rows, w.processes[i]? = some (.submitting sweep) ∧ sweep.rows = row :: rows ∧
    ∃ txHash, a = .commitEpoch i (.accepted txHash) ∨ a = .commitEpoch i (.lost txHash)

/-- a transaction after an action was there before, with the same status or pending, or is sent -/
theorem Effect.transactions {w w' : World} {a : Action} (h : w.Effect a w') {t' : Transaction}
    (ht' : t' ∈ w'.transactions.rows) : (∃ t ∈ w.transactions.rows, t'.hash = t.hash ∧
      t'.input = t.input ∧ (t'.status = t.status ∨ t.status = .pending)) ∨
      ∃ row, w.Sends a row ∧ t'.input = commitInputFromPending row ∧ t'.status = .pending ∧
        ∀ t ∈ w.transactions.rows, t.hash ≠ t'.hash := by
  cases h with
  | accepted hi hrows hinput hstatus h =>
    rcases (Table.insert_puts h).cases ht' with ⟨hold, -⟩ | rfl
    · exact .inl ⟨t', hold, rfl, rfl, .inl rfl⟩
    · exact .inr ⟨_, ⟨_, _, _, hi, hrows, _, .inl rfl⟩, hinput, hstatus, (Table.insert_eq_some h).2.1⟩
  | lost hi hrows hinput hstatus h =>
    rcases (Table.insert_puts h).cases ht' with ⟨hold, -⟩ | rfl
    · exact .inl ⟨t', hold, rfl, rfl, .inl rfl⟩
    · exact .inr ⟨_, ⟨_, _, _, hi, hrows, _, .inr rfl⟩, hinput, hstatus, (Table.insert_eq_some h).2.1⟩
  | mined ht hpending _ =>
    rcases (setTxStatus_puts ht _).cases ht' with ⟨hold, -⟩ | rfl
    · exact .inl ⟨t', hold, rfl, rfl, .inl rfl⟩
    · exact .inl ⟨_, (Table.get?_eq_some.mp ht).1, rfl, rfl, .inr hpending⟩
  | _ => exact .inl ⟨t', ht', rfl, rfl, .inl rfl⟩

/-! ## well-formed worlds -/

theorem Effect.system_wf {w w' : World} {a : Action} (hw : w.system.Wf) (h : w.Effect a w') :
    w'.system.Wf := by
  cases h with
  | statement hi h => exact statement_wf hw h
  | storeTxHash hi hrows => exact hw.congr rfl rfl rfl
  | markFailed hi => exact hw.congr rfl rfl rfl
  | storeConfirmation hi hrows => exact hw.congr rfl rfl rfl
  | _ => exact hw

theorem Effect.scored {w w' : World} {a : Action} (hw : w.Wf) (h : w.Effect a w')
    {cc' : ChainCommitment} (hcc' : cc' ∈ w'.db.commitments.rows) :
    ∃ r ∈ w'.db.epochScores.rows, r.id = cc'.epochScoreId := by
  have hold : ∃ r ∈ w.db.epochScores.rows, r.id = cc'.epochScoreId := by
    rcases h.commitments hw hcc' with ⟨cc, hcc, heff⟩ | ⟨-, -, hr⟩
    · rw [heff.keeps.2]
      exact hw.scored cc hcc
    · exact hr
  obtain ⟨r, hr, hid⟩ := hold
  obtain ⟨r', hr', hid', -⟩ := (h.persists hw.system).scores r hr
  exact ⟨r', hr', hid'.trans hid⟩

/-- a process after an action knows its rows -/
theorem Effect.knows {w w' : World} {a : Action} (hw : w.Wf) (h : w.Effect a w') {q : Process}
    (hq : q ∈ w'.processes) : w'.Knows q := by
  have hpers := h.persists hw.system
  have hold {p : Process} (hp : p ∈ w.processes) : w'.Knows p := hpers.knows (hw.knows p hp)
  have hat {i : Nat} {p : Process} (hi : w.processes[i]? = some p) : w'.Knows p :=
    hold (List.mem_of_getElem? hi)
  cases h with
  | operation op =>
    rcases mem_spawn hq with hq | rfl
    · exact hold hq
    · trivial
  | submit now limit =>
    rcases mem_spawn hq with hq | rfl
    · exact hold hq
    · intro row hrow
      obtain ⟨cc, hcc, es, z, hjoin, rfl, -, -⟩ := of_mem_selectPending hrow
      exact ⟨cc, hcc, rfl, Db.names_pendingRow hjoin⟩
  | index limit =>
    rcases mem_spawn hq with hq | rfl
    · exact hold hq
    · intro row hrow
      obtain ⟨cc, hcc, es, z, hjoin, hrow, -, -⟩ := of_mem_selectSubmitted hrow
      rw [hrow]
      exact ⟨cc, hcc, rfl, Db.names_pendingRow hjoin⟩
  | @statement i phase phase' system hi h =>
    rcases mem_set hq with hq | rfl
    · exact hold hq
    · obtain ⟨-, htables⟩ := statement_tables hw.system h
      cases htables with
      | same _ _ hphase =>
        cases phase' with
        | scored c es now => exact absurd rfl (hphase c es now)
        | _ => trivial
      | score _ hputs _ _ _ => exact ⟨_, hputs.self, rfl⟩
      | commitment _ _ _ => trivial
  | accepted hi hrows hinput hstatus h =>
    rcases mem_set hq with hq | rfl
    · exact hold hq
    · refine ⟨?_, ⟨_, (Table.insert_puts h).self, rfl, hinput⟩, fun row hmem => ?_⟩
      · exact hat hi _ (hrows ▸ List.mem_cons_self)
      · exact hat hi row (hrows ▸ List.mem_cons_of_mem _ hmem)
  | rejected hi hrows =>
    rcases mem_set hq with hq | rfl
    · exact hold hq
    · exact hat hi _ (hrows ▸ List.mem_cons_self)
  | lost hi hrows hinput hstatus h =>
    rcases mem_set hq with hq | rfl
    · exact hold hq
    · exact hat hi _ (hrows ▸ List.mem_cons_self)
  | storeTxHash hi hrows =>
    rcases mem_set hq with hq | rfl
    · exact hold hq
    · exact fun row hrow => (hat hi).2.2 row (hrows ▸ hrow)
  | storeTxHashFails hi =>
    rcases mem_set hq with hq | rfl
    · exact hold hq
    · exact (hat hi).1
  | markFailed hi =>
    rcases mem_set hq with hq | rfl
    · exact hold hq
    · trivial
  | noReceipt hi hrows =>
    rcases mem_set hq with hq | rfl
    · exact hold hq
    · exact fun row hrow => hat hi row (hrows ▸ List.mem_cons_of_mem _ hrow)
  | receipt hi hrows hanswers hupdate =>
    rcases mem_set hq with hq | rfl
    · exact hold hq
    · refine ⟨hat hi _ (hrows ▸ List.mem_cons_self), fun row hrow => ?_⟩
      exact hat hi row (hrows ▸ List.mem_cons_of_mem _ hrow)
  | storeConfirmation hi hrows =>
    rcases mem_set hq with hq | rfl
    · exact hold hq
    · exact fun row hrow => (hat hi).2 row (hrows ▸ hrow)
  | stop i =>
    rcases mem_set hq with hq | rfl
    · exact hold hq
    · trivial
  | mined ht hpending h => exact hold hq
  | admin h => exact hold hq

/-- **Every action keeps a world well-formed.** -/
theorem Effect.wf {w w' : World} {a : Action} (hw : w.Wf) (h : w.Effect a w') : w'.Wf :=
  ⟨h.system_wf hw.system, fun _ => h.scored hw, fun _ => h.knows hw⟩

theorem start_wf (zones : Zones) (attestation : UptimeAttestation.Attestation) :
    (start zones attestation).Wf :=
  ⟨⟨fun _ h => absurd h List.not_mem_nil, fun _ h => absurd h List.not_mem_nil⟩,
    fun _ h => absurd h List.not_mem_nil, fun _ h => absurd h List.not_mem_nil⟩

end World

end Pipeline
