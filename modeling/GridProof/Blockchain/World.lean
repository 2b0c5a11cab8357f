import GridProof.Blockchain.Encoding
import GridProof.Pipeline.Statements

/-!
# The relayer and the chain

The database, the transactions the relayer has sent and the contract, under any interleaving of
operations, submit sweeps and index sweeps.  A process takes one step at a time: a statement, a
broadcast, a lookup of a receipt.

* `World.next`    the actions; a process may also fail or stop at any point;
* `World.Effect`  what an action does, by cases.
-/

namespace Pipeline

/-! ## transactions and processes -/

inductive TxStatus where
  | pending
  | success
  | reverted
deriving DecidableEq

/-- the status of its receipt -/
def TxStatus.code : TxStatus → Option (Fin 2)
  | .pending => none
  | .success => some ⟨1, Nat.one_lt_two⟩
  | .reverted => some ⟨0, Nat.two_pos⟩

structure Transaction where
  hash : String
  input : CommitEpochInput
  call : UptimeAttestation.CommitEpoch
  encoded : input.encode = some call
  status : TxStatus
deriving DecidableEq

def Transaction.setStatus (status : TxStatus) (t : Transaction) : Transaction :=
  { t with status := status }

abbrev Transactions := Table Transaction Transaction.hash Transaction.hash

inductive Process where
  | operation (phase : Phase)
  /-- a submit sweep; next is the broadcast of its first row -/
  | submitting (sweep : SubmitSweep)
  /-- `commitEpoch` has returned a transaction; next is the update of the row -/
  | broadcast (row : PendingCommitmentRow) (txHash : String) (sweep : SubmitSweep)
  /-- in the `catch` of a row, which ends the sweep -/
  | failing (row : PendingCommitmentRow)
  /-- an index sweep; next is the receipt of its first row -/
  | indexing (sweep : IndexSweep)
  /-- the receipt has been read; next is the update of the row -/
  | receipt (row : SubmittedCommitmentRow) (update : ConfirmationUpdate) (sweep : IndexSweep)
  | ended

structure World where
  system : System
  attestation : UptimeAttestation.Attestation
  transactions : Transactions
  processes : List Process

namespace World

abbrev db (w : World) : Db := w.system.db

/-- no candidates, scores or commitments; the zones are there from the start -/
def start (zones : Zones) (attestation : UptimeAttestation.Attestation) : World :=
  ⟨⟨{ Db.empty with zones := zones }, []⟩, attestation, .empty, []⟩

def setDb (w : World) (db : Db) : World := { w with system := { w.system with db := db } }

/-- a new process -/
def spawn (w : World) (p : Process) : World := { w with processes := w.processes ++ [p] }

/-- process `i` goes on as `p` -/
def set (w : World) (i : Nat) (p : Process) : World := { w with processes := w.processes.set i p }

/-! ## actions -/

/-- what `client.commitEpoch` makes of a row -/
inductive Reply where
  | accepted (txHash : String)
  /-- an error, and no transaction -/
  | rejected
  /-- an error, although the transaction was sent -/
  | lost (txHash : String)
deriving DecidableEq

inductive Action where
  /-- an operation, a submit sweep or an index sweep begins; the sweeps begin with their query -/
  | operation (op : Op)
  | submit (now : IsoDate) (limit : Nat)
  | index (limit : Nat)
  /-- the next statement of the operation -/
  | statement (i : Nat)
  | commitEpoch (i : Nat) (reply : Reply)
  | storeTxHash (i : Nat)
  | storeTxHashFails (i : Nat)
  | markFailed (i : Nat)
  | getTransactionReceipt (i : Nat) (receipt : Option ChainTransactionReceipt)
      (explorerBaseUrl : Option String) (now : IsoDate)
  | storeConfirmation (i : Nat)
  /-- the process ends at an error, or with the server -/
  | stop (i : Nat)
  | mine (txHash : String) (msg : UptimeAttestation.Msg)
  | admin (msg : UptimeAttestation.Msg) (call : UptimeAttestation.AdminCall)

/-- the transaction of a row is sent; its hash is new -/
def send (w : World) (row : PendingCommitmentRow) (txHash : String) : Option World :=
  match h : (commitInputFromPending row).encode with
  | none => none
  | some call =>
    (w.transactions.insert ⟨txHash, commitInputFromPending row, call, h, .pending⟩).map
      fun transactions => { w with transactions := transactions }

def setTxStatus (w : World) (txHash : String) (status : TxStatus) : World :=
  { w with transactions :=
      w.transactions.update (fun t => t.hash = txHash) (.setStatus status) (fun _ => rfl) fun _ => rfl }

/-- a pending transaction is executed -/
def mine (w : World) (txHash : String) (msg : UptimeAttestation.Msg) : Option World := do
  let t ← w.transactions.get? txHash
  if t.status ≠ .pending then none
  else
    match UptimeAttestation.commitEpoch w.attestation msg t.call with
    | .ok attestation => some { w.setTxStatus txHash .success with attestation := attestation }
    | .error _ => some (w.setTxStatus txHash .reverted)

/-- the provider has no receipt, or one that tells the status of the transaction -/
def Answers (w : World) (txHash : String) : Option ChainTransactionReceipt → Prop
  | none => True
  | some r => r.hash = txHash ∧
      (r.status = none ∨ ∃ t ∈ w.transactions.rows, t.hash = txHash ∧ r.status = t.status.code)

instance (w : World) (txHash : String) (receipt : Option ChainTransactionReceipt) :
    Decidable (w.Answers txHash receipt) :=
  match receipt with
  | none => isTrue trivial
  | some _ => inferInstanceAs (Decidable (_ ∧ _))

def next (w : World) : Action → Option World
  | .operation op => some (w.spawn (.operation (.started op)))
  | .submit now limit => some (w.spawn (.submitting (.start (selectPending w.db now limit))))
  | .index limit => some (w.spawn (.indexing (.start (selectSubmitted w.db limit))))
  | .statement i =>
    match w.processes[i]? with
    | some (.operation phase) => (Pipeline.statement w.system phase).map fun (system, phase) =>
        { w with system := system }.set i (.operation phase)
    | _ => none
  | .commitEpoch i reply =>
    match w.processes[i]? with
    | some (.submitting ⟨scanned, txHashes, row :: rows⟩) =>
      match reply with
      | .accepted txHash => (w.send row txHash).map fun w =>
          w.set i (.broadcast row txHash ⟨scanned, txHashes, rows⟩)
      | .rejected => some (w.set i (.failing row))
      | .lost txHash => (w.send row txHash).map fun w => w.set i (.failing row)
    | _ => none
  | .storeTxHash i =>
    match w.processes[i]? with
    | some (.broadcast row txHash sweep) =>
      (Pipeline.storeTxHash w.db row.commitmentId txHash).map fun db =>
        (w.setDb db).set i (.submitting { sweep with txHashes := sweep.txHashes ++ [txHash] })
    | _ => none
  | .storeTxHashFails i =>
    match w.processes[i]? with
    | some (.broadcast row _ _) => some (w.set i (.failing row))
    | _ => none
  | .markFailed i =>
    match w.processes[i]? with
    | some (.failing row) =>
      some ((w.setDb (Pipeline.markFailed w.db row.commitmentId)).set i .ended)
    | _ => none
  | .getTransactionReceipt i receipt explorerBaseUrl now =>
    match w.processes[i]? with
    | some (.indexing ⟨result, row :: rows⟩) =>
      if w.Answers row.txHash receipt then
        match confirmationUpdateFromReceipt receipt explorerBaseUrl now with
        | none => some (w.set i (.indexing ⟨result.pending, rows⟩))
        | some update => some (w.set i (.receipt row update ⟨result, rows⟩))
      else none
    | _ => none
  | .storeConfirmation i =>
    match w.processes[i]? with
    | some (.receipt row update sweep) =>
      some ((w.setDb (Pipeline.storeConfirmation w.db row.commitmentId update)).set i
        (.indexing { sweep with result := sweep.result.stored update row.txHash }))
    | _ => none
  | .stop i => if i < w.processes.length then some (w.set i .ended) else none
  | .mine txHash msg => w.mine txHash msg
  | .admin msg call =>
    match UptimeAttestation.admin w.attestation msg call with
    | .ok attestation => some { w with attestation := attestation }
    | .error _ => none

/-! ## what an action does -/

/-- what an action does: to the tables, the transactions and the process that takes it -/
inductive Effect (w : World) : Action → World → Prop
  | operation (op : Op) : Effect w (.operation op) (w.spawn (.operation (.started op)))
  | submit (now : IsoDate) (limit : Nat) : Effect w (.submit now limit)
      (w.spawn (.submitting (.start (selectPending w.db now limit))))
  | index (limit : Nat) : Effect w (.index limit)
      (w.spawn (.indexing (.start (selectSubmitted w.db limit))))
  | statement {i : Nat} {phase phase' : Phase} {system : System}
      (hi : w.processes[i]? = some (.operation phase))
      (h : Pipeline.statement w.system phase = some (system, phase')) :
      Effect w (.statement i) ({ w with system := system }.set i (.operation phase'))
  | accepted {i : Nat} {row : PendingCommitmentRow} {sweep sweep' : SubmitSweep} {t : Transaction}
      {transactions : Transactions} (hi : w.processes[i]? = some (.submitting sweep))
      (hrows : sweep.rows = row :: sweep'.rows) (hinput : t.input = commitInputFromPending row)
      (hstatus : t.status = .pending) (h : w.transactions.insert t = some transactions) :
      Effect w (.commitEpoch i (.accepted t.hash))
        ({ w with transactions := transactions }.set i (.broadcast row t.hash sweep'))
  | rejected {i : Nat} {row : PendingCommitmentRow} {sweep : SubmitSweep}
      {rows : List PendingCommitmentRow} (hi : w.processes[i]? = some (.submitting sweep))
      (hrows : sweep.rows = row :: rows) :
      Effect w (.commitEpoch i .rejected) (w.set i (.failing row))
  | lost {i : Nat} {row : PendingCommitmentRow} {sweep : SubmitSweep}
      {rows : List PendingCommitmentRow} {t : Transaction} {transactions : Transactions}
      (hi : w.processes[i]? = some (.submitting sweep)) (hrows : sweep.rows = row :: rows)
      (hinput : t.input = commitInputFromPending row) (hstatus : t.status = .pending)
      (h : w.transactions.insert t = some transactions) :
      Effect w (.commitEpoch i (.lost t.hash))
        ({ w with transactions := transactions }.set i (.failing row))
  | storeTxHash {i : Nat} {row : PendingCommitmentRow} {txHash : String}
      {sweep sweep' : SubmitSweep} (hi : w.processes[i]? = some (.broadcast row txHash sweep))
      (hrows : sweep'.rows = sweep.rows) : Effect w (.storeTxHash i)
        ((w.setDb (w.db.updateCommitment row.commitmentId (.setTxHash txHash) (fun _ => rfl)
          fun _ => rfl)).set i (.submitting sweep'))
  | storeTxHashFails {i : Nat} {row : PendingCommitmentRow} {txHash : String} {sweep : SubmitSweep}
      (hi : w.processes[i]? = some (.broadcast row txHash sweep)) :
      Effect w (.storeTxHashFails i) (w.set i (.failing row))
  | markFailed {i : Nat} {row : PendingCommitmentRow}
      (hi : w.processes[i]? = some (.failing row)) : Effect w (.markFailed i)
        ((w.setDb (w.db.updateCommitment row.commitmentId .setFailed (fun _ => rfl)
          fun _ => rfl)).set i .ended)
  | noReceipt {i : Nat} {receipt : Option ChainTransactionReceipt}
      {explorerBaseUrl : Option String} {now : IsoDate} {row : SubmittedCommitmentRow}
      {sweep sweep' : IndexSweep} (hi : w.processes[i]? = some (.indexing sweep))
      (hrows : sweep.rows = row :: sweep'.rows) :
      Effect w (.getTransactionReceipt i receipt explorerBaseUrl now) (w.set i (.indexing sweep'))
  | receipt {i : Nat} {receipt : Option ChainTransactionReceipt} {explorerBaseUrl : Option String}
      {now : IsoDate} {row : SubmittedCommitmentRow} {update : ConfirmationUpdate}
      {sweep sweep' : IndexSweep} (hi : w.processes[i]? = some (.indexing sweep))
      (hrows : sweep.rows = row :: sweep'.rows) (hanswers : w.Answers row.txHash receipt)
      (hupdate : confirmationUpdateFromReceipt receipt explorerBaseUrl now = some update) :
      Effect w (.getTransactionReceipt i receipt explorerBaseUrl now)
        (w.set i (.receipt row update sweep'))
  | storeConfirmation {i : Nat} {row : SubmittedCommitmentRow} {update : ConfirmationUpdate}
      {sweep sweep' : IndexSweep} (hi : w.processes[i]? = some (.receipt row update sweep))
      (hrows : sweep'.rows = sweep.rows) : Effect w (.storeConfirmation i)
        ((w.setDb (w.db.updateCommitment row.commitmentId (.setConfirmation update) (fun _ => rfl)
          fun _ => rfl)).set i (.indexing sweep'))
  | stop (i : Nat) : Effect w (.stop i) (w.set i .ended)
  | mined {txHash : String} {msg : UptimeAttestation.Msg} {t : Transaction} {status : TxStatus}
      {attestation : UptimeAttestation.Attestation} (ht : w.transactions.get? txHash = some t)
      (hpending : t.status = .pending)
      (h : (status = .success ∧
          UptimeAttestation.commitEpoch w.attestation msg t.call = .ok attestation) ∨
        (status = .reverted ∧ attestation = w.attestation)) :
      Effect w (.mine txHash msg) { w.setTxStatus txHash status with attestation := attestation }
  | admin {msg : UptimeAttestation.Msg} {call : UptimeAttestation.AdminCall}
      {attestation : UptimeAttestation.Attestation}
      (h : UptimeAttestation.admin w.attestation msg call = .ok attestation) :
      Effect w (.admin msg call) { w with attestation := attestation }

theorem send_eq_some {w w' : World} {row : PendingCommitmentRow} {txHash : String}
    (h : w.send row txHash = some w') : ∃ t : Transaction, ∃ transactions, t.hash = txHash ∧
    t.input = commitInputFromPending row ∧ t.status = .pending ∧
    w.transactions.insert t = some transactions ∧ w' = { w with transactions := transactions } := by
  unfold send at h
  split at h
  · cases h
  · obtain ⟨transactions, hins, rfl⟩ := Option.map_eq_some_iff.mp h
    exact ⟨_, transactions, rfl, rfl, rfl, hins, rfl⟩

/-- what is sent is the transaction with the arguments of the row -/
theorem send_eq {w : World} {row : PendingCommitmentRow} {t : Transaction}
    (hinput : t.input = commitInputFromPending row) (hstatus : t.status = .pending) :
    w.send row t.hash = (w.transactions.insert t).map
      fun transactions => { w with transactions := transactions } := by
  obtain ⟨txHash, input, call, encoded, status⟩ := t
  obtain rfl : input = commitInputFromPending row := hinput
  obtain rfl : status = .pending := hstatus
  unfold send
  split
  · rename_i hnone
    rw [encoded] at hnone
    cases hnone
  · rename_i call' h
    obtain rfl := Option.some.inj (encoded.symm.trans h)
    rfl

theorem mine_effect {w w' : World} {txHash : String} {msg : UptimeAttestation.Msg}
    (h : w.mine txHash msg = some w') : w.Effect (.mine txHash msg) w' := by
  obtain ⟨t, ht, h⟩ := Option.bind_eq_some_iff.mp h
  split at h
  · cases h
  · rename_i hpending
    split at h
    · rename_i attestation hok
      cases h
      exact .mined ht (not_not.mp hpending) (.inl ⟨rfl, hok⟩)
    · cases h
      exact .mined ht (not_not.mp hpending) (.inr ⟨rfl, rfl⟩)

/-- **What an action does.** -/
theorem next_effect {w w' : World} {a : Action} (h : w.next a = some w') : w.Effect a w' := by
  cases a with
  | operation op => cases h; exact .operation op
  | submit now limit => cases h; exact .submit now limit
  | index limit => cases h; exact .index limit
  | statement i =>
    dsimp only [next] at h
    split at h
    · rename_i phase hi
      obtain ⟨⟨system, phase'⟩, hstatement, rfl⟩ := Option.map_eq_some_iff.mp h
      exact .statement hi hstatement
    · cases h
  | commitEpoch i reply =>
    dsimp only [next] at h
    split at h
    · rename_i scanned txHashes row rows hi
      cases reply with
      | accepted txHash =>
        obtain ⟨w₁, hsend, rfl⟩ := Option.map_eq_some_iff.mp h
        obtain ⟨t, transactions, rfl, hinput, hstatus, hins, rfl⟩ := send_eq_some hsend
        exact .accepted hi rfl hinput hstatus hins
      | rejected => cases h; exact .rejected hi rfl
      | lost txHash =>
        obtain ⟨w₁, hsend, rfl⟩ := Option.map_eq_some_iff.mp h
        obtain ⟨t, transactions, rfl, hinput, hstatus, hins, rfl⟩ := send_eq_some hsend
        exact .lost hi rfl hinput hstatus hins
    · cases h
  | storeTxHash i =>
    dsimp only [next] at h
    split at h
    · rename_i row txHash sweep hi
      obtain ⟨db, hstore, rfl⟩ := Option.map_eq_some_iff.mp h
      unfold Pipeline.storeTxHash at hstore
      split at hstore
      · cases hstore
      · cases hstore
        exact .storeTxHash hi rfl
    · cases h
  | storeTxHashFails i =>
    dsimp only [next] at h
    split at h
    · rename_i row txHash sweep hi
      cases h
      exact .storeTxHashFails hi
    · cases h
  | markFailed i =>
    dsimp only [next] at h
    split at h
    · rename_i row hi
      cases h
      exact .markFailed hi
    · cases h
  | getTransactionReceipt i receipt explorerBaseUrl now =>
    dsimp only [next] at h
    split at h
    · rename_i result row rows hi
      split at h
      · rename_i hanswers
        split at h
        · cases h
          exact .noReceipt hi rfl
        · rename_i update hupdate
          cases h
          exact .receipt hi rfl hanswers hupdate
      · cases h
    · cases h
  | storeConfirmation i =>
    dsimp only [next] at h
    split at h
    · rename_i row update sweep hi
      cases h
      exact .storeConfirmation hi rfl
    · cases h
  | stop i =>
    dsimp only [next] at h
    split at h
    · cases h
      exact .stop i
    · cases h
  | mine txHash msg => exact mine_effect h
  | admin msg call =>
    dsimp only [next] at h
    split at h
    · rename_i attestation hok
      cases h
      exact .admin hok
    · cases h

theorem next_accepted {w : World} {i : Nat} {row : PendingCommitmentRow} {sweep : SubmitSweep}
    {rows : List PendingCommitmentRow} {t : Transaction} {transactions : Transactions}
    (hi : w.processes[i]? = some (.submitting sweep)) (hrows : sweep.rows = row :: rows)
    (hinput : t.input = commitInputFromPending row) (hstatus : t.status = .pending)
    (h : w.transactions.insert t = some transactions) :
    w.next (.commitEpoch i (.accepted t.hash)) = some ({ w with transactions := transactions }.set i
      (.broadcast row t.hash { sweep with rows := rows })) := by
  obtain ⟨scanned, txHashes, due⟩ := sweep
  obtain rfl : due = row :: rows := hrows
  dsimp only [next]
  rw [hi]
  dsimp only
  rw [send_eq hinput hstatus, h]
  rfl

/-! ## inputs of the runs that are checked by evaluation -/

/-- the zone of the sample candidates -/
def sampleZones : Zones where
  rows := [⟨"z", "0x" ++ String.ofList (List.replicate 64 'a')⟩]
  id_nodup := List.nodup_singleton _
  key_nodup := List.nodup_singleton _

/-- hourly epochs, and nothing committed -/
def sampleStart : World := start sampleZones ⟨3600, false, fun _ => .zero, []⟩

/-- two hours after the window of the sample candidates -/
def sampleLater : IsoDate := ⟨"2026-01-01T14:00:00.000Z", 1767276000000000⟩

/-- a message of the relayer, at that time -/
def sampleMsg : UptimeAttestation.Msg :=
  ⟨1, ReputationEscrow.Address.one_ne_zero, 0, 1767276000, fun _ _ => true⟩

/-- process `i` ingests a candidate that is approved, and stores its score and commitment -/
def sampleApproval (i : Nat) (row : CandidateRow) : List Action :=
  [.operation (.ingest row none row.id sampleTime), .statement i, .statement i, .statement i,
    .statement i]

def sampleApproved : World :=
  (Runs.run next sampleStart (sampleApproval 0 (sampleRow "c1" .restored (9 / 10)))).get (by decide +kernel)

/-- what a submit sweep selects then -/
def sampleDue : List PendingCommitmentRow := selectPending sampleApproved.db sampleLater 5

def sampleFirst : PendingCommitmentRow := sampleDue.head (by decide +kernel)

theorem sampleFirst_valid : (commitInputFromPending sampleFirst).Valid := by
  have hzones : ∀ z ∈ sampleApproved.db.zones.rows, z.KeyIsBytes32 := by decide +kernel
  have hmem : sampleFirst ∈ sampleDue := List.head_mem _
  obtain ⟨cc, -, es, z, hjoin, hrow, -⟩ := of_mem_selectPending hmem
  rw [hrow]
  exact valid_pendingRow cc es (hzones z (joinCommitment_eq_some hjoin).2.1)

/-- its transaction, with the arguments left as they are -/
def sampleTransaction : Transaction where
  hash := "0x1"
  input := commitInputFromPending sampleFirst
  call := (commitInputFromPending sampleFirst).call sampleFirst_valid
  encoded := CommitEpochInput.encode_eq_call _ (by decide +kernel) (by decide +kernel)
  status := .pending

def sampleSelected : World := sampleApproved.spawn (.submitting (.start sampleDue))

def sampleTransactions : Transactions :=
  (sampleSelected.transactions.insert sampleTransaction).get (by decide +kernel)

def sampleSent (w : World) : World :=
  { w with transactions := sampleTransactions }.set 1
    (.broadcast sampleFirst "0x1" ⟨sampleDue.length, [], sampleDue.tail⟩)

theorem run_sampleSelected : Runs.run next sampleStart
    (sampleApproval 0 (sampleRow "c1" .restored (9 / 10)) ++ [.submit sampleLater 5]) =
      some sampleSelected := by
  have happroved : Runs.run next sampleStart (sampleApproval 0 (sampleRow "c1" .restored (9 / 10))) =
    some sampleApproved := (Option.some_get _).symm
  rw [Runs.run_append, happroved]
  rfl

theorem sampleSelected_process : sampleSelected.processes[1]? = some (.submitting (.start sampleDue)) := by
  have hone : sampleApproved.processes.length = 1 := by decide +kernel
  unfold sampleSelected spawn
  rw [List.getElem?_append_right (Nat.le_of_eq hone), hone]
  rfl

/-- a second sweep selects the same -/
theorem sampleSelected_submit : sampleSelected.next (.submit sampleLater 5) =
    some (sampleSelected.spawn (.submitting (.start sampleDue))) := by
  have hnext {w : World} : w.next (.submit sampleLater 5) =
    some (w.spawn (.submitting (.start (selectPending w.db sampleLater 5)))) := rfl
  have hdb {w : World} {p : Process} : (w.spawn p).db = w.db := rfl
  rw [hnext]
  unfold sampleSelected sampleDue
  rw [hdb]

theorem sampleTransaction_insert :
    sampleSelected.transactions.insert sampleTransaction = some sampleTransactions :=
  (Option.some_get _).symm

/-- the sweep sends it, whatever else has begun -/
theorem sampleSent_next {w : World} (hi : w.processes[1]? = some (.submitting (.start sampleDue)))
    (ht : w.transactions = sampleSelected.transactions) :
    w.next (.commitEpoch 1 (.accepted "0x1")) = some (sampleSent w) :=
  next_accepted hi (List.cons_head_tail _).symm rfl rfl (ht ▸ sampleTransaction_insert)

/-- a run goes on from there without encoding the row again -/
theorem run_sampleSent (actions : List Action) : Runs.run next sampleStart
    (sampleApproval 0 (sampleRow "c1" .restored (9 / 10)) ++
      .submit sampleLater 5 :: .commitEpoch 1 (.accepted "0x1") :: actions) =
    Runs.run next (sampleSent sampleSelected) actions := by
  rw [← List.singleton_append, ← List.append_assoc, Runs.run_append, run_sampleSelected, Option.bind_some,
    Runs.run_cons, sampleSent_next sampleSelected_process rfl, Option.bind_some]

theorem along_sampleSent {ok : World → Action → Prop} {actions : List Action}
    (h : Runs.Along next ok sampleStart
      (sampleApproval 0 (sampleRow "c1" .restored (9 / 10)) ++ [.submit sampleLater 5]))
    (hsent : ok sampleSelected (.commitEpoch 1 (.accepted "0x1")))
    (hrest : Runs.Along next ok (sampleSent sampleSelected) actions) : Runs.Along next ok sampleStart
      (sampleApproval 0 (sampleRow "c1" .restored (9 / 10)) ++
        .submit sampleLater 5 :: .commitEpoch 1 (.accepted "0x1") :: actions) := by
  rw [← List.singleton_append, ← List.append_assoc]
  exact h.append run_sampleSelected (.cons hsent (sampleSent_next sampleSelected_process rfl) hrest)

end World

end Pipeline
