import GridProof.Blockchain.Attestation
import GridProof.Pipeline.Database

/-!
# The sweeps of the relayer

What the submit sweep and the index sweep read, compute and write, as the blockchain module of the
API has it.

* `selectPending`, `selectSubmitted`   the queries;
* `commitInputFromPending`, `encode`   the arguments of `commitEpoch`, and the client's checks of them;
* `confirmationUpdateFromReceipt`      what a receipt makes of a commitment;
* `storeTxHash`, `markFailed`, `storeConfirmation`   the updates, each of one row.

Rows created at the same instant are read in the order of the table.
-/

namespace Pipeline

/-! ## the client -/

structure CommitEpochInput where
  zoneId : String
  epochStart : Int
  uptimeBps : Int
  evidenceHash : String
deriving DecidableEq

def hexValue (c : Char) : Option Nat :=
  if '0' ≤ c ∧ c ≤ '9' then some (c.toNat - 48)
  else if 'a' ≤ c ∧ c ≤ 'f' then some (c.toNat - 87)
  else if 'A' ≤ c ∧ c ≤ 'F' then some (c.toNat - 55)
  else none

/-- `bytes32Schema`: `0x` and 64 hex digits, in either case -/
def bytes32 (s : String) : Option ReputationEscrow.Bytes32 :=
  match s.toList with
  | '0' :: 'x' :: digits =>
    if digits.length = 64 then
      (digits.mapM hexValue).map fun ds => BitVec.ofNat 256 (ds.foldl (fun n d => 16 * n + d) 0)
    else none
  | _ => none

/-- the arguments on chain; the client refuses an input that its checks or the types do not allow -/
def CommitEpochInput.encode (input : CommitEpochInput) : Option UptimeAttestation.CommitEpoch := do
  let zoneId ← bytes32 input.zoneId
  let evidenceHash ← bytes32 input.evidenceHash
  if 0 ≤ input.uptimeBps ∧ input.uptimeBps ≤ 10000 ∧ 0 ≤ input.epochStart ∧
      input.epochStart < 2 ^ 64 then
    some ⟨zoneId, BitVec.ofInt 64 input.epochStart, BitVec.ofInt 16 input.uptimeBps, evidenceHash⟩
  else none

/-- the zone and the epoch of an input -/
def CommitEpochInput.epoch (input : CommitEpochInput) : String × Int :=
  (input.zoneId, input.epochStart)

/-- inputs of one epoch are of one epoch on chain -/
theorem CommitEpochInput.encode_epoch {a b : CommitEpochInput} {c d : UptimeAttestation.CommitEpoch}
    (h : a.epoch = b.epoch) (ha : a.encode = some c) (hb : b.encode = some d) :
    (c.zoneId, c.epochStart) = (d.zoneId, d.epochStart) := by
  obtain ⟨hzone, hstart⟩ := Prod.mk.inj h
  simp only [encode, Option.bind_eq_bind, Option.bind_eq_some_iff] at ha hb
  obtain ⟨z, hz, e, -, ha⟩ := ha
  obtain ⟨z', hz', e', -, hb⟩ := hb
  rw [hzone, hz'] at hz
  cases hz
  split at ha
  · split at hb
    · cases ha
      cases hb
      rw [hstart]
    · cases hb
  · cases ha

structure ChainTransactionReceipt where
  hash : String
  blockNumber : Nat
  /-- `0 | 1 | null` -/
  status : Option (Fin 2)
deriving DecidableEq

/-! ## queries -/

structure PendingCommitmentRow where
  commitmentId : String
  zoneKey : String
  epochStart : EpochStart
  uptimeBps : Int
  evidenceHash : String
deriving DecidableEq

structure SubmittedCommitmentRow extends PendingCommitmentRow where
  zoneId : String
  txHash : String
deriving DecidableEq

def commitInputFromPending (row : PendingCommitmentRow) : CommitEpochInput :=
  ⟨row.zoneKey, row.epochStart.ms / 1000, row.uptimeBps, row.evidenceHash⟩

/-- the joins of the two queries -/
def joinCommitment (db : Db) (cc : ChainCommitment) : Option (ScoreRow × Zone) := do
  let es ← db.epochScores.get? cc.epochScoreId
  let z ← db.zones.get? es.zoneId
  return (es, z)

/-- `order by cc.created_at asc` -/
def createdOrder (a b : ChainCommitment) : Prop := a.createdAt.micros ≤ b.createdAt.micros

instance : DecidableRel createdOrder := fun _ _ => inferInstanceAs (Decidable (_ ≤ _))

def pendingRow (cc : ChainCommitment) (es : ScoreRow) (z : Zone) : PendingCommitmentRow :=
  ⟨cc.id, z.zoneKey, es.epochStart, es.uptimeBps, es.evidenceHash⟩

/-- the query of the submit sweep -/
def selectPending (db : Db) (now : IsoDate) (limit : Nat) : List PendingCommitmentRow :=
  ((db.commitments.rows.insertionSort createdOrder).filterMap fun cc => do
    let (es, z) ← joinCommitment db cc
    if cc.status = .pending ∧ cc.txHash = none ∧
        (es.epochStart.ms + 60 * 60 * 1000) * 1000 ≤ now.micros then
      some (pendingRow cc es z)
    else none).take limit

/-- the query of the index sweep -/
def selectSubmitted (db : Db) (limit : Nat) : List SubmittedCommitmentRow :=
  ((db.commitments.rows.insertionSort createdOrder).filterMap fun cc => do
    let (es, z) ← joinCommitment db cc
    let txHash ← cc.txHash
    if cc.status = .pending then some ⟨pendingRow cc es z, z.id, txHash⟩ else none).take limit

theorem joinCommitment_eq_some {db : Db} {cc : ChainCommitment} {es : ScoreRow} {z : Zone}
    (h : joinCommitment db cc = some (es, z)) : (es ∈ db.epochScores.rows ∧ es.id = cc.epochScoreId) ∧
      z ∈ db.zones.rows ∧ z.id = es.zoneId := by
  simp only [joinCommitment, Option.bind_eq_bind, Option.bind_eq_some_iff] at h
  obtain ⟨es', hes, z', hz, h⟩ := h
  obtain ⟨rfl, rfl⟩ := Prod.mk.inj (Option.some.inj h)
  exact ⟨Table.get?_eq_some.mp hes, Table.get?_eq_some.mp hz⟩

/-- a row of the submit sweep is a pending commitment without a hash, of an hour that is over -/
theorem of_mem_selectPending {db : Db} {now : IsoDate} {limit : Nat} {row : PendingCommitmentRow}
    (h : row ∈ selectPending db now limit) : ∃ cc ∈ db.commitments.rows, ∃ es z,
    joinCommitment db cc = some (es, z) ∧ row = pendingRow cc es z ∧ cc.status = .pending ∧
      cc.txHash = none ∧ (es.epochStart.ms + 60 * 60 * 1000) * 1000 ≤ now.micros := by
  obtain ⟨cc, hcc, h⟩ := List.mem_filterMap.mp (List.mem_of_mem_take h)
  simp only [Option.bind_eq_bind, Option.bind_eq_some_iff, Prod.exists] at h
  obtain ⟨es, z, hjoin, h⟩ := h
  split at h
  · rename_i hwhere
    cases h
    exact ⟨cc, (List.mem_insertionSort _).mp hcc, es, z, hjoin, rfl, hwhere⟩
  · cases h

/-- a row of the index sweep is a pending commitment with a hash -/
theorem of_mem_selectSubmitted {db : Db} {limit : Nat} {row : SubmittedCommitmentRow}
    (h : row ∈ selectSubmitted db limit) : ∃ cc ∈ db.commitments.rows, ∃ es z,
    joinCommitment db cc = some (es, z) ∧ row.toPendingCommitmentRow = pendingRow cc es z ∧
      cc.status = .pending ∧ cc.txHash = some row.txHash := by
  obtain ⟨cc, hcc, h⟩ := List.mem_filterMap.mp (List.mem_of_mem_take h)
  simp only [Option.bind_eq_bind, Option.bind_eq_some_iff, Prod.exists] at h
  obtain ⟨es, z, hjoin, txHash, hhash, h⟩ := h
  split at h
  · rename_i hwhere
    cases h
    exact ⟨cc, (List.mem_insertionSort _).mp hcc, es, z, hjoin, rfl, hwhere, hhash⟩
  · cases h

/-! ## receipts -/

structure ConfirmationUpdate where
  status : CommitmentStatus
  blockNumber : Nat
  explorerUrl : Option String
  confirmedAt : Option IsoDate
deriving DecidableEq

/-- `explorerBaseUrl.replace(/\/$/, "")` -/
def withoutTrailingSlash (s : String) : String :=
  if s.toList.getLast? = some '/' then String.ofList s.toList.dropLast else s

def explorerUrlForTx (txHash : String) : Option String → Option String
  | none => none
  | some explorerBaseUrl =>
    if explorerBaseUrl = "" then none
    else some (withoutTrailingSlash explorerBaseUrl ++ "/tx/" ++ txHash)

def confirmationUpdateFromReceipt (receipt : Option ChainTransactionReceipt)
    (explorerBaseUrl : Option String) (now : IsoDate) : Option ConfirmationUpdate := do
  let receipt ← receipt
  let code ← receipt.status
  let status : CommitmentStatus := if code.val = 1 then .confirmed else .failed
  return {
    status := status
    blockNumber := receipt.blockNumber
    explorerUrl := explorerUrlForTx receipt.hash explorerBaseUrl
    confirmedAt := if status = .confirmed then some now else none }

/-- only the receipt of a reverted transaction makes a commitment fail -/
theorem confirmationUpdateFromReceipt_failed {receipt : Option ChainTransactionReceipt}
    {explorerBaseUrl : Option String} {now : IsoDate} {update : ConfirmationUpdate}
    (h : confirmationUpdateFromReceipt receipt explorerBaseUrl now = some update)
    (hfailed : update.status = .failed) : ∃ r, receipt = some r ∧ r.status = some 0 := by
  simp only [confirmationUpdateFromReceipt, Option.bind_eq_bind, Option.bind_eq_some_iff] at h
  obtain ⟨r, hr, code, hcode, h⟩ := h
  cases h
  refine ⟨r, hr, ?_⟩
  by_cases hone : code.val = 1
  · rw [if_pos hone] at hfailed
    cases hfailed
  · rw [hcode, show code = 0 by omega]

example : explorerUrlForTx "0x6" (some "https://explorer.botchain.test/") =
    some "https://explorer.botchain.test/tx/0x6" := by decide +kernel

/-! ## updates -/

/-- an update of the commitment with a given id -/
def Db.updateCommitment (db : Db) (commitmentId : String) (f : ChainCommitment → ChainCommitment)
    (hid : ∀ cc, (f cc).id = cc.id) (hkey : ∀ cc, (f cc).epochScoreId = cc.epochScoreId) : Db :=
  { db with commitments := db.commitments.update (fun cc => cc.id = commitmentId) f hid hkey }

def ChainCommitment.setTxHash (txHash : String) (cc : ChainCommitment) : ChainCommitment :=
  { cc with txHash := some txHash, status := .pending }

def ChainCommitment.setFailed (cc : ChainCommitment) : ChainCommitment :=
  { cc with status := .failed }

def ChainCommitment.setConfirmation (update : ConfirmationUpdate) (cc : ChainCommitment) :
    ChainCommitment :=
  { cc with
    status := update.status
    blockNumber := some update.blockNumber
    explorerUrl := update.explorerUrl
    confirmedAt := update.confirmedAt }

/-- hashes of commitments are unique -/
def storeTxHash (db : Db) (commitmentId txHash : String) : Option Db :=
  if ∃ cc ∈ db.commitments.rows, cc.id ≠ commitmentId ∧ cc.txHash = some txHash then none
  else some (db.updateCommitment commitmentId (.setTxHash txHash) (fun _ => rfl) fun _ => rfl)

def markFailed (db : Db) (commitmentId : String) : Db :=
  db.updateCommitment commitmentId .setFailed (fun _ => rfl) fun _ => rfl

def storeConfirmation (db : Db) (commitmentId : String) (update : ConfirmationUpdate) : Db :=
  db.updateCommitment commitmentId (.setConfirmation update) (fun _ => rfl) fun _ => rfl

theorem mem_updateCommitment {db : Db} {commitmentId : String} {f : ChainCommitment → ChainCommitment}
    {hid : ∀ cc, (f cc).id = cc.id} {hkey : ∀ cc, (f cc).epochScoreId = cc.epochScoreId}
    {cc : ChainCommitment} (h : cc ∈ (db.updateCommitment commitmentId f hid hkey).commitments.rows) :
    (cc ∈ db.commitments.rows ∧ cc.id ≠ commitmentId) ∨
      ∃ old ∈ db.commitments.rows, old.id = commitmentId ∧ cc = f old := by
  obtain ⟨old, hold, rfl⟩ := (db.commitments.mem_update _ f hid hkey).mp h
  split
  · rename_i hp
    exact .inr ⟨old, hold, of_decide_eq_true hp, rfl⟩
  · rename_i hp
    exact .inl ⟨hold, fun e => hp (decide_eq_true e)⟩

/-! ## sweeps -/

/-- a submit sweep between two rows; `rows` are those it has not handled -/
structure SubmitSweep where
  scanned : Nat
  txHashes : List String
  rows : List PendingCommitmentRow
deriving DecidableEq

def SubmitSweep.start (rows : List PendingCommitmentRow) : SubmitSweep := ⟨rows.length, [], rows⟩

structure IndexConfirmationsResult where
  scanned : Nat
  confirmed : Nat
  failed : Nat
  stillPending : Nat
  txHashes : List String
deriving DecidableEq

/-- an index sweep between two rows -/
structure IndexSweep where
  result : IndexConfirmationsResult
  rows : List SubmittedCommitmentRow
deriving DecidableEq

def IndexSweep.start (rows : List SubmittedCommitmentRow) : IndexSweep :=
  ⟨⟨rows.length, 0, 0, 0, []⟩, rows⟩

def IndexConfirmationsResult.pending (r : IndexConfirmationsResult) : IndexConfirmationsResult :=
  { r with stillPending := r.stillPending + 1 }

def IndexConfirmationsResult.stored (r : IndexConfirmationsResult) (update : ConfirmationUpdate)
    (txHash : String) : IndexConfirmationsResult :=
  let r := if update.status = .confirmed then { r with confirmed := r.confirmed + 1 }
    else { r with failed := r.failed + 1 }
  { r with txHashes := r.txHashes ++ [txHash] }

end Pipeline
