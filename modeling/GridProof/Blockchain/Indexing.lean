import GridProof.Lib.Backlog
import GridProof.Lib.MapValues
import GridProof.Blockchain.Sweeps

/-!
# Index sweeps one after the other

No commitment is added, and the lookup of a receipt has the same answer every time.  A sweep reads the ten oldest
rows; a row without a receipt stays among them, and a lookup that fails leaves the loop.

* `runChainIndex`      a sweep; an error ends it, what was stored before stays;
* `submittedRows_run`  what a sweep leaves pending, as a pass over a backlog;
* `indexed_iff`        every commitment with a receipt is marked after as many sweeps as there are commitments iff
                       no older one keeps the sweeps from it.
-/

namespace Pipeline

/-! ## the sweep -/

/-- `getTransactionReceipt`, by the hash of the transaction; it may throw -/
abbrev Lookup := String → Except String (Option ChainTransactionReceipt)

section
variable (lookup : Lookup) (explorerBaseUrl : Option String)

/-- the loop of `indexPendingConfirmationsWithClient`; `clock` is the time of each row's update -/
def indexRows (clock : SubmittedCommitmentRow → IsoDate) (db : Db) (result : IndexConfirmationsResult) :
    List SubmittedCommitmentRow → Db × Except String IndexConfirmationsResult
  | [] => (db, .ok result)
  | row :: rows =>
    match lookup row.txHash with
    | .error error => (db, .error error)
    | .ok receipt =>
      match confirmationUpdateFromReceipt receipt explorerBaseUrl (clock row) with
      | none => indexRows clock db result.pending rows
      | some update => indexRows clock (storeConfirmation db row.commitmentId update)
          (result.stored update row.txHash) rows

def indexPendingConfirmationsWithClient (clock : SubmittedCommitmentRow → IsoDate) (db : Db) (limit : ℕ) :
    Db × Except String IndexConfirmationsResult :=
  let pending := selectSubmitted db limit
  indexRows lookup explorerBaseUrl clock db (IndexSweep.start pending).result pending

/-- the limit that the scheduler leaves to its default -/
def indexLimit : ℕ := 10

def runChainIndex (clock : SubmittedCommitmentRow → IsoDate) (db : Db) : Db :=
  (indexPendingConfirmationsWithClient lookup explorerBaseUrl clock db indexLimit).1

/-- the first `n` sweeps -/
def indexed (clock : ℕ → SubmittedCommitmentRow → IsoDate) (db : Db) : ℕ → Db
  | 0 => db
  | n + 1 => runChainIndex lookup explorerBaseUrl (clock n) (indexed clock db n)

end

/-! ## what is pending -/

/-- what the query of the index sweep makes of a commitment -/
def submittedRow (db : Db) (cc : ChainCommitment) : Option SubmittedCommitmentRow := do
  let (es, z) ← joinCommitment db cc
  let txHash ← cc.txHash
  if cc.status = .pending then some ⟨pendingRow cc es z, z.id, txHash⟩ else none

/-- the query without its limit -/
def submittedRows (db : Db) : List SubmittedCommitmentRow :=
  (db.commitments.rows.insertionSort createdOrder).filterMap (submittedRow db)

theorem filterMap_map_sublist {α β γ : Type*} {F : α → Option β} {f : α → γ} {g : β → γ}
    (h : ∀ a b, F a = some b → g b = f a) (l : List α) : ((l.filterMap F).map g).Sublist (l.map f) := by
  induction l with
  | nil => exact .slnil
  | cons a l ih =>
    cases ha : F a with
    | none =>
      rw [List.filterMap_cons_none ha]
      exact ih.cons (f a)
    | some b =>
      rw [List.filterMap_cons_some ha, List.map_cons, List.map_cons, h a b ha]
      exact ih.cons_cons (f a)

theorem submittedRow_eq_some {db : Db} {cc : ChainCommitment} {row : SubmittedCommitmentRow}
    (h : submittedRow db cc = some row) : row.commitmentId = cc.id ∧ cc.status = .pending := by
  simp only [submittedRow, Option.bind_eq_bind, Option.bind_eq_some_iff, Prod.exists] at h
  obtain ⟨es, z, -, txHash, -, h⟩ := h
  split at h
  · rename_i hpending
    cases h
    exact ⟨rfl, hpending⟩
  · cases h

theorem submittedRow_none {db : Db} {cc : ChainCommitment} (h : cc.status ≠ .pending) :
    submittedRow db cc = none := by
  cases hrow : submittedRow db cc with
  | none => rfl
  | some row => exact absurd (submittedRow_eq_some hrow).2 h

/-- no two rows are of one commitment -/
theorem submittedRows_nodup (db : Db) : ((submittedRows db).map (·.commitmentId)).Nodup := by
  refine (filterMap_map_sublist (fun cc row h => (submittedRow_eq_some h).1) _).nodup ?_
  exact ((List.perm_insertionSort createdOrder db.commitments.rows).map _).nodup_iff.mpr db.commitments.id_nodup

theorem mem_submittedRows {db : Db} {row : SubmittedCommitmentRow} (h : row ∈ submittedRows db) :
    ∃ cc ∈ db.commitments.rows, row.commitmentId = cc.id ∧ cc.status = .pending := by
  obtain ⟨cc, hcc, hrow⟩ := List.mem_filterMap.mp h
  exact ⟨cc, (List.mem_insertionSort _).mp hcc, submittedRow_eq_some hrow⟩

/-- an update takes its row out and leaves the others in their order -/
theorem submittedRows_store (db : Db) (commitmentId : String) {update : ConfirmationUpdate}
    (h : update.status ≠ .pending) : submittedRows (storeConfirmation db commitmentId update) =
      (submittedRows db).filter fun row => row.commitmentId ≠ commitmentId := by
  have hsort : (storeConfirmation db commitmentId update).commitments.rows.insertionSort createdOrder =
      (db.commitments.rows.insertionSort createdOrder).map fun cc =>
        if decide (cc.id = commitmentId) then cc.setConfirmation update else cc := by
    refine insertionSort_map_of (fun a b => ?_) db.commitments.rows
    have hcreated : ∀ cc : ChainCommitment, (if decide (cc.id = commitmentId) then cc.setConfirmation update
        else cc).createdAt = cc.createdAt := fun cc => by
      split
      · rfl
      · rfl
    unfold createdOrder
    rw [hcreated, hcreated]
  unfold submittedRows
  rw [hsort, List.filterMap_map, List.filter_filterMap]
  refine List.filterMap_congr fun cc _ => ?_
  show submittedRow _ (if decide (cc.id = commitmentId) then cc.setConfirmation update else cc) = _
  by_cases hid : cc.id = commitmentId
  · rw [if_pos (decide_eq_true hid), submittedRow_none h]
    cases hrow : submittedRow db cc with
    | none => rfl
    | some row =>
      refine (Option.filter_eq_none_iff.mpr fun r hr => ?_).symm
      obtain rfl := Option.some.inj hr
      rw [(submittedRow_eq_some hrow).1, hid]
      simp
  · rw [if_neg (by rw [decide_eq_true_eq]; exact hid)]
    show submittedRow db cc = _
    cases hrow : submittedRow db cc with
    | none => rfl
    | some row =>
      have hne : row.commitmentId ≠ commitmentId := by
        rw [(submittedRow_eq_some hrow).1]
        exact hid
      rw [Option.filter_some, if_pos (decide_eq_true hne)]

/-! ## what a sweep leaves -/

/-- what the lookup says of a row, every time -/
def answer (lookup : Lookup) (row : SubmittedCommitmentRow) : Backlog.Answer :=
  match lookup row.txHash with
  | .error _ => .broken
  | .ok none => .stuck
  | .ok (some receipt) =>
    match receipt.status with
    | none => .stuck
    | some _ => .done

/-- the status of a commitment whose receipt has the code -/
def statusOf (code : Fin 2) : CommitmentStatus := if code.val = 1 then .confirmed else .failed

theorem statusOf_ne (code : Fin 2) : statusOf code ≠ .pending := by
  unfold statusOf
  split
  · exact nofun
  · exact nofun

section
variable {lookup : Lookup} {explorerBaseUrl : Option String}

theorem answer_cases (lookup : Lookup) (explorerBaseUrl : Option String) (row : SubmittedCommitmentRow) :
    (answer lookup row = .broken ∧ ∃ error, lookup row.txHash = .error error) ∨
      (answer lookup row = .stuck ∧ ∃ receipt, lookup row.txHash = .ok receipt ∧
        ∀ now, confirmationUpdateFromReceipt receipt explorerBaseUrl now = none) ∨
      (answer lookup row = .done ∧ ∃ receipt code, lookup row.txHash = .ok (some receipt) ∧
        receipt.status = some code) := by
  unfold answer
  cases h : lookup row.txHash with
  | error e => exact .inl ⟨rfl, e, rfl⟩
  | ok receipt =>
    cases receipt with
    | none => exact .inr (.inl ⟨rfl, none, rfl, fun _ => rfl⟩)
    | some receipt =>
      dsimp only
      cases hstatus : receipt.status with
      | none =>
        refine .inr (.inl ⟨rfl, some receipt, rfl, fun now => ?_⟩)
        unfold confirmationUpdateFromReceipt
        simp only [Option.bind_eq_bind, Option.bind_some, hstatus, Option.bind_none]
      | some code => exact .inr (.inr ⟨rfl, receipt, code, rfl, hstatus⟩)

theorem answer_done {row : SubmittedCommitmentRow} {receipt : ChainTransactionReceipt} {code : Fin 2}
    (h : lookup row.txHash = .ok (some receipt)) (hcode : receipt.status = some code) :
    answer lookup row = .done := by
  unfold answer
  rw [h]
  dsimp only
  rw [hcode]

theorem update_of_code (explorerBaseUrl : Option String) {receipt : ChainTransactionReceipt} {code : Fin 2}
    (hcode : receipt.status = some code) (now : IsoDate) :
    ∃ update, confirmationUpdateFromReceipt (some receipt) explorerBaseUrl now = some update ∧
      update.status = statusOf code ∧ update.blockNumber = receipt.blockNumber := by
  unfold confirmationUpdateFromReceipt
  simp only [Option.bind_eq_bind, Option.bind_some, hcode]
  exact ⟨_, rfl, rfl, rfl⟩

/-! ## what a sweep leaves -/

/-- the commitment has what its receipt says -/
def Mirrored (db : Db) (commitmentId : String) (receipt : ChainTransactionReceipt) (code : Fin 2) : Prop :=
  ∃ cc ∈ db.commitments.rows, cc.id = commitmentId ∧ cc.status = statusOf code ∧
    cc.blockNumber = some receipt.blockNumber

/-- what is settled is not pending -/
theorem Mirrored.not_mem {db : Db} {row : SubmittedCommitmentRow} {receipt : ChainTransactionReceipt}
    {code : Fin 2} (h : Mirrored db row.commitmentId receipt code) : row ∉ submittedRows db := by
  intro hmem
  obtain ⟨cc, hcc, hid, hstatus, -⟩ := h
  obtain ⟨cc', hcc', hid', hpending⟩ := mem_submittedRows hmem
  obtain rfl := db.commitments.eq_of_id hcc hcc' (hid.trans hid')
  exact statusOf_ne code (hstatus.symm.trans hpending)

/-- every row of the list is still pending, or settled as its receipt says -/
def Tracked (lookup : Lookup) (rows : List SubmittedCommitmentRow) (db : Db) : Prop :=
  ∀ row ∈ rows, ∀ receipt code, lookup row.txHash = .ok (some receipt) → receipt.status = some code →
    row ∈ submittedRows db ∨ Mirrored db row.commitmentId receipt code

theorem mem_storeConfirmation {db : Db} (commitmentId : String) (update : ConfirmationUpdate) {cc : ChainCommitment}
    (h : cc ∈ db.commitments.rows) : (if cc.id = commitmentId then cc.setConfirmation update else cc) ∈
      (storeConfirmation db commitmentId update).commitments.rows := by
  refine (db.commitments.mem_update _ (.setConfirmation update) (fun _ => rfl) fun _ => rfl).mpr ⟨cc, h, ?_⟩
  by_cases hid : cc.id = commitmentId
  · rw [if_pos hid, if_pos (decide_eq_true hid)]
  · rw [if_neg hid, if_neg (by rw [decide_eq_true_eq]; exact hid)]

theorem tracked_store {rows : List SubmittedCommitmentRow} {db : Db} (h : Tracked lookup rows db)
    {row : SubmittedCommitmentRow} (hrow : row ∈ submittedRows db) {receipt : ChainTransactionReceipt}
    {code : Fin 2} (hlookup : lookup row.txHash = .ok (some receipt)) {update : ConfirmationUpdate}
    (hcode : receipt.status = some code) (hstatus : update.status = statusOf code)
    (hblock : update.blockNumber = receipt.blockNumber) :
    Tracked lookup rows (storeConfirmation db row.commitmentId update) := by
  intro other hother receipt' code' hlookup' hcode'
  have hcases := h other hother receipt' code' hlookup' hcode'
  by_cases hid : other.commitmentId = row.commitmentId
  · rcases hcases with hmem | hsettled
    · -- the row itself
      obtain rfl := List.inj_on_of_nodup_map (submittedRows_nodup db) hmem hrow hid
      obtain ⟨cc, hcc, hccid, -⟩ := mem_submittedRows hrow
      obtain rfl : receipt = receipt' := by
        rw [hlookup] at hlookup'
        exact Option.some.inj (Except.ok.inj hlookup')
      obtain rfl : code = code' := Option.some.inj (hcode.symm.trans hcode')
      have hmem := mem_storeConfirmation other.commitmentId update hcc
      rw [if_pos hccid.symm] at hmem
      exact .inr ⟨_, hmem, hccid.symm, hstatus, congrArg some hblock⟩
    · rw [hid] at hsettled
      exact absurd hrow hsettled.not_mem
  · rcases hcases with hmem | ⟨cc, hcc, hccid, hrest⟩
    · rw [submittedRows_store db _ (by rw [hstatus]; exact statusOf_ne code)]
      exact .inl (List.mem_filter.mpr ⟨hmem, decide_eq_true hid⟩)
    · have hmem := mem_storeConfirmation row.commitmentId update hcc
      rw [if_neg fun he => hid (hccid.symm.trans he)] at hmem
      exact .inr ⟨cc, hmem, hccid, hrest⟩

/-- the loop takes its rows out of what is pending as a pass does -/
theorem indexRows_spec (clock : SubmittedCommitmentRow → IsoDate) {tracked : List SubmittedCommitmentRow} (k : ℕ)
    (before rest : List SubmittedCommitmentRow) {db : Db} (result : IndexConfirmationsResult)
    (hdb : submittedRows db = before ++ rest) (htracked : Tracked lookup tracked db) :
    submittedRows (indexRows lookup explorerBaseUrl clock db result (rest.take k)).1 =
        before ++ Backlog.pass (answer lookup) k rest ∧
      Tracked lookup tracked (indexRows lookup explorerBaseUrl clock db result (rest.take k)).1 := by
  induction rest generalizing k before db result with
  | nil =>
    rw [List.take_nil, Backlog.pass_nil]
    exact ⟨hdb, htracked⟩
  | cons row rest ih =>
    cases k with
    | zero => exact ⟨hdb, htracked⟩
    | succ k =>
      rw [List.take_succ_cons]
      unfold indexRows
      rcases answer_cases lookup explorerBaseUrl row with ⟨hanswer, error, hlookup⟩ |
        ⟨hanswer, receipt, hlookup, hnone⟩ | ⟨hanswer, receipt, code, hlookup, hcode⟩
      · simp only [hlookup]
        rw [Backlog.pass_broken hanswer]
        exact ⟨hdb, htracked⟩
      · simp only [hlookup, hnone]
        rw [Backlog.pass_stuck hanswer, List.append_cons]
        refine ih k (before ++ [row]) _ ?_ htracked
        rw [hdb, List.append_cons]
      · obtain ⟨update, hupdate, hstatus, hblock⟩ := update_of_code explorerBaseUrl hcode (clock row)
        simp only [hlookup, hupdate]
        rw [Backlog.pass_done hanswer]
        have hmem : row ∈ submittedRows db := by
          rw [hdb]
          exact List.mem_append_right _ List.mem_cons_self
        refine ih k before _ ?_ (tracked_store htracked hmem hlookup hcode hstatus hblock)
        -- no other row is of the commitment
        have hnodup := submittedRows_nodup db
        rw [hdb, List.map_append, List.map_cons] at hnodup
        obtain ⟨-, hright, hdisjoint⟩ := List.nodup_append.mp hnodup
        rw [submittedRows_store db _ (by rw [hstatus]; exact statusOf_ne code), hdb, List.filter_append,
          List.filter_cons_of_neg (by simp)]
        congr 1
        · refine List.filter_eq_self.mpr fun r hr => decide_eq_true fun he => ?_
          exact hdisjoint _ (List.mem_map_of_mem hr) _ List.mem_cons_self he
        · refine List.filter_eq_self.mpr fun r hr => decide_eq_true fun he => ?_
          exact (List.nodup_cons.mp hright).1 (he ▸ List.mem_map_of_mem hr)

/-- **A sweep is a pass over what is pending.** -/
theorem submittedRows_run (explorerBaseUrl : Option String) (clock : SubmittedCommitmentRow → IsoDate)
    {rows : List SubmittedCommitmentRow} {db : Db} (h : Tracked lookup rows db) :
    submittedRows (runChainIndex lookup explorerBaseUrl clock db) =
        Backlog.pass (answer lookup) indexLimit (submittedRows db) ∧
      Tracked lookup rows (runChainIndex lookup explorerBaseUrl clock db) :=
  indexRows_spec clock indexLimit [] (submittedRows db) _ rfl h

theorem submittedRows_indexed (lookup : Lookup) (explorerBaseUrl : Option String)
    (clock : ℕ → SubmittedCommitmentRow → IsoDate) (db : Db) (n : ℕ) :
    submittedRows (indexed lookup explorerBaseUrl clock db n) =
        (Backlog.pass (answer lookup) indexLimit)^[n] (submittedRows db) ∧
      Tracked lookup (submittedRows db) (indexed lookup explorerBaseUrl clock db n) := by
  induction n with
  | zero => exact ⟨rfl, fun row hrow _ _ _ _ => .inl hrow⟩
  | succ n ih =>
    obtain ⟨hrows, htracked⟩ := submittedRows_run explorerBaseUrl (clock n) ih.2
    refine ⟨?_, htracked⟩
    rw [Function.iterate_succ_apply', ← ih.1]
    exact hrows

/-- **After as many sweeps as there are pending commitments, each whose lookup yields a receipt is confirmed or
failed as the receipt says, iff for each of them no older lookup throws and fewer than ten older ones have no
receipt.** -/
theorem indexed_iff (lookup : Lookup) (explorerBaseUrl : Option String)
    (clock : ℕ → SubmittedCommitmentRow → IsoDate) (db : Db) :
    (∀ row ∈ submittedRows db, ∀ receipt code, lookup row.txHash = .ok (some receipt) → receipt.status = some code →
      Mirrored (indexed lookup explorerBaseUrl clock db (submittedRows db).length) row.commitmentId receipt code) ↔
    ∀ before row after, submittedRows db = before ++ row :: after → answer lookup row = .done →
      (∀ older ∈ before, answer lookup older ≠ .broken) ∧
        (before.countP fun older => answer lookup older = .stuck) < indexLimit := by
  obtain ⟨hrows, htracked⟩ := submittedRows_indexed lookup explorerBaseUrl clock db (submittedRows db).length
  have hnodup : (submittedRows db).Nodup := .of_map _ (submittedRows_nodup db)
  have hpasses {before after : List SubmittedCommitmentRow} {row : SubmittedCommitmentRow}
      (hsplit : submittedRows db = before ++ row :: after) (hdone : answer lookup row = .done) :
      row ∉ submittedRows (indexed lookup explorerBaseUrl clock db (submittedRows db).length) ↔
        ¬ Backlog.Blocked (answer lookup) indexLimit before := by
    rw [hrows]
    rw [hsplit] at hnodup ⊢
    exact Backlog.passes_iff hnodup le_rfl hdone
  constructor
  · intro h before row after hsplit hdone
    obtain ⟨hbroken, -⟩ | ⟨hstuck, -⟩ | ⟨-, receipt, code, hlookup, hcode⟩ :=
      answer_cases lookup explorerBaseUrl row
    · rw [hdone] at hbroken
      cases hbroken
    · rw [hdone] at hstuck
      cases hstuck
    · have hrow : row ∈ submittedRows db := by
        rw [hsplit]
        exact List.mem_append_right _ List.mem_cons_self
      have hsettled := h row hrow receipt code hlookup hcode
      exact Backlog.not_blocked_iff.mp ((hpasses hsplit hdone).mp hsettled.not_mem)
  · intro h row hrow receipt code hlookup hcode
    obtain ⟨before, after, hsplit⟩ := List.append_of_mem hrow
    have hdone := answer_done hlookup hcode
    have hout := (hpasses hsplit hdone).mpr (Backlog.not_blocked_iff.mpr (h before row after hsplit hdone))
    exact (htracked row hrow receipt code hlookup hcode).resolve_left hout

end

/-! ## an older lookup that throws -/

def sampleScore (id : String) (epochStart : EpochStart) : ScoreRow :=
  { id := id, zoneId := "z1", epochStart := epochStart, uptimeBps := uptimeBps [],
    evidenceHash := evidenceHash "z1" epochStart [], counted := [], valid := ⟨rfl, rfl⟩ }

def sampleCommitment (id epochScoreId txHash : String) (createdAt : Int) : ChainCommitment :=
  ⟨id, epochScoreId, some txHash, none, .pending, none, ⟨"", createdAt⟩, none⟩

/-- two commitments that were submitted -/
def submittedDb : Db :=
  { Db.empty with
    zones := ⟨[⟨"z1", "0x01"⟩], List.nodup_singleton _, List.nodup_singleton _⟩
    epochScores := ⟨[sampleScore "s1" ⟨0, Int.dvd_zero _⟩, sampleScore "s2" ⟨epochDurationMs, Int.dvd_refl _⟩],
      by decide, by decide⟩
    commitments := ⟨[sampleCommitment "k1" "s1" "0xa" 1, sampleCommitment "k2" "s2" "0xb" 2], by decide, by decide⟩ }

/-- the node answers for the second transaction only -/
def sampleLookup : Lookup := fun txHash =>
  if txHash = "0xb" then .ok (some ⟨"0xb", 7, some (Fin.last 1)⟩) else .error "could not coalesce error"

theorem submittedDb_stays (clock : ℕ → SubmittedCommitmentRow → IsoDate) (n : ℕ) :
    indexed sampleLookup none clock submittedDb n = submittedDb := by
  induction n with
  | zero => rfl
  | succ n ih =>
    unfold indexed
    rw [ih]
    rfl

/-- the second commitment is pending after every sweep -/
theorem starved : ∃ (lookup : Lookup) (clock : ℕ → SubmittedCommitmentRow → IsoDate) (db : Db),
    ¬ ∀ row ∈ submittedRows db, ∀ receipt code, lookup row.txHash = .ok (some receipt) → receipt.status = some code →
      Mirrored (indexed lookup none clock db (submittedRows db).length) row.commitmentId receipt code := by
  refine ⟨sampleLookup, fun _ _ => .ofMillis 0, submittedDb, fun h => ?_⟩
  have hrow : ∃ row ∈ submittedRows submittedDb, row.txHash = "0xb" :=
    ⟨_, List.mem_filterMap.mpr ⟨sampleCommitment "k2" "s2" "0xb" 2, (List.mem_insertionSort _).mpr
      (List.mem_cons_of_mem _ List.mem_cons_self), rfl⟩, rfl⟩
  obtain ⟨row, hmem, hhash⟩ := hrow
  have hlookup : sampleLookup row.txHash = .ok (some ⟨"0xb", 7, some 1⟩) := by
    rw [hhash]
    rfl
  have hsettled := h row hmem ⟨"0xb", 7, some 1⟩ 1 hlookup rfl
  rw [submittedDb_stays] at hsettled
  exact hsettled.not_mem hmem

end Pipeline
