import GridProof.Blockchain.WellFormed

/-!
# Successful transactions and their commitments

Once a transaction of an epoch has succeeded, the commitment of the epoch should not be failed, nor
carry the hash of another transaction.  Sweeps that overlap and errors that hide a transaction break
this.

* `World.Owned`            the commitments own up to the transactions that succeeded;
* `World.Careful`          the condition on an action of a submit sweep; the index sweep needs none;
* `Effect.ownedLive`       one action, for all transactions that have not reverted; `owned_run` a run;
* `success_run`            the contract accepts at most one transaction of an epoch.
-/

namespace Pipeline

/-- the row a sweep broadcasts next -/
def Process.due : Process → Option PendingCommitmentRow
  | .submitting sweep => sweep.rows.head?
  | _ => none

/-- the row and the hash that a sweep is about to store -/
def Process.answered : Process → Option (PendingCommitmentRow × String)
  | .broadcast row txHash _ => some (row, txHash)
  | _ => none

/-- the row that a sweep is about to mark as failed -/
def Process.caught : Process → Option PendingCommitmentRow
  | .failing row => some row
  | _ => none

namespace World

/-- no commitment of an epoch whose transaction succeeded is failed or has another hash -/
def Owned (w : World) : Prop :=
  ∀ t ∈ w.transactions.rows, t.status = .success → ∀ cc ∈ w.db.commitments.rows,
    w.db.Names cc t.input.epoch → cc.status ≠ .failed ∧ ∀ txHash ∈ cc.txHash, txHash = t.hash

/-- no transaction of the row's epoch, but the one with hash `except`, may still succeed or has -/
def AllReverted (w : World) (row : PendingCommitmentRow) (except : Option String) : Prop :=
  ∀ t ∈ w.transactions.rows, t.input.epoch = (commitInputFromPending row).epoch →
    some t.hash ≠ except → t.status = .reverted

instance (w : World) (row : PendingCommitmentRow) (except : Option String) :
    Decidable (w.AllReverted row except) :=
  inferInstanceAs (Decidable (∀ t ∈ w.transactions.rows, _))

/-- a transaction is sent only for a commitment that is still pending without a hash, and a hash is
stored, or a row marked as failed, only if no other transaction of the epoch may have succeeded -/
def Careful (w : World) : Action → Prop
  | .commitEpoch i reply => reply ≠ .rejected → ∀ p ∈ w.processes[i]?, ∀ row ∈ p.due,
      ∀ cc ∈ w.db.commitments.rows, cc.id = row.commitmentId → cc.status = .pending ∧ cc.txHash = none
  | .storeTxHash i => ∀ p ∈ w.processes[i]?, ∀ q ∈ p.answered, w.AllReverted q.1 (some q.2)
  | .markFailed i => ∀ p ∈ w.processes[i]?, ∀ row ∈ p.caught, w.AllReverted row none
  | _ => True

instance (w : World) : (a : Action) → Decidable (w.Careful a)
  | .commitEpoch .. => inferInstanceAs (Decidable (_ → _))
  | .storeTxHash i => inferInstanceAs (Decidable (∀ p ∈ w.processes[i]?, _))
  | .markFailed i => inferInstanceAs (Decidable (∀ p ∈ w.processes[i]?, _))
  | .operation _ | .submit .. | .index _ | .statement _ | .storeTxHashFails _
  | .getTransactionReceipt .. | .storeConfirmation _ | .stop _ | .mine .. | .admin .. => isTrue trivial

/-! ## transactions that may still succeed -/

/-- as `Owned`, for every transaction that has not reverted -/
def OwnedLive (w : World) : Prop :=
  ∀ t ∈ w.transactions.rows, t.status ≠ .reverted → ∀ cc ∈ w.db.commitments.rows,
    w.db.Names cc t.input.epoch → cc.status ≠ .failed ∧ ∀ txHash ∈ cc.txHash, txHash = t.hash

theorem OwnedLive.owned {w : World} (h : w.OwnedLive) : w.Owned := by
  intro t ht hsuccess
  apply h t ht
  rw [hsuccess]
  exact nofun

/-- the row's commitment is the one with the row's id -/
theorem Holds.names {w : World} {row : PendingCommitmentRow} (h : w.Holds row)
    {cc : ChainCommitment} (hcc : cc ∈ w.db.commitments.rows) (hid : cc.id = row.commitmentId) :
    w.db.Names cc (commitInputFromPending row).epoch := by
  obtain ⟨cc', hcc', hid', hnames⟩ := h
  obtain rfl := Table.eq_of_id hcc hcc' (hid.trans hid'.symm)
  exact hnames

/-- a transaction is sent for the commitment of its epoch, which has no hash yet -/
theorem Sends.commitment {w : World} {a : Action} {row : PendingCommitmentRow} (hw : w.Wf)
    (hok : w.Careful a) (h : w.Sends a row) {cc : ChainCommitment}
    (hcc : cc ∈ w.db.commitments.rows) (hnames : w.db.Names cc (commitInputFromPending row).epoch) :
    cc.status = .pending ∧ cc.txHash = none := by
  obtain ⟨i, sweep, rows, hi, hrows, txHash, ha⟩ := h
  have hknows := hw.knows _ (List.mem_of_getElem? hi)
  obtain ⟨cc', hcc', hid, hnames'⟩ : w.Holds row := hknows row (hrows ▸ List.mem_cons_self)
  obtain rfl := hnames.eq hnames' hcc hcc'
  have hdue : row ∈ Process.due (.submitting sweep) := by
    show sweep.rows.head? = some row
    rw [hrows]
    rfl
  rcases ha with rfl | rfl
  · exact hok nofun _ hi row hdue cc hcc hid
  · exact hok nofun _ hi row hdue cc hcc hid

/-- no transaction is sent for a commitment that has a hash -/
theorem Effect.live_before {w w' : World} {a : Action} (hw : w.Wf) (hok : w.Careful a)
    (h : w.Effect a w') {cc : ChainCommitment} (hcc : cc ∈ w.db.commitments.rows)
    (hhash : cc.txHash ≠ none) {t' : Transaction} (ht' : t' ∈ w'.transactions.rows)
    (hnames : w.db.Names cc t'.input.epoch) (hlive : t'.status ≠ .reverted) :
    ∃ t ∈ w.transactions.rows, t.hash = t'.hash ∧ t.input = t'.input ∧ t.status ≠ .reverted := by
  rcases h.transactions ht' with ⟨t, ht, hthash, hinput, hstatus⟩ | ⟨row, hsends, hinput, -, -⟩
  · refine ⟨t, ht, hthash.symm, hinput.symm, ?_⟩
    rcases hstatus with hsame | hpending
    · rw [← hsame]
      exact hlive
    · rw [hpending]
      exact nofun
  · rw [hinput] at hnames
    exact absurd (hsends.commitment hw hok hcc hnames).2 hhash

/-! ## the index sweep -/

/-- the commitment of the row has a hash, and no transaction of its epoch but the row's is live -/
def Settled (w : World) (row : SubmittedCommitmentRow) : Prop :=
  ∃ cc ∈ w.db.commitments.rows, cc.id = row.commitmentId ∧ cc.txHash ≠ none ∧
    ∀ t ∈ w.transactions.rows, w.db.Names cc t.input.epoch → t.status ≠ .reverted → t.hash = row.txHash

/-- the same with every transaction of the epoch reverted -/
def Reverted (w : World) (row : SubmittedCommitmentRow) : Prop :=
  ∃ cc ∈ w.db.commitments.rows, cc.id = row.commitmentId ∧ cc.txHash ≠ none ∧
    ∀ t ∈ w.transactions.rows, w.db.Names cc t.input.epoch → t.status = .reverted

/-- what an index sweep knows of the transactions of its rows -/
def Sees (w : World) : Process → Prop
  | .indexing sweep => ∀ row ∈ sweep.rows, w.Settled row
  | .receipt row update sweep => (update.status = .failed → w.Reverted row) ∧
      ∀ row ∈ sweep.rows, w.Settled row
  | _ => True

theorem Effect.settled {w w' : World} {a : Action} (hw : w.Wf) (hok : w.Careful a)
    (h : w.Effect a w') {row : SubmittedCommitmentRow} (hrow : w.Settled row) : w'.Settled row := by
  have hpers := h.persists hw.system
  obtain ⟨cc, hcc, hid, hhash, hall⟩ := hrow
  obtain ⟨cc', hcc', hid', hkey, hhash'⟩ := hpers.commitments cc hcc
  refine ⟨cc', hcc', hid'.trans hid, hhash' hhash, fun t' ht' hnames' hlive => ?_⟩
  have hnames := hpers.names_before (hw.scored cc hcc) hkey hnames'
  obtain ⟨t, ht, hthash, hinput, hlive⟩ := h.live_before hw hok hcc hhash ht' hnames hlive
  rw [← hthash]
  exact hall t ht (hinput ▸ hnames) hlive

theorem Effect.reverted {w w' : World} {a : Action} (hw : w.Wf) (hok : w.Careful a)
    (h : w.Effect a w') {row : SubmittedCommitmentRow} (hrow : w.Reverted row) : w'.Reverted row := by
  have hpers := h.persists hw.system
  obtain ⟨cc, hcc, hid, hhash, hall⟩ := hrow
  obtain ⟨cc', hcc', hid', hkey, hhash'⟩ := hpers.commitments cc hcc
  refine ⟨cc', hcc', hid'.trans hid, hhash' hhash, fun t' ht' hnames' => ?_⟩
  have hnames := hpers.names_before (hw.scored cc hcc) hkey hnames'
  by_contra hlive
  obtain ⟨t, ht, -, hinput, hlive⟩ := h.live_before hw hok hcc hhash ht' hnames hlive
  exact hlive (hall t ht (hinput ▸ hnames))

/-- a receipt that fails a commitment tells that all transactions of its epoch have reverted -/
theorem Settled.reverted {w : World} {row : SubmittedCommitmentRow} (h : w.Settled row)
    {receipt : Option ChainTransactionReceipt} {explorerBaseUrl : Option String} {now : IsoDate}
    {update : ConfirmationUpdate} (hanswers : w.Answers row.txHash receipt)
    (hupdate : confirmationUpdateFromReceipt receipt explorerBaseUrl now = some update)
    (hfailed : update.status = .failed) : w.Reverted row := by
  obtain ⟨r, rfl, hcode⟩ := confirmationUpdateFromReceipt_failed hupdate hfailed
  obtain ⟨-, hnone | ⟨t, ht, hthash, hstatus⟩⟩ := hanswers
  · rw [hnone] at hcode
    cases hcode
  · have hreverted : t.status = .reverted := by
      rw [hcode] at hstatus
      cases hs : t.status with
      | reverted => rfl
      | pending => rw [hs] at hstatus; cases hstatus
      | success => rw [hs] at hstatus; cases hstatus
    obtain ⟨cc, hcc, hid, hhash, hall⟩ := h
    refine ⟨cc, hcc, hid, hhash, fun u hu hnames => ?_⟩
    by_contra hlive
    have huhash := hall u hu hnames hlive
    obtain rfl := Table.eq_of_id hu ht (huhash.trans hthash.symm)
    exact hlive hreverted

/-- **An index sweep knows its rows, if submit sweeps are careful.** -/
theorem Effect.sees {w w' : World} {a : Action} (hw : w.Wf) (howned : w.OwnedLive)
    (hsees : ∀ p ∈ w.processes, w.Sees p) (hok : w.Careful a) (h : w.Effect a w') {q : Process}
    (hq : q ∈ w'.processes) : w'.Sees q := by
  have hold {p : Process} (hp : p ∈ w.processes) : w'.Sees p := by
    have hsee := hsees p hp
    cases p with
    | indexing sweep => exact fun row hrow => h.settled hw hok (hsee row hrow)
    | receipt row update sweep =>
      refine ⟨fun hfailed => h.reverted hw hok (hsee.1 hfailed), fun row hrow => ?_⟩
      exact h.settled hw hok (hsee.2 row hrow)
    | _ => trivial
  have hat {i : Nat} {p : Process} (hi : w.processes[i]? = some p) : w'.Sees p :=
    hold (List.mem_of_getElem? hi)
  cases h with
  | operation op =>
    rcases mem_spawn hq with hq | rfl
    · exact hold hq
    · trivial
  | submit now limit =>
    rcases mem_spawn hq with hq | rfl
    · exact hold hq
    · trivial
  | index limit =>
    rcases mem_spawn hq with hq | rfl
    · exact hold hq
    · intro row hrow
      obtain ⟨cc, hcc, es, z, -, hrow, -, hhash⟩ := of_mem_selectSubmitted hrow
      refine ⟨cc, hcc, by rw [hrow]; rfl, by rw [hhash]; exact nofun, fun t ht hnames hlive => ?_⟩
      exact ((howned t ht hlive cc hcc hnames).2 _ hhash).symm
  | noReceipt hi hrows =>
    rcases mem_set hq with hq | rfl
    · exact hold hq
    · exact fun row hrow => hat hi row (hrows ▸ List.mem_cons_of_mem _ hrow)
  | receipt hi hrows hanswers hupdate =>
    rcases mem_set hq with hq | rfl
    · exact hold hq
    · refine ⟨fun hfailed => ?_, fun row hrow => hat hi row (hrows ▸ List.mem_cons_of_mem _ hrow)⟩
      exact (hat hi _ (hrows ▸ List.mem_cons_self)).reverted hanswers hupdate hfailed
  | storeConfirmation hi hrows =>
    rcases mem_set hq with hq | rfl
    · exact hold hq
    · exact fun row hrow => (hat hi).2 row (hrows ▸ hrow)
  | mined ht hpending h => exact hold hq
  | admin h => exact hold hq
  | _ =>
    rcases mem_set hq with hq | rfl
    · exact hold hq
    · trivial

/-! ## one action -/

/-- **A careful action keeps every live transaction owned.** -/
theorem Effect.ownedLive {w w' : World} {a : Action} (hw : w.Wf) (howned : w.OwnedLive)
    (hsees : ∀ p ∈ w.processes, w.Sees p) (hok : w.Careful a) (h : w.Effect a w') :
    w'.OwnedLive := by
  intro t' ht' hlive' cc' hcc' hnames'
  rcases h.commitments hw hcc' with ⟨cc, hcc, heff⟩ | ⟨hnone, hpending, -⟩
  · have hnames := (h.persists hw.system).names_before (hw.scored cc hcc) heff.keeps.2 hnames'
    rcases h.transactions ht' with ⟨t, ht, hhash, hinput, hstatus⟩ | ⟨row, hsends, hinput, -, -⟩
    · have hlive : t.status ≠ .reverted := by
        rcases hstatus with hsame | hpending
        · rw [← hsame]
          exact hlive'
        · rw [hpending]
          exact nofun
      rw [hinput] at hnames
      obtain ⟨hnotfailed, hhashes⟩ := howned t ht hlive cc hcc hnames
      rw [hhash]
      cases heff with
      | same => exact ⟨hnotfailed, hhashes⟩
      | pending => exact ⟨nofun, hhashes⟩
      | submitted hi hid =>
        refine ⟨nofun, fun txHash htx => ?_⟩
        obtain rfl := Option.some.inj htx
        have hrow := (hw.knows _ (List.mem_of_getElem? hi)).1.names hcc hid
        by_contra hne
        refine hlive (hok _ hi _ rfl t ht (hnames.epoch_eq hrow) fun e => hne ?_)
        exact (Option.some.inj e).symm
      | failed hi hid =>
        have hrow := (hw.knows _ (List.mem_of_getElem? hi) : w.Holds _).names hcc hid
        exact absurd (hok _ hi _ rfl t ht (hnames.epoch_eq hrow) nofun) hlive
      | confirmed hi hid =>
        refine ⟨fun hfailed => ?_, hhashes⟩
        obtain ⟨cc₀, hcc₀, hid₀, -, hall⟩ := (hsees _ (List.mem_of_getElem? hi)).1 hfailed
        obtain rfl := Table.eq_of_id hcc hcc₀ (hid.trans hid₀.symm)
        exact hlive (hall t ht hnames)
    · rw [hinput] at hnames
      obtain ⟨hpending, hnone⟩ := hsends.commitment hw hok hcc hnames
      obtain ⟨i, sweep, rows, -, -, txHash, ha⟩ := hsends
      cases heff with
      | same => exact ⟨by rw [hpending]; exact nofun, by rw [hnone]; exact nofun⟩
      | pending => exact ⟨nofun, by rw [hnone]; exact nofun⟩
      | submitted hi hid => rcases ha with ha | ha <;> cases ha
      | failed hi hid => rcases ha with ha | ha <;> cases ha
      | confirmed hi hid => rcases ha with ha | ha <;> cases ha
  · exact ⟨by rw [hpending]; exact nofun, by rw [hnone]; exact nofun⟩

/-! ## runs -/

/-- **Along every run of careful submit sweeps, no successful transaction is disowned.** -/
theorem owned_run {zones : Zones} {attestation : UptimeAttestation.Attestation}
    {actions : List Action} {w : World}
    (hok : Runs.Along next Careful (start zones attestation) actions)
    (hrun : Runs.run next (start zones attestation) actions = some w) : w.Owned := by
  have hinv : w.Wf ∧ w.OwnedLive ∧ ∀ p ∈ w.processes, w.Sees p := by
    refine Runs.run_inv (fun w => w.Wf ∧ w.OwnedLive ∧ ∀ p ∈ w.processes, w.Sees p) ?_ ?_ hok hrun
    · rintro w a w' ⟨hw, howned, hsees⟩ hok hnext
      have heff := next_effect hnext
      exact ⟨heff.wf hw, heff.ownedLive hw howned hsees hok,
        fun _ => heff.sees hw howned hsees hok⟩
    · exact ⟨start_wf zones attestation, fun _ h => absurd h List.not_mem_nil,
        fun _ h => absurd h List.not_mem_nil⟩
  exact hinv.2.1.owned

/-! ## the contract accepts one transaction of an epoch -/

/-- the successful transactions are committed, each for an epoch of its own -/
structure SuccessOnce (w : World) : Prop where
  committed : ∀ t ∈ w.transactions.rows, t.status = .success →
    UptimeAttestation.isCommitted w.attestation t.call.zoneId t.call.epochStart = true
  eq : ∀ t ∈ w.transactions.rows, ∀ u ∈ w.transactions.rows, t.status = .success →
    u.status = .success → t.input.epoch = u.input.epoch → t = u

/-- what an action leaves of the successful transactions, unless it mines one -/
theorem SuccessOnce.congr {w w' : World} (hw : w.SuccessOnce)
    (hepochs : w'.attestation.epochs = w.attestation.epochs)
    (hold : ∀ t ∈ w'.transactions.rows, t.status = .success → t ∈ w.transactions.rows) :
    w'.SuccessOnce := by
  constructor
  · intro t ht hsuccess
    unfold UptimeAttestation.isCommitted
    rw [hepochs]
    exact hw.committed t (hold t ht hsuccess) hsuccess
  · intro t ht u hu hts hus hepoch
    exact hw.eq t (hold t ht hts) u (hold u hu hus) hts hus hepoch

/-- a transaction that is mined with success is the only one of its epoch -/
theorem SuccessOnce.mined {w : World} {txHash : String} {msg : UptimeAttestation.Msg}
    {t : Transaction} {attestation : UptimeAttestation.Attestation} (hw : w.SuccessOnce)
    (ht : w.transactions.get? txHash = some t)
    (hok : UptimeAttestation.commitEpoch w.attestation msg t.call = .ok attestation) :
    SuccessOnce { w.setTxStatus txHash .success with attestation := attestation } := by
  obtain ⟨hfree, hcommitted, hothers⟩ := UptimeAttestation.commitEpoch_ok hok
  have hputs := setTxStatus_puts ht .success
  -- an older successful transaction is of another epoch on chain
  have hne {u : Transaction} (hu : u ∈ w.transactions.rows) (hus : u.status = .success) :
      (u.call.zoneId, u.call.epochStart) ≠ (t.call.zoneId, t.call.epochStart) := by
    intro he
    obtain ⟨hzone, hstart⟩ := Prod.mk.inj he
    have hc := hw.committed u hu hus
    rw [hzone, hstart, hfree] at hc
    cases hc
  have hepoch {u : Transaction} (hu : u ∈ w.transactions.rows) (hus : u.status = .success) :
      u.input.epoch ≠ t.input.epoch :=
    fun he => hne hu hus (CommitEpochInput.encode_epoch he u.encoded t.encoded)
  constructor
  · intro u hu hus
    rcases hputs.cases hu with ⟨hold, -⟩ | rfl
    · unfold UptimeAttestation.isCommitted
      dsimp only
      rw [hothers _ (hne hold hus)]
      exact hw.committed u hold hus
    · exact hcommitted
  · intro u hu v hv hus hvs he
    rcases hputs.cases hu with ⟨hu, -⟩ | rfl
    · rcases hputs.cases hv with ⟨hv, -⟩ | rfl
      · exact hw.eq u hu v hv hus hvs he
      · exact absurd he (hepoch hu hus)
    · rcases hputs.cases hv with ⟨hv, -⟩ | rfl
      · exact absurd he.symm (hepoch hv hvs)
      · rfl

theorem Effect.successOnce {w w' : World} {a : Action} (hw : w.SuccessOnce) (h : w.Effect a w') :
    w'.SuccessOnce := by
  cases h with
  | accepted hi hrows hinput hstatus h =>
    refine hw.congr rfl fun t ht hsuccess => ?_
    rcases (Table.insert_puts h).cases ht with ⟨hold, -⟩ | rfl
    · exact hold
    · rw [hstatus] at hsuccess
      cases hsuccess
  | lost hi hrows hinput hstatus h =>
    refine hw.congr rfl fun t ht hsuccess => ?_
    rcases (Table.insert_puts h).cases ht with ⟨hold, -⟩ | rfl
    · exact hold
    · rw [hstatus] at hsuccess
      cases hsuccess
  | @mined txHash msg t status attestation ht hpending h =>
    rcases h with ⟨rfl, hok⟩ | ⟨rfl, rfl⟩
    · exact hw.mined ht hok
    · refine hw.congr rfl fun u hu hsuccess => ?_
      rcases (setTxStatus_puts ht .reverted).cases hu with ⟨hold, -⟩ | rfl
      · exact hold
      · cases hsuccess
  | admin h => exact hw.congr (UptimeAttestation.admin_epochs h) fun _ ht _ => ht
  | _ => exact hw.congr rfl fun _ ht _ => ht

/-- **In every run, at most one transaction of an epoch succeeds.** -/
theorem success_run {zones : Zones} {attestation : UptimeAttestation.Attestation}
    {actions : List Action} {w : World}
    (hrun : Runs.run next (start zones attestation) actions = some w) {t u : Transaction}
    (ht : t ∈ w.transactions.rows) (hu : u ∈ w.transactions.rows) (hts : t.status = .success)
    (hus : u.status = .success) (hepoch : t.input.epoch = u.input.epoch) : t = u := by
  have hinv : w.SuccessOnce := by
    refine Runs.run_inv_all SuccessOnce ?_ ?_ hrun
    · exact fun w a w' hw hnext => (next_effect hnext).successOnce hw
    · constructor
      · exact fun _ h => absurd h List.not_mem_nil
      · exact fun _ h => absurd h List.not_mem_nil
  exact hinv.eq t ht u hu hts hus hepoch

/-! ## two runs -/

/-- two submit sweeps, one after the other, and an index sweep -/
def carefulRun : List Action :=
  sampleApproval 0 (sampleRow "c1" .restored (9 / 10)) ++
    [.submit sampleLater 5, .commitEpoch 1 (.accepted "0x1"), .storeTxHash 1,
      .submit sampleLater 5, .mine "0x1" sampleMsg, .index 10,
      .getTransactionReceipt 3 (some ⟨"0x1", 7, TxStatus.success.code⟩) none sampleLater, .storeConfirmation 3]

/-- the second sweep has selected the row before the first stores its hash; its own call is rejected -/
def overlappingRun : List Action :=
  sampleApproval 0 (sampleRow "c1" .restored (9 / 10)) ++
    [.submit sampleLater 5, .submit sampleLater 5, .commitEpoch 1 (.accepted "0x1"), .storeTxHash 1,
      .mine "0x1" sampleMsg, .commitEpoch 2 .rejected, .markFailed 2]

theorem owned_run_careful : ∃ w, Runs.run next sampleStart carefulRun = some w ∧ w.Owned ∧
    (∃ t ∈ w.transactions.rows, t.status = .success) ∧
    ∃ cc ∈ w.db.commitments.rows, cc.status = .confirmed := by
  have h : (Runs.run next sampleStart carefulRun).any (fun w => decide
      ((∃ t ∈ w.transactions.rows, t.status = .success) ∧
        ∃ cc ∈ w.db.commitments.rows, cc.status = .confirmed)) = true := by
    rw [carefulRun, run_sampleSent]
    decide +kernel
  have hok : Runs.Along next Careful sampleStart carefulRun := by
    apply along_sampleSent
    · decide +kernel
    · decide +kernel
    · decide +kernel
  obtain ⟨w, hrun, h⟩ := (Option.any_eq_true _ _).mp h
  exact ⟨w, hrun, owned_run hok hrun, of_decide_eq_true h⟩

/-- the transaction has succeeded and the commitment of its epoch, which has its hash, is failed -/
theorem disowned : ∃ w, Runs.run next sampleStart overlappingRun = some w ∧ ¬ w.Owned := by
  -- both sweeps have selected the row when the first sends it
  have hsent : Runs.run next sampleStart overlappingRun =
      Runs.run next (sampleSent (sampleSelected.spawn (.submitting (.start sampleDue))))
        [.storeTxHash 1, .mine "0x1" sampleMsg, .commitEpoch 2 .rejected, .markFailed 2] := by
    have hprocess : (sampleSelected.spawn (.submitting (.start sampleDue))).processes[1]? =
        some (.submitting (.start sampleDue)) := by
      unfold spawn
      rw [List.getElem?_append_left (List.getElem?_eq_some_iff.mp sampleSelected_process).1]
      exact sampleSelected_process
    rw [overlappingRun, ← List.singleton_append, ← List.append_assoc, Runs.run_append, run_sampleSelected,
      Option.bind_some, Runs.run_cons, sampleSelected_submit, Option.bind_some, Runs.run_cons,
      sampleSent_next hprocess rfl, Option.bind_some]
  have h : (Runs.run next sampleStart overlappingRun).any (fun w => decide
      (∃ t ∈ w.transactions.rows, t.status = .success ∧ ∃ cc ∈ w.db.commitments.rows,
        (∃ r ∈ w.db.epochScores.rows, r.id = cc.epochScoreId ∧ ∃ z ∈ w.db.zones.rows,
          z.id = r.zoneId ∧ (z.zoneKey, r.epochStart.ms / 1000) = t.input.epoch) ∧
        cc.status = .failed)) = true := by
    rw [hsent]
    decide +kernel
  obtain ⟨w, hrun, h⟩ := (Option.any_eq_true _ _).mp h
  obtain ⟨t, ht, hsuccess, cc, hcc, hnames, hfailed⟩ := of_decide_eq_true h
  exact ⟨w, hrun, fun howned => (howned t ht hsuccess cc hcc hnames).1 hfailed⟩

end World

end Pipeline
