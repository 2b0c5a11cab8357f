import GridProof.Blockchain.WellFormed

/-!
# Scores and their transactions

A commitment that is not failed and has a hash should be of a score with the values of that
transaction.  They differ once an approval stores other votes for an epoch whose transaction has been
sent.

* `World.Agrees`     the tables agree with the chain;
* `World.UpToDate`   the condition on an action: nothing is stored that is out of date;
* `Effect.anchored`  one action; `agrees_run` a run.
-/

namespace Pipeline

/-- the transaction commits the values of the score -/
def CommitEpochInput.Carries (input : CommitEpochInput) (r : ScoreRow) : Prop :=
  input.uptimeBps = r.uptimeBps ∧ input.evidenceHash = r.evidenceHash

instance (input : CommitEpochInput) (r : ScoreRow) : Decidable (input.Carries r) :=
  inferInstanceAs (Decidable (_ ∧ _))

/-- a score is determined by its zone, its epoch and the votes it counts -/
theorem CommitEpochInput.Carries.congr {input : CommitEpochInput} {r r' : ScoreRow}
    (hkey : r'.key = r.key) (hcounted : r'.counted = r.counted) (h : input.Carries r) :
    input.Carries r' := by
  obtain ⟨hzone, hstart⟩ := Prod.mk.inj hkey
  constructor
  · rw [h.1, r.valid.1, r'.valid.1, hcounted]
  · rw [h.2, r.valid.2, r'.valid.2, hcounted, hzone, hstart]

namespace World

/-- a commitment with a hash is of a score whose values its transaction carries -/
def Agrees (w : World) : Prop :=
  ∀ cc ∈ w.db.commitments.rows, cc.status ≠ .failed → ∀ txHash ∈ cc.txHash,
    ∃ r ∈ w.db.epochScores.rows, r.id = cc.epochScoreId ∧
      ∃ t ∈ w.transactions.rows, t.hash = txHash ∧ t.input.Carries r

instance (w : World) : Decidable w.Agrees :=
  inferInstanceAs (Decidable (∀ cc ∈ w.db.commitments.rows, _))

end World

/-- the votes an approval has read and is about to store -/
def Process.votes : Process → Option (CandidateEvent × List Vote)
  | .operation (.selected c votes _) => some (c, votes)
  | _ => none

/-- the row whose hash a sweep is about to store -/
def Process.sent : Process → Option PendingCommitmentRow
  | .broadcast row _ _ => some row
  | _ => none

namespace World

/-- an approval that stores a score whose commitment has a hash has read the votes the score counts,
and a sweep that stores a hash has read the values the score has -/
def UpToDate (w : World) : Action → Prop
  | .statement i => ∀ p ∈ w.processes[i]?, ∀ q ∈ p.votes, ∀ r ∈ w.db.epochScores.rows,
      r.key = q.1.epochKey →
        (∃ cc ∈ w.db.commitments.rows, cc.epochScoreId = r.id ∧ cc.txHash.isSome) → r.counted = q.2
  | .storeTxHash i => ∀ p ∈ w.processes[i]?, ∀ row ∈ p.sent, ∀ cc ∈ w.db.commitments.rows,
      cc.id = row.commitmentId → ∀ r ∈ w.db.epochScores.rows, r.id = cc.epochScoreId →
        (commitInputFromPending row).Carries r
  | _ => True

instance (w : World) (a : Action) : Decidable (w.UpToDate a) := by
  cases a with
  | statement i => exact inferInstanceAs (Decidable (∀ p ∈ w.processes[i]?, _))
  | storeTxHash i => exact inferInstanceAs (Decidable (∀ p ∈ w.processes[i]?, _))
  | _ => exact isTrue trivial

/-! ## one action -/

/-- every commitment with a hash, failed or not, is of a score whose values its transaction carries -/
def Anchored (w : World) : Prop :=
  ∀ cc ∈ w.db.commitments.rows, ∀ txHash ∈ cc.txHash,
    ∃ t ∈ w.transactions.rows, t.hash = txHash ∧
      ∀ r ∈ w.db.epochScores.rows, r.id = cc.epochScoreId → t.input.Carries r

/-- an action along the condition keeps the values of the score of a commitment with a hash -/
theorem Effect.carries {w w' : World} {a : Action} (hw : w.Wf) (hok : w.UpToDate a)
    (h : w.Effect a w') {cc : ChainCommitment} (hcc : cc ∈ w.db.commitments.rows)
    (hhash : cc.txHash.isSome) {input : CommitEpochInput}
    (hcarries : ∀ r ∈ w.db.epochScores.rows, r.id = cc.epochScoreId → input.Carries r)
    {r' : ScoreRow} (hr' : r' ∈ w'.db.epochScores.rows) (hid : r'.id = cc.epochScoreId) :
    input.Carries r' := by
  rcases h.scores hw hr' with hold | ⟨i, c, votes, now, rfl, hi, hkey, hcounted⟩
  · exact hcarries r' hold hid
  · -- the score that the approval overwrites
    obtain ⟨r, hr, hrid⟩ := hw.scored cc hcc
    obtain ⟨r'', hr'', hid'', hkey''⟩ := (h.persists hw.system).scores r hr
    obtain rfl := Table.eq_of_id hr'' hr' (hid''.trans (hrid.trans hid.symm))
    have hvotes : r.counted = votes := by
      apply hok _ hi (c, votes) rfl r hr (hkey''.symm.trans hkey)
      exact ⟨cc, hcc, hrid.symm, hhash⟩
    exact (hcarries r hr hrid).congr hkey'' (hcounted.trans hvotes.symm)

/-- **An action along the condition keeps every commitment anchored.** -/
theorem Effect.anchored {w w' : World} {a : Action} (hw : w.Wf) (hanchored : w.Anchored)
    (hok : w.UpToDate a) (h : w.Effect a w') : w'.Anchored := by
  have hpers := h.persists hw.system
  intro cc' hcc' txHash htx
  -- a commitment whose hash was there before
  have hkept {cc : ChainCommitment} (hcc : cc ∈ w.db.commitments.rows) (hid : cc.epochScoreId = cc'.epochScoreId)
      (hcctx : txHash ∈ cc.txHash) : ∃ t ∈ w'.transactions.rows, t.hash = txHash ∧
        ∀ r ∈ w'.db.epochScores.rows, r.id = cc'.epochScoreId → t.input.Carries r := by
    obtain ⟨t, ht, hhash, hcarries⟩ := hanchored cc hcc txHash hcctx
    obtain ⟨t', ht', hhash', hinput, -⟩ := hpers.transactions t ht
    refine ⟨t', ht', hhash'.trans hhash, fun r hr hrid => ?_⟩
    rw [hinput]
    have hsome : cc.txHash.isSome := Option.isSome_of_mem hcctx
    exact h.carries hw hok hcc hsome hcarries hr (hrid.trans hid.symm)
  rcases h.commitments hw hcc' with ⟨cc, hcc, heff⟩ | ⟨hnone, -, -⟩
  · cases heff with
    | same => exact hkept hcc rfl htx
    | pending => exact hkept hcc rfl htx
    | @submitted i row hash sweep _ hi hid =>
      obtain rfl : hash = txHash := Option.some.inj htx
      obtain ⟨-, ⟨t, ht, hhash, hinput⟩, -⟩ := hw.knows _ (List.mem_of_getElem? hi)
      obtain ⟨t', ht', hhash', hinput', -⟩ := hpers.transactions t ht
      refine ⟨t', ht', hhash'.trans hhash, fun r hr hrid => ?_⟩
      rw [hinput', hinput]
      rcases h.scores hw hr with hold | ⟨_, _, _, _, ha, -⟩
      · exact hok _ hi row rfl cc hcc hid r hold hrid
      · cases ha
    | failed hi hid => exact hkept hcc rfl htx
    | confirmed hi hid => exact hkept hcc rfl htx
  · rw [hnone] at htx
    cases htx

theorem Anchored.agrees {w : World} (hw : w.Wf) (h : w.Anchored) : w.Agrees := by
  intro cc hcc _ txHash htx
  obtain ⟨r, hr, hid⟩ := hw.scored cc hcc
  obtain ⟨t, ht, hhash, hcarries⟩ := h cc hcc txHash htx
  exact ⟨r, hr, hid, t, ht, hhash, hcarries r hr hid⟩

/-! ## runs -/

/-- **Along every run in which nothing out of date is stored, the tables agree with the chain.** -/
theorem agrees_run {zones : Zones} {attestation : UptimeAttestation.Attestation}
    {actions : List Action} {w : World}
    (hok : Runs.Along next UpToDate (start zones attestation) actions)
    (hrun : Runs.run next (start zones attestation) actions = some w) : w.Agrees := by
  have hinv : w.Wf ∧ w.Anchored := by
    refine Runs.run_inv (fun w => w.Wf ∧ w.Anchored) ?_ ⟨start_wf zones attestation, ?_⟩ hok hrun
    · rintro w a w' ⟨hw, hanchored⟩ hok hnext
      have heff := next_effect hnext
      exact ⟨heff.wf hw, heff.anchored hw hanchored hok⟩
    · exact fun _ h => absurd h List.not_mem_nil
  exact hinv.2.agrees hinv.1

/-- an approval, a submit sweep and an index sweep -/
def confirmedRun : List Action :=
  sampleApproval 0 (sampleRow "c1" .restored (9 / 10)) ++
    [.submit sampleLater 5, .commitEpoch 1 (.accepted "0x1"), .storeTxHash 1, .mine "0x1" sampleMsg,
      .index 10, .getTransactionReceipt 2 (some ⟨"0x1", 7, TxStatus.success.code⟩) none sampleLater,
      .storeConfirmation 2]

theorem agrees_run_confirmed : ∃ w, Runs.run next sampleStart confirmedRun = some w ∧ w.Agrees ∧
    ∃ cc ∈ w.db.commitments.rows, cc.status = .confirmed ∧ cc.txHash = some "0x1" := by
  have h : (Runs.run next sampleStart confirmedRun).any (fun w =>
      decide (∃ cc ∈ w.db.commitments.rows, cc.status = .confirmed ∧ cc.txHash = some "0x1")) = true := by
    rw [confirmedRun, run_sampleSent]
    decide +kernel
  have hok : Runs.Along next UpToDate sampleStart confirmedRun := by
    apply along_sampleSent
    · decide +kernel
    · decide +kernel
    · decide +kernel
  obtain ⟨w, hrun, h⟩ := (Option.any_eq_true _ _).mp h
  exact ⟨w, hrun, agrees_run hok hrun, of_decide_eq_true h⟩

/-- after the confirmation a second candidate of the hour is approved -/
theorem late_approval : ∃ w, Runs.run next sampleStart
    (confirmedRun ++ sampleApproval 3 (sampleRow "c2" .outage (9 / 10))) = some w ∧ ¬ w.Agrees ∧
    ∃ cc ∈ w.db.commitments.rows, cc.status = .pending ∧ cc.txHash = some "0x1" ∧
      (∃ r ∈ w.db.epochScores.rows, r.id = cc.epochScoreId ∧ r.uptimeBps = 5000) ∧
      ∃ t ∈ w.transactions.rows, t.hash = "0x1" ∧ t.status = .success ∧ t.input.uptimeBps = 10000 := by
  have h : (Runs.run next sampleStart
      (confirmedRun ++ sampleApproval 3 (sampleRow "c2" .outage (9 / 10)))).any (fun w => decide
    (∃ cc ∈ w.db.commitments.rows, cc.status = .pending ∧ cc.txHash = some "0x1" ∧
      (∃ r ∈ w.db.epochScores.rows, r.id = cc.epochScoreId ∧ r.uptimeBps = 5000) ∧
      ∃ t ∈ w.transactions.rows, t.hash = "0x1" ∧ t.status = .success ∧ t.input.uptimeBps = 10000)) =
      true := by
    rw [confirmedRun, List.append_assoc, List.cons_append, List.cons_append, run_sampleSent]
    decide +kernel
  obtain ⟨w, hrun, h⟩ := (Option.any_eq_true _ _).mp h
  have hlate := of_decide_eq_true h
  refine ⟨w, hrun, fun hagrees => ?_, hlate⟩
  -- the transaction carries the uptime of before the second approval
  obtain ⟨cc, hcc, hpending, htx, ⟨r, hr, hid, hnew⟩, t, ht, hhash, -, hold⟩ := hlate
  obtain ⟨r', hr', hid', t', ht', hhash', hcarries, -⟩ :=
    hagrees cc hcc (by rw [hpending]; decide) "0x1" htx
  obtain rfl := Table.eq_of_id hr hr' (hid.trans hid'.symm)
  obtain rfl := Table.eq_of_id ht ht' (hhash.trans hhash'.symm)
  rw [hold, hnew] at hcarries
  exact absurd hcarries (by decide)

end World

end Pipeline
