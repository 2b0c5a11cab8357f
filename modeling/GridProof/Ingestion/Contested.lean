import GridProof.Lib.Limit
import GridProof.Ingestion.ExactlyOnce

/-!
# Witnesses that contradict each other

Of two readings of a zone by different witnesses, the one whose delivery reads the recent evidence last finds
the other one stored.  Its candidate is held back if the query returns that reading.

* `Conflicts`       opposite readings at most ten minutes apart;
* `Visible`         the reading is in the window of the query and few rows of the window are newer;
* `contested`       along every run whose reads see the conflicts, one candidate of two conflicting readings is
                    below the ceiling;
* `busy_zone`       fifty newer readings hide a conflict.
-/

namespace Ingestion
open Pipeline (IsoDate CandidateEvent CandidateRow)
open Detection (evidenceSourceIdentity conflictConfidenceCeiling)

/-! ## the query of recent evidence -/

/-- few rows of the window are at least as new -/
def Visible (d : Database) (event row : EvidenceEvent) : Prop :=
  inWindow event row = true ∧
    (d.evidence.values.filter fun other => other ≠ row ∧ inWindow event other = true ∧
      row.observedAt.micros ≤ other.observedAt.micros).length ≤ 49

instance (d : Database) (event row : EvidenceEvent) : Decidable (Visible d event row) :=
  inferInstanceAs (Decidable (_ ∧ _))

instance newestFirst_total (rank : EvidenceEvent → ℕ) : Std.Total (newestFirst rank) where
  total a b := by
    unfold newestFirst
    omega

instance newestFirst_trans (rank : EvidenceEvent → ℕ) : IsTrans EvidenceEvent (newestFirst rank) where
  trans a b c := by
    unfold newestFirst
    omega

/-- a visible row is among those that the query returns -/
theorem mem_findRecentZoneEvidence {d : Database} {event row : EvidenceEvent} (hrow : row ∈ d.evidence.values)
    (hnodup : d.evidence.values.Nodup) (h : Visible d event row) (rank : EvidenceEvent → ℕ) :
    mapEvidenceRow row ∈ findRecentZoneEvidence d event rank := by
  obtain ⟨hwindow, hfew⟩ := h
  refine List.mem_map_of_mem ?_
  refine Limit.mem_take _ (hnodup.filter _) (List.mem_filter.mpr ⟨hrow, hwindow⟩) ?_
  refine lt_of_le_of_lt ?_ (Nat.lt_succ_of_le hfew)
  rw [List.filter_filter]
  refine (List.monotone_filter_right _ fun other hother => ?_).length_le
  obtain ⟨hfirst, hin⟩ := Bool.and_eq_true_iff.mp hother
  obtain ⟨hne, horder⟩ := of_decide_eq_true hfirst
  refine decide_eq_true ⟨hne, hin, ?_⟩
  unfold newestFirst at horder
  omega

section
variable [JsText.Runtime]

/-! ## conflicts -/

/-- readings of one zone by different witnesses that say the opposite -/
def Opposed (e e' : EvidenceEvent) : Prop :=
  e.zoneId = e'.zoneId ∧ evidenceSourceIdentity e ≠ evidenceSourceIdentity e' ∧
    (e.status = .gridUp ∧ e'.status = .gridDown ∨ e.status = .gridDown ∧ e'.status = .gridUp)

instance (e e' : EvidenceEvent) : Decidable (Opposed e e') := inferInstanceAs (Decidable (_ ∧ _ ∧ _))

/-- at most ten minutes apart -/
def Conflicts (e e' : EvidenceEvent) : Prop :=
  Opposed e e' ∧ ((e.observedAt.micros - e'.observedAt.micros).natAbs : ℤ) ≤ Detection.agreementWindowMs * 1000

instance (e e' : EvidenceEvent) : Decidable (Conflicts e e') := inferInstanceAs (Decidable (_ ∧ _))

theorem Opposed.symm {e e' : EvidenceEvent} (h : Opposed e e') : Opposed e' e := by
  obtain ⟨hzone, hwho, hstatus⟩ := h
  refine ⟨hzone.symm, hwho.symm, ?_⟩
  rcases hstatus with ⟨hup, hdown⟩ | ⟨hdown, hup⟩
  · exact .inr ⟨hdown, hup⟩
  · exact .inl ⟨hup, hdown⟩

theorem Conflicts.symm {e e' : EvidenceEvent} (h : Conflicts e e') : Conflicts e' e := by
  refine ⟨h.1.symm, ?_⟩
  rw [← Int.natAbs_neg, neg_sub]
  exact h.2

/-- an opposed row in the window counts as a conflict -/
theorem counts_of_opposed {own row : EvidenceEvent} (h : Opposed own row)
    (hwindow : inWindow (mapEvidenceRow own) row = true) :
    Detection.counts (mapEvidenceRow own) (mapEvidenceRow row) = true ∧
      (mapEvidenceRow row).status ≠ (mapEvidenceRow own).status := by
  obtain ⟨hzone, hwho, hstatus⟩ := h
  unfold inWindow at hwindow
  simp only [Bool.and_eq_true, decide_eq_true_eq] at hwindow
  obtain ⟨⟨⟨-, hid⟩, hafter⟩, hbefore⟩ := hwindow
  constructor
  · unfold Detection.counts
    simp only [Bool.and_eq_true, decide_eq_true_eq]
    refine ⟨⟨⟨⟨hid, hzone.symm⟩, ?_⟩, hwho.symm⟩, ?_⟩
    · show row.status ≠ .unknown
      rcases hstatus with ⟨-, hs⟩ | ⟨-, hs⟩
      · rw [hs]
        decide
      · rw [hs]
        decide
    · show (((row.observedAt.micros / 1000 * 1000) / 1000 -
        (own.observedAt.micros / 1000 * 1000) / 1000).natAbs : ℤ) ≤ Detection.agreementWindowMs
      have hafter : own.observedAt.micros / 1000 * 1000 - Detection.agreementWindowMs * 1000 ≤
        row.observedAt.micros := hafter
      have hbefore : row.observedAt.micros ≤
        own.observedAt.micros / 1000 * 1000 + Detection.agreementWindowMs * 1000 := hbefore
      omega
  · show row.status ≠ own.status
    rcases hstatus with ⟨hs, hs'⟩ | ⟨hs, hs'⟩
    · rw [hs, hs']
      decide
    · rw [hs, hs']
      decide

/-- the candidate of the row is below the ceiling -/
def Lowered (d : Database) (e : EvidenceEvent) : Prop :=
  ∃ r ∈ d.candidates.rows, r.candidateKey = candidateKeyFor e ∧ r.event.confidence ≤ conflictConfidenceCeiling

instance (d : Database) (e : EvidenceEvent) : Decidable (Lowered d e) :=
  inferInstanceAs (Decidable (∃ r ∈ d.candidates.rows, _))

/-- the event whose recent evidence the task reads next -/
def Task.reading : Task → Option EvidenceEvent
  | .readRecent event => some event
  | _ => none

/-- a delivery that reads the recent evidence of its own row, while a conflicting row is stored, is shown an
opposed row, or the conflicting row's candidate is below the ceiling already -/
def Task.SeesConflicts (d : Database) (task : Task) : Prop :=
  ∀ event ∈ task.reading, ∀ own ∈ d.evidence.values, own.idempotencyKey = event.idempotencyKey →
    ∀ row ∈ d.evidence.values, Conflicts own row →
      (∃ seen ∈ d.evidence.values, Opposed own seen ∧ Visible d event seen) ∨ Lowered d row

instance (d : Database) (task : Task) : Decidable (task.SeesConflicts d) :=
  inferInstanceAs (Decidable (∀ event ∈ task.reading, _))

/-! ## one of two conflicting rows is safe -/

/-- the task will see the conflicts of the row, or has seen one -/
def Task.Guards (e : EvidenceEvent) : Task → Prop
  | .findEvidence key true => key = e.idempotencyKey
  | .readRecent event => event = mapEvidenceRow e
  | .insertCandidate event c => event = mapEvidenceRow e ∧ c.confidence ≤ conflictConfidenceCeiling
  | _ => False

variable {π : Type*}

def Safe (w : World π) (e : EvidenceEvent) : Prop := (∃ p, (w.task p).Guards e) ∨ Lowered w.database e

def Covered (w : World π) : Prop :=
  ∀ e ∈ w.database.evidence.values, ∀ e' ∈ w.database.evidence.values, Conflicts e e' → Safe w e ∨ Safe w e'

omit [JsText.Runtime] in
theorem Task.pending_of_guards {task : Task} {e : EvidenceEvent} (h : task.Guards e) :
    task.pending = some e.idempotencyKey := by
  cases task with
  | findEvidence key inserted =>
    cases inserted with
    | true => exact congrArg some h
    | false => exact h.elim
  | readRecent event =>
    have he : event = mapEvidenceRow e := h
    rw [he]
    rfl
  | insertCandidate event c =>
    obtain ⟨he, -⟩ := h
    rw [he]
    rfl
  | _ => exact h.elim

section
variable [DecidableEq π] {zod : Zod} {w w' : World π} {p : π} {o : Outcome} {e : EvidenceEvent}

/-- a row stays safe unless the statement is of the task that guards it -/
theorem Safe.after (h : Safe w e) (heff : Task.Effect w.database (w.task p) o)
    (hp : (w.task p).Guards e → Safe (w.after p o) e) : Safe (w.after p o) e := by
  rcases h with ⟨q, hq⟩ | ⟨r, hr, hrest⟩
  · rcases w.task_after p o q with ⟨rfl, -⟩ | ⟨-, ht⟩
    · exact hp hq
    · exact .inl ⟨q, ht ▸ hq⟩
  · exact .inr ⟨r, heff.grows hr, hrest⟩

omit [JsText.Runtime] in
theorem safe_of_guards (h : o.task.Guards e) : Safe (w.after p o) e := by
  refine .inl ⟨p, ?_⟩
  show (Function.update w.task p o.task p).Guards e
  rw [Function.update_self]
  exact h

/-- the delivery that guards one of two conflicting rows reads the recent evidence -/
theorem Safe.detected (hw : Inv zod w) (hsees : (w.task p).SeesConflicts w.database) {event : EvidenceEvent}
    {c : CandidateEvent} {rank : EvidenceEvent → ℕ} {id : String} {now : IsoDate} (ht : w.task p = .readRecent event)
    (hc : Detection.detectCandidateFromEvidence event (findRecentZoneEvidence w.database event rank) id now =
      some c) {e' : EvidenceEvent} (he : e ∈ w.database.evidence.values)
    (he' : e' ∈ w.database.evidence.values) (hconflict : Conflicts e e') (hguards : event = mapEvidenceRow e) :
    Safe (w.after p ⟨w.database, .insertCandidate event c, none⟩) e ∨
      Safe (w.after p ⟨w.database, .insertCandidate event c, none⟩) e' := by
  have hkey : e.idempotencyKey = event.idempotencyKey := by
    rw [hguards]
    rfl
  rcases hsees event (by rw [ht]; rfl) e he hkey e' he' hconflict with
    ⟨seen, hseen, hopposed, hvisible⟩ | hlow
  · refine .inl (safe_of_guards ⟨hguards, ?_⟩)
    have hmem := mem_findRecentZoneEvidence hseen hw.evidence_nodup hvisible rank
    obtain ⟨hcounts, hstatus⟩ := counts_of_opposed hopposed (hguards ▸ hvisible.1)
    rw [← hguards] at hcounts hstatus
    exact Detection.detectCandidateFromEvidence_contested hc hmem hcounts hstatus
  · exact .inr (.inr hlow)

/-- a statement that sees the conflicts keeps one of two conflicting rows safe -/
theorem Covered.effect (hw : Inv zod w) (hcov : Covered w) (hsees : (w.task p).SeesConflicts w.database)
    (heff : Task.Effect w.database (w.task p) o) : Covered (w.after p o) := by
  have hkeep : ∀ e, ((w.task p).Guards e → Safe (w.after p o) e) → Safe w e → Safe (w.after p o) e :=
    fun e hp h => h.after heff hp
  have hboth : (∀ e ∈ w.database.evidence.values, (w.task p).Guards e → Safe (w.after p o) e) →
      ∀ e ∈ w.database.evidence.values, ∀ e' ∈ w.database.evidence.values, Conflicts e e' →
        Safe (w.after p o) e ∨ Safe (w.after p o) e' :=
    fun hall e he e' he' hc => (hcov e he e' he' hc).imp (hkeep e (hall e he)) (hkeep e' (hall e' he'))
  generalize ht : w.task p = task at heff
  cases heff with
  | evidence input row hfree hkey hzone hid =>
    have hvalues : ∀ e, e ∈ (w.database.evidence.set input.idempotencyKey row).values ↔
        e ∈ w.database.evidence.values ∨ e = row := by
      intro e
      rw [OrderedMap.values_set_of_none hfree, List.mem_append, List.mem_singleton]
    have hnew : Safe (w.after p ⟨{ w.database with
        evidence := w.database.evidence.set input.idempotencyKey row },
          .findEvidence input.idempotencyKey true, none⟩) row := safe_of_guards hkey.symm
    intro e he e' he' hc
    rcases (hvalues e).mp he with hold | rfl
    · rcases (hvalues e').mp he' with hold' | rfl
      · refine hboth (fun e _ hg => ?_) e hold e' hold' hc
        rw [ht] at hg
        exact hg.elim
      · exact .inr hnew
    · exact .inl hnew
  | taken input hrow =>
    refine hboth fun e _ hg => ?_
    rw [ht] at hg
    exact hg.elim
  | found key row hrow =>
    refine hboth fun e he hg => ?_
    rw [ht] at hg
    have hkey : key = e.idempotencyKey := hg
    refine safe_of_guards ?_
    obtain ⟨key', hget⟩ := OrderedMap.mem_values.mp he
    obtain ⟨rfl, -⟩ := hw.row key' e hget
    rw [← hkey] at hget
    show mapEvidenceRow row = mapEvidenceRow e
    rw [Option.some.inj (hrow.symm.trans hget)]
  | detected event c rank id now hc =>
    intro e he e' he' hconflict
    by_cases hg : event = mapEvidenceRow e
    · exact Safe.detected hw hsees ht hc he he' hconflict hg
    · by_cases hg' : event = mapEvidenceRow e'
      · exact (Safe.detected hw hsees ht hc he' he hconflict.symm hg').symm
      · refine (hcov e he e' he' hconflict).imp (hkeep e fun h => ?_) (hkeep e' fun h => ?_)
        · rw [ht] at h
          exact absurd h hg
        · rw [ht] at h
          exact absurd h hg'
  | unknown event hunknown =>
    intro e he e' he' hconflict
    have hknown : ∀ {e}, e.status ≠ .unknown → (w.task p).Guards e →
        Safe (w.after p ⟨w.database, .finished, none⟩) e := by
      intro e hs hg
      rw [ht] at hg
      have hg : event = mapEvidenceRow e := hg
      rw [hg] at hunknown
      exact absurd hunknown hs
    have hstatus := hconflict.1.2.2
    have hboth' : e.status ≠ .unknown ∧ e'.status ≠ .unknown := by
      rcases hstatus with ⟨hs, hs'⟩ | ⟨hs, hs'⟩
      · rw [hs, hs']
        decide
      · rw [hs, hs']
        decide
    exact (hcov e he e' he' hconflict).imp (hkeep e (hknown hboth'.1)) (hkeep e' (hknown hboth'.2))
  | candidate event c d' inserted hins =>
    have hmain := hboth fun e he hg => ?_
    · show ∀ e ∈ d'.evidence.values, ∀ e' ∈ d'.evidence.values, _
      rw [hins.evidence]
      exact hmain
    · rw [ht] at hg
      obtain ⟨hg, hle⟩ : event = mapEvidenceRow e ∧ c.confidence ≤ conflictConfidenceCeiling := hg
      have hpend : (w.task p).pending = some e.idempotencyKey := by
        rw [ht, hg]
        rfl
      obtain ⟨key, hget⟩ := OrderedMap.mem_values.mp he
      obtain ⟨rfl, -⟩ := hw.row key e hget
      have hkeys : candidateKeyFor event = candidateKeyFor e := by
        rw [hg]
        rfl
      cases inserted with
      | false =>
        obtain ⟨-, r, hr, hr'⟩ := hins.taken rfl
        exact absurd (hr'.trans hkeys) (hw.pending p _ e hpend hget r hr)
      | true =>
        refine .inr ⟨⟨candidateKeyFor event, c⟩, ?_, hkeys, hle⟩
        show _ ∈ d'.candidates.rows
        rw [hins.rows rfl]
        exact List.mem_append_right _ (List.mem_singleton_self _)
  | started event r hr hkey =>
    refine hboth fun e _ hg => ?_
    rw [ht] at hg
    exact hg.elim
  | missing event hnone =>
    refine hboth fun e _ hg => ?_
    rw [ht] at hg
    exact hg.elim
  | gap c rest d' hins =>
    show ∀ e ∈ d'.evidence.values, ∀ e' ∈ d'.evidence.values, _
    rw [hins.evidence]
    refine hboth fun e _ hg => ?_
    rw [ht] at hg
    exact hg.elim
  | quiet task task' d' hevidence hcandidates hidle htask =>
    show ∀ e ∈ d'.evidence.values, ∀ e' ∈ d'.evidence.values, _
    rw [hevidence]
    refine hboth fun e _ hg => ?_
    have hpend := Task.pending_of_guards hg
    rw [ht] at hpend
    rcases htask with h | ⟨now, rfl⟩ | ⟨key, rfl⟩
    · rw [h.nothing.2.2] at hpend
      cases hpend
    · cases hpend
    · cases hpend

/-! ## runs -/

/-- the candidate is at or below the ceiling and the policy gate does not approve it -/
def HeldBack (r : CandidateRow) : Prop :=
  r.event.confidence ≤ 8 / 10 ∧ Pipeline.decisionForConfidence r.event.confidence ≠ .approve

omit [JsText.Runtime] in
theorem heldBack_of_le {r : CandidateRow} (h : r.event.confidence ≤ conflictConfidenceCeiling) : HeldBack r := by
  have hle : r.event.confidence ≤ 8 / 10 := h
  refine ⟨hle, ?_⟩
  unfold Pipeline.decisionForConfidence Pipeline.decisionForConfidenceIn Pipeline.exactly
    Pipeline.autoApproveThreshold
  rw [if_neg (not_le.mpr (lt_of_le_of_lt hle (by norm_num)))]
  split
  · decide
  · decide

omit [JsText.Runtime] [DecidableEq π] in
/-- a safe row's candidate is held back once it is stored -/
theorem Safe.heldBack (hw : Inv zod w) (h : Safe w e) (he : e ∈ w.database.evidence.values)
    {r : CandidateRow} (hr : r ∈ w.database.candidates.rows) (hkey : r.candidateKey = candidateKeyFor e) :
    HeldBack r := by
  rcases h with ⟨p, hp⟩ | ⟨r', hr', hkey', hle⟩
  · obtain ⟨key, hget⟩ := OrderedMap.mem_values.mp he
    obtain ⟨rfl, -⟩ := hw.row key e hget
    exact absurd hkey (hw.pending p _ e (Task.pending_of_guards hp) hget r hr)
  · rw [Table.eq_of_key hr hr' (hkey.trans hkey'.symm)]
    exact heldBack_of_le hle

/-- **Along every interleaving whose reads see the conflicts, one candidate of two conflicting readings is held
back.** -/
theorem contested {task : π → Task} (hfresh : ∀ p, (task p).Fresh zod) {steps : List (π × StepDraw)}
    (hok : Runs.Along next (fun w e => (w.task e.1).SeesConflicts w.database) (start task) steps)
    (h : Runs.run next (start task) steps = some w) :
    ∀ e ∈ w.database.evidence.values, ∀ e' ∈ w.database.evidence.values, Conflicts e e' →
      ∀ r ∈ w.database.candidates.rows, ∀ r' ∈ w.database.candidates.rows,
        r.candidateKey = candidateKeyFor e → r'.candidateKey = candidateKeyFor e' →
          HeldBack r ∨ HeldBack r' := by
  obtain ⟨hw, hcov⟩ : Inv zod w ∧ Covered w := by
    refine Runs.run_inv (fun w => Inv zod w ∧ Covered w) ?_ ⟨Inv.start hfresh, ?_⟩ hok h
    · rintro w e w' ⟨hw, hcov⟩ hsees hnext
      obtain ⟨o, ho, rfl⟩ := next_eq_some hnext
      have heff := Task.step_effect (hw.ok e.1).phase ho
      exact ⟨hw.effect heff, hcov.effect hw hsees heff⟩
    · exact fun e he => absurd he List.not_mem_nil
  intro e he e' he' hconflict r hr r' hr' hkey hkey'
  exact (hcov e he e' he' hconflict).imp (fun hs => hs.heldBack hw he hr hkey)
    fun hs => hs.heldBack hw he' hr' hkey'

end

end

/-! ## a busy zone -/

def meterZone : String := "aaaaaaaa-aaaa-4aaa-8aaa-aaaaaaaaaaaa"

/-- a reading of a meter, some seconds after 14:00 -/
def meterReading (deviceId : String) (seconds : ℕ) (status : EvidenceStatus) (voltage : ℚ) :
    DatabaseEvidence where
  zoneId := meterZone
  source := .sensor
  idempotencyKey := toString seconds ++ " s on " ++ deviceId
  status := status
  voltage := some voltage
  rawPayload := .telemetry deviceId "0x2222222222222222222222222222222222222222" none
  observedAt := ⟨Calendar.isoMillis ((1767276000 + seconds) * 1000), (1767276000 + seconds) * 1000000⟩

/-- an outage at 14:00, a second meter that reports every ten seconds, and a third one that is up at 14:09 -/
def busyTasks (n : ℕ) : Task :=
  if n = 0 then .insertEvidence (meterReading "meter 1" 0 .gridDown 0)
  else if n = 51 then .insertEvidence (meterReading "meter 3" 540 .gridUp 230)
  else .insertEvidence (meterReading "meter 2" (10 * n) .gridUp 230)

/-- the first and the third meter up to their candidates, with the given tasks' rows between them -/
def busySteps (others : List ℕ) : List (ℕ × StepDraw) :=
  (([0, 0, 0, 0] ++ others ++ [51, 51, 51, 51]).zipIdx).map fun (p, n) =>
    (p, { sampleStepDraw n with evidenceId := toString n })

/-- the steps of tasks in the sample's zone, which need not convert the zone's text -/
theorem next_meterZone [JsText.Runtime] : next = fun (w : World ℕ) e =>
    match w.task e.1 with
    | .insertEvidence ⟨zoneId, source, idempotencyKey, status, voltage, rawPayload, observedAt⟩ =>
      if zoneId ≠ meterZone ∨
        e.2.evidenceId ∈ w.database.evidence.values.map EvidenceEvent.id then next w e
      else
        let row := ⟨e.2.evidenceId, e.2.providerId, meterZone, idempotencyKey, source, status,
          voltage, none, none, rawPayload, observedAt, e.2.now⟩
        let r := insertEvidence w.database row
        some (w.after e.1 ⟨r.1, .findEvidence idempotencyKey r.2, none⟩)
    | _ => next w e := by
  have huuid : uuid meterZone = meterZone := by decide +kernel
  funext w e
  cases ht : w.task e.1 with
  | insertEvidence input =>
    dsimp only
    split
    · rfl
    · rename_i h
      obtain ⟨hzone, hid⟩ := not_or.mp h
      unfold next
      rw [ht]
      simp only [Task.step, if_neg hid, evidenceRow, not_not.mp hzone, huuid]
      rfl
  | _ => rfl

theorem busyTasks_fresh (p : ℕ) : (busyTasks p).Fresh sampleZod := by
  have hzone : sampleZod.uuid meterZone = true := by decide +kernel
  unfold busyTasks
  split
  · exact hzone
  · split
    · exact hzone
    · exact hzone

theorem quiet_sees : letI := JsText.asciiRuntime
    Runs.Along next (fun w e => (w.task e.1).SeesConflicts w.database) (start busyTasks) (busySteps []) := by
  rw [@next_meterZone JsText.asciiRuntime]
  decide +kernel

/-- the two conflicting readings alone: the later one is held back -/
theorem quiet_zone : letI := JsText.asciiRuntime
    ∃ w, Runs.run next (start busyTasks) (busySteps []) = some w ∧
      w.database.candidates.rows.map (fun r => r.event.confidence) = [95 / 100, 8 / 10] ∧
      ∀ e ∈ w.database.evidence.values, ∀ e' ∈ w.database.evidence.values, Conflicts e e' →
        ∀ r ∈ w.database.candidates.rows, ∀ r' ∈ w.database.candidates.rows,
          r.candidateKey = candidateKeyFor e → r'.candidateKey = candidateKeyFor e' →
            HeldBack r ∨ HeldBack r' := by
  let _ := JsText.asciiRuntime
  have hrun : (Runs.run next (start busyTasks) (busySteps [])).any (fun w => decide (
      w.database.candidates.rows.map (fun r => r.event.confidence) = [95 / 100, 8 / 10])) = true := by
    rw [next_meterZone]
    decide +kernel
  obtain ⟨w, hw, hrows⟩ := (Option.any_eq_true _ _).mp hrun
  exact ⟨w, hw, of_decide_eq_true hrows, contested busyTasks_fresh quiet_sees hw⟩

/-- **Fifty newer readings hide the outage from the third meter, and both candidates are approved.** -/
theorem busy_zone : letI := JsText.asciiRuntime
    ∃ w, Runs.run next (start busyTasks) (busySteps (List.range' 1 50)) = some w ∧
      ∃ e ∈ w.database.evidence.values, ∃ e' ∈ w.database.evidence.values, Conflicts e e' ∧
        w.database.candidates.rows.map (fun r => (r.candidateKey, r.event.confidence)) =
          [(candidateKeyFor e, 95 / 100), (candidateKeyFor e', 94 / 100)] ∧
        ∀ r ∈ w.database.candidates.rows, Pipeline.decisionForConfidence r.event.confidence = .approve := by
  let _ := JsText.asciiRuntime
  have hrun : (Runs.run next (start busyTasks) (busySteps (List.range' 1 50))).any (fun w =>
      w.database.evidence.values.head?.any fun e => w.database.evidence.values.getLast?.any fun e' =>
        decide (Conflicts e e' ∧ w.database.candidates.rows.map (fun r => (r.candidateKey, r.event.confidence)) =
          [(candidateKeyFor e, 95 / 100), (candidateKeyFor e', 94 / 100)])) = true := by
    rw [next_meterZone]
    decide +kernel
  obtain ⟨w, hw, h⟩ := (Option.any_eq_true _ _).mp hrun
  obtain ⟨e, he, h⟩ := (Option.any_eq_true _ _).mp h
  obtain ⟨e', he', h⟩ := (Option.any_eq_true _ _).mp h
  obtain ⟨hconflict, hrows⟩ := of_decide_eq_true h
  refine ⟨w, hw, e, List.mem_of_head? he, e', List.mem_of_getLast? he', hconflict, hrows, ?_⟩
  intro r hr
  have hr := List.mem_map_of_mem (f := fun r : CandidateRow => (r.candidateKey, r.event.confidence)) hr
  rw [hrows] at hr
  rcases List.mem_cons.mp hr with h | h
  · rw [(Prod.mk.inj h).2]
    decide +kernel
  · rw [(Prod.mk.inj (List.mem_singleton.mp h)).2]
    decide +kernel

end Ingestion
