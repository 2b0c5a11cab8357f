import GridProof.Lib.Runs
import GridProof.Pipeline.Operations

/-!
# Each approved candidate counts once

The query of a recompute has one row for each approving decision, so a candidate whose two rows
both approve is listed twice.

* `approvedCandidates`     the approved candidates of a zone and epoch, each once, in the order of
                           the query;
* `selectApproved_eq_iff`  the query lists exactly these iff no candidate of the zone and epoch has
                           two approving rows;
* `stored_once`            along every run whose approvals meet `ApprovesOnce`, every stored score is
                           the score of the approved candidates.
-/

namespace Pipeline

/-! ## the approved candidates -/

/-- the candidates of the zone and epoch with an approving decision, each once -/
def approvedCandidates (db : Db) (zoneId : String) (epochStart : EpochStart) :
    List CandidateEvent :=
  (((db.candidates.rows.filter fun c => c.event.inEpoch zoneId epochStart).filter fun c =>
    db.approvals c.id ≠ []).map CandidateRow.event).insertionSort windowOrder

theorem mem_approvedCandidates {db : Db} {zoneId : String} {epochStart : EpochStart}
    {c : CandidateEvent} : c ∈ approvedCandidates db zoneId epochStart ↔
    (∃ row ∈ db.candidates.rows, row.event = c) ∧ c.inEpoch zoneId epochStart ∧
      db.Approved c.id := by
  unfold approvedCandidates
  rw [List.mem_insertionSort, List.mem_map]
  constructor
  · rintro ⟨row, hrow, rfl⟩
    obtain ⟨hrow, happ⟩ := List.mem_filter.mp hrow
    obtain ⟨hmem, hin⟩ := List.mem_filter.mp hrow
    exact ⟨⟨row, hmem, rfl⟩, hin, Db.approvals_ne_nil.mp (of_decide_eq_true happ)⟩
  · rintro ⟨⟨row, hrow, rfl⟩, hin, happ⟩
    refine ⟨row, List.mem_filter.mpr ⟨List.mem_filter.mpr ⟨hrow, hin⟩, ?_⟩, rfl⟩
    exact decide_eq_true (Db.approvals_ne_nil.mpr happ)

theorem Db.events_nodup (db : Db) : (db.candidates.rows.map CandidateRow.event).Nodup := by
  refine List.Nodup.of_map CandidateEvent.id ?_
  rw [List.map_map]
  exact db.candidates.id_nodup

theorem approvedCandidates_nodup (db : Db) (zoneId : String) (epochStart : EpochStart) :
    (approvedCandidates db zoneId epochStart).Nodup := by
  unfold approvedCandidates
  rw [(List.perm_insertionSort windowOrder _).nodup_iff]
  refine db.events_nodup.sublist (List.Sublist.map _ ?_)
  exact List.filter_sublist.trans List.filter_sublist

instance windowOrder_total : Std.Total windowOrder where
  total a b := by
    unfold windowOrder
    rcases lt_trichotomy a.windowEnd.micros b.windowEnd.micros with h | h | h
    · exact .inl (.inl h)
    · exact (String.le_total a.id b.id).imp (fun hid => .inr ⟨h, hid⟩)
        fun hid => .inr ⟨h.symm, hid⟩
    · exact .inr (.inl h)

instance windowOrder_trans : IsTrans CandidateEvent windowOrder where
  trans a b c := by
    rintro (hab | ⟨hab, hid⟩) (hbc | ⟨hbc, hid'⟩)
    · exact .inl (hab.trans hbc)
    · exact .inl (hab.trans_eq hbc)
    · exact .inl (hab.trans_lt hbc)
    · exact .inr ⟨hab.trans hbc, String.le_trans hid hid'⟩

theorem windowOrder.antisymm_id {a b : CandidateEvent} (hab : windowOrder a b)
    (hba : windowOrder b a) : a.id = b.id := by
  unfold windowOrder at hab hba
  rcases hab with hlt | ⟨heq, hle⟩
  · omega
  · rcases hba with hlt' | ⟨-, hle'⟩
    · omega
    · exact String.le_antisymm hle hle'

/-- every listing of the approved candidates in the order of the query is `approvedCandidates` -/
theorem approvedCandidates_unique {db : Db} {zoneId : String} {epochStart : EpochStart}
    {l : List CandidateEvent} (hnd : l.Nodup) (hsorted : l.Pairwise windowOrder)
    (hmem : ∀ c, c ∈ l ↔ (∃ row ∈ db.candidates.rows, row.event = c) ∧
      c.inEpoch zoneId epochStart ∧ db.Approved c.id) :
    l = approvedCandidates db zoneId epochStart := by
  refine List.Perm.eq_of_pairwise ?_ hsorted (List.pairwise_insertionSort windowOrder _) ?_
  · intro a b ha hb hab hba
    obtain ⟨⟨ra, hra, rfl⟩, -⟩ := (hmem a).mp ha
    obtain ⟨⟨rb, hrb, rfl⟩, -⟩ := mem_approvedCandidates.mp hb
    rw [Table.eq_of_id hra hrb (hab.antisymm_id hba)]
  · refine (List.perm_ext_iff_of_nodup hnd (approvedCandidates_nodup db zoneId epochStart)).mpr ?_
    intro c
    rw [hmem, mem_approvedCandidates]

/-! ## the query and the set -/

/-- a join whose second table has at most one match for each row -/
theorem flatMap_map_of_length_le_one {ρ β γ : Type*} {l : List ρ} {g : ρ → List β} {f : ρ → γ}
    (h : ∀ c ∈ l, (g c).length ≤ 1) :
    (l.flatMap fun c => (g c).map fun _ => f c) = (l.filter fun c => (g c).length ≠ 0).map f := by
  induction l with
  | nil => rfl
  | cons c l ih =>
    have hl := ih fun c' hc' => h c' (List.mem_cons_of_mem c hc')
    have hc := h c List.mem_cons_self
    rw [List.flatMap_cons, hl, List.map_const', List.filter_cons]
    by_cases h0 : (g c).length = 0
    · simp [h0]
    · have h1 : (g c).length = 1 := by omega
      simp [h1]

/-- no two decisions of the candidate approve it -/
def Db.ApprovedOnce (db : Db) (candidateId : String) : Prop :=
  (db.approvals candidateId).length ≤ 1

instance (db : Db) (candidateId : String) : Decidable (db.ApprovedOnce candidateId) :=
  inferInstanceAs (Decidable (_ ≤ _))

/-- **The query lists each approved candidate once iff no candidate has two approving rows.** -/
theorem selectApproved_eq_iff {db : Db} {zoneId : String} {epochStart : EpochStart} :
    selectApproved db zoneId epochStart = approvedCandidates db zoneId epochStart ↔
    ∀ row ∈ db.candidates.rows, row.event.inEpoch zoneId epochStart → db.ApprovedOnce row.id := by
  constructor
  · intro h row hrow hin
    have hnd : (selectApproved db zoneId epochStart).Nodup :=
      h ▸ approvedCandidates_nodup db zoneId epochStart
    unfold selectApproved at hnd
    rw [(List.perm_insertionSort windowOrder _).nodup_iff, List.nodup_flatMap] at hnd
    have hone := hnd.1 row (List.mem_filter.mpr ⟨hrow, hin⟩)
    rw [List.map_const', List.nodup_replicate] at hone
    exact hone
  · intro h
    unfold selectApproved approvedCandidates
    rw [flatMap_map_of_length_le_one]
    · simp only [ne_eq, List.length_eq_zero_iff]
    · intro row hrow
      obtain ⟨hmem, hin⟩ := List.mem_filter.mp hrow
      exact h row hmem hin

/-! ## runs -/

theorem Db.mem_approvals {db : Db} {candidateId : String} {d : AgentDecision} :
    d ∈ db.approvals candidateId ↔
    d ∈ db.decisions.rows ∧ d.candidateEventId = candidateId ∧ d.decision = .approve := by
  unfold Db.approvals
  rw [List.mem_filter, decide_eq_true_iff]

theorem Db.approvedOnce_iff {db : Db} {candidateId : String} :
    db.ApprovedOnce candidateId ↔ ∀ d ∈ db.approvals candidateId,
      ∀ d' ∈ db.approvals candidateId, d.agentName = d'.agentName := by
  unfold Db.ApprovedOnce
  constructor
  · intro h d hd d' hd'
    obtain ⟨a, ha⟩ := List.length_eq_one_iff.mp
      (Nat.le_antisymm h (List.length_pos_of_mem hd))
    rw [ha, List.mem_singleton] at hd hd'
    rw [hd, hd']
  · intro h
    have hnd : (db.approvals candidateId).Nodup :=
      (List.Nodup.of_map _ db.decisions.id_nodup).sublist List.filter_sublist
    match hl : db.approvals candidateId with
    | [] => exact Nat.zero_le 1
    | [_] => exact Nat.le_refl 1
    | a :: b :: l =>
      have ha : a ∈ db.approvals candidateId := by rw [hl]; exact List.mem_cons_self
      have hb : b ∈ db.approvals candidateId := by
        rw [hl]
        exact List.mem_cons_of_mem a List.mem_cons_self
      obtain ⟨harow, hac, -⟩ := Db.mem_approvals.mp ha
      obtain ⟨hbrow, hbc, -⟩ := Db.mem_approvals.mp hb
      have hab : a = b := Table.eq_of_key harow hbrow
        (Prod.ext (hac.trans hbc.symm) (h a ha b hb))
      rw [hl, hab] at hnd
      exact absurd List.mem_cons_self (List.nodup_cons.mp hnd).1

/-- an operation that stores a score finds no other agent's approval of its candidate, and no
candidate of the hour with two approving rows -/
def ApprovesOnce (s : System) (op : Op) : Prop :=
  ∀ t ∈ op.target s, t.verdict = .approve → op.preview = false →
    (∀ d ∈ s.db.approvals t.candidate.id, d.agentName = t.agentName) ∧
    ∀ row ∈ s.db.candidates.rows, row.event.epochKey = t.candidate.epochKey →
      row.id ≠ t.candidate.id → s.db.ApprovedOnce row.id

instance (s : System) (op : Op) : Decidable (ApprovesOnce s op) :=
  inferInstanceAs (Decidable (∀ t ∈ op.target s, _))

/-- the approvals of a candidate after a decision was written -/
theorem Effect.mem_approvals {s s' : System} {op : Op} {d : AgentDecision}
    {score : Option EpochScore} (h : Effect s s' op d score) {candidateId : String}
    {d' : AgentDecision} : d' ∈ s'.db.approvals candidateId ↔
    (d' ∈ s.db.approvals candidateId ∧ d'.key ≠ d.key) ∨
      (d' = d ∧ d.candidateEventId = candidateId ∧ d.decision = .approve) := by
  rw [Db.mem_approvals, Db.mem_approvals, h.puts d']
  constructor
  · rintro ⟨⟨hold, hne⟩ | rfl, hd'⟩
    · exact .inl ⟨⟨hold, hd'⟩, hne⟩
    · exact .inr ⟨rfl, hd'⟩
  · rintro (⟨⟨hold, hd'⟩, hne⟩ | ⟨rfl, hd'⟩)
    · exact ⟨.inl ⟨hold, hne⟩, hd'⟩
    · exact ⟨.inr rfl, hd'⟩

/-- the condition is exact: it says that the query of the operation lists no candidate twice -/
theorem Effect.approvesOnce_iff {s s' : System} {op : Op} {d : AgentDecision}
    {score : Option EpochScore} (h : Effect s s' op d score) (hd : d.decision = .approve)
    (hpre : op.preview = false) {c : CandidateRow} (hc : c ∈ s'.db.candidates.rows)
    (hid : c.id = d.candidateEventId) : ApprovesOnce s op ↔
    ∀ row ∈ s'.db.candidates.rows, row.event.epochKey = c.event.epochKey →
      s'.db.ApprovedOnce row.id := by
  obtain ⟨c', hc', hid', htarget⟩ := h.target
  obtain rfl := Table.eq_of_id hc hc' (hid.trans hid'.symm)
  have hother {candidateId : String} (hne : candidateId ≠ d.candidateEventId) (d' : AgentDecision) :
      d' ∈ s'.db.approvals candidateId ↔ d' ∈ s.db.approvals candidateId := by
    rw [h.mem_approvals]
    constructor
    · rintro (⟨hold, -⟩ | ⟨-, e, -⟩)
      · exact hold
      · exact absurd e.symm hne
    · intro hold
      refine .inl ⟨hold, fun e => hne ?_⟩
      exact (Db.mem_approvals.mp hold).2.1.symm.trans (congrArg Prod.fst e)
  constructor
  · intro hok row hrow hkey
    obtain ⟨hsame, hrest⟩ := hok _ htarget hd hpre
    by_cases hrowid : row.id = d.candidateEventId
    · have hall (d' : AgentDecision) (hd' : d' ∈ s'.db.approvals row.id) : d' = d := by
        rcases h.mem_approvals.mp hd' with ⟨hold, hne⟩ | ⟨rfl, -⟩
        · rw [hrowid.trans hid.symm] at hold
          refine absurd (Prod.ext ?_ (hsame d' hold)) hne
          exact (Db.mem_approvals.mp hold).2.1.trans hid
        · rfl
      refine Db.approvedOnce_iff.mpr fun d₁ h₁ d₂ h₂ => ?_
      rw [hall d₁ h₁, hall d₂ h₂]
    · have hold := (h.candidates_cases hrow).resolve_right hrowid
      have honce := hrest row hold hkey (fun e => hrowid (e.trans hid))
      refine Db.approvedOnce_iff.mpr fun d₁ h₁ d₂ h₂ => ?_
      exact Db.approvedOnce_iff.mp honce d₁ ((hother hrowid d₁).mp h₁) d₂ ((hother hrowid d₂).mp h₂)
  · intro hall t ht _ _
    obtain rfl := Option.some.inj (htarget.symm.trans ht)
    refine ⟨fun d' hd' => ?_, fun row hrow hkey hne => ?_⟩
    · by_contra hagent
      have hd'' : d' ∈ s'.db.approvals c.id :=
        h.mem_approvals.mpr (.inl ⟨hd', fun e => hagent (congrArg Prod.snd e)⟩)
      have hdd : d ∈ s'.db.approvals c.id := h.mem_approvals.mpr (.inr ⟨rfl, hid.symm, hd⟩)
      exact hagent (Db.approvedOnce_iff.mp (hall c hc rfl) d' hd'' d hdd)
    · have hne' : row.id ≠ d.candidateEventId := fun e => hne (e.trans hid.symm)
      have honce := Db.approvedOnce_iff.mp (hall row (h.candidates_subset hrow) hkey)
      refine Db.approvedOnce_iff.mpr fun d₁ h₁ d₂ h₂ => ?_
      exact honce d₁ ((hother hne' d₁).mpr h₁) d₂ ((hother hne' d₂).mpr h₂)

/-- the score an operation stores is the score of the approved candidates -/
def StoresApproved (s : System) (op : Op) : Prop :=
  ∀ s' res es, step s op = some (s', res) → res.epochScore = some es →
    let votes := (approvedCandidates s'.db es.zoneId es.epochStart).map CandidateEvent.vote
    (∃ r ∈ s'.db.epochScores.rows, r.toEpochScore = es) ∧ es.uptimeBps = uptimeBps votes ∧
      es.evidenceHash = evidenceHash es.zoneId es.epochStart votes

theorem step_storesApproved {s : System} {op : Op} (hs : s.Wf) (hok : ApprovesOnce s op) :
    StoresApproved s op := by
  intro s' res es h hes
  obtain ⟨d, heff⟩ := step_effect hs h
  have hscore := heff.score
  rw [hes] at hscore
  cases hscore with
  | stored c r hd hpre hc hid hputs hkey hcounted =>
    obtain ⟨hzone, hstart⟩ := Prod.mk.inj hkey
    have honce : selectApproved s'.db r.zoneId r.epochStart =
        approvedCandidates s'.db r.zoneId r.epochStart := by
      refine selectApproved_eq_iff.mpr fun row hrow hin => ?_
      refine (heff.approvesOnce_iff hd hpre hc hid).mp hok row hrow ?_
      exact (CandidateEvent.inEpoch_iff.mp hin).trans hkey
    obtain ⟨huptime, hhash⟩ := r.valid
    rw [hcounted, honce] at huptime hhash
    exact ⟨⟨r, hputs.self, rfl⟩, huptime, hhash⟩

/-- **Along every run whose approvals meet `ApprovesOnce`, every stored score counts each approved
candidate once.** -/
theorem stored_once {ops : List Op} (hok : Runs.Along next ApprovesOnce .empty ops) :
    Runs.Along next StoresApproved .empty ops := by
  exact Runs.Along.of_inv System.Wf (fun s op s' hs _ => next_wf hs)
    (fun s op => step_storesApproved) System.empty_wf hok

/-- an escalated candidate is approved by the agents, and another one by the policy gate -/
def agentApproval : List Op :=
  [.ingest (sampleRow "c1" .restored (6 / 10)) none "d1" sampleTime,
   .deliver ⟨(sampleRow "c1" .restored (6 / 10)).event, none⟩ (sampleResult .approve) "d2" sampleTime,
   .ingest (sampleRow "c2" .outage (9 / 10)) none "d3" sampleTime]

theorem stored_once_agentApproval : (Runs.run next .empty agentApproval).isSome ∧
    Runs.Along next StoresApproved .empty agentApproval :=
  ⟨by decide +kernel, stored_once (by decide +kernel)⟩

/-- when a reviewer then approves the policy gate's row of the first candidate, two candidates, one
of them up, score 6667 -/
theorem counted_twice : ∃ s s' res es, Runs.run next .empty agentApproval = some s ∧
    step s (.review "d1" .approve "" sampleTime) = some (s', res) ∧ res.epochScore = some es ∧
    es.uptimeBps = 6667 ∧
    uptimeBps ((approvedCandidates s'.db es.zoneId es.epochStart).map CandidateEvent.vote) = 5000 ∧
    ¬ StoresApproved s (.review "d1" .approve "" sampleTime) := by
  have h : (do
      let s ← Runs.run next .empty agentApproval
      let (s', res) ← step s (.review "d1" .approve "" sampleTime)
      let es ← res.epochScore
      let votes := (approvedCandidates s'.db es.zoneId es.epochStart).map CandidateEvent.vote
      return (es.uptimeBps, uptimeBps votes)) = some (6667, 5000) := by
    decide +kernel
  simp only [Option.bind_eq_bind, Option.bind_eq_some_iff, Prod.exists, Option.pure_def] at h
  obtain ⟨s, hs, s', res, hstep, es, hes, h⟩ := h
  obtain ⟨h6667, h5000⟩ := Prod.mk.inj (Option.some.inj h)
  refine ⟨s, s', res, es, hs, hstep, hes, h6667, h5000, fun hall => ?_⟩
  have hsame := (hall s' res es hstep hes).2.1
  rw [h6667, h5000] at hsame
  exact absurd hsame (by decide)

end Pipeline
