import Mathlib.Data.Finset.Basic
import GridProof.Lib.Comparator
import GridProof.Pipeline.Recompute

/-!
# The order of approvals

In memory the score of an hour is recomputed after each of its approvals, from maps that list their values
in the order in which they were set.

* `approvals`          the candidates that a run approves;
* `MemoryOp.InOrder`   an approval of the hour that is stored, or an operation that rejects none of its
                       approved candidates;
* `Approving`          the score of the hour is that of the candidates approved so far;
* `approval_order`     two runs that approve the same candidates of the hour end with the same score.
-/

namespace Pipeline

open Comparator Runs

/-! ## what a run approves -/

/-- the candidate that an operation approves, if it approves one -/
def MemoryOp.approvals (m : Memory) (op : MemoryOp) : List CandidateEvent :=
  ((op.target m).toList.filter fun t => t.verdict = .approve).map Target.candidate

/-- the candidates that a run approves, one entry for each approval -/
def approvals (localeCompare : String → String → Int) : Memory → List MemoryOp → List CandidateEvent
  | _, [] => []
  | m, op :: ops => op.approvals m ++
      match op.next localeCompare m with
      | some m' => approvals localeCompare m' ops
      | none => []

/-- of the candidates of the hour, the operation approves one and stores its score, or it leaves an approved
one approved: it is neither a preview nor a rejection -/
def MemoryOp.InOrder (key : String × EpochStart) (m : Memory) (op : MemoryOp) : Prop :=
  ∀ t ∈ op.target m, t.candidate.epochKey = key →
    if t.verdict = .approve then op.preview = false else m.approved t.candidate.id = false

instance (key : String × EpochStart) (m : Memory) (op : MemoryOp) : Decidable (op.InOrder key m) :=
  inferInstanceAs (Decidable (∀ t ∈ op.target m, _))

/-! ## the score of the approved candidates -/

section
variable {localeCompare : String → String → Int} {m m' : Memory} {op : MemoryOp} {c : CandidateEvent}
  {d : AgentDecision} {zoneId : String} {epochStart : EpochStart}

theorem Memory.mem_approvedCandidates : c ∈ m.approvedCandidates localeCompare zoneId epochStart ↔
    c ∈ m.memoryCandidatesById.values ∧ m.approved c.id ∧ c.epochKey = (zoneId, epochStart) := by
  unfold Memory.approvedCandidates CandidateEvent.epochKey
  rw [List.mem_insertionSort, List.mem_filter, Bool.and_eq_true, Bool.and_eq_true, decide_eq_true_iff,
    EpochStart.containsTime_iff, Prod.mk.injEq]
  tauto

theorem Memory.Wf.eq_of_id (hm : m.Wf) {a b : CandidateEvent} (ha : a ∈ m.memoryCandidatesById.values)
    (hb : b ∈ m.memoryCandidatesById.values) (h : a.id = b.id) : a = b := by
  obtain ⟨i, hai⟩ := OrderedMap.mem_values.mp ha
  obtain ⟨j, hbj⟩ := OrderedMap.mem_values.mp hb
  exact hm.id_inj a (hm.recorded i a hai).2 b (hm.recorded j b hbj).2 h

namespace MemoryOp

theorem Effect.mem_values (hm : m.Wf) (h : Effect localeCompare m m' op c d) {a : CandidateEvent} :
    a ∈ m'.memoryCandidatesById.values ↔ a ∈ m.memoryCandidatesById.values ∨ a = c := by
  cases h.candidates with
  | old hget hbyId hbyKey =>
    rw [hbyId]
    refine ⟨.inl, ?_⟩
    rintro (ha | rfl)
    · exact ha
    · exact OrderedMap.mem_values.mpr ⟨_, hget⟩
  | new key hfree hnew hbyId hbyKey =>
    rw [hbyId, OrderedMap.values_set_of_none (hm.get?_eq_none hnew), List.mem_append, List.mem_singleton]

/-- the approved candidates of the hour of an approval: those before it, and its own -/
theorem Effect.mem_approvedCandidates (hm : m.Wf) (h : Effect localeCompare m m' op c d)
    (happ : d.decision = .approve) {a : CandidateEvent} :
    a ∈ m'.approvedCandidates localeCompare c.zoneId (floorToEpoch c.windowEnd) ↔
      a ∈ m.approvedCandidates localeCompare c.zoneId (floorToEpoch c.windowEnd) ∨ a = c := by
  have hself : m'.approved c.id := by
    rw [h.approved_self]
    exact decide_eq_true happ
  have hc : c ∈ m'.memoryCandidatesById.values := (h.mem_values hm).mpr (.inr rfl)
  rw [Memory.mem_approvedCandidates, Memory.mem_approvedCandidates]
  constructor
  · rintro ⟨ha, happroved, hkey⟩
    by_cases hid : a.id = c.id
    · exact .inr ((h.wf hm).eq_of_id ha hc hid)
    · rw [h.approved_of_ne hid] at happroved
      refine .inl ⟨((h.mem_values hm).mp ha).resolve_right fun e => hid (congrArg _ e), happroved, hkey⟩
  · rintro (⟨ha, happroved, hkey⟩ | rfl)
    · have ha' := (h.mem_values hm).mpr (.inl ha)
      by_cases hid : a.id = c.id
      · rw [(h.wf hm).eq_of_id ha' hc hid]
        exact ⟨hc, hself, rfl⟩
      · exact ⟨ha', (h.approved_of_ne hid).symm ▸ happroved, hkey⟩
    · exact ⟨hc, hself, rfl⟩

theorem Effect.approvals (h : Effect localeCompare m m' op c d) :
    op.approvals m = if d.decision = .approve then [c] else [] := by
  unfold MemoryOp.approvals
  rw [h.target]
  show List.map _ (List.filter _ [_]) = _
  rw [List.filter_singleton]
  by_cases happ : d.decision = .approve
  · simp [happ]
  · simp [happ]

end MemoryOp

/-- the approved candidates of the hour are those in `counted`, and its score is theirs -/
structure Approving (localeCompare : String → String → Int) (key : String × EpochStart) (m : Memory)
    (counted : List CandidateEvent) : Prop where
  wf : m.Wf
  counted : ∀ c, c ∈ m.approvedCandidates localeCompare key.1 key.2 ↔ c ∈ counted ∧ c.epochKey = key
  score : m.memoryEpochScoresByKey.get? key =
    if m.approvedCandidates localeCompare key.1 key.2 = [] then none else
      some (epochScoreForApprovedCandidates key.1 key.2
        ((m.approvedCandidates localeCompare key.1 key.2).map CandidateEvent.vote))

theorem Approving.empty (key : String × EpochStart) : Approving localeCompare key Memory.empty [] where
  wf := Memory.empty_wf
  counted _ := ⟨fun h => absurd h List.not_mem_nil, fun h => absurd h.1 List.not_mem_nil⟩
  score := rfl

theorem Approving.step {key : String × EpochStart} {counted : List CandidateEvent}
    (hm : Approving localeCompare key m counted) (hok : op.InOrder key m)
    (h : op.next localeCompare m = some m') :
    Approving localeCompare key m' (counted ++ op.approvals m) := by
  obtain ⟨c, d, heff⟩ := MemoryOp.next_effect hm.wf h
  have hok := hok _ heff.target
  rw [heff.approvals]
  by_cases hchange : c.epochKey = key ∧ d.decision = .approve
  · obtain ⟨rfl, happ⟩ := hchange
    rw [if_pos happ] at hok ⊢
    have hpre := hok rfl
    have hmem : ∀ a, a ∈ m'.approvedCandidates localeCompare c.epochKey.1 c.epochKey.2 ↔
        a ∈ m.approvedCandidates localeCompare c.epochKey.1 c.epochKey.2 ∨ a = c :=
      fun a => heff.mem_approvedCandidates hm.wf happ
    refine ⟨heff.wf hm.wf, fun a => ?_, ?_⟩
    · rw [hmem a, List.mem_append, List.mem_singleton, hm.counted a]
      constructor
      · rintro (⟨ha, hkey⟩ | rfl)
        · exact ⟨.inl ha, hkey⟩
        · exact ⟨.inr rfl, rfl⟩
      · rintro ⟨ha, hkey⟩
        exact ha.imp_left fun ha => ⟨ha, hkey⟩
    · rw [if_neg (List.ne_nil_of_mem ((hmem c).mpr (.inr rfl)))]
      rcases heff.scores with ⟨-, hwhy⟩ | ⟨-, -, hscores⟩
      · rw [hpre] at hwhy
        exact absurd (hwhy happ) Bool.false_ne_true
      · rw [hscores, OrderedMap.get?_set_self]
        rfl
  · -- the approved candidates of the hour, and so its score, are as they were
    have hsame : (key.1, key.2) ≠ c.epochKey ∨ (d.decision = .approve ↔ m.approved c.id) := by
      by_cases hkey : c.epochKey = key
      · have happ : d.decision ≠ .approve := fun happ => hchange ⟨hkey, happ⟩
        have hno := hok hkey
        rw [if_neg happ] at hno
        refine .inr (iff_of_false happ ?_)
        rw [hno]
        exact Bool.false_ne_true
      · exact .inl (Ne.symm hkey)
    have heq := heff.approvedCandidates_eq hm.wf hsame
    refine ⟨heff.wf hm.wf, fun a => ?_, ?_⟩
    · rw [heq, hm.counted a, List.mem_append]
      constructor
      · exact fun ha => ⟨.inl ha.1, ha.2⟩
      · rintro ⟨ha | ha, hkey⟩
        · exact ⟨ha, hkey⟩
        · split at ha
          · rename_i happ
            rw [List.mem_singleton.mp ha] at hkey
            exact absurd ⟨hkey, happ⟩ hchange
          · exact absurd ha List.not_mem_nil
    · rw [heq, ← hm.score]
      rcases heff.scores with ⟨hscores, -⟩ | ⟨happ, -, hscores⟩
      · rw [hscores]
      · rw [hscores, OrderedMap.get?_set_of_ne fun e => hchange ⟨e.symm, happ⟩]

theorem Approving.run {key : String × EpochStart} {counted : List CandidateEvent} {ops : List MemoryOp}
    (hm : Approving localeCompare key m counted)
    (hok : Along (MemoryOp.next localeCompare) (fun m op => op.InOrder key m) m ops)
    (h : Runs.run (MemoryOp.next localeCompare) m ops = some m') :
    Approving localeCompare key m' (counted ++ approvals localeCompare m ops) := by
  induction ops generalizing m counted with
  | nil =>
    cases h
    show Approving localeCompare key _ (counted ++ [])
    rw [List.append_nil]
    exact hm
  | cons op ops ih =>
    obtain ⟨t, ht, hrun⟩ := run_cons_eq_some h
    have hrest := ih (hm.step hok.head ht) (hok.tail ht) hrun
    rw [List.append_assoc] at hrest
    unfold approvals
    rw [ht]
    exact hrest

/-! ## two runs -/

/-- the candidates that the recompute sorts -/
theorem approvedCandidates_unique_order {key : String × EpochStart} (hm : m.Wf) (hm' : m'.Wf)
    (hmem : ∀ c, c ∈ m.approvedCandidates localeCompare key.1 key.2 ↔
      c ∈ m'.approvedCandidates localeCompare key.1 key.2)
    (htexts : TotalOn localeCompare fun t =>
      ∃ c ∈ m.approvedCandidates localeCompare key.1 key.2, c.windowEnd.text = t)
    (hids : TotalOn localeCompare fun i =>
      ∃ c ∈ m.approvedCandidates localeCompare key.1 key.2, c.id = i) :
    m.approvedCandidates localeCompare key.1 key.2 = m'.approvedCandidates localeCompare key.1 key.2 := by
  have hnd := (OrderedMap.values_nodup fun i a h => (hm.recorded i a h).1).filter (fun item =>
    item.zoneId = key.1 && m.approved item.id && key.2.containsTime item.windowEnd)
  have hnd' := (OrderedMap.values_nodup fun i a h => (hm'.recorded i a h).1).filter (fun item =>
    item.zoneId = key.1 && m'.approved item.id && key.2.containsTime item.windowEnd)
  unfold Memory.approvedCandidates at *
  simp only [List.mem_insertionSort] at hmem htexts hids
  refine ByKeys.insertionSort_unique (f := fun c => c.windowEnd.text) (g := CandidateEvent.id)
    ⟨htexts, hids, fun a ha b hb hid => ?_, fun _ _ => Iff.rfl⟩ hnd hnd' hmem
  exact hm.eq_of_id (List.mem_filter.mp ha).1 (List.mem_filter.mp hb).1 hid

/-- **The order of approvals does not matter**: two runs that approve the same candidates of an hour, in
whatever order and whoever approves them, store the same score for it. -/
theorem approval_order {key : String × EpochStart} {approved : Finset CandidateEvent}
    {ops ops' : List MemoryOp} (hrun : Runs.run (MemoryOp.next localeCompare) .empty ops = some m)
    (hrun' : Runs.run (MemoryOp.next localeCompare) .empty ops' = some m')
    (horder : Along (MemoryOp.next localeCompare) (fun m op => op.InOrder key m) .empty ops)
    (horder' : Along (MemoryOp.next localeCompare) (fun m op => op.InOrder key m) .empty ops')
    (hset : ∀ c, c ∈ approvals localeCompare .empty ops ∧ c.epochKey = key ↔ c ∈ approved)
    (hset' : ∀ c, c ∈ approvals localeCompare .empty ops' ∧ c.epochKey = key ↔ c ∈ approved)
    (htexts : TotalOn localeCompare fun t => ∃ c ∈ approved, c.windowEnd.text = t)
    (hids : TotalOn localeCompare fun i => ∃ c ∈ approved, c.id = i) :
    m.memoryEpochScoresByKey.get? key = m'.memoryEpochScoresByKey.get? key ∧
    (approved.Nonempty → ∃ epochScore, m.memoryEpochScoresByKey.get? key = some epochScore) := by
  have hm := (Approving.empty key).run horder hrun
  have hm' := (Approving.empty key).run horder' hrun'
  have hmem : ∀ c, c ∈ m.approvedCandidates localeCompare key.1 key.2 ↔ c ∈ approved :=
    fun c => (hm.counted c).trans (hset c)
  have hmem' : ∀ c, c ∈ m'.approvedCandidates localeCompare key.1 key.2 ↔ c ∈ approved :=
    fun c => (hm'.counted c).trans (hset' c)
  have heq := approvedCandidates_unique_order hm.wf hm'.wf (fun c => (hmem c).trans (hmem' c).symm)
    (by simpa only [hmem] using htexts) (by simpa only [hmem] using hids)
  rw [hm.score, hm'.score, ← heq]
  refine ⟨rfl, fun ⟨c, hc⟩ => ?_⟩
  rw [if_neg (List.ne_nil_of_mem ((hmem c).mpr hc))]
  exact ⟨_, rfl⟩

end

/-! ## an auto-approval and a review -/

theorem compareCodePoints_totalOn (X : String → Prop) : TotalOn compareCodePoints X := totalOn_codePoints X

/-- a candidate approved by the policy gate, another by a reviewer, in either order -/
def gateThenReviewer : List MemoryOp :=
  [.ingest "c1" (sampleRow "c1" .restored (9 / 10)).event none "d1" sampleTime,
   .ingest "c2" (sampleRow "c2" .outage (6 / 10)).event none "d2" sampleTime,
   .review "d2" .approve "" sampleTime]

def reviewerThenGate : List MemoryOp :=
  [.ingest "c2" (sampleRow "c2" .outage (6 / 10)).event none "d2" sampleTime,
   .review "d2" .approve "" sampleTime,
   .ingest "c1" (sampleRow "c1" .restored (9 / 10)).event none "d1" sampleTime]

def bothApproved : Finset CandidateEvent :=
  {(sampleRow "c1" .restored (9 / 10)).event, (sampleRow "c2" .outage (6 / 10)).event}

theorem gateThenReviewer_approvals : approvals compareCodePoints .empty gateThenReviewer =
    [(sampleRow "c1" .restored (9 / 10)).event, (sampleRow "c2" .outage (6 / 10)).event] := by
  decide +kernel

theorem reviewerThenGate_approvals : approvals compareCodePoints .empty reviewerThenGate =
    [(sampleRow "c2" .outage (6 / 10)).event, (sampleRow "c1" .restored (9 / 10)).event] := by
  decide +kernel

/-- both candidates are of the hour -/
theorem bothApproved_iff {c : CandidateEvent} {l : List CandidateEvent}
    (hl : ∀ c, c ∈ l ↔ c ∈ bothApproved) :
    c ∈ l ∧ c.epochKey = ("z", floorToEpoch sampleTime) ↔ c ∈ bothApproved := by
  have hkey : ∀ c ∈ bothApproved, c.epochKey = ("z", floorToEpoch sampleTime) := by decide +kernel
  rw [hl c]
  exact ⟨And.left, fun h => ⟨h, hkey c h⟩⟩

theorem approval_order_sample : ∃ m m',
    Runs.run (MemoryOp.next compareCodePoints) .empty gateThenReviewer = some m ∧
    Runs.run (MemoryOp.next compareCodePoints) .empty reviewerThenGate = some m' ∧
    m.memoryEpochScoresByKey.get? ("z", floorToEpoch sampleTime) =
      m'.memoryEpochScoresByKey.get? ("z", floorToEpoch sampleTime) := by
  have hm : (Runs.run (MemoryOp.next compareCodePoints) .empty gateThenReviewer).isSome := by
    decide +kernel
  have hm' : (Runs.run (MemoryOp.next compareCodePoints) .empty reviewerThenGate).isSome := by
    decide +kernel
  obtain ⟨m, hrun⟩ := Option.isSome_iff_exists.mp hm
  obtain ⟨m', hrun'⟩ := Option.isSome_iff_exists.mp hm'
  have hset : ∀ c, c ∈ approvals compareCodePoints .empty gateThenReviewer ∧
      c.epochKey = ("z", floorToEpoch sampleTime) ↔ c ∈ bothApproved := by
    rw [gateThenReviewer_approvals]
    exact fun c => bothApproved_iff fun _ => by simp [bothApproved]
  have hset' : ∀ c, c ∈ approvals compareCodePoints .empty reviewerThenGate ∧
      c.epochKey = ("z", floorToEpoch sampleTime) ↔ c ∈ bothApproved := by
    rw [reviewerThenGate_approvals]
    exact fun c => bothApproved_iff fun _ => by simp [bothApproved, or_comm]
  exact ⟨m, m', hrun, hrun', (approval_order hrun hrun' (by decide +kernel) (by decide +kernel) hset hset'
    (compareCodePoints_totalOn _) (compareCodePoints_totalOn _)).1⟩

end Pipeline
