import GridProof.Lib.Snapshot
import GridProof.Pipeline.Statements

/-!
# Approvals that interleave

Several approvals of one zone and epoch send their statements in any order.  The stored score covers
the candidates that were approved when the approval that stores its score last made its query.

* `Race`, `next`    the statements of several operations, interleaved;
* `simulates`       an interleaving is a run of `Snapshot`: the set is the candidates approved in the
                    hour, the copies are the votes an approval has read, the cell is the stored score;
* `covers_iff`      exactly when the stored score covers every candidate that was approved.
-/

namespace Pipeline

/-! ## interleaved operations -/

inductive Statement where
  | decision
  | query
  | score
  | commitment
deriving DecidableEq

def Phase.due : Phase → Option Statement
  | .started _ => some .decision
  | .decided .. => some .query
  | .selected .. => some .score
  | .scored .. => some .commitment
  | .finished _ => none

structure Race (π : Type*) where
  system : System
  phase : π → Phase

namespace Race

variable {π : Type*} [DecidableEq π]

/-- process `e.2` sends its statement `e.1` -/
def next (w : Race π) (e : Statement × π) : Option (Race π) :=
  if (w.phase e.2).due = some e.1 then
    (statement w.system (w.phase e.2)).map fun (s, phase) => ⟨s, Function.update w.phase e.2 phase⟩
  else none

theorem next_eq_some {w w' : Race π} {k : Statement} {p : π} (h : w.next (k, p) = some w') :
    (w.phase p).due = some k ∧ ∃ phase, statement w.system (w.phase p) = some (w'.system, phase) ∧
    w'.phase = Function.update w.phase p phase := by
  unfold next at h
  split at h
  · rename_i hdue
    obtain ⟨⟨s, phase⟩, hstatement, rfl⟩ := Option.map_eq_some_iff.mp h
    exact ⟨hdue, phase, hstatement, rfl⟩
  · cases h

/-! ## the candidate of an operation -/

/-- a statement after the decision keeps the candidate, and the wellformedness of the system -/
theorem statement_candidate {s s' : System} {phase phase' : Phase}
    (h : statement s phase = some (s', phase')) (hdue : phase.due ≠ some .decision) :
    phase'.candidate = phase.candidate ∧ phase'.due ≠ some .decision := by
  cases phase with
  | started op => exact absurd rfl hdue
  | decided c byWorker now => cases h; exact ⟨rfl, nofun⟩
  | selected c votes now =>
    obtain ⟨-, -, r, -, -, -, rfl⟩ := statement_selected h
    exact ⟨rfl, nofun⟩
  | scored c es now =>
    obtain ⟨-, -, -, rfl⟩ := statement_scored h
    exact ⟨rfl, nofun⟩
  | finished c => cases h

theorem statement_due {s s' : System} {phase phase' : Phase} (hs : s.Wf)
    (h : statement s phase = some (s', phase')) : phase'.due ≠ some .decision := by
  cases phase with
  | started op =>
    obtain ⟨d, -, -, rfl | ⟨c, byWorker, now, rfl, -⟩⟩ := storeDecision_effect hs h
    · exact nofun
    · exact nofun
  | decided c byWorker now => exact (statement_candidate h nofun).2
  | selected c votes now => exact (statement_candidate h nofun).2
  | scored c es now => exact (statement_candidate h nofun).2
  | finished c => cases h

/-- the candidate of an operation does not change once its decision is stored -/
theorem run_candidate {w w' : Race π} {sched : List (Statement × π)} {p : π}
    (hdue : (w.phase p).due ≠ some .decision) (h : Runs.run next w sched = some w') :
    (w'.phase p).candidate = (w.phase p).candidate := by
  induction sched generalizing w with
  | nil => cases h; rfl
  | cons e sched ih =>
    obtain ⟨m, hm, hrest⟩ := Runs.run_cons_eq_some h
    obtain ⟨-, phase, hstatement, hphase⟩ := next_eq_some hm
    by_cases hp : p = e.2
    · subst hp
      obtain ⟨hcand, hdue'⟩ := statement_candidate hstatement hdue
      have hmp : m.phase e.2 = phase := by rw [hphase, Function.update_self]
      rw [ih (hmp ▸ hdue') hrest, hmp, hcand]
    · have hmp : m.phase p = w.phase p := by rw [hphase, Function.update_of_ne hp]
      rw [ih (hmp ▸ hdue) hrest, hmp]

/-! ## what a schedule contains -/

/-- how many statements of an approval have been sent -/
def rank : Phase → Nat
  | .started _ => 0
  | .decided .. => 1
  | .selected .. => 2
  | .scored .. => 3
  | .finished none => 0
  | .finished (some _) => 4

def index : Statement → Nat
  | .decision => 0
  | .query => 1
  | .score => 2
  | .commitment => 3

theorem statement_rank {s s' : System} {phase phase' : Phase}
    (h : statement s phase = some (s', phase')) (hs : s.Wf) : rank phase' ≤ rank phase + 1 := by
  cases phase with
  | started op =>
    obtain ⟨d, -, -, rfl | ⟨c, byWorker, now, rfl, -⟩⟩ := storeDecision_effect hs h
    · exact Nat.zero_le _
    · exact Nat.le_refl _
  | decided c byWorker now => cases h; exact Nat.le_refl _
  | selected c votes now =>
    obtain ⟨-, -, r, -, -, -, rfl⟩ := statement_selected h
    exact Nat.le_refl _
  | scored c es now =>
    obtain ⟨-, -, -, rfl⟩ := statement_scored h
    exact Nat.le_refl _
  | finished c => cases h

theorem rank_of_due {phase : Phase} {k : Statement} (h : phase.due = some k) :
    rank phase = index k := by
  cases phase with
  | started op => cases h; rfl
  | decided c byWorker now => cases h; rfl
  | selected c votes now => cases h; rfl
  | scored c es now => cases h; rfl
  | finished c => cases h

theorem index_inj {k k' : Statement} (h : index k = index k') : k = k' := by
  cases k <;> cases k' <;> first | rfl | cases h

/-- an approval does not pass a statement it never sends -/
theorem run_rank {w w' : Race π} {sched : List (Statement × π)} {k : Statement} {p : π}
    (hw : w.system.Wf) (hmem : (k, p) ∉ sched) (hrank : rank (w.phase p) ≤ index k)
    (h : Runs.run next w sched = some w') : rank (w'.phase p) ≤ index k := by
  induction sched generalizing w with
  | nil => cases h; exact hrank
  | cons e sched ih =>
    obtain ⟨m, hm, hrest⟩ := Runs.run_cons_eq_some h
    obtain ⟨hdue, phase, hstatement, hphase⟩ := next_eq_some hm
    refine ih (statement_wf hw hstatement) (fun he => hmem (List.mem_cons_of_mem e he)) ?_ hrest
    by_cases hp : p = e.2
    · subst hp
      rw [hphase, Function.update_self]
      have hle := statement_rank hstatement hw
      have hold := rank_of_due hdue
      have hne : index e.1 ≠ index k := by
        intro heq
        exact hmem (index_inj heq ▸ List.mem_cons_self)
      omega
    · rw [hphase, Function.update_of_ne hp]
      exact hrank

/-- in a run of approvals some score is stored last, and its approval has made its query before -/
theorem exists_last_score {w w' : Race π} {sched : List (Statement × π)} {p : π} (hw : w.system.Wf)
    (hstart : ∀ p, (w.phase p).due = some .decision) (h : Runs.run next w sched = some w')
    (hend : rank (w'.phase p) = 4) : ∃ q before between after,
    sched = before ++ (.query, q) :: (between ++ (.score, q) :: after) ∧
    (.query, q) ∉ between ∧ ∀ q', (.score, q') ∉ after := by
  have hzero (q : π) : rank (w.phase q) = 0 := rank_of_due (hstart q)
  have hscore : (.score, p) ∈ sched := by
    by_contra hmem
    have hle := run_rank hw hmem ((hzero p).le.trans (Nat.zero_le _)) h
    rw [hend] at hle
    exact absurd hle (by decide)
  obtain ⟨start, e, after, rfl, he, hafter⟩ := Snapshot.exists_last
    (q := fun e : Statement × π => e.1 = Statement.score) ⟨(.score, p), hscore, rfl⟩
  obtain ⟨k, q⟩ := e
  obtain rfl : k = .score := he
  rw [Runs.run_append] at h
  obtain ⟨m, hm, hrest⟩ := Option.bind_eq_some_iff.mp h
  obtain ⟨m', hm', -⟩ := Runs.run_cons_eq_some hrest
  have hquery : (.query, q) ∈ start := by
    by_contra hmem
    have hle := run_rank hw hmem ((hzero q).le.trans (Nat.zero_le _)) hm
    rw [rank_of_due (next_eq_some hm').1] at hle
    exact absurd hle (by decide)
  obtain ⟨before, e, between, rfl, he, hbetween⟩ :=
    Snapshot.exists_last (q := fun e => e = (Statement.query, q)) ⟨_, hquery, rfl⟩
  obtain rfl := he
  refine ⟨q, before, between, after, ?_, fun hmem => hbetween _ hmem rfl,
    fun q' hmem => hafter _ hmem rfl⟩
  rw [List.append_assoc, List.cons_append]

/-! ## an interleaving as snapshots of a growing set -/

/-- the candidates of the hour that are approved -/
def facts (db : Db) (key : String × EpochStart) : Set String :=
  { id | (∃ row ∈ db.candidates.rows, row.id = id ∧ row.event.epochKey = key) ∧ db.Approved id }

/-- the candidates that the stored score of the hour counts -/
def cell (db : Db) (key : String × EpochStart) : Set String :=
  { id | ∃ r ∈ db.epochScores.rows, r.key = key ∧ r.Counts id }

/-- what a statement of an approval does to the set, the copies and the cell -/
def action (cand : π → CandidateEvent) : Statement × π → List (Snapshot.Action π String)
  | (.decision, p) => [.add (cand p).id]
  | (.query, p) => [.read p]
  | (.score, p) => [.write p]
  | (.commitment, _) => []

/-- what an approval under way knows of the set -/
def Holds (db : Db) (key : String × EpochStart) (copy : Set String) : Phase → Prop
  | .decided c _ _ => c.id ∈ facts db key
  | .selected _ votes _ => copy = { id | ∃ v ∈ votes, v.id = id }
  | _ => True

theorem Holds.mono {db db' : Db} {key : String × EpochStart} {copy : Set String} {phase : Phase}
    (hsub : facts db key ⊆ facts db' key) (h : Holds db key copy phase) :
    Holds db' key copy phase := by
  cases phase with
  | decided c byWorker now => exact hsub h
  | selected c votes now => exact h
  | started op => trivial
  | scored c es now => trivial
  | finished c => trivial

structure Simulated (key : String × EpochStart) (w : Race π) (s : Snapshot.State π String) : Prop where
  wf : w.system.Wf
  facts_eq : s.facts = facts w.system.db key
  cell_eq : s.cell = cell w.system.db key
  holds : ∀ p, Holds w.system.db key (s.copy p) (w.phase p)

theorem facts_congr {db db' : Db} (hc : db'.candidates = db.candidates)
    (hd : db'.decisions = db.decisions) (key : String × EpochStart) : facts db' key = facts db key := by
  unfold facts Db.Approved
  rw [hc, hd]

theorem cell_congr {db db' : Db} (h : db'.epochScores = db.epochScores)
    (key : String × EpochStart) : cell db' key = cell db key := by
  unfold cell
  rw [h]

/-- the decision of an approval adds its candidate -/
theorem facts_decision {s s' : System} {op : Op} {d : AgentDecision} {c : CandidateEvent}
    (h : DecisionEffect s s' op d) (happ : d.decision = .approve) (hid : d.candidateEventId = c.id)
    (hrec : s'.db.Records c) : facts s'.db c.epochKey = insert c.id (facts s.db c.epochKey) := by
  obtain ⟨row, hrow, hrowid, hkey⟩ := hrec
  ext id
  constructor
  · rintro ⟨⟨row', hrow', rfl, hkey'⟩, happroved⟩
    by_cases hne : row'.id = c.id
    · exact .inl hne
    · have hne' : row'.id ≠ d.candidateEventId := fun e => hne (e.trans hid)
      exact .inr ⟨⟨row', (h.candidates_cases hrow').resolve_right hne', rfl, hkey'⟩,
        (h.approved_of_ne hne').mp happroved⟩
  · rintro (rfl | ⟨⟨row', hrow', rfl, hkey'⟩, happroved⟩)
    · exact ⟨⟨row, hrow, hrowid, hkey⟩, d, h.puts.self, hid, happ⟩
    · refine ⟨⟨row', h.candidates_subset hrow', rfl, hkey'⟩, ?_⟩
      by_cases hne : row'.id = d.candidateEventId
      · exact ⟨d, h.puts.self, hne.symm, happ⟩
      · exact (h.approved_of_ne hne).mpr happroved

/-- the query of an approved candidate's recompute returns the set -/
theorem recomputeVotes_ids {db : Db} {c : CandidateEvent} {byWorker : Bool}
    (hc : c.id ∈ facts db c.epochKey) :
    { id | ∃ v ∈ recomputeVotes db c byWorker, v.id = id } = facts db c.epochKey := by
  have hquery (id : String) : (∃ e ∈ selectApproved db c.zoneId (floorToEpoch c.windowEnd), e.id = id) ↔
      id ∈ facts db c.epochKey := by
    constructor
    · rintro ⟨e, he, rfl⟩
      obtain ⟨⟨row, hrow, rfl⟩, hin, happ⟩ := mem_selectApproved.mp he
      exact ⟨⟨row, hrow, rfl, CandidateEvent.inEpoch_iff.mp hin⟩, happ⟩
    · rintro ⟨⟨row, hrow, rfl, hkey⟩, happ⟩
      exact ⟨row.event, mem_selectApproved.mpr
        ⟨⟨row, hrow, rfl⟩, CandidateEvent.inEpoch_iff.mpr hkey, happ⟩, rfl⟩
  have hvotes : recomputeVotes db c byWorker =
      (selectApproved db c.zoneId (floorToEpoch c.windowEnd)).map CandidateEvent.vote := by
    obtain ⟨e, he, -⟩ := (hquery c.id).mpr hc
    unfold recomputeVotes workerVotes
    dsimp only
    rw [if_pos (List.length_pos_of_mem he), ite_self]
  ext id
  rw [← hquery id, hvotes]
  constructor
  · rintro ⟨v, hv, rfl⟩
    obtain ⟨e, he, rfl⟩ := List.mem_map.mp hv
    exact ⟨e, he, rfl⟩
  · rintro ⟨e, he, rfl⟩
    exact ⟨e.vote, List.mem_map_of_mem he, rfl⟩

section
variable {key : String × EpochStart} {w w' : Race π} {s : Snapshot.State π String}
  {cand : π → CandidateEvent}

/-- one statement; `cand` are the candidates the approvals have in the end -/
theorem Simulated.next {k : Statement} {p : π} (h : Simulated key w s)
    (hkey : ∀ p, (cand p).epochKey = key) (hstep : w.next (k, p) = some w')
    (hcand : (w'.phase p).candidate = some (cand p)) :
    Simulated key w' (Snapshot.run s (action cand (k, p))) := by
  obtain ⟨hdue, phase, hstatement, hphase⟩ := next_eq_some hstep
  have hwf := statement_wf h.wf hstatement
  have hp := h.holds p
  have hself : w'.phase p = phase := by rw [hphase, Function.update_self]
  have hother {q : π} (hq : q ≠ p) : w'.phase q = w.phase q := by
    rw [hphase, Function.update_of_ne hq]
  rw [hself] at hcand
  cases hold : w.phase p with
  | started op =>
    rw [hold] at hdue hstatement
    cases hdue
    obtain ⟨d, hdec, hframe, rfl | ⟨c, byWorker, now, rfl, happ, hid, hrec⟩⟩ :=
      storeDecision_effect h.wf hstatement
    · cases hcand
    · obtain rfl : c = cand p := Option.some.inj hcand
      have hfacts : facts w'.system.db key = insert (cand p).id (facts w.system.db key) := by
        rw [← hkey p]
        exact facts_decision hdec happ hid hrec
      have hscores : w'.system.db.epochScores = w.system.db.epochScores := by rw [hframe]
      refine ⟨hwf, ?_, h.cell_eq.trans (cell_congr hscores key).symm, fun q => ?_⟩
      · rw [hfacts, ← h.facts_eq]
        rfl
      · by_cases hq : q = p
        · rw [hq, hself]
          show (cand p).id ∈ facts w'.system.db key
          rw [hfacts]
          exact .inl rfl
        · rw [hother hq]
          refine Holds.mono ?_ (h.holds q)
          rw [hfacts]
          exact Set.subset_insert _ _
  | decided c byWorker now =>
    rw [hold] at hdue hstatement hp
    cases hdue
    obtain ⟨hsystem, rfl⟩ := Prod.mk.inj (Option.some.inj hstatement)
    obtain rfl : c = cand p := Option.some.inj hcand
    refine ⟨hwf, hsystem ▸ h.facts_eq, hsystem ▸ h.cell_eq, fun q => ?_⟩
    rw [← hsystem]
    by_cases hq : q = p
    · subst hq
      rw [hself]
      show Function.update s.copy q s.facts q = _
      rw [Function.update_self, h.facts_eq, ← hkey q]
      exact (recomputeVotes_ids ((hkey q).symm ▸ hp)).symm
    · rw [hother hq]
      have hcopy : (Snapshot.run s (action cand (.query, p))).copy q = s.copy q :=
        Function.update_of_ne hq _ _
      rw [hcopy]
      exact h.holds q
  | selected c votes now =>
    rw [hold] at hdue hstatement hp
    cases hdue
    obtain ⟨hframe, -, r, hputs, hrkey, hcounted, rfl⟩ := statement_selected hstatement
    obtain rfl : c = cand p := Option.some.inj hcand
    have hc : w'.system.db.candidates = w.system.db.candidates := by rw [hframe]
    have hd : w'.system.db.decisions = w.system.db.decisions := by rw [hframe]
    have hfacts : facts w'.system.db key = facts w.system.db key := facts_congr hc hd key
    refine ⟨hwf, h.facts_eq.trans hfacts.symm, ?_, fun q => ?_⟩
    · show s.copy p = cell w'.system.db key
      rw [show s.copy p = _ from hp]
      ext id
      constructor
      · rintro ⟨v, hv, rfl⟩
        exact ⟨r, hputs.self, hrkey.trans (hkey p), v, hcounted ▸ hv, rfl⟩
      · rintro ⟨r', hr', hr'key, v, hv, rfl⟩
        rcases hputs.cases hr' with ⟨-, hne⟩ | rfl
        · exact absurd (hr'key.trans ((hkey p).symm.trans hrkey.symm)) hne
        · exact ⟨v, hcounted ▸ hv, rfl⟩
    · by_cases hq : q = p
      · rw [hq, hself]
        trivial
      · rw [hother hq]
        exact (h.holds q).mono hfacts.symm.subset
  | scored c es now =>
    rw [hold] at hdue hstatement
    cases hdue
    obtain ⟨hframe, -, -, rfl⟩ := statement_scored hstatement
    have hc : w'.system.db.candidates = w.system.db.candidates := by rw [hframe]
    have hd : w'.system.db.decisions = w.system.db.decisions := by rw [hframe]
    have hscores : w'.system.db.epochScores = w.system.db.epochScores := by rw [hframe]
    have hfacts : facts w'.system.db key = facts w.system.db key := facts_congr hc hd key
    refine ⟨hwf, h.facts_eq.trans hfacts.symm,
      h.cell_eq.trans (cell_congr hscores key).symm, fun q => ?_⟩
    by_cases hq : q = p
    · rw [hq, hself]
      trivial
    · rw [hother hq]
      exact (h.holds q).mono hfacts.symm.subset
  | finished c =>
    rw [hold] at hdue
    cases hdue

/-- **An interleaving of approvals is a run of snapshots.** -/
theorem Simulated.run {sched : List (Statement × π)} (h : Simulated key w s)
    (hkey : ∀ p, (cand p).epochKey = key) (hrun : Runs.run Race.next w sched = some w')
    (hcand : ∀ p, (w'.phase p).candidate = some (cand p)) :
    Simulated key w' (Snapshot.run s (sched.flatMap (action cand))) := by
  induction sched generalizing w s with
  | nil => cases hrun; exact h
  | cons e sched ih =>
    obtain ⟨m, hm, hrest⟩ := Runs.run_cons_eq_some hrun
    obtain ⟨-, phase, hstatement, hphase⟩ := next_eq_some hm
    have hme : m.phase e.2 = phase := by rw [hphase, Function.update_self]
    have hdue : (m.phase e.2).due ≠ some .decision := by
      rw [hme]
      exact statement_due h.wf hstatement
    rw [List.flatMap_cons, Snapshot.run_append]
    exact ih (h.next hkey hm ((run_candidate hdue hrest).symm.trans (hcand e.2))) hrest

end

omit [DecidableEq π] in
theorem mem_actions {cand : π → CandidateEvent} {sched : List (Statement × π)} {id : String} :
    .add id ∈ sched.flatMap (action cand) ↔ ∃ p, (cand p).id = id ∧ (.decision, p) ∈ sched := by
  rw [List.mem_flatMap]
  constructor
  · rintro ⟨⟨k, p⟩, he, hmem⟩
    cases k with
    | decision =>
      obtain rfl := Snapshot.Action.add.inj (List.mem_singleton.mp hmem)
      exact ⟨p, rfl, he⟩
    | query => cases List.mem_singleton.mp hmem
    | score => cases List.mem_singleton.mp hmem
    | commitment => exact absurd hmem List.not_mem_nil
  · rintro ⟨p, rfl, he⟩
    exact ⟨(.decision, p), he, List.mem_singleton_self _⟩

omit [DecidableEq π] in
theorem read_mem_actions {cand : π → CandidateEvent} {sched : List (Statement × π)} {p : π}
    (h : .read p ∈ sched.flatMap (action cand)) : (.query, p) ∈ sched := by
  obtain ⟨⟨k, q⟩, he, hmem⟩ := List.mem_flatMap.mp h
  cases k with
  | query =>
    obtain rfl := Snapshot.Action.read.inj (List.mem_singleton.mp hmem)
    exact he
  | decision => cases List.mem_singleton.mp hmem
  | score => cases List.mem_singleton.mp hmem
  | commitment => exact absurd hmem List.not_mem_nil

omit [DecidableEq π] in
theorem write_mem_actions {cand : π → CandidateEvent} {sched : List (Statement × π)} {p : π}
    (h : .write p ∈ sched.flatMap (action cand)) : (.score, p) ∈ sched := by
  obtain ⟨⟨k, q⟩, he, hmem⟩ := List.mem_flatMap.mp h
  cases k with
  | score =>
    obtain rfl := Snapshot.Action.write.inj (List.mem_singleton.mp hmem)
    exact he
  | decision => cases List.mem_singleton.mp hmem
  | query => cases List.mem_singleton.mp hmem
  | commitment => exact absurd hmem List.not_mem_nil

/-! ## the score after a race -/

theorem run_candidates {w w' : Race π} {sched : List (Statement × π)} (hw : w.system.Wf)
    (h : Runs.run next w sched = some w') {row : CandidateRow}
    (hrow : row ∈ w.system.db.candidates.rows) : row ∈ w'.system.db.candidates.rows := by
  have hinv := Runs.run_inv_all
    (fun m : Race π => m.system.Wf ∧ row ∈ m.system.db.candidates.rows) ?_ ⟨hw, hrow⟩ h
  · exact hinv.2
  · rintro m e m' ⟨hwf, hmem⟩ hm
    obtain ⟨-, phase, hstatement, -⟩ := next_eq_some hm
    refine ⟨statement_wf hwf hstatement, ?_⟩
    cases hphase : m.phase e.2 with
    | started op =>
      rw [hphase] at hstatement
      obtain ⟨d, hdec, -⟩ := storeDecision_effect hwf hstatement
      exact hdec.candidates_subset hmem
    | decided c byWorker now =>
      rw [hphase] at hstatement
      obtain ⟨hsystem, -⟩ := Prod.mk.inj (Option.some.inj hstatement)
      exact hsystem ▸ hmem
    | selected c votes now =>
      rw [hphase] at hstatement
      rw [(statement_selected hstatement).1]
      exact hmem
    | scored c es now =>
      rw [hphase] at hstatement
      rw [(statement_scored hstatement).1]
      exact hmem
    | finished c =>
      rw [hphase] at hstatement
      cases hstatement

section
variable {key : String × EpochStart} {w w' : Race π} {cand : π → CandidateEvent}
  {sched : List (Statement × π)}

omit [DecidableEq π] in
theorem Simulated.start (hw : w.system.Wf) (hstart : ∀ p, (w.phase p).due = some .decision) :
    Simulated key w ⟨facts w.system.db key, fun _ => ∅, cell w.system.db key⟩ := by
  refine ⟨hw, rfl, rfl, fun p => ?_⟩
  have hdue := hstart p
  cases hphase : w.phase p with
  | started op => trivial
  | decided c byWorker now => rw [hphase] at hdue; cases hdue
  | selected c votes now => rw [hphase] at hdue; cases hdue
  | scored c es now => trivial
  | finished c => trivial

/-- what the stored score counts after a race, from the order of its statements -/
theorem mem_cell_of_split (hw : w.system.Wf) (hstart : ∀ p, (w.phase p).due = some .decision)
    (hrun : Runs.run next w sched = some w') (hend : ∀ p, w'.phase p = .finished (some (cand p)))
    (hkey : ∀ p, (cand p).epochKey = key) {p : π} {before between after : List (Statement × π)}
    (hsplit : sched = before ++ (.query, p) :: (between ++ (.score, p) :: after))
    (hquery : (.query, p) ∉ between) (hscore : ∀ q, (.score, q) ∉ after) (q : π) :
    (cand q).id ∈ cell w'.system.db key ↔ w.system.db.Approved (cand q).id ∨
      ∃ q', (cand q').id = (cand q).id ∧ (.decision, q') ∈ before := by
  have hcand (p : π) : (w'.phase p).candidate = some (cand p) := by
    rw [hend p]
    rfl
  have hbegin : Simulated key w ⟨facts w.system.db key, fun _ => ∅, cell w.system.db key⟩ :=
    Simulated.start hw hstart
  have hsim := hbegin.run hkey hrun hcand
  have hdecision : (.decision, q) ∈ sched := by
    by_contra hmem
    have hle := run_rank hw hmem (rank_of_due (hstart q)).le hrun
    rw [hend q] at hle
    exact absurd hle (Nat.not_succ_le_zero 3)
  -- a recorded candidate with the id of `cand q` is one of the hour
  have hfacts : (cand q).id ∈ facts w.system.db key ↔ w.system.db.Approved (cand q).id := by
    refine ⟨And.right, fun happ => ⟨?_, happ⟩⟩
    obtain ⟨d, hd, hid, -⟩ := happ
    obtain ⟨row, hrow, hrowid⟩ := hw.decisions d hd
    have hmem : (cand q).id ∈ facts w'.system.db key := by
      rw [← hsim.facts_eq, Snapshot.mem_facts_run, mem_actions]
      exact .inr ⟨q, rfl, hdecision⟩
    obtain ⟨⟨row', hrow', hid', hkey'⟩, -⟩ := hmem
    obtain rfl := Table.eq_of_id (run_candidates hw hrun hrow) hrow'
      (hrowid.trans (hid.trans hid'.symm))
    exact ⟨row, hrow, hid', hkey'⟩
  have hactions : sched.flatMap (action cand) = before.flatMap (action cand) ++
      .read p :: (between.flatMap (action cand) ++ .write p :: after.flatMap (action cand)) := by
    rw [hsplit, List.flatMap_append, List.flatMap_cons, List.flatMap_append, List.flatMap_cons]
    rfl
  rw [← hsim.cell_eq, hactions, Snapshot.mem_cell_run (fun h => hquery (read_mem_actions h))
    fun q h => hscore q (write_mem_actions h), mem_actions]
  exact or_congr_left hfacts

/-- **After any interleaving of approvals of one hour, the stored score covers every candidate they
approved iff the approval that stored its score last made its query after each candidate had been
approved.** -/
theorem covers_iff [Nonempty π] (hw : w.system.Wf)
    (hstart : ∀ p, (w.phase p).due = some .decision) (hrun : Runs.run next w sched = some w')
    (hend : ∀ p, w'.phase p = .finished (some (cand p))) (hkey : ∀ p, (cand p).epochKey = key) :
    (∃ r ∈ w'.system.db.epochScores.rows, r.key = key ∧ ∀ q, r.Counts (cand q).id) ↔
    ∃ p before between after, sched = before ++ (.query, p) :: (between ++ (.score, p) :: after) ∧
      (.query, p) ∉ between ∧ (∀ q, (.score, q) ∉ after) ∧
      ∀ q, w.system.db.Approved (cand q).id ∨
        ∃ q', (cand q').id = (cand q).id ∧ (.decision, q') ∈ before := by
  obtain ⟨p₀⟩ := ‹Nonempty π›
  have hcell : (∃ r ∈ w'.system.db.epochScores.rows, r.key = key ∧ ∀ q, r.Counts (cand q).id) ↔
      ∀ q, (cand q).id ∈ cell w'.system.db key := by
    constructor
    · rintro ⟨r, hr, hrkey, hall⟩ q
      exact ⟨r, hr, hrkey, hall q⟩
    · intro hall
      obtain ⟨r, hr, hrkey, -⟩ := hall p₀
      refine ⟨r, hr, hrkey, fun q => ?_⟩
      obtain ⟨r', hr', hrkey', hcounts⟩ := hall q
      exact Table.eq_of_key hr' hr (hrkey'.trans hrkey.symm) ▸ hcounts
  rw [hcell]
  constructor
  · intro hall
    obtain ⟨p, before, between, after, hsplit, hquery, hscore⟩ :=
      exists_last_score hw hstart hrun (p := p₀) (by rw [hend p₀]; rfl)
    refine ⟨p, before, between, after, hsplit, hquery, hscore, fun q => ?_⟩
    exact (mem_cell_of_split hw hstart hrun hend hkey hsplit hquery hscore q).mp (hall q)
  · rintro ⟨p, before, between, after, hsplit, hquery, hscore, hall⟩ q
    exact (mem_cell_of_split hw hstart hrun hend hkey hsplit hquery hscore q).mpr (hall q)

end

theorem finished_of_due {phase : Phase} (h : phase.due = none) :
    phase = .finished phase.candidate := by
  cases phase with
  | finished c => rfl
  | started op => cases h
  | decided c byWorker now => cases h
  | selected c votes now => cases h
  | scored c es now => cases h

/-- two candidates of an hour that the policy gate approves -/
def raceRow (first : Bool) : CandidateRow :=
  if first then sampleRow "c1" .restored (9 / 10) else sampleRow "c2" .outage (9 / 10)

def raceStart : Race Bool where
  system := .empty
  phase first := .started (.ingest (raceRow first) none (raceRow first).id sampleTime)

/-- one after the other -/
def serial : List (Statement × Bool) :=
  [(.decision, true), (.query, true), (.score, true), (.commitment, true),
   (.decision, false), (.query, false), (.score, false), (.commitment, false)]

/-- the first stores its score last, and made its query before the other's decision -/
def stale : List (Statement × Bool) :=
  [(.decision, true), (.query, true), (.decision, false), (.query, false),
   (.score, false), (.score, true), (.commitment, false), (.commitment, true)]

theorem covers_iff_serial : ∃ w', Runs.run next raceStart serial = some w' ∧
    ∃ r ∈ w'.system.db.epochScores.rows, r.key = (raceRow true).event.epochKey ∧
      ∀ q, r.Counts (raceRow q).event.id := by
  have h : (Runs.run next raceStart serial).any (fun w' => decide (∀ q, (w'.phase q).due = none ∧
      (w'.phase q).candidate = some (raceRow q).event)) = true := by
    decide +kernel
  obtain ⟨w', hrun, h⟩ := (Option.any_eq_true _ _).mp h
  have hall := of_decide_eq_true h
  have hend (q : Bool) : w'.phase q = .finished (some (raceRow q).event) := by
    rw [finished_of_due (hall q).1, (hall q).2]
  have hkey : ∀ q, (raceRow q).event.epochKey = (raceRow true).event.epochKey := by decide +kernel
  refine ⟨w', hrun, (covers_iff System.empty_wf (fun q => rfl) hrun hend hkey).mpr ?_⟩
  refine ⟨false, [(.decision, true), (.query, true), (.score, true), (.commitment, true),
    (.decision, false)], [], [(.commitment, false)], rfl, by decide, by decide, fun q => .inr ⟨q, rfl, ?_⟩⟩
  cases q <;> decide

/-- the score stored last counts only the first candidate -/
theorem approval_lost : ∃ w', Runs.run next raceStart stale = some w' ∧
    (∀ q, (w'.phase q).candidate = some (raceRow q).event ∧ (w'.phase q).due = none) ∧
    w'.system.db.Approved "c2" ∧ (∃ r ∈ w'.system.db.epochScores.rows,
      r.key = (raceRow true).event.epochKey ∧ r.uptimeBps = 10000 ∧ ¬ r.Counts "c2") := by
  have h : (Runs.run next raceStart stale).any (fun w' => decide (
      (∀ q, (w'.phase q).candidate = some (raceRow q).event ∧ (w'.phase q).due = none) ∧
      w'.system.db.Approved "c2" ∧ (∃ r ∈ w'.system.db.epochScores.rows,
        r.key = (raceRow true).event.epochKey ∧ r.uptimeBps = 10000 ∧ ¬ r.Counts "c2"))) = true := by
    decide +kernel
  obtain ⟨w', hrun, h⟩ := (Option.any_eq_true _ _).mp h
  exact ⟨w', hrun, of_decide_eq_true h⟩

end Race

end Pipeline
