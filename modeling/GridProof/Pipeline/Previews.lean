import GridProof.Lib.Recount
import GridProof.Lib.Runs
import GridProof.Pipeline.Recompute

/-!
# Candidates of preview simulations

A simulation whose chain writes are off records a candidate and its decision and stores no score.  The
flag travels with the call and the job only: a later approval in the same hour counts whatever is approved.

* `Traced`, `MemoryTraced`   a store with the candidates that previews recorded; in memory also with the votes
                             each score was computed from;
* `Traced.Leaks`             an approval that stores a score of an hour in which a preview's candidate is approved;
* `previews_never_counted_iff`   no score of a run ever counts a preview's candidate iff no operation leaks.

A commitment refers to its score and counts what the score counts.
-/

namespace Pipeline

/-! ## the candidates of previews -/

/-- the candidate that a preview simulation records -/
def Op.previewed : Op → Option String
  | .ingest row simulation _ _ => if previewOnly simulation then some row.id else none
  | .deliver .. => none
  | .review .. => none

/-- the candidates counted in the score of an hour -/
def countedIn (scores : EpochScores) (key : String × EpochStart) : Set String :=
  {id | ∃ r ∈ scores.rows, r.key = key ∧ r.Counts id}

theorem countedIn_puts {scores scores' : EpochScores} {r : ScoreRow} (h : scores.Puts scores' r) :
    countedIn scores' r.key = {id | r.Counts id} ∧
      ∀ key, key ≠ r.key → countedIn scores' key = countedIn scores key := by
  constructor
  · ext id
    constructor
    · rintro ⟨r', hr', hkey, hcounts⟩
      exact Table.eq_of_key hr' h.self hkey ▸ hcounts
    · exact fun hcounts => ⟨r, h.self, rfl, hcounts⟩
  · intro key hne
    ext id
    refine exists_congr fun r' => ⟨?_, ?_⟩
    · rintro ⟨hr', rfl, hcounts⟩
      rcases h.cases hr' with ⟨hold, -⟩ | rfl
      · exact ⟨hold, rfl, hcounts⟩
      · exact absurd rfl hne
    · rintro ⟨hr', rfl, hcounts⟩
      exact ⟨h.of_ne hr' hne, rfl, hcounts⟩

structure Traced where
  system : System
  previews : List String

namespace Traced

def empty : Traced := ⟨.empty, []⟩

def next (t : Traced) (op : Op) : Option Traced :=
  (Pipeline.next t.system op).map fun system => ⟨system, op.previewed.toList ++ t.previews⟩

/-- no stored score counts a candidate of a preview -/
def NoPreviewCounted (t : Traced) : Prop :=
  ∀ r ∈ t.system.db.epochScores.rows, ∀ id ∈ t.previews, ¬ r.Counts id

instance (t : Traced) : Decidable t.NoPreviewCounted :=
  inferInstanceAs (Decidable (∀ r ∈ t.system.db.epochScores.rows, _))

/-- the operation stores the score of an hour with a preview's candidate that is approved, or that it approves -/
def Leaks (t : Traced) (op : Op) : Prop :=
  op.preview = false ∧ ∃ x ∈ op.target t.system, x.verdict = .approve ∧
    ∃ row ∈ t.system.db.candidates.rows, row.id ∈ t.previews ∧
      row.event.epochKey = x.candidate.epochKey ∧
      (row.id = x.candidate.id ∨ t.system.db.Approved row.id)

instance (t : Traced) (op : Op) : Decidable (t.Leaks op) := inferInstanceAs (Decidable (_ ∧ _))

/-- candidates by hour, those of previews marked -/
def board (t : Traced) : Recount.Board String (String × EpochStart) where
  group id := (t.system.db.candidates.get? id).map fun row => row.event.epochKey
  approved := {id | t.system.db.Approved id}
  marked := {id | id ∈ t.previews}
  counted := countedIn t.system.db.epochScores

variable {t t' : Traced} {op : Op}

theorem board_clean : t.board.Clean ↔ t.NoPreviewCounted := by
  constructor
  · intro h r hr id hid hcounts
    exact h r.key id ⟨r, hr, rfl, hcounts⟩ hid
  · rintro h key id ⟨r, hr, -, hcounts⟩ hid
    exact h r hr id hid hcounts

theorem board_group {id : String} {key : String × EpochStart} : t.board.group id = some key ↔
    ∃ row ∈ t.system.db.candidates.rows, row.id = id ∧ row.event.epochKey = key := by
  show Option.map _ _ = _ ↔ _
  rw [Option.map_eq_some_iff]
  simp only [Table.get?_eq_some, and_assoc]

/-- what an operation that leaks does, on the board -/
theorem leaks_iff {x : Target} (hx : op.target t.system = some x) : t.Leaks op ↔
    (x.verdict = .approve ∧ op.preview = false) ∧ t.board.Leaks x.candidate.id x.candidate.epochKey := by
  constructor
  · rintro ⟨hpre, y, hy, happ, row, hrow, hid, hkey, hor⟩
    obtain rfl := Option.some.inj (hx.symm.trans hy)
    exact ⟨⟨happ, hpre⟩, row.id, hid, board_group.mpr ⟨row, hrow, rfl, hkey⟩, hor⟩
  · rintro ⟨⟨happ, hpre⟩, id, hid, hgroup, hor⟩
    obtain ⟨row, hrow, rfl, hkey⟩ := board_group.mp hgroup
    exact ⟨hpre, x, hx, happ, row, hrow, hid, hkey, hor⟩

/-- a preview stores no score, and its candidate is new -/
theorem previewed_new {id : String} (hid : op.previewed = some id) {s' : System}
    (h : Pipeline.next t.system op = some s') : op.preview = true ∧
    (∃ x, op.target t.system = some x ∧ x.candidate.id = id) ∧ t.board.group id = none := by
  cases op with
  | ingest row simulation decisionId now =>
    unfold Op.previewed at hid
    dsimp only at hid
    split at hid
    · rename_i hpre
      obtain rfl := Option.some.inj hid
      refine ⟨hpre, ⟨_, rfl, rfl⟩, ?_⟩
      obtain ⟨⟨_, res⟩, hstep, rfl⟩ := Option.map_eq_some_iff.mp h
      obtain ⟨candidates, hins, -⟩ := Option.bind_eq_some_iff.mp hstep
      obtain ⟨-, hfree, -⟩ := Table.insert_eq_some hins
      cases hg : t.board.group row.id with
      | none => rfl
      | some key =>
        obtain ⟨old, hold, he, -⟩ := board_group.mp hg
        exact absurd he (hfree old hold)
    · cases hid
  | deliver job result decisionId now => cases hid
  | review decisionId reviewDecision note now => cases hid

/-- an operation is one decision on the board -/
theorem next_board (hs : t.system.Wf) (h : t.next op = some t') :
    ∃ x, op.target t.system = some x ∧
      Recount.Board.Step t.board t'.board x.candidate.id x.candidate.epochKey
        (op.previewed = some x.candidate.id) (x.verdict = .approve ∧ op.preview = false) := by
  obtain ⟨s', hnext, rfl⟩ := Option.map_eq_some_iff.mp h
  obtain ⟨res, d, -, heff⟩ := next_effect hs hnext
  generalize res.epochScore = score at heff
  obtain ⟨row, hrow, hid, htarget⟩ := heff.target
  have hid' : row.event.id = d.candidateEventId := hid
  refine ⟨_, htarget, ?_, ?_, ?_, ?_, ?_, ?_, ?_, ?_, ?_⟩
  · exact board_group.mpr ⟨row, hrow, rfl, rfl⟩
  · intro id hne
    refine Option.ext fun key => ?_
    rw [board_group, board_group]
    refine exists_congr fun r => ⟨?_, ?_⟩
    · rintro ⟨hr, rfl, hkey⟩
      exact ⟨(heff.candidates_cases hr).resolve_right fun e => hne (e.trans hid'.symm), rfl, hkey⟩
    · rintro ⟨hr, hrid, hkey⟩
      exact ⟨heff.candidates_subset hr, hrid, hkey⟩
  · intro hsome
    obtain ⟨key, hkey⟩ := Option.ne_none_iff_exists'.mp hsome
    obtain ⟨old, hold, he, rfl⟩ := board_group.mp hkey
    rw [hkey, Table.eq_of_id (heff.candidates_subset hold) hrow he]
  · rintro ⟨happ, -⟩
    exact ⟨d, heff.puts.self, hid'.symm, happ⟩
  · exact fun id hne => heff.approved_of_ne fun e => hne (e.trans hid'.symm)
  · intro id
    show id ∈ op.previewed.toList ++ t.previews ↔ _
    rw [List.mem_append, or_comm, Option.mem_toList]
    refine or_congr_right ⟨fun he => ?_, fun ⟨he, hid⟩ => hid ▸ he⟩
    obtain ⟨-, ⟨x, hx, hxid⟩, -⟩ := previewed_new he hnext
    obtain rfl := Option.some.inj (hx.symm.trans htarget)
    exact ⟨hxid ▸ he, hxid.symm⟩
  · intro he
    obtain ⟨hpre, -, hgroup⟩ := previewed_new he hnext
    exact ⟨hgroup, fun hno => Bool.false_ne_true (hno.2.symm.trans hpre)⟩
  · intro hno
    cases heff.score with
    | none hscores hwhy => exact congrArg countedIn hscores
    | stored c r happ hpre hc hid hputs hkey hcounted => exact absurd ⟨happ, hpre⟩ hno
  · rintro ⟨happ, hpre⟩
    cases heff.score with
    | none hscores hwhy =>
      rw [hpre] at hwhy
      exact absurd (hwhy happ) Bool.false_ne_true
    | stored c r _ _ hc hcid hputs hkey hcounted =>
      obtain rfl := Table.eq_of_id hc hrow (hcid.trans hid.symm)
      obtain ⟨hself, hother⟩ := countedIn_puts hputs
      refine ⟨?_, fun key hne => hother key (hkey ▸ hne)⟩
      show countedIn s'.db.epochScores c.event.epochKey = _
      rw [← hkey, hself]
      ext id
      constructor
      · intro hcounts
        obtain ⟨hid, row, hrow, hrowid, hrowkey⟩ := hcounts.approved hcounted
        exact ⟨board_group.mpr ⟨row, hrow, hrowid, hrowkey⟩, hid⟩
      · rintro ⟨hgroup, hid⟩
        obtain ⟨row, hrow, rfl, hrowkey⟩ := board_group.mp hgroup
        exact r.counts_of_approved hcounted hrow hrowkey hid

/-- only recorded candidates are marked or counted -/
structure Inv (t : Traced) : Prop where
  wf : t.system.Wf
  grouped : t.board.Grouped

theorem empty_inv : empty.Inv :=
  ⟨System.empty_wf, ⟨fun _ h => absurd h List.not_mem_nil, fun _ _ ⟨_, h, _⟩ => absurd h List.not_mem_nil⟩⟩

theorem next_inv (ht : t.Inv) (h : t.next op = some t') : t'.Inv := by
  obtain ⟨x, -, hboard⟩ := next_board ht.wf h
  obtain ⟨s', hnext, rfl⟩ := Option.map_eq_some_iff.mp h
  exact ⟨next_wf ht.wf hnext, hboard.grouped ht.grouped⟩

/-- an operation keeps previews out of the scores iff it does not leak -/
theorem next_noPreviewCounted (ht : t.Inv) (hno : t.NoPreviewCounted) (h : t.next op = some t') :
    ¬ t.Leaks op ↔ t'.NoPreviewCounted := by
  obtain ⟨x, hx, hboard⟩ := next_board ht.wf h
  rw [leaks_iff hx, ← board_clean]
  exact hboard.clean_iff ht.grouped (board_clean.mpr hno)

end Traced

/-! ## the in-memory store -/

/-- the candidate that a preview simulation records -/
def MemoryOp.previewed : MemoryOp → Option String
  | .ingest _ candidate simulation _ _ => if previewOnly simulation then some candidate.id else none
  | .review .. => none

structure MemoryTraced where
  memory : Memory
  previews : List String
  /-- the votes of the last score that was computed for an hour -/
  countedByKey : OrderedMap (String × EpochStart) (List Vote)

namespace MemoryTraced

def empty : MemoryTraced := ⟨.empty, [], .empty⟩

/-- no stored score counts a candidate of a preview -/
def NoPreviewCounted (t : MemoryTraced) : Prop :=
  ∀ key es, t.memory.memoryEpochScoresByKey.get? key = some es →
    ∃ votes, t.countedByKey.get? key = some votes ∧
      es = epochScoreForApprovedCandidates key.1 key.2 votes ∧ ∀ v ∈ votes, v.id ∉ t.previews

/-- as `Traced.Leaks` -/
def Leaks (t : MemoryTraced) (op : MemoryOp) : Prop :=
  op.preview = false ∧ ∃ x ∈ op.target t.memory, x.verdict = .approve ∧
    ∃ c ∈ t.memory.memoryCandidatesById.values, c.id ∈ t.previews ∧
      c.epochKey = x.candidate.epochKey ∧ (c.id = x.candidate.id ∨ t.memory.approved c.id)

instance (t : MemoryTraced) (op : MemoryOp) : Decidable (t.Leaks op) :=
  inferInstanceAs (Decidable (_ ∧ _))

/-- candidates by hour, those of previews marked -/
def board (t : MemoryTraced) : Recount.Board String (String × EpochStart) where
  group id := (t.memory.memoryCandidatesById.get? id).map CandidateEvent.epochKey
  approved := {id | t.memory.approved id}
  marked := {id | id ∈ t.previews}
  counted key := {id | ∃ votes, t.countedByKey.get? key = some votes ∧ ∃ v ∈ votes, v.id = id}

section
variable (localeCompare : String → String → Int)

/-- the votes that `op` counted, if it returned a score -/
def counted (m' : Memory) (es : EpochScore) : List Vote :=
  (m'.approvedCandidates localeCompare es.zoneId es.epochStart).map CandidateEvent.vote

def next (t : MemoryTraced) (op : MemoryOp) : Option MemoryTraced :=
  (op.step localeCompare t.memory).map fun (memory, res) =>
    { memory := memory
      previews := op.previewed.toList ++ t.previews
      countedByKey :=
        match res.epochScore with
        | none => t.countedByKey
        | some es => t.countedByKey.set (es.zoneId, es.epochStart) (counted localeCompare memory es) }

end

/-- every candidate is recorded under its id, every score is that of the votes that were counted, and only
recorded candidates are marked or counted -/
structure Inv (t : MemoryTraced) : Prop where
  wf : t.memory.Wf
  scores : ∀ key, t.memory.memoryEpochScoresByKey.get? key =
    (t.countedByKey.get? key).map (epochScoreForApprovedCandidates key.1 key.2)
  grouped : t.board.Grouped

theorem empty_inv : empty.Inv :=
  ⟨Memory.empty_wf, fun _ => rfl, ⟨fun _ h => absurd h List.not_mem_nil, fun _ _ ⟨_, h, _⟩ => nomatch h⟩⟩

variable {localeCompare : String → String → Int} {t t' : MemoryTraced} {op : MemoryOp}

theorem board_clean (ht : t.Inv) : t.board.Clean ↔ t.NoPreviewCounted := by
  constructor
  · intro h key es hes
    rw [ht.scores] at hes
    obtain ⟨votes, hvotes, rfl⟩ := Option.map_eq_some_iff.mp hes
    exact ⟨votes, hvotes, rfl, fun v hv => h key v.id ⟨votes, hvotes, v, hv, rfl⟩⟩
  · rintro h key id ⟨votes, hvotes, v, hv, rfl⟩
    have hes := (ht.scores key).trans (congrArg (Option.map _) hvotes)
    obtain ⟨votes', hvotes', -, hno⟩ := h key _ hes
    obtain rfl := Option.some.inj (hvotes.symm.trans hvotes')
    exact hno v hv

theorem board_group (ht : t.memory.Wf) {id : String} {key : String × EpochStart} :
    t.board.group id = some key ↔
      ∃ c ∈ t.memory.memoryCandidatesById.values, c.id = id ∧ c.epochKey = key := by
  show Option.map _ _ = _ ↔ _
  rw [Option.map_eq_some_iff]
  refine exists_congr fun c => ?_
  rw [← and_assoc]
  refine and_congr_left fun _ => ⟨fun hc => ?_, ?_⟩
  · exact ⟨OrderedMap.mem_values.mpr ⟨id, hc⟩, (ht.recorded id c hc).1⟩
  · rintro ⟨hc, rfl⟩
    obtain ⟨id, hid⟩ := OrderedMap.mem_values.mp hc
    rw [(ht.recorded id c hid).1]
    exact hid

theorem leaks_iff (ht : t.memory.Wf) {x : Target} (hx : op.target t.memory = some x) : t.Leaks op ↔
    (x.verdict = .approve ∧ op.preview = false) ∧ t.board.Leaks x.candidate.id x.candidate.epochKey := by
  constructor
  · rintro ⟨hpre, y, hy, happ, c, hc, hid, hkey, hor⟩
    obtain rfl := Option.some.inj (hx.symm.trans hy)
    exact ⟨⟨happ, hpre⟩, c.id, hid, (board_group ht).mpr ⟨c, hc, rfl, hkey⟩, hor⟩
  · rintro ⟨⟨happ, hpre⟩, id, hid, hgroup, hor⟩
    obtain ⟨c, hc, rfl, hkey⟩ := (board_group ht).mp hgroup
    exact ⟨hpre, x, hx, happ, c, hc, hid, hkey, hor⟩

/-- a preview stores no score, and its candidate is new -/
theorem previewed_new (ht : t.memory.Wf) {id : String} (hid : op.previewed = some id)
    {r : Memory × PipelineResult} (h : op.step localeCompare t.memory = some r) :
    op.preview = true ∧ (∃ x, op.target t.memory = some x ∧ x.candidate.id = id) ∧
      t.board.group id = none := by
  cases op with
  | ingest key c simulation decisionId now =>
    unfold MemoryOp.previewed at hid
    dsimp only at hid
    split at hid
    · rename_i hpre
      obtain rfl := Option.some.inj hid
      refine ⟨hpre, ⟨_, rfl, rfl⟩, ?_⟩
      unfold MemoryOp.step at h
      dsimp only at h
      split at h
      · rename_i hfree
        cases hg : t.board.group c.id with
        | none => rfl
        | some key =>
          obtain ⟨c', hc', he, -⟩ := (board_group ht).mp hg
          obtain ⟨id, hid⟩ := OrderedMap.mem_values.mp hc'
          exact absurd (he ▸ List.mem_map_of_mem (ht.recorded id c' hid).2) hfree.2
      · cases h
    · cases hid
  | review decisionId reviewDecision note now => cases hid

theorem mem_approvedCandidates {m : Memory} {zoneId : String} {epochStart : EpochStart}
    {c : CandidateEvent} : c ∈ m.approvedCandidates localeCompare zoneId epochStart ↔
    c ∈ m.memoryCandidatesById.values ∧ c.epochKey = (zoneId, epochStart) ∧ m.approved c.id := by
  unfold Memory.approvedCandidates
  rw [List.mem_insertionSort, List.mem_filter, Bool.and_eq_true, Bool.and_eq_true, decide_eq_true_iff,
    EpochStart.containsTime_iff]
  show _ ↔ _ ∧ (c.zoneId, floorToEpoch c.windowEnd) = _ ∧ _
  rw [Prod.mk.injEq]
  refine and_congr_right fun _ => ?_
  rw [and_right_comm]

/-- the candidate of an operation is recorded after it, and was not another one before -/
theorem recorded {m m' : Memory} {c : CandidateEvent} (hm : m.Wf) (h : MemoryOp.CandidateEffect m m' c) :
    (∀ id, m'.memoryCandidatesById.get? id =
      if id = c.id then some c else m.memoryCandidatesById.get? id) ∧
    (m.memoryCandidatesById.get? c.id ≠ none → m.memoryCandidatesById.get? c.id = some c) := by
  cases h with
  | old hget hbyId hbyKey =>
    refine ⟨fun id => ?_, fun _ => hget⟩
    rw [hbyId]
    split
    · rename_i he
      rw [he, hget]
    · rfl
  | new key hfree hid hbyId hbyKey =>
    refine ⟨fun id => ?_, fun hsome => ?_⟩
    · rw [hbyId, OrderedMap.get?_set]
    · obtain ⟨c', hc'⟩ := Option.ne_none_iff_exists'.mp hsome
      obtain ⟨he, hmem⟩ := hm.recorded c.id c' hc'
      exact absurd he (hid c' hmem)

/-- the maps after an operation that decided on `c` -/
structure Next (localeCompare : String → String → Int) (t t' : MemoryTraced) (op : MemoryOp)
    (c : CandidateEvent) (d : AgentDecision) : Prop where
  effect : MemoryOp.Effect localeCompare t.memory t'.memory op c d
  previews : t'.previews = op.previewed.toList ++ t.previews
  counted : t'.countedByKey = if d.decision = .approve ∧ op.preview = false then
    t.countedByKey.set c.epochKey ((t'.memory.approvedCandidates localeCompare c.zoneId
      (floorToEpoch c.windowEnd)).map CandidateEvent.vote) else t.countedByKey

theorem next_eq_some (ht : t.memory.Wf) (h : t.next localeCompare op = some t') :
    ∃ c d, Next localeCompare t t' op c d := by
  obtain ⟨⟨m', res⟩, hstep, rfl⟩ := Option.map_eq_some_iff.mp h
  obtain ⟨c, d, heff, hres⟩ := MemoryOp.step_effect ht hstep
  refine ⟨c, d, heff, rfl, ?_⟩
  unfold MemoryOp.Returns at hres
  dsimp only
  by_cases hyes : d.decision = .approve ∧ op.preview = false
  · rw [hres, if_pos hyes, if_pos hyes]
    rfl
  · rw [hres, if_neg hyes, if_neg hyes]

variable {c : CandidateEvent} {d : AgentDecision}

/-- what was counted for a score is what the score was computed from -/
theorem Next.scores (ht : t.Inv) (h : Next localeCompare t t' op c d) (key : String × EpochStart) :
    t'.memory.memoryEpochScoresByKey.get? key =
      (t'.countedByKey.get? key).map (epochScoreForApprovedCandidates key.1 key.2) := by
  rw [h.counted]
  rcases h.effect.scores with ⟨hscores, hwhy⟩ | ⟨happ, hpre, hscores⟩
  · rw [hscores, if_neg, ht.scores]
    exact fun hno => Bool.false_ne_true (hno.2.symm.trans (hwhy hno.1))
  · rw [hscores, if_pos ⟨happ, hpre⟩, OrderedMap.get?_set, OrderedMap.get?_set]
    split
    · rename_i he
      subst he
      rfl
    · exact ht.scores key

/-- an operation is one decision on the board -/
theorem Next.board (ht : t.Inv) (h : Next localeCompare t t' op c d)
    (hnew : ∀ id, op.previewed = some id → op.preview = true ∧ c.id = id ∧ t.board.group id = none) :
    Recount.Board.Step t.board t'.board c.id c.epochKey (op.previewed = some c.id)
      (d.decision = .approve ∧ op.preview = false) := by
  obtain ⟨hget, hold⟩ := recorded ht.wf h.effect.candidates
  have hgroup : ∀ id, t'.board.group id =
      if id = c.id then some c.epochKey else t.board.group id := by
    intro id
    show Option.map _ _ = _
    rw [hget]
    split
    · rfl
    · rfl
  refine ⟨?_, ?_, ?_, ?_, ?_, ?_, ?_, ?_, ?_⟩
  · rw [hgroup, if_pos rfl]
  · exact fun id hne => (hgroup id).trans (if_neg hne)
  · intro hsome
    have hne : t.memory.memoryCandidatesById.get? c.id ≠ none := by
      intro hno
      exact hsome (congrArg (Option.map _) hno)
    exact congrArg (Option.map CandidateEvent.epochKey) (hold hne)
  · rintro ⟨happ, -⟩
    show t'.memory.approved c.id = true
    rw [h.effect.approved_self]
    exact decide_eq_true happ
  · intro id hne
    show t'.memory.approved id = true ↔ t.memory.approved id = true
    rw [h.effect.approved_of_ne hne]
  · intro id
    show id ∈ t'.previews ↔ _
    rw [h.previews, List.mem_append, or_comm, Option.mem_toList]
    refine or_congr_right ⟨fun he => ?_, fun h => h.2 ▸ h.1⟩
    obtain ⟨-, hid, -⟩ := hnew id he
    exact ⟨hid ▸ he, hid.symm⟩
  · intro he
    obtain ⟨hpre, -, hnone⟩ := hnew c.id he
    exact ⟨hnone, fun hno => Bool.false_ne_true (hno.2.symm.trans hpre)⟩
  · intro hno
    have hcounted := h.counted.trans (if_neg hno)
    funext key
    ext id
    show (∃ votes, t'.countedByKey.get? key = some votes ∧ _) ↔ _
    rw [hcounted]
    rfl
  · intro hyes
    have hcounted := h.counted.trans (if_pos hyes)
    refine ⟨?_, fun key hne => ?_⟩
    · ext id
      show (∃ votes, t'.countedByKey.get? c.epochKey = some votes ∧ _) ↔ _
      rw [hcounted, OrderedMap.get?_set_self]
      constructor
      · rintro ⟨votes, hvotes, v, hv, rfl⟩
        obtain rfl := Option.some.inj hvotes
        obtain ⟨c', hc', rfl⟩ := List.mem_map.mp hv
        obtain ⟨hmem, hkey, happ⟩ := mem_approvedCandidates.mp hc'
        exact ⟨(board_group (h.effect.wf ht.wf)).mpr ⟨c', hmem, rfl, hkey⟩, happ⟩
      · rintro ⟨hid, happ⟩
        obtain ⟨c', hmem, rfl, hkey⟩ := (board_group (h.effect.wf ht.wf)).mp hid
        exact ⟨_, rfl, c'.vote, List.mem_map_of_mem (mem_approvedCandidates.mpr ⟨hmem, hkey, happ⟩), rfl⟩
    · ext id
      show (∃ votes, t'.countedByKey.get? key = some votes ∧ _) ↔ _
      rw [hcounted, OrderedMap.get?_set_of_ne hne]
      rfl

/-- an operation keeps previews out of the scores iff it does not leak -/
theorem next_step (ht : t.Inv) (h : t.next localeCompare op = some t') :
    t'.Inv ∧ (t.NoPreviewCounted → (¬ t.Leaks op ↔ t'.NoPreviewCounted)) := by
  obtain ⟨c, d, hnext⟩ := next_eq_some ht.wf h
  obtain ⟨r, hstep, -⟩ := Option.map_eq_some_iff.mp h
  have hboard := hnext.board ht fun id hid => by
    obtain ⟨hpre, ⟨x, hx, hxid⟩, hnone⟩ := previewed_new ht.wf hid hstep
    obtain rfl := Option.some.inj (hx.symm.trans hnext.effect.target)
    exact ⟨hpre, hxid, hnone⟩
  have hinv : t'.Inv := ⟨hnext.effect.wf ht.wf, hnext.scores ht, hboard.grouped ht.grouped⟩
  refine ⟨hinv, fun hno => ?_⟩
  rw [leaks_iff ht.wf hnext.effect.target, ← board_clean hinv]
  exact hboard.clean_iff ht.grouped ((board_clean ht).mpr hno)

end MemoryTraced

/-! ## runs -/

section
variable {localeCompare : String → String → Int}

/-- **In every state of a run no stored score counts a preview's candidate iff no operation of the run stores
the score of an hour with a preview's candidate that is approved, in memory and in the database.** -/
theorem previews_never_counted_iff {memoryOps : List MemoryOp} {m : MemoryTraced} {ops : List Op}
    {s : Traced} (hm : Runs.run (MemoryTraced.next localeCompare) .empty memoryOps = some m)
    (hs : Runs.run Traced.next .empty ops = some s) :
    ((∀ before after t, memoryOps = before ++ after →
        Runs.run (MemoryTraced.next localeCompare) .empty before = some t → t.NoPreviewCounted) ↔
      Runs.Along (MemoryTraced.next localeCompare) (fun t op => ¬ t.Leaks op) .empty memoryOps) ∧
    ((∀ before after t, ops = before ++ after →
        Runs.run Traced.next .empty before = some t → t.NoPreviewCounted) ↔
      Runs.Along Traced.next (fun t op => ¬ t.Leaks op) .empty ops) := by
  constructor
  · refine (Runs.along_iff_reached MemoryTraced.Inv ?_ ?_ MemoryTraced.empty_inv ?_ hm).symm
    · exact fun t op t' ht h => (MemoryTraced.next_step ht h).1
    · exact fun t op t' ht hno h => (MemoryTraced.next_step ht h).2 hno
    · exact fun key es h => nomatch h
  · refine (Runs.along_iff_reached Traced.Inv ?_ ?_ Traced.empty_inv ?_ hs).symm
    · exact fun t op t' ht h => Traced.next_inv ht h
    · exact fun t op t' ht hno h => Traced.next_noPreviewCounted ht hno h
    · exact fun r h => absurd h List.not_mem_nil

end

def samplePreview : Simulation := ⟨"run-1", "0x2222222222222222222222222222222222222222", false⟩

/-- a preview of a restoration, and a real outage of the same hour -/
def previewThenOutage : List Op :=
  [.ingest (sampleRow "c1" .restored (9 / 10)) (some samplePreview) "d1" sampleTime,
   .ingest (sampleRow "c2" .outage (95 / 100)) none "d2" sampleTime]

def memoryPreviewThenOutage : List MemoryOp :=
  [.ingest "c1" (sampleRow "c1" .restored (9 / 10)).event (some samplePreview) "d1" sampleTime,
   .ingest "c2" (sampleRow "c2" .outage (95 / 100)).event none "d2" sampleTime]

/-- an hour later -/
def nextHour : IsoDate := ⟨"2026-01-01T13:00:00.000Z", 1767272400000000⟩

def CandidateRow.anHourLater (row : CandidateRow) : CandidateRow :=
  { row with event := { row.event with windowStart := nextHour, windowEnd := nextHour } }

/-- a preview of an hour that is scored already; in the next hour a preview that is rejected, and an outage that a
reviewer approves -/
def outageThenPreviews : List Op :=
  [.ingest (sampleRow "c1" .outage (95 / 100)) none "d1" sampleTime,
   .ingest (sampleRow "c2" .restored (9 / 10)) (some samplePreview) "d2" sampleTime,
   .ingest (sampleRow "c3" .outage (7 / 10)).anHourLater none "d3" nextHour,
   .ingest (sampleRow "c4" .restored (3 / 10)).anHourLater (some samplePreview) "d4" nextHour,
   .review "d3" .approve "seen" nextHour]

def memoryOutageThenPreviews : List MemoryOp :=
  [.ingest "c1" (sampleRow "c1" .outage (95 / 100)).event none "d1" sampleTime,
   .ingest "c2" (sampleRow "c2" .restored (9 / 10)).event (some samplePreview) "d2" sampleTime,
   .ingest "c3" (sampleRow "c3" .outage (7 / 10)).anHourLater.event none "d3" nextHour,
   .ingest "c4" (sampleRow "c4" .restored (3 / 10)).anHourLater.event (some samplePreview) "d4" nextHour,
   .review "d3" .approve "seen" nextHour]

/-- both hours are scored as down, and neither preview is counted -/
theorem previews_beside_scores : ∃ m s,
    Runs.run (MemoryTraced.next compareCodePoints) .empty memoryOutageThenPreviews = some m ∧
    Runs.run Traced.next .empty outageThenPreviews = some s ∧
    (m.previews = ["c4", "c2"] ∧ m.memory.memoryEpochScoresByKey.values.map EpochScore.uptimeBps = [0, 0]) ∧
    (s.previews = ["c4", "c2"] ∧ s.system.db.epochScores.rows.map (fun r => r.uptimeBps) = [0, 0]) ∧
    (∀ before after t, memoryOutageThenPreviews = before ++ after →
      Runs.run (MemoryTraced.next compareCodePoints) .empty before = some t → t.NoPreviewCounted) ∧
    ∀ before after t, outageThenPreviews = before ++ after →
      Runs.run Traced.next .empty before = some t → t.NoPreviewCounted := by
  have hm : (Runs.run (MemoryTraced.next compareCodePoints) .empty memoryOutageThenPreviews).any
      (fun m => decide (m.previews = ["c4", "c2"] ∧
        m.memory.memoryEpochScoresByKey.values.map EpochScore.uptimeBps = [0, 0])) = true := by
    decide +kernel
  have hs : (Runs.run Traced.next .empty outageThenPreviews).any (fun s => decide (s.previews = ["c4", "c2"] ∧
      s.system.db.epochScores.rows.map (fun r => r.uptimeBps) = [0, 0])) = true := by
    decide +kernel
  obtain ⟨m, hmrun, hm⟩ := (Option.any_eq_true _ _).mp hm
  obtain ⟨s, hsrun, hs⟩ := (Option.any_eq_true _ _).mp hs
  obtain ⟨hmemory, hdb⟩ := previews_never_counted_iff hmrun hsrun
  exact ⟨m, s, hmrun, hsrun, of_decide_eq_true hm, of_decide_eq_true hs, hmemory.mpr (by decide +kernel),
    hdb.mpr (by decide +kernel)⟩

/-- the outage's score is computed from both: an hour that was down scores 5000 -/
theorem preview_counted : ∃ m s,
    Runs.run (MemoryTraced.next compareCodePoints) .empty memoryPreviewThenOutage = some m ∧
    Runs.run Traced.next .empty previewThenOutage = some s ∧
    m.previews = ["c1"] ∧ s.previews = ["c1"] ∧
    m.memory.memoryEpochScoresByKey.values.map EpochScore.uptimeBps = [5000] ∧
    s.system.db.epochScores.rows.map (fun r => r.uptimeBps) = [5000] ∧
    ¬ m.NoPreviewCounted ∧ ¬ s.NoPreviewCounted := by
  have hm : (Runs.run (MemoryTraced.next compareCodePoints) .empty memoryPreviewThenOutage).any
      (fun m => decide (m.previews = ["c1"] ∧
        m.memory.memoryEpochScoresByKey.values.map EpochScore.uptimeBps = [5000] ∧
        (m.memory.memoryEpochScoresByKey.get? ("z", floorToEpoch sampleTime)).isSome ∧
        (m.countedByKey.get? ("z", floorToEpoch sampleTime)).map (List.map Vote.id) =
          some ["c1", "c2"])) = true := by
    decide +kernel
  have hs : (Runs.run Traced.next .empty previewThenOutage).any (fun s => decide (s.previews = ["c1"] ∧
      s.system.db.epochScores.rows.map (fun r => r.uptimeBps) = [5000] ∧ ¬ s.NoPreviewCounted)) =
        true := by
    decide +kernel
  obtain ⟨m, hmrun, hm⟩ := (Option.any_eq_true _ _).mp hm
  obtain ⟨s, hsrun, hs⟩ := (Option.any_eq_true _ _).mp hs
  obtain ⟨hmprev, hmscores, hsome, hcounted⟩ := of_decide_eq_true hm
  obtain ⟨hsprev, hsscores, hsno⟩ := of_decide_eq_true hs
  refine ⟨m, s, hmrun, hsrun, hmprev, hsprev, hmscores, hsscores, fun hno => ?_, hsno⟩
  obtain ⟨es, hes⟩ := Option.isSome_iff_exists.mp hsome
  obtain ⟨votes, hvotes, -, hnone⟩ := hno _ es hes
  rw [hvotes] at hcounted
  obtain ⟨v, hv, hid⟩ := List.mem_map.mp
    (Option.some.inj hcounted ▸ List.mem_cons_self : "c1" ∈ votes.map Vote.id)
  refine hnone v hv ?_
  rw [hid, hmprev]
  exact List.mem_singleton_self "c1"

end Pipeline
