import GridProof.Lib.Runs
import GridProof.Ingestion.TaskEffect

/-!
# Every candidate is processed exactly once

Three inserts that do nothing on a conflict decide what a delivery or a sweep does next.

* `Inv`              an evidence row that was just inserted has one delivery that owns it, and a candidate row
                     was started once or has one delivery that is about to start it;
* `exactly_once`     what holds after every interleaving.
-/

namespace Ingestion
open Pipeline (IsoDate CandidateEvent CandidateRow System Phase)

/-! ## ownership -/

/-- the stored event that the task works on -/
def Task.event : Task → Option EvidenceEvent
  | .readRecent e => some e
  | .insertCandidate e _ => some e
  | .findCandidate e => some e
  | _ => none

/-- the key of the row that the delivery has inserted and is not done with -/
def Task.owned : Task → Option String
  | .findEvidence key true => some key
  | .readRecent e => some e.idempotencyKey
  | .insertCandidate e _ => some e.idempotencyKey
  | .findCandidate e => some e.idempotencyKey
  | _ => none

/-- the same, before it has stored a candidate -/
def Task.pending : Task → Option String
  | .findEvidence key true => some key
  | .readRecent e => some e.idempotencyKey
  | .insertCandidate e _ => some e.idempotencyKey
  | _ => none

theorem Task.owned_of_pending {task : Task} {key : String} (h : task.pending = some key) :
    task.owned = some key := by
  cases task with
  | findCandidate e => cases h
  | findEvidence key' inserted =>
    cases inserted with
    | true => exact h
    | false => cases h
  | _ => exact h

theorem Task.owned_cases {task : Task} {key : String} (h : task.owned = some key) :
    task = .findEvidence key true ∨ ∃ e, task.event = some e ∧ e.idempotencyKey = key := by
  cases task with
  | findEvidence key' inserted =>
    cases inserted with
    | true => exact .inl (congrArg (Task.findEvidence · true) (Option.some.inj h))
    | false => cases h
  | readRecent e => exact .inr ⟨e, rfl, Option.some.inj h⟩
  | insertCandidate e c => exact .inr ⟨e, rfl, Option.some.inj h⟩
  | findCandidate e => exact .inr ⟨e, rfl, Option.some.inj h⟩
  | _ => cases h

theorem Task.Idle.nothing {task : Task} (h : task.Idle) :
    task.event = none ∧ task.owned = none ∧ task.pending = none := by
  cases task with
  | replyDuplicate e => exact ⟨rfl, rfl, rfl⟩
  | recordGaps candidates => exact ⟨rfl, rfl, rfl⟩
  | decide c rest => exact ⟨rfl, rfl, rfl⟩
  | score phase rest => exact ⟨rfl, rfl, rfl⟩
  | finished => exact ⟨rfl, rfl, rfl⟩
  | _ => exact h.elim

/-- the task is one that this database allows -/
structure Task.Ok (zod : Zod) (d : Database) (task : Task) : Prop where
  input : ∀ input, task = .insertEvidence input → zod.uuid input.zoneId = true
  phase : ∀ phase rest, task = .score phase rest → Decided phase
  found : ∀ key inserted, task = .findEvidence key inserted → d.evidence.get? key ≠ none
  event : ∀ e, task.event = some e →
    ∃ row, d.evidence.get? e.idempotencyKey = some row ∧ e = mapEvidenceRow row
  known : ∀ e c, task = .insertCandidate e c → e.status ≠ .unknown

theorem Task.Idle.ok {zod : Zod} {d : Database} {task : Task} (h : task.Idle) : task.Ok zod d where
  input _ e := (e ▸ h : (Task.insertEvidence _).Idle).elim
  phase _ _ e := (e ▸ h : (Task.score _ _).Idle)
  found _ _ e := (e ▸ h : (Task.findEvidence _ _).Idle).elim
  event e he := by
    rw [h.nothing.1] at he
    cases he
  known _ _ e := (e ▸ h : (Task.insertCandidate _ _).Idle).elim

theorem Task.ok_findEvidence {zod : Zod} {d : Database} {key : String} (inserted : Bool)
    (h : d.evidence.get? key ≠ none) : (Task.findEvidence key inserted).Ok zod d where
  input _ e := by cases e
  phase _ _ e := by cases e
  found key' _ e := by
    obtain ⟨rfl, -⟩ := Task.findEvidence.inj e
    exact h
  event _ e := by cases e
  known _ _ e := by cases e

/-- a task that goes on with the event of a stored row -/
theorem Task.ok_event {zod : Zod} {d : Database} {task : Task} {e : EvidenceEvent}
    (he : task.event = some e)
    (hrow : ∃ row, d.evidence.get? e.idempotencyKey = some row ∧ e = mapEvidenceRow row)
    (hknown : ∀ c, task = .insertCandidate e c → e.status ≠ .unknown) : task.Ok zod d where
  input input h := by
    rw [h] at he
    cases he
  phase phase rest h := by
    rw [h] at he
    cases he
  found key inserted h := by
    rw [h] at he
    cases he
  event e' he' := by
    obtain rfl := Option.some.inj (he.symm.trans he')
    exact hrow
  known e' c h := by
    rw [h] at he
    obtain rfl := Option.some.inj he
    exact hknown c h

/-- rows that are stored stay -/
theorem Task.Ok.mono {zod : Zod} {d d' : Database} {task : Task} (h : task.Ok zod d)
    (hrows : ∀ key row, d.evidence.get? key = some row → d'.evidence.get? key = some row) :
    task.Ok zod d' where
  input := h.input
  phase := h.phase
  found key inserted e := by
    obtain ⟨row, hrow⟩ := Option.ne_none_iff_exists'.mp (h.found key inserted e)
    rw [hrows key row hrow]
    exact Option.some_ne_none row
  event e he := by
    obtain ⟨row, hrow, hmap⟩ := h.event e he
    exact ⟨row, hrows _ row hrow, hmap⟩
  known := h.known

variable {π : Type*}

structure Inv (zod : Zod) (w : World π) : Prop where
  ok : ∀ p, (w.task p).Ok zod w.database
  row : ∀ key row, w.database.evidence.get? key = some row →
    row.idempotencyKey = key ∧ ZoneText row.zoneId
  owner : ∀ p q key, (w.task p).owned = some key → (w.task q).owned = some key → p = q
  pending : ∀ p key row, (w.task p).pending = some key → w.database.evidence.get? key = some row →
    ∀ r ∈ w.database.candidates.rows, r.candidateKey ≠ candidateKeyFor row
  stored : ∀ p e, w.task p = .findCandidate e →
    ∃ r ∈ w.database.candidates.rows, r.candidateKey = candidateKeyFor e ∧ r.id ∉ w.starts
  once : w.starts.Nodup
  started : ∀ id ∈ w.starts, ∃ r ∈ w.database.candidates.rows, r.id = id
  owed : ∀ r ∈ w.database.candidates.rows, r.id ∈ w.starts ∨
    ∃ p e, w.task p = .findCandidate e ∧ r.candidateKey = candidateKeyFor e
  origin : ∀ r ∈ w.database.candidates.rows,
    (∃ key row, w.database.evidence.get? key = some row ∧ row.status ≠ .unknown ∧
      r.candidateKey = candidateKeyFor row) ∨ r.candidateKey = Detection.heartbeatGapKey r.event

section
variable {zod : Zod} {w : World π} {p : π} {task' : Task}

theorem Inv.owned_row (hw : Inv zod w) {key : String} (h : (w.task p).owned = some key) :
    w.database.evidence.get? key ≠ none := by
  rcases Task.owned_cases h with ht | ⟨e, he, rfl⟩
  · exact (hw.ok p).found key true ht
  · obtain ⟨row, hrow, -⟩ := (hw.ok p).event e he
    rw [hrow]
    exact Option.some_ne_none row

/-- the rows of evidence are different -/
theorem Inv.evidence_nodup (hw : Inv zod w) : w.database.evidence.values.Nodup := by
  refine List.Nodup.of_map EvidenceEvent.idempotencyKey (List.nodup_iff_count_le_one.mpr fun key => ?_)
  by_cases hsome : w.database.evidence.get? key = none
  · rw [List.count_eq_zero_of_not_mem]
    · exact Nat.zero_le 1
    · intro hmem
      obtain ⟨e, he, rfl⟩ := List.mem_map.mp hmem
      obtain ⟨key, hget⟩ := OrderedMap.mem_values.mp he
      rw [(hw.row key e hget).1, hget] at hsome
      cases hsome
  · exact (OrderedMap.count_values (fun k e he => (hw.row k e he).1) hsome).le

/-- a task that owns an event, and the row of its key -/
theorem Inv.key_inj (hw : Inv zod w) {e : EvidenceEvent} (he : (w.task p).event = some e) {key : String}
    {row : EvidenceEvent} (hrow : w.database.evidence.get? key = some row)
    (h : candidateKeyFor e = candidateKeyFor row) : e.idempotencyKey = key := by
  obtain ⟨row', hrow', rfl⟩ := (hw.ok p).event e he
  obtain ⟨hkey, hzone⟩ := hw.row key row hrow
  obtain ⟨-, hzone'⟩ := hw.row _ row' hrow'
  exact (candidateKeyFor_inj (e := row') hzone' hzone h).trans hkey

/-- the world after a statement of the task `p` -/
def World.after [DecidableEq π] (w : World π) (p : π) (o : Outcome) : World π :=
  ⟨o.database, Function.update w.task p o.task, (o.starts.map CandidateEvent.id).toList ++ w.starts⟩

variable [DecidableEq π]

/-- the task `p` is the new one, the others are as before -/
theorem World.task_after (w : World π) (p : π) (o : Outcome) (q : π) :
    (q = p ∧ (w.after p o).task q = o.task) ∨ (q ≠ p ∧ (w.after p o).task q = w.task q) := by
  by_cases he : q = p
  · subst he
    exact .inl ⟨rfl, Function.update_self _ _ _⟩
  · exact .inr ⟨he, Function.update_of_ne he _ _⟩

/-- two tasks that own one key are the same if the new task owns nothing that its old one did not, but what is
new -/
theorem Inv.owner_after (hw : Inv zod w) {o : Outcome} (hnew : ∀ key, o.task.owned = some key →
    (w.task p).owned = some key ∨ w.database.evidence.get? key = none) (q q' : π) (key : String)
    (hq : ((w.after p o).task q).owned = some key) (hq' : ((w.after p o).task q').owned = some key) :
    q = q' := by
  have hother : ∀ q, q ≠ p → o.task.owned = some key → (w.task q).owned ≠ some key := by
    intro q hne ho hq
    rcases hnew key ho with hold | hnone
    · exact hne (hw.owner q p key hq hold)
    · exact hw.owned_row hq hnone
  rcases w.task_after p o q with ⟨he, ht⟩ | ⟨hne, ht⟩
  · rw [ht] at hq
    rcases w.task_after p o q' with ⟨he', -⟩ | ⟨hne', ht'⟩
    · rw [he, he']
    · rw [ht'] at hq'
      exact absurd hq' (hother q' hne' hq)
  · rw [ht] at hq
    rcases w.task_after p o q' with ⟨-, ht'⟩ | ⟨-, ht'⟩
    · rw [ht'] at hq'
      exact absurd hq (hother q hne hq')
    · rw [ht'] at hq'
      exact hw.owner q q' key hq hq'

/-- a statement that stores nothing and starts nothing -/
theorem Inv.move (hw : Inv zod w) {d' : Database} (hevidence : d'.evidence = w.database.evidence)
    (hcandidates : d'.candidates = w.database.candidates) (hok : task'.Ok zod w.database)
    (howned : ∀ key, task'.owned = some key → (w.task p).owned = some key)
    (hpending : ∀ key, task'.pending = some key → (w.task p).pending = some key)
    (hstored : ∀ e, w.task p ≠ .findCandidate e) (hstored' : ∀ e, task' ≠ .findCandidate e) :
    Inv zod (w.after p ⟨d', task', none⟩) where
  ok := by
    have hrows : ∀ key row, w.database.evidence.get? key = some row → d'.evidence.get? key = some row :=
      fun key row hrow => hevidence ▸ hrow
    intro q
    rcases w.task_after p ⟨d', task', none⟩ q with ⟨-, ht⟩ | ⟨-, ht⟩
    · rw [ht]
      exact hok.mono hrows
    · rw [ht]
      exact (hw.ok q).mono hrows
  row key row hrow := hw.row key row (hevidence ▸ hrow)
  owner := hw.owner_after fun key hkey => .inl (howned key hkey)
  pending := by
    show ∀ q key row, _ → d'.evidence.get? key = some row → ∀ r ∈ d'.candidates.rows, _
    rw [hevidence, hcandidates]
    intro q key row hkey
    rcases w.task_after p ⟨d', task', none⟩ q with ⟨-, ht⟩ | ⟨-, ht⟩
    · rw [ht] at hkey
      exact hw.pending p key row (hpending key hkey)
    · rw [ht] at hkey
      exact hw.pending q key row hkey
  stored := by
    show ∀ q e, _ → ∃ r ∈ d'.candidates.rows, _
    rw [hcandidates]
    intro q e hq
    rcases w.task_after p ⟨d', task', none⟩ q with ⟨-, ht⟩ | ⟨-, ht⟩
    · exact absurd (ht.symm.trans hq) (hstored' e)
    · exact hw.stored q e (ht.symm.trans hq)
  once := hw.once
  started := by
    show ∀ id ∈ w.starts, ∃ r ∈ d'.candidates.rows, r.id = id
    rw [hcandidates]
    exact hw.started
  owed := by
    show ∀ r ∈ d'.candidates.rows, _
    rw [hcandidates]
    intro r hr
    refine (hw.owed r hr).imp_right ?_
    rintro ⟨q, e, hq, hkey⟩
    have hne : q ≠ p := by
      rintro rfl
      exact hstored e hq
    exact ⟨q, e, (Function.update_of_ne hne _ _).trans hq, hkey⟩
  origin := by
    show ∀ r ∈ d'.candidates.rows, (∃ key row, d'.evidence.get? key = some row ∧ _) ∨ _
    rw [hevidence, hcandidates]
    exact hw.origin

/-- a new row of evidence -/
theorem Inv.evidence (hw : Inv zod w) {input : DatabaseEvidence} {row : EvidenceEvent} {d' : Database}
    (ht : w.task p = .insertEvidence input)
    (hfree : w.database.evidence.get? input.idempotencyKey = none)
    (hkey : row.idempotencyKey = input.idempotencyKey) (hzone : row.zoneId = uuid input.zoneId)
    (hget : ∀ key, d'.evidence.get? key =
      if key = input.idempotencyKey then some row else w.database.evidence.get? key)
    (hcandidates : d'.candidates = w.database.candidates) :
    Inv zod (w.after p ⟨d', .findEvidence input.idempotencyKey true, none⟩) := by
  have hold : ∀ key row', w.database.evidence.get? key = some row' → key ≠ input.idempotencyKey := by
    intro key row' hrow' he
    rw [he, hfree] at hrow'
    cases hrow'
  have hrows : ∀ key row', w.database.evidence.get? key = some row' →
      d'.evidence.get? key = some row' := by
    intro key row' hrow'
    rw [hget, if_neg (hold key row' hrow')]
    exact hrow'
  have hnew : ZoneText row.zoneId := by
    rw [hzone]
    exact zoneText_uuid (zod.uuid_chars _ ((hw.ok p).input input ht))
  refine ⟨fun q => ?_, ?_, ?_, ?_, ?_, hw.once, ?_, ?_, ?_⟩
  · rcases w.task_after p ⟨d', .findEvidence input.idempotencyKey true, none⟩ q with ⟨-, ht'⟩ | ⟨-, ht'⟩
    · rw [ht']
      refine Task.ok_findEvidence true ?_
      show d'.evidence.get? _ ≠ none
      rw [hget, if_pos rfl]
      exact Option.some_ne_none row
    · rw [ht']
      exact (hw.ok q).mono hrows
  · show ∀ key row', d'.evidence.get? key = some row' → _
    intro key row' hrow'
    rw [hget] at hrow'
    split at hrow'
    · rename_i he
      obtain rfl := Option.some.inj hrow'
      exact ⟨hkey.trans he.symm, hnew⟩
    · exact hw.row key row' hrow'
  · refine hw.owner_after fun key hown => .inr ?_
    obtain rfl := Option.some.inj hown
    exact hfree
  · show ∀ q key row', _ → d'.evidence.get? key = some row' → ∀ r ∈ d'.candidates.rows, _
    rw [hcandidates]
    intro q key row' hpend hrow' r hr
    rw [hget] at hrow'
    rcases w.task_after p ⟨d', .findEvidence input.idempotencyKey true, none⟩ q with ⟨-, ht'⟩ | ⟨-, ht'⟩
    · rw [ht'] at hpend
      obtain rfl := Option.some.inj hpend
      rw [if_pos rfl] at hrow'
      obtain rfl := Option.some.inj hrow'
      -- a candidate of this key would be one of an older row, or a gap candidate
      intro he
      rcases hw.origin r hr with ⟨key', old, hold', -, hr'⟩ | hgap
      · obtain ⟨hkey', hzone'⟩ := hw.row key' old hold'
        refine hold key' old hold' ?_
        rw [← hkey', ← hkey]
        exact (candidateKeyFor_inj hnew hzone' (he.symm.trans hr')).symm
      · exact candidateKeyFor_ne_gapKey hnew r.event (he.symm.trans hgap)
    · rw [ht'] at hpend
      have hne : key ≠ input.idempotencyKey := by
        rintro rfl
        exact hw.owned_row (Task.owned_of_pending hpend) hfree
      rw [if_neg hne] at hrow'
      exact hw.pending q key row' hpend hrow' r hr
  · show ∀ q e, _ → ∃ r ∈ d'.candidates.rows, _
    rw [hcandidates]
    intro q e hq
    rcases w.task_after p ⟨d', .findEvidence input.idempotencyKey true, none⟩ q with ⟨-, ht'⟩ | ⟨-, ht'⟩
    · rw [ht'] at hq
      cases hq
    · exact hw.stored q e (ht'.symm.trans hq)
  · show ∀ id ∈ w.starts, ∃ r ∈ d'.candidates.rows, r.id = id
    rw [hcandidates]
    exact hw.started
  · show ∀ r ∈ d'.candidates.rows, _
    rw [hcandidates]
    intro r hr
    refine (hw.owed r hr).imp_right ?_
    rintro ⟨q, e, hq, he⟩
    have hne : q ≠ p := by
      rintro rfl
      rw [ht] at hq
      cases hq
    exact ⟨q, e, (Function.update_of_ne hne _ _).trans hq, he⟩
  · show ∀ r ∈ d'.candidates.rows, (∃ key row, d'.evidence.get? key = some row ∧ _) ∨ _
    rw [hcandidates]
    intro r hr
    refine (hw.origin r hr).imp_left ?_
    rintro ⟨key, row', hrow', hknown, he⟩
    exact ⟨key, row', hrows key row' hrow', hknown, he⟩

/-- a candidate row that is new, by an evidence key or a gap key, and its pipeline if it is started -/
theorem Inv.row_inserted (hw : Inv zod w) {row : CandidateRow} {o : Outcome}
    (hins : Inserts w.database o.database row true)
    (hok : o.task.Ok zod w.database) (howned : ∀ key, o.task.owned = some key → (w.task p).owned = some key)
    (hpending : o.task.pending = none) (hstored : ∀ e, w.task p ≠ .findCandidate e)
    (horigin : (∃ key e, w.database.evidence.get? key = some e ∧ e.status ≠ .unknown ∧
      row.candidateKey = candidateKeyFor e) ∨ row.candidateKey = Detection.heartbeatGapKey row.event)
    (hfree : ∀ q key e, q ≠ p → (w.task q).pending = some key → w.database.evidence.get? key = some e →
      row.candidateKey ≠ candidateKeyFor e)
    (hstarts : (o.starts = none ∧ ∃ e, o.task = .findCandidate e ∧ row.candidateKey = candidateKeyFor e) ∨
      ((∃ c, o.starts = some c ∧ c.id = row.id) ∧ ∀ e, o.task ≠ .findCandidate e)) :
    Inv zod (w.after p o) := by
  obtain ⟨hevidence, -, hrows, hfresh⟩ := hins
  have hrows := hrows rfl
  obtain ⟨hids, hkeys⟩ := hfresh rfl
  have hmem : ∀ r, r ∈ o.database.candidates.rows ↔ r ∈ w.database.candidates.rows ∨ r = row := by
    intro r
    rw [hrows, List.mem_append, List.mem_singleton]
  have hnew : row.id ∉ w.starts := by
    intro hid
    obtain ⟨r, hr, he⟩ := hw.started row.id hid
    exact hids r hr he
  -- the pipeline is started for the new row or not at all
  have hnow : ∀ id, id ∈ (w.after p o).starts → id ∈ w.starts ∨ id = row.id := by
    intro id hid
    rcases List.mem_append.mp hid with hid | hid
    · rcases hstarts with ⟨hnone, -⟩ | ⟨⟨c, hc, he⟩, -⟩
      · rw [hnone] at hid
        cases hid
      · rw [hc] at hid
        exact .inr ((List.mem_singleton.mp hid).trans he)
    · exact .inl hid
  have hget : ∀ key e, o.database.evidence.get? key = some e ↔ w.database.evidence.get? key = some e :=
    fun key e => by rw [hevidence]
  refine ⟨fun q => ?_, fun key e he => hw.row key e ((hget key e).mp he),
    hw.owner_after fun key hown => .inl (howned key hown), ?_, ?_, ?_, ?_, ?_, ?_⟩
  · have hmono : ∀ key e, w.database.evidence.get? key = some e → o.database.evidence.get? key = some e :=
      fun key e => (hget key e).mpr
    rcases w.task_after p o q with ⟨-, ht⟩ | ⟨-, ht⟩
    · exact ht ▸ hok.mono hmono
    · exact ht ▸ (hw.ok q).mono hmono
  · intro q key e hpend he r hr
    rcases w.task_after p o q with ⟨-, ht⟩ | ⟨hne, ht⟩
    · rw [ht, hpending] at hpend
      cases hpend
    · rw [ht] at hpend
      rcases (hmem r).mp hr with hold | rfl
      · exact hw.pending q key e hpend ((hget key e).mp he) r hold
      · exact hfree q key e hne hpend ((hget key e).mp he)
  · intro q e hq
    rcases w.task_after p o q with ⟨-, ht⟩ | ⟨-, ht⟩
    · rcases hstarts with ⟨hnone, e', he', hkey⟩ | ⟨-, hno⟩
      · obtain rfl := Task.findCandidate.inj ((he'.symm.trans ht.symm).trans hq)
        refine ⟨row, (hmem row).mpr (.inr rfl), hkey, ?_⟩
        show row.id ∉ (o.starts.map CandidateEvent.id).toList ++ w.starts
        rw [hnone]
        exact hnew
      · exact absurd (ht.symm.trans hq) (hno e)
    · obtain ⟨r, hr, hkey, hid⟩ := hw.stored q e (ht.symm.trans hq)
      refine ⟨r, (hmem r).mpr (.inl hr), hkey, fun hin => ?_⟩
      exact (hnow r.id hin).elim hid (hids r hr)
  · show ((o.starts.map CandidateEvent.id).toList ++ w.starts).Nodup
    rcases hstarts with ⟨hnone, -⟩ | ⟨⟨c, hc, he⟩, -⟩
    · rw [hnone]
      exact hw.once
    · rw [hc]
      exact List.nodup_cons.mpr ⟨he ▸ hnew, hw.once⟩
  · intro id hid
    rcases hnow id hid with hold | rfl
    · obtain ⟨r, hr, he⟩ := hw.started id hold
      exact ⟨r, (hmem r).mpr (.inl hr), he⟩
    · exact ⟨row, (hmem row).mpr (.inr rfl), rfl⟩
  · intro r hr
    rcases (hmem r).mp hr with hold | rfl
    · rcases hw.owed r hold with hid | ⟨q, e, hq, hkey⟩
      · exact .inl (List.mem_append_right _ hid)
      · have hne : q ≠ p := by
          rintro rfl
          exact hstored e hq
        exact .inr ⟨q, e, (Function.update_of_ne hne _ _).trans hq, hkey⟩
    · rcases hstarts with ⟨-, e, he, hkey⟩ | ⟨⟨c, hc, he⟩, -⟩
      · exact .inr ⟨p, e, (Function.update_self _ _ _).trans he, hkey⟩
      · refine .inl (List.mem_append_left _ ?_)
        rw [hc]
        exact List.mem_singleton.mpr he.symm
  · intro r hr
    rcases (hmem r).mp hr with hold | rfl
    · refine (hw.origin r hold).imp_left ?_
      rintro ⟨key, e, he, hrest⟩
      exact ⟨key, e, (hget key e).mpr he, hrest⟩
    · refine horigin.imp_left ?_
      rintro ⟨key, e, he, hrest⟩
      exact ⟨key, e, (hget key e).mpr he, hrest⟩

/-- a delivery starts the pipeline on the candidate it has stored -/
theorem Inv.startCandidate (hw : Inv zod w) {e : EvidenceEvent} {r : CandidateRow}
    (ht : w.task p = .findCandidate e) (hr : r ∈ w.database.candidates.rows)
    (hkey : r.candidateKey = candidateKeyFor e) :
    Inv zod (w.after p ⟨w.database, .decide r.event.readBack [], some r.event.readBack⟩) := by
  obtain ⟨r', hr', hkey', hid⟩ := hw.stored p e ht
  have heq : r' = r := Table.eq_of_key hr' hr (hkey'.trans hkey.symm)
  rw [heq] at hid
  have hread := r.event.readBack_id
  have hidle : (Task.decide r.event.readBack []).Idle := trivial
  have hown : ∀ {key}, (Task.decide r.event.readBack []).owned ≠ some key := by
    intro key h
    cases h
  refine ⟨fun q => ?_, hw.row, hw.owner_after fun key h => absurd h hown, ?_, ?_, ?_, ?_, ?_, hw.origin⟩
  · rcases w.task_after p ⟨w.database, .decide r.event.readBack [], some r.event.readBack⟩ q with
      ⟨-, ht'⟩ | ⟨-, ht'⟩
    · exact ht' ▸ hidle.ok
    · exact ht' ▸ hw.ok q
  · intro q key row hpend
    rcases w.task_after p ⟨w.database, .decide r.event.readBack [], some r.event.readBack⟩ q with
      ⟨-, ht'⟩ | ⟨-, ht'⟩
    · rw [ht'] at hpend
      cases hpend
    · exact hw.pending q key row (ht' ▸ hpend)
  · intro q e' hq
    rcases w.task_after p ⟨w.database, .decide r.event.readBack [], some r.event.readBack⟩ q with
      ⟨-, ht'⟩ | ⟨hne, ht'⟩
    · rw [ht'] at hq
      cases hq
    · rw [ht'] at hq
      obtain ⟨r'', hr'', hkey'', hid''⟩ := hw.stored q e' hq
      refine ⟨r'', hr'', hkey'', fun hin => ?_⟩
      rcases List.mem_cons.mp hin with he | hin
      · -- the same candidate would have the same owner
        have hrr : r'' = r := Table.eq_of_id hr'' hr (he.trans hread)
        obtain ⟨row, hrow, hmap⟩ := (hw.ok q).event e' (by rw [hq]; rfl)
        have hkeys : candidateKeyFor e = candidateKeyFor row := by
          rw [← hkey, ← hrr, hkey'', hmap]
          rfl
        have hown := hw.key_inj (p := p) (by rw [ht]; rfl) hrow hkeys
        refine hne (hw.owner q p e'.idempotencyKey ?_ ?_)
        · rw [hq]
          rfl
        · rw [ht, ← hown]
          rfl
      · exact hid'' hin
  · refine List.nodup_cons.mpr ⟨?_, hw.once⟩
    rw [hread]
    exact hid
  · intro id hin
    rcases List.mem_cons.mp hin with rfl | hin
    · exact ⟨r, hr, hread.symm⟩
    · exact hw.started id hin
  · intro r'' hr''
    rcases hw.owed r'' hr'' with hin | ⟨q, e', hq, hkey''⟩
    · exact .inl (List.mem_cons_of_mem _ hin)
    · by_cases hqp : q = p
      · rw [hqp, ht] at hq
        obtain rfl := Task.findCandidate.inj hq
        refine .inl (List.mem_cons.mpr (.inl ?_))
        rw [Table.eq_of_key hr'' hr (hkey''.trans hkey.symm)]
        exact hread.symm
      · exact .inr ⟨q, e', (Function.update_of_ne hqp _ _).trans hq, hkey''⟩

/-- a statement that leaves nothing to be handled -/
theorem Inv.moveIdle (hw : Inv zod w) {d' : Database} (hevidence : d'.evidence = w.database.evidence)
    (hcandidates : d'.candidates = w.database.candidates) (hidle : task'.Idle)
    (hstored : ∀ e, w.task p ≠ .findCandidate e) : Inv zod (w.after p ⟨d', task', none⟩) := by
  obtain ⟨-, howned, hpending⟩ := hidle.nothing
  refine hw.move hevidence hcandidates hidle.ok ?_ ?_ hstored ?_
  · intro key h
    rw [howned] at h
    cases h
  · intro key h
    rw [hpending] at h
    cases h
  · rintro e rfl
    exact hidle

/-- a statement keeps the invariant -/
theorem Inv.effect [JsText.Runtime] (hw : Inv zod w) {o : Outcome}
    (h : Task.Effect w.database (w.task p) o) : Inv zod (w.after p o) := by
  generalize ht : w.task p = task at h
  have hstored : (∀ e, task ≠ .findCandidate e) → ∀ e, w.task p ≠ .findCandidate e :=
    fun hno e he => hno e (ht.symm.trans he)
  cases h with
  | evidence input row hfree hkey hzone hid =>
    exact hw.evidence ht hfree hkey hzone (fun key => OrderedMap.get?_set) rfl
  | taken input hrow =>
    refine hw.move rfl rfl (Task.ok_findEvidence false hrow) ?_ ?_ (hstored ?_) ?_
    · exact fun key h => by cases h
    · exact fun key h => by cases h
    · exact fun e h => by cases h
    · exact fun e h => by cases h
  | found key row hrow =>
    have hkey : (mapEvidenceRow row).idempotencyKey = key := (hw.row key row hrow).1
    refine hw.move rfl rfl (Task.ok_event rfl ⟨row, hkey ▸ hrow, rfl⟩ fun c h => by cases h) ?_ ?_
      (hstored ?_) ?_
    · intro key' h
      rw [ht, ← hkey]
      exact h
    · intro key' h
      rw [ht, ← hkey]
      exact h
    · exact fun e h => by cases h
    · exact fun e h => by cases h
  | detected e c rank id now hc =>
    have hknown : e.status ≠ .unknown := by
      intro hu
      cases (Detection.detectCandidateFromEvidence_eq_none.mpr hu).symm.trans hc
    have hrow := (hw.ok p).event e (by rw [ht]; rfl)
    refine hw.move rfl rfl (Task.ok_event rfl hrow fun _ _ => hknown) ?_ ?_ (hstored ?_) ?_
    · exact fun key h => ht ▸ h
    · exact fun key h => ht ▸ h
    · exact fun e h => by cases h
    · exact fun e h => by cases h
  | unknown e he => exact hw.moveIdle rfl rfl trivial (hstored fun e h => by cases h)
  | candidate e c d' inserted hins =>
    have hev : (w.task p).event = some e := by rw [ht]; rfl
    have hpend : (w.task p).pending = some e.idempotencyKey := by rw [ht]; rfl
    obtain ⟨row, hrow, hmap⟩ := (hw.ok p).event e hev
    have hkey : candidateKeyFor e = candidateKeyFor row := by
      rw [hmap]
      rfl
    cases inserted with
    | false =>
      obtain ⟨-, r, hr, hr'⟩ := hins.taken rfl
      exact absurd (hr'.trans hkey) (hw.pending p _ row hpend hrow r hr)
    | true =>
      refine hw.row_inserted hins ?_ ?_ rfl (hstored fun e h => by cases h) ?_ ?_ (.inl ⟨rfl, e, rfl, rfl⟩)
      · exact Task.ok_event rfl ⟨row, hrow, hmap⟩ fun c h => by cases h
      · exact fun key h => ht ▸ h
      · refine .inl ⟨_, row, hrow, ?_, hkey⟩
        have hknown := (hw.ok p).known e c ht
        rwa [hmap] at hknown
      · intro q key row' hne hq hrow' he
        refine hne (hw.owner q p key (Task.owned_of_pending hq) ?_)
        rw [ht, ← hw.key_inj hev hrow' he]
        rfl
  | started e r hr hkey => exact hw.startCandidate ht hr hkey
  | missing e hnone =>
    obtain ⟨r, hr, hkey, -⟩ := hw.stored p e ht
    exact absurd hkey (hnone r hr)
  | gap c rest d' hins =>
    have hidle : (Task.decide c rest).Idle := trivial
    refine hw.row_inserted hins hidle.ok ?_ rfl (hstored fun e h => by cases h) (.inr rfl) ?_
      (.inr ⟨⟨c, rfl, rfl⟩, fun e h => by cases h⟩)
    · exact fun key h => by cases h
    · intro q key row hne hq hrow he
      exact candidateKeyFor_ne_gapKey (hw.row key row hrow).2 c he.symm
  | quiet task task' d' hevidence hcandidates hidle htask =>
    refine hw.moveIdle hevidence hcandidates hidle (hstored ?_)
    rintro e rfl
    rcases htask with h | ⟨now, h⟩ | ⟨key, h⟩
    · exact h
    · cases h
    · cases h

end

/-! ## interleavings -/

/-- a task that has not begun owns nothing -/
theorem Task.Fresh.nothing {zod : Zod} {d : Database} {task : Task} (h : task.Fresh zod) :
    task.Ok zod d ∧ task.owned = none ∧ ∀ e, task ≠ .findCandidate e := by
  cases task with
  | insertEvidence input =>
    refine ⟨⟨fun input' he => ?_, fun _ _ he => ?_, fun _ _ he => ?_, fun _ he => ?_, fun _ _ he => ?_⟩, rfl,
      fun _ he => ?_⟩
    · rw [← Task.insertEvidence.inj he]
      exact h
    all_goals cases he
  | listEvidence now =>
    refine ⟨⟨fun _ he => ?_, fun _ _ he => ?_, fun _ _ he => ?_, fun _ he => ?_, fun _ _ he => ?_⟩, rfl,
      fun _ he => ?_⟩
    all_goals cases he
  | _ => exact h.elim

theorem Inv.start {zod : Zod} {task : π → Task} (hfresh : ∀ p, (task p).Fresh zod) :
    Inv zod (Ingestion.start task) where
  ok p := (hfresh p).nothing.1
  row key row h := nomatch h
  owner p q key hp := by
    cases ((hfresh p).nothing (d := .empty)).2.1.symm.trans hp
  pending p key row hp h := nomatch h
  stored p e h := absurd h (((hfresh p).nothing (d := .empty)).2.2 e)
  once := List.nodup_nil
  started id h := absurd h List.not_mem_nil
  owed r h := absurd h List.not_mem_nil
  origin r h := absurd h List.not_mem_nil

section
variable [JsText.Runtime] [DecidableEq π] {zod : Zod} {w w' : World π}

theorem next_eq_some {e : π × StepDraw} (h : next w e = some w') :
    ∃ o, (w.task e.1).step w.database e.2 = some o ∧ w' = w.after e.1 o := by
  obtain ⟨o, ho, rfl⟩ := Option.map_eq_some_iff.mp h
  exact ⟨o, ho, rfl⟩

theorem Inv.next (hw : Inv zod w) {e : π × StepDraw} (h : next w e = some w') : Inv zod w' := by
  obtain ⟨o, ho, rfl⟩ := next_eq_some h
  exact hw.effect (Task.step_effect (hw.ok e.1).phase ho)

/-- a delivery that has begun has a row of its key -/
theorem begun_row {task : π → Task} (hfresh : ∀ p, (task p).Fresh zod) {steps : List (π × StepDraw)}
    (h : Runs.run next (Ingestion.start task) steps = some w) {p : π} {input : DatabaseEvidence}
    (hp : task p = .insertEvidence input) : w.task p = .insertEvidence input ∨
      w.database.evidence.get? input.idempotencyKey ≠ none := by
  refine (Runs.run_inv_all (fun w => Inv zod w ∧ (w.task p = .insertEvidence input ∨
    w.database.evidence.get? input.idempotencyKey ≠ none)) ?_ ⟨Inv.start hfresh, .inl hp⟩ h).2
  rintro w e w' ⟨hw, hor⟩ hnext
  refine ⟨hw.next hnext, ?_⟩
  obtain ⟨o, ho, rfl⟩ := next_eq_some hnext
  have heff := Task.step_effect (hw.ok e.1).phase ho
  rcases hor with ht | hrow
  · rcases w.task_after e.1 o p with ⟨rfl, -⟩ | ⟨-, ht'⟩
    · rw [ht] at heff
      exact .inr heff.begun
    · exact .inl (ht'.trans ht)
  · obtain ⟨row, hrow⟩ := Option.ne_none_iff_exists'.mp hrow
    refine .inr ?_
    show o.database.evidence.get? _ ≠ none
    rw [heff.keeps hrow]
    exact Option.some_ne_none row

/-- every task has not begun or is done -/
def Quiet (task : π → Task) (w : World π) : Prop := ∀ p, w.task p = task p ∨ w.task p = .finished

/-- what the deliveries and the sweeps `task` have stored and started -/
structure ExactlyOnce (task : π → Task) (w : World π) : Prop where
  /-- one row of evidence for the key of every delivery that has begun -/
  evidence : ∀ p input, task p = .insertEvidence input → w.task p = .insertEvidence input ∨
    (w.database.evidence.values.map EvidenceEvent.idempotencyKey).count input.idempotencyKey = 1
  /-- at most one candidate for an idempotency key -/
  candidate : ∀ r ∈ w.database.candidates.rows, ∀ r' ∈ w.database.candidates.rows,
    ∀ e ∈ w.database.evidence.values, ∀ e' ∈ w.database.evidence.values,
    e.idempotencyKey = e'.idempotencyKey → r.candidateKey = candidateKeyFor e →
    r'.candidateKey = candidateKeyFor e' → r = r'
  /-- at most one candidate for a gap key -/
  gap : ∀ r ∈ w.database.candidates.rows, ∀ r' ∈ w.database.candidates.rows, ∀ c,
    r.candidateKey = Detection.heartbeatGapKey c → r'.candidateKey = Detection.heartbeatGapKey c → r = r'
  /-- every candidate is of one of the two kinds -/
  origin : ∀ r ∈ w.database.candidates.rows, (∃ e ∈ w.database.evidence.values, e.status ≠ .unknown ∧
    r.candidateKey = candidateKeyFor e) ∨ r.candidateKey = Detection.heartbeatGapKey r.event
  /-- the pipeline was started for candidates only, at most once for each -/
  started : w.starts.Nodup ∧ ∀ id ∈ w.starts, ∃ r ∈ w.database.candidates.rows, r.id = id
  /-- when every delivery is done, it was started once for each -/
  all : Quiet task w → ∀ r ∈ w.database.candidates.rows, w.starts.count r.id = 1
  /-- the two kinds of keys have nothing in common -/
  apart : ∀ e ∈ w.database.evidence.values, ∀ c, candidateKeyFor e ≠ Detection.heartbeatGapKey c

/-- **Every interleaving of the statements of deliveries and sweeps.** -/
theorem exactly_once {task : π → Task} (hfresh : ∀ p, (task p).Fresh zod)
    {steps : List (π × StepDraw)} (h : Runs.run next (Ingestion.start task) steps = some w) :
    ExactlyOnce task w := by
  have hw : Inv zod w := Runs.run_inv_all (Inv zod) (fun w e w' hw hnext => hw.next hnext)
    (Inv.start hfresh) h
  have hrow : ∀ e ∈ w.database.evidence.values,
      w.database.evidence.get? e.idempotencyKey = some e ∧ ZoneText e.zoneId := by
    intro e he
    obtain ⟨key, hget⟩ := OrderedMap.mem_values.mp he
    obtain ⟨rfl, hzone⟩ := hw.row key e hget
    exact ⟨hget, hzone⟩
  constructor
  · intro p input hp
    refine (begun_row hfresh h hp).imp_right fun hsome => ?_
    exact OrderedMap.count_values (fun key e he => (hw.row key e he).1) hsome
  · intro r hr r' hr' e he e' he' hkey hr₁ hr₂
    have heq := (hrow e he).1
    rw [hkey, (hrow e' he').1] at heq
    refine Table.eq_of_key hr hr' (hr₁.trans ?_)
    rw [hr₂, Option.some.inj heq]
  · exact fun r hr r' hr' c hr₁ hr₂ => Table.eq_of_key hr hr' (hr₁.trans hr₂.symm)
  · intro r hr
    refine (hw.origin r hr).imp_left ?_
    rintro ⟨key, e, he, hknown, hkey⟩
    exact ⟨e, OrderedMap.mem_values.mpr ⟨key, he⟩, hknown, hkey⟩
  · exact ⟨hw.once, hw.started⟩
  · intro hquiet r hr
    refine List.count_eq_one_of_mem hw.once ((hw.owed r hr).resolve_right ?_)
    rintro ⟨p, e, hp, -⟩
    rcases hquiet p with hsame | hdone
    · exact ((hfresh p).nothing (d := .empty)).2.2 e (hsame.symm.trans hp)
    · rw [hdone] at hp
      cases hp
  · exact fun e he c => candidateKeyFor_ne_gapKey (hrow e he).2 c

end

/-! ## a delivery, its retry and a sweep -/

/-- a reading of 230 volts that arrives twice, and a sweep ten minutes later -/
def sampleTasks : Fin 3 → Task
  | 0 => .insertEvidence sampleEvidence
  | 1 => .insertEvidence sampleEvidence
  | 2 => .listEvidence 1767276600000
where
  sampleEvidence : DatabaseEvidence :=
    { zoneId := "aaaaaaaa-aaaa-4aaa-8aaa-aaaaaaaaaaaa"
      source := .sensor
      idempotencyKey := "a84041ed485a0b9f-1767276000"
      status := .gridUp
      voltage := some 230
      rawPayload := .telemetry "a84041ed485a0b9f" "0x2222222222222222222222222222222222222222" none
      observedAt := ⟨"2026-01-01T14:00:00.000Z", 1767276000000000⟩ }

theorem sampleTasks_fresh (p : Fin 3) : (sampleTasks p).Fresh sampleZod := by
  have hzone : sampleZod.uuid sampleTasks.sampleEvidence.zoneId = true := by decide +kernel
  match p with
  | 0 => exact hzone
  | 1 => exact hzone
  | 2 => exact trivial

def sampleStepDraw (n : ℕ) : StepDraw where
  evidenceId := "e" ++ toString n
  providerId := "p"
  candidateId := "c" ++ toString n
  now := ⟨"2026-01-01T14:00:01.000Z", 1767276001000000⟩
  rank _ := 0
  decisionId := "d" ++ toString n
  gapIds _ i := "gap" ++ toString i

/-- the retry finds the row while the first delivery has not stored its candidate -/
def sampleSteps : List (Fin 3 × StepDraw) :=
  ([0, 1, 0, 1, 1, 0, 0, 0, 0, 0, 0, 0, 2, 2, 2].zipIdx).map fun (p, n) => (p, sampleStepDraw n)

theorem exactly_once_retry : letI := JsText.asciiRuntime
    ∃ w, Runs.run next (start sampleTasks) sampleSteps = some w ∧ w.starts = ["gap0", "c5"] ∧
      Quiet sampleTasks w ∧ ExactlyOnce sampleTasks w := by
  let _ := JsText.asciiRuntime
  have hrun : (Runs.run next (start sampleTasks) sampleSteps).any (fun w => decide (w.starts = ["gap0", "c5"] ∧
      ∀ p, (match w.task p with | .finished => true | _ => false) = true)) = true := by
    decide +kernel
  obtain ⟨w, hw, hdone⟩ := (Option.any_eq_true _ _).mp hrun
  obtain ⟨hstarts, hfinished⟩ := of_decide_eq_true hdone
  refine ⟨w, hw, hstarts, fun p => .inr ?_, exactly_once sampleTasks_fresh hw⟩
  have hp := hfinished p
  split at hp
  · assumption
  · cases hp

end Ingestion
