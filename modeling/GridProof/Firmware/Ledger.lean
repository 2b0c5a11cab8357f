import GridProof.Firmware.Forwarding
import GridProof.Lib.Simulation

/-!
# Nothing is lost on the way

Every record that was captured is in a ledger, in order, with what became of it.  The ledger of a run is kept by
rules of its own: a delivery that is done with a record settles it, and where the records that wait would take more
than `maxQueueBytes` with a new one, the oldest of them is evicted.

* `Ledger`, `ledgerStep`   the ledger, and what a part of a cycle does to it;
* `Backs`                  a flash that holds the records that wait, whole and in order;
* `flushLoop_backs`        the loop of `flushQueue` sends what the ledger has waiting;
* `Accounted`              every settled entry of the ledger has its reason;
* `forwarded`              a run sends what the ledger sends, and the queue is what waits.
-/

namespace Firmware
open Outage Keyed

/-! ## the ledger -/

inductive Fate where
  | waiting
  /-- by the delivery that got these answers -/
  | finished (e : Sinks)
  /-- where so many were waiting -/
  | evicted (undelivered : ℕ)

def Fate.isWaiting : Fate → Bool
  | .waiting => true
  | _ => false

abbrev Ledger := List (TelemetryRecord × Fate)

/-- the records that wait, oldest first -/
def waiting (l : Ledger) : List TelemetryRecord := (l.filter fun entry => entry.2.isWaiting).map Prod.fst

/-- the oldest record that waits gets its fate -/
def settleOldest (f : Fate) : Ledger → Ledger
  | [] => []
  | entry :: l => if entry.2.isWaiting then (entry.1, f) :: l else entry :: settleOldest f l

/-- the oldest is evicted where a new record would not fit -/
def evictFor (l : Ledger) : Ledger :=
  if maxQueueBytes < recordSize * (waiting l).length + recordSize then settleOldest (.evicted (waiting l).length) l
  else l

section
variable (cfg : Config)

def ledgerFlush (env : ℕ → Sinks) : ℕ → ℕ → Ledger → Ledger × List Delivery
  | 0, _, l => (l, [])
  | left + 1, i, l =>
    match (waiting l).head? with
    | none => (l, [])
    | some rec =>
      if deliverRecord cfg (env i) rec then
        let (l', sent) := ledgerFlush env left (i + 1) (settleOldest (.finished (env i)) l)
        (l', (rec, env i) :: sent)
      else (l, [(rec, env i)])

def ledgerStep (l : Ledger) : Cycle → Ledger × List Delivery
  | .post now meterIndex online x e =>
    let record := makeRecord now meterIndex online x
    (if deliverRecord cfg e record then l ++ [(record, .finished e)] else evictFor l ++ [(record, .waiting)],
      [(record, e)])
  | .flush wifi env => if wifi then ledgerFlush cfg env maxFlushPerLoop 0 l else (l, [])

end

theorem waiting_append (l l' : Ledger) : waiting (l ++ l') = waiting l ++ waiting l' := by
  unfold waiting
  rw [List.filter_append, List.map_append]

section
variable {entry : TelemetryRecord × Fate}

theorem waiting_cons_waiting (h : entry.2.isWaiting = true) (l : Ledger) :
    waiting (entry :: l) = entry.1 :: waiting l := by
  unfold waiting
  rw [List.filter_cons, if_pos h]
  rfl

theorem waiting_cons_settled (h : ¬entry.2.isWaiting = true) (l : Ledger) : waiting (entry :: l) = waiting l := by
  unfold waiting
  rw [List.filter_cons, if_neg h]

end

theorem waiting_settleOldest {f : Fate} (hf : f.isWaiting = false) (l : Ledger) :
    waiting (settleOldest f l) = (waiting l).tail := by
  induction l with
  | nil => rfl
  | cons entry l ih =>
    unfold settleOldest
    split
    · rename_i hwaits
      rw [waiting_cons_waiting hwaits, List.tail_cons]
      have hfate : ¬(entry.1, f).2.isWaiting = true := by
        rw [hf]
        nofun
      exact waiting_cons_settled hfate l
    · rename_i hsettled
      rw [waiting_cons_settled hsettled, waiting_cons_settled hsettled, ih]

theorem captured_settleOldest (f : Fate) (l : Ledger) : (settleOldest f l).map Prod.fst = l.map Prod.fst := by
  induction l with
  | nil => rfl
  | cons entry l ih =>
    unfold settleOldest
    split
    · rfl
    · rw [List.map_cons, List.map_cons, ih]

/-- a settled entry was there before, or was the oldest that waited -/
theorem mem_settleOldest {f : Fate} {l : Ledger} {entry : TelemetryRecord × Fate} (h : entry ∈ settleOldest f l) :
    entry ∈ l ∨ entry.2 = f ∧ (waiting l).head? = some entry.1 := by
  induction l with
  | nil => exact absurd h List.not_mem_nil
  | cons first l ih =>
    unfold settleOldest at h
    split at h
    · rename_i hwaits
      rcases List.mem_cons.mp h with rfl | h
      · refine .inr ⟨rfl, ?_⟩
        rw [waiting_cons_waiting hwaits]
        rfl
      · exact .inl (List.mem_cons_of_mem _ h)
    · rename_i hsettled
      rcases List.mem_cons.mp h with rfl | h
      · exact .inl List.mem_cons_self
      · rcases ih h with h | ⟨hf, hhead⟩
        · exact .inl (List.mem_cons_of_mem _ h)
        · refine .inr ⟨hf, ?_⟩
          rw [waiting_cons_settled hsettled]
          exact hhead

/-! ## the flash behind it -/

/-- the flash holds these records -/
structure Backs (s : Flash) (q : List TelemetryRecord) : Prop where
  whole : s.Whole
  within : s.qOffset ≤ s.bytes.length
  read : readable s = q.map encode
  few : q.length ≤ maxRecords

variable {s : Flash} {q : List TelemetryRecord} {rec : TelemetryRecord}

theorem Compacted.within {t : Flash} (h : Compacted s t) (hs : s.qOffset ≤ s.bytes.length) :
    t.qOffset ≤ t.bytes.length := by
  rcases h.file with rfl | ⟨-, hoffset, -⟩
  · exact hs
  · rw [hoffset]
    exact Nat.zero_le _

theorem blank_backs : Backs .blank [] := ⟨blank_whole, Nat.le_refl _, rfl, Nat.zero_le _⟩

theorem Backs.peek (h : Backs s q) : (dequeuePeekRecord s).bind decode = q.head? := by
  rw [peek_eq_head, h.read]
  cases q with
  | nil => rfl
  | cons rec q => exact decode_encode rec

theorem Backs.count (h : Backs s q) : queueRecordCount s = q.length := by
  unfold queueRecordCount
  rw [usedBytes_eq, rest_eq_joined h.whole.rest_whole, joined_length, h.read, List.length_map]
  exact Nat.mul_div_cancel_left _ (by decide)

theorem Backs.advance (h : Backs s (rec :: q)) : Backs (dequeueAdvance .unlimited s).2 q := by
  obtain ⟨t, hrun, hc, hwhole, hread⟩ := advance_whole h.whole rfl (unlimited_replaces (s.skipped 1))
  rw [hrun]
  refine ⟨hwhole, hc.within ?_, ?_, Nat.le_of_succ_le h.few⟩
  · have hlength := rest_length s
    rw [rest_eq_joined h.whole.rest_whole, joined_length, h.read, List.map_cons, List.length_cons,
      Nat.mul_succ] at hlength
    have hwithin := h.within
    show s.qOffset + recordSize * 1 ≤ s.bytes.length
    omega
  · rw [hread, h.read]
    rfl

theorem Backs.enqueue (h : Backs s q) (rec : TelemetryRecord) :
    Backs (enqueueRecord .unlimited (encode rec) s).2
      ((if maxQueueBytes < recordSize * q.length + recordSize then q.tail else q) ++ [rec]) := by
  have hfew : (readable s).length ≤ maxRecords := by
    rw [h.read, List.length_map]
    exact h.few
  obtain ⟨t, hrun, hc, hwhole, hread⟩ := enqueue_whole h.whole h.within hfew rfl
    (unlimited_part (encode rec) s.roomy) (unlimited_replaces _)
  rw [hrun]
  have hroom : makeRoom (q.map encode) =
      (if maxQueueBytes < recordSize * q.length + recordSize then q.tail else q).map encode := by
    split
    · rename_i hfull
      have hlength : (q.map encode).length = maxRecords := by
        have hle := h.few
        rw [List.length_map]
        change 9437184 < 62 * q.length + 62 at hfull
        rw [maxRecords_eq] at hle ⊢
        omega
      rw [makeRoom_full hlength, List.map_tail]
    · rename_i hroom
      refine makeRoom_eq_self ?_
      rw [List.length_map, maxRecords_eq]
      change ¬9437184 < 62 * q.length + 62 at hroom
      omega
  rw [h.read, hroom] at hread
  refine ⟨hwhole, hc.within ?_, ?_, ?_⟩
  · have hroomy := roomy_within h.within
    show s.roomy.qOffset ≤ (s.roomy.bytes ++ _).length
    rw [List.length_append]
    omega
  · rw [hread, List.map_append]
    rfl
  · have hlength := makeRoom_length (q.map encode)
    rw [hroom, List.length_map] at hlength
    rw [List.length_append]
    exact hlength

theorem waiting_evictFor (l : Ledger) : waiting (evictFor l) =
    if maxQueueBytes < recordSize * (waiting l).length + recordSize then (waiting l).tail else waiting l := by
  unfold evictFor
  split
  · exact waiting_settleOldest rfl l
  · rfl

variable {cfg : Config}

/-- the loop of a flush sends what waits, and what it finishes with waits no more -/
theorem flushLoop_backs (env : ℕ → Sinks) {left i : ℕ} {l : Ledger} (h : Backs s (waiting l)) :
    (flushLoop cfg env left i s).2 = (ledgerFlush cfg env left i l).2 ∧
      Backs (flushLoop cfg env left i s).1 (waiting (ledgerFlush cfg env left i l).1) := by
  induction left generalizing i s l with
  | zero => exact ⟨rfl, h⟩
  | succ left ih =>
    unfold flushLoop ledgerFlush
    rw [h.peek]
    cases hq : waiting l with
    | nil => exact ⟨rfl, h⟩
    | cons rec q =>
      dsimp only [List.head?_cons]
      split
      · rw [hq] at h
        have hsettled : waiting (settleOldest (.finished (env i)) l) = q := by
          rw [waiting_settleOldest rfl, hq, List.tail_cons]
        obtain ⟨hsent, hbacks⟩ := ih (i := i + 1) (hsettled ▸ h.advance)
        exact ⟨congrArg ((rec, env i) :: ·) hsent, hbacks⟩
      · exact ⟨rfl, h⟩

/-- **A part of a cycle does to the flash what it does to the ledger.** -/
theorem cycleStep_backs {l : Ledger} (h : Backs s (waiting l)) (c : Cycle) :
    (cycleStep cfg s c).2 = (ledgerStep cfg l c).2 ∧
      Backs (cycleStep cfg s c).1 (waiting (ledgerStep cfg l c).1) := by
  cases c with
  | post now meterIndex online x e =>
    refine ⟨rfl, ?_⟩
    unfold cycleStep ledgerStep postTelemetry
    dsimp only
    cases deliverRecord cfg e (makeRecord now meterIndex online x) with
    | true =>
      have hsame : waiting (l ++ [(makeRecord now meterIndex online x, .finished e)]) = waiting l := by
        rw [waiting_append]
        exact List.append_nil _
      exact hsame ▸ h
    | false =>
      have hnew : waiting (evictFor l ++ [(makeRecord now meterIndex online x, .waiting)]) =
          waiting (evictFor l) ++ [makeRecord now meterIndex online x] := waiting_append _ _
      have henqueue := h.enqueue (makeRecord now meterIndex online x)
      rw [← waiting_evictFor, ← hnew] at henqueue
      exact henqueue
  | flush wifi env =>
    unfold cycleStep ledgerStep flushQueue
    dsimp only
    rw [h.count]
    cases wifi with
    | false =>
      split
      · exact ⟨rfl, h⟩
      · exact ⟨rfl, h⟩
    | true =>
      split
      · rename_i hnone
        have hq : waiting l = [] := List.length_eq_zero_iff.mp hnone
        have hstay : ledgerFlush cfg env maxFlushPerLoop 0 l = (l, []) := by
          unfold maxFlushPerLoop ledgerFlush
          rw [hq]
          rfl
        rw [if_pos rfl, hstay]
        exact ⟨rfl, h⟩
      · exact flushLoop_backs env h

/-! ## what the ledger says -/

/-- an entry is settled by a delivery that was made, or evicted where the queue was full; the oldest go first -/
structure Accounted (done : Sinks → TelemetryRecord → Prop) (sent : List Delivery) (l : Ledger) : Prop where
  finished : ∀ rec e, (rec, .finished e) ∈ l → (rec, e) ∈ sent ∧ done e rec
  evicted : ∀ rec n, (rec, .evicted n) ∈ l → maxQueueBytes < recordSize * n + recordSize
  ordered : l.Pairwise fun a b => a.2 = .waiting → ∀ n, b.2 ≠ .evicted n

variable {done : Sinks → TelemetryRecord → Prop} {sent sent' : List Delivery} {l : Ledger}

theorem Accounted.more (h : Accounted done sent l) (hsub : sent ⊆ sent') : Accounted done sent' l where
  finished rec e hmem := ⟨hsub (h.finished rec e hmem).1, (h.finished rec e hmem).2⟩
  evicted := h.evicted
  ordered := h.ordered

theorem ordered_settleOldest {f : Fate} (hf : f.isWaiting = false)
    (h : l.Pairwise fun a b => a.2 = .waiting → ∀ n, b.2 ≠ .evicted n) :
    (settleOldest f l).Pairwise fun a b => a.2 = .waiting → ∀ n, b.2 ≠ .evicted n := by
  induction l with
  | nil => exact h
  | cons entry l ih =>
    obtain ⟨hfirst, hrest⟩ := List.pairwise_cons.mp h
    unfold settleOldest
    split
    · refine List.pairwise_cons.mpr ⟨fun b _ (hwaits : f = .waiting) => ?_, hrest⟩
      rw [hwaits] at hf
      cases hf
    · rename_i hsettled
      refine List.pairwise_cons.mpr ⟨fun b _ hwaits => ?_, ih hrest⟩
      rw [hwaits] at hsettled
      exact absurd rfl hsettled

/-- the oldest record that waits is delivered -/
theorem Accounted.finish {rec : TelemetryRecord} {e : Sinks} (h : Accounted done sent l)
    (hhead : (waiting l).head? = some rec) (hsent : (rec, e) ∈ sent) (hdone : done e rec) :
    Accounted done sent (settleOldest (.finished e) l) where
  finished rec' e' hmem := by
    rcases mem_settleOldest hmem with hmem | ⟨hfate, hhead'⟩
    · exact h.finished rec' e' hmem
    · obtain rfl : e' = e := Fate.finished.inj hfate
      obtain rfl : rec = rec' := Option.some.inj (hhead.symm.trans hhead')
      exact ⟨hsent, hdone⟩
  evicted rec' n hmem := by
    rcases mem_settleOldest hmem with hmem | ⟨hfate, -⟩
    · exact h.evicted rec' n hmem
    · cases hfate
  ordered := ordered_settleOldest rfl h.ordered

theorem Accounted.evict (h : Accounted done sent l) : Accounted done sent (evictFor l) := by
  unfold evictFor
  split
  · rename_i hfull
    refine ⟨fun rec e hmem => ?_, fun rec n hmem => ?_, ordered_settleOldest rfl h.ordered⟩
    · rcases mem_settleOldest hmem with hmem | ⟨hfate, -⟩
      · exact h.finished rec e hmem
      · cases hfate
    · rcases mem_settleOldest hmem with hmem | ⟨hfate, -⟩
      · exact h.evicted rec n hmem
      · obtain rfl : n = (waiting l).length := Fate.evicted.inj hfate
        exact hfull
  · exact h

/-- a captured record is entered -/
theorem Accounted.enter {rec : TelemetryRecord} {f : Fate} (h : Accounted done sent l)
    (hf : f = .waiting ∨ ∃ e, f = .finished e ∧ (rec, e) ∈ sent ∧ done e rec) :
    Accounted done sent (l ++ [(rec, f)]) where
  finished rec' e' hmem := by
    rcases List.mem_append.mp hmem with hmem | hmem
    · exact h.finished rec' e' hmem
    · obtain ⟨rfl, rfl⟩ := Prod.mk.inj (List.mem_singleton.mp hmem)
      rcases hf with hf | ⟨e, hf, hdone⟩
      · cases hf
      · obtain rfl := Fate.finished.inj hf
        exact hdone
  evicted rec' n hmem := by
    rcases List.mem_append.mp hmem with hmem | hmem
    · exact h.evicted rec' n hmem
    · obtain ⟨rfl, rfl⟩ := Prod.mk.inj (List.mem_singleton.mp hmem)
      rcases hf with hf | ⟨e, hf, -⟩
      · cases hf
      · cases hf
  ordered := by
    refine List.pairwise_append.mpr ⟨h.ordered, List.pairwise_singleton _ _, fun a _ b hb _ n hn => ?_⟩
    obtain rfl := List.mem_singleton.mp hb
    obtain rfl : f = .evicted n := hn
    rcases hf with hf | ⟨e, hf, -⟩
    · cases hf
    · cases hf

theorem ledgerFlush_accounted (hdone : ∀ e rec, deliverRecord cfg e rec = true → done e rec) (env : ℕ → Sinks)
    {left i : ℕ} (h : Accounted done sent l) :
    Accounted done (sent ++ (ledgerFlush cfg env left i l).2) (ledgerFlush cfg env left i l).1 := by
  induction left generalizing i sent l with
  | zero => exact h.more (List.subset_append_left _ _)
  | succ left ih =>
    unfold ledgerFlush
    cases hhead : (waiting l).head? with
    | none => exact h.more (List.subset_append_left _ _)
    | some rec =>
      dsimp only
      split
      · rename_i hdelivered
        have hnow : Accounted done (sent ++ [(rec, env i)]) (settleOldest (.finished (env i)) l) :=
          (h.more (List.subset_append_left _ _)).finish hhead
            (List.mem_append_right _ (List.mem_singleton_self _)) (hdone _ _ hdelivered)
        have hrest := ih (i := i + 1) hnow
        rw [List.append_assoc] at hrest
        exact hrest
      · exact h.more (List.subset_append_left _ _)

theorem ledgerStep_accounted (hdone : ∀ e rec, deliverRecord cfg e rec = true → done e rec) (c : Cycle)
    (h : Accounted done sent l) :
    Accounted done (sent ++ (ledgerStep cfg l c).2) (ledgerStep cfg l c).1 := by
  cases c with
  | post now meterIndex online x e =>
    have hmore := h.more (List.subset_append_left sent [(makeRecord now meterIndex online x, e)])
    unfold ledgerStep
    dsimp only
    split
    · rename_i hdelivered
      exact hmore.enter
        (.inr ⟨e, rfl, List.mem_append_right _ (List.mem_singleton_self _), hdone _ _ hdelivered⟩)
    · exact hmore.evict.enter (.inl rfl)
  | flush wifi env =>
    unfold ledgerStep
    dsimp only
    split
    · exact ledgerFlush_accounted hdone env h
    · exact h.more (List.subset_append_left _ _)

theorem captured_ledgerFlush (env : ℕ → Sinks) (left i : ℕ) (l : Ledger) :
    (ledgerFlush cfg env left i l).1.map Prod.fst = l.map Prod.fst := by
  induction left generalizing i l with
  | zero => rfl
  | succ left ih =>
    unfold ledgerFlush
    split
    · rfl
    · split
      · exact (ih (i + 1) _).trans (captured_settleOldest _ l)
      · rfl

/-! ## runs -/

/-- the record that is captured -/
def Cycle.record : Cycle → Option TelemetryRecord
  | .post now meterIndex online x _ => some (makeRecord now meterIndex online x)
  | .flush _ _ => none

section
variable (cfg : Config) (cycles : List Cycle)

def ledger : Ledger := final (ledgerStep cfg) [] cycles

/-- everything that is sent in a run -/
def deliveries : List Delivery := (answers (cycleStep cfg) .blank cycles).flatMap Prod.snd

/-- the queue of a run is what its ledger has waiting, and the ledger has every captured record, with its reason
where it waits no more -/
structure Forwards (done : Sinks → TelemetryRecord → Prop) : Prop where
  sent : answers (cycleStep cfg) .blank cycles = answers (ledgerStep cfg) [] cycles
  queue : readable (final (cycleStep cfg) .blank cycles) = (waiting (ledger cfg cycles)).map encode
  captured : (ledger cfg cycles).map Prod.fst = cycles.filterMap Cycle.record
  accounted : Accounted done (deliveries cfg cycles) (ledger cfg cycles)
  aligned : recordSize ∣ (final (cycleStep cfg) .blank cycles).qOffset

theorem captured_evictFor (l : Ledger) : (evictFor l).map Prod.fst = l.map Prod.fst := by
  unfold evictFor
  split
  · exact captured_settleOldest _ l
  · rfl

theorem captured_ledgerStep (l : Ledger) (c : Cycle) :
    (ledgerStep cfg l c).1.map Prod.fst = l.map Prod.fst ++ c.record.toList := by
  cases c with
  | post now meterIndex online x e =>
    unfold ledgerStep
    dsimp only
    split
    · exact List.map_append
    · rw [List.map_append, captured_evictFor]
      rfl
  | flush wifi env =>
    unfold ledgerStep
    dsimp only
    split
    · exact (captured_ledgerFlush env _ _ l).trans (List.append_nil _).symm
    · exact (List.append_nil _).symm

theorem captured_run (l : Ledger) :
    (final (ledgerStep cfg) l cycles).map Prod.fst = l.map Prod.fst ++ cycles.filterMap Cycle.record := by
  induction cycles generalizing l with
  | nil => exact (List.append_nil _).symm
  | cons c cycles ih =>
    rw [final, ih, captured_ledgerStep, List.append_assoc]
    cases c with
    | post => rfl
    | flush => rfl

theorem accounted_run {cfg : Config} (hdone : ∀ e rec, deliverRecord cfg e rec = true → done e rec)
    (h : Accounted done sent l) :
    Accounted done (sent ++ (answers (ledgerStep cfg) l cycles).flatMap Prod.snd)
      (final (ledgerStep cfg) l cycles) := by
  induction cycles generalizing l sent with
  | nil => exact h.more (List.subset_append_left _ _)
  | cons c cycles ih =>
    have hrest := ih (ledgerStep_accounted hdone c h)
    rw [List.append_assoc] at hrest
    exact hrest

/-- **Every record that was captured waits in the queue, or both sinks are done with it, or it was the oldest of a
full queue.** The offset is between two records, and a compaction changes nothing that can be read. -/
theorem forwarded :
    Forwards cfg cycles (fun e rec =>
      MqttAccepted e ∧ (GridProofAccepted cfg e rec ∨ GridProofRefused cfg e rec ∨ GivenUp cfg e rec)) ∧
    ∀ s, readable (compactQueueIfNeeded .unlimited s).2 = readable s := by
  have hnone : Accounted (fun e rec =>
      MqttAccepted e ∧ (GridProofAccepted cfg e rec ∨ GridProofRefused cfg e rec ∨ GivenUp cfg e rec)) [] [] :=
    ⟨nofun, nofun, .nil⟩
  have hrun := (along_true (cycleStep cfg) .blank cycles).simulates (t := []) (ledgerStep cfg)
    (fun s l => Backs s (waiting l)) (fun s l c h _ => cycleStep_backs h c) blank_backs
  obtain ⟨hsent, hbacks⟩ := hrun
  have haccounted := accounted_run cycles (fun e rec => (deliver_iff cfg e rec).mp) hnone
  rw [← hsent] at haccounted
  refine ⟨⟨hsent, hbacks.read, captured_run cfg cycles [], haccounted, hbacks.whole.aligned⟩, ?_⟩
  intro s
  obtain ⟨_, t, hcompact, hc⟩ := ends_unfailing (compact_ends (unlimited_replaces s)) rfl
  rw [hcompact]
  exact readable_congr hc.rest

end

/-- the broker and GridProof do not answer -/
def Sinks.down (now : BitVec 32) : Sinks := ⟨now, false, false, false, false, -1⟩

/-- both sinks take what they get -/
def Sinks.up (now : BitVec 32) : Sinks := ⟨now, true, true, true, true, 202⟩

/-- a record that waited for a day leaves the queue without GridProof being asked -/
theorem given_up : ¬∀ (cfg : Config) (cycles : List Cycle),
    Forwards cfg cycles (fun e rec =>
      MqttAccepted e ∧ (GridProofAccepted cfg e rec ∨ GridProofRefused cfg e rec)) ∧
    ∀ s, readable (compactQueueIfNeeded .unlimited s).2 = readable s := by
  intro h
  have hrun := (h shipped [.post 1800000000 0 true .zero (.down 1800000000),
    .flush true fun _ => .up 1800086400]).1.accounted
  have hledger : ledger shipped [.post 1800000000 0 true .zero (.down 1800000000),
      .flush true fun _ => .up 1800086400] =
      [(makeRecord 1800000000 0 true .zero, .finished (.up 1800086400))] := rfl
  rw [hledger] at hrun
  obtain ⟨-, -, hanswer⟩ := hrun.finished _ _ (List.mem_singleton_self _)
  have hexpired : gridProofRecordExpired 1800086400 (makeRecord 1800000000 0 true .zero) = true := rfl
  rcases hanswer with ⟨⟨-, hfresh, -⟩, -⟩ | ⟨⟨-, hfresh, -⟩, -⟩
  · cases hexpired.symm.trans hfresh
  · cases hexpired.symm.trans hfresh

end Firmware
