import GridProof.Firmware.QueueRuns
import GridProof.Lib.Simulation

/-!
# The offline queue and the power

The power may be lost before any command of a call, and a write may be cut short at any length.  Then nobody knows
whether a record that was being enqueued is there, and whether one that was being delivered is still there; of the
others every one is to be there.

* `after`             the queues that a call may leave, by what it answers;
* `Survives`          where a call keeps the records: a record is enqueued behind whole records, and a compaction
                      replaces the file;
* `powerLoss_readable`   in a run of such calls, what can be read is a queue that its answers leave open.

A compaction removes the old file before the new one has its name, and clears the offset after that: in between the
records are lost, or half of them are skipped.
-/

namespace Firmware
open Outage Keyed

/-- the queues after a call on `q`, by its answer -/
def after (q : List Block) : QueueOp → Outcome → List (List Block)
  | .enqueue rec, .lost => evictions q ++ [makeRoom q ++ [rec]]
  | .enqueue rec, .enqueued ok => [if ok then makeRoom q ++ [rec] else makeRoom q]
  | .peek, .peeked rec => if rec = q.head? then [q] else []
  | .advance, .lost => [q, q.tail]
  | .advance, .advanced => [q.tail]
  | _, _ => []

/-- the records that are not delivered, as far as the answers tell -/
def undelivered (events : List ((QueueOp × Supply) × Outcome)) : List (List Block) :=
  possible (fun q (a : QueueOp × Supply) => after q a.1) [] events

/-- the condition under which a call keeps the other records -/
def Survives (s : Flash) (a : QueueOp × Supply) : Prop :=
  match a.1 with
  | .enqueue rec =>
    s.qOffset ≤ s.bytes.length ∧ recordSize ∣ s.rest.length ∧ a.2.Replaces (appended a.2 rec s.roomy)
  | .peek => True
  | .advance => a.2.Replaces (s.skipped 1)

theorem after_length {q q' : List Block} {op : QueueOp} {o : Outcome} (h : q' ∈ after q op o)
    (hq : q.length ≤ maxRecords) : q'.length ≤ maxRecords := by
  have hroom := makeRoom_length q
  have hnew (rec : Block) : (makeRoom q ++ [rec]).length ≤ maxRecords := by
    rw [List.length_append]
    exact hroom
  have htail : q.tail.length ≤ maxRecords := by
    rw [List.length_tail]
    omega
  unfold after at h
  split at h
  · rcases List.mem_append.mp h with h | h
    · obtain ⟨j, -, rfl⟩ := List.mem_map.mp h
      rw [List.length_drop]
      omega
    · rw [List.mem_singleton.mp h]
      exact hnew _
  · rw [List.mem_singleton.mp h]
    split
    · exact hnew _
    · omega
  · split at h
    · rw [List.mem_singleton.mp h]
      exact hq
    · exact absurd h List.not_mem_nil
  · rcases List.mem_cons.mp h with rfl | h
    · exact hq
    · rw [List.mem_singleton.mp h]
      exact htail
  · rw [List.mem_singleton.mp h]
    exact htail
  · exact absurd h List.not_mem_nil

variable {s : Flash}

theorem enqueue_survives {e : Supply} {rec : Block} (hwithin : s.qOffset ≤ s.bytes.length)
    (hwhole : recordSize ∣ s.rest.length) (hreplaces : e.Replaces (appended e rec s.roomy))
    (hlength : (readable s).length ≤ maxRecords) :
    readable (queueStep s (.enqueue rec, e)).1 ∈
      after (readable s) (.enqueue rec) (queueStep s (.enqueue rec, e)).2 := by
  have hone : surplus s.rest.length ≤ 1 := by
    rw [surplus_rest hwhole]
    exact surplus_le_one hlength
  have hrec : readable (appended e rec s.roomy) = _ := readable_appended hwithin hwhole
  refine ends_answer (P := fun r => readable r.1 ∈ after (readable s) (.enqueue rec) r.2)
    (enqueue_ends (Nat.le_trans hone (by decide)) hreplaces) ?_ ?_
  · rintro _ t ⟨rfl, hc⟩
    refine List.mem_singleton.mpr ?_
    rw [readable_congr hc.rest, hrec]
    by_cases hall : (e.part rec s.roomy).length = recordSize
    · rw [if_pos hall, if_pos (decide_eq_true hall)]
    · rw [if_neg hall, decide_eq_false hall]
      rfl
  · rintro t ⟨-, ⟨j, hj, ht⟩ | ht⟩
    · rw [surplus_rest hwhole] at hj
      refine List.mem_append_left _ ?_
      rw [readable_congr ht, readable_skipped]
      exact List.mem_map_of_mem (List.mem_range.mpr (Nat.lt_succ_of_le hj))
    · refine List.mem_append.mpr ?_
      rw [readable_congr ht, hrec]
      by_cases hall : (e.part rec s.roomy).length = recordSize
      · rw [if_pos hall]
        exact .inr (List.mem_singleton_self _)
      · rw [if_neg hall]
        exact .inl (makeRoom_mem_evictions _)

theorem advance_survives {e : Supply} (hreplaces : e.Replaces (s.skipped 1)) :
    readable (queueStep s (.advance, e)).1 ∈ after (readable s) .advance (queueStep s (.advance, e)).2 := by
  refine ends_answer (P := fun r => readable r.1 ∈ after (readable s) .advance r.2) (advance_ends hreplaces) ?_ ?_
  · intro _ t hc
    refine List.mem_singleton.mpr ?_
    rw [readable_congr hc.rest, readable_skipped_one]
  · rintro t ⟨-, ht | ht⟩
    · rw [readable_congr ht]
      exact List.mem_cons_self
    · rw [readable_congr ht, readable_skipped_one]
      exact List.mem_cons_of_mem _ (List.mem_singleton_self _)

/-- one call keeps the records -/
theorem step_survives {a : QueueOp × Supply} (h : Survives s a) (hlength : (readable s).length ≤ maxRecords) :
    readable (queueStep s a).1 ∈ after (readable s) a.1 (queueStep s a).2 := by
  obtain ⟨op, e⟩ := a
  cases op with
  | enqueue rec => exact enqueue_survives h.1 h.2.1 h.2.2 hlength
  | peek =>
    show readable s ∈ if dequeuePeekRecord s = (readable s).head? then [readable s] else []
    rw [if_pos (peek_eq_head s)]
    exact List.mem_singleton_self _
  | advance => exact advance_survives h

/-- **The records survive.** In a run of calls that keep them, what can be read is a queue that the answers leave
open: of the calls that lost power, the record that was being enqueued may be missing, and the one that was being
delivered may be there again. -/
theorem powerLoss_readable {run : List (QueueOp × Supply)} (h : Along queueStep Survives .blank run) :
    readable (final queueStep .blank run) ∈ undelivered (answers queueStep .blank run) := by
  have hrun := h.possible (t := []) (fun q a => after q a.1)
    (fun s q => readable s = q ∧ q.length ≤ maxRecords) ?_ ⟨rfl, Nat.zero_le _⟩
  · obtain ⟨q, hq, rfl, -⟩ := hrun
    exact hq
  · rintro s _ a ⟨rfl, hlength⟩ hok
    have hmem := step_survives hok hlength
    exact ⟨_, hmem, rfl, after_length hmem hlength⟩

/-- the power is lost before a command, and every write before it is whole -/
def Supply.cutAt (p : Place) : Supply := ⟨some p, fun _ _ n => n⟩

/-- the power is there, and of a record that is appended `k` bytes are stored -/
def Supply.shortOf (k : ℕ) : Supply := ⟨none, fun p _ n => if p = .append then min n k else n⟩

theorem cutAt_replaces {p : Place} (hrename : p ≠ .rename) (hreset : p ≠ .reset) (s : Flash) :
    (Supply.cutAt p).Replaces s := by
  intro _
  refine ⟨?_, ?_, fun _ _ n _ _ => Nat.le_refl n⟩
  · exact fun h => hrename (Option.some.inj h)
  · exact fun h => hreset (Option.some.inj h)

theorem shortOf_replaces (k : ℕ) (s : Flash) : (Supply.shortOf k).Replaces s := by
  intro _
  refine ⟨nofun, nofun, ?_⟩
  intro i t n _ _
  simp [Supply.shortOf]

/-- five records, of which one is enqueued again after the power was lost and the last is stored in part; the power
is lost in a compaction too, and two others copy what is left -/
def outages : List (QueueOp × Supply) :=
  [(.enqueue (.filled 1), .unlimited), (.enqueue (.filled 2), .unlimited),
    (.enqueue (.filled 3), .cutAt .append), (.enqueue (.filled 3), .unlimited),
    (.peek, .unlimited), (.advance, .unlimited), (.advance, .cutAt (.copy 0)),
    (.peek, .unlimited), (.enqueue (.filled 4), .unlimited), (.advance, .unlimited),
    (.enqueue (.filled 5), .shortOf 20), (.peek, .unlimited), (.advance, .unlimited), (.peek, .unlimited)]

theorem powerLoss_readable_outages :
    (answers queueStep .blank outages).map Prod.snd =
        [.enqueued true, .enqueued true, .lost, .enqueued true, .peeked (some (.filled 1)), .advanced, .lost,
          .peeked (some (.filled 3)), .enqueued true, .advanced, .enqueued false, .peeked (some (.filled 4)),
          .advanced, .peeked none] ∧
      readable (final queueStep .blank outages) ∈ undelivered (answers queueStep .blank outages) := by
  refine ⟨by decide +kernel, powerLoss_readable ?_⟩
  refine ⟨⟨Nat.zero_le _, ⟨0, rfl⟩, unlimited_replaces _⟩, ⟨by decide +kernel, by decide +kernel, ?_⟩, ?_⟩
  · exact unlimited_replaces _
  refine ⟨⟨by decide +kernel, by decide +kernel, cutAt_replaces (by decide) (by decide) _⟩, ?_⟩
  refine ⟨⟨by decide +kernel, by decide +kernel, unlimited_replaces _⟩, trivial, unlimited_replaces _, ?_⟩
  refine ⟨cutAt_replaces (by decide) (by decide) _, trivial, ?_⟩
  refine ⟨⟨by decide +kernel, by decide +kernel, unlimited_replaces _⟩, unlimited_replaces _, ?_⟩
  refine ⟨⟨by decide +kernel, by decide +kernel, shortOf_replaces 20 _⟩, trivial, ?_⟩
  exact ⟨unlimited_replaces _, trivial, trivial⟩

/-- the power is lost between the removal of the old file and the new name: of three records the second is
delivered, and the third is lost -/
theorem lost_in_compaction : ¬∀ run : List (QueueOp × Supply),
    readable (final queueStep .blank run) ∈ undelivered (answers queueStep .blank run) := by
  intro h
  refine absurd (h [(.enqueue (.filled 1), .unlimited), (.enqueue (.filled 2), .unlimited),
    (.enqueue (.filled 3), .unlimited), (.advance, .unlimited), (.advance, .cutAt .rename)]) ?_
  decide +kernel

end Firmware
