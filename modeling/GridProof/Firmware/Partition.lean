import GridProof.Firmware.QueueRuns
import GridProof.Lib.Simulation

/-!
# The offline queue and its partition

What is delivered or dropped stays in the file until a compaction, and a compaction keeps the old file until the
copy is whole.  So the bytes on the flash are not bounded by `maxQueueBytes`.

* `partition`        the flash of a partition of so many bytes, of which a write stores what is free;
* `Fits`             there is room for the record, and for the copy where a compaction makes one;
* `partition_fifo`   in a run of calls that fit, the queue is one of which only the oldest records are dropped;
* `growing_run`      the file of a queue that is never delivered from, which no call compacts.
-/

namespace Firmware
open Outage Keyed

/-- the power is there, and a write stores what is free of `c` bytes -/
def partition (c : ℕ) : Supply := ⟨none, fun _ s n => min n (c - s.used)⟩

/-- 9.9 MB -/
def partitionBytes : ℕ := 99 * 1024 * 1024 / 10

def partitionStep (c : ℕ) (s : Flash) (op : QueueOp) : Flash × Outcome := queueStep s (op, partition c)

/-- there is room for the copy that a compaction makes -/
def Flash.CopyFits (c : ℕ) (s : Flash) : Prop := s.Halved → s.bytes.length + s.rest.length ≤ c

/-- the file with a new record -/
def Flash.enlarged (rec : Block) (s : Flash) : Flash := { s with queueFile := some (s.bytes ++ rec.bytes) }

/-- the condition under which a call does what it is to do -/
def Fits (c : ℕ) (s : Flash) : QueueOp → Prop
  | .enqueue rec =>
    s.qOffset ≤ s.bytes.length ∧ s.bytes.length + recordSize ≤ c ∧ (s.roomy.enlarged rec).CopyFits c
  | .peek => True
  | .advance => (s.skipped 1).CopyFits c

instance (c : ℕ) (s : Flash) : Decidable (s.CopyFits c) := inferInstanceAs (Decidable (_ → _))

instance (c : ℕ) (s : Flash) (op : QueueOp) : Decidable (Fits c s op) :=
  match op with
  | .enqueue _ => inferInstanceAs (Decidable (_ ∧ _ ∧ _))
  | .peek => isTrue trivial
  | .advance => inferInstanceAs (Decidable (Flash.CopyFits c _))

variable {c : ℕ} {s : Flash} {rec : Block}

theorem partition_replaces (h : s.CopyFits c) : (partition c).Replaces s := by
  intro hhalved
  refine ⟨nofun, nofun, ?_⟩
  intro i t n hfile hle
  have hroom := h hhalved
  have hbytes : (t.queueFile.getD []).length = s.bytes.length := by
    rw [hfile]
    rfl
  refine Nat.le_min.mpr ⟨Nat.le_refl n, ?_⟩
  unfold Flash.used
  omega

theorem partition_part (h : s.tmpFile = none) :
    (partition c).part rec s = rec.bytes.take (c - s.bytes.length) := by
  have hused : s.opened.used = s.bytes.length := by
    show s.bytes.length + (s.tmpFile.getD []).length = _
    rw [h]
    rfl
  unfold Supply.part
  show rec.bytes.take (min recordSize (c - s.opened.used)) = _
  rw [hused, ← rec.length_eq, List.take_eq_take_iff]
  omega

theorem partition_part_length (h : s.tmpFile = none) :
    ((partition c).part rec s).length = min (c - s.bytes.length) recordSize := by
  rw [partition_part h, List.length_take, rec.length_eq]

theorem partition_appended (h : s.tmpFile = none) (hroom : s.bytes.length + recordSize ≤ c) :
    appended (partition c) rec s = s.enlarged rec := by
  have hpart : (partition c).part rec s = rec.bytes := by
    refine part_eq ?_
    rw [partition_part_length h]
    omega
  unfold appended Flash.enlarged
  rw [hpart]

/-- one call that fits, on whole records -/
theorem partitionStep_fifo {q : List Block} {op : QueueOp} (hwhole : s.Whole) (hq : readable s = q)
    (hlength : q.length ≤ maxRecords) (hfits : Fits c s op) :
    (partitionStep c s op).2 = (fifoStep q op).2 ∧
      (partitionStep c s op).1.Whole ∧ readable (partitionStep c s op).1 = (fifoStep q op).1 := by
  subst hq
  cases op with
  | enqueue rec =>
    obtain ⟨hwithin, hroom, hcopy⟩ := hfits
    have hsingle : s.roomy.tmpFile = none := hwhole.single
    have hpart : ((partition c).part rec s.roomy).length = recordSize := by
      rw [partition_part_length hsingle]
      show min (c - s.bytes.length) recordSize = recordSize
      omega
    have happended : appended (partition c) rec s.roomy = s.roomy.enlarged rec :=
      partition_appended hsingle hroom
    obtain ⟨t, hrun, -, ht, hread⟩ := enqueue_whole hwhole hwithin hlength rfl hpart
      (happended ▸ partition_replaces hcopy)
    have hstep : partitionStep c s (.enqueue rec) = (t, .enqueued true) := congrArg (answer .enqueued) hrun
    rw [hstep]
    exact ⟨rfl, ht, hread⟩
  | peek => exact ⟨congrArg Outcome.peeked (peek_eq_head s), hwhole, rfl⟩
  | advance =>
    obtain ⟨t, hrun, -, ht, hread⟩ := advance_whole (e := partition c) hwhole rfl (partition_replaces hfits)
    have hstep : partitionStep c s .advance = (t, .advanced) := congrArg (answer fun _ => .advanced) hrun
    rw [hstep]
    exact ⟨rfl, ht, hread⟩

/-- **The queue fits its partition.** In a run of calls that fit, every record is taken and none is lost, but for the
oldest of more than `maxQueueBytes`. -/
theorem partition_fifo {ops : List QueueOp} (h : Along (partitionStep c) (Fits c) .blank ops) :
    answers (partitionStep c) .blank ops = answers fifoStep [] ops ∧
      readable (final (partitionStep c) .blank ops) = final fifoStep [] ops := by
  have hrun := h.simulates (t := []) fifoStep
    (fun s q => s.Whole ∧ readable s = q ∧ q.length ≤ maxRecords) ?_ ⟨blank_whole, rfl, Nat.zero_le _⟩
  · obtain ⟨hanswers, -, hread, -⟩ := hrun
    exact ⟨hanswers, hread⟩
  · rintro s q op ⟨hwhole, hq, hlength⟩ hfits
    obtain ⟨hanswer, hnext, hread⟩ := partitionStep_fifo hwhole hq hlength hfits
    exact ⟨hanswer, hnext, hread, fifoStep_length hlength op⟩

/-! ## a queue that grows -/

/-- `n` records are enqueued and none is delivered -/
structure Grown (n : ℕ) (s : Flash) : Prop where
  length : s.bytes.length = recordSize * n
  offset : s.qOffset = recordSize * (n - maxRecords)
  single : s.tmpFile = none

theorem Grown.roomy {n : ℕ} (h : Grown n s) :
    s.roomy.qOffset = recordSize * (n + 1 - maxRecords) ∧ surplus s.rest.length ≤ 1 := by
  have hrest : s.rest.length = recordSize * n - recordSize * (n - maxRecords) := by
    rw [rest_length, h.length, h.offset]
  have hsurplus : surplus s.rest.length = if n < maxRecords then 0 else 1 := by
    rw [hrest, surplus_def, maxRecords_eq, show recordSize = 62 from rfl]
    split
    · split
      · rfl
      · omega
    · split
      · omega
      · omega
  refine ⟨?_, ?_⟩
  · show s.qOffset + recordSize * surplus s.rest.length = _
    rw [hsurplus, h.offset, maxRecords_eq, show recordSize = 62 from rfl]
    split
    · omega
    · omega
  · rw [hsurplus]
    split
    · exact Nat.zero_le 1
    · exact Nat.le_refl 1

/-- the file only grows while less than half of it is dropped -/
theorem growing_step {n : ℕ} (h : Grown n s) (hn : n + 1 < 2 * maxRecords) (rec : Block) :
    (partitionStep c s (.enqueue rec)).2 = .enqueued (decide (recordSize ≤ c - recordSize * n)) ∧
      (recordSize ≤ c - recordSize * n → Grown (n + 1) (partitionStep c s (.enqueue rec)).1) := by
  obtain ⟨hoffset, hsurplus⟩ := h.roomy
  have hsingle : s.roomy.tmpFile = none := h.single
  have hpart : ((partition c).part rec s.roomy).length = min (c - recordSize * n) recordSize := by
    rw [partition_part_length hsingle, ← h.length]
    rfl
  have hlength : (appended (partition c) rec s.roomy).bytes.length =
      recordSize * n + min (c - recordSize * n) recordSize := by
    show (s.bytes ++ (partition c).part rec s.roomy).length = _
    rw [List.length_append, hpart, h.length]
  have hoffset' : (appended (partition c) rec s.roomy).qOffset = recordSize * (n + 1 - maxRecords) := hoffset
  have hhalf :
      ¬(appended (partition c) rec s.roomy).bytes.length / 2 < (appended (partition c) rec s.roomy).qOffset := by
    rw [hlength, hoffset', show recordSize = 62 from rfl]
    rw [maxRecords_eq] at hn ⊢
    omega
  have hreplaces : (partition c).Replaces (appended (partition c) rec s.roomy) :=
    fun hhalved => absurd hhalved.1 hhalf
  obtain ⟨ok, t, hrun, rfl, hc⟩ := ends_unfailing (enqueue_ends (Nat.le_trans hsurplus (by decide)) hreplaces) rfl
  have hstep : partitionStep c s (.enqueue rec) = (t, .enqueued _) := congrArg (answer .enqueued) hrun
  rw [hstep]
  have ht : t = appended (partition c) rec s.roomy := hc.file.resolve_right fun hfile => hhalf hfile.1
  subst ht
  refine ⟨?_, ?_⟩
  · rw [hpart]
    refine congrArg Outcome.enqueued (decide_eq_decide.mpr ?_)
    omega
  · intro hroom
    refine ⟨?_, hoffset, hsingle⟩
    rw [hlength, Nat.min_eq_right hroom, Nat.mul_succ]

/-- records are enqueued while there is room -/
theorem growing_run {n : ℕ} (hn : n < 2 * maxRecords) (hroom : recordSize * n ≤ c) (rec : Block) :
    Grown n (final (partitionStep c) .blank (List.replicate n (.enqueue rec))) := by
  induction n with
  | zero => exact ⟨rfl, rfl, rfl⟩
  | succ n ih =>
    rw [List.replicate_succ', final_append]
    rw [Nat.mul_succ] at hroom
    exact (growing_step (ih (Nat.lt_of_succ_lt hn) (Nat.le_of_add_right_le hroom)) hn rec).2 (by omega)

theorem Grown.fits {n : ℕ} (h : Grown n s) (hn : n + 1 < 2 * maxRecords) (hroom : recordSize * (n + 1) ≤ c)
    (rec : Block) : Fits c s (.enqueue rec) := by
  obtain ⟨hoffset, -⟩ := h.roomy
  have hlength : (s.roomy.enlarged rec).bytes.length = recordSize * (n + 1) := by
    show (s.bytes ++ rec.bytes).length = _
    rw [List.length_append, h.length, rec.length_eq, Nat.mul_succ]
  have hoffset' : (s.roomy.enlarged rec).qOffset = recordSize * (n + 1 - maxRecords) := hoffset
  refine ⟨?_, ?_, ?_⟩
  · rw [h.offset, h.length]
    exact Nat.mul_le_mul_left _ (Nat.sub_le n maxRecords)
  · rw [h.length]
    exact hroom
  · rintro ⟨hhalf, -⟩
    rw [hlength, hoffset', show recordSize = 62 from rfl] at hhalf
    rw [maxRecords_eq] at hn hhalf
    omega

/-- as long as there is room for the records, each of them fits -/
theorem growing_fits {n m : ℕ} (h : Grown n s) (hn : n + m < 2 * maxRecords) (hroom : recordSize * (n + m) ≤ c)
    (rec : Block) : Along (partitionStep c) (Fits c) s (List.replicate m (.enqueue rec)) := by
  induction m generalizing n s with
  | zero => trivial
  | succ m ih =>
    have hsum : n + (m + 1) = n + 1 + m := by omega
    rw [hsum] at hn hroom
    have hnext : recordSize * (n + 1) ≤ c := Nat.le_trans (Nat.mul_le_mul_left _ (Nat.le_add_right _ m)) hroom
    have hfirst : n + 1 < 2 * maxRecords := Nat.lt_of_le_of_lt (Nat.le_add_right _ m) hn
    rw [Nat.mul_succ] at hnext
    exact ⟨h.fits hfirst hnext rec, ih ((growing_step h hfirst rec).2 (by omega)) hn hroom⟩

/-- four records of which three are delivered, one after the other, in a partition for five: the last delivery copies
the fourth to the end of the partition, and four more fill the partition again -/
def tightRun : List QueueOp :=
  [.enqueue (.filled 1), .enqueue (.filled 2), .enqueue (.filled 3), .enqueue (.filled 4), .peek, .advance, .advance,
    .peek, .advance, .enqueue (.filled 5), .enqueue (.filled 6), .enqueue (.filled 7), .enqueue (.filled 8), .peek,
    .advance, .advance, .peek]

theorem tightRun_fits : Along (partitionStep 310) (Fits 310) .blank tightRun := by decide +kernel

/-- the partition of 9.9 MB is filled, where 15221 records are dropped for new ones -/
theorem partition_fifo_filled :
    (answers (partitionStep 310) .blank tightRun = answers fifoStep [] tightRun ∧
        readable (final (partitionStep 310) .blank tightRun) = final fifoStep [] tightRun) ∧
      (final (partitionStep 310) .blank tightRun).used = 310 ∧
      answers (partitionStep partitionBytes) .blank (List.replicate 167433 (.enqueue (.filled 7))) =
        answers fifoStep [] (List.replicate 167433 (.enqueue (.filled 7))) ∧
      readable (final (partitionStep partitionBytes) .blank (List.replicate 167433 (.enqueue (.filled 7)))) =
        final fifoStep [] (List.replicate 167433 (.enqueue (.filled 7))) := by
  have hblank : Grown 0 .blank := ⟨rfl, rfl, rfl⟩
  refine ⟨partition_fifo tightRun_fits, by decide +kernel, partition_fifo (growing_fits hblank ?_ ?_ _)⟩
  · rw [maxRecords_eq]
    omega
  · show 62 * (0 + 167433) ≤ 99 * 1024 * 1024 / 10
    omega

/-- where there is no room for a record behind `n`, the next one is not enqueued -/
theorem growing_full {n : ℕ} (hn : n + 1 < 2 * maxRecords) (hroom : recordSize * n ≤ c)
    (hfull : c < recordSize * (n + 1)) (rec : Block) :
    answers (partitionStep c) .blank (List.replicate n (.enqueue rec) ++ [.enqueue rec]) ≠
      answers fifoStep [] (List.replicate n (.enqueue rec) ++ [.enqueue rec]) := by
  intro h
  have hgrown := growing_run (Nat.lt_of_succ_lt hn) hroom rec
  have hstep := (growing_step (c := c) hgrown hn rec).1
  have hno : ¬recordSize ≤ c - recordSize * n := by
    rw [Nat.mul_succ] at hfull
    omega
  rw [decide_eq_false hno] at hstep
  rw [answers_append, answers_append] at h
  have hlast := (List.append_inj' h (by rw [answers_length, answers_length])).2
  have hanswer := congrArg Prod.snd (List.head_eq_of_cons_eq hlast)
  cases hstep.symm.trans hanswer

/-- the partition takes 167433 records that are not delivered; the next one is not enqueued -/
theorem partition_full : ¬∀ ops : List QueueOp,
    answers (partitionStep partitionBytes) .blank ops = answers fifoStep [] ops ∧
      readable (final (partitionStep partitionBytes) .blank ops) = final fifoStep [] ops := by
  intro h
  have hmany : 167433 + 1 < 2 * maxRecords := by
    rw [maxRecords_eq]
    omega
  have hroom : recordSize * 167433 ≤ partitionBytes := by
    show 62 * 167433 ≤ 99 * 1024 * 1024 / 10
    omega
  have hfull : partitionBytes < recordSize * (167433 + 1) := by
    show 99 * 1024 * 1024 / 10 < 62 * 167434
    omega
  exact growing_full hmany hroom hfull (.filled 7) (h _).1

end Firmware
