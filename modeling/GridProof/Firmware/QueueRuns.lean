import GridProof.Firmware.QueueSteps
import GridProof.Lib.Keyed

/-!
# Runs of the queue

The queue is driven by three functions.  As long as the power is there and every write is whole, it does what a
queue does of which the oldest records are dropped for new ones.

* `queueStep`   one call on the flash, and what it answers;
* `fifoStep`    one call on a queue of records;
* `Whole`       a flash of whole records; `enqueue_whole`, `advance_whole` keep it;
* `drained_eq`  `readable` is what peeking and advancing gives, one record after the other.
-/

namespace Firmware
open Outage

inductive QueueOp where
  | enqueue (rec : Block)
  | peek
  | advance
deriving DecidableEq

/-- what a call answers -/
inductive Outcome where
  /-- nothing: the power was lost -/
  | lost
  | enqueued (ok : Bool)
  | peeked (rec : Option Block)
  | advanced
deriving DecidableEq

def answer {α : Type} (f : α → Outcome) : Option α × Flash → Flash × Outcome
  | (some a, t) => (t, f a)
  | (none, t) => (t, .lost)

def queueStep (s : Flash) (a : QueueOp × Supply) : Flash × Outcome :=
  match a.1 with
  | .enqueue rec => answer .enqueued (enqueueRecord a.2 rec s)
  | .peek => (s, .peeked (dequeuePeekRecord s))
  | .advance => answer (fun _ => .advanced) (dequeueAdvance a.2 s)

/-- a call ends with an answer, or loses power -/
theorem ends_answer {α : Type} {x : Program Flash α} {s : Flash} {Q : α → Flash → Prop} {R : Flash → Prop}
    {f : α → Outcome} {P : Flash × Outcome → Prop} (h : Ends x s Q R) (hQ : ∀ a t, Q a t → P (t, f a))
    (hR : ∀ t, R t → P (t, .lost)) : P (answer f (x s)) := by
  unfold Ends at h
  generalize x s = result at h
  obtain ⟨_ | a, t⟩ := result
  · exact hR t h
  · exact hQ a t h

/-- a queue of records, of which the oldest are dropped for new ones -/
def fifoStep (q : List Block) : QueueOp → List Block × Outcome
  | .enqueue rec => (makeRoom q ++ [rec], .enqueued true)
  | .peek => (q, .peeked q.head?)
  | .advance => (q.tail, .advanced)

theorem fifoStep_length {q : List Block} (h : q.length ≤ maxRecords) (op : QueueOp) :
    (fifoStep q op).1.length ≤ maxRecords := by
  cases op with
  | enqueue rec =>
    show (makeRoom q ++ [rec]).length ≤ _
    rw [List.length_append]
    exact makeRoom_length q
  | peek => exact h
  | advance =>
    show q.tail.length ≤ _
    rw [List.length_tail]
    omega

/-! ## whole records -/

/-- the file is whole records, the offset is between two of them or behind, and there is no copy -/
structure Flash.Whole (s : Flash) : Prop where
  aligned : recordSize ∣ s.qOffset
  whole : recordSize ∣ s.bytes.length
  single : s.tmpFile = none

variable {e : Supply} {rec : Block} {s t : Flash}

theorem blank_whole : Flash.Whole .blank := ⟨⟨0, rfl⟩, ⟨0, rfl⟩, rfl⟩

theorem Flash.Whole.rest_whole (h : s.Whole) : recordSize ∣ s.rest.length := by
  rw [rest_length]
  exact Nat.dvd_sub h.whole h.aligned

theorem Flash.Whole.compacted (h : s.Whole) (hc : Compacted s t) : t.Whole := by
  have htmp := hc.tmp h.single
  rcases hc.file with rfl | ⟨-, hoffset, hbytes⟩
  · exact h
  · refine ⟨?_, ?_, htmp⟩
    · rw [hoffset]
      exact ⟨0, rfl⟩
    · rw [hbytes]
      exact h.rest_whole

theorem Flash.Whole.appended (h : s.Whole) (hpart : (e.part rec s.roomy).length = recordSize) :
    (appended e rec s.roomy).Whole where
  aligned := Nat.dvd_add h.aligned ⟨_, rfl⟩
  whole := by
    show recordSize ∣ (s.roomy.bytes ++ _).length
    rw [List.length_append, hpart]
    exact Nat.dvd_add h.whole (Nat.dvd_refl _)
  single := h.single

theorem Flash.Whole.skipped (h : s.Whole) : (s.skipped 1).Whole where
  aligned := Nat.dvd_add h.aligned ⟨_, rfl⟩
  whole := h.whole
  single := h.single

theorem surplus_guard (h : s.Whole) (hlength : (readable s).length ≤ maxRecords) :
    surplus s.rest.length ≤ 1 := by
  rw [surplus_rest h.rest_whole]
  exact surplus_le_one hlength

/-- **A record is enqueued**, where the power is there and the writes are whole. -/
theorem enqueue_whole (h : s.Whole) (hwithin : s.qOffset ≤ s.bytes.length)
    (hlength : (readable s).length ≤ maxRecords) (hlost : e.lost = none)
    (hpart : (e.part rec s.roomy).length = recordSize) (hreplaces : e.Replaces (appended e rec s.roomy)) :
    ∃ t, enqueueRecord e rec s = (some true, t) ∧ Compacted (appended e rec s.roomy) t ∧ t.Whole ∧
      readable t = makeRoom (readable s) ++ [rec] := by
  have hguard : surplus s.rest.length ≤ 100000 := Nat.le_trans (surplus_guard h hlength) (by decide)
  obtain ⟨ok, t, hrun, rfl, hc⟩ := ends_unfailing (enqueue_ends hguard hreplaces) hlost
  rw [decide_eq_true hpart] at hrun
  refine ⟨t, hrun, hc, (h.appended hpart).compacted hc, ?_⟩
  rw [readable_congr hc.rest, readable_appended hwithin h.rest_whole, if_pos hpart]

/-- **A record is delivered.** -/
theorem advance_whole (h : s.Whole) (hlost : e.lost = none)
    (hreplaces : e.Replaces (s.skipped 1)) :
    ∃ t, dequeueAdvance e s = (some (), t) ∧ Compacted (s.skipped 1) t ∧ t.Whole ∧
      readable t = (readable s).tail := by
  obtain ⟨_, t, hrun, hc⟩ := ends_unfailing (advance_ends hreplaces) hlost
  refine ⟨t, hrun, hc, h.skipped.compacted hc, ?_⟩
  rw [readable_congr hc.rest, readable_skipped_one]

/-! ## a flash without limits -/

/-- the power is always there, and every write is whole -/
def Supply.unlimited : Supply := ⟨none, fun _ _ n => n⟩

theorem unlimited_replaces (s : Flash) : Supply.unlimited.Replaces s :=
  fun _ => ⟨nofun, nofun, fun _ _ n _ _ => Nat.le_refl n⟩

theorem unlimited_part (rec : Block) (s : Flash) : (Supply.unlimited.part rec s).length = recordSize := by
  unfold Supply.part
  rw [List.length_take, rec.length_eq]
  exact Nat.min_self _

theorem unlimited_advance (s : Flash) :
    ∃ t, dequeueAdvance .unlimited s = (some (), t) ∧ readable t = (readable s).tail := by
  obtain ⟨_, t, hrun, hc⟩ := ends_unfailing (advance_ends (unlimited_replaces (s.skipped 1))) rfl
  refine ⟨t, hrun, ?_⟩
  rw [readable_congr hc.rest, readable_skipped_one]

/-- the records that are read, up to `n`, where the offset moves over each -/
def drained : ℕ → Flash → List Block
  | 0, _ => []
  | n + 1, s =>
    match dequeuePeekRecord s with
    | none => []
    | some rec => rec :: drained n (dequeueAdvance .unlimited s).2

/-- **What is read is read by the functions of the queue.** -/
theorem drained_eq {n : ℕ} (h : (readable s).length ≤ n) : drained n s = readable s := by
  induction n generalizing s with
  | zero => exact (List.length_eq_zero_iff.mp (Nat.le_zero.mp h)).symm
  | succ n ih =>
    obtain ⟨t, hrun, ht⟩ := unlimited_advance s
    rw [drained, peek_eq_head, hrun]
    cases hs : readable s with
    | nil => rfl
    | cons rec q =>
      rw [hs] at h ht
      have htail : drained n t = q := (ih (ht ▸ Nat.le_of_succ_le_succ h)).trans ht
      exact congrArg (rec :: ·) htail

end Firmware
