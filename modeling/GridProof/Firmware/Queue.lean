import Mathlib.Data.List.Basic
import GridProof.Lib.Outage

/-!
# The offline queue

Records that no sink has taken yet, on flash: a file that is appended to, and the offset of the first record that
is not delivered, kept apart from it.  The functions of `hardware.ino` are programs over these, command by command.

* `Flash`            the two files and the offset;
* `Supply`           what may go wrong in a call: the power is lost before some command, or a write is cut short;
* `enqueueRecord`, `dequeuePeekRecord`, `dequeueAdvance`, `compactQueueIfNeeded`   the functions;
* `readable`         the records that are read from the flash, one after the other.
-/

namespace Firmware
open Outage

abbrev Byte := BitVec 8

/-- `sizeof(TelemetryRecord)`, which is packed -/
def recordSize : ℕ := 62

def maxQueueBytes : ℕ := 9 * 1024 * 1024

/-- the bytes of a record -/
structure Block where
  bytes : List Byte
  length_eq : bytes.length = recordSize
deriving DecidableEq

def Block.filled (b : Byte) : Block := ⟨List.replicate recordSize b, List.length_replicate⟩

/-! ## flash -/

structure Flash where
  queueFile : Option (List Byte)
  tmpFile : Option (List Byte)
  qOffset : ℕ
deriving DecidableEq

namespace Flash

def blank : Flash := ⟨none, none, 0⟩

def bytes (s : Flash) : List Byte := s.queueFile.getD []

/-- what both files take of the partition -/
def used (s : Flash) : ℕ := (s.queueFile.getD []).length + (s.tmpFile.getD []).length

end Flash

/-- the commands that change the flash, by where they stand -/
inductive Place where
  | evict (i : ℕ)
  | openQueue
  | append
  | advance
  /-- a file that is delivered as a whole: it is removed, and the offset cleared -/
  | removeDelivered
  | clear
  /-- a file that is delivered by more than half: the rest is copied and takes its place -/
  | openTmp
  | copy (i : ℕ)
  | removeOld
  | rename
  | reset
deriving DecidableEq

structure Supply where
  /-- the command before which the power is lost -/
  lost : Option Place
  /-- how many bytes are stored by a write of so many -/
  stored : Place → Flash → ℕ → ℕ

section
variable (e : Supply)

def Supply.command {α : Type} (p : Place) (f : Flash → α × Flash) : Program Flash α :=
  Outage.command (decide (e.lost = some p)) f

def putULong (p : Place) (n : ℕ) : Program Flash Unit := e.command p fun s => ((), { s with qOffset := n })

def removeQueueFile (p : Place) : Program Flash Unit := e.command p fun s => ((), { s with queueFile := none })

/-! ## the queue -/

def queueUsedBytes (s : Flash) : ℕ :=
  let total := s.bytes.length
  let offset := s.qOffset
  if total > offset then total - offset else 0

def queueRecordCount (s : Flash) : ℕ := queueUsedBytes s / recordSize

/-- the loop that copies; `fuel` is at least the number of bytes left -/
def copyLoop : ℕ → ℕ → ℕ → Program Flash Unit
  | 0, _, _ => pure ()
  | fuel + 1, i, position => do
    let buf ← read fun s => (s.bytes.drop position).take 512
    if buf = [] then pure ()
    else do
      e.command (.copy i) fun s =>
        ((), { s with tmpFile := s.tmpFile.map fun t => t ++ buf.take (e.stored (.copy i) s buf.length) })
      copyLoop fuel (i + 1) (position + buf.length)

def compactQueueIfNeeded : Program Flash Unit := do
  let offset ← read Flash.qOffset
  let file ← read Flash.queueFile
  if offset = 0 then pure ()
  else
    match file with
    | none => pure ()
    | some bytes =>
      let total := bytes.length
      if total ≤ offset then do
        removeQueueFile e .removeDelivered
        putULong e .clear 0
      else if total / 2 < offset then do
        e.command .openTmp fun s => ((), { s with tmpFile := some [] })
        copyLoop e total 0 offset
        removeQueueFile e .removeOld
        e.command .rename fun s => ((), { s with queueFile := s.tmpFile, tmpFile := none })
        putULong e .reset 0
      else pure ()

/-- the loop that drops the oldest records; `guard` is how often it may still run -/
def evictLoop : ℕ → ℕ → Program Flash Unit
  | 0, _ => pure ()
  | guard + 1, i => do
    let used ← read queueUsedBytes
    if maxQueueBytes < used + recordSize then do
      let offset ← read Flash.qOffset
      putULong e (.evict i) (offset + recordSize)
      evictLoop guard (i + 1)
    else pure ()

/-- `enqueueRecord` behind the loop -/
def storeRecord (rec : Block) : Program Flash Bool := do
  e.command .openQueue fun s => ((), { s with queueFile := some s.bytes })
  let written ← e.command .append fun s =>
    let stored := rec.bytes.take (e.stored .append s recordSize)
    (stored.length, { s with queueFile := some (s.bytes ++ stored) })
  compactQueueIfNeeded e
  return written = recordSize

def enqueueRecord (rec : Block) : Program Flash Bool := do
  evictLoop e 100000 0
  storeRecord e rec

def dequeueAdvance : Program Flash Unit := do
  let offset ← read Flash.qOffset
  putULong e .advance (offset + recordSize)
  compactQueueIfNeeded e

end

def dequeuePeekRecord (s : Flash) : Option Block :=
  match s.queueFile with
  | none => none
  | some bytes =>
    if h : s.qOffset + recordSize ≤ bytes.length then
      some ⟨(bytes.drop s.qOffset).take recordSize, by rw [List.length_take, List.length_drop]; omega⟩
    else none

/-! ## what is read -/

/-- whole records from the front, as long as there are bytes for one; `n` is at least their number -/
def blocks : ℕ → List Byte → List Block
  | 0, _ => []
  | n + 1, bytes =>
    if h : recordSize ≤ bytes.length then
      ⟨bytes.take recordSize, by rw [List.length_take]; omega⟩ :: blocks n (bytes.drop recordSize)
    else []

/-- the bytes behind the offset -/
def Flash.rest (s : Flash) : List Byte := s.bytes.drop s.qOffset

/-- the records that peeking and advancing gives, one after the other -/
def readable (s : Flash) : List Block := blocks s.rest.length s.rest

def joined (q : List Block) : List Byte := q.flatMap Block.bytes

theorem joined_cons (b : Block) (q : List Block) : joined (b :: q) = b.bytes ++ joined q := rfl

theorem joined_append (q q' : List Block) : joined (q ++ q') = joined q ++ joined q' := List.flatMap_append

theorem joined_drop (q : List Block) (n : ℕ) : (joined q).drop (recordSize * n) = joined (q.drop n) := by
  induction n generalizing q with
  | zero => rfl
  | succ n ih =>
    cases q with
    | nil => exact List.drop_nil
    | cons b q =>
      rw [joined_cons, Nat.mul_succ, Nat.add_comm, ← List.drop_drop, List.drop_left' b.length_eq, ih]
      rfl

theorem joined_length (q : List Block) : (joined q).length = recordSize * q.length := by
  induction q with
  | nil => rfl
  | cons b q ih =>
    rw [joined_cons, List.length_append, ih, b.length_eq, List.length_cons, Nat.mul_succ, Nat.add_comm]

/-- whole records and a part of one are read as the records -/
theorem blocks_joined {q : List Block} {tail : List Byte} (htail : tail.length < recordSize) {n : ℕ}
    (hn : q.length ≤ n) : blocks n (joined q ++ tail) = q := by
  induction q generalizing n with
  | nil =>
    cases n with
    | zero => rfl
    | succ n => exact dif_neg (Nat.not_le.mpr htail)
  | cons b q ih =>
    obtain ⟨n, rfl⟩ := Nat.exists_eq_succ_of_ne_zero (Nat.ne_of_gt (Nat.lt_of_lt_of_le (Nat.zero_lt_succ _) hn))
    have hle : recordSize ≤ (joined (b :: q) ++ tail).length := by
      rw [joined_cons, List.length_append, List.length_append, b.length_eq]
      omega
    have htake : (joined (b :: q) ++ tail).take recordSize = b.bytes := by
      rw [joined_cons, List.append_assoc]
      exact List.take_left' b.length_eq
    have hdrop : (joined (b :: q) ++ tail).drop recordSize = joined q ++ tail := by
      rw [joined_cons, List.append_assoc]
      exact List.drop_left' b.length_eq
    rw [blocks, dif_pos hle]
    simp only [htake, hdrop]
    rw [ih (Nat.le_of_succ_le_succ hn)]

/-- any bytes are whole records and a part of one -/
theorem joined_blocks {n : ℕ} {bytes : List Byte} (hn : bytes.length ≤ n) :
    ∃ tail, bytes = joined (blocks n bytes) ++ tail ∧ tail.length < recordSize := by
  induction n generalizing bytes with
  | zero =>
    obtain rfl := List.length_eq_zero_iff.mp (Nat.le_zero.mp hn)
    exact ⟨[], rfl, by decide⟩
  | succ n ih =>
    unfold blocks
    split
    · rename_i hle
      have hsize : recordSize = 62 := rfl
      have hle : (bytes.drop recordSize).length ≤ n := by
        rw [List.length_drop]
        omega
      obtain ⟨tail, htail, hlt⟩ := ih hle
      refine ⟨tail, ?_, hlt⟩
      rw [joined_cons, List.append_assoc, ← htail]
      exact (List.take_append_drop recordSize bytes).symm
    · rename_i hlt
      exact ⟨bytes, rfl, Nat.not_le.mp hlt⟩

variable {q : List Block} {tail : List Byte} {s t : Flash}

theorem readable_of_rest (h : s.rest = joined q ++ tail) (htail : tail.length < recordSize) : readable s = q := by
  unfold readable
  rw [h]
  refine blocks_joined htail ?_
  rw [List.length_append, joined_length]
  have : q.length ≤ recordSize * q.length := Nat.le_mul_of_pos_left _ (by decide)
  omega

theorem rest_eq (s : Flash) : ∃ tail, s.rest = joined (readable s) ++ tail ∧ tail.length < recordSize :=
  joined_blocks (Nat.le_refl _)

/-- what is behind the offset is records, where it is as long as records are -/
theorem rest_eq_joined (h : recordSize ∣ s.rest.length) : s.rest = joined (readable s) := by
  obtain ⟨tail, htail, hlt⟩ := rest_eq s
  have hdvd : recordSize ∣ tail.length := by
    rw [htail, List.length_append, joined_length] at h
    exact (Nat.dvd_add_right ⟨_, rfl⟩).mp h
  have hnil : tail = [] := List.length_eq_zero_iff.mp (Nat.eq_zero_of_dvd_of_lt hdvd hlt)
  rw [hnil, List.append_nil] at htail
  exact htail

theorem readable_congr (h : t.rest = s.rest) : readable t = readable s := by
  unfold readable
  rw [h]

theorem rest_length (s : Flash) : s.rest.length = s.bytes.length - s.qOffset := List.length_drop

theorem usedBytes_eq (s : Flash) : queueUsedBytes s = s.rest.length := by
  rw [rest_length]
  unfold queueUsedBytes
  dsimp only
  split
  · rfl
  · omega

/-! ## reading -/

namespace Flash

/-- the offset moves over `j` records -/
def skipped (s : Flash) (j : ℕ) : Flash := { s with qOffset := s.qOffset + recordSize * j }

theorem skipped_rest (s : Flash) (j : ℕ) : (s.skipped j).rest = s.rest.drop (recordSize * j) :=
  List.drop_drop.symm

theorem skipped_skipped (s : Flash) (i j : ℕ) : (s.skipped i).skipped j = s.skipped (i + j) := by
  unfold skipped
  rw [Nat.mul_add, ← Nat.add_assoc]

end Flash

theorem readable_skipped (s : Flash) (j : ℕ) : readable (s.skipped j) = (readable s).drop j := by
  obtain ⟨tail, htail, hlt⟩ := rest_eq s
  have hrest : (s.skipped j).rest =
      joined ((readable s).drop j) ++ tail.drop (recordSize * (j - (readable s).length)) := by
    rw [s.skipped_rest, htail, List.drop_append, joined_drop, joined_length, ← Nat.mul_sub]
  refine readable_of_rest hrest (Nat.lt_of_le_of_lt ?_ hlt)
  rw [List.length_drop]
  exact Nat.sub_le _ _

/-- a peek gives the first record that can be read -/
theorem peek_eq_head (s : Flash) : dequeuePeekRecord s = (readable s).head? := by
  have hrest := rest_length s
  unfold dequeuePeekRecord readable
  cases hfile : s.queueFile with
  | none =>
    have hbytes : s.bytes = [] := congrArg (Option.getD · []) hfile
    unfold Flash.rest
    rw [hbytes, List.drop_nil]
    rfl
  | some bytes =>
    have hbytes : s.bytes = bytes := congrArg (Option.getD · []) hfile
    have hdrop : bytes.drop s.qOffset = s.rest := by
      rw [← hbytes]
      rfl
    rw [hbytes] at hrest
    have hsize : recordSize = 62 := rfl
    dsimp only
    split
    · rename_i hle
      obtain ⟨n, hn⟩ := Nat.exists_eq_succ_of_ne_zero (n := s.rest.length) (by omega)
      have hlong : recordSize ≤ s.rest.length := by omega
      simp only [hdrop]
      rw [hn, blocks, dif_pos hlong]
      rfl
    · rename_i hlt
      have hshort : ¬recordSize ≤ s.rest.length := by omega
      cases s.rest.length with
      | zero => rfl
      | succ n =>
        rw [blocks, dif_neg hshort]
        rfl

end Firmware
