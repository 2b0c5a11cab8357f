import GridProof.Firmware.Queue

/-!
# What the functions of the queue do

Where each program of the queue ends, and where it may lose power, by the bytes behind the offset.

* `compact_ends`       a compaction keeps these bytes, if it copies them whole and the power is not lost between the
                       removal of the old file and the new offset;
* `surplus`            how many records have to go for a new one; `makeRoom` drops them, `evictions` one by one;
* `enqueue_ends`, `advance_ends`   the functions.
-/

namespace Firmware
open Outage

variable {e : Supply} {rec : Block} {q : List Block} {s t u : Flash}

section
variable {α : Type} {Q : α → Flash → Prop} {R : Flash → Prop}

/-- the power is lost, in `R` -/
def Supply.Cut (e : Supply) (R : Flash → Prop) (t : Flash) : Prop := e.lost ≠ none ∧ R t

theorem ends_supplied {p : Place} {f : Flash → α × Flash} (hR : e.lost = some p → R s)
    (hQ : Q (f s).1 (f s).2) : Ends (e.command p f) s Q (e.Cut R) := by
  refine Outage.Ends.command (fun hlost => ?_) fun _ => hQ
  have hlost := of_decide_eq_true hlost
  exact ⟨Option.ne_none_iff_exists'.mpr ⟨p, hlost⟩, hR hlost⟩

/-- a program ends where the power is not lost -/
theorem ends_unfailing {x : Program Flash α} (h : Ends x s Q (e.Cut R)) (hlost : e.lost = none) :
    ∃ a t, x s = (some a, t) ∧ Q a t := by
  unfold Ends at h
  generalize x s = result at h
  obtain ⟨_ | a, t⟩ := result
  · exact absurd hlost h.1
  · exact ⟨a, t, rfl, h⟩

end

/-! ## compaction -/

/-- a compaction would copy what is behind the offset -/
def Flash.Halved (s : Flash) : Prop := s.bytes.length / 2 < s.qOffset ∧ s.qOffset < s.bytes.length

instance (s : Flash) : Decidable s.Halved := inferInstanceAs (Decidable (_ ∧ _))

/-- a copy of what is behind the offset is stored as a whole -/
def Supply.CopiesWhole (e : Supply) (s : Flash) : Prop :=
  ∀ (i : ℕ) (t : Flash) (n : ℕ), t.queueFile = s.queueFile →
    (t.tmpFile.getD []).length + n ≤ s.rest.length → n ≤ e.stored (.copy i) t n

/-- the copy of a compaction is whole, and takes the place of the file before the power is lost -/
def Supply.Replaces (e : Supply) (s : Flash) : Prop :=
  s.Halved → e.lost ≠ some .rename ∧ e.lost ≠ some .reset ∧ e.CopiesWhole s

/-- `t` is `s`, or what was behind the offset of `s` is all that is in its file -/
structure Compacted (s t : Flash) : Prop where
  file : t = s ∨ s.bytes.length / 2 < s.qOffset ∧ t.qOffset = 0 ∧ t.bytes = s.rest
  tmp : s.tmpFile = none → t.tmpFile = none

theorem Compacted.rest (h : Compacted s t) : t.rest = s.rest := by
  rcases h.file with rfl | ⟨-, hoffset, hbytes⟩
  · rfl
  · unfold Flash.rest
    rw [hoffset, List.drop_zero]
    exact hbytes

/-- the loop copies what is left of the file -/
theorem copyLoop_ends (hcopy : e.CopiesWhole s) {fuel i position : ℕ} {t : Flash} (copied : List Byte)
    (hfile : t.queueFile = s.queueFile) (hoffset : t.qOffset = s.qOffset) (htmp : t.tmpFile = some copied)
    (hsplit : copied ++ s.bytes.drop position = s.rest) (hfuel : (s.bytes.drop position).length ≤ fuel) :
    Ends (copyLoop e fuel i position) t
      (fun _ u => u.queueFile = s.queueFile ∧ u.qOffset = s.qOffset ∧ u.tmpFile = some s.rest)
      (e.Cut fun u => u.queueFile = s.queueFile ∧ u.qOffset = s.qOffset) := by
  induction fuel generalizing i position t copied with
  | zero =>
    rw [List.length_eq_zero_iff.mp (Nat.le_zero.mp hfuel), List.append_nil] at hsplit
    rw [copyLoop, ends_pure, htmp, hsplit]
    exact ⟨hfile, hoffset, rfl⟩
  | succ fuel ih =>
    have hbytes : t.bytes = s.bytes := congrArg (Option.getD · []) hfile
    rw [copyLoop, ends_bind, ends_read, ends_ite, hbytes]
    generalize hbuf : (s.bytes.drop position).take 512 = buf
    have hparts : s.bytes.drop position = buf ++ s.bytes.drop (position + buf.length) := by
      rw [← List.drop_drop, ← hbuf, List.length_take]
      generalize s.bytes.drop position = left
      rcases Nat.le_total 512 left.length with hle | hle
      · rw [Nat.min_eq_left hle, List.take_append_drop]
      · rw [Nat.min_eq_right hle, List.take_of_length_le hle, List.drop_length, List.append_nil]
    split
    · rename_i hempty
      have hleft : s.bytes.drop position = [] := by
        rcases List.take_eq_nil_iff.mp (hbuf.trans hempty) with h | h
        · cases h
        · exact h
      rw [hleft, List.append_nil] at hsplit
      rw [ends_pure, htmp, hsplit]
      exact ⟨hfile, hoffset, rfl⟩
    · rename_i hne
      rw [ends_bind]
      refine ends_supplied (fun _ => ⟨hfile, hoffset⟩) ?_
      have hpos : 0 < buf.length := List.length_pos_iff.mpr hne
      have hlength := congrArg List.length hsplit
      rw [hparts, List.length_append, List.length_append] at hlength
      have hstored : buf.length ≤ e.stored (.copy i) t buf.length := by
        refine hcopy i t buf.length hfile ?_
        rw [htmp, Option.getD_some]
        omega
      refine ih (copied ++ buf) hfile hoffset ?_ ?_ ?_
      · rw [htmp, Option.map_some, List.take_of_length_le hstored]
      · rw [List.append_assoc, ← hparts, hsplit]
      · rw [hparts, List.length_append] at hfuel
        omega

/-- **A compaction keeps what is behind the offset.** -/
theorem compact_ends (h : e.Replaces s) :
    Ends (compactQueueIfNeeded e) s (fun _ t => Compacted s t) (e.Cut fun t => t.rest = s.rest) := by
  have hself : Compacted s s := ⟨.inl rfl, id⟩
  unfold compactQueueIfNeeded
  rw [ends_bind, ends_read, ends_bind, ends_read, ends_ite]
  split
  · exact hself
  · cases hfile : s.queueFile with
    | none => exact hself
    | some bytes =>
      have hbytes : s.bytes = bytes := congrArg (Option.getD · []) hfile
      dsimp only
      rw [ends_ite]
      split
      · -- everything is delivered
        rename_i hoffset hall
        rw [← hbytes] at hall
        have hrest : [] = s.rest := (List.drop_eq_nil_of_le hall).symm
        rw [ends_bind]
        refine ends_supplied (fun _ => rfl) (ends_supplied (fun _ => ?_) ⟨.inr ⟨?_, rfl, hrest⟩, id⟩)
        · exact List.drop_nil.trans hrest
        · omega
      · rename_i hleft
        rw [ends_ite]
        split
        · -- the rest is copied
          rename_i hhalf
          rw [← hbytes] at hhalf hleft
          obtain ⟨hrename, hreset, hcopy⟩ := h ⟨hhalf, Nat.not_le.mp hleft⟩
          rw [ends_bind]
          refine ends_supplied (fun _ => rfl) ?_
          rw [ends_bind]
          have hfuel : (s.bytes.drop s.qOffset).length ≤ bytes.length := by
            rw [List.length_drop, hbytes]
            exact Nat.sub_le _ _
          have hsame {t : Flash} (hq : t.queueFile = s.queueFile) (ho : t.qOffset = s.qOffset) : t.rest = s.rest := by
            unfold Flash.rest Flash.bytes
            rw [hq, ho]
          refine (copyLoop_ends (t := { s with tmpFile := some [] }) hcopy [] rfl rfl rfl rfl hfuel).mono ?_ ?_
          · rintro - t ⟨hq, ho, htmp⟩
            rw [ends_bind]
            refine ends_supplied (fun _ => hsame hq ho) ?_
            rw [ends_bind]
            refine ends_supplied (fun hlost => absurd hlost hrename) ?_
            refine ends_supplied (fun hlost => absurd hlost hreset) ⟨.inr ⟨hhalf, rfl, ?_⟩, fun _ => rfl⟩
            show t.tmpFile.getD [] = s.rest
            rw [htmp]
            rfl
          · rintro t ⟨hlost, hq, ho⟩
            exact ⟨hlost, hsame hq ho⟩
        · exact hself

/-! ## dropping the oldest -/

/-- how many records have to go for a new one, where so many bytes are behind the offset -/
def surplus (used : ℕ) : ℕ :=
  if used + recordSize ≤ maxQueueBytes then 0
  else (used + recordSize - maxQueueBytes + (recordSize - 1)) / recordSize

/-- the oldest records are dropped until a new one fits -/
def makeRoom (q : List Block) : List Block := q.drop (surplus (recordSize * q.length))

/-- the queues on the way, `makeRoom` last -/
def evictions (q : List Block) : List (List Block) :=
  (List.range (surplus (recordSize * q.length) + 1)).map fun j => q.drop j

/-- as many records as the queue ever holds -/
def maxRecords : ℕ := maxQueueBytes / recordSize

theorem surplus_def (used : ℕ) :
    surplus used = if used + 62 ≤ 9437184 then 0 else (used + 62 - 9437184 + 61) / 62 := rfl

theorem maxRecords_eq : maxRecords = 152212 := rfl

theorem surplus_eq_zero {used : ℕ} (h : used + recordSize ≤ maxQueueBytes) : surplus used = 0 := if_pos h

theorem surplus_step {used : ℕ} (h : maxQueueBytes < used + recordSize) :
    surplus used = surplus (used - recordSize) + 1 := by
  change 9437184 < used + 62 at h
  rw [surplus_def, surplus_def, show recordSize = 62 from rfl, if_neg (Nat.not_le.mpr h)]
  split
  · omega
  · omega

theorem surplus_le (used : ℕ) : recordSize * surplus used ≤ used := by
  rw [surplus_def, show recordSize = 62 from rfl]
  split
  · omega
  · omega

/-- a queue that holds no more than it may is at most one record too long for another -/
theorem surplus_le_one {n : ℕ} (h : n ≤ maxRecords) : surplus (recordSize * n) ≤ 1 := by
  rw [maxRecords_eq] at h
  rw [surplus_def, show recordSize = 62 from rfl]
  split
  · omega
  · omega

theorem makeRoom_length (q : List Block) : (makeRoom q).length + 1 ≤ maxRecords := by
  unfold makeRoom
  rw [List.length_drop, surplus_def, maxRecords_eq, show recordSize = 62 from rfl]
  split
  · omega
  · omega

theorem makeRoom_eq_self {q : List Block} (h : q.length < maxRecords) : makeRoom q = q := by
  unfold makeRoom
  rw [surplus_eq_zero, List.drop_zero]
  rw [maxRecords_eq] at h
  show 62 * q.length + 62 ≤ 9437184
  omega

/-- from a full queue the oldest record is dropped -/
theorem makeRoom_full {q : List Block} (h : q.length = maxRecords) : makeRoom q = q.tail := by
  unfold makeRoom
  rw [h, ← List.drop_one]
  rfl

theorem makeRoom_mem_evictions (q : List Block) : makeRoom q ∈ evictions q :=
  List.mem_map_of_mem (List.mem_range.mpr (Nat.lt_succ_self _))

theorem usedBytes_skipped (s : Flash) (j : ℕ) :
    queueUsedBytes (s.skipped j) = queueUsedBytes s - recordSize * j := by
  rw [usedBytes_eq, usedBytes_eq, s.skipped_rest, List.length_drop]

/-- **The oldest records are dropped, one by one.** -/
theorem evictLoop_ends {guard i : ℕ} (hguard : surplus (queueUsedBytes s) ≤ guard) :
    Ends (evictLoop e guard i) s (fun _ t => t = s.skipped (surplus (queueUsedBytes s)))
      (e.Cut fun t => ∃ j ≤ surplus (queueUsedBytes s), t = s.skipped j) := by
  induction guard generalizing s i with
  | zero =>
    rw [evictLoop, ends_pure, Nat.le_zero.mp hguard]
    exact rfl
  | succ guard ih =>
    rw [evictLoop, ends_bind, ends_read, ends_ite]
    split
    · rename_i hfull
      have hstep : surplus (queueUsedBytes s) = surplus (queueUsedBytes (s.skipped 1)) + 1 := by
        rw [usedBytes_skipped, Nat.mul_one]
        exact surplus_step hfull
      rw [hstep] at hguard ⊢
      rw [ends_bind, ends_read, ends_bind]
      refine ends_supplied (fun _ => ⟨0, Nat.zero_le _, rfl⟩) ?_
      refine (ih (s := s.skipped 1) (Nat.le_of_succ_le_succ hguard)).mono ?_ ?_
      · rintro - t rfl
        rw [s.skipped_skipped, Nat.add_comm]
      · rintro t ⟨hlost, j, hj, rfl⟩
        refine ⟨hlost, j + 1, Nat.succ_le_succ hj, ?_⟩
        rw [s.skipped_skipped, Nat.add_comm]
    · rename_i hfits
      rw [ends_pure, surplus_eq_zero (Nat.not_lt.mp hfits)]
      exact rfl

/-! ## a record is enqueued -/

/-- the oldest records are dropped -/
def Flash.roomy (s : Flash) : Flash := s.skipped (surplus s.rest.length)

def Flash.opened (s : Flash) : Flash := { s with queueFile := some s.bytes }

/-- what is stored of a record -/
def Supply.part (e : Supply) (rec : Block) (s : Flash) : List Byte :=
  rec.bytes.take (e.stored .append s.opened recordSize)

def appended (e : Supply) (rec : Block) (s : Flash) : Flash :=
  { s with queueFile := some (s.bytes ++ e.part rec s) }

theorem part_length_le (e : Supply) (rec : Block) (s : Flash) : (e.part rec s).length ≤ recordSize := by
  unfold Supply.part
  rw [List.length_take, rec.length_eq]
  exact Nat.min_le_right _ _

theorem part_eq (h : (e.part rec s).length = recordSize) : e.part rec s = rec.bytes := by
  unfold Supply.part at *
  rw [List.length_take, rec.length_eq] at h
  refine List.take_of_length_le ?_
  rw [rec.length_eq]
  omega

theorem storeRecord_ends (h : e.Replaces (appended e rec s)) :
    Ends (storeRecord e rec) s
      (fun ok t => ok = decide ((e.part rec s).length = recordSize) ∧ Compacted (appended e rec s) t)
      (e.Cut fun t => t.rest = s.rest ∨ t.rest = (appended e rec s).rest) := by
  unfold storeRecord
  rw [ends_bind]
  refine ends_supplied (fun _ => .inl rfl) ?_
  rw [ends_bind]
  refine ends_supplied (fun _ => .inl rfl) ?_
  rw [ends_bind]
  refine (compact_ends h).mono ?_ ?_
  · intro _ t ht
    exact ⟨rfl, ht⟩
  · rintro t ⟨hlost, ht⟩
    exact ⟨hlost, .inr ht⟩

/-- **The oldest records are dropped, and what is stored of the new one is behind the others.** -/
theorem enqueue_ends (hguard : surplus s.rest.length ≤ 100000) (h : e.Replaces (appended e rec s.roomy)) :
    Ends (enqueueRecord e rec) s
      (fun ok t => ok = decide ((e.part rec s.roomy).length = recordSize) ∧ Compacted (appended e rec s.roomy) t)
      (e.Cut fun t => (∃ j ≤ surplus s.rest.length, t.rest = (s.skipped j).rest) ∨
        t.rest = (appended e rec s.roomy).rest) := by
  have hloop (guard : ℕ) (hguard : surplus s.rest.length ≤ guard) :
      Ends (evictLoop e guard 0 >>= fun _ => storeRecord e rec) s
        (fun ok t => ok = decide ((e.part rec s.roomy).length = recordSize) ∧ Compacted (appended e rec s.roomy) t)
        (e.Cut fun t => (∃ j ≤ surplus s.rest.length, t.rest = (s.skipped j).rest) ∨
          t.rest = (appended e rec s.roomy).rest) := by
    rw [ends_bind]
    rw [← usedBytes_eq] at hguard
    refine (evictLoop_ends hguard).mono ?_ ?_
    · rintro - t rfl
      rw [usedBytes_eq]
      refine (storeRecord_ends h).mono (fun _ _ ht => ht) ?_
      rintro t ⟨hlost, ht | ht⟩
      · exact ⟨hlost, .inl ⟨_, Nat.le_refl _, ht⟩⟩
      · exact ⟨hlost, .inr ht⟩
    · rintro t ⟨hlost, j, hj, rfl⟩
      rw [usedBytes_eq] at hj
      exact ⟨hlost, .inl ⟨j, hj, rfl⟩⟩
  exact hloop 100000 hguard

theorem surplus_rest (hwhole : recordSize ∣ s.rest.length) :
    surplus s.rest.length = surplus (recordSize * (readable s).length) := by
  rw [rest_eq_joined hwhole, joined_length]

theorem roomy_within (hwithin : s.qOffset ≤ s.bytes.length) : s.roomy.qOffset ≤ s.roomy.bytes.length := by
  have hsurplus := surplus_le s.rest.length
  have hrest := rest_length s
  show s.qOffset + recordSize * surplus s.rest.length ≤ s.bytes.length
  omega

theorem roomy_rest (hwhole : recordSize ∣ s.rest.length) : s.roomy.rest = joined (makeRoom (readable s)) := by
  unfold Flash.roomy makeRoom
  rw [s.skipped_rest, surplus_rest hwhole, rest_eq_joined hwhole, joined_drop]

theorem appended_rest (hwithin : s.qOffset ≤ s.bytes.length) : (appended e rec s).rest = s.rest ++ e.part rec s :=
  List.drop_append_of_le_length hwithin

/-- a record that is stored is read, one of which a part is stored is not -/
theorem readable_appended (hwithin : s.qOffset ≤ s.bytes.length) (hwhole : recordSize ∣ s.rest.length) :
    readable (appended e rec s.roomy) =
      if (e.part rec s.roomy).length = recordSize then makeRoom (readable s) ++ [rec]
      else makeRoom (readable s) := by
  have hrest : (appended e rec s.roomy).rest = _ := appended_rest (roomy_within hwithin)
  rw [roomy_rest hwhole] at hrest
  split
  · rename_i hall
    refine readable_of_rest (?_ : _ = _ ++ []) (by decide)
    rw [hrest, part_eq hall, joined_append, List.append_nil]
    exact congrArg (joined (makeRoom (readable s)) ++ ·) (List.append_nil _).symm
  · rename_i hpart
    exact readable_of_rest hrest (Nat.lt_of_le_of_ne (part_length_le e rec _) hpart)

/-! ## a record is delivered -/

theorem advance_ends (h : e.Replaces (s.skipped 1)) :
    Ends (dequeueAdvance e) s (fun _ t => Compacted (s.skipped 1) t)
      (e.Cut fun t => t.rest = s.rest ∨ t.rest = (s.skipped 1).rest) := by
  unfold dequeueAdvance
  rw [ends_bind, ends_read, ends_bind]
  refine ends_supplied (fun _ => .inl rfl) ?_
  refine (compact_ends h).mono (fun _ _ ht => ht) ?_
  rintro t ⟨hlost, ht⟩
  exact ⟨hlost, .inr ht⟩

theorem readable_skipped_one (s : Flash) : readable (s.skipped 1) = (readable s).tail := by
  rw [readable_skipped, List.drop_one]

end Firmware
