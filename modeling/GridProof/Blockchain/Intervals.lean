import GridProof.Blockchain.Ledger

/-!
# The stretches of time that a zone attests

A record keeps the start of its epoch and not the duration, which is that of the setting when it was committed.

* `Attests`              the record committed in a state is about second `t`;
* `commit_once`          no pair of zone and start is committed twice, whatever keys collide;
* `epochs_disjoint`      records of a zone have different starts, and those of one duration share no second;
* `durations_overlap`    after a change of the duration a zone attests an hour twice.
-/

namespace UptimeAttestation
open ReputationEscrow (Bytes32)

/-- aligned epochs of one duration are the same or share no second -/
theorem aligned_disjoint {a b d t : ℕ} (ha : d ∣ a) (hb : d ∣ b) (hta : a ≤ t ∧ t < a + d)
    (htb : b ≤ t ∧ t < b + d) : a = b := by
  have hd : 0 < d := by omega
  have hquot : ∀ x, d ∣ x → x ≤ t → t < x + d → x = t / d * d := by
    rintro x ⟨k, rfl⟩ hle hlt
    have hk : t / d = k := by
      rw [Nat.div_eq_iff hd]
      rw [Nat.mul_comm] at hle hlt
      omega
    rw [hk, Nat.mul_comm]
  rw [hquot a ha hta.1 hta.2, hquot b hb htb.1 htb.2]

namespace Storage
variable {keccak256 : BitVec (8 * 40) → Bytes32}

/-- a record that `c` commits in state `s` attests the interval from its start over the duration in force -/
def Attests (s : Storage) (c : CommitEpoch) (t : ℕ) : Prop :=
  c.epochStart.toNat ≤ t ∧ t < c.epochStart.toNat + s.epochDuration.toNat

instance (s : Storage) (c : CommitEpoch) (t : ℕ) : Decidable (Attests s c t) :=
  inferInstanceAs (Decidable (_ ∧ _))

theorem commit_once {initialEpochDuration : BitVec 64} {s : Storage} {calls : List (Msg × Call)}
    (hs : deploy initialEpochDuration = .ok s) {i j : ℕ} {msg msg' : Msg} {c c' : CommitEpoch}
    (hi : CommitsAt keccak256 s calls i msg c) (hj : CommitsAt keccak256 s calls j msg' c')
    (hzone : c.zoneId = c'.zoneId) (hstart : c.epochStart = c'.epochStart) : i = j := by
  have hslot := @slot keccak256 _ s calls (epochKey keccak256 c.zoneId c.epochStart) hs
  refine hslot.once ⟨msg, c, hi, rfl, rfl⟩ ⟨msg', c', hj, ?_, rfl⟩
  rw [hzone, hstart]

/-- **Two records of a zone start at different times, and if they were committed under the same duration no
second is attested by both.** -/
theorem epochs_disjoint {initialEpochDuration : BitVec 64} {s : Storage}
    (hs : deploy initialEpochDuration = .ok s) (calls : List (Msg × Call)) {i j : ℕ} {msg msg' : Msg}
    {c c' : CommitEpoch} (hi : CommitsAt keccak256 s calls i msg c)
    (hj : CommitsAt keccak256 s calls j msg' c') (hne : i ≠ j) (hzone : c.zoneId = c'.zoneId) :
    c.epochStart ≠ c'.epochStart ∧
    ((after keccak256 s (calls.take i)).epochDuration =
        (after keccak256 s (calls.take j)).epochDuration →
      ∀ t, ¬ (Attests (after keccak256 s (calls.take i)) c t ∧
        Attests (after keccak256 s (calls.take j)) c' t)) := by
  have hstart : c.epochStart ≠ c'.epochStart := fun h => hne (commit_once hs hi hj hzone h)
  refine ⟨hstart, ?_⟩
  rintro hduration t ⟨ht, ht'⟩
  obtain ⟨-, u, hu⟩ := hi
  obtain ⟨-, u', hu'⟩ := hj
  have haligned := (isAlignedEpoch_iff.mp (commitEpoch_eq_ok hu).2.2.2.2.1).2
  have haligned' := (isAlignedEpoch_iff.mp (commitEpoch_eq_ok hu').2.2.2.2.1).2
  unfold Attests at ht'
  rw [← hduration] at haligned' ht'
  exact hstart (BitVec.eq_of_toNat_eq (aligned_disjoint haligned haligned' ht ht'))

/-- the first two hours of zone 1 -/
def hourCalls : List (Msg × Call) :=
  [(sampleMsg, .commitEpoch (sampleCommit 0)), (sampleMsg, .commitEpoch (sampleCommit 3600))]

theorem epochs_disjoint_hours :
    CommitsAt sampleKeccak256 sampleStorage hourCalls 0 sampleMsg (sampleCommit 0) ∧
    CommitsAt sampleKeccak256 sampleStorage hourCalls 1 sampleMsg (sampleCommit 3600) ∧
    ∀ t, ¬ (Attests (after sampleKeccak256 sampleStorage (hourCalls.take 0)) (sampleCommit 0) t ∧
      Attests (after sampleKeccak256 sampleStorage (hourCalls.take 1)) (sampleCommit 3600) t) := by
  have hfirst : CommitsAt sampleKeccak256 sampleStorage hourCalls 0 sampleMsg (sampleCommit 0) :=
    ⟨rfl, _, rfl⟩
  have hsecond : CommitsAt sampleKeccak256 sampleStorage hourCalls 1 sampleMsg
      (sampleCommit 3600) := ⟨rfl, _, rfl⟩
  have hs : deploy 3600 = .ok sampleStorage := rfl
  exact ⟨hfirst, hsecond,
    (epochs_disjoint hs hourCalls hfirst hsecond (by decide) rfl).2 rfl⟩

/-- the second hour of zone 1, and with a duration of two hours the first two -/
def overlapCalls : List (Msg × Call) :=
  [(sampleMsg, .commitEpoch (sampleCommit 3600)), (sampleMsg, .admin (.setEpochDuration 7200)),
    (sampleMsg, .commitEpoch (sampleCommit 0))]

/-- **After a change of the duration a zone attests an hour twice.** -/
theorem durations_overlap : deploy 3600 = .ok sampleStorage ∧
    CommitsAt sampleKeccak256 sampleStorage overlapCalls 0 sampleMsg (sampleCommit 3600) ∧
    CommitsAt sampleKeccak256 sampleStorage overlapCalls 2 sampleMsg (sampleCommit 0) ∧
    ¬ ∀ t, ¬ (Attests (after sampleKeccak256 sampleStorage (overlapCalls.take 0)) (sampleCommit 3600) t ∧
      Attests (after sampleKeccak256 sampleStorage (overlapCalls.take 2)) (sampleCommit 0) t) :=
  ⟨rfl, ⟨rfl, _, rfl⟩, ⟨rfl, _, rfl⟩, fun h => h 3600 (by decide)⟩

end Storage
end UptimeAttestation
